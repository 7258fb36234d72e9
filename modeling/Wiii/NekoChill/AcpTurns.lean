import Wiii.NekoChill.AcpAuthority

/-!
# Turns of an ACP driver

The events of a turn come in one block: it is started, it may fail, and it is finished or fails for good (`TurnLog`).
Its cleanup waits for the computer requests that were pending when its prompt was answered (`CleanupLog`).
-/

namespace Wiii.NekoChill

namespace AcpEvent

def turn : AcpEvent → Option ℕ
  | turnStarted n _ | turnFinished n _ _ | turnError n _ => some n
  | _ => none

def isStarted : AcpEvent → Bool
  | turnStarted _ _ => true
  | _ => false

def isFinished : AcpEvent → Bool
  | turnFinished _ _ _ => true
  | _ => false

/-- Before those of later turns, and in its turn between the start and the finish. -/
def Before (e later : AcpEvent) : Prop := ∀ n m, e.turn = some n → later.turn = some m →
  n < m ∨ n = m ∧ e.isFinished = false ∧ later.isStarted = false

end AcpEvent

/-- A request of the turn that was forwarded before its prompt was answered. -/
def ForwardedRequest.IsOf (f : ForwardedRequest) (n : ℕ) : Prop := f.turn = some n ∧ f.completed = false

namespace AcpDriver

variable {c : AcpConfig} {s next : AcpDriver} {turn : Turn}

/-! ## Events -/

structure TurnLog (c : AcpConfig) (s : AcpDriver) : Prop where
  bounded : ∀ e ∈ s.events, ∀ n, e.turn = some n → n < s.turns
  ordered : s.events.Pairwise AcpEvent.Before
  sameId : ∀ n id, .turnStarted n id ∈ s.events → ∀ reason other, .turnFinished n reason other ∈ s.events → other = id
  ended : ∀ n id, .turnStarted n id ∈ s.events → (∃ turn, s.turn = some turn ∧ turn.number = n) ∨
    (∃ reason, .turnFinished n reason id ∈ s.events) ∨ .turnError n true ∈ s.events ∨ s.disposed = true
  exclusive : ∀ n, .turnError n true ∈ s.events → ∀ reason id, .turnFinished n reason id ∉ s.events
  last : ∀ turn, s.turn = some turn → turn.number + 1 = s.turns
  unfinished : ∀ turn, s.turn = some turn → ∀ reason id, .turnFinished turn.number reason id ∉ s.events
  unstarted : ∀ turn cleanup, s.turn = some turn → turn.phase = .cleaning cleanup → ∀ e ∈ s.events,
    e.turn ≠ some turn.number
  runningId : ∀ turn id, s.turn = some turn → .turnStarted turn.number id ∈ s.events → turn.promptEventId = id
  admitted : ∀ turn, s.turn = some turn → c.taskScope = true →
    s.admission = .admitted ∨ s.disposed = true ∨ .turnError turn.number true ∈ s.events
  fatal : ∀ turn, s.turn = some turn → .turnError turn.number true ∈ s.events →
    c.taskScope = true ∧ s.admission = .failed

namespace TurnLog

theorem keep (h : s.TurnLog c) {new : List AcpEvent} (hevents : next.events = s.events ++ new)
    (hnew : ∀ e ∈ new, e.turn = none) (hturn : next.turn = s.turn) (hturns : next.turns = s.turns)
    (hdisposed : s.disposed = true → next.disposed = true)
    (hadmitted : s.admission = .admitted → next.admission = .admitted ∨ next.disposed = true)
    (hfailed : s.admission = .failed → next.admission = .failed) : next.TurnLog c := by
  have hmem : ∀ e, e.turn ≠ none → e ∈ next.events → e ∈ s.events := by
    intro e hne hmem
    rw [hevents] at hmem
    exact (List.mem_append.1 hmem).resolve_right fun hlast => hne (hnew e hlast)
  have hold : ∀ e ∈ s.events, e ∈ next.events := by
    intro e hmem
    rw [hevents]
    exact List.mem_append_left _ hmem
  constructor
  · intro e he n hn
    rw [hturns]
    exact h.bounded e (hmem e (by rw [hn]; exact Option.some_ne_none _) he) n hn
  · rw [hevents]
    refine List.pairwise_append.2 ⟨h.ordered, ?_, ?_⟩
    · refine List.pairwise_of_forall_mem_list fun e he later hlater n m hn => ?_
      rw [hnew e he] at hn
      cases hn
    · intro e he later hlater n m _ hm
      rw [hnew later hlater] at hm
      cases hm
  · exact fun n id hstart reason other hfinish => h.sameId n id (hmem _ (Option.some_ne_none _) hstart) reason other
      (hmem _ (Option.some_ne_none _) hfinish)
  · intro n id hstart
    rw [hturn]
    rcases h.ended n id (hmem _ (Option.some_ne_none _) hstart) with hrun | ⟨reason, hfinish⟩ | herror | hgone
    · exact .inl hrun
    · exact .inr (.inl ⟨reason, hold _ hfinish⟩)
    · exact .inr (.inr (.inl (hold _ herror)))
    · exact .inr (.inr (.inr (hdisposed hgone)))
  · exact fun n herror reason id hfinish => h.exclusive n (hmem _ (Option.some_ne_none _) herror) reason id
      (hmem _ (Option.some_ne_none _) hfinish)
  · rw [hturn, hturns]
    exact h.last
  · rw [hturn]
    exact fun turn hrun reason id hfinish => h.unfinished turn hrun reason id (hmem _ (Option.some_ne_none _) hfinish)
  · rw [hturn]
    intro turn cleanup hrun hphase e he hn
    exact h.unstarted turn cleanup hrun hphase e (hmem e (by rw [hn]; exact Option.some_ne_none _) he) hn
  · rw [hturn]
    exact fun turn id hrun hstart => h.runningId turn id hrun (hmem _ (Option.some_ne_none _) hstart)
  · rw [hturn]
    intro turn hrun hscope
    rcases h.admitted turn hrun hscope with hok | hgone | herror
    · exact (hadmitted hok).elim .inl fun hgone => .inr (.inl hgone)
    · exact .inr (.inl (hdisposed hgone))
    · exact .inr (.inr (hold _ herror))
  · rw [hturn]
    intro turn hrun herror
    obtain ⟨hscope, hfail⟩ := h.fatal turn hrun (hmem _ (Option.some_ne_none _) herror)
    exact ⟨hscope, hfailed hfail⟩

theorem rephase (h : s.TurnLog c) (hturn : s.turn = some turn) (phase : PromptPhase)
    (hphase : ∀ cleanup, phase ≠ .cleaning cleanup) (hevents : next.events = s.events)
    (hnext : next.turn = some { turn with phase := phase }) (hturns : next.turns = s.turns)
    (hdisposed : next.disposed = s.disposed) (hadmission : next.admission = s.admission) : next.TurnLog c := by
  have hof : ∀ other, next.turn = some other → other = { turn with phase := phase } := by
    intro other hother
    rw [hnext] at hother
    exact (Option.some.inj hother).symm
  constructor
  · rw [hevents, hturns]
    exact h.bounded
  · rw [hevents]
    exact h.ordered
  · rw [hevents]
    exact h.sameId
  · rw [hevents, hdisposed]
    intro n id hstart
    rcases h.ended n id hstart with ⟨other, hother, hnumber⟩ | hrest
    · rw [hturn] at hother
      cases hother
      exact .inl ⟨_, hnext, hnumber⟩
    · exact .inr hrest
  · rw [hevents]
    exact h.exclusive
  · intro other hother
    rw [hof other hother, hturns]
    exact h.last turn hturn
  · intro other hother
    rw [hof other hother, hevents]
    exact h.unfinished turn hturn
  · intro other cleanup hother hcleaning
    rw [hof other hother] at hcleaning
    exact absurd hcleaning (hphase cleanup)
  · intro other id hother
    rw [hof other hother, hevents]
    exact h.runningId turn id hturn
  · intro other hother
    rw [hof other hother, hevents, hdisposed, hadmission]
    exact h.admitted turn hturn
  · intro other hother
    rw [hof other hother, hevents, hadmission]
    exact h.fatal turn hturn

theorem endPrompt (h : s.TurnLog c) (hturn : s.turn = some turn) {reason : TurnStopReason} :
    (s.endPrompt turn reason).TurnLog c :=
  h.rephase hturn (.revoking (s.snapshots.length + 1) reason) (fun _ heq => nomatch heq) rfl rfl rfl rfl rfl

theorem before (h : s.TurnLog c) (hturn : s.turn = some turn) {later : AcpEvent} (hlater : later.turn = some turn.number)
    (hstarted : later.isStarted = true → ∀ e ∈ s.events, e.turn ≠ some turn.number) :
    (s.events ++ [later]).Pairwise AcpEvent.Before := by
  refine List.pairwise_append.2 ⟨h.ordered, List.pairwise_singleton _ _, fun e he other hother n m hn hm => ?_⟩
  rw [List.mem_singleton.1 hother] at hm ⊢
  rw [hlater] at hm
  cases hm
  have hlt := h.bounded e he n hn
  have hlast := h.last turn hturn
  rcases Nat.lt_or_eq_of_le (show n ≤ turn.number by omega) with hlt | heq
  · exact .inl hlt
  · refine .inr ⟨heq, ?_, ?_⟩
    · rw [heq] at hn
      cases e with
      | turnFinished k reason id =>
        cases hn
        exact absurd he (h.unfinished turn hturn reason id)
      | _ => rfl
    · cases hcase : later.isStarted with
      | false => rfl
      | true =>
        rw [heq] at hn
        exact absurd hn (hstarted hcase e he)

theorem mem_emit {e event : AcpEvent} : e ∈ s.events ++ [event] ↔ e ∈ s.events ∨ e = event := by
  rw [List.mem_append, List.mem_singleton]

theorem bounded_emit (h : s.TurnLog c) (hturn : s.turn = some turn) {event : AcpEvent}
    (hevent : event.turn = some turn.number) : ∀ e ∈ s.events ++ [event], ∀ n, e.turn = some n → n < s.turns := by
  intro e he n hn
  rcases mem_emit.1 he with he | rfl
  · exact h.bounded e he n hn
  · rw [hevent] at hn
    cases hn
    have hlast := h.last turn hturn
    omega

theorem emitError (h : s.TurnLog c) (hturn : s.turn = some turn) (hphase : ∀ cleanup, turn.phase ≠ .cleaning cleanup)
    {fatal : Bool} (hevents : next.events = s.events ++ [.turnError turn.number fatal]) (hnext : next.turn = s.turn)
    (hturns : next.turns = s.turns) (hdisposed : next.disposed = s.disposed)
    (hadmission : c.taskScope = true → next.admission = s.admission ∨ fatal = true)
    (hfatal : fatal = true → c.taskScope = true ∧ next.admission = .failed)
    (hfailed : s.admission = .failed → next.admission = .failed) : next.TurnLog c := by
  constructor
  · rw [hevents, hturns]
    exact h.bounded_emit hturn rfl
  · rw [hevents]
    exact h.before hturn rfl fun hstarted => nomatch hstarted
  · rw [hevents]
    intro n id hstart reason other hfinish
    rcases mem_emit.1 hstart with hstart | heq
    · rcases mem_emit.1 hfinish with hfinish | heq
      · exact h.sameId n id hstart reason other hfinish
      · cases heq
    · cases heq
  · rw [hevents, hnext, hdisposed]
    intro n id hstart
    rcases mem_emit.1 hstart with hstart | heq
    · rcases h.ended n id hstart with hrun | ⟨reason, hfinish⟩ | herror | hgone
      · exact .inl hrun
      · exact .inr (.inl ⟨reason, mem_emit.2 (.inl hfinish)⟩)
      · exact .inr (.inr (.inl (mem_emit.2 (.inl herror))))
      · exact .inr (.inr (.inr hgone))
    · cases heq
  · rw [hevents]
    intro n herror reason id hfinish
    rcases mem_emit.1 hfinish with hold | heq
    · rcases mem_emit.1 herror with herror | heq
      · exact h.exclusive n herror reason id hold
      · cases heq
        exact h.unfinished turn hturn reason id hold
    · cases heq
  · rw [hnext, hturns]
    exact h.last
  · rw [hnext, hevents]
    intro other hother reason id hfinish
    rcases mem_emit.1 hfinish with hfinish | heq
    · exact h.unfinished other hother reason id hfinish
    · cases heq
  · rw [hnext]
    intro other cleanup hother hcleaning
    rw [hturn] at hother
    cases hother
    exact absurd hcleaning (hphase cleanup)
  · rw [hnext, hevents]
    intro other id hother hstart
    rcases mem_emit.1 hstart with hstart | heq
    · exact h.runningId other id hother hstart
    · cases heq
  · rw [hnext, hevents, hdisposed]
    intro other hother hscope
    rcases h.admitted other hother hscope with hok | hgone | herror
    · rcases hadmission hscope with hkept | hfatal
      · exact .inl (hkept.trans hok)
      · rw [hturn] at hother
        cases hother
        exact .inr (.inr (mem_emit.2 (.inr (by rw [hfatal]))))
    · exact .inr (.inl hgone)
    · exact .inr (.inr (mem_emit.2 (.inl herror)))
  · rw [hnext, hevents]
    intro other hother herror
    rcases mem_emit.1 herror with hold | heq
    · exact ⟨(h.fatal other hother hold).1, hfailed (h.fatal other hother hold).2⟩
    · have hfatal' : fatal = true := by
        injection heq with _ hfatal
        exact hfatal.symm
      exact hfatal hfatal'

theorem failPrompt (h : s.TurnLog c) (hturn : s.turn = some turn) (hevents : next.events = s.events)
    (hturns : next.turns = s.turns) (hdisposed : next.disposed = s.disposed)
    (hadmission : next.admission = s.admission ∨ next.admission = .failed) : (next.failPrompt c turn).TurnLog c := by
  let ended : Turn := { turn with phase := .revoking (next.snapshots.length + 1) .error }
  have hended : TurnLog c { s with turn := some ended } :=
    h.rephase hturn (.revoking (next.snapshots.length + 1) .error) (fun _ heq => nomatch heq) rfl rfl rfl rfl rfl
  have hrun : ({ s with turn := some ended } : AcpDriver).turn = some ended := rfl
  have hemitted : (next.failPrompt c turn).events =
      s.events ++ [.turnError turn.number (c.taskScope && decide (next.admission = .failed))] := by
    show next.events ++ _ = _
    rw [hevents]
  refine hended.emitError hrun (fun _ heq => nomatch heq) hemitted rfl hturns hdisposed (fun hscope => ?_)
    (fun hfatal => ?_) fun hfailed => ?_
  · rcases hadmission with hkept | hfailed
    · exact .inl hkept
    · exact .inr (by rw [hscope, hfailed]; rfl)
  · have hboth : c.taskScope = true ∧ next.admission = .failed := by simpa using hfatal
    exact hboth
  · rcases hadmission with hkept | hfailed'
    · exact hkept.trans hfailed
    · exact hfailed'

theorem start (h : s.TurnLog c) (hturn : s.turn = some turn) {cleanup : ℕ} (hphase : turn.phase = .cleaning cleanup) :
    TurnLog c ({ s with turn := some { turn with phase := .answering } }.emit
      (.turnStarted turn.number turn.promptEventId)) := by
  have hfresh := h.unstarted turn cleanup hturn hphase
  constructor
  · exact h.bounded_emit hturn rfl
  · exact h.before hturn rfl fun _ => hfresh
  · intro n id hstart reason other hfinish
    rcases mem_emit.1 hfinish with hfinish | heq
    · rcases mem_emit.1 hstart with hstart | heq
      · exact h.sameId n id hstart reason other hfinish
      · cases heq
        exact absurd hfinish (h.unfinished turn hturn reason other)
    · cases heq
  · intro n id hstart
    rcases mem_emit.1 hstart with hstart | heq
    · rcases h.ended n id hstart with ⟨other, hother, hnumber⟩ | ⟨reason, hfinish⟩ | herror | hgone
      · rw [hturn] at hother
        cases hother
        exact .inl ⟨_, rfl, hnumber⟩
      · exact .inr (.inl ⟨reason, mem_emit.2 (.inl hfinish)⟩)
      · exact .inr (.inr (.inl (mem_emit.2 (.inl herror))))
      · exact .inr (.inr (.inr hgone))
    · cases heq
      exact .inl ⟨_, rfl, rfl⟩
  · intro n herror reason id hfinish
    rcases mem_emit.1 hfinish with hfinish | heq
    · rcases mem_emit.1 herror with herror | heq
      · exact h.exclusive n herror reason id hfinish
      · cases heq
    · cases heq
  · intro other hother
    cases hother
    exact h.last turn hturn
  · intro other hother reason id hfinish
    cases hother
    rcases mem_emit.1 hfinish with hfinish | heq
    · exact h.unfinished turn hturn reason id hfinish
    · cases heq
  · intro other cleanup hother hcleaning
    cases hother
    cases hcleaning
  · intro other id hother hstart
    cases hother
    rcases mem_emit.1 hstart with hstart | heq
    · exact absurd rfl (hfresh _ hstart)
    · cases heq
      rfl
  · intro other hother hscope
    cases hother
    rcases h.admitted turn hturn hscope with hok | hgone | herror
    · exact .inl hok
    · exact .inr (.inl hgone)
    · exact .inr (.inr (mem_emit.2 (.inl herror)))
  · intro other hother herror
    cases hother
    rcases mem_emit.1 herror with herror | heq
    · exact h.fatal turn hturn herror
    · cases heq

theorem close (h : s.TurnLog c) (hturn : s.turn = some turn) {event : AcpEvent}
    (hevent : event = .turnError turn.number true ∨
      (∃ reason, event = .turnFinished turn.number reason turn.promptEventId) ∧
        (c.taskScope && decide (s.admission = .failed)) = false) :
    ({ s with turn := none }.emit event).TurnLog c := by
  have hnumber : event.turn = some turn.number := by
    rcases hevent with rfl | ⟨⟨reason, rfl⟩, -⟩
    · rfl
    · rfl
  have hstarted : event.isStarted = false := by
    rcases hevent with rfl | ⟨⟨reason, rfl⟩, -⟩
    · rfl
    · rfl
  constructor
  · exact h.bounded_emit hturn hnumber
  · exact h.before hturn hnumber fun hbad => by rw [hstarted] at hbad; cases hbad
  · intro n id hstart reason other hfinish
    rcases mem_emit.1 hstart with hold | rfl
    · rcases mem_emit.1 hfinish with hfinish | rfl
      · exact h.sameId n id hold reason other hfinish
      · rcases hevent with heq | ⟨⟨_, heq⟩, -⟩
        · cases heq
        · cases heq
          exact h.runningId turn id hturn hold
    · cases hstarted
  · intro n id hstart
    rcases mem_emit.1 hstart with hold | rfl
    · rcases h.ended n id hold with ⟨other, hother, rfl⟩ | ⟨reason, hfinish⟩ | herror | hgone
      · rw [hturn] at hother
        cases hother
        rcases hevent with rfl | ⟨⟨reason, rfl⟩, -⟩
        · exact .inr (.inr (.inl (mem_emit.2 (.inr rfl))))
        · rw [h.runningId turn id hturn hold]
          exact .inr (.inl ⟨reason, mem_emit.2 (.inr rfl)⟩)
      · exact .inr (.inl ⟨reason, mem_emit.2 (.inl hfinish)⟩)
      · exact .inr (.inr (.inl (mem_emit.2 (.inl herror))))
      · exact .inr (.inr (.inr hgone))
    · cases hstarted
  · intro n herror reason id hfinish
    rcases mem_emit.1 herror with hold | heq
    · rcases mem_emit.1 hfinish with hfinish | heq
      · exact h.exclusive n hold reason id hfinish
      · rcases hevent with rfl | ⟨⟨_, rfl⟩, hguard⟩
        · cases heq
        · cases heq
          obtain ⟨hscope, hfailed⟩ := h.fatal turn hturn hold
          simp [hscope, hfailed] at hguard
    · rcases mem_emit.1 hfinish with hold | hother
      · rcases hevent with rfl | ⟨⟨_, rfl⟩, -⟩
        · cases heq
          exact h.unfinished turn hturn reason id hold
        · cases heq
      · rw [← hother] at heq
        cases heq
  · exact fun other hother => nomatch hother
  · exact fun other hother => nomatch hother
  · exact fun other _ hother => nomatch hother
  · exact fun other _ hother => nomatch hother
  · exact fun other hother => nomatch hother
  · exact fun other hother => nomatch hother

theorem leave (h : s.TurnLog c) (hturn : s.turn = some turn)
    (hfailed : (c.taskScope && decide (s.admission = .failed)) = true) :
    TurnLog c { s with turn := none } := by
  rw [Bool.and_eq_true, decide_eq_true_eq] at hfailed
  refine ⟨h.bounded, h.ordered, h.sameId, fun n id hstart => ?_, h.exclusive, fun _ hother => (nomatch hother),
    fun _ hother => (nomatch hother), fun _ _ hother => (nomatch hother), fun _ _ hother => (nomatch hother),
    fun _ hother => (nomatch hother), fun _ hother => (nomatch hother)⟩
  rcases h.ended n id hstart with ⟨other, hother, rfl⟩ | hrest
  · rw [hturn] at hother
    cases hother
    rcases h.admitted turn hturn hfailed.1 with hok | hgone | herror
    · rw [hfailed.2] at hok
      cases hok
    · exact .inr (.inr (.inr hgone))
    · exact .inr (.inr (.inl herror))
  · exact .inr hrest

theorem prompt (h : s.TurnLog c) {text : JsText} {promptEventId : Option JsText} :
    (s.prompt c text promptEventId).TurnLog c := by
  unfold AcpDriver.prompt
  split
  · exact h
  · rename_i hguard
    simp only [Bool.or_eq_true, not_or, Bool.not_eq_true, Option.isSome_eq_false_iff, Option.isNone_iff_eq_none,
      Bool.not_eq_false'] at hguard
    have hadmitted := hguard.1.1.1.1
    simp only [isAdmitted, Bool.and_eq_true, decide_eq_true_eq] at hadmitted
    have hfresh : ∀ e ∈ s.events, e.turn ≠ some s.turns := fun e he hn => absurd (h.bounded e he _ hn) (by omega)
    refine ⟨fun e he n hn => Nat.lt_succ_of_lt (h.bounded e he n hn), h.ordered, h.sameId, fun n id hstart => ?_,
      h.exclusive, ?_, ?_, ?_, ?_, ?_, ?_⟩
    · rcases h.ended n id hstart with ⟨other, hother, -⟩ | hrest
      · rw [hguard.2] at hother
        cases hother
      · exact .inr hrest
    · intro other hother
      cases hother
      rfl
    · intro other hother reason id hfinish
      cases hother
      exact hfresh _ hfinish rfl
    · intro other cleanup hother _
      cases hother
      exact hfresh
    · intro other id hother hstart
      cases hother
      exact absurd rfl (hfresh _ hstart)
    · exact fun other hother _ => .inl hadmitted.2
    · intro other hother herror
      cases hother
      exact absurd rfl (hfresh _ herror)

theorem wake (h : s.TurnLog c) : (s.wake c).TurnLog c := by
  unfold AcpDriver.wake
  split
  · rename_i turn hturn
    split
    · rename_i cleanup hphase
      split
      · exact h
      · split
        · exact h.failPrompt hturn rfl rfl rfl (.inl rfl)
        · exact h.start hturn hphase
    · exact h
  · exact h

theorem answer (h : s.TurnLog c) {result : Option JsValue} : (s.answer c result).TurnLog c := by
  unfold AcpDriver.answer
  split
  · rename_i turn hturn
    split
    · exact h.failPrompt hturn rfl rfl rfl (.inl rfl)
    · split
      · exact h.endPrompt hturn
      · exact h.failPrompt hturn rfl rfl rfl (.inr rfl)
    · exact h
  · exact h

theorem finish (h : s.TurnLog c) : (s.finish c).TurnLog c := by
  unfold AcpDriver.finish
  split
  · rename_i turn hturn
    split
    · split
      · exact h
      · exact h.close hturn (.inl rfl)
      · split
        · rename_i hfailed
          exact h.leave hturn hfailed
        · rename_i hfailed
          exact h.close hturn (.inr ⟨⟨_, rfl⟩, Bool.eq_false_iff.2 hfailed⟩)
    · exact h
  · exact h

theorem keep_eq (h : s.TurnLog c) (hevents : next.events = s.events) (hturn : next.turn = s.turn)
    (hturns : next.turns = s.turns) (hdisposed : next.disposed = s.disposed) (hadmission : next.admission = s.admission) :
    next.TurnLog c := by
  refine h.keep (hevents.trans (List.append_nil _).symm) (fun _ hmem => nomatch hmem) hturn hturns ?_ ?_ ?_
  · rw [hdisposed]
    exact id
  · rw [hadmission]
    exact .inl
  · rw [hadmission]
    exact id

theorem disposed (h : s.TurnLog c) {new : List AcpEvent} (hevents : next.events = s.events ++ new)
    (hnew : ∀ e ∈ new, e.turn = none) (hturn : next.turn = s.turn) (hturns : next.turns = s.turns)
    (hdisposed : next.disposed = true) (hfailed : s.admission = .failed → next.admission = .failed) :
    next.TurnLog c :=
  h.keep hevents hnew hturn hturns (fun _ => hdisposed) (fun _ => .inr hdisposed) hfailed

theorem step (h : s.TurnLog c) (act : AcpAct) : (s.step c act).TurnLog c := by
  have habort : ({ s with disposed := true } : AcpDriver).abortAdmission.events = s.events ∧
      ({ s with disposed := true } : AcpDriver).abortAdmission.turn = s.turn ∧
      ({ s with disposed := true } : AcpDriver).abortAdmission.turns = s.turns ∧
      ({ s with disposed := true } : AcpDriver).abortAdmission.disposed = true ∧
      (s.admission = .failed → ({ s with disposed := true } : AcpDriver).abortAdmission.admission = .failed) := by
    unfold abortAdmission
    split
    · exact ⟨rfl, rfl, rfl, rfl, fun _ => rfl⟩
    · exact ⟨rfl, rfl, rfl, rfl, id⟩
  obtain ⟨hevents, hturn, hturns, hdisposed, hfailed⟩ := habort
  cases act with
  | prompt text promptEventId => exact h.prompt
  | wake => exact h.wake
  | answer result => exact h.answer
  | finish => exact h.finish
  | start =>
    show s.start.TurnLog c
    unfold AcpDriver.start
    split
    · exact h
    · rename_i hguard
      simp only [Bool.or_eq_true, decide_eq_true_eq, not_or, not_not, Bool.not_eq_true] at hguard
      refine h.keep (List.append_nil _).symm (fun _ hmem => nomatch hmem) rfl rfl id (fun hbad => ?_) fun hbad => ?_
      · rw [hguard.2] at hbad
        cases hbad
      · rw [hguard.2] at hbad
        cases hbad
  | admitSession sessionId receipt =>
    show (s.admitSession c sessionId receipt).TurnLog c
    unfold admitSession
    split
    · exact h
    · rename_i hguard
      simp only [Bool.or_eq_true, decide_eq_true_eq, not_or, not_not, Bool.not_eq_true] at hguard
      refine h.keep (List.append_nil _).symm (fun _ hmem => nomatch hmem) rfl rfl id (fun _ => .inl rfl) fun hbad => ?_
      rw [hguard.1.1.2] at hbad
      cases hbad
  | admissionOverflow =>
    show s.admissionOverflow.TurnLog c
    unfold admissionOverflow
    split
    · exact h
    · rename_i hguard
      simp only [Bool.or_eq_true, decide_eq_true_eq, not_or, not_not, Bool.not_eq_true] at hguard
      refine h.keep rfl (fun e hmem => ?_) rfl rfl id (fun hbad => ?_) fun _ => rfl
      · rw [List.mem_singleton.1 hmem]
        rfl
      · rw [hguard.2] at hbad
        cases hbad
  | endStart =>
    show s.endStart.TurnLog c
    unfold endStart
    split
    · exact h
    · split
      · exact h.keep_eq rfl rfl rfl rfl rfl
      · rename_i hadmitted
        refine h.keep (List.append_nil _).symm (fun _ hmem => nomatch hmem) rfl rfl id (fun hok => ?_) fun _ => rfl
        cases hdisposed : s.disposed with
        | true => exact .inr rfl
        | false => exact absurd (by simp [isAdmitted, hdisposed, hok]) hadmitted
  | cancel =>
    show s.cancel.TurnLog c
    unfold cancel
    split
    · exact h.keep_eq rfl rfl rfl rfl rfl
    · exact h
  | exit =>
    refine h.disposed ?_ (fun e (hmem : e ∈ [.processExited]) => ?_) hturn hturns hdisposed hfailed
    · show ({ s with disposed := true } : AcpDriver).abortAdmission.events ++ _ = _
      rw [hevents]
    · rw [List.mem_singleton.1 hmem]
      rfl
  | dispose =>
    exact h.disposed (hevents.trans (List.append_nil _).symm) (fun _ hmem => nomatch hmem) hturn hturns hdisposed hfailed
  | computerRequest method =>
    show (s.computerRequest c method).TurnLog c
    unfold computerRequest
    split
    · exact h
    · exact h.keep_eq rfl rfl rfl rfl rfl
  | settleRequest request => exact h.keep_eq rfl rfl rfl rfl rfl
  | settleCleanup ok =>
    show (s.settleCleanup c ok).TurnLog c
    unfold settleCleanup
    split
    · exact h
    · split
      · exact h
      · exact h.keep_eq rfl rfl rfl rfl rfl
  | requestPermission params =>
    show (s.requestPermission c params).TurnLog c
    unfold requestPermission
    split
    · exact h.keep_eq rfl rfl rfl rfl rfl
    · split
      · exact h.keep_eq rfl rfl rfl rfl rfl
      · refine h.keep rfl (fun e hmem => ?_) rfl rfl id .inl id
        rw [List.mem_singleton.1 hmem]
        rfl
  | resolvePermission requestId optionId =>
    show (s.resolvePermission c requestId optionId).TurnLog c
    unfold resolvePermission
    split
    · exact h
    · exact h.keep_eq rfl rfl rfl rfl rfl

end TurnLog

theorem turnLog_start : ({} : AcpDriver).TurnLog c :=
  ⟨fun _ hmem => (nomatch hmem), .nil, fun _ _ hmem => (nomatch hmem), fun _ _ hmem => (nomatch hmem),
    fun _ hmem => (nomatch hmem), fun _ hturn => (nomatch hturn), fun _ hturn => (nomatch hturn),
    fun _ _ hturn => (nomatch hturn), fun _ _ hturn => (nomatch hturn), fun _ hturn => (nomatch hturn),
    fun _ hturn => (nomatch hturn)⟩

/-! ## Cleanups -/

structure CleanupLog (s : AcpDriver) : Prop where
  settled : ∀ k < s.outcomes.length, ∀ snapshot, s.snapshots[k]? = some snapshot → ∀ request ∈ snapshot,
    request ∉ s.computerRequests
  counted : s.outcomes.length ≤ s.snapshots.length
  fresh : ∀ snapshot ∈ s.snapshots, ∀ request ∈ snapshot, request < s.requests
  pending : ∀ request ∈ s.computerRequests, request < s.requests
  known : ∀ f ∈ s.forwarded, f.request < s.requests
  waited : ∀ turn cleanup reason, s.turn = some turn → turn.phase = .revoking cleanup reason →
    ∃ k snapshot, cleanup = k + 1 ∧ s.snapshots[k]? = some snapshot ∧ ∀ f ∈ s.forwarded, f.IsOf turn.number →
      f.request ∈ s.computerRequests → f.request ∈ snapshot
  finished : ∀ n reason id, .turnFinished n reason id ∈ s.events → ∀ f ∈ s.forwarded, f.IsOf n →
    f.request ∉ s.computerRequests
  mutating : ∀ f ∈ s.forwarded, f.method.mutating = true → ∃ n, f.IsOf n

namespace CleanupLog

theorem keep (h : s.CleanupLog)
    (hsnapshots : next.snapshots = s.snapshots ∨ next.snapshots = s.snapshots ++ [s.computerRequests])
    (houtcomes : next.outcomes = s.outcomes) (hrequests : next.requests = s.requests)
    (hcomputer : next.computerRequests = s.computerRequests) (hforwarded : next.forwarded = s.forwarded)
    (hwaited : ∀ turn cleanup reason, next.turn = some turn → turn.phase = .revoking cleanup reason →
      s.turn = some turn ∨ cleanup = s.snapshots.length + 1 ∧ next.snapshots = s.snapshots ++ [s.computerRequests])
    (hfinished : ∀ n reason id, .turnFinished n reason id ∈ next.events → .turnFinished n reason id ∈ s.events ∨
      ∀ f ∈ s.forwarded, f.IsOf n → f.request ∉ s.computerRequests) : next.CleanupLog := by
  have hget : ∀ k < s.snapshots.length, next.snapshots[k]? = s.snapshots[k]? := by
    intro k hk
    rcases hsnapshots with heq | heq
    · rw [heq]
    · rw [heq, List.getElem?_append_left hk]
  constructor
  · rw [houtcomes, hcomputer]
    intro k hk snapshot hsnapshot
    rw [hget k (Nat.lt_of_lt_of_le hk h.counted)] at hsnapshot
    exact h.settled k hk snapshot hsnapshot
  · rw [houtcomes]
    rcases hsnapshots with heq | heq
    · rw [heq]
      exact h.counted
    · rw [heq, List.length_append]
      exact Nat.le_trans h.counted (Nat.le_add_right _ _)
  · rw [hrequests]
    intro snapshot hmem request hrequest
    rcases hsnapshots with heq | heq
    · rw [heq] at hmem
      exact h.fresh snapshot hmem request hrequest
    · rw [heq] at hmem
      rcases List.mem_append.1 hmem with hmem | hlast
      · exact h.fresh snapshot hmem request hrequest
      · rw [List.mem_singleton.1 hlast] at hrequest
        exact h.pending request hrequest
  · rw [hcomputer, hrequests]
    exact h.pending
  · rw [hforwarded, hrequests]
    exact h.known
  · rw [hforwarded, hcomputer]
    intro turn cleanup reason hturn hphase
    rcases hwaited turn cleanup reason hturn hphase with hturn | ⟨rfl, heq⟩
    · obtain ⟨k, snapshot, hcleanup, hsnapshot, hall⟩ := h.waited turn cleanup reason hturn hphase
      have hk : k < s.snapshots.length := by
        by_contra hlong
        rw [List.getElem?_eq_none (by omega)] at hsnapshot
        cases hsnapshot
      exact ⟨k, snapshot, hcleanup, (hget k hk).trans hsnapshot, hall⟩
    · refine ⟨s.snapshots.length, s.computerRequests, rfl, ?_, fun f _ _ hpending => hpending⟩
      rw [heq]
      simp
  · rw [hforwarded, hcomputer]
    intro n reason id hfinish
    rcases hfinished n reason id hfinish with hold | hsettled
    · exact h.finished n reason id hold
    · exact hsettled
  · rw [hforwarded]
    exact h.mutating

theorem keep_eq (h : s.CleanupLog) (hsnapshots : next.snapshots = s.snapshots) (houtcomes : next.outcomes = s.outcomes)
    (hrequests : next.requests = s.requests) (hcomputer : next.computerRequests = s.computerRequests)
    (hforwarded : next.forwarded = s.forwarded) (hturn : next.turn = s.turn) {new : List AcpEvent}
    (hevents : next.events = s.events ++ new) (hnew : ∀ e ∈ new, e.isFinished = false) : next.CleanupLog := by
  refine h.keep (.inl hsnapshots) houtcomes hrequests hcomputer hforwarded (fun _ _ _ hrun _ => .inl ?_)
    fun n reason id hfinish => .inl ?_
  · rw [← hturn]
    exact hrun
  · rw [hevents] at hfinish
    exact (List.mem_append.1 hfinish).resolve_right fun hlast => nomatch hnew _ hlast

theorem failPrompt (h : s.CleanupLog) : (s.failPrompt c turn).CleanupLog := by
  refine h.keep (.inr rfl) rfl rfl rfl rfl (fun other cleanup reason hrun hphase => .inr ?_)
    fun n reason id hfinish => .inl ?_
  · cases hrun
    cases hphase
    exact ⟨rfl, rfl⟩
  · rcases List.mem_append.1 hfinish with hold | hlast
    · exact hold
    · cases List.mem_singleton.1 hlast

theorem endPrompt (h : s.CleanupLog) {reason : TurnStopReason} : (s.endPrompt turn reason).CleanupLog := by
  refine h.keep (.inr rfl) rfl rfl rfl rfl (fun other cleanup stop hrun hphase => .inr ?_) fun n stop id hfinish => .inl hfinish
  cases hrun
  cases hphase
  exact ⟨rfl, rfl⟩

theorem rejectAnswer (h : s.CleanupLog) : s.rejectAnswer.CleanupLog :=
  h.keep_eq rfl rfl rfl rfl rfl rfl (List.append_nil _).symm fun _ hmem => nomatch hmem

theorem prompt (h : s.CleanupLog) {text : JsText} {promptEventId : Option JsText} :
    (s.prompt c text promptEventId).CleanupLog := by
  unfold AcpDriver.prompt
  split
  · exact h
  · refine h.keep (.inl rfl) rfl rfl rfl rfl (fun other cleanup reason hrun hphase => ?_) fun _ _ _ hfinish => .inl hfinish
    cases hrun
    cases hphase

theorem wake (h : s.CleanupLog) : (s.wake c).CleanupLog := by
  unfold AcpDriver.wake
  split
  · split
    · split
      · exact h
      · split
        · exact h.failPrompt
        · refine h.keep (.inl rfl) rfl rfl rfl rfl (fun other cleanup reason hrun hphase => ?_)
            fun n reason id hfinish => .inl ?_
          · cases hrun
            cases hphase
          · rcases List.mem_append.1 hfinish with hold | hlast
            · exact hold
            · cases List.mem_singleton.1 hlast
    · exact h
  · exact h

theorem answer (h : s.CleanupLog) {result : Option JsValue} : (s.answer c result).CleanupLog := by
  unfold AcpDriver.answer
  split
  · split
    · exact h.failPrompt
    · split
      · exact h.endPrompt
      · exact h.rejectAnswer.failPrompt
    · exact h
  · exact h

/-- A cleanup that ended waited for every request of the turn. -/
theorem settled_of_outcome (h : s.CleanupLog) {cleanup : ℕ} {reason : TurnStopReason} {ok : Bool}
    (hturn : s.turn = some turn) (hphase : turn.phase = .revoking cleanup reason)
    (houtcome : s.cleanupOutcome cleanup = some ok) : ∀ f ∈ s.forwarded, f.IsOf turn.number →
      f.request ∉ s.computerRequests := by
  obtain ⟨k, snapshot, rfl, hsnapshot, hall⟩ := h.waited turn cleanup reason hturn hphase
  have hk : k < s.outcomes.length := by
    have houtcome : s.outcomes[k]? = some ok := houtcome
    by_contra hlong
    rw [List.getElem?_eq_none (by omega)] at houtcome
    cases houtcome
  exact fun f hf hof hpending => h.settled k hk snapshot hsnapshot _ (hall f hf hof hpending) hpending

theorem finish (h : s.CleanupLog) : (s.finish c).CleanupLog := by
  unfold AcpDriver.finish
  split
  · rename_i turn hturn
    split
    · rename_i cleanup reason hphase
      split
      · exact h
      · refine h.keep (.inl rfl) rfl rfl rfl rfl (fun _ _ _ hrun => nomatch hrun) fun n reason id hfinish => .inl ?_
        rcases List.mem_append.1 hfinish with hold | hlast
        · exact hold
        · cases List.mem_singleton.1 hlast
      · rename_i houtcome
        split
        · exact h.keep (.inl rfl) rfl rfl rfl rfl (fun _ _ _ hrun => nomatch hrun) fun _ _ _ hfinish => .inl hfinish
        · refine h.keep (.inl rfl) rfl rfl rfl rfl (fun _ _ _ hrun => nomatch hrun) fun n stop id hfinish => ?_
          rcases List.mem_append.1 hfinish with hold | hlast
          · exact .inl hold
          · cases List.mem_singleton.1 hlast
            exact .inr (h.settled_of_outcome hturn hphase houtcome)
    · exact h
  · exact h

theorem revoke (h : s.CleanupLog) : s.revokeComputer.CleanupLog :=
  h.keep (.inr rfl) rfl rfl rfl rfl (fun _ _ _ hrun _ => .inl hrun) fun _ _ _ hfinish => .inl hfinish

theorem computerRequest (h : s.CleanupLog) (hlog : s.TurnLog c) (hauthority : s.AuthorityOk)
    {method : ComputerMethod} : (s.computerRequest c method).CleanupLog := by
  unfold AcpDriver.computerRequest
  split
  · exact h
  · rename_i hguard
    constructor
    · intro k hk snapshot hsnapshot request hrequest hpending
      rcases List.mem_append.1 hpending with hold | hlast
      · exact h.settled k hk snapshot hsnapshot request hrequest hold
      · rw [List.mem_singleton.1 hlast] at hrequest
        exact Nat.lt_irrefl _ (h.fresh snapshot (List.mem_of_getElem? hsnapshot) _ hrequest)
    · exact h.counted
    · exact fun snapshot hmem request hrequest => Nat.lt_succ_of_lt (h.fresh snapshot hmem request hrequest)
    · intro request hrequest
      rcases List.mem_append.1 hrequest with hold | hlast
      · exact Nat.lt_succ_of_lt (h.pending request hold)
      · rw [List.mem_singleton.1 hlast]
        exact Nat.lt_succ_self _
    · intro f hf
      rcases List.mem_append.1 hf with hold | hlast
      · exact Nat.lt_succ_of_lt (h.known f hold)
      · rw [List.mem_singleton.1 hlast]
        exact Nat.lt_succ_self _
    · intro turn cleanup reason hturn hphase
      obtain ⟨k, snapshot, hcleanup, hsnapshot, hall⟩ := h.waited turn cleanup reason hturn hphase
      refine ⟨k, snapshot, hcleanup, hsnapshot, fun f hf hof hpending => ?_⟩
      rcases List.mem_append.1 hf with hold | hlast
      · rcases List.mem_append.1 hpending with hpending | hlast
        · exact hall f hold hof hpending
        · have hlt := h.known f hold
          rw [List.mem_singleton.1 hlast] at hlt
          exact absurd hlt (Nat.lt_irrefl _)
      · have hopen := hof.2
        rw [List.mem_singleton.1 hlast, show s.turn = some turn from hturn] at hopen
        simp [Turn.isCompleted, hphase] at hopen
    · intro n reason id hfinish f hf hof hpending
      rcases List.mem_append.1 hf with hold | hlast
      · rcases List.mem_append.1 hpending with hpending | hlast
        · exact h.finished n reason id hfinish f hold hof hpending
        · have hlt := h.known f hold
          rw [List.mem_singleton.1 hlast] at hlt
          exact Nat.lt_irrefl _ hlt
      · have hturn := hof.1
        rw [List.mem_singleton.1 hlast] at hturn
        obtain ⟨turn, hrun, rfl⟩ := Option.map_eq_some_iff.1 hturn
        exact hlog.unfinished turn hrun reason id hfinish
    · intro f hf hmutating
      rcases List.mem_append.1 hf with hold | hlast
      · exact h.mutating f hold hmutating
      · rw [List.mem_singleton.1 hlast] at hmutating ⊢
        simp only [Bool.or_eq_true, Bool.and_eq_true, not_or, not_and, Bool.not_eq_true, Option.isNone_eq_false_iff]
          at hguard
        obtain ⟨hrun, hheld⟩ := hguard.2 hmutating
        obtain ⟨t, ht⟩ := Option.isSome_iff_exists.1 hheld
        obtain ⟨-, -, turn, hturn, -, hopen⟩ := hauthority.authority t ht
        exact ⟨turn.number, by rw [hturn]; rfl, by rw [hturn]; exact hopen⟩

theorem settleRequest (h : s.CleanupLog) {request : ℕ} : (s.settleRequest request).CleanupLog := by
  have hsub : ∀ r, r ∈ (s.settleRequest request).computerRequests → r ∈ s.computerRequests :=
    fun r hr => (List.mem_filter.1 hr).1
  refine ⟨fun k hk snapshot hsnapshot r hr hpending => h.settled k hk snapshot hsnapshot r hr (hsub r hpending),
    h.counted, h.fresh, fun r hr => h.pending r (hsub r hr), h.known, fun turn cleanup reason hturn hphase => ?_,
    fun n reason id hfinish f hf hof hpending => h.finished n reason id hfinish f hf hof (hsub _ hpending), h.mutating⟩
  obtain ⟨k, snapshot, hcleanup, hsnapshot, hall⟩ := h.waited turn cleanup reason hturn hphase
  exact ⟨k, snapshot, hcleanup, hsnapshot, fun f hf hof hpending => hall f hf hof (hsub _ hpending)⟩

theorem settleCleanup (h : s.CleanupLog) {ok : Bool} : (s.settleCleanup c ok).CleanupLog := by
  unfold AcpDriver.settleCleanup
  split
  · exact h
  · rename_i snapshot hsnapshot
    split
    · exact h
    · rename_i hguard
      simp only [Bool.or_eq_true, not_or, Bool.not_eq_true, List.any_eq_false, decide_eq_true_eq] at hguard
      have hlt : s.outcomes.length < s.snapshots.length := by
        by_contra hlong
        rw [List.getElem?_eq_none (by omega)] at hsnapshot
        cases hsnapshot
      refine ⟨fun k hk other hother => ?_, ?_, h.fresh, h.pending, h.known, h.waited, h.finished, h.mutating⟩
      · have hk : k < (s.outcomes ++ [ok]).length := hk
        rw [List.length_append, List.length_singleton] at hk
        rcases Nat.lt_succ_iff_lt_or_eq.1 hk with hk | rfl
        · exact h.settled k hk other hother
        · have hother : s.snapshots[s.outcomes.length]? = some other := hother
          rw [hsnapshot] at hother
          cases hother
          exact hguard.1
      · show (s.outcomes ++ [ok]).length ≤ _
        rw [List.length_append]
        exact hlt

theorem step (h : s.CleanupLog) (hlog : s.TurnLog c) (hauthority : s.AuthorityOk) (act : AcpAct) :
    (s.step c act).CleanupLog := by
  have hdisposed : ({ s with disposed := true } : AcpDriver).abortAdmission.CleanupLog := by
    unfold abortAdmission
    split <;> exact h.keep_eq rfl rfl rfl rfl rfl rfl (List.append_nil _).symm fun _ hmem => nomatch hmem
  cases act with
  | prompt text promptEventId => exact h.prompt
  | wake => exact h.wake
  | answer result => exact h.answer
  | finish => exact h.finish
  | computerRequest method => exact h.computerRequest hlog hauthority
  | settleRequest request => exact h.settleRequest
  | settleCleanup ok => exact h.settleCleanup
  | start =>
    show s.start.CleanupLog
    unfold AcpDriver.start
    split <;> exact h.keep_eq rfl rfl rfl rfl rfl rfl (List.append_nil _).symm fun _ hmem => nomatch hmem
  | admitSession sessionId receipt =>
    show (s.admitSession c sessionId receipt).CleanupLog
    unfold admitSession
    split <;> exact h.keep_eq rfl rfl rfl rfl rfl rfl (List.append_nil _).symm fun _ hmem => nomatch hmem
  | admissionOverflow =>
    show s.admissionOverflow.CleanupLog
    unfold admissionOverflow
    split
    · exact h
    · refine h.keep_eq rfl rfl rfl rfl rfl rfl rfl fun e hmem => ?_
      rw [List.mem_singleton.1 hmem]
      rfl
  | endStart =>
    show s.endStart.CleanupLog
    unfold endStart
    split
    · exact h
    · split <;> exact h.keep_eq rfl rfl rfl rfl rfl rfl (List.append_nil _).symm fun _ hmem => nomatch hmem
  | cancel =>
    show s.cancel.CleanupLog
    unfold cancel
    split
    · exact h.revoke.keep_eq rfl rfl rfl rfl rfl rfl (List.append_nil _).symm fun _ hmem => nomatch hmem
    · exact h
  | exit =>
    refine hdisposed.revoke.keep_eq rfl rfl rfl rfl rfl rfl rfl fun e hmem => ?_
    rw [List.mem_singleton.1 hmem]
    rfl
  | dispose =>
    have hrefused : ({ s with disposed := true } : AcpDriver).abortAdmission.refusePermissions.CleanupLog :=
      hdisposed.keep_eq rfl rfl rfl rfl rfl rfl (List.append_nil _).symm fun _ hmem => nomatch hmem
    exact hrefused.revoke
  | requestPermission params =>
    show (s.requestPermission c params).CleanupLog
    unfold requestPermission
    split
    · exact h.keep_eq rfl rfl rfl rfl rfl rfl (List.append_nil _).symm fun _ hmem => nomatch hmem
    · split
      · exact h.keep_eq rfl rfl rfl rfl rfl rfl (List.append_nil _).symm fun _ hmem => nomatch hmem
      · refine h.keep_eq rfl rfl rfl rfl rfl rfl rfl fun e hmem => ?_
        rw [List.mem_singleton.1 hmem]
        rfl
  | resolvePermission requestId optionId =>
    show (s.resolvePermission c requestId optionId).CleanupLog
    unfold resolvePermission
    split
    · exact h
    · exact h.keep_eq rfl rfl rfl rfl rfl rfl (List.append_nil _).symm fun _ hmem => nomatch hmem

end CleanupLog

theorem cleanupLog_start : ({} : AcpDriver).CleanupLog :=
  ⟨fun _ hk => (nomatch hk), Nat.le_refl _, fun _ hmem => (nomatch hmem), fun _ hmem => (nomatch hmem),
    fun _ hmem => (nomatch hmem), fun _ _ _ hturn => (nomatch hturn), fun _ _ _ hmem => (nomatch hmem),
    fun _ hmem => (nomatch hmem)⟩

theorem turns_run (acts : List AcpAct) :
    (run c acts).TurnLog c ∧ (run c acts).CleanupLog ∧ (run c acts).AuthorityOk :=
  run_induction (P := fun s => s.TurnLog c ∧ s.CleanupLog ∧ s.AuthorityOk)
    ⟨turnLog_start, cleanupLog_start, authorityOk_start⟩
    (fun _ act h => ⟨h.1.step act, h.2.1.step h.1 h.2.2 act, h.2.2.step act⟩) acts

/-! ## Turns of a run -/

structure Bracketed (c : AcpConfig) (s : AcpDriver) : Prop where
  /-- The events of a turn come in one block: the start first, and nothing after the finish. -/
  ordered : s.events.Pairwise AcpEvent.Before
  sameId : ∀ n id, .turnStarted n id ∈ s.events → ∀ reason other, .turnFinished n reason other ∈ s.events → other = id
  ended : ∀ n id, .turnStarted n id ∈ s.events → (∃ turn, s.turn = some turn ∧ turn.number = n) ∨
    (∃ reason, .turnFinished n reason id ∈ s.events) ∨ .turnError n true ∈ s.events ∨ s.disposed = true
  exclusive : ∀ n, .turnError n true ∈ s.events → ∀ reason id, .turnFinished n reason id ∉ s.events
  /-- A mutating request is forwarded only while a turn has its authority. -/
  active : ∀ method, method.mutating = true → (s.step c (.computerRequest method)).forwarded ≠ s.forwarded →
    ∃ turn, s.turn = some turn ∧ s.turnAuthority = some turn.number ∧ turn.isCompleted = false ∧
      turn.number ∉ s.cancelled
  mutating : ∀ f ∈ s.forwarded, f.method.mutating = true → ∃ n, f.IsOf n
  settled : ∀ n reason id, .turnFinished n reason id ∈ s.events → ∀ f ∈ s.forwarded, f.IsOf n →
    f.request ∉ s.computerRequests

theorem bracketed_of_run (c : AcpConfig) (acts : List AcpAct) : (run c acts).Bracketed c := by
  obtain ⟨hlog, hcleanup, hauthority⟩ := turns_run (c := c) acts
  refine ⟨hlog.ordered, hlog.sameId, hlog.ended, hlog.exclusive, fun method hmutating hforwarded => ?_,
    hcleanup.mutating, hcleanup.finished⟩
  have hstep : ((run c acts).computerRequest c method).forwarded ≠ (run c acts).forwarded := hforwarded
  unfold computerRequest at hstep
  split at hstep
  · exact absurd rfl hstep
  · rename_i hguard
    simp only [Bool.or_eq_true, Bool.and_eq_true, not_or, not_and, Bool.not_eq_true, Option.isNone_eq_false_iff]
      at hguard
    obtain ⟨t, ht⟩ := Option.isSome_iff_exists.1 (hguard.2 hmutating).2
    obtain ⟨hcancelled, -, turn, hturn, rfl, hopen⟩ := hauthority.authority t ht
    exact ⟨turn, hturn, ht, hopen, hcancelled⟩

/-- A turn whose cleanup fails is not finished, and a request that only reads may outlive its turn. -/
theorem turns_unbracketed :
    (∃ acts n event, .turnStarted n event ∈ (run ⟨false, true, id⟩ acts).events ∧
      (run ⟨false, true, id⟩ acts).turn = none ∧ (run ⟨false, true, id⟩ acts).disposed = false ∧
      ∀ reason other, .turnFinished n reason other ∉ (run ⟨false, true, id⟩ acts).events) ∧
    ∃ acts n reason event, .turnFinished n reason event ∈ (run ⟨false, true, id⟩ acts).events ∧
      ∃ f ∈ (run ⟨false, true, id⟩ acts).forwarded, f.turn = some n ∧
        f.request ∈ (run ⟨false, true, id⟩ acts).computerRequests := by
  let prompted : List AcpAct := [.start, .admitSession (js "session") none, .endStart, .prompt (js "go") none, .wake]
  let answered : AcpAct := .answer (some (.object [("stopReason", .string (js "end_turn"))]))
  refine ⟨⟨prompted ++ [answered, .settleCleanup false, .finish], 0, none, ?_, ?_, ?_, fun reason other hmem => ?_⟩,
    prompted ++ [answered, .computerRequest .observe, .settleCleanup true, .finish], 0, .endTurn, none, ?_,
    ⟨0, .observe, some 0, true⟩, ?_, rfl, ?_⟩
  · decide +kernel
  · decide +kernel
  · decide +kernel
  · have hevents : (run ⟨false, true, id⟩ (prompted ++ [answered, .settleCleanup false, .finish])).events =
      [.turnStarted 0 none, .turnError 0 true] := by decide +kernel
    rw [hevents] at hmem
    simp at hmem
  · decide +kernel
  · decide +kernel
  · decide +kernel

end AcpDriver

end Wiii.NekoChill
