import Wiii.NekoChill.OutboxQueues
import Wiii.NekoChill.OutboxSteps

/-!
# The pause of an outbox is a gate

A pause blocks its session at once, and only the end of a resume unblocks it.  A resume that was called before the pause
may end after it: then the session is sent to although it is paused (`paused_send`).  Without such resumes a send after
a pause has a resume called after the pause (`resumed_of_send`).
-/

namespace Wiii.NekoChill

open Function (update update_self update_of_ne)

variable {o o' p q : Outbox} {act : OutboxAct} {sessionId : String} {call : ℕ}

/-! ## Calls of `resume` -/

/-- A call of `resume` after some steps. -/
structure ResumeCall.Le (c d : ResumeCall) : Prop where
  sessionId : d.sessionId = c.sessionId
  completed : ∀ ok, c.completed = some ok → d.completed = some ok
  overtaken : c.overtaken = true → d.overtaken = true

theorem ResumeCall.Le.refl (c : ResumeCall) : c.Le c := ⟨rfl, fun _ h => h, fun h => h⟩

theorem ResumeCall.le_settle (error : Option String) (c : ResumeCall) : c.Le (c.settle error) :=
  ⟨rfl, fun _ h => h, fun h => h⟩

theorem ResumeCall.le_overtake (c : ResumeCall) : c.Le (c.overtake sessionId) := by
  unfold overtake
  split
  · exact ⟨rfl, fun _ h => h, fun _ => rfl⟩
  · exact .refl c

namespace Outbox

/-- No call of `resume` has a number that was not given yet. -/
def FreshCalls (o : Outbox) : Prop := ∀ call c, o.resumes call = some c → call < o.nextCall

/-- The calls of `resume` are numbered, and each goes on. -/
structure Onward (o o' : Outbox) : Prop where
  fresh : o.FreshCalls → o'.FreshCalls
  nextCall : o.nextCall ≤ o'.nextCall
  resumes : ∀ call < o.nextCall, ∃ f : ResumeCall → ResumeCall, (∀ c : ResumeCall, c.Le (f c)) ∧
    o'.resumes call = (o.resumes call).map f

theorem Onward.of_map (f : ℕ → ResumeCall → ResumeCall) (hnext : o'.nextCall = o.nextCall)
    (h : ∀ call, o'.resumes call = (o.resumes call).map (f call))
    (hf : ∀ call c, o.resumes call = some c → c.Le (f call c)) : Onward o o' := by
  refine ⟨fun hfresh call c hc => ?_, Nat.le_of_eq hnext.symm, fun call _ => ?_⟩
  · rw [h] at hc
    obtain ⟨d, hd, -⟩ := Option.map_eq_some_iff.1 hc
    exact hnext ▸ hfresh call d hd
  · cases hc : o.resumes call with
    | none => exact ⟨id, ResumeCall.Le.refl, by rw [h, hc]; rfl⟩
    | some d =>
      refine ⟨fun c => if c = d then f call d else c, fun c => ?_, by simp [h, hc]⟩
      dsimp only
      split
      · rename_i heq
        exact heq ▸ hf call d hc
      · exact .refl c

theorem Onward.of_eq (hnext : o'.nextCall = o.nextCall) (h : o'.resumes = o.resumes) : Onward o o' :=
  .of_map (fun _ => id) hnext (fun call => by rw [h, Option.map_id_apply]) fun _ c _ => .refl c

theorem Onward.of_update (f : ResumeCall → ResumeCall) (hf : ∀ c, o.resumes call = some c → c.Le (f c))
    (hnext : o'.nextCall = o.nextCall) (h : o'.resumes = update o.resumes call ((o.resumes call).map f)) :
    Onward o o' := by
  refine .of_map (fun other => if other = call then f else id) hnext (fun other => ?_) fun other c hc => ?_
  · by_cases heq : other = call
    · rw [h, heq, update_self, if_pos rfl]
    · rw [h, update_of_ne heq, if_neg heq, Option.map_id_apply]
  · by_cases heq : other = call
    · rw [if_pos heq]
      exact hf c (heq ▸ hc)
    · rw [if_neg heq]
      exact .refl c

theorem onward_finish (txn : Txn) (rest : List Txn) (error : Option String) (hnext : p.nextCall = o.nextCall)
    (h : p.resumes = o.resumes) : Onward o (p.finish txn rest error) := by
  cases txn with
  | plain change => exact .of_eq hnext h
  | resume sessionId call =>
    have hsettle : (p.finish (.resume sessionId call) rest error).resumes =
        update o.resumes call ((o.resumes call).map (ResumeCall.settle error)) := by
      rw [← h]
      rfl
    exact .of_update _ (fun c _ => c.le_settle error) hnext hsettle
  | dispatch sessionId => exact .of_eq hnext h

/-! ## Blocked sessions -/

@[simp] theorem blocked_finish (txn : Txn) (rest : List Txn) (error : Option String) :
    (o.finish txn rest error).blocked = o.blocked := by
  cases txn <;> rfl

theorem onward_pause (reason : String) : Onward o (o.pause sessionId reason) :=
  .of_map (fun _ => ResumeCall.overtake sessionId) rfl (fun _ => rfl) fun _ c _ => c.le_overtake

theorem onward_step (h : o.step act = some o') (hlive : ∀ reached, act ≠ .restart reached) : Onward o o' := by
  cases act with
  | enqueue binding text => cases h; exact .of_eq rfl rfl
  | edit sessionId id text => cases h; exact .of_eq rfl rfl
  | remove sessionId id => cases h; exact .of_eq rfl rfl
  | pause sessionId reason => cases h; exact onward_pause reason
  | resume sessionId call =>
    obtain ⟨rfl, rfl⟩ := resume_eq_some h
    refine ⟨fun hfresh c d hd => ?_, Nat.le_succ _, fun c hc => ⟨id, ResumeCall.Le.refl, ?_⟩⟩
    · show c < o.nextCall + 1
      by_cases heq : c = o.nextCall
      · omega
      · exact Nat.lt_succ_of_lt (hfresh c d ((update_of_ne heq _ _).symm.trans hd))
    · rw [Option.map_id_apply]
      exact update_of_ne (Nat.ne_of_lt hc) _ _
  | begin =>
    obtain ⟨txn, rest, -, -, ⟨error, rfl⟩ | ⟨next, -, -, rfl⟩⟩ := begin_eq_some h
    · exact onward_finish txn rest _ rfl rfl
    · exact .of_eq rfl rfl
  | written =>
    obtain ⟨txn, rest, next, -, -, rfl⟩ := written_eq_some h
    exact onward_finish txn rest none rfl rfl
  | failed message reached =>
    obtain ⟨txn, rest, next, -, -, rfl⟩ := failed_eq_some h
    exact onward_finish txn rest _ rfl rfl
  | resumed call =>
    obtain ⟨c, ok, hc, hcompleted, -, rfl⟩ := resumed_eq_some h
    refine .of_update (fun d => { d with completed := some ok }) (fun d hd => ?_) rfl (by rw [hc]; rfl)
    cases hc.symm.trans hd
    exact ⟨rfl, fun ok' hok => absurd (hcompleted.symm.trans hok) (Option.some_ne_none ok').symm, fun h => h⟩
  | dispatch sessionId current canSend =>
    cases h
    obtain ⟨-, heq⟩ | ⟨-, item, -, -, heq⟩ | ⟨-, heq⟩ := o.dispatch_cases sessionId current canSend
    · exact heq.symm ▸ .of_eq rfl rfl
    · exact heq.symm ▸ .of_eq rfl rfl
    · exact heq.symm ▸ onward_pause _
  | proceed sessionId current canSend =>
    obtain ⟨item, -, rfl | ⟨error, rfl⟩ | ⟨durable, -, -, -, rfl⟩⟩ := proceed_eq_some h
    · exact .of_eq rfl rfl
    · exact .of_eq rfl rfl
    · exact .of_eq rfl rfl
  | accept sessionId =>
    obtain ⟨item, invoked, -, rfl⟩ := accept_eq_some h
    exact .of_eq rfl rfl
  | reply sessionId completed =>
    obtain ⟨item, invoked, -, rfl⟩ := reply_eq_some h
    exact .of_eq rfl rfl
  | threw sessionId message =>
    obtain ⟨item, invoked, -, rfl⟩ := threw_eq_some h
    exact .of_eq rfl rfl
  | conclude sessionId =>
    obtain ⟨item, message, -, rfl⟩ | ⟨item, -, rfl⟩ := conclude_eq_some h
    · exact .of_eq rfl rfl
    · exact .of_eq rfl rfl
  | hydrate =>
    obtain ⟨-, -, ⟨error, rfl⟩ | rfl⟩ := hydrate_eq_some h
    · exact .of_eq rfl rfl
    · exact .of_eq rfl rfl
  | hydrated =>
    obtain ⟨next, -, rfl⟩ := hydrated_eq_some h
    exact .of_eq rfl rfl
  | hydrateFailed message reached =>
    obtain ⟨next, -, rfl⟩ := hydrateFailed_eq_some h
    exact .of_eq rfl rfl
  | restart reached => exact absurd rfl (hlive reached)

/-- A blocked session stays blocked until a resume of it succeeds. -/
theorem blocked_step (h : o.step act = some o') (hlive : ∀ reached, act ≠ .restart reached)
    (hblocked : o.blocked sessionId = true) : o'.blocked sessionId = true ∨
    ∃ call c, act = .resumed call ∧ o.resumes call = some c ∧ c.sessionId = sessionId ∧ c.completed = none ∧
      c.settled = some true ∧ o'.resumes call = some { c with completed := some true } := by
  have hmore : ∀ other, update o.blocked other true sessionId = true := fun other => by
    by_cases heq : sessionId = other
    · rw [heq, update_self]
    · rw [update_of_ne heq, hblocked]
  cases act with
  | enqueue binding text => cases h; exact .inl hblocked
  | edit other id text => cases h; exact .inl hblocked
  | remove other id => cases h; exact .inl hblocked
  | pause other reason => cases h; exact .inl (hmore other)
  | resume other call =>
    obtain ⟨-, rfl⟩ := resume_eq_some h
    exact .inl hblocked
  | begin =>
    obtain ⟨txn, rest, -, -, ⟨error, rfl⟩ | ⟨next, -, -, rfl⟩⟩ := begin_eq_some h
    · exact .inl (by rwa [blocked_finish])
    · exact .inl hblocked
  | written =>
    obtain ⟨txn, rest, next, -, -, rfl⟩ := written_eq_some h
    exact .inl (by rwa [blocked_finish])
  | failed message reached =>
    obtain ⟨txn, rest, next, -, -, rfl⟩ := failed_eq_some h
    exact .inl (by rwa [blocked_finish])
  | resumed call =>
    obtain ⟨c, ok, hc, hcompleted, hsettled, rfl⟩ := resumed_eq_some h
    cases ok with
    | false => exact .inl hblocked
    | true =>
      by_cases heq : c.sessionId = sessionId
      · exact .inr ⟨call, c, rfl, hc, heq, hcompleted, hsettled, update_self _ _ _⟩
      · refine .inl ?_
        show update o.blocked c.sessionId false sessionId = true
        rw [update_of_ne (Ne.symm heq), hblocked]
  | dispatch other current canSend =>
    cases h
    obtain ⟨-, heq⟩ | ⟨-, item, -, -, heq⟩ | ⟨-, heq⟩ := o.dispatch_cases other current canSend
    · exact .inl (by rwa [heq])
    · exact .inl (by rw [heq]; exact hblocked)
    · exact .inl (by rw [heq]; exact hmore other)
  | proceed other current canSend =>
    obtain ⟨item, -, rfl | ⟨error, rfl⟩ | ⟨durable, -, -, -, rfl⟩⟩ := proceed_eq_some h
    · exact .inl hblocked
    · exact .inl hblocked
    · exact .inl hblocked
  | accept other =>
    obtain ⟨item, invoked, -, rfl⟩ := accept_eq_some h
    exact .inl hblocked
  | reply other completed =>
    obtain ⟨item, invoked, -, rfl⟩ := reply_eq_some h
    exact .inl hblocked
  | threw other message =>
    obtain ⟨item, invoked, -, rfl⟩ := threw_eq_some h
    exact .inl hblocked
  | conclude other =>
    obtain ⟨item, message, -, rfl⟩ | ⟨item, -, rfl⟩ := conclude_eq_some h
    · exact .inl (hmore other)
    · exact .inl hblocked
  | hydrate =>
    obtain ⟨-, -, ⟨error, rfl⟩ | rfl⟩ := hydrate_eq_some h
    · exact .inl hblocked
    · exact .inl hblocked
  | hydrated =>
    obtain ⟨next, -, rfl⟩ := hydrated_eq_some h
    exact .inl hblocked
  | hydrateFailed message reached =>
    obtain ⟨next, -, rfl⟩ := hydrateFailed_eq_some h
    exact .inl hblocked
  | restart reached => exact absurd rfl (hlive reached)

theorem freshCalls_step (hfresh : o.FreshCalls) (h : o.step act = some o') : o'.FreshCalls := by
  by_cases hlive : ∀ reached, act ≠ .restart reached
  · exact (onward_step h hlive).fresh hfresh
  · obtain ⟨reached, hact⟩ := not_forall_not.1 hlive
    subst hact
    cases h
    exact fun _ _ hc => by cases hc

theorem freshCalls_of_run {acts : List OutboxAct} (h : Run Step {} acts o) : o.FreshCalls :=
  h.invariant (fun _ _ _ hfresh hstep => freshCalls_step hfresh hstep)
    fun _ c hc => absurd (show none = some c from hc) (Option.some_ne_none c).symm

/-! ## The gate -/

def Begins (o o' : Outbox) (sessionId : String) : Prop :=
  ∃ sent, o'.sends = o.sends ++ [sent] ∧ sent.sessionId = sessionId

/-- A resume, called when `first` calls were numbered or later, has succeeded. -/
def ResumedSince (o : Outbox) (sessionId : String) (first : ℕ) : Prop :=
  ∃ call c, first ≤ call ∧ o.resumes call = some c ∧ c.sessionId = sessionId ∧ c.completed = some true

/-- No resume succeeds that a pause of its session was called during. -/
def Uncrossed (o : Outbox) (act : OutboxAct) : Prop :=
  ∀ call c, act = .resumed call → o.resumes call = some c → c.settled = some true → c.overtaken = false

/-- The session is blocked, and so that no resume from before `first` can unblock it. -/
structure Shut (o : Outbox) (sessionId : String) (first : ℕ) : Prop where
  blocked : o.blocked sessionId = true
  overtaken : ∀ call < first, ∀ c, o.resumes call = some c → c.sessionId = sessionId → c.completed = none →
    c.overtaken = true

structure Gated (o : Outbox) (sessionId : String) (first : ℕ) : Prop where
  fresh : o.FreshCalls
  first_le : first ≤ o.nextCall
  gate : o.ResumedSince sessionId first ∨ o.Shut sessionId first

theorem ResumedSince.onward {first : ℕ} (h : o.ResumedSince sessionId first) (hfresh : o.FreshCalls)
    (honward : Onward o o') : o'.ResumedSince sessionId first := by
  obtain ⟨call, c, hfirst, hc, hsession, hcompleted⟩ := h
  obtain ⟨f, hf, hmap⟩ := honward.resumes call (hfresh call c hc)
  refine ⟨call, f c, hfirst, by rw [hmap, hc]; rfl, (hf c).sessionId.trans hsession, ?_⟩
  exact (hf c).completed true hcompleted

theorem Gated.step {first : ℕ} (h : o.Gated sessionId first) (hstep : o.step act = some o')
    (hlive : ∀ reached, act ≠ .restart reached) (huncrossed : o.Uncrossed act) : o'.Gated sessionId first := by
  have honward := onward_step hstep hlive
  refine ⟨honward.fresh h.fresh, Nat.le_trans h.first_le honward.nextCall, ?_⟩
  obtain hresumed | hshut := h.gate
  · exact .inl (hresumed.onward h.fresh honward)
  · obtain hblocked | ⟨call, c, hact, hc, hsession, hcompleted, hsettled, hc'⟩ :=
      blocked_step hstep hlive hshut.blocked
    · refine .inr ⟨hblocked, fun call hcall d hd hsession hcompleted => ?_⟩
      obtain ⟨f, hf, hmap⟩ := honward.resumes call (Nat.lt_of_lt_of_le hcall h.first_le)
      rw [hmap] at hd
      obtain ⟨c, hc, rfl⟩ := Option.map_eq_some_iff.1 hd
      have hopen : c.completed = none := by
        cases heq : c.completed with
        | none => rfl
        | some ok => rw [(hf c).completed ok heq] at hcompleted; cases hcompleted
      exact (hf c).overtaken (hshut.overtaken call hcall c hc ((hf c).sessionId ▸ hsession) hopen)
    · -- the resume was called after the pause, for the others are overtaken
      refine .inl ⟨call, _, ?_, hc', hsession, rfl⟩
      apply Nat.le_of_not_lt
      intro hcall
      have hover := hshut.overtaken call hcall c hc hsession hcompleted
      rw [huncrossed call c hact hc hsettled] at hover
      cases hover

theorem shut_pause (reason : String) (first : ℕ) : (o.pause sessionId reason).Shut sessionId first := by
  refine ⟨update_self _ _ _, fun call _ c hc hsession _ => ?_⟩
  obtain ⟨d, hd, rfl⟩ := Option.map_eq_some_iff.1 (show (o.resumes call).map _ = some c from hc)
  rw [d.le_overtake.sessionId] at hsession
  simp [ResumeCall.overtake, hsession]

/-- After a pause no send of the session begins until a later resume has succeeded. -/
theorem resumed_of_send {before : List OutboxAct} {o₀ o₁ : Outbox} {pause : OutboxAct}
    (hbefore : Run Step {} before o₀) (hpause : Step o₀ pause o₁) (hsession : o₀.pauses pause = some sessionId) :
    o₁.inFlight = o₀.inFlight ∧
    (∀ snapshot reason, (OutboxSnapshot.pause snapshot sessionId reason).items = snapshot.items) ∧
    ∀ {mid : List OutboxAct} {o₂ o₃ : Outbox} {act : OutboxAct}, Run (Guarded Step Uncrossed) o₁ mid o₂ →
      (∀ reached, .restart reached ∉ mid) → Step o₂ act o₃ → Begins o₂ o₃ sessionId →
      ResumedSince o₂ sessionId o₀.nextCall := by
  obtain ⟨reason, rfl⟩ := pauses_eq_some hpause hsession
  have hfresh := freshCalls_of_run hbefore
  refine ⟨rfl, fun snapshot reason => snapshot.items_pause sessionId reason, fun {mid o₂ o₃ act} hmid hlive hact hsend => ?_⟩
  have hgated : o₂.Gated sessionId o₀.nextCall := by
    have hstart : (o₀.pause sessionId reason).Gated sessionId o₀.nextCall :=
      ⟨(onward_pause reason).fresh hfresh, Nat.le_refl _, .inr (shut_pause reason _)⟩
    have hguard := hmid.guard (P := fun act => ∀ reached, act ≠ .restart reached)
      fun act hmem reached hrestart => hlive reached (hrestart ▸ hmem)
    exact hguard.invariant (I := fun o => o.Gated sessionId o₀.nextCall) (fun _ _ _ hgated hstep => hgated.step hstep.1.1 hstep.2 hstep.1.2)
      hstart
  obtain hresumed | hshut := hgated.gate
  · exact hresumed
  · obtain ⟨sent, hsent, hsession⟩ := hsend
    obtain heq | ⟨other, item, durable, -, hfree, -, rfl⟩ := sends_step hact
    · rw [heq] at hsent
      exact absurd hsent (by simp)
    · have heq : sent = ⟨other, durable, item.binding⟩ := by simpa using hsent.symm
      rw [heq] at hsession
      rw [show other = sessionId from hsession, hshut.blocked] at hfree
      cases hfree

/-! ## A send after a pause -/

def exampleBinding : OutboxBinding := ⟨"s", "/work", "legacy", "model"⟩

def oneMessage : List OutboxAct := [.hydrate, .hydrated, .enqueue exampleBinding [104, 105], .begin, .written]

/-- A dispatch up to the end of its first change. -/
def dispatched : List OutboxAct := [.dispatch "s" (some exampleBinding) true, .begin, .written]

/-- The resume that follows a pause and ends before it opens the gate. -/
theorem resumed_of_send_again : ∃ before mid o₀ o₁ o₂ o₃, Run Step {} before o₀ ∧ Step o₀ (.pause "s" "") o₁ ∧
    Run (Guarded Step Uncrossed) o₁ mid o₂ ∧ Step o₂ (.proceed "s" (some exampleBinding) true) o₃ ∧
    Begins o₂ o₃ "s" ∧ ResumedSince o₂ "s" o₀.nextCall := by
  have hrun : ((run {} oneMessage).any fun o₀ => (o₀.step (.pause "s" "")).any fun o₁ =>
      (o₁.run [.begin, .written, .resume "s" 0, .begin, .written]).any fun o₂ => (o₂.step (.resumed 0)).any fun o₃ =>
      (o₃.run dispatched).any fun o₄ => (o₄.step (.proceed "s" (some exampleBinding) true)).any fun o₅ =>
        decide ((o₂.resumes 0).all fun c => !c.overtaken) && decide (o₄.sends = [] ∧
          o₅.sends = [⟨"s", ⟨0, [104, 105], exampleBinding, .delivering⟩, exampleBinding⟩])) = true := by
    decide +kernel
  simp only [Option.any_eq_true, Bool.and_eq_true, decide_eq_true_eq] at hrun
  obtain ⟨o₀, h₀, o₁, h₁, o₂, h₂, o₃, h₃, o₄, h₄, o₅, h₅, hcall, hnone, hone⟩ := hrun
  have hfree : ∀ {p q : Outbox} {acts : List OutboxAct}, (∀ act ∈ acts, ∀ call, act ≠ .resumed call) →
      p.run acts = some q → Run (Guarded Step Uncrossed) p acts q := fun hacts hp =>
    ((run_of_run hp).guard (P := fun act => ∀ call, act ≠ .resumed call) hacts).mono
      fun _ act _ hstep => ⟨hstep.1, fun call _ hact => absurd hact (hstep.2 call)⟩
  have huncrossed : o₂.Uncrossed (.resumed 0) := by
    intro call c hact hc _
    cases hact
    simpa [hc] using hcall
  have hmid := ((hfree (by simp) h₂).snoc ⟨h₃, huncrossed⟩).append (hfree (by simp [dispatched]) h₄)
  have hsend : Begins o₄ o₅ "s" := ⟨_, by rw [hone, hnone]; rfl, rfl⟩
  exact ⟨_, _, o₀, o₁, o₄, o₅, run_of_run h₀, h₁, hmid, h₅, hsend,
    (resumed_of_send (run_of_run h₀) h₁ rfl).2.2 hmid (by decide) h₅ hsend⟩

/-- The resume was called before the pause and ends after it. -/
theorem paused_send : ∃ before mid o₀ o₁ o₂ o₃, Run Step {} before o₀ ∧ Step o₀ (.pause "s" "") o₁ ∧
    Run Step o₁ mid o₂ ∧ (∀ reached, .restart reached ∉ mid) ∧
    Step o₂ (.proceed "s" (some exampleBinding) true) o₃ ∧ Begins o₂ o₃ "s" ∧
    (o₂.snapshot.find? "s").map OutboxQueue.paused = some true ∧ ¬ ResumedSince o₂ "s" o₀.nextCall := by
  have hrun : ((run {} (oneMessage ++ [.pause "s" "", .begin, .written, .resume "s" 0, .begin])).any fun o₀ =>
      (o₀.step (.pause "s" "")).any fun o₁ => (o₁.run ([.written, .resumed 0, .dispatch "s" (some exampleBinding) true,
        .begin, .written, .begin, .written])).any fun o₂ =>
      (o₂.step (.proceed "s" (some exampleBinding) true)).any fun o₃ => decide (o₀.nextCall = 1 ∧ o₂.nextCall = 1 ∧
        (o₂.snapshot.find? "s").map OutboxQueue.paused = some true ∧ o₂.sends = [] ∧
        o₃.sends = [⟨"s", ⟨0, [104, 105], exampleBinding, .delivering⟩, exampleBinding⟩])) = true := by
    decide +kernel
  simp only [Option.any_eq_true, decide_eq_true_eq] at hrun
  obtain ⟨o₀, h₀, o₁, h₁, o₂, h₂, o₃, h₃, hfirst, hnext, hpaused, hnone, hone⟩ := hrun
  have hpause : Step o₀ (.pause "s" "") o₁ := h₁
  refine ⟨_, _, o₀, o₁, o₂, o₃, run_of_run h₀, h₁, run_of_run h₂, by decide, h₃, ⟨_, by rw [hone, hnone]; rfl, rfl⟩,
    hpaused, ?_⟩
  rintro ⟨call, c, hcall, hc, -⟩
  have hfresh := freshCalls_of_run (((run_of_run h₀).snoc hpause).append (run_of_run h₂)) call c hc
  omega

end Outbox

end Wiii.NekoChill
