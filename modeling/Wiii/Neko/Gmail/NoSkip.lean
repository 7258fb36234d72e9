import Wiii.Neko.Gmail.Runs

/-!
# Where the cursor goes

In any interleaving of runs of one account, wherever the cursor stands no change above the baselines was skipped, and a
run that finds the cursor where it last read or wrote it does not move it backwards (`cursor_never_skips`).  The
exceptions are real (`cursor_skips_and_regresses`).
-/

namespace Wiii.Neko.Gmail

open Signal (Platform SignalIngress SignalAdmission SignalCursorCheckpoint reference)
open Signal.reference (clock)
open Dialog

variable {P : Platform} {account : String} {mailbox : Change → Prop} {s t : Shared}

/-- The cursor of the account went from one id to a smaller one. -/
def Regresses (P : Platform) (account : String) (s t : Shared) : Prop :=
  ∃ h h' n n', s.durable P account = some h ∧ t.durable P account = some h' ∧
    historyNumber h = .ok n ∧ historyNumber h' = .ok n' ∧ n' < n

/-- If a run writes, it finds the cursor where it last read or wrote it. -/
def InStep (P : Platform) (account : String) (s : Shared) : PoolEvent Answer → Prop
  | .asked (.ingestBatch held _) _ => s.durable P account = held
  | .asked (.advanceCursor held _ _) _ => s.durable P account = held
  | _ => True

theorem durable_eq_some {h : String} (hdurable : s.durable P account = some h) :
    ∃ checkpoint, Signal.SignalInbox.cursor P sourceId account s.db = .ok (some checkpoint) ∧
      checkpoint.sourceCursor = h := by
  unfold Shared.durable at hdurable
  split at hdurable
  · rename_i checkpoint hcursor
    exact ⟨checkpoint, hcursor, Option.some.inj hdurable⟩
  · cases hdurable

theorem lastMoved_of_durable (hD : P.Decrypts) (hs : Invariant P account mailbox s) {h : String}
    (hdurable : s.durable P account = some h) :
    Signal.lastMoved P (P.cursorKey sourceId account) s.events = some ⟨account, "", h⟩ ∧
      account.utf8ByteSize ≤ 256 := by
  obtain ⟨checkpoint, hcursor, rfl⟩ := durable_eq_some hdurable
  exact Signal.lastMoved_of_cursor hD hs.run hcursor

/-! ## Steps that leave the cursor alone -/

theorem not_regresses_of_last (hD : P.Decrypts) (ht : Invariant P account mailbox t)
    {h : String} (hlast : Signal.lastMoved P (P.cursorKey sourceId account) t.events =
      some ⟨account, "", h⟩)
    (hle : ∀ h', s.durable P account = some h' → NotBefore h' h) : ¬ Regresses P account s t := by
  rintro ⟨h₀, h₁, n, n', hdurable, hdurable', hn, hn', hlt⟩
  obtain ⟨hlast', -⟩ := lastMoved_of_durable hD ht hdurable'
  rw [hlast] at hlast'
  cases hlast'
  exact absurd (hle h₀ hdurable n n' hn hn') (not_le.2 hlt)

theorem not_regresses_of_still (hD : P.Decrypts) (hs : Invariant P account mailbox s)
    (ht : Invariant P account mailbox t) {still : List Signal.Event}
    (hevents : t.events = s.events ++ still)
    (h : account.utf8ByteSize ≤ 256 → Signal.Still P sourceId account still) : ¬ Regresses P account s t := by
  rintro ⟨h₀, h₁, n, n', hdurable, hdurable', hn, hn', hlt⟩
  obtain ⟨hlast, ha⟩ := lastMoved_of_durable hD hs hdurable
  obtain ⟨hlast', -⟩ := lastMoved_of_durable hD ht hdurable'
  rw [hevents, Signal.lastMoved_append_still (h ha), hlast] at hlast'
  cases hlast'
  rw [hn] at hn'
  cases hn'
  exact lt_irrefl _ hlt

/-! ## Writes -/

theorem not_regresses_effect (hC : P.CollisionFree) (hD : P.Decrypts)
    (hs : Invariant P account mailbox s) {r : Request} {a : Answer r}
    (hallowed : Allowed account mailbox r s) (h : effect P account mailbox r s a t)
    (hstep : InStep P account s (.asked r a)) : ¬ Regresses P account s t := by
  have ht := (hs.effect hC hallowed h).1
  cases r with
  | ingestBatch held inputs =>
    obtain ⟨hinputs, hbefore⟩ := hallowed
    obtain ⟨now, db, hcall, rfl⟩ := h
    cases a with
    | error error =>
      exact not_regresses_of_still hD hs ht (Shared.events_after _ _ _) fun _ => Signal.still_nil
    | ok admissions =>
      obtain ⟨hne, hlen⟩ := ingest_lengths hcall
      obtain ⟨last, hlast⟩ := Option.isSome_iff_exists.1 (List.getLast?_isSome.2 hne)
      have hown := hinputs last (List.mem_of_getLast? hlast)
      rintro ⟨h₀, h₁, n, n', hdurable, hdurable', hn, hn', hlt⟩
      have hmoved : Signal.lastMoved P (P.cursorKey sourceId account)
          (s.after ⟨.ingestBatch inputs now, .ok (.admissions admissions)⟩ db).events =
            some ⟨account, "", heldAfter h₀ inputs⟩ := by
        rw [Shared.events_after, heldAfter, hlast]
        exact Signal.lastMoved_ingest hlast hlen hown.1 hown.2.1.account _
      refine not_regresses_of_last hD ht hmoved (fun h' hh' => ?_)
        ⟨h₀, h₁, n, n', hdurable, hdurable', hn, hn', hlt⟩
      rw [hdurable] at hh'
      cases hh'
      exact hbefore h₀ (hstep.symm.trans hdurable)
  | advanceCursor held cursor gap =>
    obtain ⟨u, ⟨now, db, hcall, rfl⟩, rfl⟩ := h
    obtain ⟨-, hcalls, -⟩ := recordBaseline_db held cursor a (s.after
      ⟨.advanceCursor sourceId account cursor gap now, a.map Signal.Answer.checkpoint⟩ db)
    have hevents := Shared.events_after s
      ⟨.advanceCursor sourceId account cursor gap now, a.map Signal.Answer.checkpoint⟩ db
    rw [Shared.events, ← hcalls, ← Shared.events] at hevents
    cases a with
    | error error => exact not_regresses_of_still hD hs ht hevents fun _ => Signal.still_nil
    | ok checkpoint =>
      refine not_regresses_of_last hD ht (h := cursor) ?_ fun h' hh' => ?_
      · rw [hevents]
        exact (Signal.lastMoved_append_moved P _).trans (if_pos rfl)
      · have hheld : held = some h' := hstep.symm.trans hh'
        subst hheld
        exact hallowed.2
  | revokeAccount =>
    obtain ⟨now, db, hcall, rfl⟩ := h
    refine not_regresses_of_still hD hs ht (Shared.events_after _ _ _) fun _ => ?_
    cases a with
    | error error => exact Signal.still_nil
    | ok count => simp [Signal.Still, Signal.Call.events, Except.map, Signal.Event.movesTo]
  | cursor | grantIsActive | currentHistoryId | listHistory | reconcile =>
    obtain ⟨rfl, -⟩ := h
    exact not_regresses_of_still hD hs ht (List.append_nil _).symm fun _ => Signal.still_nil

/-! ## Computed answers -/

/-- The pages have every change that is after the start id and not beyond all ids they report. -/
def Listed (changes : List Change) (startHistoryId : String) (pages : List GmailHistoryPage) : Bool :=
  changes.all fun c => match historyNumber startHistoryId, historyNumber c.historyId with
    | .ok p, .ok m => decide (m ≤ p) ||
      ((reportedIds pages).all fun id => match historyNumber id with
        | .ok n => decide (n < m)
        | .error _ => true) ||
      (pages.flatMap GmailHistoryPage.history).any fun record =>
        decide (record.id = c.historyId) && record.changes.any fun change =>
          decide (change.1 = c.messageId ∧ change.2.1 = c.changeClass)
    | _, _ => true

theorem complete_of_listed {changes : List Change} {startHistoryId : String}
    {pages : List GmailHistoryPage} (h : Listed changes startHistoryId pages) :
    Complete (· ∈ changes) startHistoryId pages := by
  rintro c p m n hc hp hm ⟨id, hid, hn⟩ hlt hle
  have hlisted := List.all_eq_true.1 h c hc
  simp only [hp, hm, Bool.or_eq_true, decide_eq_true_eq] at hlisted
  rcases hlisted with (hbefore | hbeyond) | hnamed
  · exact absurd hlt (not_lt.2 hbefore)
  · have hlt' := List.all_eq_true.1 hbeyond id hid
    simp only [hn] at hlt'
    exact absurd (of_decide_eq_true hlt') (not_lt.2 hle)
  · obtain ⟨record, hrecord, hnamed⟩ := List.any_eq_true.1 hnamed
    obtain ⟨hid, hnamed⟩ := Bool.and_eq_true_iff.1 hnamed
    obtain ⟨⟨messageId, changeClass, contentAvailable⟩, hchange, hnamed⟩ := List.any_eq_true.1 hnamed
    obtain ⟨rfl, rfl⟩ := of_decide_eq_true hnamed
    exact ⟨record, hrecord, of_decide_eq_true hid, contentAvailable, hchange⟩

def recordsAfter (startHistoryId : String) (page : GmailHistoryPage) : Bool :=
  page.history.all fun record => match historyNumber startHistoryId, historyNumber record.id with
    | .ok p, .ok n => decide (p ≤ n)
    | _, _ => true

theorem notBefore_of_recordsAfter {startHistoryId : String} {page : GmailHistoryPage}
    (h : recordsAfter startHistoryId page) {record : GmailHistoryRecord}
    (hrecord : record ∈ page.history) : NotBefore startHistoryId record.id := by
  intro p n hp hn
  have := List.all_eq_true.1 h record hrecord
  simp only [hp, hn] at this
  exact of_decide_eq_true this

/-- What the provider and the clock supply to one request. -/
structure Reply where
  now : Instant
  currentHistoryId : String := ""
  page : GmailHistoryPage := { historyId := "" }

section Respond

variable (P : Platform) (account : String) (changes : List Change) (reply : Reply)

/-- The grant is active, a page is as listed, and the inbox does not fail. -/
def respond : (r : Request) → Shared → Option (Answer r × Shared)
  | .grantIsActive, s => some (.ok true, s)
  | .currentHistoryId, s => some (.ok reply.currentHistoryId, s)
  | .listHistory startHistoryId _ _ pages, s =>
    if recordsAfter startHistoryId reply.page &&
        Listed changes startHistoryId (pages ++ [reply.page]) then
      some (.ok reply.page, s)
    else none
  | .cursor, s => some (Signal.SignalInbox.cursor P sourceId account s.db, s)
  | .ingestBatch _ inputs, s =>
    match (Signal.Op.ingestBatch inputs reply.now).apply P s.db with
    | .ok (.admissions admissions, db) => some (.ok admissions,
      s.after ⟨.ingestBatch inputs reply.now, .ok (.admissions admissions)⟩ db)
    | _ => none
  | .advanceCursor held sourceCursor gapDetected, s =>
    let op := Signal.Op.advanceCursor sourceId account sourceCursor gapDetected reply.now
    match op.apply P s.db with
    | .ok (.checkpoint checkpoint, db) => some (.ok checkpoint,
      recordBaseline held sourceCursor (.ok checkpoint)
        (s.after ⟨op, .ok (.checkpoint checkpoint)⟩ db))
    | _ => none
  | .reconcile _ _, _ => none
  | .revokeAccount, _ => none

variable {P account changes reply}

theorem effect_respond (r : Request) {s t : Shared} {a : Answer r}
    (h : respond P account changes reply r s = some (a, t)) :
    effect P account (· ∈ changes) r s a t := by
  cases r with
  | grantIsActive | currentHistoryId =>
    obtain ⟨rfl, rfl⟩ := Prod.mk.inj (Option.some.inj h)
    exact ⟨rfl, trivial⟩
  | listHistory startHistoryId pageToken maxResults pages =>
    dsimp only [respond] at h
    split_ifs at h with hpage
    obtain ⟨hrecords, hlisted⟩ := Bool.and_eq_true_iff.1 hpage
    obtain ⟨rfl, rfl⟩ := Prod.mk.inj (Option.some.inj h)
    exact ⟨rfl, fun _ => notBefore_of_recordsAfter hrecords, fun _ => complete_of_listed hlisted⟩
  | cursor =>
    obtain ⟨rfl, rfl⟩ := Prod.mk.inj (Option.some.inj h)
    exact ⟨rfl, .inl rfl⟩
  | ingestBatch held inputs =>
    dsimp only [respond] at h
    split at h
    · rename_i admissions db happly
      obtain ⟨rfl, rfl⟩ := Prod.mk.inj (Option.some.inj h)
      exact ⟨reply.now, db, .committed happly, rfl⟩
    · cases h
  | advanceCursor held cursor gap =>
    dsimp only [respond] at h
    split at h
    · rename_i checkpoint db happly
      obtain ⟨rfl, rfl⟩ := Prod.mk.inj (Option.some.inj h)
      exact ⟨_, ⟨reply.now, db, .committed happly, rfl⟩, rfl⟩
    · cases h
  | reconcile | revokeAccount => cases h

end Respond

/-- A message from before a bootstrap, and two that come in after it. -/
def threeMessages : List Change :=
  [⟨"5", .content, "m0"⟩, ⟨"11", .content, "m1"⟩, ⟨"12", .content, "m2"⟩]

def messageRecord (historyId messageId : String) : GmailHistoryRecord :=
  { id := historyId, messagesAdded := [⟨⟨messageId⟩⟩] }

def threeRuns : List (Sync GmailSyncReport) :=
  List.replicate 3 (syncAt reference "grant-a" (clock 8 0 0))

def bootstrap : List (ℕ × Reply) :=
  let reply := { now := clock 8 0 1, currentHistoryId := "10" : Reply }
  List.replicate 5 (0, reply)

/-- The second stops short of its writes, and the third lists both messages and advances to twelve. -/
def overtaking : List (ℕ × Reply) :=
  let first : GmailHistoryPage := { history := [messageRecord "11" "m1"], historyId := "11" }
  let second : GmailHistoryPage :=
    { history := [messageRecord "11" "m1", messageRecord "12" "m2"], historyId := "12" }
  bootstrap ++ List.replicate 5 (1, { now := clock 8 0 2, page := first }) ++
    List.replicate 7 (2, { now := clock 8 0 3, page := second })

def afterMoves (moves : List (ℕ × Reply)) : Option (Pool Answer String GmailSyncReport Shared) :=
  Pool.turns (respond reference "grant-a" threeMessages) moves ⟨.start, threeRuns⟩

theorem run_afterMoves {moves : List (ℕ × Reply)} {p : Pool Answer String GmailSyncReport Shared}
    (h : afterMoves moves = some p) :
    ∃ es, Run (Step reference "grant-a" (· ∈ threeMessages)) ⟨.start, []⟩ es p := by
  obtain ⟨es, hstarts⟩ : ∃ es, Run (Step reference "grant-a" (· ∈ threeMessages))
      ⟨.start, []⟩ es ⟨.start, threeRuns⟩ :=
    Pool.run_starts _ fun d hd => .inl ⟨_, List.eq_of_mem_replicate hd⟩
  obtain ⟨es', hturns⟩ : ∃ es', Run (Step reference "grant-a" (· ∈ threeMessages))
      ⟨.start, threeRuns⟩ es' p :=
    Pool.run_turns (fun _ r _ _ _ h => effect_respond r h) h
  exact ⟨_, hstarts.append hturns⟩

/-! ## Runs of the system -/

theorem invariant_start (P : Platform) (account : String) (mailbox : Change → Prop) :
    Invariant P account mailbox .start :=
  ⟨.nil _, by simp [AllOwn, Shared.events, Shared.start, Signal.trace],
    by simp [Shared.events, Shared.start, Signal.trace]⟩

theorem sound_of_run (hC : P.CollisionFree) (hD : P.Decrypts) {es : List (PoolEvent Answer)}
    {p : Pool Answer String GmailSyncReport Shared}
    (hrun : Run (Step P account mailbox) ⟨.start, []⟩ es p) :
    Pool.Sound (contract hC account mailbox) p := by
  refine Pool.sound (c := contract hC account mailbox) ?_ (fun s t hs h => hs.foreign h)
    (invariant_start P account mailbox) hrun
  rintro d (⟨localObservedAt, rfl⟩ | ⟨hint, localObservedAt, hhint, rfl⟩) s -
  · exact safe_syncAt hC hD localObservedAt s
  · exact safe_syncFromWatch hC hD hhint localObservedAt s

/-- No change above the baselines was skipped, and only a write of an overtaken run moves the cursor backwards. -/
theorem cursor_never_skips (hC : P.CollisionFree) (hD : P.Decrypts)
    {es : List (PoolEvent Answer)} {p : Pool Answer String GmailSyncReport Shared}
    (hrun : Run (Step P account mailbox) ⟨.start, []⟩ es p) :
    (∀ h, p.shared.durable P account = some h → CoveredTo account mailbox p.shared h) ∧
      ∀ e q, Step P account mailbox p e q → InStep P account p.shared e →
        ¬ Regresses P account p.shared q.shared := by
  have hsound := sound_of_run hC hD hrun
  constructor
  · intro h hdurable
    obtain ⟨checkpoint, hcursor, rfl⟩ := durable_eq_some hdurable
    exact hsound.inv.cursor hC hD hcursor
  · intro e q hstep hin
    have hinv : Invariant P account mailbox p.shared := hsound.inv
    cases hstep with
    | start | drop =>
      exact not_regresses_of_still hD hinv hinv (List.append_nil _).symm fun _ => Signal.still_nil
    | @answer s t before after r k a heffect =>
      exact not_regresses_effect hC hD hinv (hsound.allowed (k := k) (by simp)) heffect hin
    | other threads hforeign =>
      have ht := (hinv.foreign hforeign).1
      obtain ⟨call, db, hcall, hop, rfl⟩ := hforeign
      exact not_regresses_of_still hD hinv ht (Shared.events_after _ _ _) fun ha =>
        Signal.still_of_foreignTo hC hinv.run hcall hop (by decide) ha

theorem cursor_never_skips_overtaken :
    ∃ es p, Run (Step reference "grant-a" (· ∈ threeMessages)) ⟨.start, []⟩ es p ∧
      p.shared.durable reference "grant-a" = some "12" ∧
      CoveredTo "grant-a" (· ∈ threeMessages) p.shared "12" ∧
      ∀ e q, Step reference "grant-a" (· ∈ threeMessages) p e q →
        InStep reference "grant-a" p.shared e → ¬ Regresses reference "grant-a" p.shared q.shared := by
  have hmoves : (afterMoves overtaking).bind (fun p => p.shared.durable reference "grant-a") =
      some "12" := by
    decide +kernel
  obtain ⟨p, hp, hdurable⟩ := Option.bind_eq_some_iff.1 hmoves
  obtain ⟨es, hrun⟩ := run_afterMoves hp
  have hskips := cursor_never_skips reference.collisionFree reference.decrypts hrun
  exact ⟨es, p, hrun, hdurable, hskips.1 "12" hdurable, hskips.2⟩

/-- The message from before the bootstrap is not covered, and the cursor goes from twelve back to eleven. -/
theorem cursor_skips_and_regresses :
    (∃ es p c m h n, Run (Step reference "grant-a" (· ∈ threeMessages)) ⟨.start, []⟩ es p ∧
      p.shared.durable reference "grant-a" = some h ∧ historyNumber h = .ok n ∧
      c ∈ threeMessages ∧ historyNumber c.historyId = .ok m ∧ m ≤ n ∧
      ¬ Covered "grant-a" p.shared.events c) ∧
    ∃ es p e q, Run (Step reference "grant-a" (· ∈ threeMessages)) ⟨.start, []⟩ es p ∧
      Step reference "grant-a" (· ∈ threeMessages) p e q ∧
      Regresses reference "grant-a" p.shared q.shared := by
  constructor
  · have hmoves : (afterMoves bootstrap).map (fun p =>
        (p.shared.durable reference "grant-a", p.shared.events)) =
          some (some "10", [.moved sourceId "grant-a" "10" false]) := by
      decide +kernel
    obtain ⟨p, hp, hstate⟩ := Option.map_eq_some_iff.1 hmoves
    obtain ⟨hdurable, hevents⟩ := Prod.mk.inj hstate
    obtain ⟨es, hrun⟩ := run_afterMoves hp
    refine ⟨es, p, ⟨"5", .content, "m0"⟩, 5, "10", 10, hrun, hdurable, by decide +kernel,
      by simp [threeMessages], by decide +kernel, by decide, ?_⟩
    rintro ⟨key, gap, ⟨input, admission, hmem, -⟩, -⟩
    rw [hevents] at hmem
    simp at hmem
  · have hmoves : (afterMoves overtaking).bind (fun p =>
        (p.turn (respond reference "grant-a" threeMessages { now := clock 8 0 4 }) 1).map
          fun q => (p.shared.durable reference "grant-a", q.shared.durable reference "grant-a")) =
        some (some "12", some "11") := by
      decide +kernel
    obtain ⟨p, hp, hturn⟩ := Option.bind_eq_some_iff.1 hmoves
    obtain ⟨q, hq, hstate⟩ := Option.map_eq_some_iff.1 hturn
    obtain ⟨hdurable, hdurable'⟩ := Prod.mk.inj hstate
    obtain ⟨es, hrun⟩ := run_afterMoves hp
    obtain ⟨r, a, hstep⟩ : ∃ r a, Step reference "grant-a" (· ∈ threeMessages) p (.asked r a) q :=
      Pool.step_turn (fun r _ _ _ h => effect_respond r h) hq
    exact ⟨es, p, .asked r a, q, hrun, hstep, "12", "11", 12, 11, hdurable, hdurable',
      by decide +kernel, by decide +kernel, by decide⟩

end Wiii.Neko.Gmail
