import Wiii.Neko.Gmail.Gathering

/-!
# No change is skipped

Wherever the cursor of the account stands, every change up to it that is above all baselines was admitted, or a gap
around it was (`CoveredTo`).  This is an invariant of any interleaving (`Invariant`), and every run keeps to the
contract for it (`safe_syncAt`, `safe_syncFromWatch`).
-/

namespace Wiii.Neko.Gmail

open Signal (Platform SignalIngress SignalAdmission SignalCursorCheckpoint)
open Dialog

/-- The change was admitted for the account, or a gap around it was. -/
def Covered (account : String) (events : List Signal.Event) (c : Change) : Prop :=
  ∃ key gap, AdmittedKey account events key gap ∧ Covers key gap c

/-- Every change of the mailbox up to the id that is above all baselines is in `C`. -/
def UpTo (mailbox : Change → Prop) (baselines : List ℕ) (C : Change → Prop) (historyId : String) :
    Prop :=
  ∃ n, historyNumber historyId = .ok n ∧ ∀ c m, mailbox c → historyNumber c.historyId = .ok m →
    m ≤ n → (∀ b ∈ baselines, b < m) → C c

/-- No change up to the id and above the baselines was skipped. -/
def CoveredTo (account : String) (mailbox : Change → Prop) (s : Shared) (historyId : String) : Prop :=
  UpTo mailbox s.baselines (Covered account s.events) historyId

/-- Or will be, once the inputs are ingested. -/
def CoveredWith (account : String) (mailbox : Change → Prop) (s : Shared)
    (inputs : List SignalIngress) (historyId : String) : Prop :=
  UpTo mailbox s.baselines (fun c => Covered account s.events c ∨
    ∃ input ∈ inputs, Covers input.dedupeKey input.gapDetected c) historyId

theorem UpTo.mono {mailbox : Change → Prop} {baselines baselines' : List ℕ} {C C' : Change → Prop}
    {h : String} (hup : UpTo mailbox baselines C h) (hsub : baselines ⊆ baselines')
    (hC : ∀ c, C c → C' c) : UpTo mailbox baselines' C' h := by
  obtain ⟨n, hn, hall⟩ := hup
  exact ⟨n, hn, fun c m hc hm hle habove => hC c (hall c m hc hm hle fun b hb => habove b (hsub hb))⟩

theorem UpTo.of_le {mailbox : Change → Prop} {baselines : List ℕ} {C : Change → Prop}
    {h h' : String} {n n' : ℕ} (hup : UpTo mailbox baselines C h) (hn : historyNumber h = .ok n)
    (hn' : historyNumber h' = .ok n') (hle : n' ≤ n) : UpTo mailbox baselines C h' := by
  obtain ⟨k, hk, hall⟩ := hup
  rw [hn] at hk
  cases hk
  exact ⟨n', hn', fun c m hc hm hle' habove => hall c m hc hm (hle'.trans hle) habove⟩

/-- The state has all the calls and baselines of the other. -/
structure Later (s t : Shared) : Prop where
  calls : s.calls <+: t.calls
  baselines : s.baselines ⊆ t.baselines

theorem Later.refl (s : Shared) : Later s s := ⟨List.prefix_rfl, List.Subset.refl _⟩

theorem Later.trans {s t u : Shared} (h : Later s t) (h' : Later t u) : Later s u :=
  ⟨h.calls.trans h'.calls, List.Subset.trans h.baselines h'.baselines⟩

theorem Later.events {s t : Shared} (h : Later s t) : s.events ⊆ t.events := by
  obtain ⟨calls, hcalls⟩ := h.calls
  rw [Shared.events, Shared.events, ← hcalls, Signal.trace, Signal.trace, List.flatMap_append]
  exact List.subset_append_left _ _

theorem Covered.mono {account : String} {events events' : List Signal.Event} {c : Change}
    (h : Covered account events c) (hsub : events ⊆ events') : Covered account events' c := by
  obtain ⟨key, gap, hadmitted, hcovers⟩ := h
  exact ⟨key, gap, hadmitted.mono hsub, hcovers⟩

theorem CoveredTo.later {account h : String} {mailbox : Change → Prop} {s t : Shared}
    (hc : CoveredTo account mailbox s h) (hst : Later s t) : CoveredTo account mailbox t h :=
  UpTo.mono hc hst.baselines fun _ hcov => hcov.mono hst.events

theorem CoveredWith.later {account h : String} {mailbox : Change → Prop} {s t : Shared}
    {inputs : List SignalIngress} (hc : CoveredWith account mailbox s inputs h)
    (hst : Later s t) : CoveredWith account mailbox t inputs h :=
  UpTo.mono hc hst.baselines fun _ hcov => hcov.imp (fun h => h.mono hst.events) id

theorem coveredWith_nil {account h : String} {mailbox : Change → Prop} {s : Shared} :
    CoveredWith account mailbox s [] h ↔ CoveredTo account mailbox s h := by
  simp [CoveredWith, CoveredTo]

/-! ## The contract -/

/-- The cursor of the account was only ever moved to where no change is skipped. -/
structure Invariant (P : Platform) (account : String) (mailbox : Change → Prop) (s : Shared) :
    Prop where
  run : Run (Signal.Step P) .empty s.calls s.db
  own : AllOwn account s.events
  moved : ∀ h gap, .moved sourceId account h gap ∈ s.events → CoveredTo account mailbox s h

/-- What a run writes is of the account, and moves the cursor to where no change is skipped. -/
def Allowed (account : String) (mailbox : Change → Prop) : Request → Shared → Prop
  | .ingestBatch held inputs, s =>
    (∀ input ∈ inputs, input.sourceId = sourceId ∧ Own account input ∧
      CoveredWith account mailbox s inputs input.sourceCursor) ∧
      ∀ h, held = some h → NotBefore h (heldAfter h inputs)
  | .advanceCursor none sourceCursor _, _ => ∃ n, historyNumber sourceCursor = .ok n
  | .advanceCursor (some h) sourceCursor _, s =>
    CoveredTo account mailbox s sourceCursor ∧ NotBefore h sourceCursor
  | _, _ => True

section Contract

variable {P : Platform} {account : String} {mailbox : Change → Prop} {s t : Shared} {call : Signal.Call}

theorem Invariant.called (hs : Invariant P account mailbox s) (hstep : Signal.Step P s.db call t.db)
    (hcalls : t.calls = s.calls ++ [call])
    (own : ∀ input admission, .arrival input admission ∈ call.events → input.sourceId = sourceId →
      Own account input) :
    Run (Signal.Step P) .empty t.calls t.db ∧ AllOwn account t.events ∧
      t.events = s.events ++ call.events := by
  have hevents : t.events = s.events ++ call.events := by
    simp [Shared.events, hcalls, Signal.trace]
  refine ⟨by rw [hcalls]; exact hs.run.snoc hstep, fun input admission h => ?_, hevents⟩
  rw [hevents] at h
  rcases List.mem_append.1 h with h | h
  · exact hs.own input admission h
  · exact own input admission h

theorem Invariant.after (hs : Invariant P account mailbox s)
    (hstep : Signal.Step P s.db call t.db) (hcalls : t.calls = s.calls ++ [call])
    (hbaselines : s.baselines ⊆ t.baselines)
    (own : ∀ input admission, .arrival input admission ∈ call.events → input.sourceId = sourceId →
      Own account input)
    (moved : ∀ h gap, .moved sourceId account h gap ∈ call.events →
      CoveredTo account mailbox t h) :
    Invariant P account mailbox t ∧ Later s t := by
  obtain ⟨hrun, hown, hevents⟩ := hs.called hstep hcalls own
  have hlater : Later s t := ⟨by rw [hcalls]; exact List.prefix_append _ _, hbaselines⟩
  refine ⟨⟨hrun, hown, fun h gap hmem => ?_⟩, hlater⟩
  rw [hevents] at hmem
  rcases List.mem_append.1 hmem with hmem | hmem
  · exact (hs.moved h gap hmem).later hlater
  · exact moved h gap hmem

theorem Invariant.quiet (hs : Invariant P account mailbox s)
    (hstep : Signal.Step P s.db call t.db) (hcalls : t.calls = s.calls ++ [call])
    (hbaselines : s.baselines ⊆ t.baselines) (hquiet : call.events = []) :
    Invariant P account mailbox t ∧ Later s t :=
  hs.after hstep hcalls hbaselines (by simp [hquiet]) (by simp [hquiet])

theorem CoveredWith.ingested (hC : P.CollisionFree)
    (hrun : Run (Signal.Step P) .empty t.calls t.db) (hown : AllOwn account t.events)
    {inputs : List SignalIngress} {now : Instant} {admissions : List SignalAdmission} {h : String}
    (hwith : CoveredWith account mailbox s inputs h)
    (hsource : ∀ input ∈ inputs, input.sourceId = sourceId)
    (hstep : Signal.Step P s.db ⟨.ingestBatch inputs now, .ok (.admissions admissions)⟩ t.db)
    (hevents : t.events = s.events ++
      Signal.Call.events ⟨.ingestBatch inputs now, .ok (.admissions admissions)⟩)
    (hbaselines : s.baselines ⊆ t.baselines) : CoveredTo account mailbox t h := by
  refine UpTo.mono hwith hbaselines fun c hcov => ?_
  rcases hcov with hcov | ⟨input, hi, hcovers⟩
  · exact hcov.mono (by rw [hevents]; exact List.subset_append_left _ _)
  · obtain ⟨admission, harrival⟩ := arrival_of_ingest (ingest_lengths hstep).2 hi
    have hmem : .arrival input admission ∈ t.events := by
      rw [hevents]
      exact List.mem_append_right _ harrival
    exact ⟨_, _, admittedKey_of_arrival hC hrun hown hmem (hsource input hi), hcovers⟩

theorem Invariant.ingest (hC : P.CollisionFree) (hs : Invariant P account mailbox s)
    {held : Option String} {inputs : List SignalIngress} {now : Instant}
    {admissions : List SignalAdmission} (hallowed : Allowed account mailbox (.ingestBatch held inputs) s)
    (hstep : Signal.Step P s.db ⟨.ingestBatch inputs now, .ok (.admissions admissions)⟩ t.db)
    (hcalls : t.calls = s.calls ++ [⟨.ingestBatch inputs now, .ok (.admissions admissions)⟩])
    (hbaselines : s.baselines ⊆ t.baselines) :
    Invariant P account mailbox t ∧ Later s t := by
  obtain ⟨hinputs, -⟩ := hallowed
  have hownEvents : ∀ input admission, .arrival input admission ∈
      Signal.Call.events ⟨.ingestBatch inputs now, .ok (.admissions admissions)⟩ →
        input.sourceId = sourceId → Own account input := by
    intro input admission hmem _
    obtain ⟨input', hi, ⟨admission', heq⟩ | heq⟩ := Signal.mem_events_ingest hmem
    · cases heq
      exact (hinputs input hi).2.1
    · cases heq
  refine hs.after hstep hcalls hbaselines hownEvents fun h gap hmem => ?_
  obtain ⟨hrun, hown, hevents⟩ := hs.called hstep hcalls hownEvents
  obtain ⟨input, hi, ⟨admission, heq⟩ | heq⟩ := Signal.mem_events_ingest hmem
  · cases heq
  simp only [Signal.Event.moved.injEq] at heq
  obtain ⟨-, -, rfl, -⟩ := heq
  exact (hinputs input hi).2.2.ingested hC hrun hown (fun i hi => (hinputs i hi).1) hstep hevents
    hbaselines

theorem recordBaseline_db (held : Option String) (cursor : String)
    (answer : Except String SignalCursorCheckpoint) (s : Shared) :
    (recordBaseline held cursor answer s).db = s.db ∧
      (recordBaseline held cursor answer s).calls = s.calls ∧
      s.baselines ⊆ (recordBaseline held cursor answer s).baselines := by
  unfold recordBaseline
  split
  · exact ⟨rfl, rfl, List.subset_cons_self ..⟩
  · exact ⟨rfl, rfl, List.Subset.refl _⟩

theorem Invariant.advance (hs : Invariant P account mailbox s) {held : Option String}
    {cursor : String} {gap : Bool} {answer : Except String SignalCursorCheckpoint} {u : Shared}
    (hallowed : Allowed account mailbox (.advanceCursor held cursor gap) s)
    (hcalls : Calls P (fun now => .advanceCursor sourceId account cursor gap now)
      Signal.Answer.checkpoint s answer u) :
    Invariant P account mailbox (recordBaseline held cursor answer u) ∧
      Later s (recordBaseline held cursor answer u) := by
  obtain ⟨now, db, hstep, rfl⟩ := hcalls
  obtain ⟨hdb, hcalls, hbaselines⟩ := recordBaseline_db held cursor answer
    (s.after ⟨.advanceCursor sourceId account cursor gap now,
      answer.map Signal.Answer.checkpoint⟩ db)
  cases answer with
  | error error => exact hs.quiet (hdb ▸ hstep) hcalls hbaselines rfl
  | ok checkpoint =>
    refine hs.after (hdb ▸ hstep) hcalls hbaselines ?_ fun h gap' hmem => ?_
    · intro input admission hmem
      cases List.mem_singleton.1 hmem
    · cases List.mem_singleton.1 hmem
      cases held with
      | some h' =>
        refine hallowed.1.later ⟨?_, hbaselines⟩
        rw [hcalls]
        exact List.prefix_append _ _
      | none =>
        -- The id becomes a baseline, and no change is up to it and above it.
        obtain ⟨n, hn⟩ := hallowed
        refine ⟨n, hn, fun c m _ _ hle habove => absurd (habove n ?_) (not_lt.2 hle)⟩
        simp [recordBaseline, hn]

theorem Invariant.effect (hC : P.CollisionFree) {r : Request} {a : Answer r}
    (hs : Invariant P account mailbox s) (hallowed : Allowed account mailbox r s)
    (h : effect P account mailbox r s a t) : Invariant P account mailbox t ∧ Later s t := by
  cases r with
  | cursor =>
    obtain ⟨rfl, -⟩ := h
    exact ⟨hs, .refl t⟩
  | ingestBatch held inputs =>
    obtain ⟨now, db, hstep, rfl⟩ := h
    cases a with
    | error error => exact hs.quiet hstep rfl (List.Subset.refl _) (Signal.Call.events_error _ _)
    | ok admissions => exact hs.ingest hC hallowed hstep rfl (List.Subset.refl _)
  | advanceCursor held cursor gap =>
    obtain ⟨u, hcalls, rfl⟩ := h
    exact hs.advance hallowed hcalls
  | revokeAccount =>
    obtain ⟨now, db, hstep, rfl⟩ := h
    cases a with
    | error error => exact hs.quiet hstep rfl (List.Subset.refl _) (Signal.Call.events_error _ _)
    | ok count =>
      refine hs.after hstep rfl (List.Subset.refl _) ?_ ?_ <;>
        · intro _ _ hmem
          cases List.mem_singleton.1 hmem
  | grantIsActive | currentHistoryId | listHistory | reconcile =>
    obtain ⟨rfl, -⟩ := h
    exact ⟨hs, .refl t⟩

theorem Invariant.foreign (hs : Invariant P account mailbox s) (h : Foreign P s t) :
    Invariant P account mailbox t ∧ Later s t := by
  obtain ⟨call, db, hstep, hforeign, rfl⟩ := h
  obtain ⟨harrival, hmoved⟩ := Signal.source_ne_of_foreignTo hforeign
  refine hs.after hstep rfl (List.Subset.refl _) (fun input admission hmem hsource => ?_)
    fun h gap hmem => ?_
  · exact absurd hsource (harrival input admission hmem)
  · exact absurd rfl (hmoved _ _ _ _ hmem)

end Contract

def contract {P : Platform} (hC : P.CollisionFree) (account : String) (mailbox : Change → Prop) :
    SharedContract Answer Shared where
  effect := effect P account mailbox
  inv := Invariant P account mailbox
  later := Later
  allowed := Allowed account mailbox
  refl := .refl
  trans := .trans
  sound := fun hs hallowed h => (hs.effect hC hallowed h).1
  guarantee := fun hs hallowed h => (hs.effect hC hallowed h).2

end Wiii.Neko.Gmail
