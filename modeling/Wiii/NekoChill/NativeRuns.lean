import Mathlib.Tactic.Common

/-!
# Native runs in the events of a session

What was learnt since the last runtime was attached decides whether another one may be started
(`nativeRunBlocksRespawn`): the scan from the end of the events blocks exactly when the latest fact about some agent
session is not safe (`blocks_iff`).
-/

namespace Wiii.NekoChill

/-! ## Facts -/

/-- What `native-runtime-reconciled` records of an agent session. -/
structure NativeCheckpoint where
  agentSessionId : String
  runId : String
  providerId : String
  state : String
  operationPhase : String
  continuity : String
  replayedFromSeq : ℕ
  replayedThroughSeq : ℕ
  replayedEventCount : ℕ
  deriving DecidableEq

/-- `NATIVE_TERMINAL_STATES` -/
def isTerminalState (state : String) : Bool := state ∈ ["completed", "failed", "cancelled"]

def NativeCheckpoint.isUncertain (checkpoint : NativeCheckpoint) : Bool :=
  decide (checkpoint.state = "unknown_outcome") || decide (checkpoint.operationPhase = "unknown_outcome") ||
    decide (checkpoint.continuity = "unknown_outcome") || !isTerminalState checkpoint.state

/-- The events that tell of native runs; the others are `other`. -/
inductive SessionFact where
  | attached
  | retired (agentSessionId runId : String)
  | cleanupUncertain (agentSessionId : String)
  | cleanupResolved (agentSessionId : String)
  | reconciled (checkpoint : NativeCheckpoint)
  | other
  deriving DecidableEq

namespace SessionFact

def agentSessionId : SessionFact → Option String
  | retired agentSessionId _ | cleanupUncertain agentSessionId | cleanupResolved agentSessionId => some agentSessionId
  | reconciled checkpoint => some checkpoint.agentSessionId
  | attached | other => none

def isAttached : SessionFact → Bool
  | attached => true
  | _ => false

/-- Whether the fact leaves it open that the native run still goes on. -/
def isUnsafe : SessionFact → Bool
  | cleanupUncertain _ => true
  | reconciled checkpoint => checkpoint.isUncertain
  | _ => false

end SessionFact

/-! ## The scan -/

/-- From the last event back to the last attachment. -/
def blocksFrom (safelyResolved : List String) : List SessionFact → Bool
  | [] | .attached :: _ => false
  | .retired agentSessionId _ :: rest | .cleanupResolved agentSessionId :: rest =>
    blocksFrom (agentSessionId :: safelyResolved) rest
  | .reconciled checkpoint :: rest =>
    if checkpoint.agentSessionId ∈ safelyResolved then blocksFrom safelyResolved rest
    else if checkpoint.isUncertain then true
    else blocksFrom (checkpoint.agentSessionId :: safelyResolved) rest
  | .cleanupUncertain agentSessionId :: rest =>
    if agentSessionId ∈ safelyResolved then blocksFrom safelyResolved rest else true
  | .other :: rest => blocksFrom safelyResolved rest

def nativeRunBlocksRespawn (events : List SessionFact) : Bool := blocksFrom [] events.reverse

/-- The latest fact about an agent session since the last attachment, from the end. -/
def latestFrom (agentSessionId : String) (events : List SessionFact) : Option SessionFact :=
  (events.takeWhile fun event => !event.isAttached).find? fun event =>
    decide (event.agentSessionId = some agentSessionId)

def latestFact (events : List SessionFact) (agentSessionId : String) : Option SessionFact :=
  latestFrom agentSessionId events.reverse

section

variable {events : List SessionFact} {agentSessionId : String} {fact : SessionFact} {safe : List String}

theorem latestFrom_cons (hattached : fact.isAttached = false) : latestFrom agentSessionId (fact :: events) =
    if fact.agentSessionId = some agentSessionId then some fact else latestFrom agentSessionId events := by
  unfold latestFrom
  rw [List.takeWhile_cons_of_pos (by rw [hattached]; rfl), List.find?_cons]
  split
  · rename_i heq
    rw [if_pos (of_decide_eq_true heq)]
  · rename_i hne
    rw [if_neg (of_decide_eq_false hne)]

/-- An agent session that is not known to be safe has an unsafe latest fact. -/
def HasUnsafe (safe : List String) (events : List SessionFact) : Prop :=
  ∃ agentSessionId ∉ safe, ∃ fact, latestFrom agentSessionId events = some fact ∧ fact.isUnsafe = true

theorem hasUnsafe_cons_of_safe (hattached : fact.isAttached = false) (hagent : fact.agentSessionId = some agentSessionId)
    (hfact : agentSessionId ∈ safe ∨ fact.isUnsafe = false) :
    HasUnsafe safe (fact :: events) ↔ HasUnsafe (agentSessionId :: safe) events := by
  constructor
  · rintro ⟨agent, hagentSafe, latest, hlatest, hopen⟩
    rw [latestFrom_cons hattached] at hlatest
    split at hlatest
    · rename_i heq
      rw [hagent] at heq
      cases heq
      cases hlatest
      rcases hfact with hmem | hsafe
      · exact absurd hmem hagentSafe
      · rw [hopen] at hsafe
        cases hsafe
    · rename_i hne
      refine ⟨agent, fun hmem => ?_, latest, hlatest, hopen⟩
      rcases List.mem_cons.1 hmem with rfl | hmem
      · exact hne hagent
      · exact hagentSafe hmem
  · rintro ⟨agent, hagentSafe, latest, hlatest, hopen⟩
    rw [List.mem_cons, not_or] at hagentSafe
    refine ⟨agent, hagentSafe.2, latest, ?_, hopen⟩
    rw [latestFrom_cons hattached, if_neg]
    · exact hlatest
    · intro heq
      rw [hagent] at heq
      exact hagentSafe.1 (Option.some.inj heq).symm

theorem hasUnsafe_cons_of_unsafe (hattached : fact.isAttached = false)
    (hagent : fact.agentSessionId = some agentSessionId) (hnot : agentSessionId ∉ safe) (hopen : fact.isUnsafe = true) :
    HasUnsafe safe (fact :: events) :=
  ⟨agentSessionId, hnot, fact, by rw [latestFrom_cons hattached, if_pos hagent], hopen⟩

theorem hasUnsafe_cons_of_none (hattached : fact.isAttached = false) (hagent : fact.agentSessionId = none) :
    HasUnsafe safe (fact :: events) ↔ HasUnsafe safe events := by
  have hlatest : ∀ agent, latestFrom agent (fact :: events) = latestFrom agent events := by
    intro agent
    rw [latestFrom_cons hattached, if_neg]
    rw [hagent]
    exact fun heq => nomatch heq
  simp only [HasUnsafe, hlatest]

theorem hasUnsafe_of_mem (hmem : agentSessionId ∈ safe) :
    HasUnsafe (agentSessionId :: safe) events ↔ HasUnsafe safe events := by
  unfold HasUnsafe
  constructor
  · rintro ⟨agent, hnot, hrest⟩
    exact ⟨agent, fun h => hnot (List.mem_cons_of_mem _ h), hrest⟩
  · rintro ⟨agent, hnot, hrest⟩
    refine ⟨agent, fun h => ?_, hrest⟩
    rcases List.mem_cons.1 h with rfl | h
    · exact hnot hmem
    · exact hnot h

theorem blocksFrom_iff (safe : List String) (events : List SessionFact) :
    blocksFrom safe events = true ↔ HasUnsafe safe events := by
  induction events generalizing safe with
  | nil =>
    refine ⟨fun h => (nomatch h), ?_⟩
    rintro ⟨_, _, _, hlatest, _⟩
    cases hlatest
  | cons fact rest ih =>
    cases fact with
    | attached =>
      refine ⟨fun h => (nomatch h), ?_⟩
      rintro ⟨_, _, _, hlatest, _⟩
      cases hlatest
    | retired agent run => exact (ih _).trans (hasUnsafe_cons_of_safe rfl rfl (.inr rfl)).symm
    | cleanupResolved agent => exact (ih _).trans (hasUnsafe_cons_of_safe rfl rfl (.inr rfl)).symm
    | other => exact (ih _).trans (hasUnsafe_cons_of_none rfl rfl).symm
    | cleanupUncertain agent =>
      unfold blocksFrom
      split
      · rename_i hmem
        exact (ih _).trans ((hasUnsafe_of_mem hmem).symm.trans (hasUnsafe_cons_of_safe rfl rfl (.inl hmem)).symm)
      · rename_i hnot
        exact ⟨fun _ => hasUnsafe_cons_of_unsafe rfl rfl hnot rfl, fun _ => rfl⟩
    | reconciled checkpoint =>
      unfold blocksFrom
      split
      · rename_i hmem
        exact (ih _).trans ((hasUnsafe_of_mem hmem).symm.trans (hasUnsafe_cons_of_safe rfl rfl (.inl hmem)).symm)
      · rename_i hnot
        split
        · rename_i huncertain
          exact ⟨fun _ => hasUnsafe_cons_of_unsafe rfl rfl hnot huncertain, fun _ => rfl⟩
        · rename_i hcertain
          have hsafe : SessionFact.isUnsafe (.reconciled checkpoint) = false := Bool.eq_false_iff.2 hcertain
          exact (ih _).trans (hasUnsafe_cons_of_safe rfl rfl (.inr hsafe)).symm

/-- A session is blocked exactly when the latest fact about some agent session is unsafe. -/
theorem blocks_iff (events : List SessionFact) : nativeRunBlocksRespawn events = true ↔
    ∃ agentSessionId fact, latestFact events agentSessionId = some fact ∧ fact.isUnsafe = true := by
  refine (blocksFrom_iff [] events.reverse).trans ?_
  simp [HasUnsafe, latestFact]

theorem latestFact_append (hattached : fact.isAttached = false) : latestFact (events ++ [fact]) agentSessionId =
    if fact.agentSessionId = some agentSessionId then some fact else latestFact events agentSessionId := by
  unfold latestFact
  rw [List.reverse_append]
  exact latestFrom_cons hattached

theorem latestFact_attached : latestFact (events ++ [.attached]) agentSessionId = none := by
  unfold latestFact
  rw [List.reverse_append]
  rfl

end

/-! ## Reconciliation -/

/-- The record of an agent session, and how far its events were replayed. -/
structure NativeReplay where
  agentSessionId : String
  runId : String
  providerId : String
  state : String
  operationPhase : String
  continuity : String
  throughSeq : ℕ
  eventCount : ℕ

/-- The checkpoints to retire, from the last event back. -/
def retireFrom (present resolved : List String) : List SessionFact → List SessionFact
  | [] | .attached :: _ => []
  | .retired agentSessionId _ :: rest => retireFrom present (agentSessionId :: resolved) rest
  | .reconciled checkpoint :: rest =>
    if checkpoint.agentSessionId ∈ resolved then retireFrom present resolved rest
    else if checkpoint.agentSessionId ∉ present ∧ isTerminalState checkpoint.state = true ∧
        checkpoint.operationPhase ≠ "unknown_outcome" ∧ checkpoint.continuity ≠ "unknown_outcome" then
      .retired checkpoint.agentSessionId checkpoint.runId ::
        retireFrom present (checkpoint.agentSessionId :: resolved) rest
    else retireFrom present (checkpoint.agentSessionId :: resolved) rest
  | _ :: rest => retireFrom present resolved rest

def retireAbsentNativeCheckpoints (events : List SessionFact) (natives : List NativeReplay) : List SessionFact :=
  events ++ retireFrom (natives.map NativeReplay.agentSessionId) [] events.reverse

def lastNativeCursor (events : List SessionFact) (runId : String) : ℕ :=
  ((events.reverse.findSome? fun event => match event with
    | .reconciled checkpoint => if checkpoint.runId = runId then some checkpoint.replayedThroughSeq else none
    | _ => none)).getD 0

def lastCheckpoint (events : List SessionFact) (agentSessionId : String) : Option NativeCheckpoint :=
  events.reverse.findSome? fun event => match event with
    | .reconciled checkpoint => if checkpoint.agentSessionId = agentSessionId then some checkpoint else none
    | _ => none

def reconcileNativeRuntime (events : List SessionFact) (native : NativeReplay) : List SessionFact :=
  if native.eventCount > 0 || (match lastCheckpoint events native.agentSessionId with
      | none => true
      | some previous => decide (previous.state ≠ native.state) ||
        decide (previous.operationPhase ≠ native.operationPhase) || decide (previous.continuity ≠ native.continuity) ||
          decide (previous.replayedThroughSeq ≠ native.throughSeq)) then
    events ++ [.reconciled ⟨native.agentSessionId, native.runId, native.providerId, native.state, native.operationPhase,
      native.continuity, lastNativeCursor events native.runId, native.throughSeq, native.eventCount⟩]
  else events

/-- `hydrate`, for one session. -/
def reconcileSession (events : List SessionFact) (natives : List NativeReplay) : List SessionFact :=
  natives.foldl reconcileNativeRuntime (retireAbsentNativeCheckpoints events natives)

end Wiii.NekoChill
