import Wiii.Lib.Dialog
import Wiii.Neko.AppEvents.Bridge

/-!
# Following the application events

The synchronisation of the active environments, as a dialog.  A page that is polled becomes one signal for each event,
or one signal for a gap with nothing after it, and the cursor goes to the end of the page.
-/

namespace Wiii.Neko.AppEvents

open Signal (Platform SignalIngress SignalKind SignalPriority SignalAdmission SignalAdmissionOutcome
  SignalCursorCheckpoint)
open Dialog

def sourceId : String := "wiii.app-events.v1"

def signalTtlSeconds : ℕ := 7 * 24 * 60 * 60

def workstationAuthority (environmentId : String) : String := s!"workstation:{environmentId}"

def signalKind : AppEventKind → SignalKind
  | .contentChanged => .contentChanged
  | .stateChanged => .stateChanged
  | .attentionRequired => .attentionRequired

def signalPriority : AppEventKind → SignalPriority
  | .attentionRequired => .high
  | .contentChanged => .normal
  | .stateChanged => .low

/-! ## Requests -/

inductive ComputerState where
  | preparing
  | ready
  | suspended
  | error
  | unknownOutcome
  deriving DecidableEq

inductive Request where
  | activeEnvironmentIds
  | stopped
  | requireLiveEnvironment (environmentId : String)
  | cursor (environmentId : String)
  | appEventsPoll (environmentId : String) (afterCursor : Option String) (limit waitMs : ℕ)
  | now
  | ingestBatch (inputs : List SignalIngress)
  | advanceCursor (environmentId sourceCursor : String) (gapDetected : Bool)

@[reducible] def Answer : Request → Type
  | .activeEnvironmentIds => Except String (List String)
  | .stopped => Bool
  | .requireLiveEnvironment _ => Except String ComputerState
  | .cursor _ => Except String (Option SignalCursorCheckpoint)
  | .appEventsPoll _ _ _ _ => Except String WatcherBatch
  | .now => Instant
  | .ingestBatch _ => Except String (List SignalAdmission)
  | .advanceCursor _ _ _ => Except String SignalCursorCheckpoint

abbrev Sync := Dialog Answer String

abbrev send (r : Request) : Sync (Answer r) := request r

/-- What the provider checks before it asks the bridge. -/
def checkPoll (afterCursor : Option String) (limit waitMs : ℕ) : Except String Unit :=
  if ¬ (1 ≤ limit ∧ limit ≤ 512) then .error "Computer app-event limit must be between 1 and 512"
  else if afterCursor.any fun cursor => cursor.isEmpty || decide (80 < cursor.utf8ByteSize) ||
      !(bytes cursor).all Signal.isIdentifierByte then
    .error "Computer app-event cursor is invalid"
  else if 15000 < waitMs then .error "Computer app-event wait must not exceed 15000 ms"
  else .ok ()

/-! ## Materialising a page -/

structure AppEventMaterialization where
  events : ℕ
  inserted : ℕ
  coalesced : ℕ
  deduplicated : ℕ
  gapDetected : Bool

section Materialize

variable (P : Platform) (environmentId : String)

def eventInput (gapDetected : Bool) (event : AppEventSignal) : Except String SignalIngress :=
  match P.parseFromRfc3339 event.observedAt with
  | none => .error "Computer app-event observedAt is invalid"
  | some observedAt => .ok {
      sourceId := sourceId
      accountGrantRef := workstationAuthority environmentId
      appId := event.appId
      resourceRef := event.resourceRef
      kind := signalKind event.kind
      sourceCursor := event.cursor
      dedupeKey := event.eventId
      observedAt := P.timestamp observedAt
      availableAt := none
      expiresAt := P.timestamp (P.plusSeconds observedAt signalTtlSeconds)
      priorityClass := signalPriority event.kind
      contentAvailable := false
      gapDetected := gapDetected }

def eventInputs (gapDetected : Bool) : List AppEventSignal → Except String (List SignalIngress)
  | [] => .ok []
  | event :: events => do
    let input ← eventInput P environmentId gapDetected event
    let inputs ← eventInputs gapDetected events
    .ok (input :: inputs)

def gapInput (cursor : String) (observedAt : Instant) : SignalIngress where
  sourceId := sourceId
  accountGrantRef := workstationAuthority environmentId
  appId := "workstation"
  resourceRef := "workstation:main"
  kind := .conflict
  sourceCursor := cursor
  dedupeKey := s!"reconcile:{cursor}"
  observedAt := P.timestamp observedAt
  availableAt := none
  expiresAt := P.timestamp (P.plusSeconds observedAt signalTtlSeconds)
  priorityClass := .high
  contentAvailable := false
  gapDetected := true

def pageInputs (batch : WatcherBatch) : Sync (List SignalIngress) := do
  let inputs ← ofExcept (eventInputs P environmentId batch.gapDetected batch.events)
  if batch.gapDetected && inputs.isEmpty then do
    let observedAt ← send .now
    pure [gapInput P environmentId batch.cursor observedAt]
  else pure inputs

/-- Hands in the signals of a page, with the cursor, or the cursor alone. -/
def handIn (batch : WatcherBatch) (inputs : List SignalIngress) : Sync (List SignalAdmission) := do
  if inputs.isEmpty then
    let _ ← ofExcept (← send (.advanceCursor environmentId batch.cursor batch.gapDetected))
    pure []
  else if (inputs.getLast?.map SignalIngress.sourceCursor).getD "" ≠ batch.cursor then
    fail "Computer app-event page cursor does not match its last event"
  else ofExcept (← send (.ingestBatch inputs))

def materialize (batch : WatcherBatch) : Sync AppEventMaterialization := do
  let inputs ← pageInputs P environmentId batch
  let admissions ← handIn environmentId batch inputs
  let count := fun outcome => admissions.countP fun admission => admission.outcome = outcome
  pure {
    events := batch.events.length
    inserted := count .inserted
    coalesced := count .coalesced
    deduplicated := count .deduplicated
    gapDetected := batch.gapDetected }

/-! ## Synchronisation -/

/-- Polls page after page, for each of the page indices, until one is not full. -/
def syncPages (wait : ℕ) : List ℕ → Option String → Sync Unit
  | [], _ => pure ()
  | pageIndex :: pageIndices, cursor => do
    let batch ← ofExcept (← send (.appEventsPoll environmentId cursor 512
      (if pageIndex = 0 then wait else 0)))
    let _ ← materialize P environmentId batch
    if batch.events.length < 512 then pure ()
    else syncPages wait pageIndices (some batch.cursor)

end Materialize

def syncEnvironments (P : Platform) (perEnvironmentWait waitRemainder : ℕ) :
    List String → ℕ → Bool → Sync Bool
  | [], _, active => pure active
  | environmentId :: environmentIds, index, active => do
    let stopped ← send .stopped
    if stopped then pure active
    else
      let state ← ofExcept (← send (.requireLiveEnvironment environmentId))
      if state ≠ .ready then
        syncEnvironments P perEnvironmentWait waitRemainder environmentIds (index + 1) active
      else
        let cursor ← ofExcept (← send (.cursor environmentId))
        let wait := perEnvironmentWait + if index < waitRemainder then 1 else 0
        let _ ← syncPages P environmentId wait (List.range 4)
          (cursor.map SignalCursorCheckpoint.sourceCursor)
        syncEnvironments P perEnvironmentWait waitRemainder environmentIds (index + 1) true

def syncActiveAppEvents (P : Platform) (waitMs : ℕ) : Sync Bool := do
  let environmentIds ← ofExcept (← send .activeEnvironmentIds)
  if environmentIds.isEmpty then pure false
  else
    syncEnvironments P (waitMs / environmentIds.length) (waitMs % environmentIds.length)
      environmentIds 0 false

/-! ## What becomes of a page -/

/-- The input is the signal of the event, with the gap told or not. -/
def OfEvent (P : Platform) (environmentId : String) (gapDetected : Bool) (event : AppEventSignal)
    (input : SignalIngress) : Prop :=
  eventInput P environmentId gapDetected event = .ok input

section OfEvent

variable {P : Platform} {environmentId : String} {gapDetected : Bool} {event : AppEventSignal}
  {input : SignalIngress}

theorem OfEvent.fields (h : OfEvent P environmentId gapDetected event input) :
    input.sourceId = sourceId ∧ input.accountGrantRef = workstationAuthority environmentId ∧
      input.sourceCursor = event.cursor ∧ input.dedupeKey = event.eventId ∧
      input.gapDetected = gapDetected := by
  unfold OfEvent eventInput at h
  split at h
  · cases h
  · cases h
    exact ⟨rfl, rfl, rfl, rfl, rfl⟩

theorem forall₂_eventInputs {events : List AppEventSignal} {inputs : List SignalIngress}
    (h : eventInputs P environmentId gapDetected events = .ok inputs) :
    List.Forall₂ (OfEvent P environmentId gapDetected) events inputs := by
  induction events generalizing inputs with
  | nil =>
    cases h
    exact .nil
  | cons event events ih =>
    obtain ⟨input, hinput, h⟩ := bind_ok_iff.1 h
    obtain ⟨inputs', hinputs, h⟩ := bind_ok_iff.1 h
    cases h
    exact .cons hinput (ih hinputs)

end OfEvent

end Wiii.Neko.AppEvents
