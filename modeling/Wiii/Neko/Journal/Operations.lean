import Mathlib.Data.List.Sort
import Wiii.Lib.Program
import Wiii.Neko.Journal.Schema

/-!
# The operations of the runtime journal

Each operation of `Journal` as the transaction it runs: from the tick of the call and the database to an answer and the
new database, or to an error, in which case the transaction is rolled back.
-/

namespace Wiii.Neko

inductive RequestDecision where
  | execute
  | replay (result : Value)
  | recordedError (code : String)
  | unknownOutcome

inductive StartRequestDecision where
  | execute (event : ControlEvent)
  | replay (result : Value)
  | recordedError (code : String)
  | unknownOutcome
  | admissionClosed

structure ReplayPage where
  streamId : String
  events : List ControlEvent
  nextAfterSeq : ℕ
  hasMore : Bool

/-- The session columns and the event of one lifecycle transaction. -/
structure SessionCommit where
  agentSessionId : String
  nextState : RunState
  phase : OperationPhase
  continuity : String
  pid : Option ℕ
  providerVersion : Option String
  eventType : String
  payload : Value

/-- Fails with the error unless the condition holds. -/
def ensure (condition : Bool) (error : String) : Except String Unit :=
  if condition then .ok () else .error error

namespace Journal

open Database (queryReturnedNoRows)

def identityReused : String := "request identity was already used for another operation"

/-- The result or the error of the one execution, else that its outcome is unknown. -/
def recordedDecision (row : ControlRequest) : RequestDecision :=
  match row.phase with
  | .completed => .replay (row.result.getD .null)
  | .failed => .recordedError (row.errorCode.getD "internal_error")
  | .unknownOutcome | .sideEffectStarted | .committed => .unknownOutcome
  | .accepted | .dispatched => .unknownOutcome

def recordedStartDecision (row : ControlRequest) : StartRequestDecision :=
  match row.phase with
  | .completed => .replay (row.result.getD .null)
  | .failed => .recordedError (row.errorCode.getD "internal_error")
  | .accepted | .dispatched | .sideEffectStarted | .committed | .unknownOutcome => .unknownOutcome

def acceptedRequest (requestId method targetId : String) (now : Timestamp) : ControlRequest where
  requestId := requestId
  method := method
  targetId := targetId
  phase := .accepted
  result := none
  errorCode := none
  createdAt := now
  updatedAt := now

def startingSession (session : NewSession) (now : Timestamp) : SessionRecord where
  agentSessionId := session.agentSessionId
  taskId := session.taskId
  runId := session.runId
  environmentId := session.environmentId
  providerId := session.providerId
  providerVersion := none
  workspacePath := session.workspacePath
  state := .starting
  operationPhase := .accepted
  continuity := "active"
  pid := none
  createdAt := now
  updatedAt := now

def nextEvent (db : Database) (streamId eventType runId : String) (agentSessionId : Option String)
    (payload : Value) (tick : Tick) : ControlEvent where
  eventId := tick.uuid
  streamId := streamId
  seq := db.latestSeq streamId + 1
  atTime := tick.now
  eventType := eventType
  runId := runId
  agentSessionId := agentSessionId
  payload := payload

def beginRequest (requestId method targetId : String) (tick : Tick) (db : Database) :
    Except String (RequestDecision × Database) :=
  match db.request requestId with
  | some row =>
    if row.method ≠ method ∨ row.targetId ≠ targetId then .error identityReused
    else .ok (recordedDecision row, db)
  | none => do
    let db ← db.insertRequest (acceptedRequest requestId method targetId tick.now)
    return (.execute, db)

/-- The request identity, the session and its creation event in one transaction. -/
def beginStartRequest (requestId targetId : String) (session : NewSession) (acceptingNew : Bool)
    (eventType : String) (payload : Value) (tick : Tick) (db : Database) :
    Except String (StartRequestDecision × Database) := do
  validatePayload payload
  match db.request requestId with
  | some row =>
    if row.method ≠ "session/start" ∨ row.targetId ≠ targetId then .error identityReused
    else .ok (recordedStartDecision row, db)
  | none =>
    if !acceptingNew then .ok (.admissionClosed, db)
    else do
      let db ← db.insertRequest (acceptedRequest requestId "session/start" targetId tick.now)
      let db ← db.insertSession (startingSession session tick.now)
      let event := nextEvent db session.runId eventType session.runId session.agentSessionId
        payload tick
      let db ← db.insertEvent event
      return (.execute event, db)

/-- The body of the operations that advance a request: the phase guard, then the write. -/
def advanceRequest (requestId : String) (next : OperationPhase)
    (write : ControlRequest → ControlRequest) (tick : Tick) (db : Database)
    (hw : ∀ r, (write r).requestId = r.requestId := by intro _; rfl) :
    Except String (Unit × Database) :=
  match db.request requestId with
  | none => .error s!"read Neko request phase failed: {queryReturnedNoRows}"
  | some row =>
    if canAdvanceOperation row.phase next then
      .ok ((), db.updateRequest requestId
        (fun row => { write row with phase := next, updatedAt := tick.now }) hw)
    else .error s!"invalid Neko operation transition {row.phase.asStr} -> {next.asStr}"

def setRequestPhase (requestId : String) (next : OperationPhase) (tick : Tick) (db : Database) :
    Except String (Unit × Database) :=
  advanceRequest requestId next id tick db

def resultExceedsLimit : String := "Neko request result exceeds the durable limit"

def completeRequest (requestId : String) (result : Value) (tick : Tick) (db : Database) :
    Except String (Unit × Database) :=
  if result.encodedLength > maxEventPayloadBytes then .error resultExceedsLimit
  else
    advanceRequest requestId .completed
      (fun row => { row with result := some result, errorCode := none }) tick db

def failRequest (requestId errorCode : String) (tick : Tick) (db : Database) :
    Except String (Unit × Database) :=
  advanceRequest requestId .failed
    (fun row => { row with errorCode := some errorCode, result := none }) tick db

def markRequestUnknown (requestId : String) (tick : Tick) (db : Database) :
    Except String (Unit × Database) :=
  advanceRequest requestId .unknownOutcome
    (fun row => { row with errorCode := some "unknown_outcome", result := none }) tick db

def retainTerminalFact (agentSessionId : String) (requestId : Option String) (fact : Value)
    (tick : Tick) (db : Database) : Except String (Unit × Database) :=
  if fact.encodedLength > maxEventPayloadBytes * 2 then
    .error "pending Neko terminal fact exceeds the durable limit"
  else do
    let db ← db.upsertPending { agentSessionId, requestId, fact, updatedAt := tick.now }
    return ((), db)

/-- The pending facts in the order of their last write. -/
def pendingTerminalFacts (db : Database) : List RetainedFact :=
  db.pending.rows.insertionSort fun a b =>
    a.updatedAt < b.updatedAt ∨ (a.updatedAt = b.updatedAt ∧ a.agentSessionId ≤ b.agentSessionId)

def removeTerminalFact (agentSessionId : String) (_ : Tick) (db : Database) :
    Except String (Unit × Database) :=
  .ok ((), db.deletePending agentSessionId)

/-- The request may still be open, or hold exactly this outcome; then the pending fact goes. -/
def reconcileRequest (agentSessionId requestId reading refused : String)
    (settled : ControlRequest → Bool) (write : ControlRequest → ControlRequest) (tick : Tick)
    (db : Database) (hw : ∀ r, (write r).requestId = r.requestId := by intro _; rfl) :
    Except String (Unit × Database) :=
  match db.request requestId with
  | none => .error s!"{reading} failed: {queryReturnedNoRows}"
  | some row =>
    if row.phase = .sideEffectStarted ∨ row.phase = .committed then
      .ok ((), (db.updateRequest requestId
        (fun row => { write row with updatedAt := tick.now }) hw).deletePending agentSessionId)
    else if settled row then .ok ((), db.deletePending agentSessionId)
    else .error s!"{refused} cannot reconcile from phase {row.phase.asStr}"

def reconcileTerminalRequest (agentSessionId requestId : String) (result : Value) (tick : Tick)
    (db : Database) : Except String (Unit × Database) :=
  if result.encodedLength > maxEventPayloadBytes then .error resultExceedsLimit
  else
    reconcileRequest agentSessionId requestId "read Neko request reconciliation state"
      "retained Neko request"
      (fun row => row.phase = .completed ∧ row.result = some result)
      (fun row => { row with phase := .completed, result := some result, errorCode := none })
      tick db

def reconcileTerminalRequestFailure (agentSessionId requestId errorCode : String) (tick : Tick)
    (db : Database) : Except String (Unit × Database) :=
  reconcileRequest agentSessionId requestId "read Neko failure reconciliation state"
    "retained Neko request failure"
    (fun row => row.phase = .failed ∧ row.errorCode = some errorCode)
    (fun row => { row with phase := .failed, errorCode := some errorCode, result := none })
    tick db

def hasPendingTerminalFact (db : Database) (agentSessionId : String) : Bool :=
  (db.retained agentSessionId).isSome

def setSessionPhase (agentSessionId : String) (phase : OperationPhase) (tick : Tick)
    (db : Database) : Except String (Unit × Database) :=
  match db.session agentSessionId with
  | none => .error s!"read Neko session phase failed: {queryReturnedNoRows}"
  | some row =>
    if canAdvanceOperation row.operationPhase phase then
      .ok ((), db.updateSession agentSessionId
        fun row => { row with operationPhase := phase, updatedAt := tick.now })
    else
      .error s!"invalid Neko session operation transition {row.operationPhase.asStr} -> {phase.asStr}"

def requestPhase (db : Database) (requestId : String) : Except String OperationPhase :=
  match db.request requestId with
  | none => .error s!"read Neko request phase failed: {queryReturnedNoRows}"
  | some row => .ok row.phase

/-- A request whose side effect started is completed through `committed`. -/
def canComplete : OperationPhase → Bool
  | .sideEffectStarted =>
    canAdvanceOperation .sideEffectStarted .committed && canAdvanceOperation .committed .completed
  | .committed => canAdvanceOperation .committed .completed
  | _ => false

def checkCompletion (db : Database) : Option (String × Value) → Except String Unit
  | none => .ok ()
  | some (requestId, _) => do
    let current ← requestPhase db requestId
    ensure (canComplete current) s!"invalid Neko operation transition {current.asStr} -> completed"

def checkFailure (db : Database) : Option (String × String) → Except String Unit
  | none => .ok ()
  | some (requestId, _) => do
    let current ← requestPhase db requestId
    ensure (canAdvanceOperation current .failed)
      s!"invalid Neko operation transition {current.asStr} -> failed"

def writeCompletion (db : Database) (now : Timestamp) : Option (String × Value) → Database
  | none => db
  | some (requestId, result) => db.updateRequest requestId fun row =>
      { row with phase := .completed, result := some result, errorCode := none, updatedAt := now }

def writeFailure (db : Database) (now : Timestamp) : Option (String × String) → Database
  | none => db
  | some (requestId, errorCode) => db.updateRequest requestId fun row =>
      { row with phase := .failed, errorCode := some errorCode, result := none, updatedAt := now }

/-- The session columns that a lifecycle transaction writes. -/
def committedSession (c : SessionCommit) (now : Timestamp) (row : SessionRecord) : SessionRecord :=
  { row with
    state := c.nextState, operationPhase := c.phase, continuity := c.continuity, pid := c.pid
    providerVersion := c.providerVersion.or row.providerVersion, updatedAt := now }

theorem agentSessionId_committedSession (c : SessionCommit) (now : Timestamp) (row : SessionRecord) :
    (committedSession c now row).agentSessionId = row.agentSessionId := rfl

/-- A transition with its event, at most one request outcome, and no pending fact any more. -/
def commitSessionEvent (c : SessionCommit) (completion : Option (String × Value))
    (failure : Option (String × String)) (tick : Tick) (db : Database) :
    Except String (ControlEvent × Database) := do
  ensure (!(completion.isSome && failure.isSome))
    "Neko lifecycle transaction cannot both complete and fail a request"
  validatePayload c.payload
  ensure (completion.all fun (_, result) => result.encodedLength ≤ maxEventPayloadBytes)
    resultExceedsLimit
  match db.session c.agentSessionId with
  | none => .error s!"read Neko session state failed: {queryReturnedNoRows}"
  | some row => do
    ensure (canTransition row.state c.nextState)
      s!"invalid Neko run transition {row.state.asStr} -> {c.nextState.asStr}"
    ensure (canAdvanceOperation row.operationPhase c.phase)
      s!"invalid Neko session operation transition {row.operationPhase.asStr} -> {c.phase.asStr}"
    checkCompletion db completion
    checkFailure db failure
    let db := db.updateSession c.agentSessionId (committedSession c tick.now)
      (agentSessionId_committedSession c tick.now)
    let event := nextEvent db row.runId c.eventType row.runId c.agentSessionId c.payload tick
    let db ← db.insertEvent event
    let db := writeFailure (writeCompletion db tick.now completion) tick.now failure
    return (event, db.deletePending c.agentSessionId)

def updateSessionWithEvent (c : SessionCommit) (tick : Tick) (db : Database) :
    Except String (ControlEvent × Database) :=
  commitSessionEvent c none none tick db

def completeRequestWithSessionEvent (c : SessionCommit) (requestId : String) (result : Value)
    (tick : Tick) (db : Database) : Except String (ControlEvent × Database) :=
  commitSessionEvent { c with pid := none, providerVersion := none } (some (requestId, result)) none
    tick db

def failRequestWithSessionEvent (c : SessionCommit) (requestId errorCode : String) (tick : Tick)
    (db : Database) : Except String (ControlEvent × Database) :=
  commitSessionEvent { c with pid := none } none (some (requestId, errorCode)) tick db

/-- The sessions, of one run or of all, oldest first. -/
def sessions (db : Database) (runId : Option String) : List SessionRecord :=
  (db.sessions.rows.filter fun row => runId.all fun id => decide (row.runId = id)).insertionSort
    fun a b =>
      a.createdAt < b.createdAt ∨ (a.createdAt = b.createdAt ∧ a.agentSessionId ≤ b.agentSessionId)

def appendEvent (streamId eventType runId : String) (agentSessionId : Option String)
    (payload : Value) (tick : Tick) (db : Database) : Except String (ControlEvent × Database) := do
  validatePayload payload
  let event := nextEvent db streamId eventType runId agentSessionId payload tick
  let db ← db.insertEvent event
  return (event, db)

def maxReplayLimit : ℕ := 500

/-- A page of a stream after the cursor, in sequence order. -/
def replay (streamId : String) (afterSeq limit : ℕ) (db : Database) : Except String ReplayPage := do
  ensure (1 ≤ limit && limit ≤ maxReplayLimit) "Neko replay limit must be between 1 and 500"
  ensure (afterSeq < 2 ^ 63) "Neko replay cursor exceeds the durable sequence range"
  let rows := (db.events.rows.filter fun event =>
    decide (event.streamId = streamId) && decide (afterSeq < event.seq)).insertionSort
      fun a b => a.seq ≤ b.seq
  let events := (rows.take (limit + 1)).take limit
  return {
    streamId, events, nextAfterSeq := (events.getLast?.map ControlEvent.seq).getD afterSeq
    hasMore := decide (limit < (rows.take (limit + 1)).length) }

end Journal

end Wiii.Neko

/-!
## Startup: recovery and maintenance

`recoverIncomplete` closes what a dead process left open, one transaction for each session and two
for the requests; `startupMaintenance` prunes old rows in one transaction.  Opening the journal
runs both.  A recovery that is cut short, by an error or by a crash, leaves what its finished
transactions wrote.
-/

namespace Wiii.Neko.Journal

open Program

/-- A duration of so many days, in milliseconds. -/
def days (n : Int) : Int := n * (24 * 60 * 60 * 1000)

def eventRetentionDays : Int := 30

def terminalRecordRetentionDays : Int := 90

def terminalRequestRetentionDays : Int := 90

def maxEventsPerStream : ℕ := 10000

/-! ## Maintenance -/

/-- `ROW_NUMBER() OVER (PARTITION BY stream_id ORDER BY seq DESC)`. -/
def retentionRank (db : Database) (event : ControlEvent) : ℕ :=
  (db.events.rows.filter fun e =>
    decide (e.streamId = event.streamId) && decide (event.seq ≤ e.seq)).length

def prunesEvent (db : Database) (cutoff : Timestamp) (event : ControlEvent) : Bool :=
  (decide (event.atTime < cutoff) && decide (event.seq < db.latestSeq event.streamId)) ||
    decide (maxEventsPerStream < retentionRank db event)

def prunesRequest (db : Database) (cutoff : Timestamp) (row : ControlRequest) : Bool :=
  (decide (row.phase = .completed) || decide (row.phase = .failed)) &&
    decide (row.updatedAt < cutoff) && !db.linked row.requestId

def prunesSession (db : Database) (cutoff : Timestamp) (row : SessionRecord) : Bool :=
  (decide (row.state = .completed) || decide (row.state = .failed) ||
    decide (row.state = .cancelled)) &&
      decide (row.updatedAt < cutoff) && (db.retained row.agentSessionId).isNone

/-- Its cutoffs come from three readings of the clock, the first that of the tick. -/
def startupMaintenance (terminalNow requestNow : Timestamp) (tick : Tick) (db : Database) :
    Except String (Unit × Database) := do
  let db := { db with
    events := db.events.deleteWhere (prunesEvent db (tick.now - days eventRetentionDays)) }
  let db ← db.deleteRequestsWhere
    (prunesRequest db (requestNow - days terminalRequestRetentionDays))
  let db := db.deleteSessionsWhere
    (prunesSession db (terminalNow - days terminalRecordRetentionDays))
  return ((), db)

variable {μ : Type}

/-- A statement that reads or writes no row of the journal, such as the checkpoint. -/
def housekeeping (_ : Tick) (db : Database) : Except String (Unit × Database) := .ok ((), db)

def runStartupMaintenance (terminalNow requestNow : Timestamp) :
    Program Database μ (Except String Unit) :=
  (call (startupMaintenance terminalNow requestNow)).andThen fun _ => call housekeeping

/-! ## Recovery -/

structure RecoveryOutcome where
  state : RunState
  phase : OperationPhase
  continuity : String
  reason : String

def recoveryOutcome (phase : OperationPhase) : RecoveryOutcome :=
  match recoveryDisposition phase with
  | .continuityLost => ⟨.failed, .failed, "continuity_lost", "native_process_ownership_lost"⟩
  | .unknownOutcome =>
    ⟨.unknownOutcome, .unknownOutcome, "unknown_outcome", "side_effect_outcome_unproven"⟩
  | .preserve =>
    match phase with
    | .completed => ⟨.failed, .completed, "continuity_lost", "native_process_ownership_lost"⟩
    | .failed => ⟨.failed, .failed, "continuity_lost", "recorded_failure"⟩
    | _ => ⟨.unknownOutcome, .unknownOutcome, "unknown_outcome", "recorded_unknown_outcome"⟩

/-- The lifecycle transaction that recovery runs on an open session. -/
def recoveryCommit (session : SessionRecord) : SessionCommit :=
  let outcome := recoveryOutcome session.operationPhase
  { agentSessionId := session.agentSessionId
    nextState := outcome.state
    phase := outcome.phase
    continuity := outcome.continuity
    pid := none
    providerVersion := none
    eventType := "run.state_changed"
    payload := .object [("reason", .string outcome.reason), ("state", .string outcome.state.asStr)] }

def recoverSession (session : SessionRecord) : Program Database μ (Except String Unit) :=
  if session.state.isTerminal then pure (.ok ())
  else
    (call fun _ db => .ok (hasPendingTerminalFact db session.agentSessionId, db)).andThen
      fun pending =>
        if pending then pure (.ok ())
        else (call (updateSessionWithEvent (recoveryCommit session))).andThen
          fun _ => pure (.ok ())

/-- The row that the two updates of recovery write. -/
def closedRow (phase : OperationPhase) (errorCode : String) (tick : Tick) (row : ControlRequest) :
    ControlRequest :=
  { row with phase, errorCode := some errorCode, updatedAt := tick.now }

theorem requestId_closedRow (phase : OperationPhase) (errorCode : String) (tick : Tick)
    (row : ControlRequest) : (closedRow phase errorCode tick row).requestId = row.requestId := rfl

/-- The open requests are closed, unless a pending fact references them. -/
def closed (open_ : OperationPhase → Bool) (phase : OperationPhase) (errorCode : String)
    (tick : Tick) (db : Database) : Database :=
  { db with
    requests := db.requests.updateWhere (fun row => open_ row.phase && !db.linked row.requestId)
      (closedRow phase errorCode tick) (requestId_closedRow phase errorCode tick) }

def closeRequests (open_ : OperationPhase → Bool) (phase : OperationPhase) (errorCode : String)
    (tick : Tick) (db : Database) : Except String (Unit × Database) :=
  .ok ((), closed open_ phase errorCode tick db)

def recoverSafeRequests : Tick → Database → Except String (Unit × Database) :=
  closeRequests (fun p => p = .accepted || p = .dispatched) .failed "continuity_lost"

def recoverUncertainRequests : Tick → Database → Except String (Unit × Database) :=
  closeRequests (fun p => p = .sideEffectStarted || p = .committed) .unknownOutcome
    "unknown_outcome"

def recoverIncomplete : Program Database μ (Except String Unit) :=
  (call fun _ db => .ok (sessions db none, db)).andThen fun sessions =>
    (tryEach recoverSession sessions).andThen fun _ =>
      (call recoverSafeRequests).andThen fun _ => call recoverUncertainRequests

/-- Opens the journal: the schema, then recovery, then maintenance. -/
def openJournal (terminalNow requestNow : Timestamp) : Program Database μ (Except String Unit) :=
  (call housekeeping).andThen fun _ =>
    recoverIncomplete.andThen fun _ => runStartupMaintenance terminalNow requestNow

end Wiii.Neko.Journal
