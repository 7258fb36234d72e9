import Wiii.Lib.Table
import Wiii.Neko.Lifecycle
import Wiii.Neko.Payload

/-!
# The tables of the runtime journal

The four tables of the SQLite journal.  Primary keys and the unique index on `(stream_id, seq)` are carried by `Table`,
the foreign keys are enforced by the statements, with the referential actions of the schema.

The text columns of states and phases hold the enumerations themselves (`RunState.parse_asStr`,
`OperationPhase.parse_asStr`).  Timestamps are instants in milliseconds, since their texts have one fixed width.
-/

namespace Wiii.Neko

abbrev Timestamp := Int

/-- A row of `runtime_sessions`. -/
structure SessionRecord where
  agentSessionId : String
  taskId : String
  runId : String
  environmentId : String
  providerId : String
  providerVersion : Option String
  workspacePath : String
  state : RunState
  operationPhase : OperationPhase
  continuity : String
  pid : Option ℕ
  createdAt : Timestamp
  updatedAt : Timestamp

structure NewSession where
  agentSessionId : String
  taskId : String
  runId : String
  environmentId : String
  providerId : String
  workspacePath : String

/-- A row of `control_requests`. -/
structure ControlRequest where
  requestId : String
  method : String
  targetId : String
  phase : OperationPhase
  result : Option Value
  errorCode : Option String
  createdAt : Timestamp
  updatedAt : Timestamp

/-- A row of `control_events`.  `eventId` is a fresh random UUID, which never repeats. -/
structure ControlEvent where
  eventId : String
  streamId : String
  seq : ℕ
  atTime : Timestamp
  eventType : String
  runId : String
  agentSessionId : Option String
  payload : Value

/-- The unique index of `control_events`. -/
def ControlEvent.position (event : ControlEvent) : String × ℕ := (event.streamId, event.seq)

/-- The event after `ON DELETE SET NULL`. -/
def ControlEvent.detached (event : ControlEvent) : ControlEvent :=
  { event with agentSessionId := none }

theorem ControlEvent.position_detached (event : ControlEvent) :
    event.detached.position = event.position := rfl

/-- A row of `pending_terminal_facts`. -/
structure RetainedFact where
  agentSessionId : String
  requestId : Option String
  fact : Value
  updatedAt : Timestamp

structure Database where
  sessions : Table SessionRecord.agentSessionId
  requests : Table ControlRequest.requestId
  events : Table ControlEvent.position
  pending : Table RetainedFact.agentSessionId

namespace Database

instance : EmptyCollection Database := ⟨⟨∅, ∅, ∅, ∅⟩⟩

def session (db : Database) (agentSessionId : String) : Option SessionRecord :=
  db.sessions.find? agentSessionId

def request (db : Database) (requestId : String) : Option ControlRequest :=
  db.requests.find? requestId

def retained (db : Database) (agentSessionId : String) : Option RetainedFact :=
  db.pending.find? agentSessionId

/-- Some pending terminal fact references the request. -/
def linked (db : Database) (requestId : String) : Bool :=
  db.pending.rows.any fun row => decide (row.requestId = some requestId)

/-- `COALESCE(MAX(seq), 0)` over a stream. -/
def latestSeq (db : Database) (streamId : String) : ℕ :=
  ((db.events.rows.filter fun event => decide (event.streamId = streamId)).map
    ControlEvent.seq).max?.getD 0

/-! ## Statements -/

def uniqueConstraintFailed : String := "UNIQUE constraint failed"

def foreignKeyConstraintFailed : String := "FOREIGN KEY constraint failed"

def queryReturnedNoRows : String := "Query returned no rows"

def insertSession (db : Database) (row : SessionRecord) : Except String Database :=
  match db.sessions.insert? row with
  | none => .error uniqueConstraintFailed
  | some sessions => .ok { db with sessions }

def insertRequest (db : Database) (row : ControlRequest) : Except String Database :=
  match db.requests.insert? row with
  | none => .error uniqueConstraintFailed
  | some requests => .ok { db with requests }

def insertEvent (db : Database) (event : ControlEvent) : Except String Database :=
  match db.events.insert? event with
  | none => .error uniqueConstraintFailed
  | some events =>
    if event.agentSessionId.any fun id => (db.session id).isNone then
      .error foreignKeyConstraintFailed
    else .ok { db with events }

def upsertPending (db : Database) (row : RetainedFact) : Except String Database :=
  if (db.session row.agentSessionId).isNone ||
      row.requestId.any fun id => (db.request id).isNone then
    .error foreignKeyConstraintFailed
  else .ok { db with pending := db.pending.upsert row }

def updateSession (db : Database) (agentSessionId : String) (f : SessionRecord → SessionRecord)
    (hf : ∀ r, (f r).agentSessionId = r.agentSessionId := by intro _; rfl) : Database :=
  { db with sessions := db.sessions.update agentSessionId f hf }

def updateRequest (db : Database) (requestId : String) (f : ControlRequest → ControlRequest)
    (hf : ∀ r, (f r).requestId = r.requestId := by intro _; rfl) : Database :=
  { db with requests := db.requests.update requestId f hf }

def deletePending (db : Database) (agentSessionId : String) : Database :=
  { db with pending := db.pending.delete agentSessionId }

/-- Deletes requests; refused when a pending terminal fact references one of them. -/
def deleteRequestsWhere (db : Database) (p : ControlRequest → Bool) : Except String Database :=
  if db.pending.rows.any fun row => row.requestId.any fun id => (db.request id).any p then
    .error foreignKeyConstraintFailed
  else .ok { db with requests := db.requests.deleteWhere p }

/-- Deletes sessions with their pending facts, and clears the reference in their events. -/
def deleteSessionsWhere (db : Database) (p : SessionRecord → Bool) : Database :=
  let gone := fun id => (db.session id).any p
  { db with
    sessions := db.sessions.deleteWhere p
    events := db.events.updateWhere (fun event => event.agentSessionId.any gone)
      ControlEvent.detached ControlEvent.position_detached
    pending := db.pending.deleteWhere fun row => gone row.agentSessionId }

end Database

end Wiii.Neko
