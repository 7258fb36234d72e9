import Mathlib.Data.List.Sort
import Wiii.Neko.Computer.Schema

/-!
# The operations of the computer journal

Each operation of `ComputerJournal` as the transaction it runs.  The random ids are drawn from `newV4`.
-/

namespace Wiii.Neko.Computer

def maxEventPayloadBytes : ℕ := 4 * 1024
def maxReplayLimit : ℕ := 500

inductive RequestDecision where
  | execute
  | replay (result : Value)
  | recordedError (code : String)
  | unknownOutcome
  deriving DecidableEq

structure DisplaySeat where
  seatId : String
  state : SeatState
  leaseId : Option String
  ownerId : Option String
  updatedAt : Timestamp
  deriving DecidableEq

structure ComputerEnvironment where
  environmentId : String
  projectId : Option String
  projectName : String
  projectPath : String
  state : ComputerState
  resources : ComputerResources
  seat : DisplaySeat
  createdAt : Timestamp
  updatedAt : Timestamp
  deriving DecidableEq

structure ComputerReplayPage where
  streamId : String
  events : List ComputerEvent
  nextAfterSeq : ℕ
  hasMore : Bool

structure CoworkerProjectActivation where
  coworkerId : String
  environmentId : String
  projectId : String
  projectName : String
  projectPath : String
  state : ComputerState
  resources : ComputerResources
  eventType : String

def seatIdOf (environmentId : String) : String := "seat-" ++ environmentId

def streamIdOf (environmentId : String) : String := "computer:" ++ environmentId

def SeatRow.display (seat : SeatRow) : DisplaySeat where
  seatId := seatIdOf seat.environmentId
  state := seat.state
  leaseId := seat.leaseId
  ownerId := seat.ownerId
  updatedAt := seat.updatedAt

abbrev SeatRow.release (now : Timestamp) (seat : SeatRow) : SeatRow :=
  { seat with state := .available, leaseId := none, ownerId := none, updatedAt := now }

abbrev StoredRequest.uncertain (now : Timestamp) (row : StoredRequest) : StoredRequest :=
  { row with phase := .unknownOutcome, errorCode := some "unknown_outcome", updatedAt := now }

abbrev EnvironmentRow.uncertain (now : Timestamp) (row : EnvironmentRow) : EnvironmentRow :=
  { row with state := .unknownOutcome, updatedAt := now }

def ComputerProjectGrant.covers (coworkerId projectId : String) (grant : ComputerProjectGrant) : Bool :=
  decide (grant.coworkerId = coworkerId) && decide (grant.projectId = some projectId)

def availableSeat (environmentId : String) (now : Timestamp) : SeatRow where
  environmentId := environmentId
  state := .available
  leaseId := none
  ownerId := none
  updatedAt := now

/-- What is recorded of a request decides what a call with its id does. -/
def requestDecision (stored : StoredRequest) (method targetId : String) : Except String RequestDecision :=
  if stored.method ≠ method ∨ stored.targetId ≠ targetId then
    .error "Computer request ID was already used for another operation"
  else
    match stored.phase with
    | .completed =>
      match stored.result with
      | none => .error "Completed computer request has no result"
      | some result => .ok (.replay result)
    | .failed => .ok (.recordedError (stored.errorCode.getD "computer_operation_failed"))
    | .accepted | .sideEffectStarted | .unknownOutcome => .ok .unknownOutcome

namespace ComputerJournal

/-! ## Events and seats -/

section Events

variable (newV4 : ℕ → String) (now : Timestamp)

def nextEvent (environmentId eventType : String) (payload : Value) (db : ComputerJournal) : ComputerEvent where
  eventId := newV4 db.drawn
  streamId := streamIdOf environmentId
  seq := db.latestSeq (streamIdOf environmentId) + 1
  atTime := now
  eventType := eventType
  environmentId := environmentId
  payload := payload

def appendEventTx (environmentId eventType : String) (payload : Value) (db : ComputerJournal) :
    Except String ComputerJournal :=
  if maxEventPayloadBytes < payload.encodedLength then .error "Computer event payload exceeds 4096 bytes"
  else do
    let db' ← failing "append computer event"
      (db.insertEvent (nextEvent newV4 now environmentId eventType payload db))
    .ok { db' with drawn := db.drawn + 1 }

/-- Whether a seat was taken, which is available now. -/
def makeSeatAvailableTx (environmentId eventType : String) (payload : Value) (db : ComputerJournal) :
    Except String (Bool × ComputerJournal) :=
  let held := fun seat : SeatRow => decide (seat.environmentId = environmentId) && decide (seat.state ≠ .available)
  if db.seats.rows.any held then do
    let db' ← appendEventTx newV4 now environmentId eventType payload
      (db.updateSeatWhere held (SeatRow.release now))
    .ok (true, db')
  else .ok (false, db)

def appendEvent (environmentId eventType : String) (payload : Value) (db : ComputerJournal) :
    Except String (Unit × ComputerJournal) :=
  (appendEventTx newV4 now environmentId eventType payload db).map ((), ·)

end Events

/-! ## Requests -/

def beginRequest (requestId method targetId : String) (now : Timestamp) (db : ComputerJournal) :
    Except String (RequestDecision × ComputerJournal) := do
  validateIdentifier requestId "request ID"
  match db.requests.find? requestId with
  | some stored => (requestDecision stored method targetId).map (·, db)
  | none =>
    let db' ← failing "record computer request" (db.insertRequest {
      requestId := requestId
      method := method
      targetId := targetId
      phase := .accepted
      result := none
      errorCode := none
      createdAt := now
      updatedAt := now })
    .ok (.execute, db')

def existingRequestDecision (requestId method targetId : String) (db : ComputerJournal) :
    Except String (Option RequestDecision) := do
  validateIdentifier requestId "request ID"
  match db.requests.find? requestId with
  | some stored => (requestDecision stored method targetId).map some
  | none => .ok none

/-- `UPDATE computer_requests … WHERE request_id = … AND phase IN …`, which must change a row. -/
def advanceRequest (requestId : String) (phases : List RequestPhase) (refused : String)
    (f : StoredRequest → StoredRequest) (hf : ∀ r, (f r).requestId = r.requestId) (db : ComputerJournal) :
    Except String (Unit × ComputerJournal) :=
  let due := fun row : StoredRequest => decide (row.requestId = requestId) && decide (row.phase ∈ phases)
  if db.requests.rows.any due then .ok ((), db.updateRequestWhere due f hf) else .error refused

def markSideEffectStarted (requestId : String) (now : Timestamp) (db : ComputerJournal) :
    Except String (Unit × ComputerJournal) :=
  advanceRequest requestId [.accepted] "Computer request is not eligible for its side effect"
    (fun row => { row with phase := .sideEffectStarted, updatedAt := now }) (fun _ => rfl) db

def completeRequest (requestId : String) (result : Value) (now : Timestamp) (db : ComputerJournal) :
    Except String (Unit × ComputerJournal) :=
  advanceRequest requestId [.accepted, .sideEffectStarted]
    "Computer request could not be completed atomically"
    (fun row => { row with phase := .completed, result := some result, errorCode := none, updatedAt := now })
    (fun _ => rfl) db

def failRequest (requestId code : String) (now : Timestamp) (db : ComputerJournal) :
    Except String (Unit × ComputerJournal) :=
  advanceRequest requestId [.accepted, .sideEffectStarted] "Computer request could not be failed atomically"
    (fun row => { row with phase := .failed, errorCode := some code, updatedAt := now }) (fun _ => rfl) db

/-- Whatever the phase of the request is. -/
def markUnknownOutcome (newV4 : ℕ → String) (requestId environmentId : String) (now : Timestamp)
    (db : ComputerJournal) : Except String (Unit × ComputerJournal) := do
  let db := db.updateRequestWhere (fun row => decide (row.requestId = requestId)) (StoredRequest.uncertain now)
  let db := db.updateEnvironment environmentId (EnvironmentRow.uncertain now)
  let db ← appendEventTx newV4 now environmentId "computer.unknown_outcome"
    (.object [("requestId", .string requestId)]) db
  .ok ((), db)

/-- What opening does to the requests and environments that were left in the middle. -/
def recoverIncomplete (now : Timestamp) (db : ComputerJournal) : ComputerJournal :=
  let db := db.updateRequestWhere (fun row => decide (row.phase ∉ [.completed, .failed, .unknownOutcome]))
    (StoredRequest.uncertain now)
  { db with environments :=
      db.environments.updateWhere (fun row => decide (row.state = .preparing)) (EnvironmentRow.uncertain now) }

/-! ## Coworkers and projects -/

def coworkerBinding (coworkerId : String) (db : ComputerJournal) : Except String (Option CoworkerBinding) := do
  validateIdentifier coworkerId "coworker"
  .ok (db.bindings.find? coworkerId)

def coworkerBindingForEnvironment (environmentId : String) (db : ComputerJournal) : Option CoworkerBinding :=
  db.bindings.rows.find? fun binding => decide (binding.environmentId = environmentId)

def projectGrants (coworkerId : String) (db : ComputerJournal) : Except String (List ComputerProjectGrant) := do
  validateIdentifier coworkerId "coworker"
  .ok (db.grants.rows.filter fun grant => decide (grant.coworkerId = coworkerId))

def hasProjectGrant (coworkerId projectId : String) (db : ComputerJournal) : Except String Bool := do
  validateIdentifier coworkerId "coworker"
  validateIdentifier projectId "Project ID"
  .ok (db.grants.rows.any (ComputerProjectGrant.covers coworkerId projectId))

/-- The one of two rows that was updated last, or else made last. -/
def laterEnvironment (best : Option EnvironmentRow) (row : EnvironmentRow) : Option EnvironmentRow :=
  match best with
  | none => some row
  | some best =>
    if best.updatedAt < row.updatedAt ∨ best.updatedAt = row.updatedAt ∧ best.createdAt ≤ row.createdAt then some row
    else some best

def latestEnvironment (db : ComputerJournal) : Option EnvironmentRow :=
  db.environments.rows.foldl laterEnvironment none

/-- The upsert on `(coworker_id, project_path)` of a grant without a project id. -/
def adoptGrant (coworkerId : String) (now : Timestamp) (environment : EnvironmentRow) (grants : Grants) :
    Except String Grants :=
  let conflicting := fun grant : ComputerProjectGrant =>
    decide (grant.location = (coworkerId, environment.projectPath))
  if grants.rows.any conflicting then
    grants.updateWhere conflicting fun grant =>
      { grant with projectName := environment.projectName, accessMode := "read_write", updatedAt := now }
  else grants.insert {
    coworkerId := coworkerId
    projectId := none
    projectName := environment.projectName
    projectPath := environment.projectPath
    accessMode := "read_write"
    createdAt := now
    updatedAt := now }

def adoptGrants (coworkerId : String) (now : Timestamp) : List EnvironmentRow → Grants → Except String Grants
  | [], grants => .ok grants
  | environment :: environments, grants => do
    let grants ← adoptGrant coworkerId now environment grants
    adoptGrants coworkerId now environments grants

def adoptLegacyCoworker (newV4 : ℕ → String) (coworkerId : String) (now : Timestamp) (db : ComputerJournal) :
    Except String (Unit × ComputerJournal) := do
  validateIdentifier coworkerId "coworker"
  match db.bindings.find? coworkerId with
  | some _ => .ok ((), db)
  | none =>
    match db.latestEnvironment with
    | none => .ok ((), db)
    | some environment =>
      let grants ← failing "migrate legacy Computer project grants"
        (adoptGrants coworkerId now db.environments.rows db.grants)
      let db ← failing "adopt legacy Computer workstation" (insertBinding { db with grants := grants } {
        coworkerId := coworkerId
        environmentId := environment.environmentId
        activeProjectId := none
        activeProjectName := some environment.projectName
        activeProjectPath := some environment.projectPath
        createdAt := now
        updatedAt := now })
      let db ← appendEventTx newV4 now environment.environmentId "computer.coworker_adopted"
        (.object [("coworkerId", .string coworkerId), ("projectName", .string environment.projectName),
          ("projectPath", .string environment.projectPath)]) db
      .ok ((), db)

def grantProject (coworkerId projectId projectName projectPath : String) (now : Timestamp)
    (db : ComputerJournal) : Except String (ComputerProjectGrant × ComputerJournal) := do
  validateIdentifier coworkerId "coworker"
  validateIdentifier projectId "Project ID"
  let grants ← failing "adopt legacy Project grant" (db.grants.updateWhere
    (fun grant => decide (grant.location = (coworkerId, projectPath)) && grant.projectId.isNone)
    fun grant => { grant with projectId := some projectId, projectName := projectName, updatedAt := now })
  let db := updateBindingWhere { db with grants := grants }
    (fun binding => decide (binding.coworkerId = coworkerId) &&
      decide (binding.activeProjectPath = some projectPath) && binding.activeProjectId.isNone)
    fun binding => { binding with
      activeProjectId := some projectId, activeProjectName := some projectName, updatedAt := now }
  let granted := ComputerProjectGrant.covers coworkerId projectId
  let grants ← failing "grant coworker project access" (if db.grants.rows.any granted then
      db.grants.updateWhere granted fun grant => { grant with
        projectName := projectName, projectPath := projectPath, accessMode := "read_write", updatedAt := now }
    else db.grants.insert {
      coworkerId := coworkerId
      projectId := some projectId
      projectName := projectName
      projectPath := projectPath
      accessMode := "read_write"
      createdAt := now
      updatedAt := now })
  match grants.rows.find? granted with
  | none => .error "Coworker project grant was not persisted"
  | some grant => .ok (grant, { db with grants := grants })

/-- The coworker is bound, and another project than the active one is asked for. -/
def switchesProject (projectId : String) (binding : Option CoworkerBinding) : Bool :=
  binding.any fun binding => decide (binding.activeProjectId ≠ some projectId)

def activateCoworkerProject (newV4 : ℕ → String) (activation : CoworkerProjectActivation) (now : Timestamp)
    (db : ComputerJournal) : Except String (Unit × ComputerJournal) := do
  let { coworkerId, environmentId, projectId, projectName, projectPath, state, resources, eventType } := activation
  validateIdentifier coworkerId "coworker"
  validateIdentifier projectId "Project ID"
  let existing := db.bindings.find? coworkerId
  if existing.any fun binding => decide (binding.environmentId ≠ environmentId) then
    .error "Coworker is already bound to another Computer environment"
  else if ¬ db.grants.rows.any (ComputerProjectGrant.covers coworkerId projectId) then
    .error "project_access_denied: grant this Project to Neko before opening it"
  else do
    let grants ← failing "refresh Project workspace locator" (db.grants.updateWhere
      (ComputerProjectGrant.covers coworkerId projectId)
      fun grant => { grant with projectName := projectName, projectPath := projectPath, updatedAt := now })
    let db ← failing "prepare coworker computer environment" (upsertEnvironmentRow { db with grants := grants } {
      environmentId := environmentId
      projectName := projectName
      projectPath := projectPath
      state := state
      resources := resources
      createdAt := now
      updatedAt := now })
    let db := db.insertSeat (availableSeat environmentId now)
    let db ← (if switchesProject projectId existing then
        (makeSeatAvailableTx newV4 now environmentId "seat.project_switched"
          (.object [("coworkerId", .string coworkerId), ("projectId", .string projectId)]) db).map Prod.snd
      else .ok db)
    let db ← (match existing with
      | some _ => .ok (db.updateBindingWhere (fun binding => decide (binding.coworkerId = coworkerId))
          fun binding => { binding with
            activeProjectId := some projectId
            activeProjectName := some projectName
            activeProjectPath := some projectPath
            updatedAt := now })
      | none => failing "bind coworker to Computer" (db.insertBinding {
          coworkerId := coworkerId
          environmentId := environmentId
          activeProjectId := some projectId
          activeProjectName := some projectName
          activeProjectPath := some projectPath
          createdAt := now
          updatedAt := now }))
    let db ← appendEventTx newV4 now environmentId eventType
      (.object [("state", .string state.asStr), ("coworkerId", .string coworkerId),
        ("projectId", .string projectId), ("projectName", .string projectName),
        ("projectPath", .string projectPath)]) db
    .ok ((), db)

def revokeProject (newV4 : ℕ → String) (coworkerId projectId : String) (now : Timestamp)
    (db : ComputerJournal) : Except String (Option String × ComputerJournal) := do
  validateIdentifier coworkerId "coworker"
  validateIdentifier projectId "Project ID"
  let binding := db.bindings.find? coworkerId
  let db := { db with grants := db.grants.deleteWhere (ComputerProjectGrant.covers coworkerId projectId) }
  let payload := .object [("coworkerId", .string coworkerId), ("projectId", .string projectId)]
  match binding.filter fun binding => decide (binding.activeProjectId = some projectId) with
  | none => .ok (none, db)
  | some binding =>
    let (_, db) ← makeSeatAvailableTx newV4 now binding.environmentId "seat.project_revoked" payload db
    let db := db.updateBindingWhere (fun binding => decide (binding.coworkerId = coworkerId)) fun binding =>
      { binding with
        activeProjectId := none, activeProjectName := none, activeProjectPath := none, updatedAt := now }
    let db := db.updateEnvironment binding.environmentId fun row => { row with state := .suspended, updatedAt := now }
    let db ← appendEventTx newV4 now binding.environmentId "computer.project_revoked" payload db
    .ok (some binding.environmentId, db)

/-! ## Environments -/

def deleteEnvironment (environmentId : String) (db : ComputerJournal) : Except String (Unit × ComputerJournal) :=
  let owners := (db.bindings.rows.filter fun binding => decide (binding.environmentId = environmentId)).map
    CoworkerBinding.coworkerId
  let db := { db with grants := db.grants.deleteWhere fun grant => decide (grant.coworkerId ∈ owners) }
  if (db.environments.find? environmentId).isNone then .error "Computer environment does not exist"
  else .ok ((), db.deleteEnvironmentRow environmentId)

def upsertEnvironment (newV4 : ℕ → String) (environmentId projectName projectPath : String)
    (state : ComputerState) (resources : ComputerResources) (eventType : String) (now : Timestamp)
    (db : ComputerJournal) : Except String (Unit × ComputerJournal) := do
  let db ← failing "save computer environment" (db.upsertEnvironmentRow {
    environmentId := environmentId
    projectName := projectName
    projectPath := projectPath
    state := state
    resources := resources
    createdAt := now
    updatedAt := now })
  let db := db.insertSeat (availableSeat environmentId now)
  let db ← appendEventTx newV4 now environmentId eventType (.object [("state", .string state.asStr)]) db
  .ok ((), db)

def environment (environmentId : String) (db : ComputerJournal) : Option ComputerEnvironment := do
  let row ← db.environments.find? environmentId
  let seat ← db.seats.find? environmentId
  some {
    environmentId := row.environmentId
    projectId := none
    projectName := row.projectName
    projectPath := row.projectPath
    state := row.state
    resources := row.resources
    seat := seat.display
    createdAt := row.createdAt
    updatedAt := row.updatedAt }

def setEnvironmentState (newV4 : ℕ → String) (environmentId : String) (state : ComputerState)
    (eventType : String) (now : Timestamp) (db : ComputerJournal) : Except String (Unit × ComputerJournal) :=
  if (db.environments.find? environmentId).isNone then .error "Computer environment does not exist"
  else do
    let db := db.updateEnvironment environmentId fun row => { row with state := state, updatedAt := now }
    let db ← appendEventTx newV4 now environmentId eventType (.object [("state", .string state.asStr)]) db
    .ok ((), db)

/-! ## Seats -/

def acquireSeat (newV4 : ℕ → String) (environmentId ownerId : String) (userControlled : Bool)
    (now : Timestamp) (db : ComputerJournal) : Except String (DisplaySeat × ComputerJournal) := do
  validateIdentifier ownerId "seat owner"
  match db.seats.find? environmentId with
  | none => .error "Computer display seat does not exist"
  | some current =>
    let sameOwner := decide (current.ownerId = some ownerId)
    let humanPreemptsAgent := userControlled && decide (current.state = .agentControlled)
    if current.state ≠ .available ∧ ¬ sameOwner ∧ ¬ humanPreemptsAgent then
      .error "Computer display seat is already controlled by another owner"
    else
      let drawnLease := "lease-" ++ newV4 db.drawn
      -- A held lease is kept for its owner, so nothing is drawn for it.
      let keptLease := if sameOwner then current.leaseId else none
      let leaseId := keptLease.getD drawnLease
      let state := if userControlled then .userControlled else .agentControlled
      let db := updateSeatWhere { db with drawn := if keptLease.isSome then db.drawn else db.drawn + 1 }
        (fun seat => decide (seat.environmentId = environmentId))
        fun seat => { seat with
          state := state, leaseId := some leaseId, ownerId := some ownerId, updatedAt := now }
      let db ← appendEventTx newV4 now environmentId
        (if userControlled then "seat.user_takeover" else "seat.acquired")
        (.object [("ownerId", .string ownerId), ("leaseId", .string leaseId)]) db
      .ok ({ seatId := seatIdOf environmentId
             state := state
             leaseId := some leaseId
             ownerId := some ownerId
             updatedAt := now }, db)

def releaseSeat (newV4 : ℕ → String) (environmentId leaseId : String) (now : Timestamp)
    (db : ComputerJournal) : Except String (DisplaySeat × ComputerJournal) := do
  validateIdentifier leaseId "seat lease"
  let current := fun seat : SeatRow =>
    decide (seat.environmentId = environmentId) && decide (seat.leaseId = some leaseId)
  if db.seats.rows.any current then do
    let db ← appendEventTx newV4 now environmentId "seat.released" (.object [("leaseId", .string leaseId)])
      (db.updateSeatWhere current (SeatRow.release now))
    .ok ((availableSeat environmentId now).display, db)
  else .error "Computer display lease is no longer current"

/-! ## Replay -/

def replay (environmentId : String) (afterSeq limit : ℕ) (db : ComputerJournal) :
    Except String ComputerReplayPage :=
  let limit := max 1 (min limit maxReplayLimit)
  if 2 ^ 63 ≤ afterSeq then .error "Computer replay cursor exceeds SQLite range"
  else
    let streamId := streamIdOf environmentId
    let rows := (List.insertionSort (fun e e' : ComputerEvent => e.seq ≤ e'.seq) (db.events.rows.filter fun event =>
      decide (event.streamId = streamId) && decide (afterSeq < event.seq))).take (limit + 1)
    let events := rows.take limit
    .ok {
      streamId := streamId
      events := events
      nextAfterSeq := (events.getLast?.map ComputerEvent.seq).getD afterSeq
      hasMore := decide (limit < rows.length) }

end ComputerJournal

end Wiii.Neko.Computer
