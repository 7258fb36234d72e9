import Wiii.Lib.Except
import Wiii.Lib.Json
import Wiii.Lib.Table
import Wiii.Neko.Signal.Platform

/-!
# The tables of the computer journal

Primary keys that no statement changes are the keys of tables; the other unique columns are checked by the statements
that write them, and a grant, whose path may change, is written under both of its unique indexes.  The rows that
reference an environment are deleted with it.

Timestamps are instants in milliseconds, and `drawn` says how many random values were drawn.
-/

namespace Wiii.Neko.Computer

open Signal (isIdentifierByte)

abbrev Timestamp := Int

inductive ComputerState where
  | preparing
  | ready
  | suspended
  | error
  | unknownOutcome
  deriving DecidableEq

def ComputerState.asStr : ComputerState → String
  | preparing => "preparing"
  | ready => "ready"
  | suspended => "suspended"
  | error => "error"
  | unknownOutcome => "unknown_outcome"

inductive SeatState where
  | available
  | agentControlled
  | userControlled
  deriving DecidableEq

structure ComputerResources where
  cpus : String
  memoryBytes : ℕ
  pidsLimit : ℕ
  sharedMemoryBytes : ℕ
  temporaryStorageBytes : ℕ
  deriving DecidableEq

/-- A row of `computer_environments`. -/
structure EnvironmentRow where
  environmentId : String
  projectName : String
  projectPath : String
  state : ComputerState
  resources : ComputerResources
  createdAt : Timestamp
  updatedAt : Timestamp
  deriving DecidableEq

/-- A row of `computer_seats`.  The id of a seat is made of that of its environment. -/
structure SeatRow where
  environmentId : String
  state : SeatState
  leaseId : Option String
  ownerId : Option String
  updatedAt : Timestamp
  deriving DecidableEq

/-- A row of `computer_coworker_bindings`. -/
structure CoworkerBinding where
  coworkerId : String
  environmentId : String
  activeProjectId : Option String
  activeProjectName : Option String
  activeProjectPath : Option String
  createdAt : Timestamp
  updatedAt : Timestamp
  deriving DecidableEq

/-- A row of `computer_project_grants`. -/
structure ComputerProjectGrant where
  coworkerId : String
  projectId : Option String
  projectName : String
  projectPath : String
  accessMode : String
  createdAt : Timestamp
  updatedAt : Timestamp
  deriving DecidableEq

inductive RequestPhase where
  | accepted
  | sideEffectStarted
  | completed
  | failed
  | unknownOutcome
  deriving DecidableEq

/-- A row of `computer_requests`. -/
structure StoredRequest where
  requestId : String
  method : String
  targetId : String
  phase : RequestPhase
  result : Option Value
  errorCode : Option String
  createdAt : Timestamp
  updatedAt : Timestamp
  deriving DecidableEq

/-- A row of `computer_events`. -/
structure ComputerEvent where
  eventId : String
  streamId : String
  seq : ℕ
  atTime : Timestamp
  eventType : String
  environmentId : String
  payload : Value
  deriving DecidableEq

/-- The unique index of `computer_events`. -/
def ComputerEvent.position (event : ComputerEvent) : String × ℕ := (event.streamId, event.seq)

namespace ComputerProjectGrant

/-- The primary key. -/
def location (grant : ComputerProjectGrant) : String × String := (grant.coworkerId, grant.projectPath)

/-- The key of the unique index, in which no two nulls are equal. -/
def identity (grant : ComputerProjectGrant) : Option (String × String) :=
  grant.projectId.map fun projectId => (grant.coworkerId, projectId)

end ComputerProjectGrant

/-- The rows of `computer_project_grants`. -/
structure Grants where
  rows : List ComputerProjectGrant
  locations : (rows.map ComputerProjectGrant.location).Nodup
  identities : (rows.filterMap ComputerProjectGrant.identity).Nodup

def uniqueConstraintFailed : String := "UNIQUE constraint failed"

def foreignKeyConstraintFailed : String := "FOREIGN KEY constraint failed"

namespace Grants

instance : EmptyCollection Grants := ⟨⟨[], List.nodup_nil, List.nodup_nil⟩⟩

/-- The rows are written if they meet the unique indexes. -/
def write (rows : List ComputerProjectGrant) : Except String Grants :=
  if h : (rows.map ComputerProjectGrant.location).Nodup ∧
      (rows.filterMap ComputerProjectGrant.identity).Nodup then .ok ⟨rows, h.1, h.2⟩
  else .error uniqueConstraintFailed

variable (grants : Grants)

/-- `UPDATE … SET f WHERE p`. -/
def updateWhere (p : ComputerProjectGrant → Bool) (f : ComputerProjectGrant → ComputerProjectGrant) :
    Except String Grants :=
  write (grants.rows.map fun grant => if p grant then f grant else grant)

def insert (row : ComputerProjectGrant) : Except String Grants := write (grants.rows ++ [row])

/-- `DELETE … WHERE p`. -/
def deleteWhere (p : ComputerProjectGrant → Bool) : Grants where
  rows := grants.rows.filter fun grant => !p grant
  locations := (List.filter_sublist.map _).nodup grants.locations
  identities := (List.filter_sublist.filterMap _).nodup grants.identities

theorem write_ok_iff {rows : List ComputerProjectGrant} {grants : Grants} :
    write rows = .ok grants ↔ grants.rows = rows := by
  unfold write
  constructor
  · intro h
    split_ifs at h with hunique
    cases h
    rfl
  · rintro rfl
    rw [dif_pos ⟨grants.locations, grants.identities⟩]

end Grants

structure ComputerJournal where
  environments : Table EnvironmentRow.environmentId
  seats : Table SeatRow.environmentId
  bindings : Table CoworkerBinding.coworkerId
  grants : Grants
  requests : Table StoredRequest.requestId
  events : Table ComputerEvent.position
  drawn : ℕ

namespace ComputerJournal

instance : EmptyCollection ComputerJournal := ⟨⟨∅, ∅, ∅, ∅, ∅, ∅, 0⟩⟩

variable (db : ComputerJournal)

/-- `COALESCE(MAX(seq), 0)` over a stream. -/
def latestSeq (streamId : String) : ℕ :=
  ((db.events.rows.filter fun event => decide (event.streamId = streamId)).map ComputerEvent.seq).max?.getD 0

/-! ## Statements -/

/-- `INSERT … ON CONFLICT(environment_id) DO UPDATE`. -/
def upsertEnvironmentRow (row : EnvironmentRow) : Except String ComputerJournal :=
  if db.environments.rows.any fun other =>
      decide (other.projectPath = row.projectPath) && decide (other.environmentId ≠ row.environmentId) then
    .error uniqueConstraintFailed
  else
    let createdAt := ((db.environments.find? row.environmentId).map EnvironmentRow.createdAt).getD row.createdAt
    .ok { db with environments := db.environments.upsert { row with createdAt := createdAt } }

def updateEnvironment (environmentId : String) (f : EnvironmentRow → EnvironmentRow)
    (hf : ∀ r, (f r).environmentId = r.environmentId := by intro _; rfl) : ComputerJournal :=
  { db with environments := db.environments.update environmentId f hf }

/-- `INSERT … ON CONFLICT(environment_id) DO NOTHING`. -/
def insertSeat (row : SeatRow) : ComputerJournal :=
  { db with seats := (db.seats.insert? row).getD db.seats }

def updateSeatWhere (p : SeatRow → Bool) (f : SeatRow → SeatRow)
    (hf : ∀ r, (f r).environmentId = r.environmentId := by intro _; rfl) : ComputerJournal :=
  { db with seats := db.seats.updateWhere p f hf }

def insertBinding (row : CoworkerBinding) : Except String ComputerJournal :=
  if db.bindings.rows.any fun other => decide (other.environmentId = row.environmentId) then
    .error uniqueConstraintFailed
  else
    match db.bindings.insert? row with
    | none => .error uniqueConstraintFailed
    | some bindings => .ok { db with bindings := bindings }

def updateBindingWhere (p : CoworkerBinding → Bool) (f : CoworkerBinding → CoworkerBinding)
    (hf : ∀ r, (f r).coworkerId = r.coworkerId := by intro _; rfl) : ComputerJournal :=
  { db with bindings := db.bindings.updateWhere p f hf }

def insertRequest (row : StoredRequest) : Except String ComputerJournal :=
  match db.requests.insert? row with
  | none => .error uniqueConstraintFailed
  | some requests => .ok { db with requests := requests }

def updateRequestWhere (p : StoredRequest → Bool) (f : StoredRequest → StoredRequest)
    (hf : ∀ r, (f r).requestId = r.requestId := by intro _; rfl) : ComputerJournal :=
  { db with requests := db.requests.updateWhere p f hf }

def insertEvent (event : ComputerEvent) : Except String ComputerJournal :=
  match db.events.insert? event with
  | none => .error uniqueConstraintFailed
  | some events =>
    if (db.environments.find? event.environmentId).isNone then .error foreignKeyConstraintFailed
    else .ok { db with events := events }

def deleteEnvironmentRow (environmentId : String) : ComputerJournal :=
  { db with
    environments := db.environments.delete environmentId
    seats := db.seats.delete environmentId
    bindings := db.bindings.deleteWhere fun binding => decide (binding.environmentId = environmentId)
    events := db.events.deleteWhere fun event => decide (event.environmentId = environmentId) }

end ComputerJournal

/-- The error of a statement, with what failed. -/
def failing {α : Type} (what : String) : Except String α → Except String α
  | .error error => .error s!"{what} failed: {error}"
  | .ok a => .ok a

theorem failing_ok_iff {α : Type} {what : String} {x : Except String α} {a : α} :
    failing what x = .ok a ↔ x = .ok a := by
  cases x <;> simp [failing]

def validateIdentifier (value label : String) : Except String Unit :=
  if value.isEmpty || decide (160 < value.utf8ByteSize) || !(bytes value).all isIdentifierByte then
    .error s!"Invalid {label}"
  else .ok ()

end Wiii.Neko.Computer
