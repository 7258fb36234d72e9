import Wiii.Lib.Paging
import Wiii.Neko.Computer.Schema
import Wiii.Neko.Computer.WorkPlane

/-!
# The records of a coworker

The store of what a coworker was granted, delivered and did: three tables behind one mutex.  A statement outside a
transaction is committed at once, and the effect of a call that then fails stays.  SQLite gives each activity a `seq`
that no activity had before; which one it gives is read from the step, since a refused insert may skip a number.
-/

namespace Wiii.Neko.Coworker

open Signal (containsText isIdentifierByte)
open Computer (isWhitespace)

/-! ## Records -/

structure NewAccountGrant where
  grantId : String
  coworkerId : String
  provider : String
  displayIdentity : String
  scopes : List String
  credentialRef : String
  deriving DecidableEq

/-- A row of `coworker_account_grants`. -/
structure AccountGrantRow where
  grantId : String
  coworkerId : String
  provider : String
  displayIdentity : String
  scopes : List String
  credentialRef : String
  createdAt : Computer.Timestamp
  revokedAt : Option Computer.Timestamp
  deriving DecidableEq

structure AccountGrant where
  grantId : String
  coworkerId : String
  provider : String
  displayIdentity : String
  scopes : List String
  active : Bool
  createdAt : Computer.Timestamp
  revokedAt : Option Computer.Timestamp
  deriving DecidableEq

inductive DeliverableKind where
  | file
  | messageDraft
  | report
  | changeSet
  deriving DecidableEq

structure NewDeliverable where
  deliverableId : String
  coworkerId : String
  projectId : Option String
  kind : DeliverableKind
  title : String
  resourceRef : String
  mediaType : Option String
  revision : String
  deriving DecidableEq

/-- A row of `coworker_deliverables`. -/
structure Deliverable where
  deliverableId : String
  coworkerId : String
  projectId : Option String
  kind : DeliverableKind
  title : String
  resourceRef : String
  mediaType : Option String
  revision : String
  createdAt : Computer.Timestamp
  deriving DecidableEq

inductive ActivityOutcome where
  | completed
  | blocked
  | failed
  | unknown
  | handedOff
  deriving DecidableEq

structure NewActivity where
  activityId : String
  coworkerId : String
  kind : String
  subjectRef : String
  outcome : ActivityOutcome
  operationId : Option String
  approvalRef : Option String
  evidenceRefs : List String
  deriving DecidableEq

/-- A row of `coworker_activity`. -/
structure ActivityEntry where
  seq : ℕ
  activityId : String
  coworkerId : String
  kind : String
  subjectRef : String
  outcome : ActivityOutcome
  operationId : Option String
  approvalRef : Option String
  evidenceRefs : List String
  occurredAt : Computer.Timestamp
  deriving DecidableEq

structure ActivityPage where
  items : List ActivityEntry
  nextAfterSeq : Option ℕ
  deriving DecidableEq

/-- The three tables. -/
structure CoworkerRecords where
  grants : Table AccountGrantRow.grantId := ∅
  deliverables : Table Deliverable.deliverableId := ∅
  activity : Table ActivityEntry.activityId := ∅

/-! ## Validation -/

def maxScopes : ℕ := 32
def maxEvidenceRefs : ℕ := 16
def maxPage : ℕ := 200

def validateId (value field : String) : Except String Unit :=
  if value.isEmpty || decide (128 < value.utf8ByteSize) || !(bytes value).all isIdentifierByte then
    .error s!"{field} is invalid"
  else .ok ()

/-- `is_ascii_lowercase`, `is_ascii_digit`, or `-`. -/
def isProviderByte (byte : UInt8) : Bool :=
  (0x61 ≤ byte && byte ≤ 0x7a) || (0x30 ≤ byte && byte ≤ 0x39) || byte = 0x2d

def validateProvider (value : String) : Except String Unit :=
  if value.isEmpty || decide (64 < value.utf8ByteSize) || !(bytes value).all isProviderByte then
    .error "provider is invalid"
  else .ok ()

def validateKind (value : String) : Except String Unit :=
  match validateProvider value with
  | .error _ => .error "activity kind is invalid"
  | .ok () => .ok ()

def validateText (value field : String) (max : ℕ) : Except String Unit :=
  if value.toList.all isWhitespace || decide (max < value.utf8ByteSize) || value.toList.any Signal.isControl then
    .error s!"{field} is invalid"
  else .ok ()

def validateOpaqueRef (value field : String) : Except String Unit :=
  if value.isEmpty || decide (512 < value.utf8ByteSize) || value.toList.any isWhitespace ||
      containsText value "//" || containsText value "\\" || containsText value "?" ||
      containsText value "=" || containsText value "-----BEGIN" then
    .error s!"{field} must be an opaque reference"
  else .ok ()

def credentialSchemes : List String := ["keyring", "oauth", "computer-profile", "managed-connector"]

def validateCredentialRef (value : String) : Except String Unit := do
  validateOpaqueRef value "credentialRef"
  let scheme := String.ofList (value.toList.takeWhile fun c => c ≠ ':')
  if scheme ∈ credentialSchemes then .ok () else .error "credentialRef boundary is unsupported"

def validateEach (field : String) : List String → Except String Unit
  | [] => .ok ()
  | value :: values => do
    validateOpaqueRef value field
    validateEach field values

def validateRefs (values : List String) (field : String) (maxItems : ℕ) : Except String Unit :=
  if values.isEmpty || decide (maxItems < values.length) then .error s!"{field} list is invalid"
  else validateEach field values

def validateMediaType (value : String) : Except String Unit :=
  if decide (128 < value.utf8ByteSize) ||
      !value.toList.all fun c => c.isAlphanum || c = '/' || c = '.' || c = '+' || c = '-' then
    .error "mediaType is invalid"
  else .ok ()

def validateOptional (validate : String → Except String Unit) : Option String → Except String Unit
  | none => .ok ()
  | some value => validate value

def boundedLimit (limit : ℕ) : Except String ℕ :=
  if 1 ≤ limit ∧ limit ≤ maxPage then .ok limit
  else .error s!"limit must be between 1 and {maxPage}"

/-! ## Rows and what is read of them -/

def AccountGrantRow.decode (row : AccountGrantRow) : AccountGrant where
  grantId := row.grantId
  coworkerId := row.coworkerId
  provider := row.provider
  displayIdentity := row.displayIdentity
  scopes := row.scopes
  active := row.revokedAt.isNone
  createdAt := row.createdAt
  revokedAt := row.revokedAt

def NewAccountGrant.row (input : NewAccountGrant) (timestamp : Computer.Timestamp) : AccountGrantRow where
  grantId := input.grantId
  coworkerId := input.coworkerId
  provider := input.provider
  displayIdentity := input.displayIdentity
  scopes := input.scopes
  credentialRef := input.credentialRef
  createdAt := timestamp
  revokedAt := none

def NewDeliverable.row (input : NewDeliverable) (timestamp : Computer.Timestamp) : Deliverable where
  deliverableId := input.deliverableId
  coworkerId := input.coworkerId
  projectId := input.projectId
  kind := input.kind
  title := input.title
  resourceRef := input.resourceRef
  mediaType := input.mediaType
  revision := input.revision
  createdAt := timestamp

def NewActivity.row (input : NewActivity) (seq : ℕ) (timestamp : Computer.Timestamp) : ActivityEntry where
  seq := seq
  activityId := input.activityId
  coworkerId := input.coworkerId
  kind := input.kind
  subjectRef := input.subjectRef
  outcome := input.outcome
  operationId := input.operationId
  approvalRef := input.approvalRef
  evidenceRefs := input.evidenceRefs
  occurredAt := timestamp

def AccountGrantRow.revoke (timestamp : Computer.Timestamp) (row : AccountGrantRow) : AccountGrantRow :=
  { row with revokedAt := some (row.revokedAt.getD timestamp) }

/-! ## Operations -/

def NewAccountGrant.validate (input : NewAccountGrant) : Except String Unit := do
  validateId input.grantId "grantId"
  validateId input.coworkerId "coworkerId"
  validateProvider input.provider
  validateText input.displayIdentity "displayIdentity" 256
  validateCredentialRef input.credentialRef
  validateRefs input.scopes "scope" maxScopes

def NewDeliverable.validate (input : NewDeliverable) : Except String Unit := do
  validateId input.deliverableId "deliverableId"
  validateId input.coworkerId "coworkerId"
  validateOptional (validateId · "projectId") input.projectId
  validateText input.title "title" 256
  validateOpaqueRef input.resourceRef "resourceRef"
  validateOptional validateMediaType input.mediaType
  validateOpaqueRef input.revision "revision"

def NewActivity.validate (input : NewActivity) : Except String Unit := do
  validateId input.activityId "activityId"
  validateId input.coworkerId "coworkerId"
  validateKind input.kind
  validateOpaqueRef input.subjectRef "subjectRef"
  validateOptional (validateId · "operationId") input.operationId
  validateOptional (validateOpaqueRef · "approvalRef") input.approvalRef
  validateRefs input.evidenceRefs "evidenceRef" maxEvidenceRefs

namespace CoworkerRecords

def grantAccount (timestamp : Computer.Timestamp) (input : NewAccountGrant) (db : CoworkerRecords) :
    Except String AccountGrant × CoworkerRecords :=
  match input.validate with
  | .error error => (.error error, db)
  | .ok () =>
    let inserted := (db.grants.find? input.grantId).isNone
    let db := { db with grants := db.grants.insertOrIgnore (input.row timestamp) }
    match db.grants.find? input.grantId with
    | none => (.error "AccountGrant insert was not observable", db)
    | some row =>
      let stored := row.decode
      let credentialMatches := decide (row.credentialRef = input.credentialRef)
      if inserted = false ∧ (credentialMatches = false ∨ stored.coworkerId ≠ input.coworkerId ∨
          stored.provider ≠ input.provider ∨ stored.displayIdentity ≠ input.displayIdentity ∨
          stored.scopes ≠ input.scopes) then
        (.error "account_grant_id_collision", db)
      else (.ok stored, db)

def revokeAccount (timestamp : Computer.Timestamp) (coworkerId grantId : String) (db : CoworkerRecords) :
    Except String AccountGrant × CoworkerRecords :=
  match (do validateId coworkerId "coworkerId"; validateId grantId "grantId" : Except String Unit) with
  | .error error => (.error error, db)
  | .ok () =>
    let db := { db with
      grants := db.grants.updateWhere
        (fun row => decide (row.grantId = grantId) && decide (row.coworkerId = coworkerId))
        (AccountGrantRow.revoke timestamp) (by intro _; rfl) }
    match ((db.grants.find? grantId).map AccountGrantRow.decode).filter
        fun grant => decide (grant.coworkerId = coworkerId) with
    | none => (.error "account_grant_not_found", db)
    | some grant => (.ok grant, db)

def accountIsActive (coworkerId grantId : String) (db : CoworkerRecords) : Except String Bool := do
  validateId coworkerId "coworkerId"
  validateId grantId "grantId"
  return db.grants.rows.any fun row => decide (row.grantId = grantId) &&
    decide (row.coworkerId = coworkerId) && row.revokedAt.isNone

def activeCredentialRef (coworkerId grantId provider requiredScope : String) (db : CoworkerRecords) :
    Except String (Option String) := do
  validateId coworkerId "coworkerId"
  validateId grantId "grantId"
  let grant := (db.grants.find? grantId).map AccountGrantRow.decode
  if !grant.any (fun grant => decide (grant.coworkerId = coworkerId) && grant.revokedAt.isNone &&
      decide (grant.provider = provider) && grant.scopes.any fun scope => scope = requiredScope) then
    return none
  return ((db.grants.find? grantId).filter fun row =>
    decide (row.coworkerId = coworkerId) && row.revokedAt.isNone).map AccountGrantRow.credentialRef

def recordDeliverable (timestamp : Computer.Timestamp) (input : NewDeliverable) (db : CoworkerRecords) :
    Except String Deliverable × CoworkerRecords :=
  match input.validate with
  | .error error => (.error error, db)
  | .ok () =>
    let db := { db with deliverables := db.deliverables.insertOrIgnore (input.row timestamp) }
    match db.deliverables.find? input.deliverableId with
    | none => (.error "Deliverable insert was not observable", db)
    | some stored =>
      if stored.coworkerId ≠ input.coworkerId ∨ stored.projectId ≠ input.projectId ∨
          stored.kind ≠ input.kind ∨ stored.title ≠ input.title ∨
          stored.resourceRef ≠ input.resourceRef ∨ stored.mediaType ≠ input.mediaType ∨
          stored.revision ≠ input.revision then
        (.error "deliverable_id_collision", db)
      else (.ok stored, db)

def appendActivity (seq : ℕ) (timestamp : Computer.Timestamp) (input : NewActivity) (db : CoworkerRecords) :
    Except String ActivityEntry × CoworkerRecords :=
  match input.validate with
  | .error error => (.error error, db)
  | .ok () =>
    let db := { db with activity := db.activity.insertOrIgnore (input.row seq timestamp) }
    match db.activity.find? input.activityId with
    | none => (.error "ActivityLedger append was not observable", db)
    | some stored =>
      if stored.coworkerId ≠ input.coworkerId ∨ stored.kind ≠ input.kind ∨
          stored.subjectRef ≠ input.subjectRef ∨ stored.outcome ≠ input.outcome ∨
          stored.operationId ≠ input.operationId ∨ stored.approvalRef ≠ input.approvalRef ∨
          stored.evidenceRefs ≠ input.evidenceRefs then
        (.error "activity_id_collision", db)
      else (.ok stored, db)

def activityPage (coworkerId : String) (afterSeq limit : ℕ) (db : CoworkerRecords) :
    Except String ActivityPage := do
  validateId coworkerId "coworkerId"
  let limit ← boundedLimit limit
  if 2 ^ 63 ≤ afterSeq then .error "afterSeq exceeds the ActivityLedger range"
  else
    let selected := db.activity.rows.filter fun entry =>
      decide (entry.coworkerId = coworkerId) && decide (afterSeq < entry.seq)
    let items := (selected.mergeSort fun a b => decide (a.seq ≤ b.seq)).take (limit + 1)
    if limit < items.length then
      let items := items.take limit
      return ⟨items, items.getLast?.map ActivityEntry.seq⟩
    else return ⟨items, none⟩

end CoworkerRecords

/-! ## The system -/

inductive Call where
  | grantAccount (input : NewAccountGrant)
  | revokeAccount (coworkerId grantId : String)
  | recordDeliverable (input : NewDeliverable)
  | appendActivity (input : NewActivity)
  deriving DecidableEq

inductive Answer where
  | grant (grant : AccountGrant)
  | deliverable (deliverable : Deliverable)
  | activity (entry : ActivityEntry)
  deriving DecidableEq

def Call.perform (seq : ℕ) (timestamp : Computer.Timestamp) (call : Call) (db : CoworkerRecords) :
    Except String Answer × CoworkerRecords :=
  match call with
  | .grantAccount input => (db.grantAccount timestamp input).map (Except.map .grant) id
  | .revokeAccount coworkerId grantId =>
    (db.revokeAccount timestamp coworkerId grantId).map (Except.map .grant) id
  | .recordDeliverable input => (db.recordDeliverable timestamp input).map (Except.map .deliverable) id
  | .appendActivity input => (db.appendActivity seq timestamp input).map (Except.map .activity) id

/-- A call as it was made, and what it answered. -/
structure Event where
  call : Call
  seq : ℕ
  timestamp : Computer.Timestamp
  result : Except String Answer

/-- One call; the number that SQLite gives an activity is a 64-bit one not in use. -/
structure Step (db : CoworkerRecords) (event : Event) (db' : CoworkerRecords) : Prop where
  fresh : ∀ entry ∈ db.activity, entry.seq < event.seq
  range : event.seq < 2 ^ 63
  performed : event.call.perform event.seq event.timestamp db = (event.result, db')

theorem Step.of_perform {db : CoworkerRecords} {seq : ℕ} {timestamp : Computer.Timestamp} {call : Call}
    (fresh : ∀ entry ∈ db.activity, entry.seq < seq) (range : seq < 2 ^ 63) :
    Step db ⟨call, seq, timestamp, (call.perform seq timestamp db).1⟩ (call.perform seq timestamp db).2 :=
  ⟨fresh, range, rfl⟩

end Wiii.Neko.Coworker
