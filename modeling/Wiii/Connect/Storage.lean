import Wiii.Connect.Records
import Wiii.Lib.Table

/-!
# The tables of connections and approvals

A connection row has its own id as its key, an approval row its owner, provider and preview.  Every operation is one
transaction for one owner, an organisation and a user.
-/

namespace Wiii.Connect

structure Owner where
  organizationId : String
  userId : String
  deriving DecidableEq

/-- `_normalize_owner`. -/
def normalizeOwner (organizationId userId : String) : Option Owner :=
  let owner : Owner := ⟨PyText.strip organizationId, PyText.strip userId⟩
  if owner.organizationId = "" ∨ owner.userId = "" then none else some owner

structure ConnectionRow where
  id : String
  owner : Owner
  providerSlug : String
  providerKind : String
  state : ConnectionState
  scopes : ScopeGrant
  /-- The secret version, where there is a reference to the vault. -/
  vaultRef : Option String
  accountLabel : String
  externalAccountRef : String
  reason : String
  warnings : List String
  updatedAt : ℤ
  lastCheckedAt : Option ℤ
  lastUsedAt : Option ℤ
  deriving DecidableEq

inductive ApprovalStatus where
  | pending
  | consumed
  | expired
  deriving DecidableEq

inductive ApprovalReason where
  | previewRecorded
  | approvalConsumed
  | approvalLedgerNotPersistent
  | approvalRecordMissing
  | approvalRecordExpired
  | approvalRecordAlreadyConsumed
  | approvalFingerprintMismatch
  deriving DecidableEq

structure ApprovalRecord where
  previewEvidenceId : String
  providerSlug : String
  actionSlug : String
  requestFingerprint : String
  status : ApprovalStatus := .pending
  reason : ApprovalReason := .previewRecorded
  issuedAt : ℤ
  expiresAt : ℤ
  consumedAt : Option ℤ := none
  deriving DecidableEq

structure ApprovalRow where
  owner : Owner
  record : ApprovalRecord
  updatedAt : ℤ
  deriving DecidableEq

/-- The columns of `uq_wiii_connect_operation_approval_preview`. -/
def ApprovalRow.key (row : ApprovalRow) : Owner × String × String :=
  (row.owner, row.record.providerSlug, row.record.previewEvidenceId)

def ApprovalRow.set (status : ApprovalStatus) (reason : ApprovalReason) (consumedAt : Option ℤ) (now : ℤ)
    (row : ApprovalRow) : ApprovalRow :=
  { row with
    record := { row.record with status := status, reason := reason, consumedAt := consumedAt }
    updatedAt := now }

theorem ApprovalRow.key_set (status : ApprovalStatus) (reason : ApprovalReason) (consumedAt : Option ℤ) (now : ℤ)
    (row : ApprovalRow) : (row.set status reason consumedAt now).key = row.key := rfl

def ConnectionRow.expire (now : ℤ) (row : ConnectionRow) : ConnectionRow :=
  { row with
    state := .expired
    reason := "stale_oauth_connection_expired"
    warnings := row.warnings ++ ["expired_by_wiii_connect_cleanup"]
    updatedAt := now }

theorem ConnectionRow.id_expire (now : ℤ) (row : ConnectionRow) : (row.expire now).id = row.id := rfl

structure Database where
  connections : Table ConnectionRow.id := ∅
  approvals : Table ApprovalRow.key := ∅

inductive ApprovalDecision where
  | consumed
  | blocked (reason : ApprovalReason)
  | unavailable
  deriving DecidableEq

namespace Database

variable (table : CaseTable) (db : Database)

/-! ## Approvals -/

def appendOperationApprovalRecord (record : ApprovalRecord) (organizationId userId : String) (now : ℤ) :
    Bool × Database :=
  match normalizeOwner organizationId userId with
  | some owner =>
    if record.previewEvidenceId = "" then (false, db)
    else
      let row : ApprovalRow := ⟨owner, record, now⟩
      let row := if (db.approvals.find? row.key).isSome then
        { row with record := { record with status := .pending, consumedAt := none } } else row
      (true, { db with approvals := db.approvals.upsert row })
  | none => (false, db)

def setApproval (key : Owner × String × String) (status : ApprovalStatus) (reason : ApprovalReason)
    (consumedAt : Option ℤ) (now : ℤ) : Database :=
  { db with approvals := db.approvals.update key (ApprovalRow.set status reason consumedAt now) }

def consumeOperationApprovalRecord (previewEvidenceId requestFingerprint organizationId userId providerSlug : String)
    (now : ℤ) : ApprovalDecision × Database :=
  match normalizeOwner organizationId userId with
  | none => (.unavailable, db)
  | some owner =>
    let preview := PyText.strip previewEvidenceId
    let fingerprint := PyText.lower table (PyText.strip requestFingerprint)
    if preview = "" ∨ fingerprint = "" then (.blocked .approvalRecordMissing, db)
    else
      let key := (owner, normalizeProviderSlug table providerSlug, preview)
      match db.approvals.find? key with
      | none => (.blocked .approvalRecordMissing, db)
      | some row =>
        if row.record.status ≠ .pending then
          (.blocked (if row.record.status = .expired then .approvalRecordExpired
            else .approvalRecordAlreadyConsumed), db)
        else if row.record.expiresAt < now then
          (.blocked .approvalRecordExpired,
            db.setApproval key .expired .approvalRecordExpired row.record.consumedAt now)
        else if PyText.lower table (PyText.strip row.record.requestFingerprint) ≠ fingerprint then
          (.blocked .approvalFingerprintMismatch, db)
        else (.consumed, db.setApproval key .consumed .approvalConsumed (some now) now)

/-! ## Connections -/

/-- A row with the id of the connection is overwritten, its owner included. -/
def upsertConnectionRecord (connection : ConnectionRecord) (organizationId userId providerKind : String) (now : ℤ) :
    Bool × Database :=
  match normalizeOwner organizationId userId with
  | some owner =>
    if connection.connectionId = "" ∨ connection.providerSlug = "" then (false, db)
    else
      let row : ConnectionRow :=
        { id := connection.connectionId
          owner := owner
          providerSlug := connection.providerSlug
          providerKind := if PyText.strip providerKind = "" then "unknown" else PyText.strip providerKind
          state := connection.state
          scopes := connection.scopes
          vaultRef := connection.vaultRef.map VaultSecretRef.secretVersion
          accountLabel := connection.accountLabel
          externalAccountRef := connection.externalAccountRef
          reason := connection.reason
          warnings := connection.warnings
          updatedAt := now
          lastCheckedAt := connection.lastCheckedAt
          lastUsedAt := if connection.active then some now else none }
      (true, { db with connections := db.connections.upsert row })
  | none => (false, db)

/-- What `normalize_connection_state` makes of a stored state; `waiting` is no word it knows. -/
def readState : ConnectionState → ConnectionState
  | .waiting => .disconnected
  | state => state

/-- `_connection_record_from_row`. -/
def connectionRecordFromRow (row : ConnectionRow) : Option ConnectionRecord :=
  let connectionId := PyText.strip row.id
  if connectionId = "" then none
  else
    let providerSlug := PyText.replace '-' '_' (PyText.lower table (PyText.strip row.providerSlug))
    some
      { connectionId := connectionId
        providerSlug := providerSlug
        state := readState row.state
        scopes := row.scopes
        vaultRef := row.vaultRef.map fun version => ⟨providerSlug, connectionId, "stored_opaque_ref", version⟩
        accountLabel := row.accountLabel
        externalAccountRef := row.externalAccountRef
        lastCheckedAt := row.lastCheckedAt
        reason := row.reason
        warnings := row.warnings }

def ownedRows (owner : Owner) (slug : String) : List ConnectionRow :=
  (db.connections.rows.filter fun row => decide (row.owner = owner) && decide (row.providerSlug = slug)).mergeSort
    fun a b => decide (b.updatedAt ≤ a.updatedAt)

/-- The row that `get_connection_record` selects. -/
def selectConnection (organizationId userId providerSlug connectionId : String) : Option ConnectionRow :=
  let slug := normalizeProviderSlug table providerSlug
  let connectionId := PyText.strip connectionId
  match normalizeOwner organizationId userId with
  | some owner =>
    if slug = "" then none
    else (db.ownedRows owner slug).find? fun row => decide (connectionId = "") || decide (row.id = connectionId)
  | none => none

/-- `max(1, min(int(limit or 100), 500))`. -/
def safeLimit (limit : ℤ) : ℕ := (max 1 (min (if limit = 0 then 100 else limit) 500)).toNat

/-- The rows that `list_connection_records` selects. -/
def selectConnections (organizationId userId providerSlug : String) (limit : ℤ) : List ConnectionRow :=
  let slug := normalizeProviderSlug table providerSlug
  match normalizeOwner organizationId userId with
  | some owner => if slug = "" then [] else (db.ownedRows owner slug).take (safeLimit limit)
  | none => []

def listConnectionRecords (organizationId userId providerSlug : String) (limit : ℤ) : List ConnectionRecord :=
  (db.selectConnections table organizationId userId providerSlug limit).filterMap (connectionRecordFromRow table)

/-- A connection that waits for its authorization, or failed to get it. -/
def unsettled : ConnectionState → Bool
  | .authorizing | .waiting | .error => true
  | _ => false

def stale (owner : Owner) (slug : String) (expiresBefore : ℤ) (row : ConnectionRow) : Bool :=
  decide (row.owner = owner) && decide (row.providerSlug = slug) && unsettled row.state &&
    decide (row.updatedAt < expiresBefore)

def expireStalePendingConnections (organizationId userId providerSlug : String) (ttlSeconds : ℤ) (now : ℤ) :
    ℕ × Database :=
  let slug := normalizeProviderSlug table providerSlug
  match normalizeOwner organizationId userId with
  | some owner =>
    if slug = "" then (0, db)
    else
      let expiresBefore := now - max 60 ttlSeconds
      (db.connections.rows.countP (stale owner slug expiresBefore),
        { db with connections := db.connections.updateWhere (stale owner slug expiresBefore) (ConnectionRow.expire now) })
  | none => (0, db)

end Database

end Wiii.Connect
