import Wiii.Connect.ExecuteRoute

/-!
# Previews and approvals of posts

A preview of a post is recorded in the ledger and answered with a signed token, which lasts half an hour.  To apply the
post, the client presents the token; the ledger is asked to consume the record, and the provider is called unless the
ledger says no.
-/

namespace Wiii.Connect

open Service (Payload PyValue)

/-- The parts of a post as both routes have normalised them. -/
structure PostContent where
  connectionRef : String
  pageId : String
  message : String
  /-- The hash of the image, empty where there is none. -/
  imageSha256 : String := ""
  imageUrl : String := ""
  deriving DecidableEq

/-- `_facebook_post_action_slug`. -/
def PostContent.actionSlug (content : PostContent) : String :=
  if content.imageSha256 ≠ "" ∨ content.imageUrl ≠ "" then "FACEBOOK_CREATE_PHOTO_POST" else "FACEBOOK_CREATE_POST"

structure PreviewPayload where
  providerSlug : String
  actionSlug : String
  connectionRef : String
  pageId : String
  messageHash : String
  imageHash : String
  imageUrlHash : String
  deriving DecidableEq

structure ApprovalToken where
  payload : PreviewPayload
  previewEvidenceId : String
  issuedAt : ℤ
  nonce : ℕ
  deriving DecidableEq

/-- A clock reading in microseconds as `int(time.time())`. -/
def seconds (now : ℤ) : ℤ := now / 1000000

def tokenMaxAgeSeconds : ℤ := 30 * 60

def ApprovalToken.Expired (token : ApprovalToken) (now : ℤ) : Prop :=
  token.issuedAt ≤ 0 ∨ tokenMaxAgeSeconds < seconds now - token.issuedAt

instance (token : ApprovalToken) (now : ℤ) : Decidable (token.Expired now) := inferInstanceAs (Decidable (_ ∨ _))

theorem ApprovalToken.Expired.mono {token : ApprovalToken} {now later : ℤ} (h : token.Expired now) (hle : now ≤ later) :
    token.Expired later := by
  unfold ApprovalToken.Expired seconds at *
  omega

inductive TokenReason where
  | valid
  | tokenExpired
  | previewMismatch
  deriving DecidableEq

structure StorageStatus where
  persistent : Bool := true
  connectionTableReady : Bool := true
  auditLedgerReady : Bool := true
  operationApprovalTableReady : Bool := true
  deriving DecidableEq

/-- `_operation_approval_storage_ready`. -/
def StorageStatus.operationApprovalReady (status : StorageStatus) : Bool :=
  status.persistent && status.auditLedgerReady && status.operationApprovalTableReady

/-- How a transaction on the ledger goes: an exception may come before or after the commit. -/
inductive StorageOutcome where
  | done
  | failedBefore
  | failedAfter
  deriving DecidableEq

/-- A `blocked` answer ends the request; an `unavailable` one does not. -/
def ApprovalDecision.isBlocked : ApprovalDecision → Bool
  | .blocked _ => true
  | _ => false

/-- What the routes share for one user: tables of characters, hashes, and the user. -/
structure PostSystem where
  lowerTable : CaseTable
  upperTable : CaseTable
  /-- `str.isalnum` of one character. -/
  isAlnum : Char → Bool
  sha256Text : String → String
  /-- The SHA-256 of a preview payload as JSON. -/
  payloadDigest : PreviewPayload → String
  /-- `build_wiii_connect_operation_fingerprint`. -/
  operationFingerprint : PostContent → String
  organizationId : String
  userId : String

structure PreviewRequest where
  content : PostContent
  status : StorageStatus
  config : ComposioConfig
  connection : Option ConnectionRecord

structure ApplyRequest where
  token : ApprovalToken
  content : PostContent
  previewEvidenceId : Option String := none
  status : StorageStatus
  config : ComposioConfig
  connection : Option ConnectionRecord
  /-- What the provider answers when it is asked for the schema. -/
  schemaResponse : SchemaResponse
  /-- The image could be staged. -/
  uploadReady : Bool := true

/-- `normalize_facebook_page_id`. -/
def normalizePageId (isAlnum : Char → Bool) (value : String) : String :=
  String.ofList (((PyText.strip value).toList.take 120).filter fun c => isAlnum c || c == '_' || c == '-' || c == ':')

/-- `text.startswith("https://")`. -/
def isSecureUrl (text : String) : Bool := "https://".toList.isPrefixOf text.toList

/-- `normalize_facebook_image_url`. -/
def normalizeImageUrl (table : CaseTable) (value : String) : String :=
  let text := PyText.strip value
  if isSecureUrl text = false then ""
  else if ["token", "secret", "password", "key"].any (PyText.contains (PyText.lower table text)) then ""
  else PyText.take 2000 text

/-- `_safe_fingerprint` of the ledger, and `_safe_hash` of the token. -/
def safeDigest (table : CaseTable) (value : String) : String :=
  let text := PyText.lower table (PyText.strip value)
  if text.length = 64 ∧ text.toList.all (fun c => "0123456789abcdef".toList.contains c) then text else ""

/-- `_safe_public_id` of the ledger. -/
def safeLedgerId (table : CaseTable) (value : String) : String :=
  let text := PyText.strip value
  if ["token", "secret", "password"].any (PyText.contains (PyText.lower table text)) then "" else PyText.take 180 text

namespace PostSystem

variable (P : PostSystem)

/-! ## Tokens -/

/-- `_safe_fingerprint`. -/
def safeFingerprint (value : String) : String := safeDigest P.lowerTable value

/-- `_safe_connection_ref` of the token. -/
def tokenConnectionRef (ref : String) : String :=
  let text := PyText.strip ref
  if isConnectionRef text then PyText.take 180 text else ""

def previewPayload (content : PostContent) : PreviewPayload :=
  { providerSlug := "facebook"
    actionSlug := content.actionSlug
    connectionRef := tokenConnectionRef content.connectionRef
    pageId := normalizePageId P.isAlnum content.pageId
    messageHash := P.sha256Text content.message
    imageHash := safeDigest P.lowerTable content.imageSha256
    imageUrlHash := P.sha256Text (normalizeImageUrl P.lowerTable content.imageUrl) }

/-- `build_facebook_post_preview_evidence_id`. -/
def previewEvidenceId (content : PostContent) : String :=
  "wcp_" ++ PyText.take 32 (P.payloadDigest (P.previewPayload content))

/-- `build_facebook_post_approval_token`. -/
def buildApprovalToken (content : PostContent) (nonce : ℕ) (now : ℤ) : ApprovalToken :=
  { payload := P.previewPayload content
    previewEvidenceId := P.previewEvidenceId content
    issuedAt := seconds now
    nonce := nonce }

/-- `verify_facebook_post_approval_token`, for a token with a good signature. -/
def verifyApprovalToken (token : ApprovalToken) (content : PostContent) (bodyEvidenceId : Option String) (now : ℤ) :
    TokenReason :=
  let evidenceId := (safePublicId P.lowerTable bodyEvidenceId).getD ""
  if token.Expired now then .tokenExpired
  else if token.payload ≠ P.previewPayload content ∨ token.previewEvidenceId ≠ P.previewEvidenceId content then
    .previewMismatch
  else if evidenceId ≠ "" ∧ evidenceId ≠ P.previewEvidenceId content then .previewMismatch
  else .valid

/-! ## The ledger -/

def ledgerPublicId (value : String) : String := safeLedgerId P.lowerTable value

/-- `build_wiii_connect_operation_approval_record`. -/
def operationApprovalRecord (content : PostContent) (now : ℤ) : ApprovalRecord :=
  { previewEvidenceId := P.ledgerPublicId (P.previewEvidenceId content)
    providerSlug := "facebook"
    actionSlug := content.actionSlug
    requestFingerprint := P.safeFingerprint (P.operationFingerprint content)
    issuedAt := now
    expiresAt := now + tokenMaxAgeSeconds * 1000000 }

/-- `_record_facebook_post_operation_approval`: whether the preview was saved. -/
def recordOperationApproval (db : Database) (status : StorageStatus) (content : PostContent) (now : ℤ)
    (outcome : StorageOutcome) : Bool × Database :=
  if status.operationApprovalReady = false then (false, db)
  else
    let written := db.appendOperationApprovalRecord (P.operationApprovalRecord content now) P.organizationId P.userId now
    match outcome with
    | .done => written
    | .failedBefore => (false, db)
    | .failedAfter => (false, written.2)

/-- `_consume_facebook_post_operation_approval`. -/
def consumeOperationApproval (db : Database) (status : StorageStatus) (content : PostContent) (now : ℤ)
    (outcome : StorageOutcome) : ApprovalDecision × Database :=
  if status.operationApprovalReady = false then (.unavailable, db)
  else
    let answered := db.consumeOperationApprovalRecord P.lowerTable (P.previewEvidenceId content)
      (P.operationFingerprint content) P.organizationId P.userId "facebook" now
    match outcome with
    | .done => answered
    | .failedBefore => (.unavailable, db)
    | .failedAfter => (.unavailable, answered.2)

/-! ## The other checks -/

def effectiveEntry (config : ComposioConfig) : ProviderEntry :=
  config.executionEnabledEntry P.lowerTable P.upperTable { slug := "facebook" }

def gateway (config : ComposioConfig) (connection : Option ConnectionRecord) (status : StorageStatus)
    (content : PostContent) (request : ExecutionRequest) : ExecutionDecision :=
  decideExecutionGateway P.lowerTable P.upperTable (P.effectiveEntry config) connection request config.capability
    (status.persistent && status.auditLedgerReady) (decide (content.connectionRef = ""))

def previewAllowed (request : PreviewRequest) : Bool :=
  (P.gateway request.config request.connection request.status request.content
    { providerSlug := "facebook"
      actionSlug := request.content.actionSlug
      path := "external_app_action"
      mutation := .preview }).allowed

def applyArguments (content : PostContent) : Payload :=
  [("page_id", .str content.pageId), ("message", .str content.message), ("published", .bool true)] ++
    if content.imageSha256 ≠ "" then [("photo", .dict [])]
    else if content.imageUrl ≠ "" then [("url", .str content.imageUrl)] else []

/-- What follows on the ledger: the gateway, the live schema, the upload of the image, and the required arguments. -/
def applyPasses (request : ApplyRequest) : Bool :=
  (P.gateway request.config request.connection request.status request.content
    { providerSlug := "facebook"
      actionSlug := request.content.actionSlug
      path := "external_app_action"
      mutation := .apply
      approvalTokenPresent := true
      previewEvidenceId := some (P.previewEvidenceId request.content)
      previewEvidenceRequired := true }).allowed &&
    request.connection.isSome &&
    (match verifyToolSchema P.lowerTable P.upperTable request.config "facebook" request.content.actionSlug
        request.schemaResponse with
      | .error _ => false
      | .ok requiredKeys =>
        (request.content.imageSha256 = "" || request.uploadReady) &&
          missingRequiredArgumentKeys P.lowerTable requiredKeys (applyArguments request.content) = [])

end PostSystem

end Wiii.Connect
