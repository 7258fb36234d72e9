import Wiii.Connect.Actions

/-!
# The execution gateway

Whether one action of a provider may run: what the entry, the connection, the scopes and the adapter say to a request.
Every check reads the class of the action from the request.
-/

namespace Wiii.Connect

structure ExecutionRequest where
  providerSlug : String
  actionSlug : String
  path : String
  mutation : ActionMutation := .read
  approvalTokenPresent : Bool := false
  previewEvidenceId : Option String := none
  previewEvidenceRequired : Bool := false

inductive ExecutionReason where
  | allowed
  | providerDisabled
  | providerNotAgentReady
  | providerAdapterMismatch
  | providerAdapterNotBound
  | providerAdapterNotConfigured
  | providerAdapterCannotExecute
  | auditLedgerNotPersistent
  | connectionSelectionRequired
  | connectionMissing
  | connectionProviderMismatch
  | connectionNotConnected
  | pathNotAllowed
  | actionNotAllowed
  | missingScope
  | scopePolicyDenied
  | missingPreviewEvidence
  | missingApprovalToken
  deriving DecidableEq

structure ExecutionDecision where
  reason : ExecutionReason
  requiredScopes : List ScopeName := []
  deriving DecidableEq

def ExecutionDecision.allowed (decision : ExecutionDecision) : Bool := decide (decision.reason = .allowed)

/-- `decide_external_execution`. -/
def decideExternalExecution (table : CaseTable) (entry : ProviderEntry) (connection : Option ConnectionRecord)
    (request : ExecutionRequest) : ExecutionDecision :=
  if entry.enabled = false then ⟨.providerDisabled, []⟩
  else if entry.agentReady = false then ⟨.providerNotAgentReady, []⟩
  else
    match connection with
    | none => ⟨.connectionMissing, []⟩
    | some connection =>
      if connection.providerSlug ≠ entry.slug ∨ request.providerSlug ≠ entry.slug then ⟨.connectionProviderMismatch, []⟩
      else if connection.active = false then ⟨.connectionNotConnected, []⟩
      else if request.path ∉ entry.allowedPaths then ⟨.pathNotAllowed, []⟩
      else if entry.allowsAction table request.actionSlug = false then ⟨.actionNotAllowed, []⟩
      else
        let scope := requiredScopeForMutation request.mutation
        if connection.scopes.allows scope = false then ⟨.missingScope, [scope]⟩
        else if request.previewEvidenceRequired = true ∧ request.previewEvidenceId.getD "" = "" then
          ⟨.missingPreviewEvidence, []⟩
        else if request.mutation = .apply ∧ request.approvalTokenPresent = false then ⟨.missingApprovalToken, [.apply]⟩
        else ⟨.allowed, [scope]⟩

/-- `_safe_slug` of the scope policy. -/
def safeSlug (table : CaseTable) (slug : String) : String :=
  let slug := PyText.take 120 (normalizeProviderSlug table slug)
  if slug = "" then "unknown" else slug

/-- `decide_scope_policy` with the scopes of the entry. -/
def scopePolicyAllows (table : CaseTable) (entry : ProviderEntry) (request : ExecutionRequest) : Bool :=
  safeSlug table entry.slug = safeSlug table request.providerSlug &&
    entry.defaultScopes.allows (requiredScopeForMutation request.mutation)

/-- `decide_execution_gateway`. -/
def decideExecutionGateway (lowerTable upperTable : CaseTable) (entry : ProviderEntry)
    (connection : Option ConnectionRecord) (request : ExecutionRequest) (adapter : AdapterCapability)
    (auditPersistent connectionSelectionRequired : Bool) : ExecutionDecision :=
  let base := if connectionSelectionRequired then ⟨.connectionSelectionRequired, []⟩
    else decideExternalExecution upperTable entry connection request
  if base.allowed = false then base
  else if scopePolicyAllows lowerTable entry request = false then
    ⟨.scopePolicyDenied, [requiredScopeForMutation request.mutation]⟩
  else if adapter.providerKind ≠ entry.providerKind then ⟨.providerAdapterMismatch, []⟩
  else if adapter.bound = false then ⟨.providerAdapterNotBound, []⟩
  else if adapter.configured = false then ⟨.providerAdapterNotConfigured, []⟩
  else if adapter.canExecuteActions = false then ⟨.providerAdapterCannotExecute, []⟩
  else if auditPersistent = false then ⟨.auditLedgerNotPersistent, []⟩
  else base

/-! ## Authorization -/

inductive AuthorizationStatus where
  | notRequired
  | verified
  | required
  deriving DecidableEq

structure ActionAuthorization where
  status : AuthorizationStatus
  mutation : ActionMutation
  trustedPreviewEvidenceId : Option String := none
  trustedApprovalTokenPresent : Bool := false
  callerPreviewEvidencePresent : Bool := false
  callerApprovalTokenPresent : Bool := false
  callerAuthorizationIgnored : Bool := false

def ActionMutation.mutating : ActionMutation → Bool
  | .write | .apply | .admin => true
  | .read | .preview => false

/-- `_safe_provider_connection_id`: nothing of a text that speaks of a secret. -/
def safeId (table : CaseTable) (value : Option String) : String :=
  let text := PyText.strip (value.getD "")
  if ["token", "secret", "password"].any (PyText.contains (PyText.lower table text)) then "" else PyText.take 160 text

def safePublicId (table : CaseTable) (value : Option String) : Option String :=
  let id := safeId table value
  if id = "" then none else some id

/-- `resolve_wiii_connect_action_authorization`: only `authorizationVerified` is the word of the backend. -/
def resolveActionAuthorization (table : CaseTable) (mutation : ActionMutation) (previewEvidenceId : Option String)
    (approvalTokenPresent authorizationVerified : Bool) : ActionAuthorization :=
  let previewPresent := (safePublicId table previewEvidenceId).isSome
  if mutation.mutating = false then
    { status := .notRequired
      mutation := mutation
      callerPreviewEvidencePresent := previewPresent
      callerApprovalTokenPresent := approvalTokenPresent }
  else if authorizationVerified then
    { status := .verified
      mutation := mutation
      trustedPreviewEvidenceId := safePublicId table previewEvidenceId
      trustedApprovalTokenPresent := approvalTokenPresent
      callerPreviewEvidencePresent := previewPresent
      callerApprovalTokenPresent := approvalTokenPresent }
  else
    { status := .required
      mutation := mutation
      callerPreviewEvidencePresent := previewPresent
      callerApprovalTokenPresent := approvalTokenPresent
      callerAuthorizationIgnored := previewPresent || approvalTokenPresent }

/-! ## What the gateway lets through -/

/-- What `decide_external_execution` asks of a request. -/
structure Executable (table : CaseTable) (entry : ProviderEntry) (connection : ConnectionRecord)
    (request : ExecutionRequest) : Prop where
  enabled : entry.enabled = true
  agentReady : entry.agentReady = true
  provider : connection.providerSlug = entry.slug ∧ request.providerSlug = entry.slug
  active : connection.active = true
  path : request.path ∈ entry.allowedPaths
  action : entry.allowsAction table request.actionSlug = true
  scope : connection.scopes.allows (requiredScopeForMutation request.mutation) = true
  preview : request.previewEvidenceRequired = true → request.previewEvidenceId.getD "" ≠ ""
  approval : request.mutation = .apply → request.approvalTokenPresent = true

theorem decideExternalExecution_allowed_iff {table : CaseTable} {entry : ProviderEntry}
    {connection : Option ConnectionRecord} {request : ExecutionRequest} :
    (decideExternalExecution table entry connection request).allowed = true ↔
      ∃ found, connection = some found ∧ Executable table entry found request := by
  unfold decideExternalExecution
  cases connection with
  | none =>
    constructor
    · intro h
      split at h
      · cases h
      · split at h <;> cases h
    · rintro ⟨found, hfound, -⟩
      cases hfound
  | some found =>
    constructor
    · intro h
      refine ⟨found, rfl, ?_⟩
      dsimp only at h
      split_ifs at h with henabled hready hprovider hactive hpath haction hscope hpreview happroval
      all_goals try cases h
      rw [not_or, not_not, not_not] at hprovider
      exact ⟨by simpa using henabled, by simpa using hready, hprovider, by simpa using hactive, hpath,
        by simpa using haction, by simpa using hscope, fun hrequired hnone => hpreview ⟨hrequired, hnone⟩,
        fun happly => by simpa [happly] using happroval⟩
    · rintro ⟨other, hother, h⟩
      cases hother
      dsimp only
      rw [if_neg (by simp [h.enabled]), if_neg (by simp [h.agentReady]), if_neg (by simp [h.provider.1, h.provider.2]),
        if_neg (by simp [h.active]), if_neg (not_not.2 h.path), if_neg (by simp [h.action]), if_neg (by simp [h.scope]),
        if_neg fun hmissing => h.preview hmissing.1 hmissing.2,
        if_neg fun hmissing => by simp [h.approval hmissing.1] at hmissing]
      rfl

structure AdapterCapability.Ready (adapter : AdapterCapability) (entry : ProviderEntry) : Prop where
  kind : adapter.providerKind = entry.providerKind
  bound : adapter.bound = true
  configured : adapter.configured = true
  executes : adapter.canExecuteActions = true

theorem decideExecutionGateway_allowed_iff {lowerTable upperTable : CaseTable} {entry : ProviderEntry}
    {connection : Option ConnectionRecord} {request : ExecutionRequest} {adapter : AdapterCapability}
    {auditPersistent selectionRequired : Bool} :
    (decideExecutionGateway lowerTable upperTable entry connection request adapter auditPersistent
        selectionRequired).allowed = true ↔
      selectionRequired = false ∧ (∃ found, connection = some found ∧ Executable upperTable entry found request) ∧
        scopePolicyAllows lowerTable entry request = true ∧ adapter.Ready entry ∧ auditPersistent = true := by
  rw [← decideExternalExecution_allowed_iff]
  unfold decideExecutionGateway
  cases selectionRequired with
  | true => simp [ExecutionDecision.allowed]
  | false =>
    simp only [Bool.false_eq_true, if_false]
    constructor
    · intro h
      split_ifs at h with hbase hpolicy hkind hbound hconfigured hexecutes haudit
      all_goals try cases h
      · exact absurd h (by simp [hbase])
      · exact ⟨trivial, h, by simpa using hpolicy,
          ⟨not_not.1 hkind, by simpa using hbound, by simpa using hconfigured, by simpa using hexecutes⟩,
          by simpa using haudit⟩
    · rintro ⟨-, hbase, hpolicy, hadapter, haudit⟩
      rw [if_neg (by simpa using hbase), if_neg (by simp [hpolicy]), if_neg (not_not.2 hadapter.kind),
        if_neg (by simp [hadapter.bound]), if_neg (by simp [hadapter.configured]), if_neg (by simp [hadapter.executes]),
        if_neg (by simp [haudit])]
      exact hbase

end Wiii.Connect
