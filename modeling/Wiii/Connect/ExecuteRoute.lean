import Wiii.Connect.Gateway
import Wiii.Connect.Storage
import Wiii.Service.Payload

/-!
# The execute route

From the body of a request to the call of the provider.  The class of the action is the one the body claims; the class
that the catalog gives the action is read by no check.
-/

namespace Wiii.Connect

open Service (Payload)

structure ExecutionRunBody where
  connectionId : Option String := none
  connectionRef : Option String := none
  actionSlug : String
  path : String := "external_app_action"
  mutation : String := "read"
  previewEvidenceRequired : Bool := false
  previewEvidenceId : Option String := none
  approvalTokenPresent : Bool := false
  arguments : Payload := []

/-! ## The live schema of a tool -/

structure SchemaData where
  toolName : Option String
  toolkitSlug : String := ""
  schemaPresent : Bool
  argumentKeys : List String
  requiredKeys : List String

inductive SchemaResponse where
  | transportError
  | rejected
  | invalid
  | data (schema : SchemaData)

inductive SchemaReason where
  | actionNotCurated
  | actionNotAllowlisted
  | providerAdapterNotConfigured
  | providerTransportError
  | providerResponseRejected
  | providerResponseInvalid
  | toolSchemaNotFound
  | toolSchemaMissingArguments
  deriving DecidableEq

/-- `verify_composio_tool_schema`: the argument keys that are required. -/
def verifyToolSchema (lowerTable upperTable : CaseTable) (config : ComposioConfig) (providerSlug actionSlug : String)
    (response : SchemaResponse) : Except SchemaReason (List String) :=
  let provider := normalizeProviderSlug lowerTable providerSlug
  let action := normalizeActionSlug upperTable actionSlug
  if getCuratedAction lowerTable upperTable provider action = none then .error .actionNotCurated
  else if action ∉ config.executableActionSlugs lowerTable upperTable provider then .error .actionNotAllowlisted
  else if config.enabled = false ∨ config.apiKeyPresent = false then .error .providerAdapterNotConfigured
  else
    match response with
    | .transportError => .error .providerTransportError
    | .rejected => .error .providerResponseRejected
    | .invalid => .error .providerResponseInvalid
    | .data schema =>
      let toolkit := normalizeProviderSlug lowerTable schema.toolkitSlug
      if normalizeActionSlug upperTable (schema.toolName.getD action) ≠ action then .error .toolSchemaNotFound
      else if toolkit ≠ "" ∧ toolkit ≠ provider then .error .toolSchemaNotFound
      else if schema.schemaPresent = false ∨ schema.argumentKeys = [] then .error .toolSchemaMissingArguments
      else .ok schema.requiredKeys

/-! ## The plan of an action -/

structure BackendActionPlan where
  entry : ProviderEntry
  connection : Option ConnectionRecord
  actionSlug : String
  mutation : ActionMutation
  path : String
  arguments : Payload
  approvalTokenPresent : Bool
  previewEvidenceId : Option String
  previewEvidenceRequired : Bool
  connectionSelectionRequired : Bool

/-- What a call of `execute_composio_tool` is given, and the decision it rests on. -/
structure HandedCall where
  providerSlug : String
  actionSlug : String
  connectedAccountId : String
  arguments : Payload
  gateway : ExecutionDecision

inductive BlockReason where
  | gateway (reason : ExecutionReason)
  | schema (reason : SchemaReason)
  | missingRequiredArguments
  deriving DecidableEq

inductive ExecuteOutcome where
  | unknownProvider
  | blocked (reason : BlockReason)
  | handed (call : HandedCall)

/-- The configuration, the storage's status, the user's connections, and the provider's schema. -/
structure ExecuteEnvironment where
  lowerTable : CaseTable
  upperTable : CaseTable
  /-- The hexadecimal SHA-256 of a text. -/
  hexdigest : String → String
  config : ComposioConfig
  persistent : Bool
  connectionTableReady : Bool
  auditLedgerReady : Bool
  /-- The tables after stale connections were expired. -/
  database : Database
  organizationId : String
  userId : String
  schemaResponse : SchemaResponse

/-- `_safe_mutation`. -/
def safeMutation (table : CaseTable) (value : String) : ActionMutation :=
  let normalized := PyText.lower table (PyText.strip value)
  if normalized = "preview" then .preview
  else if normalized = "write" then .write
  else if normalized = "apply" then .apply
  else if normalized = "admin" then .admin
  else .read

def isConnectionRef (text : String) : Bool := "wcn_".toList.isPrefixOf text.toList

/-- `_safe_public_connection_ref` of the route. -/
def safePublicConnectionRef (table : CaseTable) (value : Option String) : String :=
  let candidate := safeId table value
  if isConnectionRef candidate then candidate else ""

/-- `missing_required_argument_keys`. -/
def missingRequiredArgumentKeys (table : CaseTable) (requiredKeys : List String) (arguments : Payload) : List String :=
  let provided := arguments.map fun field => PyText.strip field.1
  (((requiredKeys.map PyText.strip).filter fun key => key ≠ "" && !provided.contains key).map
    (safePublicArgumentKey table)).take 50

namespace ExecuteEnvironment

variable (env : ExecuteEnvironment)

def connectionStorageReady : Bool := env.persistent && env.connectionTableReady && env.auditLedgerReady

def auditPersistent : Bool := env.persistent && env.auditLedgerReady

/-- `_provider_slug` of the executor. -/
def providerSlug (slug : String) : String := PyText.take 80 (normalizeProviderSlug env.lowerTable slug)

/-- `_action_slug`. -/
def actionSlug (slug : String) : String := PyText.take 120 (normalizeActionSlug env.upperTable slug)

def publicConnectionRef (providerSlug connectionId : String) : String :=
  let provider := normalizeProviderSlug env.lowerTable providerSlug
  let rawId := PyText.strip connectionId
  if provider = "" ∨ rawId = "" then "" else "wcn_" ++ PyText.take 24 (env.hexdigest (provider ++ ":" ++ rawId))

def connectionRefMatches (providerSlug connectionId candidate : String) : Bool :=
  let candidate := PyText.strip candidate
  candidate ≠ "" && candidate = env.publicConnectionRef providerSlug connectionId

/-- `select_wiii_connect_connection`. -/
def selectConnection (providerSlug connectionRef : String) : Option ConnectionRecord :=
  if env.connectionStorageReady = false then none
  else
    let provider := env.providerSlug providerSlug
    let records := (env.database.listConnectionRecords env.lowerTable env.organizationId env.userId provider 100).filter
      fun record => env.providerSlug record.providerSlug = provider
    let stripped := PyText.strip connectionRef
    let ref := if isConnectionRef stripped then PyText.take 160 stripped else ""
    if ref ≠ "" then
      records.find? fun record => env.connectionRefMatches record.providerSlug record.connectionId ref
    else (records.find? ConnectionRecord.active).or records.head?

/-- `model_visible_arguments`. -/
def modelVisibleArguments (providerSlug actionSlug : String) (arguments : Payload) : Payload :=
  let allowed := modelVisibleArgumentKeys env.lowerTable env.upperTable providerSlug actionSlug (arguments.map Prod.fst)
  arguments.foldl (fun result field =>
    let key := normalizeArgumentKey env.lowerTable field.1
    if key ≠ "" ∧ key ∈ allowed then Service.Payload.set key field.2 result else result) []

/-- The authorization of a request; the route never vouches for one. -/
def authorization (body : ExecutionRunBody) : ActionAuthorization :=
  resolveActionAuthorization env.lowerTable (safeMutation env.lowerTable body.mutation)
    (safePublicId env.lowerTable body.previewEvidenceId) body.approvalTokenPresent false

/-- The plan that `execute_wiii_connect_provider_action` builds. -/
def plan (entry : ProviderEntry) (body : ExecutionRunBody) : BackendActionPlan :=
  let effective := env.config.executionEnabledEntry env.lowerTable env.upperTable entry
  let given := if body.connectionRef.getD "" = "" then body.connectionId else body.connectionRef
  let selectedRef := safePublicConnectionRef env.lowerTable given
  let actionSlug := env.actionSlug body.actionSlug
  let authorization := env.authorization body
  { entry := effective
    connection := if selectedRef = "" then none else env.selectConnection effective.slug selectedRef
    actionSlug := actionSlug
    mutation := safeMutation env.lowerTable body.mutation
    path := PyText.take 120 (normalizeProviderSlug env.lowerTable body.path)
    arguments := env.modelVisibleArguments effective.slug actionSlug body.arguments
    approvalTokenPresent := authorization.trustedApprovalTokenPresent
    previewEvidenceId := authorization.trustedPreviewEvidenceId
    previewEvidenceRequired := body.previewEvidenceRequired
    connectionSelectionRequired := decide (selectedRef = "") }

/-- `build_execution_request`. -/
def buildExecutionRequest (plan : BackendActionPlan) : ExecutionRequest :=
  { providerSlug := env.providerSlug plan.entry.slug
    actionSlug := env.actionSlug plan.actionSlug
    path := PyText.take 120 (if plan.path = "" then "external_app_action" else plan.path)
    mutation := plan.mutation
    approvalTokenPresent := plan.approvalTokenPresent
    previewEvidenceId := plan.previewEvidenceId
    previewEvidenceRequired := plan.previewEvidenceRequired }

def gateway (plan : BackendActionPlan) : ExecutionDecision :=
  decideExecutionGateway env.lowerTable env.upperTable plan.entry plan.connection (env.buildExecutionRequest plan)
    env.config.capability env.auditPersistent plan.connectionSelectionRequired

def schema (plan : BackendActionPlan) : Except SchemaReason (List String) :=
  verifyToolSchema env.lowerTable env.upperTable env.config plan.entry.slug (env.buildExecutionRequest plan).actionSlug
    env.schemaResponse

/-- `preflight_wiii_connect_composio_backend_action`: the argument keys that are required. -/
def preflight (plan : BackendActionPlan) : Except BlockReason (List String) :=
  if (env.gateway plan).allowed = false then .error (.gateway (env.gateway plan).reason)
  else (env.schema plan).mapError .schema

/-- `execute_wiii_connect_composio_backend_action`. -/
def executeBackendAction (plan : BackendActionPlan) : ExecuteOutcome :=
  match env.preflight plan with
  | .error reason => .blocked reason
  | .ok requiredKeys =>
    if missingRequiredArgumentKeys env.lowerTable requiredKeys plan.arguments ≠ [] then
      .blocked .missingRequiredArguments
    else
      .handed
        { providerSlug := plan.entry.slug
          actionSlug := (env.buildExecutionRequest plan).actionSlug
          connectedAccountId := (plan.connection.map ConnectionRecord.connectionId).getD ""
          arguments := plan.arguments
          gateway := env.gateway plan }

/-- `execute_wiii_connect_provider_action`. -/
def executeProviderAction (slug : String) (body : ExecutionRunBody) : ExecuteOutcome :=
  match getProviderEntry env.lowerTable slug with
  | none => .unknownProvider
  | some entry => env.executeBackendAction (env.plan entry body)

end ExecuteEnvironment

end Wiii.Connect
