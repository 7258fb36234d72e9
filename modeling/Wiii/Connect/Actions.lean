import Mathlib.Algebra.GroupWithZero.Nat
import Wiii.Connect.Records

/-!
# Providers and their curated actions

The registry of providers, the catalog of actions that were reviewed, and what the configuration of the Composio
adapter makes executable of them.
-/

namespace Wiii.Connect

/-! ## The registry -/

inductive ProviderKind where
  | wiiiNative
  | composio
  | mcp
  | customOauth
  | workflow
  deriving DecidableEq

structure ProviderEntry where
  slug : String
  providerKind : ProviderKind := .composio
  enabled : Bool := false
  agentReady : Bool := false
  allowedPaths : List String := ["external_app_action"]
  actionAllowlist : List String := []
  defaultScopes : ScopeGrant := {}

def providerRegistry : List ProviderEntry :=
  [{ slug := "facebook" }, { slug := "gmail" }, { slug := "google_calendar" }, { slug := "google_drive" },
    { slug := "notion" }, { slug := "slack" }, { slug := "github" }, { slug := "airtable" }, { slug := "asana" }]

def getProviderEntry (table : CaseTable) (slug : String) : Option ProviderEntry :=
  let key := normalizeProviderSlug table slug
  if key = "" then none else providerRegistry.find? fun entry => entry.slug = key

/-- A pattern that ends in a star stands for everything that begins with the rest of it. -/
def ProviderEntry.allowsAction (table : CaseTable) (entry : ProviderEntry) (actionSlug : String) : Bool :=
  let action := PyText.upper table (PyText.strip actionSlug)
  action ≠ "" && entry.actionAllowlist.any fun pattern =>
    let normalized := PyText.upper table (PyText.strip pattern)
    if normalized = "" then false
    else if normalized.toList.getLast? = some '*' then
      let start := normalized.toList.dropLast
      start ≠ [] && start.isPrefixOf action.toList
    else action = normalized

/-! ## The catalog -/

structure CuratedAction where
  slug : String
  providerSlug : String
  mutation : ActionMutation
  deriving DecidableEq

def curatedActions : List CuratedAction :=
  [⟨"GMAIL_FETCH_EMAILS", "gmail", .read⟩, ⟨"FACEBOOK_LIST_MANAGED_PAGES", "facebook", .read⟩,
    ⟨"FACEBOOK_CREATE_POST", "facebook", .apply⟩, ⟨"FACEBOOK_CREATE_PHOTO_POST", "facebook", .apply⟩]

/-- `list_wiii_connect_curated_actions` of a provider that is named. -/
def listCuratedActions (lowerTable : CaseTable) (providerSlug : String) : List CuratedAction :=
  let provider := normalizeProviderSlug lowerTable providerSlug
  curatedActions.filter fun action => provider = "" || action.providerSlug = provider

def getCuratedAction (lowerTable upperTable : CaseTable) (providerSlug actionSlug : String) : Option CuratedAction :=
  let provider := normalizeProviderSlug lowerTable providerSlug
  let key := normalizeActionSlug upperTable actionSlug
  if provider = "" ∨ key = "" then none
  else curatedActions.find? fun action => action.providerSlug = provider && action.slug = key

/-- `configured_action_slugs_for_provider`. -/
def configuredActionSlugs (lowerTable upperTable : CaseTable) (providerSlug : String) (enabledSlugs : List String)
    (mutation : ActionMutation) : List String :=
  let allowed := (enabledSlugs.map (normalizeActionSlug upperTable)).filter (· ≠ "")
  if allowed = [] then []
  else ((listCuratedActions lowerTable providerSlug).filter fun action =>
    decide (action.slug ∈ allowed ∧ action.mutation = mutation)).map CuratedAction.slug

/-! ## The Composio adapter -/

structure ComposioConfig where
  enabled : Bool := false
  apiKeyPresent : Bool := false
  readonlyExecuteEnabled : Bool := false
  readonlyAllowlist : List (String × List String) := []
  applyExecuteEnabled : Bool := false
  applyAllowlist : List (String × List String) := []

structure AdapterCapability where
  providerKind : ProviderKind
  bound : Bool
  configured : Bool
  canCreateAuthorizationUrl : Bool
  canExecuteActions : Bool

namespace ComposioConfig

variable (lowerTable upperTable : CaseTable) (config : ComposioConfig) (providerSlug : String)

/-- The slugs of one class that are both configured and curated. -/
def actionSlugs (allowlist : List (String × List String)) (mutation : ActionMutation) : List String :=
  let provider := normalizeProviderSlug lowerTable providerSlug
  configuredActionSlugs lowerTable upperTable provider ((allowlist.lookup provider).getD []) mutation

def readonlyActionSlugs : List String := actionSlugs lowerTable upperTable providerSlug config.readonlyAllowlist .read

def applyActionSlugs : List String := actionSlugs lowerTable upperTable providerSlug config.applyAllowlist .apply

/-- A set, whose order does not matter. -/
def executableActionSlugs : List String :=
  let provider := normalizeProviderSlug lowerTable providerSlug
  (if config.readonlyExecuteEnabled then config.readonlyActionSlugs lowerTable upperTable provider else []) ++
    if config.applyExecuteEnabled then config.applyActionSlugs lowerTable upperTable provider else []

def actionCount (allowlist : List (String × List String)) : ℕ := (allowlist.map fun item => item.2.length).sum

/-- `build_composio_provider_adapter_capability`. -/
def capability : AdapterCapability :=
  if config.enabled = false then ⟨.composio, false, false, false, false⟩
  else if config.apiKeyPresent = false then ⟨.composio, true, false, false, false⟩
  else
    ⟨.composio, true, true, true, (config.readonlyExecuteEnabled && decide (0 < actionCount config.readonlyAllowlist)) ||
      (config.applyExecuteEnabled && decide (0 < actionCount config.applyAllowlist))⟩

/-- `build_composio_connect_enabled_entry`. -/
def connectEnabledEntry (entry : ProviderEntry) : ProviderEntry :=
  if entry.providerKind ≠ .composio then entry
  else
    let capability := config.capability
    if capability.bound && capability.configured && capability.canCreateAuthorizationUrl then
      { entry with enabled := true, agentReady := false }
    else entry

/-- `build_composio_execution_enabled_entry`: write and admin stay without a scope. -/
def executionEnabledEntry (entry : ProviderEntry) : ProviderEntry :=
  let entry := config.connectEnabledEntry entry
  if entry.providerKind ≠ .composio ∨ entry.enabled = false then entry
  else
    let readonlyActions :=
      if config.readonlyExecuteEnabled then config.readonlyActionSlugs lowerTable upperTable entry.slug else []
    let applyActions := if config.applyExecuteEnabled then config.applyActionSlugs lowerTable upperTable entry.slug else []
    if readonlyActions ++ applyActions = [] then entry
    else
      { entry with
        agentReady := true
        actionAllowlist := readonlyActions ++ applyActions
        defaultScopes := { read := true, preview := applyActions ≠ [], apply := applyActions ≠ [] } }

end ComposioConfig

/-! ## Argument keys -/

def sensitiveKeyMarkers : List String := ["token", "secret", "password", "credential", "key", "code", "authorization"]

def backendOwnedArgumentKeys : List String :=
  ["account_id", "account_ref", "approval_token", "connected_account_id", "connection_id", "connection_ref", "cursor",
    "external_account_ref", "file", "files", "image", "image_base64", "image_filename", "image_media_type", "image_url",
    "media", "page_access_token", "page_id", "page_ids", "photo", "preview_evidence_id", "provider_payload", "published",
    "raw_prompt", "scheduled_publish_time", "upload", "user_id", "vault_key_id"]

/-- `_MODEL_ARGUMENT_KEYS_BY_ACTION`. -/
def modelArgumentKeysByAction : List ((String × String) × List String) :=
  [(("gmail", "GMAIL_FETCH_EMAILS"), ["query", "max_results"]),
    (("facebook", "FACEBOOK_LIST_MANAGED_PAGES"), ["fields", "limit"]),
    (("facebook", "FACEBOOK_CREATE_POST"), ["message", "link"]),
    (("facebook", "FACEBOOK_CREATE_PHOTO_POST"), ["message"])]

section ArgumentKeys

variable (lowerTable upperTable : CaseTable)

def normalizeArgumentKey (key : String) : String := PyText.take 120 (normalizeProviderSlug lowerTable key)

def isSensitiveArgumentKey (key : String) : Bool :=
  sensitiveKeyMarkers.any fun marker => PyText.contains (normalizeArgumentKey lowerTable key) marker

def isBackendOwnedArgumentKey (key : String) : Bool := backendOwnedArgumentKeys.contains (normalizeArgumentKey lowerTable key)

def safePublicArgumentKey (key : String) : String :=
  let key := normalizeArgumentKey lowerTable key
  if key = "" then "empty"
  else if isSensitiveArgumentKey lowerTable key then "redacted_sensitive_field"
  else if isBackendOwnedArgumentKey lowerTable key then "backend_owned_field"
  else PyText.take 80 key

/-- `_dedupe`. -/
def dedupe (values : List String) : List String :=
  (values.foldl (fun result value =>
    let item := PyText.strip value
    if item = "" ∨ item ∈ result then result else result ++ [item]) []).take 50

def modelVisibleArgumentKeys (providerSlug actionSlug : String) (argumentKeys : List String) : List String :=
  let provider := PyText.take 80 (normalizeProviderSlug lowerTable providerSlug)
  let action := PyText.take 120 (normalizeActionSlug upperTable actionSlug)
  let keys := argumentKeys.map (normalizeArgumentKey lowerTable)
  match modelArgumentKeysByAction.lookup (provider, action) with
  | some allowed => dedupe (keys.filter fun key => allowed.contains key)
  | none =>
    dedupe ((keys.filter fun key => key ≠ "" && !isBackendOwnedArgumentKey lowerTable key).map
      (safePublicArgumentKey lowerTable))

end ArgumentKeys

end Wiii.Connect
