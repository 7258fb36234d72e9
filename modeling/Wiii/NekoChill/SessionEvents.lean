import Wiii.NekoChill.AcpDriver
import Wiii.NekoChill.JsData

/-!
# The events of a session

What is recorded at the boundary of the model and of the runtime.  Each kind of event is an object with its own
fields, which `toData` writes out; an event carries a number that is never given out twice.
-/

namespace Wiii.NekoChill

/-! ## Words of the fields -/

inductive ContextSource where
  | created
  | providerImported
  | legacyMigration
  | workspaceAttached
  deriving DecidableEq

def ContextSource.name : ContextSource → String
  | created => "created"
  | providerImported => "provider-imported"
  | legacyMigration => "legacy-migration"
  | workspaceAttached => "workspace-attached"

inductive DispatchAction where
  | prompt
  | knowledge
  | cancel
  | permission
  deriving DecidableEq

def DispatchAction.name : DispatchAction → String
  | prompt => "prompt"
  | knowledge => "knowledge"
  | cancel => "cancel"
  | permission => "permission"

inductive ControlPhase where
  | requested
  | committed
  | rolledBack
  | rollbackFailed
  deriving DecidableEq

def ControlPhase.name : ControlPhase → String
  | requested => "requested"
  | committed => "committed"
  | rolledBack => "rolled-back"
  | rollbackFailed => "rollback-failed"

inductive ModelValue where
  | text (units : JsText)
  | bool (b : Bool)
  | null
  deriving DecidableEq

inductive DriverKind where
  | acp
  | codexAppServer
  | wiiiCloud
  deriving DecidableEq

def DriverKind.name : DriverKind → String
  | acp => "acp"
  | codexAppServer => "codex-app-server"
  | wiiiCloud => "wiii-cloud"

inductive DriverCapability where
  | prompt
  | cancel
  | permissionResolution
  | sessionConfig
  deriving DecidableEq

def DriverCapability.name : DriverCapability → String
  | prompt => "prompt"
  | cancel => "cancel"
  | permissionResolution => "permission-resolution"
  | sessionConfig => "session-config"

inductive DetachReason where
  | close
  | delete
  | idle
  | modeExit
  | processExit
  | workspaceChange
  | configUncertain
  | durabilityFailure
  | replacement
  deriving DecidableEq

def DetachReason.name : DetachReason → String
  | close => "close"
  | delete => "delete"
  | idle => "idle"
  | modeExit => "mode-exit"
  | processExit => "process-exit"
  | workspaceChange => "workspace-change"
  | configUncertain => "config-uncertain"
  | durabilityFailure => "durability-failure"
  | replacement => "replacement"

inductive ActivityStatus where
  | pending
  | inProgress
  | completed
  | cancelled
  | failed
  deriving DecidableEq

def ActivityStatus.name : ActivityStatus → String
  | pending => "pending"
  | inProgress => "in_progress"
  | completed => "completed"
  | cancelled => "cancelled"
  | failed => "failed"

inductive FileOperation where
  | read
  | create
  | update
  | delete
  | move
  deriving DecidableEq

def FileOperation.name : FileOperation → String
  | read => "read"
  | create => "create"
  | update => "update"
  | delete => "delete"
  | move => "move"

/-! ## Providers -/

/-- `NEKO_PROVIDER_CAPABILITY_NAMES` -/
def providerCapabilityNames : List String :=
  ["resume", "fork", "modelSelection", "reasoning", "modes", "slashCommands", "approvals", "toolEvents", "usage", "diff",
    "subagents", "nativeReview", "sessionList", "sessionHistory", "backgroundWork"]

/-- A value of `providerExtensions`. -/
inductive ExtensionFact where
  | text (units : JsText)
  | number (n : JsNumber)
  | bool (b : Bool)
  | null
  deriving DecidableEq

structure ProviderCapabilitySnapshot where
  providerId : JsText
  providerVersion : Option JsText
  integration : String
  protocol : JsText
  capabilities : List (String × Bool)
  extensions : List (String × ExtensionFact)
  deriving DecidableEq

structure RuntimeProviderSnapshot where
  sessionId : JsText
  providerId : JsText
  instanceId : JsText
  kind : DriverKind
  backendSessionId : Option JsText
  capabilities : List DriverCapability
  /-- `resumable`, or else `process`. -/
  resumable : Bool
  /-- `enforced`, or else `advisory`. -/
  enforced : Bool
  providerCapabilities : Option ProviderCapabilitySnapshot
  deriving DecidableEq

/-! ## Events -/

structure KnowledgeSource where
  sourceId : JsText
  title : JsText
  documentId : JsText
  pageNumber : JsNumber
  score : JsNumber
  deriving DecidableEq

structure FileLocation where
  path : JsText
  line : Option JsNumber
  deriving DecidableEq

inductive NekoSessionEventData where
  | sessionContext (source : ContextSource) (agentId : JsText) (workspacePath launchProfileId : Option JsText)
  /-- The source is `live`, or else `legacy-migration`. -/
  | modelInput (live : Bool) (messageId text : JsText) (providerInstanceId : Option JsText) (staged : Bool)
  | knowledgeContext (contextId query renderedContext : JsText) (sources : List KnowledgeSource)
      (providerInstanceId : JsText) (staged : Bool)
  | permissionDecision (requestId : JsText) (optionId : Option JsText) (providerInstanceId : JsText) (staged : Bool)
  | runtimeCommand (providerInstanceId : JsText) (promptEventId : Option JsText) (staged : Bool)
  | dispatchInvoked (targetEventId : JsText) (action : DispatchAction) (providerInstanceId : JsText)
  | turnTerminal (providerInstanceId promptEventId : JsText) (stopReason : TurnStopReason)
  | controlChange (phase : ControlPhase) (optionId : JsText) (previousValue nextValue : ModelValue)
      (reason : Option JsText)
  | runtimeAttached (provider : RuntimeProviderSnapshot)
  | runtimeDetached (providerId instanceId : JsText) (kind : DriverKind) (reason : DetachReason)
  | runtimeAttachFailed (providerId reason : JsText)
  | nativeRuntimeReconciled (agentSessionId runId providerId state operationPhase continuity : JsText)
      (replayedFromSeq replayedThroughSeq replayedEventCount : JsNumber)
  | nativeRuntimeRetired (agentSessionId runId : JsText)
  | nativeRuntimeCleanupUncertain (agentSessionId runId providerId reason : JsText)
  | nativeRuntimeCleanupResolved (agentSessionId runId providerId : JsText)
  | workspaceActivity (activityId title : JsText) (status : ActivityStatus) (operation : Option FileOperation)
      (locations : List FileLocation) (toolName detail : Option JsText)
  deriving DecidableEq

structure NekoSessionEvent where
  eventId : JsText
  seq : ℕ
  /-- `at` -/
  time : JsNumber
  /-- `model`, or else `runtime`. -/
  modelVisible : Bool
  data : NekoSessionEventData
  deriving DecidableEq

namespace NekoSessionEventData

def isNative : NekoSessionEventData → Bool
  | nativeRuntimeReconciled .. | nativeRuntimeRetired .. | nativeRuntimeCleanupUncertain .. |
    nativeRuntimeCleanupResolved .. => true
  | _ => false

def isStaged : NekoSessionEventData → Bool
  | modelInput _ _ _ _ staged | knowledgeContext _ _ _ _ _ staged | permissionDecision _ _ _ staged |
    runtimeCommand _ _ staged => staged
  | sessionContext .workspaceAttached _ _ _ => true
  | _ => false

theorem not_native_of_staged {data : NekoSessionEventData} (h : data.isStaged = true) : data.isNative = false := by
  cases data with
  | nativeRuntimeReconciled | nativeRuntimeRetired | nativeRuntimeCleanupUncertain | nativeRuntimeCleanupResolved =>
    cases h
  | _ => rfl

end NekoSessionEventData

/-- `isNativeRuntimeSessionEvent` -/
def NekoSessionEvent.isNative (event : NekoSessionEvent) : Bool := event.data.isNative

/-- The events that the store takes back when what they stage was not begun. -/
def NekoSessionEvent.isStaged (event : NekoSessionEvent) : Bool := event.data.isStaged

end Wiii.NekoChill
