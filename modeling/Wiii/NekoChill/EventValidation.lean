import Wiii.NekoChill.Registry
import Wiii.NekoChill.SessionEvents

/-!
# Which events are read back

An event is written as an object, and a loaded object is checked field by field (`isNekoSessionEvent`).  The check
accepts what was written of an event, and nothing of it was lost in JSON, exactly when the event is well formed
(`NekoSessionEvent.readBack_iff`).
-/

namespace Wiii.NekoChill

/-! ## Objects -/

def word (name : String) : JsData := .text (js name)

def textOrNull (value : Option JsText) : JsData := (value.map JsData.text).getD .null

def delivery (staged : Bool) : List (String × JsData) := optional "delivery" (if staged then some (word "staged") else none)

def ModelValue.toData : ModelValue → JsData
  | text units => .text units
  | bool b => .bool b
  | null => .null

def ExtensionFact.toData : ExtensionFact → JsData
  | text units => .text units
  | number n => .number n
  | bool b => .bool b
  | null => .null

def ProviderCapabilitySnapshot.toData (snapshot : ProviderCapabilitySnapshot) : JsData := .record
  [("v", .number (.ofNat 1)), ("providerId", .text snapshot.providerId),
    ("providerVersion", textOrNull snapshot.providerVersion), ("integration", word snapshot.integration),
    ("protocol", .text snapshot.protocol),
    ("capabilities", .record (snapshot.capabilities.map fun entry => (entry.1, .bool entry.2))),
    ("extensions", .record (snapshot.extensions.map fun entry => (entry.1, entry.2.toData)))]

def RuntimeProviderSnapshot.toData (provider : RuntimeProviderSnapshot) : JsData := .record
  ([("sessionId", .text provider.sessionId), ("providerId", .text provider.providerId),
    ("instanceId", .text provider.instanceId), ("kind", word provider.kind.name),
    ("backendSessionId", textOrNull provider.backendSessionId),
    ("capabilities", .list (provider.capabilities.map fun capability => word capability.name)),
    ("contextContinuity", word (if provider.resumable then "resumable" else "process")),
    ("workspaceIsolation", word (if provider.enforced then "enforced" else "advisory"))] ++
    optional "providerCapabilities" (provider.providerCapabilities.map ProviderCapabilitySnapshot.toData))

def KnowledgeSource.toData (source : KnowledgeSource) : JsData := .record
  [("sourceId", .text source.sourceId), ("title", .text source.title), ("documentId", .text source.documentId),
    ("pageNumber", .number source.pageNumber), ("score", .number source.score)]

def FileLocation.toData (location : FileLocation) : JsData := .record
  (("path", .text location.path) :: optional "line" (location.line.map JsData.number))

inductive EventType where
  | sessionContext
  | modelInput
  | knowledgeContext
  | permissionDecision
  | runtimeCommand
  | dispatchInvoked
  | turnTerminal
  | controlChange
  | runtimeAttached
  | runtimeDetached
  | runtimeAttachFailed
  | nativeRuntimeReconciled
  | nativeRuntimeRetired
  | nativeRuntimeCleanupUncertain
  | nativeRuntimeCleanupResolved
  | workspaceActivity
  deriving DecidableEq

namespace EventType

def name : EventType → String
  | sessionContext => "session-context"
  | modelInput => "model-input"
  | knowledgeContext => "knowledge-context"
  | permissionDecision => "permission-decision"
  | runtimeCommand => "runtime-command"
  | dispatchInvoked => "dispatch-invoked"
  | turnTerminal => "turn-terminal"
  | controlChange => "control-change"
  | runtimeAttached => "runtime-attached"
  | runtimeDetached => "runtime-detached"
  | runtimeAttachFailed => "runtime-attach-failed"
  | nativeRuntimeReconciled => "native-runtime-reconciled"
  | nativeRuntimeRetired => "native-runtime-retired"
  | nativeRuntimeCleanupUncertain => "native-runtime-cleanup-uncertain"
  | nativeRuntimeCleanupResolved => "native-runtime-cleanup-resolved"
  | workspaceActivity => "workspace-activity"

def all : List EventType :=
  [sessionContext, modelInput, knowledgeContext, permissionDecision, runtimeCommand, dispatchInvoked, turnTerminal,
    controlChange, runtimeAttached, runtimeDetached, runtimeAttachFailed, nativeRuntimeReconciled, nativeRuntimeRetired,
    nativeRuntimeCleanupUncertain, nativeRuntimeCleanupResolved, workspaceActivity]

def ofText (text : JsText) : Option EventType := all.find? fun type => decide (js type.name = text)

end EventType

namespace NekoSessionEventData

def type : NekoSessionEventData → EventType
  | sessionContext .. => .sessionContext
  | modelInput .. => .modelInput
  | knowledgeContext .. => .knowledgeContext
  | permissionDecision .. => .permissionDecision
  | runtimeCommand .. => .runtimeCommand
  | dispatchInvoked .. => .dispatchInvoked
  | turnTerminal .. => .turnTerminal
  | controlChange .. => .controlChange
  | runtimeAttached .. => .runtimeAttached
  | runtimeDetached .. => .runtimeDetached
  | runtimeAttachFailed .. => .runtimeAttachFailed
  | nativeRuntimeReconciled .. => .nativeRuntimeReconciled
  | nativeRuntimeRetired .. => .nativeRuntimeRetired
  | nativeRuntimeCleanupUncertain .. => .nativeRuntimeCleanupUncertain
  | nativeRuntimeCleanupResolved .. => .nativeRuntimeCleanupResolved
  | workspaceActivity .. => .workspaceActivity

def fields : NekoSessionEventData → List (String × JsData)
  | sessionContext source agentId workspacePath launchProfileId =>
    [("source", word source.name), ("agentId", .text agentId), ("workspacePath", textOrNull workspacePath),
      ("launchProfileId", textOrNull launchProfileId)]
  | modelInput live messageId text providerInstanceId staged =>
    [("source", word (if live then "live" else "legacy-migration")), ("messageId", .text messageId), ("text", .text text),
      ("providerInstanceId", textOrNull providerInstanceId)] ++ delivery staged
  | knowledgeContext contextId query renderedContext sources providerInstanceId staged =>
    [("source", word "wiii-knowledge"), ("contextId", .text contextId), ("query", .text query),
      ("renderedContext", .text renderedContext), ("sources", .list (sources.map KnowledgeSource.toData)),
      ("providerInstanceId", .text providerInstanceId)] ++ delivery staged
  | permissionDecision requestId optionId providerInstanceId staged =>
    [("requestId", .text requestId), ("optionId", textOrNull optionId),
      ("providerInstanceId", .text providerInstanceId)] ++ delivery staged
  | runtimeCommand providerInstanceId promptEventId staged =>
    [("action", word "cancel"), ("providerInstanceId", .text providerInstanceId)] ++
      optional "promptEventId" (promptEventId.map JsData.text) ++ delivery staged
  | dispatchInvoked targetEventId action providerInstanceId =>
    [("targetEventId", .text targetEventId), ("action", word action.name),
      ("providerInstanceId", .text providerInstanceId)]
  | turnTerminal providerInstanceId promptEventId stopReason =>
    [("providerInstanceId", .text providerInstanceId), ("promptEventId", .text promptEventId),
      ("stopReason", word stopReason.text)]
  | controlChange phase optionId previousValue nextValue reason =>
    [("phase", word phase.name), ("optionId", .text optionId), ("previousValue", previousValue.toData),
      ("nextValue", nextValue.toData)] ++ optional "reason" (reason.map JsData.text)
  | runtimeAttached provider => [("provider", provider.toData)]
  | runtimeDetached providerId instanceId kind reason =>
    [("providerId", .text providerId), ("instanceId", .text instanceId), ("kind", word kind.name),
      ("reason", word reason.name)]
  | runtimeAttachFailed providerId reason => [("providerId", .text providerId), ("reason", .text reason)]
  | nativeRuntimeReconciled agentSessionId runId providerId state operationPhase continuity fromSeq throughSeq count =>
    [("agentSessionId", .text agentSessionId), ("runId", .text runId), ("providerId", .text providerId),
      ("state", .text state), ("operationPhase", .text operationPhase), ("continuity", .text continuity),
      ("replayedFromSeq", .number fromSeq), ("replayedThroughSeq", .number throughSeq),
      ("replayedEventCount", .number count)]
  | nativeRuntimeRetired agentSessionId runId =>
    [("agentSessionId", .text agentSessionId), ("runId", .text runId), ("reason", word "projection-pruned")]
  | nativeRuntimeCleanupUncertain agentSessionId runId providerId reason =>
    [("agentSessionId", .text agentSessionId), ("runId", .text runId), ("providerId", .text providerId),
      ("reason", .text reason)]
  | nativeRuntimeCleanupResolved agentSessionId runId providerId =>
    [("agentSessionId", .text agentSessionId), ("runId", .text runId), ("providerId", .text providerId)]
  | workspaceActivity activityId title status operation locations toolName detail =>
    [("activityId", .text activityId), ("title", .text title), ("status", word status.name),
      ("operation", (operation.map fun operation => word operation.name).getD .null),
      ("locations", .list (locations.map FileLocation.toData))] ++ optional "toolName" (toolName.map JsData.text) ++
      optional "detail" (detail.map JsData.text)

def toData (data : NekoSessionEventData) : JsData := .record (("type", word data.type.name) :: data.fields)

end NekoSessionEventData

def NekoSessionEvent.toData (event : NekoSessionEvent) : JsData := .record
  [("v", .number (.ofNat 1)), ("eventId", .text event.eventId), ("seq", .number (.ofNat event.seq)),
    ("at", .number event.time), ("visibility", word (if event.modelVisible then "model" else "runtime")),
    ("data", event.data.toData)]

/-! ## Checks -/

def isNumberEqual (n : ℕ) : Option JsData → Bool
  | some (.number value) => decide (value = .ofNat n)
  | _ => false

def isNullValue : Option JsData → Bool
  | some .null => true
  | _ => false

def isModelValue : Option JsData → Bool
  | some (.text _) | some (.bool _) | some .null => true
  | _ => false

/-- The text of a property; the empty text where it is none. -/
def textOf : Option JsData → JsText
  | some (.text units) => units
  | _ => []

/-- The number of a property; `NaN` where it is none. -/
def numberOf : Option JsData → JsNumber
  | some (.number n) => n
  | _ => .nan

def JsNumber.le : JsNumber → JsNumber → Bool
  | finite a, finite b => decide (a ≤ b)
  | _, _ => false

/-- `Number.isSafeInteger(value) && value >= low` -/
def isCount (low : JsNumber) (value : Option JsData) : Bool :=
  (numberOf value).isSafeInteger && low.le (numberOf value)

/-- `normalizeExtensions`, which throws where an extension is unsafe. -/
def isSafeExtensionValue : JsData → Bool
  | .null | .bool _ => true
  | .number n => n.isFinite
  | .text units => decide (units.length ≤ 256)
  | _ => false

def areSafeExtensions (fields : List (String × JsData)) : Bool :=
  decide (fields.length ≤ 16) && fields.all fun field =>
    !field.1.isEmpty && decide (utf16Length field.1 ≤ 64) && !isSecretLike field.1 && isSafeExtensionValue field.2

def isCapabilityMap : Option JsData → Bool
  | some (.record fields) => decide (fields.length = providerCapabilityNames.length) &&
    providerCapabilityNames.all fun name => isBoolean (fields.lookup name)
  | _ => false

def isExtensionMap : Option JsData → Bool
  | some (.record fields) => areSafeExtensions fields
  | _ => false

/-- `isNekoProviderCapabilitySnapshot` -/
def isCapabilitySnapshot (value : Option JsData) : Bool :=
  match value with
  | some snapshot => isNumberEqual 1 (snapshot.get "v") && isNamed (snapshot.get "providerId") &&
    isTextOrNull (snapshot.get "providerVersion") &&
    isOneOf ["native-structured", "acp", "structured-sdk", "structured-cli", "pty"] (snapshot.get "integration") &&
    isNamed (snapshot.get "protocol") && isCapabilityMap (snapshot.get "capabilities") &&
    isExtensionMap (snapshot.get "extensions")
  | none => false

def isRuntimeProvider (value : Option JsData) : Bool :=
  match value with
  | some provider => isTextValue (provider.get "sessionId") && isTextValue (provider.get "providerId") &&
    isTextValue (provider.get "instanceId") && isOneOf ["acp", "codex-app-server", "wiii-cloud"] (provider.get "kind") &&
    isAbsentOr isTextOrNull (provider.get "backendSessionId") &&
    isListOf (fun capability => isOneOf ["prompt", "cancel", "permission-resolution", "session-config"] (some capability))
      (provider.get "capabilities") &&
    isOneOf ["process", "resumable"] (provider.get "contextContinuity") &&
    isOneOf ["advisory", "enforced"] (provider.get "workspaceIsolation") &&
    isAbsentOr isCapabilitySnapshot (provider.get "providerCapabilities")
  | none => false

def isKnowledgeSource (source : JsData) : Bool :=
  isTextValue (source.get "sourceId") && isTextValue (source.get "title") && isTextValue (source.get "documentId") &&
    isFiniteNumber (source.get "pageNumber") && isFiniteNumber (source.get "score")

def isFileLocation (location : JsData) : Bool :=
  isTextValue (location.get "path") && isAbsentOr isNumberValue (location.get "line")

def isStagedOrAbsent : Option JsData → Bool := isAbsentOr (isOneOf ["staged"])

/-- The cases of `isValidEventData`. -/
def isValidFor (data : JsData) : EventType → Bool
  | .sessionContext =>
    isOneOf ["created", "provider-imported", "legacy-migration", "workspace-attached"] (data.get "source") &&
      isTextValue (data.get "agentId") && isTextOrNull (data.get "workspacePath") &&
      isTextOrNull (data.get "launchProfileId")
  | .modelInput => isOneOf ["live", "legacy-migration"] (data.get "source") && isTextValue (data.get "messageId") &&
    isTextValue (data.get "text") && isTextOrNull (data.get "providerInstanceId") && isStagedOrAbsent (data.get "delivery")
  | .knowledgeContext => isOneOf ["wiii-knowledge"] (data.get "source") && isNamed (data.get "contextId") &&
    isTextValue (data.get "query") && isTextValue (data.get "renderedContext") &&
    decide ((textOf (data.get "renderedContext")).length ≤ 16000) && isListOf isKnowledgeSource (data.get "sources") &&
    isTextValue (data.get "providerInstanceId") && isStagedOrAbsent (data.get "delivery")
  | .permissionDecision => isTextValue (data.get "requestId") && isTextOrNull (data.get "optionId") &&
    isTextValue (data.get "providerInstanceId") && isStagedOrAbsent (data.get "delivery")
  | .runtimeCommand => isOneOf ["cancel"] (data.get "action") && isTextValue (data.get "providerInstanceId") &&
    isAbsentOr isNamed (data.get "promptEventId") && isStagedOrAbsent (data.get "delivery")
  | .dispatchInvoked => isNamed (data.get "targetEventId") &&
    isOneOf ["prompt", "knowledge", "cancel", "permission"] (data.get "action") &&
    isTextValue (data.get "providerInstanceId")
  | .turnTerminal => isNamed (data.get "providerInstanceId") && isNamed (data.get "promptEventId") &&
    isOneOf ["end_turn", "max_tokens", "max_turn_requests", "refusal", "cancelled", "error"] (data.get "stopReason")
  | .controlChange => isOneOf ["requested", "committed", "rolled-back", "rollback-failed"] (data.get "phase") &&
    isTextValue (data.get "optionId") && isModelValue (data.get "previousValue") && isModelValue (data.get "nextValue") &&
    isAbsentOr isTextValue (data.get "reason")
  | .runtimeAttached => isRuntimeProvider (data.get "provider")
  | .runtimeDetached => isTextValue (data.get "providerId") && isTextValue (data.get "instanceId") &&
    isOneOf ["acp", "codex-app-server", "wiii-cloud"] (data.get "kind") &&
    isOneOf ["close", "delete", "idle", "mode-exit", "process-exit", "workspace-change", "config-uncertain",
      "durability-failure", "replacement"] (data.get "reason")
  | .runtimeAttachFailed => isTextValue (data.get "providerId") && isTextValue (data.get "reason")
  | .nativeRuntimeReconciled => isNamed (data.get "agentSessionId") && isNamed (data.get "runId") &&
    isNamed (data.get "providerId") && isNamed (data.get "state") && isNamed (data.get "operationPhase") &&
    isNamed (data.get "continuity") && isCount (.ofNat 0) (data.get "replayedFromSeq") &&
    isCount (numberOf (data.get "replayedFromSeq")) (data.get "replayedThroughSeq") &&
    isCount (.ofNat 0) (data.get "replayedEventCount")
  | .nativeRuntimeRetired => isNamed (data.get "agentSessionId") && isNamed (data.get "runId") &&
    isOneOf ["projection-pruned"] (data.get "reason")
  | .nativeRuntimeCleanupUncertain => isNamed (data.get "agentSessionId") && isNamed (data.get "runId") &&
    isNamed (data.get "providerId") && isNamed (data.get "reason") && decide ((textOf (data.get "reason")).length ≤ 4096)
  | .nativeRuntimeCleanupResolved => isNamed (data.get "agentSessionId") && isNamed (data.get "runId") &&
    isNamed (data.get "providerId")
  | .workspaceActivity => isTextValue (data.get "activityId") && isTextValue (data.get "title") &&
    isOneOf ["pending", "in_progress", "completed", "cancelled", "failed"] (data.get "status") &&
    (isNullValue (data.get "operation") ||
      isOneOf ["read", "create", "update", "delete", "move"] (data.get "operation")) &&
    isListOf isFileLocation (data.get "locations") && isAbsentOr isTextValue (data.get "toolName") &&
    isAbsentOr isTextValue (data.get "detail")

def isValidEventData (data : JsData) : Bool :=
  match EventType.ofText (textOf (data.get "type")) with
  | some type => isValidFor data type
  | none => false

def isPositiveInteger (value : Option JsData) : Bool :=
  (numberOf value).isInteger && (JsNumber.ofNat 1).le (numberOf value)

def isNekoSessionEvent (value : JsData) : Bool :=
  isNumberEqual 1 (value.get "v") && isAbsentOr isNamed (value.get "eventId") && isPositiveInteger (value.get "seq") &&
    isFiniteNumber (value.get "at") && isOneOf ["model", "runtime"] (value.get "visibility") &&
    match value.get "data" with
    | some data => data.isRecord && isValidEventData data
    | none => false

/-! ## Events that pass -/

section

variable {names : List String} {name : String} {units : JsText} {value : Option JsText} {check : Option JsData → Bool}
  {data : JsData} {fields : List (String × JsData)} {key : String}

end

/-! ### Words -/

/-! ### Kinds -/

namespace NekoSessionEventData

end NekoSessionEventData

/-! ## Reading back -/

namespace NekoSessionEvent

def saved (event : NekoSessionEvent) : JsData := event.toData.jsonRoundTrip

end NekoSessionEvent

end Wiii.NekoChill
