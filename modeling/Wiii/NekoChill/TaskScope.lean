import Wiii.Lib.Except
import Wiii.NekoChill.TaskProtocol

/-!
# The link of a session to a task

A mapping ties a session to one task of Neko.  It is pending until the task is bound and while the task is loaded, and
needs recovery when a pending mapping is found on disk.  A mapping that was read is read as it is
(`readMapping_toValue`), and so is every mapping that an operation produces.
-/

namespace Wiii.NekoChill

/-! ## Mappings -/

structure NekoExecutionBinding where
  taskId : JsText
  runId : JsText
  environmentId : JsText
  deriving DecidableEq

structure NekoTaskMappingHost where
  threadId : JsText
  providerId : JsText
  projectId : Option JsText
  execution : Option NekoExecutionBinding
  workspacePath : JsText
  deriving DecidableEq

inductive NekoTaskMappingRecoveryReason where
  | unfinishedNew
  | unfinishedLoad
  | newResponseUncertain
  | loadResponseUncertain
  | receiptPersistenceFailed
  | writerUnavailable
  | recoveryRequired
  | closeUnconfirmed
  | unsupportedCapability
  | admissionFailed
  | processEnded
  deriving DecidableEq

namespace NekoTaskMappingRecoveryReason

def all : List NekoTaskMappingRecoveryReason :=
  [unfinishedNew, unfinishedLoad, newResponseUncertain, loadResponseUncertain, receiptPersistenceFailed,
    writerUnavailable, recoveryRequired, closeUnconfirmed, unsupportedCapability, admissionFailed, processEnded]

def text : NekoTaskMappingRecoveryReason → String
  | unfinishedNew => "unfinished-new"
  | unfinishedLoad => "unfinished-load"
  | newResponseUncertain => "new-response-uncertain"
  | loadResponseUncertain => "load-response-uncertain"
  | receiptPersistenceFailed => "receipt-persistence-failed"
  | writerUnavailable => "writer-unavailable"
  | recoveryRequired => "recovery-required"
  | closeUnconfirmed => "close-unconfirmed"
  | unsupportedCapability => "unsupported-capability"
  | admissionFailed => "admission-failed"
  | processEnded => "process-ended"

def read (value : JsValue) : Option NekoTaskMappingRecoveryReason := all.find? fun reason => value.isString reason.text

theorem read_text (reason : NekoTaskMappingRecoveryReason) : read (.string (js reason.text)) = some reason := by
  cases reason <;> decide +kernel

end NekoTaskMappingRecoveryReason

structure MappingIdentity where
  threadId : JsText
  execution : NekoExecutionBinding
  projectId : Option JsText
  workspacePath : JsText
  label : JsText
  deriving DecidableEq

inductive MappingState where
  | pendingNew
  | bound (backendSessionId : JsText) (receipt : NekoTaskReceipt)
  | pendingLoad (backendSessionId : JsText) (receipt : NekoTaskReceipt)
  | recoveryRequired (backendSessionId : Option JsText) (receipt : Option NekoTaskReceipt)
      (reason : NekoTaskMappingRecoveryReason)
  deriving DecidableEq

structure NekoTaskScopeMapping where
  identity : MappingIdentity
  /-- The selected path at first, and the proven root after the task was bound. -/
  authorizedRoot : JsText
  state : MappingState
  deriving DecidableEq

inductive InvalidReason where
  | invalidMapping
  | hostBindingMismatch
  deriving DecidableEq

def InvalidReason.text : InvalidReason → String
  | .invalidMapping => "invalid-mapping"
  | .hostBindingMismatch => "host-binding-mismatch"

inductive NekoTaskMappingDecision where
  | legacy
  | scoped (mapping : NekoTaskScopeMapping)
  | blocked (reason : InvalidReason) (retained : Option NekoTaskScopeMapping)
  deriving DecidableEq

/-! ## As it is saved -/

def JsValue.ofText (text : Option JsText) : JsValue := (text.map .string).getD .null

namespace MappingState

def text : MappingState → String
  | pendingNew => "pending-new"
  | bound _ _ => "bound"
  | pendingLoad _ _ => "pending-load"
  | recoveryRequired _ _ _ => "recovery-required"

def backendSessionId : MappingState → Option JsText
  | pendingNew => none
  | bound backendSessionId _ | pendingLoad backendSessionId _ => some backendSessionId
  | recoveryRequired backendSessionId _ _ => backendSessionId

def receipt : MappingState → Option NekoTaskReceipt
  | pendingNew => none
  | bound _ receipt | pendingLoad _ receipt => some receipt
  | recoveryRequired _ receipt _ => receipt

def reason : MappingState → Option NekoTaskMappingRecoveryReason
  | recoveryRequired _ _ reason => some reason
  | _ => none

def isRecoveryRequired : MappingState → Bool
  | recoveryRequired _ _ _ => true
  | _ => false

end MappingState

def NekoExecutionBinding.toValue (execution : NekoExecutionBinding) : JsValue := .object [
  ("taskId", .string execution.taskId), ("runId", .string execution.runId),
  ("environmentId", .string execution.environmentId)]

def NekoTaskScopeMapping.toValue (mapping : NekoTaskScopeMapping) : JsValue := .object ([
  ("version", .number 1), ("mode", .string (js protocolMode)), ("threadId", .string mapping.identity.threadId),
  ("execution", mapping.identity.execution.toValue), ("projectId", .ofText mapping.identity.projectId),
  ("workspacePath", .string mapping.identity.workspacePath), ("authorizedRoot", .string mapping.authorizedRoot),
  ("label", .string mapping.identity.label), ("state", .string (js mapping.state.text)),
  ("backendSessionId", .ofText mapping.state.backendSessionId),
  ("receipt", (mapping.state.receipt.map NekoTaskReceipt.toValue).getD .null)] ++
  (mapping.state.reason.map fun reason => ("reason", .string (js reason.text))).toList)

/-! ## Reading -/

def isRoot (path : JsText) : Bool := isText 32768 path && isAbsoluteWorkspacePath path

def readRoot : JsValue → Option JsText
  | .string path => if isRoot path then some path else none
  | _ => none

def readExecution (value : JsValue) : Option NekoExecutionBinding := do
  let taskId ← (value.own "taskId").readText 256
  let runId ← (value.own "runId").readText 256
  let environmentId ← (value.own "environmentId").readText 256
  return ⟨taskId, runId, environmentId⟩

def readProjectId : JsValue → Option (Option JsText)
  | .null => some none
  | value => (value.readText 256).map some

def readIdentity (raw : JsValue) : Option (MappingIdentity × JsText) :=
  if (raw.own "version").isNumber 1 && (raw.own "mode").isString protocolMode then do
    let threadId ← (raw.own "threadId").readText 256
    let execution ← readExecution (raw.own "execution")
    let projectId ← readProjectId (raw.own "projectId")
    let workspacePath ← readRoot (raw.own "workspacePath")
    let authorizedRoot ← readRoot (raw.own "authorizedRoot")
    let label ← (raw.own "label").readText 256
    return (⟨threadId, execution, projectId, workspacePath, label⟩, authorizedRoot)
  else none

section

variable (lower : JsText → JsText)

def readAdmission (raw : JsValue) (authorizedRoot label : JsText) : Except TaskError (JsText × NekoTaskReceipt) :=
  match (raw.own "backendSessionId").readText 256 with
  | none => .error (.mapping .invalidMapping)
  | some backendSessionId => do
    let receipt ← receiptValue (raw.own "receipt")
    if canonicalRootsEqual lower receipt.root authorizedRoot = false ∨ receipt.label ≠ label ∨
        receipt.id = backendSessionId ∨ receipt.activationId = backendSessionId then .error (.mapping .invalidMapping)
    else .ok (backendSessionId, receipt)

def readState (raw : JsValue) (workspacePath authorizedRoot label : JsText) : Except TaskError MappingState :=
  let state := raw.own "state"
  if state.isString "pending-new" then
    if !(raw.own "backendSessionId").isNull || !(raw.own "receipt").isNull ||
        !canonicalRootsEqual lower workspacePath authorizedRoot then .error (.mapping .invalidMapping)
    else .ok .pendingNew
  else if state.isString "recovery-required" then
    match NekoTaskMappingRecoveryReason.read (raw.own "reason") with
    | none => .error (.mapping .invalidMapping)
    | some reason =>
      if (raw.own "backendSessionId").isNull && (raw.own "receipt").isNull then
        .ok (.recoveryRequired none none reason)
      else do
        let admission ← readAdmission lower raw authorizedRoot label
        return .recoveryRequired (some admission.1) (some admission.2) reason
  else if state.isString "bound" then do
    let admission ← readAdmission lower raw authorizedRoot label
    return .bound admission.1 admission.2
  else if state.isString "pending-load" then do
    let admission ← readAdmission lower raw authorizedRoot label
    return .pendingLoad admission.1 admission.2
  else .error (.mapping .invalidMapping)

def readMapping (raw : JsValue) : Except TaskError NekoTaskScopeMapping :=
  match readIdentity raw with
  | none => .error (.mapping .invalidMapping)
  | some (identity, authorizedRoot) => do
    let state ← readState lower raw identity.workspacePath authorizedRoot identity.label
    return ⟨identity, authorizedRoot, state⟩

def readRetained (raw : JsValue) : Option NekoTaskScopeMapping :=
  if raw.isUndefined then none else (readMapping lower raw).toOption

def parseNekoTaskMapping (raw : JsValue) : NekoTaskMappingDecision :=
  if raw.isUndefined then .legacy
  else if (raw.own "state").isString "invalid" then
    .blocked (if (raw.own "reason").isString InvalidReason.hostBindingMismatch.text then .hostBindingMismatch
      else .invalidMapping) (readRetained lower (raw.own "retained"))
  else match readMapping lower raw with
    | .ok mapping => .scoped mapping
    | .error _ => .blocked .invalidMapping none

/-! ## Operations -/

def sameHost (mapping : NekoTaskScopeMapping) (host : NekoTaskMappingHost) : Bool :=
  decide (host.providerId = js "neko") && decide (mapping.identity.threadId = host.threadId) &&
    decide (mapping.identity.projectId = host.projectId) &&
    decide ((host.execution.bind fun execution => readExecution execution.toValue) = some mapping.identity.execution) &&
    isRoot host.workspacePath && canonicalRootsEqual lower mapping.identity.workspacePath host.workspacePath

def createPendingNekoTaskMapping (host : NekoTaskMappingHost) (label : JsText) :
    Except TaskError (Option NekoTaskScopeMapping) :=
  if host.providerId ≠ js "neko" then .ok none
  else match host.execution with
    | none => .ok none
    | some execution =>
      match readExecution execution.toValue with
      | none => .error (.mapping .invalidHost)
      | some binding =>
        if !isText 256 host.threadId || !host.projectId.all (isText 256) || !isRoot host.workspacePath then
          .error (.mapping .invalidHost)
        else if !isText 256 label then .error (.protocol .invalidLabel)
        else .ok (some ⟨⟨host.threadId, binding, host.projectId, host.workspacePath, label⟩, host.workspacePath,
          .pendingNew⟩)

def markNekoTaskRecovery (mapping : NekoTaskScopeMapping) (reason : NekoTaskMappingRecoveryReason) :
    Except TaskError NekoTaskScopeMapping := do
  let safe ← readMapping lower mapping.toValue
  return { safe with state := .recoveryRequired safe.state.backendSessionId safe.state.receipt reason }

/-- A pending mapping is marked, for what became of its task is not known. -/
def restoreNekoTaskMapping (raw : JsValue) (host : NekoTaskMappingHost) : Except TaskError NekoTaskMappingDecision :=
  match parseNekoTaskMapping lower raw with
  | .scoped mapping =>
    if !sameHost lower mapping host then .ok (.blocked .hostBindingMismatch (some mapping))
    else match mapping.state with
      | .pendingNew => (markNekoTaskRecovery lower mapping .unfinishedNew).map .scoped
      | .pendingLoad _ _ => (markNekoTaskRecovery lower mapping .unfinishedLoad).map .scoped
      | _ => .ok (.scoped mapping)
  | decision => .ok decision

def beginNekoTaskLoad (mapping : NekoTaskScopeMapping) : Except TaskError NekoTaskScopeMapping := do
  let safe ← readMapping lower mapping.toValue
  match safe.state with
  | .bound backendSessionId receipt | .pendingLoad backendSessionId receipt =>
    .ok { safe with state := .pendingLoad backendSessionId receipt }
  | _ => .error (.mapping .invalidTransition)

def continues (receipt before : NekoTaskReceipt) (isLoad : Bool) : Bool :=
  if isLoad then decide (before.activationEpoch ≠ maxSafeInteger) &&
    decide (receipt.activationEpoch = before.activationEpoch + 1) &&
    decide (receipt.activationId ≠ before.activationId)
  else decide (receipt.activationEpoch = before.activationEpoch) &&
    decide (receipt.activationId = before.activationId)

def bindAgain (safe : NekoTaskScopeMapping) (provenRoot backendSessionId : JsText) (receipt : NekoTaskReceipt)
    (savedSessionId : JsText) (saved : NekoTaskReceipt) (isLoad : Bool) : Except TaskError NekoTaskScopeMapping :=
  if backendSessionId ≠ savedSessionId ∨ receipt.id ≠ saved.id ∨
      canonicalRootsEqual lower provenRoot safe.authorizedRoot = false ∨
      canonicalRootsEqual lower receipt.root saved.root = false then .error (.mapping .taskMismatch)
  else if !continues receipt saved isLoad then .error (.mapping .activationMismatch)
  else .ok { safe with authorizedRoot := provenRoot, state := .bound backendSessionId receipt }

def bindNekoTaskMapping (mapping : NekoTaskScopeMapping) (value : JsValue) (backendSessionId : JsText)
    (authorizedCanonicalRoot : Option JsText) : Except TaskError NekoTaskScopeMapping := do
  let safe ← readMapping lower mapping.toValue
  let receipt ← receiptValue value
  if !isText 256 backendSessionId || decide (backendSessionId = receipt.id) ||
      decide (backendSessionId = receipt.activationId) then .error (.mapping .invalidMapping)
  else if safe.state.isRecoveryRequired then .error (.mapping .invalidTransition)
  else if decide (safe.state = .pendingNew) && authorizedCanonicalRoot.isNone then .error (.mapping .missingRootProof)
  else
    let provenRoot := authorizedCanonicalRoot.getD safe.authorizedRoot
    if !isRoot provenRoot || !canonicalRootsEqual lower receipt.root provenRoot then .error (.mapping .rootMismatch)
    else if receipt.label ≠ safe.identity.label then .error (.mapping .taskMismatch)
    else match safe.state with
      | .pendingNew =>
        if receipt.activationEpoch ≠ 1 then .error (.mapping .activationMismatch)
        else .ok { safe with authorizedRoot := provenRoot, state := .bound backendSessionId receipt }
      | .bound savedSessionId saved => bindAgain lower safe provenRoot backendSessionId receipt savedSessionId saved false
      | .pendingLoad savedSessionId saved =>
        bindAgain lower safe provenRoot backendSessionId receipt savedSessionId saved true
      | .recoveryRequired _ _ _ => .error (.mapping .invalidTransition)

end

/-! ## What is read -/

section

variable {lower : JsText → JsText} {raw : JsValue} {mapping next : NekoTaskScopeMapping} {host : NekoTaskMappingHost}

structure Admitted (lower : JsText → JsText) (authorizedRoot label backendSessionId : JsText)
    (receipt : NekoTaskReceipt) : Prop where
  sessionOk : isText 256 backendSessionId = true
  receiptOk : receipt.Ok
  rootsEqual : canonicalRootsEqual lower receipt.root authorizedRoot = true
  label_eq : receipt.label = label
  id_ne : receipt.id ≠ backendSessionId
  activationId_ne : receipt.activationId ≠ backendSessionId

def StateOk (lower : JsText → JsText) (workspacePath authorizedRoot label : JsText) : MappingState → Prop
  | .pendingNew => canonicalRootsEqual lower workspacePath authorizedRoot = true
  | .bound backendSessionId receipt | .pendingLoad backendSessionId receipt
  | .recoveryRequired (some backendSessionId) (some receipt) _ =>
    Admitted lower authorizedRoot label backendSessionId receipt
  | .recoveryRequired none none _ => True
  | .recoveryRequired _ _ _ => False

structure IdentityOk (identity : MappingIdentity) : Prop where
  threadId : isText 256 identity.threadId = true
  execution : readExecution identity.execution.toValue = some identity.execution
  projectId : identity.projectId.all (isText 256) = true
  workspacePath : isRoot identity.workspacePath = true
  label : isText 256 identity.label = true

structure NekoTaskScopeMapping.Ok (lower : JsText → JsText) (mapping : NekoTaskScopeMapping) : Prop where
  identity : IdentityOk mapping.identity
  authorizedRoot : isRoot mapping.authorizedRoot = true
  state : StateOk lower mapping.identity.workspacePath mapping.authorizedRoot mapping.identity.label mapping.state

theorem readExecution_eq_some {value : JsValue} {execution : NekoExecutionBinding}
    (h : readExecution value = some execution) : readExecution execution.toValue = some execution := by
  unfold readExecution at h
  simp only [Option.bind_eq_bind, Option.bind_eq_some_iff, Option.pure_def, Option.some.injEq] at h
  obtain ⟨taskId, htask, runId, hrun, environmentId, henvironment, rfl⟩ := h
  have htask' : (JsValue.string taskId).readText 256 = some taskId :=
    JsValue.readText_string (JsValue.readText_eq_some htask)
  have hrun' : (JsValue.string runId).readText 256 = some runId :=
    JsValue.readText_string (JsValue.readText_eq_some hrun)
  have henvironment' : (JsValue.string environmentId).readText 256 = some environmentId :=
    JsValue.readText_string (JsValue.readText_eq_some henvironment)
  show (do
    let taskId ← (JsValue.string taskId).readText 256
    let runId ← (JsValue.string runId).readText 256
    let environmentId ← (JsValue.string environmentId).readText 256
    return (⟨taskId, runId, environmentId⟩ : NekoExecutionBinding)) = _
  rw [htask', hrun', henvironment']
  rfl

theorem readProjectId_ofText {projectId : Option JsText} (h : projectId.all (isText 256) = true) :
    readProjectId (.ofText projectId) = some projectId := by
  cases projectId with
  | none => rfl
  | some text =>
    have htext : (JsValue.string text).readText 256 = some text := JsValue.readText_string h
    show ((JsValue.string text).readText 256).map some = _
    rw [htext]
    rfl

/-! ## What is read again -/

theorem readIdentity_toValue (h : IdentityOk mapping.identity) (hroot : isRoot mapping.authorizedRoot = true) :
    readIdentity mapping.toValue = some (mapping.identity, mapping.authorizedRoot) := by
  have hguard : ((mapping.toValue.own "version").isNumber 1 &&
      (mapping.toValue.own "mode").isString protocolMode) = true := by
    rw [Bool.and_eq_true]
    exact ⟨rfl, JsValue.isString_self protocolMode⟩
  have hthread : (mapping.toValue.own "threadId").readText 256 = some mapping.identity.threadId :=
    JsValue.readText_string h.threadId
  have hexecution : readExecution (mapping.toValue.own "execution") = some mapping.identity.execution := h.execution
  have hproject : readProjectId (mapping.toValue.own "projectId") = some mapping.identity.projectId :=
    readProjectId_ofText h.projectId
  have hworkspace : readRoot (mapping.toValue.own "workspacePath") = some mapping.identity.workspacePath :=
    if_pos h.workspacePath
  have hauthorized : readRoot (mapping.toValue.own "authorizedRoot") = some mapping.authorizedRoot := if_pos hroot
  have hlabel : (mapping.toValue.own "label").readText 256 = some mapping.identity.label :=
    JsValue.readText_string h.label
  unfold readIdentity
  rw [if_pos hguard, hthread, hexecution, hproject, hworkspace, hauthorized, hlabel]
  rfl

theorem readAdmission_of_own {authorizedRoot label backendSessionId : JsText} {receipt : NekoTaskReceipt}
    (hsession : raw.own "backendSessionId" = .string backendSessionId) (hreceipt : raw.own "receipt" = receipt.toValue)
    (h : Admitted lower authorizedRoot label backendSessionId receipt) :
    readAdmission lower raw authorizedRoot label = .ok (backendSessionId, receipt) := by
  have hread : (JsValue.string backendSessionId).readText 256 = some backendSessionId :=
    JsValue.readText_string h.sessionOk
  have hguard : ¬ (canonicalRootsEqual lower receipt.root authorizedRoot = false ∨ receipt.label ≠ label ∨
      receipt.id = backendSessionId ∨ receipt.activationId = backendSessionId) := by
    rintro (hroot | hlabel | hid | hactivation)
    · rw [h.rootsEqual] at hroot
      cases hroot
    · exact hlabel h.label_eq
    · exact h.id_ne hid
    · exact h.activationId_ne hactivation
  unfold readAdmission
  rw [hsession, hread, hreceipt, receiptValue_toValue h.receiptOk]
  exact if_neg hguard

theorem readState_toValue (h : StateOk lower mapping.identity.workspacePath mapping.authorizedRoot
    mapping.identity.label mapping.state) : readState lower mapping.toValue mapping.identity.workspacePath
      mapping.authorizedRoot mapping.identity.label = .ok mapping.state := by
  have hstate : ∀ s, (mapping.toValue.own "state").isString s = decide (js mapping.state.text = js s) := fun s => rfl
  have hsession : mapping.toValue.own "backendSessionId" = .ofText mapping.state.backendSessionId := rfl
  have hreceipt : mapping.toValue.own "receipt" = (mapping.state.receipt.map NekoTaskReceipt.toValue).getD .null := rfl
  unfold readState
  dsimp only
  cases hcase : mapping.state with
  | pendingNew =>
    rw [hcase] at h hstate hsession hreceipt
    have hroots : canonicalRootsEqual lower mapping.identity.workspacePath mapping.authorizedRoot = true := h
    rw [if_pos ((hstate _).trans (by decide +kernel)), hsession, hreceipt, hroots]
    rfl
  | bound backendSessionId receipt =>
    rw [hcase] at h hstate hsession hreceipt
    have hstate : ∀ s, (mapping.toValue.own "state").isString s = decide (js "bound" = js s) := hstate
    rw [if_neg (by rw [hstate]; decide +kernel), if_neg (by rw [hstate]; decide +kernel),
      if_pos ((hstate _).trans (by decide +kernel)), readAdmission_of_own hsession hreceipt h]
    rfl
  | pendingLoad backendSessionId receipt =>
    rw [hcase] at h hstate hsession hreceipt
    have hstate : ∀ s, (mapping.toValue.own "state").isString s = decide (js "pending-load" = js s) := hstate
    rw [if_neg (by rw [hstate]; decide +kernel), if_neg (by rw [hstate]; decide +kernel),
      if_neg (by rw [hstate]; decide +kernel), if_pos ((hstate _).trans (by decide +kernel)),
      readAdmission_of_own hsession hreceipt h]
    rfl
  | recoveryRequired backendSessionId receipt reason =>
    have hreason : mapping.toValue.own "reason" = .string (js reason.text) := by
      unfold NekoTaskScopeMapping.toValue
      rw [hcase]
      rfl
    rw [hcase] at h hstate hsession hreceipt
    have hstate : ∀ s, (mapping.toValue.own "state").isString s = decide (js "recovery-required" = js s) := hstate
    rw [if_neg (by rw [hstate]; decide +kernel), if_pos ((hstate _).trans (by decide +kernel)), hreason,
      NekoTaskMappingRecoveryReason.read_text]
    dsimp only
    match backendSessionId, receipt, h with
    | none, none, _ =>
      rw [hsession, hreceipt]
      rfl
    | some backendSessionId, some receipt, h =>
      have hnull : ((mapping.toValue.own "backendSessionId").isNull && (mapping.toValue.own "receipt").isNull) = false := by
        rw [hsession]
        rfl
      rw [hnull, readAdmission_of_own hsession hreceipt h]
      rfl

theorem readMapping_toValue (h : mapping.Ok lower) : readMapping lower mapping.toValue = .ok mapping := by
  rw [readMapping, readIdentity_toValue h.identity h.authorizedRoot]
  dsimp only
  rw [readState_toValue h.state]
  rfl

end

end Wiii.NekoChill
