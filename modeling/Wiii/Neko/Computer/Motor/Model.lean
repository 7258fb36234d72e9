import Mathlib.Data.Finset.Basic
import Mathlib.Data.Rat.Defs
import Wiii.Neko.Computer.WorkPlane

/-!
# Intents, frames and decisions of the motor

The documents that the motor runner exchanges with its caller, its controller and its seat, and what each is
validated for.  Times are in microseconds.  The rate of a report is kept exact, where the source rounds it to a
floating point number.
-/

namespace Wiii.Neko.Computer.Motor

def motorIntentSchema : String := "wiii-motor-intent.v1"
def motorEventSchema : String := "wiii-motor-event.v1"

def maxIdBytes : ℕ := 128
def maxRefBytes : ℕ := 192
def maxInstructionBytes : ℕ := 512
def maxEvidenceItems : ℕ := 8
def maxEvidenceBytes : ℕ := 192
def maxKeys : ℕ := 8

inductive MotorGoalKind where
  | navigate
  | track
  | interact
  | evade
  | hold
  | explore
  deriving DecidableEq

structure MotorGoal where
  kind : MotorGoalKind
  instruction : String
  deriving DecidableEq

inductive MotorTermination where
  | goalReached
  | blocked
  | uncertain
  deriving DecidableEq

inductive MotorInterrupt where
  | humanTakeover
  | policyBoundary
  | surfaceLost
  | leaseLost
  | projectRevoked
  deriving DecidableEq

def MotorInterrupt.asStr : MotorInterrupt → String
  | humanTakeover => "human_takeover"
  | policyBoundary => "policy_boundary"
  | surfaceLost => "surface_lost"
  | leaseLost => "lease_lost"
  | projectRevoked => "project_revoked"

/-- The only risk of an intent is a low one. -/
structure MotorIntent where
  schemaVersion : String
  intentId : String
  stateVersion : String
  targetRef : String
  goal : MotorGoal
  horizonMs : ℕ
  termination : List MotorTermination
  interruptOn : List MotorInterrupt
  deriving DecidableEq

structure MotorLeaseAuthority where
  environmentId : String
  leaseId : String
  projectId : String
  targetRef : String
  expiresAtUs : ℕ
  deriving DecidableEq

structure MotorFrame where
  sequence : ℕ
  stateVersion : String
  targetRef : String
  contentDigest : String
  width : ℕ
  height : ℕ
  captureStartedAtUs : ℕ
  capturedAtUs : ℕ
  deriving DecidableEq

inductive MotorPointerButton where
  | primary
  | secondary
  | middle
  deriving DecidableEq

structure MotorPointerState where
  xPerMille : ℕ
  yPerMille : ℕ
  heldButtons : List MotorPointerButton
  deriving DecidableEq

structure MotorControlState where
  heldKeys : List String
  pointer : Option MotorPointerState
  deriving DecidableEq

/-- `proceed` is the `Continue` of the source. -/
inductive MotorDecisionKind where
  | proceed
  | goalReached
  | blocked
  | uncertain
  deriving DecidableEq

structure MotorDecision where
  frameSequence : ℕ
  inferenceUs : ℕ
  confidencePerMille : ℕ
  kind : MotorDecisionKind
  control : MotorControlState
  evidence : List String
  deriving DecidableEq

inductive MotorCapabilityTier where
  | reactiveCpu
  | visionAction
  | remoteByoc
  deriving DecidableEq

inductive MotorEventKind where
  | started
  | progress
  | terminated
  | uncertain
  | blocked
  | interrupted
  deriving DecidableEq

inductive MotorStopReason where
  | goalReached
  | blocked
  | uncertain
  | cancelled
  | horizonExpired
  | watchdogExpired
  | humanTakeover
  | policyBoundary
  | surfaceLost
  | leaseLost
  | projectRevoked
  | controllerFailed
  | dispatchFailed
  deriving DecidableEq

structure MotorLatencySample where
  captureUs : ℕ
  inferenceUs : ℕ
  dispatchUs : ℕ
  endToEndUs : ℕ
  intentAgeUs : ℕ
  deriving DecidableEq

structure MotorPercentiles where
  p50Us : ℕ
  p95Us : ℕ
  p99Us : ℕ
  deriving DecidableEq

structure MotorLatencyReport where
  capture : MotorPercentiles
  inference : MotorPercentiles
  dispatch : MotorPercentiles
  endToEnd : MotorPercentiles
  deriving DecidableEq

structure MotorRunReport where
  intentId : String
  policyId : String
  tier : MotorCapabilityTier
  processedFrames : ℕ
  droppedFrames : ℕ
  staleActions : ℕ
  achievedHz : ℚ
  heldInputCleanupConfirmed : Bool
  latency : MotorLatencyReport
  stopReason : Option MotorStopReason
  deriving DecidableEq

structure MotorEvent where
  schemaVersion : String
  sequence : ℕ
  intentId : String
  kind : MotorEventKind
  atUs : ℕ
  stateVersion : Option String
  reason : Option MotorStopReason
  confidencePerMille : Option ℕ
  policyId : String
  tier : MotorCapabilityTier
  replayed : Bool
  evidence : List String
  report : Option MotorRunReport
  deriving DecidableEq

/-! ## Validation -/

def validateToken (label value : String) (maxBytes : ℕ) : Except String Unit :=
  if value.isEmpty || decide (maxBytes < value.utf8ByteSize) then
    .error s!"{label} must contain 1..={maxBytes} bytes"
  else if value.toList.any fun c => Signal.isControl c || isWhitespace c then
    .error s!"{label} must be an opaque token without whitespace"
  else .ok ()

def validateText (label value : String) (maxBytes : ℕ) : Except String Unit :=
  if value.toList.all isWhitespace || decide (maxBytes < value.utf8ByteSize) then
    .error s!"{label} must contain 1..={maxBytes} bytes"
  else if value.toList.any fun c => Signal.isControl c && decide (c ≠ '\t') then
    .error s!"{label} contains control characters"
  else .ok ()

def validateUniqueBounded {α : Type} [DecidableEq α] (label : String) (values : List α) (min max : ℕ) :
    Except String Unit :=
  if values.length < min ∨ max < values.length then .error s!"{label} must contain {min}..={max} entries"
  else if ¬ values.Nodup then .error s!"{label} contains duplicate entries"
  else .ok ()

def validateTexts : List String → Except String Unit
  | [] => .ok ()
  | value :: values => do
    validateText "Motor evidence" value maxEvidenceBytes
    validateTexts values

def validateEvidence (values : List String) : Except String Unit :=
  if maxEvidenceItems < values.length then .error "Motor evidence contains too many entries"
  else validateTexts values

def forbiddenNeedles : List String :=
  ["http://", "https://", "file://", "docker://", "leaseid", "lease_id", "environmentid", "environment_id",
    "password=", "token=", "secret=", "api_key", "apikey", "xpath=", "selector=", "click(", "mouse(", "keydown",
    "keyup", "powershell", "cmd.exe", "/bin/", "c:/", "d:/", "e:/", " x=", " y=", " x:", " y:"]

def rejectEmbeddedAuthority (value : String) : Except String Unit :=
  if forbiddenNeedles.any (Signal.containsText (value.map Char.toLower)) || value.toList.contains '\\' then
    .error "Motor goal contains authority, credential, selector or provider data"
  else .ok ()

def requireInterrupts (interruptOn : List MotorInterrupt) : List MotorInterrupt → Except String Unit
  | [] => .ok ()
  | required :: rest =>
    if required ∉ interruptOn then
      .error ("MotorIntent interruptOn must contain \"" ++ required.asStr ++ "\"")
    else requireInterrupts interruptOn rest

def MotorIntent.validate (intent : MotorIntent) : Except String Unit :=
  if intent.schemaVersion ≠ motorIntentSchema then .error "Unsupported MotorIntent schemaVersion"
  else do
    validateToken "intentId" intent.intentId maxIdBytes
    validateToken "stateVersion" intent.stateVersion maxRefBytes
    validateToken "targetRef" intent.targetRef maxRefBytes
    validateText "goal.instruction" intent.goal.instruction maxInstructionBytes
    rejectEmbeddedAuthority intent.goal.instruction
    if intent.horizonMs < 100 ∨ 10000 < intent.horizonMs then
      .error "MotorIntent horizonMs must be between 100 and 10000"
    else do
      validateUniqueBounded "termination" intent.termination 1 8
      validateUniqueBounded "interruptOn" intent.interruptOn 1 8
      requireInterrupts intent.interruptOn [.humanTakeover, .policyBoundary, .surfaceLost]

def MotorLeaseAuthority.validateFor (authority : MotorLeaseAuthority) (intent : MotorIntent) (nowUs : ℕ) :
    Except String Unit := do
  validateToken "environmentId" authority.environmentId maxRefBytes
  validateToken "leaseId" authority.leaseId maxRefBytes
  validateToken "projectId" authority.projectId maxRefBytes
  validateToken "authority.targetRef" authority.targetRef maxRefBytes
  if authority.targetRef ≠ intent.targetRef then .error "Motor target is outside the inherited Computer lease"
  else if authority.expiresAtUs ≤ nowUs then .error "Inherited Computer lease has expired"
  else .ok ()

def MotorFrame.validate (frame : MotorFrame) : Except String Unit := do
  validateToken "frame.stateVersion" frame.stateVersion maxRefBytes
  validateToken "frame.targetRef" frame.targetRef maxRefBytes
  validateToken "frame.contentDigest" frame.contentDigest maxRefBytes
  if frame.sequence = 0 then .error "Motor frame sequence must be positive"
  else if frame.width = 0 ∨ frame.height = 0 ∨ 7680 < frame.width ∨ 4320 < frame.height then
    .error "Motor frame dimensions are outside the supported range"
  else if frame.capturedAtUs < frame.captureStartedAtUs then .error "Motor frame capture timestamps are reversed"
  else .ok ()

/-- The keys of a control, those before each of them being held already. -/
def validateKeys (allowedKeys : Finset String) : List String → List String → Except String Unit
  | _, [] => .ok ()
  | before, key :: keys => do
    validateToken "held key" key 32
    if key ∉ allowedKeys then .error s!"Motor action key is not allowlisted: {key}"
    else if key ∈ before then .error s!"Motor action repeats held key: {key}"
    else validateKeys allowedKeys (key :: before) keys

def MotorControlState.validate (control : MotorControlState) (allowedKeys : Finset String) : Except String Unit :=
  if maxKeys < control.heldKeys.length then .error "Motor action holds too many keys"
  else do
    validateKeys allowedKeys [] control.heldKeys
    match control.pointer with
    | none => .ok ()
    | some pointer =>
      if 1000 < pointer.xPerMille ∨ 1000 < pointer.yPerMille then
        .error "Motor pointer coordinates must be normalized to 0..1000"
      else if 3 < pointer.heldButtons.length then .error "Motor action holds too many pointer buttons"
      else if ¬ pointer.heldButtons.Nodup then .error "Motor action repeats a held pointer button"
      else .ok ()

def MotorDecision.validate (decision : MotorDecision) (allowedKeys : Finset String) : Except String Unit :=
  if decision.inferenceUs = 0 ∨ 10000000 < decision.inferenceUs then
    .error "Motor inference duration is outside the supported range"
  else if 1000 < decision.confidencePerMille then .error "Motor confidence must be normalized to 0..1000"
  else do
    decision.control.validate allowedKeys
    validateEvidence decision.evidence

theorem mem_of_validateKeys {allowedKeys : Finset String} {before keys : List String}
    (h : validateKeys allowedKeys before keys = .ok ()) : ∀ key ∈ keys, key ∈ allowedKeys := by
  induction keys generalizing before with
  | nil => exact fun key hkey => nomatch hkey
  | cons key keys ih =>
    obtain ⟨-, h⟩ := bind_unit_ok_iff.1 h
    obtain ⟨hallowed, h⟩ := ite_error_ok_iff.1 h
    obtain ⟨-, h⟩ := ite_error_ok_iff.1 h
    exact List.forall_mem_cons.2 ⟨not_not.1 hallowed, ih h⟩

theorem MotorDecision.allowed_of_validate {decision : MotorDecision} {allowedKeys : Finset String}
    (h : decision.validate allowedKeys = .ok ()) : ∀ key ∈ decision.control.heldKeys, key ∈ allowedKeys := by
  obtain ⟨-, h⟩ := ite_error_ok_iff.1 h
  obtain ⟨-, h⟩ := ite_error_ok_iff.1 h
  obtain ⟨hcontrol, -⟩ := bind_unit_ok_iff.1 h
  obtain ⟨-, hcontrol⟩ := ite_error_ok_iff.1 hcontrol
  exact mem_of_validateKeys (bind_unit_ok_iff.1 hcontrol).1

end Wiii.Neko.Computer.Motor
