import Wiii.Neko.Computer.WorkPlane

/-!
# What the calls of the computer service carry

The requests of the calls that take or use a computer, the results of its provider, and what a semantic action
is validated for.  The request and the result of a Work Plane transaction are in their own module.
-/

namespace Wiii.Neko.Computer

/-! ## Requests and results of the calls -/

inductive SemanticActionKind where
  | focus
  | invoke
  | setText
  | pressKey
  | inputSequence
  deriving DecidableEq

def SemanticActionKind.asStr : SemanticActionKind → String
  | focus => "focus"
  | invoke => "invoke"
  | setText => "set_text"
  | pressKey => "press_key"
  | inputSequence => "input_sequence"

structure SemanticInputStep where
  keys : List String
  holdMs : ℕ
  waitMs : ℕ
  deriving DecidableEq

inductive SemanticRealtimeMode where
  | continuous
  | stepped
  deriving DecidableEq

structure SemanticActRequest where
  requestId : String
  environmentId : String
  leaseId : String
  stateVersion : String
  targetRef : String
  expectedRole : String
  expectedName : String
  action : SemanticActionKind
  text : Option String
  key : Option String
  inputSequence : List SemanticInputStep
  returnObservation : Bool
  realtimeMode : Option SemanticRealtimeMode
  deriving DecidableEq

inductive SemanticActionOutcome where
  | completed
  | rejected
  deriving DecidableEq

/-- The result of an action; the picture's patch, the clock and the observation are documents. -/
structure SemanticActResult where
  environmentId : String
  outcome : SemanticActionOutcome
  code : Option String
  detail : String
  action : SemanticActionKind
  targetRef : String
  beforeStateVersion : String
  afterStateVersion : String
  verified : Bool
  effect : Option String
  route : Option String
  evidence : List String
  escalation : Option String
  visualPatch : Option Value
  clock : Option Value
  observation : Option Value
  deriving DecidableEq

structure SeatAcquireRequest where
  requestId : String
  environmentId : String
  ownerId : String
  userControlled : Bool
  deriving DecidableEq

structure SeatReleaseRequest where
  requestId : String
  environmentId : String
  leaseId : String
  deriving DecidableEq

structure ComputerProjectRevokeRequest where
  requestId : String
  coworkerId : String
  projectId : String
  deriving DecidableEq

structure ProviderTerminalResult where
  exitCode : Option Int
  stdout : String
  stderr : String
  truncated : Bool
  deriving DecidableEq

/-! ## Validation of an action -/

def supportedSemanticKey (key : String) : Bool :=
  decide (key ∈ ["Alt", "Control", "Shift", "Meta", "ArrowLeft", "ArrowUp", "ArrowRight", "ArrowDown", "Enter",
    "Escape", "Tab", "Space", "Backspace", "Delete", "Home", "End", "PageUp", "PageDown"]) ||
    match key.toList with
    | [c] => !Signal.isControl c
    | _ => false

def validateInputSteps : List SemanticInputStep → Except String Unit
  | [] => .ok ()
  | step :: steps =>
    if step.keys.isEmpty ∨ 3 < step.keys.length then .error "Computer semantic input step must contain 1 to 3 keys"
    else if (step.keys.any fun key => !supportedSemanticKey key) = true then
      .error "Computer semantic input step contains a non-allowlisted key"
    else if ¬ step.keys.Nodup then .error "Computer semantic input step keys must be unique"
    else if step.holdMs < 16 ∨ 2000 < step.holdMs ∨ 1000 < step.waitMs then
      .error "Computer semantic input timing is outside the bounded range"
    else validateInputSteps steps

def validateInput (request : SemanticActRequest) : Except String Unit :=
  match request.action with
  | .setText =>
    match request.text with
    | none => .error "Computer semantic set_text requires text"
    | some text =>
      if 8192 < text.utf8ByteSize then .error "Computer semantic text must be at most 8192 bytes"
      else if request.key.isSome then .error "Computer semantic key is only valid for press_key"
      else if ¬ request.inputSequence.isEmpty then
        .error "Computer semantic inputSequence is only valid for input_sequence"
      else .ok ()
  | .pressKey =>
    match request.key with
    | none => .error "Computer semantic press_key requires key"
    | some key =>
      if ¬ supportedSemanticKey key then .error "Computer semantic key is not allowlisted"
      else if request.text.isSome then .error "Computer semantic text is only valid for set_text"
      else if ¬ request.inputSequence.isEmpty then
        .error "Computer semantic inputSequence is only valid for input_sequence"
      else .ok ()
  | .inputSequence =>
    if request.text.isSome ∨ request.key.isSome then
      .error "Computer semantic input_sequence accepts only inputSequence"
    else if request.inputSequence.isEmpty ∨ 64 < request.inputSequence.length then
      .error "Computer semantic inputSequence must contain 1 to 64 steps"
    else do
      validateInputSteps request.inputSequence
      -- Steps are bounded, so the saturating sum of the source does not saturate.
      if 8000 < (request.inputSequence.map fun step => step.holdMs + step.waitMs).sum then
        .error "Computer semantic inputSequence must finish within 8000 ms"
      else .ok ()
  | .focus | .invoke =>
    if request.text.isSome then .error "Computer semantic text is only valid for set_text"
    else if request.key.isSome then .error "Computer semantic key is only valid for press_key"
    else if ¬ request.inputSequence.isEmpty then
      .error "Computer semantic inputSequence is only valid for input_sequence"
    else .ok ()

def validateRealtimeMode (request : SemanticActRequest) : Except String Unit :=
  if request.realtimeMode.isNone then .ok ()
  else if request.expectedRole ≠ "canvas" ∨ request.action ∉ [.focus, .pressKey, .inputSequence] then
    .error "Computer realtime mode requires a focused canvas keyboard action"
  else if request.realtimeMode = some .stepped ∧ ¬ request.returnObservation then
    .error "Computer stepped realtime mode requires returnObservation"
  else .ok ()

def validateSemanticAction (request : SemanticActRequest) : Except String Unit :=
  if request.stateVersion.utf8ByteSize ≠ 71 ∨ ¬ startsWith "sha256:" request.stateVersion then
    .error "Computer semantic action requires a sha256 stateVersion"
  else if request.targetRef.isEmpty ∨ 100 < request.targetRef.utf8ByteSize then
    .error "Computer semantic targetRef must contain 1 to 100 bytes"
  else if request.expectedRole.isEmpty ∨ 100 < request.expectedRole.utf8ByteSize then
    .error "Computer semantic expectedRole must contain 1 to 100 bytes"
  else if 512 < request.expectedName.utf8ByteSize then
    .error "Computer semantic expectedName must be at most 512 bytes"
  else if request.leaseId.isEmpty ∨ 200 < request.leaseId.utf8ByteSize then
    .error "Computer semantic action requires a valid display lease"
  else do
    validateInput request
    validateRealtimeMode request

end Wiii.Neko.Computer
