import Wiii.NekoChill.TaskProtocol

/-!
# The driver of an ACP agent

A driver is started once, runs one prompt at a time, answers what its agent asks for and is disposed.  Where the source
waits, the rest is a step of its own, and an act that has nothing to act on leaves the driver as it is.  `turns`,
`forwarded`, `cancelled`, `completed` and the turn of a permission request are kept for what is said of runs.
-/

namespace Wiii.NekoChill

/-! ## Agents and turns -/

inductive Admission where
  | unstarted
  | starting
  | admitted
  | failed
  deriving DecidableEq

/-- The methods of `METHOD_SET`. -/
inductive ComputerMethod where
  | status
  | observe
  | acquire
  | act
  | release
  | historyStatus
  | historyQuery
  | describe
  | query
  | execute
  | consult
  | catalog
  | run
  deriving DecidableEq

def ComputerMethod.mutating : ComputerMethod → Bool
  | .acquire | .act | .execute | .run => true
  | _ => false

inductive TurnStopReason where
  | endTurn
  | maxTokens
  | maxTurnRequests
  | refusal
  | cancelled
  | error
  deriving DecidableEq

namespace TurnStopReason

def text : TurnStopReason → String
  | endTurn => "end_turn"
  | maxTokens => "max_tokens"
  | maxTurnRequests => "max_turn_requests"
  | refusal => "refusal"
  | cancelled => "cancelled"
  | error => "error"

/-- `STOP_REASONS`, and `error` for anything else. -/
def read (value : JsValue) : TurnStopReason :=
  ([endTurn, maxTokens, maxTurnRequests, refusal, cancelled].find? fun reason => value.isString reason.text).getD error

end TurnStopReason

inductive PromptPhase where
  | cleaning (cleanup : ℕ)
  | answering
  | revoking (cleanup : ℕ) (stopReason : TurnStopReason)
  deriving DecidableEq

structure Turn where
  number : ℕ
  promptEventId : Option JsText
  promptReceipt : Option NekoTaskReceipt
  phase : PromptPhase
  deriving DecidableEq

def Turn.isCompleted (turn : Turn) : Bool :=
  match turn.phase with
  | .revoking _ _ => true
  | _ => false

structure PendingPermission where
  requestId : ℕ
  offered : List JsText
  /-- The turn it was raised in. -/
  turn : Option ℕ
  deriving DecidableEq

/-- How a permission request was answered; one that is refused at once has no number. -/
inductive PermissionAnswer where
  | cancelled (requestId : Option ℕ)
  | selected (requestId : ℕ) (optionId : JsText)
  deriving DecidableEq

inductive AcpEvent where
  | turnStarted (turn : ℕ) (promptEventId : Option JsText)
  | turnFinished (turn : ℕ) (stopReason : TurnStopReason) (promptEventId : Option JsText)
  | turnError (turn : ℕ) (fatal : Bool)
  | permissionRequest (requestId : ℕ) (options : List JsText)
  | admissionError
  | processExited
  deriving DecidableEq

structure ForwardedRequest where
  request : ℕ
  method : ComputerMethod
  /-- The turn that ran, and whether its prompt had been answered. -/
  turn : Option ℕ
  completed : Bool
  deriving DecidableEq

structure AcpConfig where
  /-- Whether the driver has a task scope. -/
  taskScope : Bool
  /-- Whether it has a computer bridge. -/
  bridge : Bool
  toLowerCase : JsText → JsText

structure AcpDriver where
  admission : Admission := .unstarted
  startPending : Bool := false
  acpSessionId : Option JsText := none
  taskReceipt : Option NekoTaskReceipt := none
  disposed : Bool := false
  turns : ℕ := 0
  /-- The turn that runs: `turnRunning`. -/
  turn : Option Turn := none
  /-- The turn whose authority was not aborted. -/
  turnAuthority : Option ℕ := none
  requests : ℕ := 0
  computerRequests : List ℕ := []
  /-- What each cleanup waits for; a cleanup is known by how many there were with it. -/
  snapshots : List (List ℕ) := []
  /-- How the cleanups ended that ended, in their order. -/
  outcomes : List Bool := []
  permissionSeq : ℕ := 0
  pendingPermissions : List PendingPermission := []
  events : List AcpEvent := []
  answers : List PermissionAnswer := []
  forwarded : List ForwardedRequest := []
  cancelled : List ℕ := []
  completed : List ℕ := []
  deriving DecidableEq

inductive AcpAct where
  | start
  | admitSession (sessionId : JsText) (receipt : Option NekoTaskReceipt)
  | admissionOverflow
  | endStart
  | prompt (text : JsText) (promptEventId : Option JsText)
  | wake
  | answer (result : Option JsValue)
  | finish
  | cancel
  | exit
  | dispose
  | computerRequest (method : ComputerMethod)
  | settleRequest (request : ℕ)
  | settleCleanup (ok : Bool)
  | requestPermission (params : JsValue)
  | resolvePermission (requestId : ℕ) (optionId : Option JsText)

namespace AcpDriver

/-! ## Parts of the steps -/

/-- `assertAdmitted` -/
def isAdmitted (s : AcpDriver) : Bool := !s.disposed && decide (s.admission = .admitted)

def cleanupOutcome (s : AcpDriver) : ℕ → Option Bool
  | 0 => some true
  | cleanup + 1 => s.outcomes[cleanup]?

def revokeComputer (s : AcpDriver) : AcpDriver :=
  { s with turnAuthority := none, snapshots := s.snapshots ++ [s.computerRequests] }

def abortAdmission (s : AcpDriver) : AcpDriver :=
  if s.admission = .starting then { s with admission := .failed } else s

def refusePermissions (s : AcpDriver) : AcpDriver := { s with
  answers := s.answers ++ s.pendingPermissions.map fun pending => .cancelled (some pending.requestId)
  pendingPermissions := [] }

def emit (s : AcpDriver) (event : AcpEvent) : AcpDriver := { s with events := s.events ++ [event] }

/-- The `finally` of a prompt, up to where it waits. -/
def endPrompt (s : AcpDriver) (turn : Turn) (stopReason : TurnStopReason) : AcpDriver := { s.revokeComputer with
  turn := some { turn with phase := .revoking (s.snapshots.length + 1) stopReason }
  completed := s.completed ++ [turn.number] }

def failPrompt (c : AcpConfig) (s : AcpDriver) (turn : Turn) : AcpDriver :=
  (s.emit (.turnError turn.number (c.taskScope && decide (s.admission = .failed)))).endPrompt turn .error

/-- An answer whose receipt is not the task's. -/
def rejectAnswer (s : AcpDriver) : AcpDriver :=
  { s with admission := .failed, acpSessionId := none }.refusePermissions

/-! ## Steps -/

def start (s : AcpDriver) : AcpDriver :=
  if s.disposed || decide (s.admission ≠ .unstarted) then s
  else { s with admission := .starting, startPending := true }

/-- `startSession` has a session, and with a task scope a receipt that was committed. -/
def admitSession (c : AcpConfig) (sessionId : JsText) (receipt : Option NekoTaskReceipt) (s : AcpDriver) : AcpDriver :=
  if !s.startPending || s.disposed || decide (s.admission ≠ .starting) || sessionId.isEmpty ||
      receipt.isSome != c.taskScope then s
  else { s with admission := .admitted, acpSessionId := some sessionId, taskReceipt := receipt }

def admissionOverflow (s : AcpDriver) : AcpDriver :=
  if s.disposed || decide (s.admission ≠ .starting) then s
  else { s with admission := .failed }.emit .admissionError

def endStart (s : AcpDriver) : AcpDriver :=
  if !s.startPending then s
  else if s.isAdmitted then { s with startPending := false }
  else { s with startPending := false, admission := .failed, acpSessionId := none }

def prompt (c : AcpConfig) (text : JsText) (promptEventId : Option JsText) (s : AcpDriver) : AcpDriver :=
  if !s.isAdmitted || s.acpSessionId.isNone || isFixedTaskCommand text c.taskScope ||
      (c.taskScope && s.taskReceipt.isNone) || s.turn.isSome then s
  else { s with
    turns := s.turns + 1
    turn := some ⟨s.turns, promptEventId, s.taskReceipt, .cleaning s.snapshots.length⟩
    turnAuthority := some s.turns }

def wake (c : AcpConfig) (s : AcpDriver) : AcpDriver :=
  match s.turn with
  | some turn => match turn.phase with
    | .cleaning cleanup => match s.cleanupOutcome cleanup with
      | none => s
      | some ok =>
        if !ok || decide (s.turnAuthority ≠ some turn.number) || !s.isAdmitted then s.failPrompt c turn
        else { s with turn := some { turn with phase := .answering } }.emit (.turnStarted turn.number turn.promptEventId)
    | _ => s
  | none => s

def isCurrent (c : AcpConfig) (s : AcpDriver) (turn : Turn) (result : JsValue) : Bool :=
  match turn.promptReceipt with
  | none => true
  | some receipt => s.isAdmitted && (assertNekoTaskCurrentReceipt c.toLowerCase result receipt).isOk

def answer (c : AcpConfig) (result : Option JsValue) (s : AcpDriver) : AcpDriver :=
  match s.turn with
  | some turn => match turn.phase, result with
    | .answering, none => s.failPrompt c turn
    | .answering, some value =>
      if s.isCurrent c turn value then s.endPrompt turn (.read (value.own "stopReason"))
      else s.rejectAnswer.failPrompt c turn
    | _, _ => s
  | none => s

def finish (c : AcpConfig) (s : AcpDriver) : AcpDriver :=
  match s.turn with
  | some turn => match turn.phase with
    | .revoking cleanup stopReason => match s.cleanupOutcome cleanup with
      | none => s
      | some false => { s with turn := none }.emit (.turnError turn.number true)
      | some true =>
        if c.taskScope && decide (s.admission = .failed) then { s with turn := none }
        else { s with turn := none }.emit (.turnFinished turn.number stopReason turn.promptEventId)
    | _ => s
  | none => s

def cancel (s : AcpDriver) : AcpDriver :=
  match s.acpSessionId, s.turn with
  | some _, some turn => { s.revokeComputer with cancelled := s.cancelled ++ [turn.number] }
  | _, _ => s

def exit (s : AcpDriver) : AcpDriver :=
  ({ s with disposed := true }.abortAdmission.revokeComputer).emit .processExited

def dispose (s : AcpDriver) : AcpDriver :=
  { s with disposed := true }.abortAdmission.refusePermissions.revokeComputer

/-- `handleAgentRequest` for a method of the computer. -/
def computerRequest (c : AcpConfig) (method : ComputerMethod) (s : AcpDriver) : AcpDriver :=
  if !c.bridge || s.disposed || (method.mutating && (s.turn.isNone || s.turnAuthority.isNone)) then s
  else { s with
    requests := s.requests + 1
    computerRequests := s.computerRequests ++ [s.requests]
    forwarded := s.forwarded ++
      [⟨s.requests, method, s.turn.map Turn.number, (s.turn.map Turn.isCompleted).getD false⟩] }

def settleRequest (request : ℕ) (s : AcpDriver) : AcpDriver :=
  { s with computerRequests := s.computerRequests.filter fun pending => decide (pending ≠ request) }

/-- The cleanups end in order, each after its requests; the bridge may fail. -/
def settleCleanup (c : AcpConfig) (ok : Bool) (s : AcpDriver) : AcpDriver :=
  match s.snapshots[s.outcomes.length]? with
  | none => s
  | some snapshot =>
    if snapshot.any (fun request => decide (request ∈ s.computerRequests)) || (!ok && !c.bridge) then s
    else { s with outcomes := s.outcomes ++ [ok] }

/-- The options of a permission request, or nothing where reading them throws. -/
def readOptions (params : JsValue) : Option (List JsText) :=
  match params.own "options" with
  | .undefined | .null => some []
  | .array options => some (options.filterMap fun option => match option.own "optionId" with
    | .string optionId => some optionId
    | _ => none)
  | _ => none

/-- Whether a permission request is of the session, and of the task. -/
def isBound (c : AcpConfig) (s : AcpDriver) (params : JsValue) : Bool :=
  match params.own "sessionId", s.acpSessionId with
  | .string sessionId, some acpSessionId =>
    s.isAdmitted && !sessionId.isEmpty && decide (sessionId = acpSessionId) && (!c.taskScope ||
      match s.taskReceipt with
      | none => false
      | some receipt => (assertNekoTaskEventBinding c.toLowerCase params acpSessionId receipt).isOk)
  | _, _ => false

/-- `handleAgentRequest` for `session/request_permission`. -/
def requestPermission (c : AcpConfig) (params : JsValue) (s : AcpDriver) : AcpDriver :=
  if !s.isBound c params then { s with answers := s.answers ++ [.cancelled none] }
  else match readOptions params with
    | none => { s with permissionSeq := s.permissionSeq + 1 }
    | some offered => { s with
        permissionSeq := s.permissionSeq + 1
        pendingPermissions := s.pendingPermissions ++ [⟨s.permissionSeq + 1, offered, s.turn.map Turn.number⟩]
        events := s.events ++ [.permissionRequest (s.permissionSeq + 1) offered] }

def decision (c : AcpConfig) (s : AcpDriver) (pending : PendingPermission) (optionId : Option JsText) :
    PermissionAnswer :=
  if c.taskScope && !s.isAdmitted then .cancelled (some pending.requestId)
  else match optionId with
    | none => .cancelled (some pending.requestId)
    | some option =>
      if option ∈ pending.offered then .selected pending.requestId option else .cancelled (some pending.requestId)

def findPermission (s : AcpDriver) (requestId : ℕ) : Option PendingPermission :=
  s.pendingPermissions.find? fun pending => decide (pending.requestId = requestId)

def resolvePermission (c : AcpConfig) (requestId : ℕ) (optionId : Option JsText) (s : AcpDriver) : AcpDriver :=
  match s.findPermission requestId with
  | none => s
  | some pending => { s with
      pendingPermissions := s.pendingPermissions.filter fun other => decide (other.requestId ≠ requestId)
      answers := s.answers ++ [s.decision c pending optionId] }

def step (c : AcpConfig) (s : AcpDriver) : AcpAct → AcpDriver
  | .start => s.start
  | .admitSession sessionId receipt => s.admitSession c sessionId receipt
  | .admissionOverflow => s.admissionOverflow
  | .endStart => s.endStart
  | .prompt text promptEventId => s.prompt c text promptEventId
  | .wake => s.wake c
  | .answer result => s.answer c result
  | .finish => s.finish c
  | .cancel => s.cancel
  | .exit => s.exit
  | .dispose => s.dispose
  | .computerRequest method => s.computerRequest c method
  | .settleRequest request => s.settleRequest request
  | .settleCleanup ok => s.settleCleanup c ok
  | .requestPermission params => s.requestPermission c params
  | .resolvePermission requestId optionId => s.resolvePermission c requestId optionId

def run (c : AcpConfig) (acts : List AcpAct) : AcpDriver := acts.foldl (step c) {}

end AcpDriver

end Wiii.NekoChill
