import Wiii.NekoChill.SessionLog

/-!
# Commands to the driver of a session

A prompt, a cancel, an answer to a permission request and a change of an option each record an event, save the session
strictly and call the driver; they give way to one another wherever they wait.  What refuses an operation before it
records anything is left out.
-/

namespace Wiii.NekoChill

/-! ## Operations -/

structure KnowledgeContext where
  contextId : JsText
  query : JsText
  renderedContext : JsText
  sources : List KnowledgeSource

inductive SessionCommand where
  | prompt (messageId text : JsText)
  | cancel
  | permission (requestId : JsText) (optionId : Option JsText)
  | config (optionId : JsText) (previousValue value : ModelValue)

namespace SessionCommand

def capability : SessionCommand → DriverCapability
  | prompt .. => .prompt
  | cancel => .cancel
  | permission .. => .permissionResolution
  | config .. => .sessionConfig

end SessionCommand

inductive CommandPhase where
  | retrieving
  | persisting (snapshot : List NekoSessionEvent)
  | persisted
  | configuring
  | committing (snapshot : List NekoSessionEvent)
  | compensating (reason : JsText)
  | compensated (reason : JsText)
  | settled

structure CommandOperation where
  command : SessionCommand
  instanceId : JsText
  phase : CommandPhase
  /-- The event that the operation recorded. -/
  eventId : JsText := []
  knowledgeEventId : Option JsText := none

inductive DriverRequest where
  | prompt (promptEventId : JsText)
  | cancel
  | resolvePermission (requestId : JsText) (optionId : Option JsText)
  | setConfigOption (optionId : JsText) (value : ModelValue)
  deriving DecidableEq

structure DriverCall where
  request : DriverRequest
  instanceId : JsText
  deriving DecidableEq

/-- What the driver is asked once the event is saved. -/
def CommandOperation.request (operation : CommandOperation) : DriverRequest :=
  match operation.command with
  | .prompt .. => .prompt operation.eventId
  | .cancel => .cancel
  | .permission requestId optionId => .resolvePermission requestId optionId
  | .config optionId _ value => .setConfigOption optionId value

/-- The identity and the time of an event that is recorded. -/
structure Stamp where
  eventId : JsText
  time : JsNumber

structure CommandSession where
  /-- `none` once the session is deleted. -/
  log : Option SessionLog
  controls : List (JsText × ModelValue) := []
  /-- The runtime that is bound: its instance and its capabilities. -/
  binding : Option (JsText × List DriverCapability) := none
  pendingPermission : Option JsText := none
  operations : List CommandOperation := []
  /-- The events that an operation recorded, and the runtime that it recorded them for. -/
  stagedOn : List (NekoSessionEvent × JsText) := []
  /-- The events of every strict save that succeeded. -/
  durable : List (List NekoSessionEvent) := []
  calls : List DriverCall := []

inductive CommandAct where
  | beginPrompt (messageId text : JsText)
  | stagePrompt (operation : ℕ) (knowledge : Option KnowledgeContext) (stamp knowledgeStamp : Stamp)
  | cancelTurn (stamp : Stamp)
  | resolvePermission (optionId : Option JsText) (stamp : Stamp)
  | setConfigOption (optionId : JsText) (value : ModelValue) (stamp : Stamp)
  | persistSettles (operation : ℕ) (ok : Bool) (reason : JsText) (stamp : Stamp)
  | dispatch (operation : ℕ) (reason : JsText) (stamp knowledgeStamp : Stamp)
  | driverSettles (operation : ℕ) (ok : Bool) (reason : JsText) (stamp : Stamp)
  | compensate (operation : ℕ) (reason : JsText) (stamp : Stamp)
  | bind (instanceId : JsText) (capabilities : List DriverCapability)
  | unbind
  | askPermission (requestId : Option JsText)
  | reportControls (controls : List (JsText × ModelValue))
  | record (modelVisible : Bool) (data : NekoSessionEventData) (stamp : Stamp)
  | deleteSession

namespace CommandSession

def append (modelVisible : Bool) (data : NekoSessionEventData) (stamp : Stamp) (s : CommandSession) : CommandSession :=
  { s with log := s.log.map (SessionLog.append stamp.eventId stamp.time modelVisible data) }

def remove (eventId : JsText) (s : CommandSession) : CommandSession := { s with log := s.log.map (SessionLog.remove eventId) }

def setPhase (i : ℕ) (operation : CommandOperation) (phase : CommandPhase) (s : CommandSession) : CommandSession :=
  { s with operations := s.operations.set i { operation with phase := phase } }

def requireInstance (s : CommandSession) (instanceId : JsText) (capability : DriverCapability) : Bool :=
  match s.binding with
  | some (bound, capabilities) => decide (bound = instanceId) && decide (capability ∈ capabilities)
  | none => false

def call (request : DriverRequest) (instanceId : JsText) (s : CommandSession) : CommandSession :=
  { s with calls := s.calls ++ [⟨request, instanceId⟩] }

/-- An operation records its event and asks for a strict save of the log that it is then in. -/
def stage (data : NekoSessionEventData) (stamp : Stamp) (command : SessionCommand) (instanceId : JsText)
    (log : SessionLog) (s : CommandSession) : CommandSession :=
  let event := nextEvent log.events log.eventHighWaterMark stamp.eventId stamp.time true data
  let log := log.append stamp.eventId stamp.time true data
  { s with
    log := some log
    stagedOn := s.stagedOn ++ [(event, instanceId)]
    operations := s.operations ++ [⟨command, instanceId, .persisting log.events, stamp.eventId, none⟩] }

/-- `sendPromptToSession`, from where it has a runtime. -/
def beginPrompt (messageId text : JsText) (s : CommandSession) : CommandSession :=
  match s.binding with
  | some (instanceId, _) =>
    { s with operations := s.operations ++ [⟨.prompt messageId text, instanceId, .retrieving, [], none⟩] }
  | none => s

def knowledgeData (knowledge : KnowledgeContext) (instanceId : JsText) : NekoSessionEventData :=
  .knowledgeContext knowledge.contextId knowledge.query knowledge.renderedContext knowledge.sources instanceId true

def stagePrompt (i : ℕ) (knowledge : Option KnowledgeContext) (stamp knowledgeStamp : Stamp) (s : CommandSession) :
    CommandSession :=
  match s.operations[i]?, s.log with
  | some operation, some log =>
    match operation.phase, operation.command with
    | .retrieving, .prompt messageId text =>
      let data : NekoSessionEventData := .modelInput true messageId text (some operation.instanceId) true
      let event := nextEvent log.events log.eventHighWaterMark stamp.eventId stamp.time true data
      let log := log.append stamp.eventId stamp.time true data
      let log := match knowledge with
        | some knowledge => log.append knowledgeStamp.eventId knowledgeStamp.time true
          (knowledgeData knowledge operation.instanceId)
        | none => log
      { s with
        log := some log
        stagedOn := s.stagedOn ++ [(event, operation.instanceId)]
        operations := s.operations.set i { operation with
          phase := .persisting log.events
          eventId := stamp.eventId
          knowledgeEventId := knowledge.map fun _ => knowledgeStamp.eventId } }
    | _, _ => s
  | _, _ => s

def boundPromptId (events : List NekoSessionEvent) (instanceId : JsText) : Option JsText :=
  events.reverse.findSome? fun event => match event.data with
    | .dispatchInvoked targetEventId .prompt providerInstanceId =>
      if providerInstanceId = instanceId then some targetEventId else none
    | _ => none

/-- Whether this prompt of the runtime was already asked to stop. -/
def isLatched (events : List NekoSessionEvent) (instanceId : JsText) (promptEventId : Option JsText) : Bool :=
  events.any fun event => match event.data with
    | .runtimeCommand providerInstanceId target _ =>
      decide (providerInstanceId = instanceId) && decide (target = promptEventId)
    | _ => false

def cancelTurn (stamp : Stamp) (s : CommandSession) : CommandSession :=
  match s.binding, s.log with
  | some (instanceId, _), some log =>
    let promptEventId := boundPromptId log.events instanceId
    if isLatched log.events instanceId promptEventId then s
    else s.stage (.runtimeCommand instanceId promptEventId true) stamp .cancel instanceId log
  | _, _ => s

def resolvePermission (optionId : Option JsText) (stamp : Stamp) (s : CommandSession) : CommandSession :=
  match s.pendingPermission, s.binding, s.log with
  | some requestId, some (instanceId, _), some log =>
    s.stage (.permissionDecision requestId optionId instanceId true) stamp (.permission requestId optionId) instanceId log
  | _, _, _ => s

def setConfigOption (optionId : JsText) (value : ModelValue) (stamp : Stamp) (s : CommandSession) : CommandSession :=
  match s.controls.lookup optionId, s.binding, s.log with
  | some previousValue, some (instanceId, _), some log =>
    if s.requireInstance instanceId .sessionConfig then
      s.stage (.controlChange .requested optionId previousValue value none) stamp (.config optionId previousValue value)
        instanceId log
    else s
  | _, _, _ => s

/-- What was recorded is taken back, or answered, where the driver was not called. -/
def abandon (i : ℕ) (operation : CommandOperation) (reason : JsText) (stamp : Stamp) (s : CommandSession) :
    CommandSession :=
  let s := match operation.command with
    | .config optionId previousValue value =>
      s.append true (.controlChange .rolledBack optionId previousValue value (some reason)) stamp
    | _ => match operation.knowledgeEventId with
      | some knowledgeEventId => (s.remove operation.eventId).remove knowledgeEventId
      | none => s.remove operation.eventId
  s.setPhase i operation .settled

def saved (snapshot : List NekoSessionEvent) (s : CommandSession) : CommandSession :=
  { s with durable := s.durable ++ [snapshot] }

def persistSettles (i : ℕ) (ok : Bool) (reason : JsText) (stamp : Stamp) (s : CommandSession) : CommandSession :=
  match s.operations[i]? with
  | some operation => match operation.phase with
    | .persisting snapshot =>
      if ok then (s.saved snapshot).setPhase i operation .persisted
      else s.abandon i operation reason stamp
    | .committing snapshot =>
      if ok then (s.saved snapshot).setPhase i operation .settled
      else s.setPhase i operation (.compensating reason)
    | _ => s
  | none => s

def mark (operation : CommandOperation) (stamp knowledgeStamp : Stamp) (s : CommandSession) : CommandSession :=
  match operation.command with
  | .prompt .. =>
    let s := s.append true (.dispatchInvoked operation.eventId .prompt operation.instanceId) stamp
    match operation.knowledgeEventId with
    | some knowledgeEventId =>
      s.append true (.dispatchInvoked knowledgeEventId .knowledge operation.instanceId) knowledgeStamp
    | none => s
  | .cancel => s.append true (.dispatchInvoked operation.eventId .cancel operation.instanceId) stamp
  | .permission .. => s.append true (.dispatchInvoked operation.eventId .permission operation.instanceId) stamp
  | .config .. => s

/-- The driver is called if it is still the one, and has the capability. -/
def dispatch (i : ℕ) (reason : JsText) (stamp knowledgeStamp : Stamp) (s : CommandSession) : CommandSession :=
  match s.operations[i]? with
  | some operation => match operation.phase with
    | .persisted =>
      if s.requireInstance operation.instanceId operation.command.capability then
        let s := s.call operation.request operation.instanceId
        (s.mark operation stamp knowledgeStamp).setPhase i operation <| match operation.command with
          | .config .. => .configuring
          | _ => .settled
      else s.abandon i operation reason stamp
    | _ => s
  | none => s

def setControl (optionId : JsText) (value : ModelValue) (s : CommandSession) : CommandSession :=
  { s with controls := s.controls.map fun control => if control.1 = optionId then (control.1, value) else control }

/-- The driver answers `setConfigOption`, the change or its compensation. -/
def driverSettles (i : ℕ) (ok : Bool) (reason : JsText) (stamp : Stamp) (s : CommandSession) : CommandSession :=
  match s.operations[i]? with
  | some operation => match operation.phase, operation.command with
    | .configuring, .config optionId previousValue value =>
      if ok && s.requireInstance operation.instanceId .sessionConfig then
        let s := (s.setControl optionId value).append true
          (.controlChange .committed optionId previousValue value none) stamp
        s.setPhase i operation <| match s.log with
          | some log => .committing log.events
          | none => .compensating reason
      else s.setPhase i operation (.compensating reason)
    | .compensated reason, .config optionId previousValue value =>
      if ok && s.requireInstance operation.instanceId .sessionConfig then
        ((s.setControl optionId previousValue).append true
          (.controlChange .rolledBack optionId previousValue value (some reason)) stamp).setPhase i operation .settled
      else (s.append true (.controlChange .rollbackFailed optionId previousValue value (some reason)) stamp).setPhase i
        operation .settled
    | _, _ => s
  | none => s

/-- The value before is set again, through the instance that was given the other one. -/
def compensate (i : ℕ) (reason : JsText) (stamp : Stamp) (s : CommandSession) : CommandSession :=
  match s.operations[i]? with
  | some operation => match operation.phase, operation.command with
    | .compensating cause, .config optionId previousValue value =>
      if s.requireInstance operation.instanceId .sessionConfig then
        (s.call (.setConfigOption optionId previousValue) operation.instanceId).setPhase i operation (.compensated cause)
      else (s.append true (.controlChange .rollbackFailed optionId previousValue value (some reason)) stamp).setPhase i
        operation .settled
    | _, _ => s
  | none => s

def step (s : CommandSession) : CommandAct → CommandSession
  | .beginPrompt messageId text => s.beginPrompt messageId text
  | .stagePrompt i knowledge stamp knowledgeStamp => s.stagePrompt i knowledge stamp knowledgeStamp
  | .cancelTurn stamp => s.cancelTurn stamp
  | .resolvePermission optionId stamp => s.resolvePermission optionId stamp
  | .setConfigOption optionId value stamp => s.setConfigOption optionId value stamp
  | .persistSettles i ok reason stamp => s.persistSettles i ok reason stamp
  | .dispatch i reason stamp knowledgeStamp => s.dispatch i reason stamp knowledgeStamp
  | .driverSettles i ok reason stamp => s.driverSettles i ok reason stamp
  | .compensate i reason stamp => s.compensate i reason stamp
  | .bind instanceId capabilities => { s with binding := some (instanceId, capabilities) }
  | .unbind => { s with binding := none }
  | .askPermission requestId => { s with pendingPermission := requestId }
  | .reportControls controls => { s with controls := controls }
  | .record modelVisible data stamp => s.append modelVisible data stamp
  | .deleteSession => { s with log := none }

def run (log : SessionLog) (acts : List CommandAct) : CommandSession := acts.foldl step { log := some log }

/-! ## What is claimed -/

def Stages (event : NekoSessionEvent) (instanceId : JsText) : DriverRequest → Prop
  | .prompt promptEventId => event.eventId = promptEventId ∧
    ∃ messageId text, event.data = .modelInput true messageId text (some instanceId) true
  | .cancel => ∃ promptEventId, event.data = .runtimeCommand instanceId promptEventId true
  | .resolvePermission requestId optionId => event.data = .permissionDecision requestId optionId instanceId true
  | .setConfigOption optionId value =>
    ∃ previousValue, event.data = .controlChange .requested optionId previousValue value none

/-- The event asks to change the option from this value, to be set again. -/
def Undoes (s : CommandSession) (event : NekoSessionEvent) (instanceId : JsText) : DriverRequest → Prop
  | .setConfigOption optionId value => ∃ nextValue, event.data = .controlChange .requested optionId value nextValue none ∧
    ⟨.setConfigOption optionId nextValue, instanceId⟩ ∈ s.calls
  | _ => False

/-- Before every call its event was saved strictly, for the runtime that is called. -/
def WrittenAhead (s : CommandSession) : Prop :=
  ∀ call ∈ s.calls, ∃ snapshot ∈ s.durable, ∃ event ∈ snapshot, (event, call.instanceId) ∈ s.stagedOn ∧
    Stages event call.instanceId call.request

/-- The same, but a change of an option may be undone without an event of its own. -/
def WrittenOrUndone (s : CommandSession) : Prop :=
  ∀ call ∈ s.calls, ∃ snapshot ∈ s.durable, ∃ event ∈ snapshot, (event, call.instanceId) ∈ s.stagedOn ∧
    (Stages event call.instanceId call.request ∨ s.Undoes event call.instanceId call.request)

end CommandSession

end Wiii.NekoChill
