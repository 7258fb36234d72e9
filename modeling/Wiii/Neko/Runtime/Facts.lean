import Wiii.Neko.Lifecycle
import Wiii.Neko.Payload

/-!
# Pending terminal facts

What the runtime knows of the end of a session before it is committed: the fact, its encoding in the journal and the
five places that build one (`TerminalCause`).  A fact that a termination could not be proven carries the error text.
-/

namespace Wiii.Neko

structure PendingRequestCompletion where
  requestId : String
  result : Value
  deriving DecidableEq

structure PendingRequestFailure where
  requestId : String
  errorCode : String
  deriving DecidableEq

structure PendingTerminalFact where
  nextState : RunState
  phase : OperationPhase
  continuity : String
  eventType : String
  payload : Value
  providerVersion : Option String
  requestCompletion : Option PendingRequestCompletion
  requestFailure : Option PendingRequestFailure
  deriving DecidableEq

/-! ## The encoding in the journal -/

namespace PendingRequestCompletion

def toValue (completion : PendingRequestCompletion) : Value :=
  .object [("requestId", .string completion.requestId), ("result", completion.result)]

def fromValue (value : Value) : Option PendingRequestCompletion := do
  let requestId ← (← value.field? "requestId").asString
  let result ← value.field? "result"
  return { requestId, result }

end PendingRequestCompletion

namespace PendingRequestFailure

def toValue (failure : PendingRequestFailure) : Value :=
  .object [("errorCode", .string failure.errorCode), ("requestId", .string failure.requestId)]

def fromValue (value : Value) : Option PendingRequestFailure := do
  let requestId ← (← value.field? "requestId").asString
  let errorCode ← (← value.field? "errorCode").asString
  return { requestId, errorCode }

end PendingRequestFailure

namespace PendingTerminalFact

def requestId (fact : PendingTerminalFact) : Option String :=
  (fact.requestCompletion.map PendingRequestCompletion.requestId).or
    (fact.requestFailure.map PendingRequestFailure.requestId)

def toValue (fact : PendingTerminalFact) : Value :=
  .object [("continuity", .string fact.continuity), ("eventType", .string fact.eventType),
    ("nextState", .string fact.nextState.asStr), ("payload", fact.payload),
    ("phase", .string fact.phase.asStr), ("providerVersion", Value.ofOption fact.providerVersion),
    ("requestCompletion", (fact.requestCompletion.map PendingRequestCompletion.toValue).getD .null),
    ("requestFailure", (fact.requestFailure.map PendingRequestFailure.toValue).getD .null)]

def fromValue (value : Value) : Option PendingTerminalFact := do
  let nextState ← RunState.parse (← (← value.field? "nextState").asString)
  let phase ← OperationPhase.parse (← (← value.field? "phase").asString)
  let continuity ← (← value.field? "continuity").asString
  let eventType ← (← value.field? "eventType").asString
  let payload ← value.field? "payload"
  let providerVersion ← Value.optional Value.asString (value.field? "providerVersion")
  let requestCompletion ←
    Value.optional PendingRequestCompletion.fromValue (value.field? "requestCompletion")
  let requestFailure ← Value.optional PendingRequestFailure.fromValue (value.field? "requestFailure")
  return { nextState, phase, continuity, eventType, payload, providerVersion, requestCompletion
           requestFailure }

@[simp] theorem fromValue_toValue (fact : PendingTerminalFact) :
    fromValue fact.toValue = some fact := by
  obtain ⟨nextState, phase, continuity, eventType, payload, version, completion, failure⟩ := fact
  cases version <;> cases completion <;> cases failure <;>
    simp [fromValue, toValue, Value.field?, Value.asString, Value.optional, Value.ofOption,
      PendingRequestCompletion.toValue, PendingRequestCompletion.fromValue,
      PendingRequestFailure.toValue, PendingRequestFailure.fromValue, List.lookup_cons]

end PendingTerminalFact

/-! ## What the runtime records -/

def stateChanged : String := "run.state_changed"

def boundedError (error : String) : String := String.ofList (error.toList.take 4096)

/-- What `kill_proc` answers for the termination of a process tree. -/
def killProc : Except String Unit → Except String Unit
  | .ok () => .ok ()
  | .error error => .error s!"terminate provider process tree failed: {boundedError error}"

def statePayload (state reason : String) : Value :=
  .object [("reason", .string reason), ("state", .string state)]

def unknownOutcomePayload (reason detail : String) : Value :=
  .object [("detail", .string detail), ("reason", .string reason),
    ("state", .string "unknown_outcome")]

def failedFact (reason : String) (providerVersion : Option String)
    (requestFailure : Option PendingRequestFailure) : PendingTerminalFact where
  nextState := .failed
  phase := .failed
  continuity := "continuity_lost"
  eventType := stateChanged
  payload := statePayload "failed" reason
  providerVersion := providerVersion
  requestCompletion := none
  requestFailure := requestFailure

def unknownOutcomeFact (reason error : String) : PendingTerminalFact where
  nextState := .unknownOutcome
  phase := .unknownOutcome
  continuity := "unknown_outcome"
  eventType := stateChanged
  payload := unknownOutcomePayload reason (boundedError error)
  providerVersion := none
  requestCompletion := none
  requestFailure := none

def cancelledFact (reason : String) (requestCompletion : Option PendingRequestCompletion) :
    PendingTerminalFact where
  nextState := .cancelled
  phase := .completed
  continuity := "active"
  eventType := stateChanged
  payload := statePayload "cancelled" reason
  providerVersion := none
  requestCompletion := requestCompletion
  requestFailure := none

def terminalFactForTermination (termination : Except String Unit)
    (provenReason unprovenReason : String) : PendingTerminalFact :=
  match termination with
  | .ok () => failedFact provenReason none none
  | .error error => unknownOutcomeFact unprovenReason error

/-- The fact that `kill_all` records. -/
def applicationExitFact : Except String Unit → PendingTerminalFact
  | .ok () => cancelledFact "application_exit" none
  | .error error => unknownOutcomeFact "shutdown_termination_unproven" error

def sessionCancelResult (agentSessionId : String) (cancelled : Bool) : Value :=
  .object [("agentSessionId", .string agentSessionId), ("cancelled", .bool cancelled)]

/-- How far a spawn had come when it failed. -/
inductive SpawnStage where
  | spawn
  | stdio
  | writer
  | stderr
  | reader
  | monitor
  | commit
  deriving DecidableEq

namespace SpawnStage

def reason : SpawnStage → String
  | spawn => "provider_unavailable"
  | stdio => "provider_stdio_unavailable"
  | writer => "provider_writer_unavailable"
  | stderr => "provider_stderr_unavailable"
  | reader => "provider_reader_unavailable"
  | monitor => "provider_monitor_unavailable"
  | commit => "ownership_commit_failed"

/-- What failed, with the error of the host or of the journal. -/
def message (stage : SpawnStage) (error : String) : String :=
  match stage with
  | spawn => s!"spawn approved provider failed: {error}"
  | stdio => "provider stdio became unavailable after spawn"
  | writer => s!"provider writer thread could not start: {error}"
  | stderr => s!"provider stderr capture thread could not start: {error}"
  | reader => s!"provider reader thread could not start: {error}"
  | monitor => s!"provider monitor thread could not start: {error}"
  | commit => s!"provider spawned but ownership commit failed: {error}"

end SpawnStage

/-- Why the monitor took a process. -/
inductive ExitReason where
  | exited
  | statusUnavailable
  deriving DecidableEq

def ExitReason.text : ExitReason → String
  | exited => "provider_process_exited"
  | statusUnavailable => "provider_process_status_unavailable"

/-- The places that build a pending terminal fact, with what the host told them. -/
inductive TerminalCause where
  | processExited (reason : ExitReason) (termination : Except String Unit)
  | protocolFailure (termination : Except String Unit)
  | applicationExit (termination : Except String Unit)
  | spawnFailed (requestId : String) (stage : SpawnStage) (providerVersion : Option String)
  | cancelRequested (requestId agentSessionId : String)

namespace TerminalCause

def fact : TerminalCause → PendingTerminalFact
  | processExited reason termination =>
    terminalFactForTermination (termination.mapError boundedError) reason.text
      "exit_termination_unproven"
  | protocolFailure termination =>
    terminalFactForTermination (killProc termination) "provider_protocol_failure"
      "protocol_failure_termination_unproven"
  | applicationExit termination => applicationExitFact (killProc termination)
  | spawnFailed requestId stage providerVersion =>
    failedFact stage.reason providerVersion (some ⟨requestId, stage.reason⟩)
  | cancelRequested requestId agentSessionId =>
    cancelledFact "requested" (some ⟨requestId, sessionCancelResult agentSessionId true⟩)

end TerminalCause

/-! ## Which payloads the journal accepts -/

theorem length_le_utf8Len (cs : List Char) : cs.length ≤ String.utf8Len cs := by
  induction cs with
  | nil => simp
  | cons c cs ih =>
    have h := Char.utf8Size_pos c
    rw [List.length_cons, String.utf8Len_cons]
    omega

theorem eventType_fact (cause : TerminalCause) : cause.fact.eventType = stateChanged := by
  cases cause with
  | processExited _ termination | protocolFailure termination | applicationExit termination =>
    cases termination <;> rfl
  | spawnFailed _ _ _ | cancelRequested _ _ => rfl

end Wiii.Neko
