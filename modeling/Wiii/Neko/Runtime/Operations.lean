import Wiii.Neko.Runtime.State

/-!
# The operations of the runtime

Each operation as the critical sections it runs under the lifecycle lock.  What an operation that releases the lock in
between carries across stands in `Runtime.starts`, `writes`, `exits` and `kills`, and what the host answered in the
meantime is the argument of its next section: of the termination of a process tree an error text if it is not proven.
-/

namespace Wiii.Neko.Runtime

open Program Journal

abbrev Action (α : Type) : Type := Program Database Runtime α

/-! ## Building blocks -/

def readSession (agentSessionId : String) : Action (Except String (Option SessionRecord)) :=
  call fun _ db => .ok (db.session agentSessionId, db)

def emitControlEvent (streamId eventType agentSessionId : String) (payload : Value) :
    Action (Except String Unit) :=
  (call (appendEvent streamId eventType streamId (some agentSessionId) payload)).andThen
    fun _ => pure (.ok ())

def transitionSessionEvent (c : SessionCommit) : Action (Except String Unit) :=
  (call (updateSessionWithEvent c)).andThen fun _ => pure (.ok ())

/-- The errors among the results, in order. -/
def failures (results : List (Except String Unit)) : List String :=
  results.filterMap fun result =>
    match result with
    | .ok () => none
    | .error error => some error

def factCommit (agentSessionId : String) (fact : PendingTerminalFact) : SessionCommit where
  agentSessionId := agentSessionId
  nextState := fact.nextState
  phase := fact.phase
  continuity := fact.continuity
  pid := none
  providerVersion := fact.providerVersion
  eventType := fact.eventType
  payload := fact.payload

def commitFact (agentSessionId : String) (fact : PendingTerminalFact) (tick : Tick)
    (db : Database) : Except String (ControlEvent × Database) :=
  match fact.requestCompletion with
  | some completion =>
    completeRequestWithSessionEvent (factCommit agentSessionId fact) completion.requestId
      completion.result tick db
  | none =>
    match fact.requestFailure with
    | some failure =>
      failRequestWithSessionEvent (factCommit agentSessionId fact) failure.requestId
        failure.errorCode tick db
    | none => updateSessionWithEvent (factCommit agentSessionId fact) tick db

/-- The transaction that releases a fact whose session is already terminal. -/
def reconcileFact (agentSessionId : String) (fact : PendingTerminalFact) (tick : Tick)
    (db : Database) : Except String (Unit × Database) :=
  match fact.requestCompletion with
  | some completion =>
    reconcileTerminalRequest agentSessionId completion.requestId completion.result tick db
  | none =>
    match fact.requestFailure with
    | some failure =>
      reconcileTerminalRequestFailure agentSessionId failure.requestId failure.errorCode tick db
    | none => removeTerminalFact agentSessionId tick db

/-- Retains the fact, then commits it.  It stays in memory until it is committed. -/
def persistTerminalFact (agentSessionId : String) (fact : PendingTerminalFact) :
    Action (Except String Unit) := do
  let retention ← call (retainTerminalFact agentSessionId fact.requestId fact.toValue)
  update (hold agentSessionId fact)
  match ← call (commitFact agentSessionId fact) with
  | .ok _ =>
    update (release agentSessionId)
    pure (.ok ())
  | .error error =>
    match retention with
    | .ok () => pure (.error error)
    | .error retention =>
      pure (.error s!"{error}; retaining the verified terminal fact also failed: {retention}")

/-- Commits the fact that is held for the session, if there is one. -/
def flushPendingTerminalFact (agentSessionId : String) : Action (Except String Bool) := do
  match ← asks fun runtime => runtime.pendingTerminalFacts agentSessionId with
  | none => pure (.ok false)
  | some fact =>
    (readSession agentSessionId).andThen fun session =>
      if session.any fun row => row.state.isTerminal then
        (call (reconcileFact agentSessionId fact)).andThen fun _ => do
          update (release agentSessionId)
          pure (.ok true)
      else (persistTerminalFact agentSessionId fact).andThen fun _ => pure (.ok true)

/-- The lifecycle columns of a session whose process tree may still run. -/
def unknownOutcomeCommit (agentSessionId reason detail : String) : SessionCommit where
  agentSessionId := agentSessionId
  nextState := .unknownOutcome
  phase := .unknownOutcome
  continuity := "unknown_outcome"
  pid := none
  providerVersion := none
  eventType := stateChanged
  payload := unknownOutcomePayload reason detail

/-- The request first, then the session; either may fail to be recorded. -/
def markTerminationUnknown (requestId agentSessionId reason error : String) : Action Failure := do
  let first ← call (markRequestUnknown requestId)
  let second ←
    transitionSessionEvent (unknownOutcomeCommit agentSessionId reason (boundedError error))
  let message := s!"provider process tree termination could not be proven: {boundedError error}"
  match failures [first, second] with
  | [] => pure (.unknownOutcome message)
  | errors =>
    let recorded := "; additionally failed to persist part of the unknown outcome: "
    pure (.unknownOutcome (message ++ recorded ++ "; ".intercalate errors))

def ensureExitSupervisionComplete (agentSessionId : Option String) (operation : String) :
    Action (Except Failure Unit) := do
  let blocked ← asks fun runtime =>
    match agentSessionId with
    | some id => decide (id ∈ runtime.exitSupervisions)
    | none => decide (runtime.exitSupervisions ≠ ∅)
  if blocked then
    let blocking := "native process exit supervision is still committing terminal state; retry "
    pure (.error (.unknownOutcome (blocking ++ operation ++ " after reconciliation")))
  else pure (.ok ())

/-! ## Starting a session -/

variable (sha256 : List UInt8 → String) (isAbsolute : String → Bool)

/-- The first section of `start_session`: the recorded result, or none to execute it. -/
def admitStart (request : SessionStartRequest) : Action (Except Failure (Option Value)) :=
  match validateStartIdentity isAbsolute request with
  | .error error => pure (.error (.other error))
  | .ok () => do
    let acceptingNew ← asks fun runtime => !runtime.shuttingDown
    match ← call (beginStartRequest request.requestId (digestTarget sha256 request.target)
        request.session acceptingNew "session.created"
        (.object [("providerId", .string request.providerId)])) with
    | .error error => pure (.error (.other error))
    | .ok (.execute _) =>
      update fun runtime =>
        (runtime.own request.requestId ⟨.start, request.agentSessionId⟩).beginStart request
      pure (.ok none)
    | .ok (.replay result) => pure (.ok (some result))
    | .ok (.recordedError code) =>
      pure (.error (.other s!"recorded session start failed: {code}"))
    | .ok .unknownOutcome =>
      pure (.error (.unknownOutcome "session start cannot be replayed automatically"))
    | .ok .admissionClosed =>
      pure (.error (.other "Neko runtime is shutting down; new sessions are rejected"))

def rejectCommit (agentSessionId reason : String) (providerVersion : Option String) :
    SessionCommit where
  agentSessionId := agentSessionId
  nextState := .failed
  phase := .failed
  continuity := "continuity_lost"
  pid := none
  providerVersion := providerVersion
  eventType := stateChanged
  payload := statePayload "failed" reason

def rejectionNotRecorded (original error : String) : String :=
  s!"{original}; additionally failed to persist rejected start: {error}"

/-- Records that a start was rejected before anything was spawned. -/
def rejectStartError (request : SessionStartRequest) (reason : String)
    (providerVersion : Option String) (original : String) : Action Failure := do
  let first ← call (failRequest request.requestId reason)
  let second ←
    transitionSessionEvent (rejectCommit request.agentSessionId reason providerVersion)
  match failures [first, second] with
  | [] => pure (.other original)
  | errors => pure (.other (rejectionNotRecorded original ("; ".intercalate errors)))

/-- Records a start that failed after its process was spawned, by what became of the process. -/
def classifySpawnFailure (request : SessionStartRequest) (stage : SpawnStage)
    (providerVersion : Option String) (original : String) (termination : Except String Unit) :
    Action Failure :=
  match termination with
  | .ok () => do
    match ← persistTerminalFact request.agentSessionId
        (TerminalCause.spawnFailed request.requestId stage providerVersion).fact with
    | .ok () => pure (.other original)
    | .error error => pure (.other (rejectionNotRecorded original error))
  | .error error =>
    markTerminationUnknown request.requestId request.agentSessionId stage.reason
      s!"{original}; {error}"

/-- Takes the process out of the session map and terminates it. -/
def terminateOwnedProcess (agentSessionId : String) (termination : Except String Unit) :
    Action (Except String Unit) := do
  match ← asks fun runtime => runtime.process agentSessionId with
  | none => pure (.error "provider process ownership disappeared during cleanup")
  | some process =>
    update fun runtime =>
      (runtime.removeProcess agentSessionId).noteTermination process .start termination
    pure (killProc termination)

def advanceStartPhase (request : SessionStartRequest) (phase : OperationPhase) :
    Action (Except String Unit) :=
  (call (setRequestPhase request.requestId phase)).andThen fun _ =>
    call (setSessionPhase request.agentSessionId phase)

def sessionStartResult (request : SessionStartRequest) (resolved : ResolvedProvider)
    (canonicalWorkspacePath : String) : Value :=
  .object [("agentSessionId", .string request.agentSessionId),
    ("canonicalWorkspacePath", .string canonicalWorkspacePath), ("provider", resolved.agentInfo),
    ("runId", .string request.runId)]

/-- The lifecycle columns of a session whose process runs. -/
def runningCommit (request : SessionStartRequest) (resolved : ResolvedProvider) (pid : ℕ) :
    SessionCommit where
  agentSessionId := request.agentSessionId
  nextState := .running
  phase := .committed
  continuity := "active"
  pid := some pid
  providerVersion := resolved.version
  eventType := stateChanged
  payload := .object [("state", .string "running")]

/-- Records that the spawned process is owned and answers the request. -/
def commitOwnership (request : SessionStartRequest) (resolved : ResolvedProvider)
    (canonicalWorkspacePath : String) (pid : ℕ) : Action (Except String Unit) :=
  (transitionSessionEvent (runningCommit request resolved pid)).andThen fun _ =>
    (call (setRequestPhase request.requestId .committed)).andThen fun _ =>
      (emitControlEvent request.runId "session.started" request.agentSessionId
        (.object [("providerId", .string resolved.definition.id),
          ("providerVersion", Value.ofOption resolved.version)])).andThen fun _ =>
        call (completeRequest request.requestId
          (sessionStartResult request resolved canonicalWorkspacePath))

/-- A `termination` is the answer to the attempt, if one is made, to end the process again. -/
inductive Spawned where
  | notSpawned (error : String)
  | cleanupUnproven (error : String)
  | cleanupProven (error : String)
  | stdioUnavailable (termination : Except String Unit)
  | writerUnavailable (error : String) (termination : Except String Unit)
  | stderrUnavailable (error : String) (termination : Except String Unit)
  | readerUnavailable (error : String) (termination : Except String Unit)
  | monitorUnavailable (error : String) (termination : Except String Unit)
  | attended (pid : ℕ) (termination : Except String Unit)

/-- A spawned process that never enters the session map is terminated. -/
def abandonChild (request : SessionStartRequest) (stage : SpawnStage)
    (providerVersion : Option String) (error : String) (termination : Except String Unit) :
    Action Failure := do
  update fun runtime =>
    (runtime.spawn request.agentSessionId).noteTermination
      (runtime.nextProcess request.agentSessionId) .start termination
  classifySpawnFailure request stage providerVersion (stage.message error) (killProc termination)

/-- The spawned process enters the session map. -/
def publishProcess (agentSessionId : String) : Action Unit :=
  update fun runtime =>
    (runtime.spawn agentSessionId).insertProcess (runtime.nextProcess agentSessionId)

/-- A process in the session map that the start gives up is taken out and terminated. -/
def abandonProcess (request : SessionStartRequest) (stage : SpawnStage)
    (providerVersion : Option String) (error : String) (termination : Except String Unit) :
    Action Failure := do
  let terminated ← terminateOwnedProcess request.agentSessionId termination
  classifySpawnFailure request stage providerVersion (stage.message error) terminated

def finishSpawn (request : SessionStartRequest) (resolved : ResolvedProvider)
    (canonicalWorkspacePath : String) : Spawned → Action (Except Failure Value)
  | .notSpawned error => do
    let failure ← rejectStartError request "provider_unavailable" resolved.version
      (SpawnStage.spawn.message error)
    pure (.error failure)
  | .cleanupUnproven error => do
    update (noteUnproven request.agentSessionId)
    let failure ← markTerminationUnknown request.requestId request.agentSessionId
      "spawn_cleanup_unproven" (SpawnStage.spawn.message error)
    pure (.error failure)
  | .cleanupProven error => do
    let failure ← classifySpawnFailure request .spawn resolved.version
      (SpawnStage.spawn.message error) (.ok ())
    pure (.error failure)
  | .stdioUnavailable termination => do
    let failure ← abandonChild request .stdio resolved.version "" termination
    pure (.error failure)
  | .writerUnavailable error termination => do
    let failure ← abandonChild request .writer resolved.version error termination
    pure (.error failure)
  | .stderrUnavailable error termination => do
    let failure ← abandonChild request .stderr resolved.version error termination
    pure (.error failure)
  | .readerUnavailable error termination => do
    publishProcess request.agentSessionId
    let failure ← abandonProcess request .reader resolved.version error termination
    pure (.error failure)
  | .monitorUnavailable error termination => do
    publishProcess request.agentSessionId
    let failure ← abandonProcess request .monitor resolved.version error termination
    pure (.error failure)
  | .attended pid termination => do
    publishProcess request.agentSessionId
    match ← commitOwnership request resolved canonicalWorkspacePath pid with
    | .ok () => pure (.ok (sessionStartResult request resolved canonicalWorkspacePath))
    | .error error =>
      let failure ← abandonProcess request .commit resolved.version error termination
      pure (.error failure)

def superseded : String := "Neko session start was superseded before provider dispatch"

/-- The last section of `start_session`, once the provider is resolved. -/
def launchStart (request : SessionStartRequest) (resolved : ResolvedProvider)
    (canonicalWorkspacePath : String) (spawned : Spawned) : Action (Except Failure Value) := do
  if ← asks fun runtime => runtime.shuttingDown then
    let failure ← rejectStartError request "runtime_shutting_down" resolved.version
      "Neko runtime is shutting down; new sessions are rejected"
    pure (.error failure)
  else
    (readSession request.agentSessionId).escalate .other fun current =>
      match current with
      | none => pure (.error (.other "accepted Neko session projection disappeared"))
      | some current =>
        if current.state ≠ .starting ∨ current.operationPhase ≠ .accepted then do
          match ← call (failRequest request.requestId "start_superseded") with
          | .ok () => pure (.error (.other superseded))
          | .error error => pure (.error (.other (rejectionNotRecorded superseded error)))
        else do
          match ← advanceStartPhase request .dispatched with
          | .error error =>
            let failure ← rejectStartError request "journal_error" none error
            pure (.error failure)
          | .ok () =>
            match ← advanceStartPhase request .sideEffectStarted with
            | .error error =>
              let failure ← rejectStartError request "journal_error" resolved.version error
              pure (.error failure)
            | .ok () => finishSpawn request resolved canonicalWorkspacePath spawned

/-- What the host answered between the admission of a start and its launch. -/
inductive Probed where
  | invalidWorkspace (error : String)
  | cleanupUnproven (error : String)
  | unavailable (error : String)
  | resolved (resolved : ResolvedProvider) (canonicalWorkspacePath : String) (spawned : Spawned)

def finishStart (request : SessionStartRequest) (probed : Probed) :
    Action (Except Failure Value) := do
  update (endStart request)
  match probed with
  | .invalidWorkspace error =>
    let failure ← rejectStartError request "invalid_workspace" none error
    pure (.error failure)
  | .cleanupUnproven error =>
    update (noteUnproven request.agentSessionId)
    let failure ← markTerminationUnknown request.requestId request.agentSessionId
      "provider_probe_cleanup_unproven" error
    pure (.error failure)
  | .unavailable error =>
    let failure ← rejectStartError request "provider_unavailable" none error
    pure (.error failure)
  | .resolved resolved canonicalWorkspacePath spawned =>
    match resolved.definition.launch request.profileId with
    | .error error =>
      let failure ← rejectStartError request "invalid_request" resolved.version error
      pure (.error failure)
    | .ok _ => launchStart request resolved canonicalWorkspacePath spawned

/-! ## Writing to a session -/

/-- Looks a request identity up, and admits it for the operation if it is new. -/
def beginRequestFor (requestId method : String) (target : List String) (owner : Owner) :
    Action (Except String RequestDecision) := do
  match ← call (beginRequest requestId method (digestTarget sha256 target)) with
  | .ok .execute =>
    update (own requestId owner)
    pure (.ok .execute)
  | answer => pure answer

/-- The first section of `write_session`.  The answer says whether the line is to be sent. -/
def beginWriting (request : SessionWriteRequest) : Action (Except Failure Bool) :=
  match validateWriteRequest request with
  | .error error => pure (.error (.other error))
  | .ok () => do
    match ← beginRequestFor sha256 request.requestId "session/write" request.target
        ⟨.write, request.agentSessionId⟩ with
    | .error error => pure (.error (.other error))
    | .ok (.replay _) => pure (.ok false)
    | .ok (.recordedError code) =>
      pure (.error (.other s!"recorded session write failed: {code}"))
    | .ok .unknownOutcome =>
      pure (.error (.other "session write has unknown_outcome; automatic replay is forbidden"))
    | .ok .execute =>
      (call (setRequestPhase request.requestId .dispatched)).escalate .other fun _ => do
        match ← asks fun runtime => runtime.process request.agentSessionId with
        | none =>
          (call (failRequest request.requestId "invalid_state")).escalate .other fun _ =>
            pure (.error (.other "no live provider process for this agent session"))
        | some _ =>
          (call (setRequestPhase request.requestId .sideEffectStarted)).escalate .other
            fun _ => do
              update (beginWrite request)
              pure (.ok true)

/-- What became of a line. -/
inductive Written where
  | queueFull
  | disconnected
  | written
  | failed (error : String)
  | lost (error : String)

/-- The last section of `write_session`. -/
def finishWriting (request : SessionWriteRequest) (outcome : Written) :
    Action (Except Failure Unit) := do
  update (endWrite request)
  match outcome with
  | .queueFull =>
    (call (failRequest request.requestId "provider_busy")).escalate .other fun _ =>
      pure (.error (.other
        "provider_busy: provider stdin queue is full; retry with a new request identity"))
  | .disconnected =>
    (call (failRequest request.requestId "invalid_state")).escalate .other fun _ =>
      pure (.error (.other "provider stdin is no longer available"))
  | .failed error =>
    (call (markRequestUnknown request.requestId)).escalate .other fun _ =>
      pure (.error (.other
        s!"provider stdin write failed after dispatch; outcome is unknown: {error}"))
  | .lost error =>
    (call (markRequestUnknown request.requestId)).escalate .other fun _ =>
      pure (.error (.other
        s!"provider stdin acknowledgement was lost; outcome is unknown: {error}"))
  | .written =>
    (call (setRequestPhase request.requestId .committed)).escalate .other fun _ =>
      (call (completeRequest request.requestId (.object [("written", .bool true)]))).escalate
        .other fun _ => pure (.ok ())

/-! ## Cancelling a session -/

def ownershipDisappeared : String :=
  "native process ownership disappeared before cancellation could prove termination"

/-- `cancel_session` takes the process out and terminates it: why that is not proven. -/
def cancelProcess (agentSessionId : String) (session : SessionRecord)
    (termination : Except String Unit) : Action (Option String) := do
  match ← asks fun runtime => runtime.process agentSessionId with
  | some process =>
    update fun runtime =>
      (runtime.removeProcess agentSessionId).noteTermination process .cancel termination
    match killProc termination with
    | .ok () => pure none
    | .error error => pure (some error)
  | none =>
    if !session.state.isTerminal ∧
        ¬ (session.state = .starting ∧ session.operationPhase = .accepted) then
      pure (some ownershipDisappeared)
    else pure none

/-- What an executed cancellation does once its session is known. -/
def executeCancel (request : SessionCancelRequest) (session : SessionRecord)
    (termination : Except String Unit) : Action (Except Failure Value) := do
  match ← cancelProcess request.agentSessionId session termination with
  | some error =>
    let failure ← markTerminationUnknown request.requestId request.agentSessionId
      "cancel_termination_unproven" error
    pure (.error failure)
  | none =>
    let cancelled := !session.state.isTerminal
    let result := sessionCancelResult request.agentSessionId cancelled
    if cancelled then
      (persistTerminalFact request.agentSessionId
        (TerminalCause.cancelRequested request.requestId request.agentSessionId).fact).escalate
          .other fun _ => pure (.ok result)
    else
      (call (setRequestPhase request.requestId .committed)).escalate .other fun _ =>
        (call (completeRequest request.requestId result)).escalate .other fun _ =>
          pure (.ok result)

/-- `cancel_session`: one section from beginning to end. -/
def cancelSession (request : SessionCancelRequest) (termination : Except String Unit) :
    Action (Except Failure Value) :=
  match validateCancelRequest request with
  | .error error => pure (.error (.other error))
  | .ok () =>
    (flushPendingTerminalFact request.agentSessionId).escalate
      (fun error => .unknownOutcome ("verified process exit is awaiting durable lifecycle " ++
        s!"commit; cancellation is blocked: {error}")) fun _ =>
      (ensureExitSupervisionComplete (some request.agentSessionId)
        "session cancellation").andThen fun _ => do
        match ← beginRequestFor sha256 request.requestId "session/cancel" request.target
            ⟨.cancel, request.agentSessionId⟩ with
        | .error error => pure (.error (.other error))
        | .ok (.replay result) => pure (.ok result)
        | .ok (.recordedError code) =>
          pure (.error (.other s!"recorded session cancel failed: {code}"))
        | .ok .unknownOutcome =>
          pure (.error (.other
            "session cancellation has unknown_outcome; automatic replay is forbidden"))
        | .ok .execute =>
          (readSession request.agentSessionId).escalate .other fun session =>
            match session with
            | none =>
              (call (failRequest request.requestId "invalid_state")).escalate .other fun _ =>
                pure (.error (.other "no such Neko agent session"))
            | some session =>
              if session.runId ≠ request.runId then
                (call (failRequest request.requestId "invalid_request")).escalate .other fun _ =>
                  pure (.error (.other "agent session does not belong to the requested run"))
              else
                (call (setRequestPhase request.requestId .dispatched)).escalate .other fun _ =>
                  (call (setRequestPhase request.requestId .sideEffectStarted)).escalate .other
                    fun _ => executeCancel request session termination

/-! ## The end of a process -/

/-- A session whose row cannot be read keeps its terminal fact in memory. -/
def sessionOrRetainTerminalFact (session : Except String (Option SessionRecord))
    (agentSessionId : String) (fact : PendingTerminalFact) : Action (Option SessionRecord) :=
  match session with
  | .ok session => pure session
  | .error _ => do
    update (hold agentSessionId fact)
    pure none

/-- The fields of a `process.exited` event or notice. -/
def exitPayload (code : Option Int) (reason : Option String)
    (terminationProven terminalStatePersisted : Bool) (stderrTail : Option String) : Value :=
  .object ([("exitCode", (code.map Value.number).getD .null)] ++
    (reason.map fun reason => ("reason", Value.string reason)).toList ++
    (stderrTail.map fun tail => ("stderrTail", Value.string tail)).toList ++
    [("terminalStatePersisted", .bool terminalStatePersisted),
      ("terminationProven", .bool terminationProven)])

/-- Its terminal fact, unless the session is terminal already, and its `process.exited` event. -/
def recordExit (agentSessionId : String) (fact : PendingTerminalFact) (code : Option Int)
    (reason : Option String) (terminationProven : Bool) (stderrTail : Option String) :
    Action Unit := do
  let read ← readSession agentSessionId
  match ← sessionOrRetainTerminalFact read agentSessionId fact with
  | none => pure ()
  | some session =>
    let persisted ←
      if session.state.isTerminal then pure true
      else do
        let result ← persistTerminalFact agentSessionId fact
        pure result.isOk
    let _ ← emitControlEvent session.runId "process.exited" agentSessionId
      (exitPayload code reason terminationProven persisted stderrTail)
    pure ()

inductive ProcessStatus where
  | running
  | exited (code : Option Int)
  | unavailable

/-- The first section of `poll_process_exit`. -/
def pollProcessExit (agentSessionId : String) (status : ProcessStatus) : Action Unit := do
  match ← asks fun runtime => runtime.process agentSessionId with
  | none => pure ()
  | some process =>
    match status with
    | .running => pure ()
    | .exited code => update (supervise ⟨process, code, .exited⟩)
    | .unavailable => update (supervise ⟨process, none, .statusUnavailable⟩)

/-- The last section of `poll_process_exit`. -/
def finishProcessExit (exit : Exit) (termination : Except String Unit)
    (stderrTail : Option String) : Action Unit := do
  let agentSessionId := exit.process.agentSessionId
  update fun runtime => (runtime.endExit exit).noteTermination exit.process .monitor termination
  recordExit agentSessionId (TerminalCause.processExited exit.reason termination).fact exit.code
    none termination.isOk stderrTail
  update (completeExitSupervision agentSessionId)

/-- `fail_provider_protocol`: one section from beginning to end. -/
def failProviderProtocol (agentSessionId : String) (termination : Except String Unit)
    (stderrTail : Option String) : Action Unit := do
  match ← asks fun runtime => runtime.process agentSessionId with
  | none => pure ()
  | some process =>
    update fun runtime =>
      (runtime.removeProcess agentSessionId).noteTermination process .protocol termination
    recordExit agentSessionId (TerminalCause.protocolFailure termination).fact none
      (some "provider_protocol_failure") termination.isOk stderrTail

/-! ## Shutting down and listing -/

/-- The first section of `kill_all`. -/
def drainProcesses : Action Unit := update drained

/-- The section of `kill_all` for one of the processes it drained. -/
def killDrained (process : Process) (termination : Except String Unit) : Action Unit := do
  let agentSessionId := process.agentSessionId
  update fun runtime => (runtime.endKill process).noteTermination process .killAll termination
  let fact := (TerminalCause.applicationExit termination).fact
  match ← readSession agentSessionId with
  | .ok none => pure ()
  | .ok (some session) =>
    if session.state.isTerminal then pure ()
    else do
      let _ ← persistTerminalFact agentSessionId fact
      pure ()
  | .error _ =>
    update (noteUnread agentSessionId)
    let _ ← persistTerminalFact agentSessionId fact
    pure ()

/-- The last section of `kill_all`, for the sessions with a fact in some order. -/
def flushAll (order : List String) : Action Unit :=
  forEach (fun agentSessionId => do
    let _ ← flushPendingTerminalFact agentSessionId
    pure ()) order

/-- Commits the facts one after the other and stops at the first error. -/
def hydrate : List String → Action (Except Failure Unit)
  | [] => pure (.ok ())
  | agentSessionId :: order =>
    (flushPendingTerminalFact agentSessionId).escalate
      (fun error => .unknownOutcome ("verified process exit is awaiting durable lifecycle " ++
        s!"commit; session hydration is blocked: {error}")) fun _ => hydrate order

/-- `list_sessions`, for the sessions with a fact in some order. -/
def listSessions (runId : Option String) (order : List String) :
    Action (Except Failure (List SessionRecord)) :=
  (hydrate order).andThen fun _ =>
    (ensureExitSupervisionComplete none "session hydration").andThen fun _ =>
      (call fun _ db => .ok (sessions db runId, db)).escalate .other fun rows => pure (.ok rows)

/-! ## Opening -/

/-- Decodes the retained facts; refused when one of them does not decode. -/
def decodeFacts (rows : List RetainedFact) : Option (List (String × PendingTerminalFact)) :=
  rows.mapM fun row =>
    (PendingTerminalFact.fromValue row.fact).map fun fact => (row.agentSessionId, fact)

/-- `open`, once the process holds the lease: recovery, maintenance, and the retained facts. -/
def openRuntime (terminalNow requestNow : Timestamp) : Action (Except String Unit) :=
  (openJournal terminalNow requestNow).andThen fun _ =>
    (call fun _ db => .ok (Journal.pendingTerminalFacts db, db)).andThen fun rows =>
      match decodeFacts rows with
      | none => pure (.error "decode retained Neko terminal fact failed")
      | some facts => do
        update (opened fun agentSessionId => facts.lookup agentSessionId)
        pure (.ok ())

end Wiii.Neko.Runtime
