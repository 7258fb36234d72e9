import Wiii.Lib.Dialog
import Wiii.Lib.Table

/-!
# Starting providers from the renderer

The control client keeps a table of the starts whose outcome is not certain yet.  `spawnProvider` and
`cancelUnresolvedStarts` are programs that await the native side; what a call does from one await to the next is one
stretch of `stretch`, which nothing interrupts.

The pair of request id and agent session id that is drawn for a start is a number here.  `sent` are the start requests
that went to the native side, and an identity is `certain` once a call has given it up or returned with its outcome.
-/

namespace Wiii.NekoControl

open Function (update)

/-! ## Requests -/

structure ExecutionBinding where
  taskId : String
  runId : String
  environmentId : String
  deriving DecidableEq

def legacyExecution (clientSessionId clientRunId : String) : ExecutionBinding :=
  ⟨"legacy-local/task/" ++ clientSessionId, "legacy-local/run/" ++ clientRunId,
    "legacy-local/environment/" ++ clientRunId⟩

structure SpawnRequest where
  providerId : String
  clientSessionId : String
  clientRunId : Option String := none
  workspacePath : String
  profileId : Option String := none
  execution : Option ExecutionBinding := none
  deriving DecidableEq

structure StartKey where
  providerId : String
  taskId : String
  clientSessionId : String
  workspacePath : String
  profileId : Option String
  deriving DecidableEq

namespace SpawnRequest

def requestedExecution (request : SpawnRequest) : ExecutionBinding :=
  request.execution.getD
    (legacyExecution request.clientSessionId (request.clientRunId.getD request.clientSessionId))

def startKey (request : SpawnRequest) : StartKey :=
  ⟨request.providerId, request.requestedExecution.taskId, request.clientSessionId, request.workspacePath,
    request.profileId⟩

end SpawnRequest

def isCodexBootstrap (clientSessionId : String) : Bool :=
  "codex-account-bootstrap-".toList.isPrefixOf clientSessionId.toList

/-! ## State -/

structure StartIdentity where
  clientSessionId : String
  execution : ExecutionBinding
  providerId : String
  workspacePath : String
  profileId : Option String
  /-- The bootstrap output overflowed. -/
  terminalError : Bool := false
  overflowCancellation : Option (Option Bool) := none
  listenerSetup : Option (Option Bool) := none
  deriving DecidableEq

def StartIdentity.startKey (identity : StartIdentity) : StartKey :=
  ⟨identity.providerId, identity.execution.taskId, identity.clientSessionId, identity.workspacePath,
    identity.profileId⟩

structure UnresolvedStart where
  startKey : StartKey
  identity : ℕ
  deriving DecidableEq

structure ControlClient where
  unresolvedStarts : Table UnresolvedStart.startKey := ∅
  identities : ℕ → Option StartIdentity := fun _ => none
  nextIdentity : ℕ := 0
  sent : List ℕ := []
  certain : ℕ → Bool := fun _ => false

namespace ControlClient

def register (request : SpawnRequest) (s : ControlClient) : ℕ × ControlClient :=
  (s.nextIdentity, { s with
    identities := update s.identities s.nextIdentity (some
      { clientSessionId := request.clientSessionId
        execution := request.requestedExecution
        providerId := request.providerId
        workspacePath := request.workspacePath
        profileId := request.profileId })
    nextIdentity := s.nextIdentity + 1
    unresolvedStarts := s.unresolvedStarts.upsert ⟨request.startKey, s.nextIdentity⟩ })

def modify (id : ℕ) (f : StartIdentity → StartIdentity) (s : ControlClient) : ControlClient :=
  { s with identities := update s.identities id ((s.identities id).map f) }

def IsCurrent (key : StartKey) (id : ℕ) (s : ControlClient) : Prop :=
  s.unresolvedStarts.find? key = some ⟨key, id⟩

instance (key : StartKey) (id : ℕ) (s : ControlClient) : Decidable (s.IsCurrent key id) :=
  inferInstanceAs (Decidable (_ = _))

def forget (key : StartKey) (id : ℕ) (s : ControlClient) : ControlClient :=
  if s.IsCurrent key id then { s with unresolvedStarts := s.unresolvedStarts.delete key } else s

def send (id : ℕ) (s : ControlClient) : ControlClient :=
  { s with sent := s.sent ++ [id] }

def settle (id : ℕ) (s : ControlClient) : ControlClient :=
  { s with certain := update s.certain id true }

end ControlClient

/-! ## Replies of the native side -/

/-- What a call throws: a rejection of the native side is a text, all else an error. -/
inductive Failure where
  | text (message : String)
  | error
  deriving DecidableEq

inductive InvokeReply (α : Type) where
  | value (value : α)
  | text (message : String)
  | bridge
  deriving DecidableEq

structure StartResult where
  agentSessionId : ℕ
  runId : String
  providerId : String
  deriving DecidableEq

structure CancelResult where
  agentSessionId : ℕ
  cancelled : Bool
  deriving DecidableEq

structure NativeSession where
  agentSessionId : ℕ
  taskId : String
  providerId : String
  state : String
  operationPhase : String
  continuity : String
  deriving DecidableEq

def nativeTerminalStates : List String := ["completed", "failed", "cancelled"]

namespace NativeSession

def isTerminal (session : NativeSession) : Bool := decide (session.state ∈ nativeTerminalStates)

def isNativeOutcomeUncertain (session : NativeSession) : Bool :=
  decide (session.state = "unknown_outcome") || decide (session.operationPhase = "unknown_outcome") ||
    decide (session.continuity = "unknown_outcome")

end NativeSession

def isUnknownStartOutcome (message : String) : Bool :=
  "unknown_outcome:".toList.isPrefixOf message.toList

def isRecordedStartFailure : Failure → Bool
  | .text message => "recorded session start failed:".toList.isPrefixOf message.toList ||
      "decode recorded session start failed:".toList.isPrefixOf message.toList
  | .error => false

/-- `assertNativeStartResultMatchesIdentity`. -/
def matchesIdentity (id : ℕ) (result : Option StartResult) (s : ControlClient) : Bool :=
  match result, s.identities id with
  | some result, some identity => decide (result.agentSessionId = id ∧
      result.runId = identity.execution.runId ∧ result.providerId = identity.providerId)
  | _, _ => false

/-! ## Awaits, and the stretches of code behind them -/

inductive Entered where
  | bootstrap
  | overflowed (id : ℕ)
  | registered (id : ℕ)
  deriving DecidableEq

inductive Started where
  | mismatched
  | overflowed
  | complete
  deriving DecidableEq

inductive Ask where
  | enter (request : SpawnRequest)
  | bootstrapListing (request : SpawnRequest)
  | imports (id : ℕ)
  | listeners (key : StartKey) (id : ℕ)
  | startReply (id : ℕ) (first : Bool)
  | replayed (id : ℕ) (result : Option StartResult)
  | started (key : StartKey) (id : ℕ) (result : Option StartResult)
  | startFailed (key : StartKey) (id : ℕ) (rejected : Bool) (failure : Failure)
  | giveUp (key : StartKey) (id : ℕ) (cancelled : Bool)
  | overflowing (id : ℕ)
  | overflowCancellation (id : ℕ)
  | sessions
  | cancelReply (id : ℕ)
  | retained (clientSessionId : String)
  | importCore
  | retainedListing (id : ℕ)
  | forget (key : StartKey) (id : ℕ)
  | overflow (id : ℕ)
  | overflowSettled (id : ℕ) (ok : Bool)
  deriving DecidableEq

namespace Ask

abbrev Reply : Ask → Type
  | bootstrapListing _ | sessions | retainedListing _ => Except Failure (List NativeSession)
  | imports _ | listeners _ _ | overflowCancellation _ | importCore => Bool
  | startReply _ _ => InvokeReply (Option StartResult)
  | cancelReply _ => InvokeReply (Option CancelResult)
  | _ => Unit

abbrev Answer : Ask → Type
  | enter _ => Entered
  | bootstrapListing _ => Except Failure ℕ
  | imports _ | listeners _ _ | overflowCancellation _ | importCore | overflowing _ => Bool
  | startReply _ _ => InvokeReply (Option StartResult)
  | replayed _ _ => Option NativeSession
  | started _ _ _ => Started
  | sessions => Except Failure (List NativeSession)
  | cancelReply _ => InvokeReply (Option CancelResult)
  | retained _ => List UnresolvedStart
  | retainedListing _ => Except Failure (Option NativeSession)
  | _ => Unit

/-- The listeners of a start are set up once, its overflow is cancelled once, and only a start that was sent is replied
to. -/
def possible : (r : Ask) → r.Reply → ControlClient → Bool
  | listeners _ id, ok, s => (s.identities id).any fun identity =>
      decide (identity.listenerSetup = some none ∨ identity.listenerSetup = some (some ok))
  | startReply id _, _, s => decide (id ∈ s.sent)
  | overflowCancellation id, ok, s => (s.identities id).any fun identity =>
      decide (identity.overflowCancellation = some (some ok))
  | overflow id, _, s => (s.identities id).any fun identity =>
      !identity.terminalError && identity.listenerSetup.isSome
  | _, _, _ => true

/-- From the entry of `spawnProvider` to its first await. -/
def afterEnter (request : SpawnRequest) (s : ControlClient) : Entered × ControlClient :=
  match s.unresolvedStarts.find? request.startKey with
  | none =>
    if isCodexBootstrap request.clientSessionId then (.bootstrap, s)
    else (.registered (s.register request).1, (s.register request).2)
  | some prior =>
    if (s.identities prior.identity).any StartIdentity.terminalError then (.overflowed prior.identity, s)
    else (.registered prior.identity, { s with
      unresolvedStarts := s.unresolvedStarts.upsert ⟨request.startKey, prior.identity⟩ })

/-- No prior start was found before the listing, so a new one is registered. -/
def afterBootstrapListing (request : SpawnRequest) (reply : Except Failure (List NativeSession))
    (s : ControlClient) : Except Failure ℕ × ControlClient :=
  match reply with
  | .error failure => (.error failure, s)
  | .ok listed =>
    if listed.any fun session => decide (session.taskId = request.requestedExecution.taskId) &&
        decide (session.providerId = request.providerId) && !session.isTerminal then (.error .error, s)
    else (.ok (s.register request).1, (s.register request).2)

/-- The listeners are being set up by the first call that gets there. -/
def afterImports (id : ℕ) (ok : Bool) (s : ControlClient) : Bool × ControlClient :=
  (ok, if ok then s.modify id fun identity =>
    if identity.listenerSetup = none then { identity with listenerSetup := some none } else identity else s)

/-- The start request is sent, or the start is forgotten. -/
def afterListeners (key : StartKey) (id : ℕ) (ok : Bool) (s : ControlClient) : Bool × ControlClient :=
  let s := s.modify id fun identity => { identity with listenerSetup := some (some ok) }
  (ok, if ok then s.send id else s.forget key id)

/-- The IPC retry of `invokeIdempotently` sends the same request again. -/
def afterStartReply (id : ℕ) (first : Bool) (reply : InvokeReply (Option StartResult)) (s : ControlClient) :
    InvokeReply (Option StartResult) × ControlClient :=
  (reply, if reply = .bridge ∧ first = true then s.send id else s)

def afterReplayed (id : ℕ) (result : Option StartResult) (s : ControlClient) : Option NativeSession :=
  if matchesIdentity id result s then
    result.bind fun result => (s.identities id).map fun identity =>
      { agentSessionId := result.agentSessionId
        taskId := identity.execution.taskId
        providerId := result.providerId
        state := "running"
        operationPhase := "committed"
        continuity := "active" }
  else none

def afterStarted (key : StartKey) (id : ℕ) (result : Option StartResult) (s : ControlClient) :
    Started × ControlClient :=
  if matchesIdentity id result s then
    if (s.identities id).any StartIdentity.terminalError then (.overflowed, s)
    else (.complete, (s.settle id).forget key id)
  else (.mismatched, s)

/-- The `catch` of a start, certain if the start request itself was `rejected`. -/
def afterStartFailed (key : StartKey) (id : ℕ) (rejected : Bool) (failure : Failure) (s : ControlClient) :
    ControlClient :=
  match failure with
  | .text message =>
    if isUnknownStartOutcome message then s else (if rejected then s.settle id else s).forget key id
  | .error => s

/-- The retained start is replayed where the native side does not list it. -/
def afterRetainedListing (id : ℕ) (reply : Except Failure (List NativeSession)) (s : ControlClient) :
    Except Failure (Option NativeSession) × ControlClient :=
  match reply with
  | .error failure => (.error failure, s)
  | .ok listed =>
    match listed.find? fun session => decide (session.agentSessionId = id) with
    | some native => (.ok (some native), s)
    | none => (.ok none, s.send id)

def stretch : (r : Ask) → r.Reply → ControlClient → r.Answer × ControlClient
  | enter request, _, s => afterEnter request s
  | bootstrapListing request, reply, s => afterBootstrapListing request reply s
  | imports id, ok, s => afterImports id ok s
  | listeners key id, ok, s => afterListeners key id ok s
  | startReply id first, reply, s => afterStartReply id first reply s
  | replayed id result, _, s => (afterReplayed id result s, s)
  | started key id result, _, s => afterStarted key id result s
  | startFailed key id rejected failure, _, s => ((), afterStartFailed key id rejected failure s)
  | giveUp key id cancelled, _, s => ((), if cancelled then (s.settle id).forget key id else s)
  | overflowing id, _, s =>
    ((s.identities id).any fun identity => identity.overflowCancellation.isSome, s)
  | overflowCancellation _, ok, s => (ok, s)
  | sessions, reply, s => (reply, s)
  | cancelReply _, reply, s => (reply, s)
  | retained clientSessionId, _, s =>
    (s.unresolvedStarts.rows.filter fun entry => (s.identities entry.identity).any fun identity =>
      decide (identity.clientSessionId = clientSessionId), s)
  | importCore, ok, s => (ok, s)
  | retainedListing id, reply, s => afterRetainedListing id reply s
  | forget key id, _, s => ((), (s.settle id).forget key id)
  | overflow id, _, s => ((), s.modify id fun identity =>
      { identity with terminalError := true, overflowCancellation := some none })
  | overflowSettled id ok, _, s => ((), s.modify id fun identity =>
      { identity with overflowCancellation := some (some ok) })

def Effect (r : Ask) (s : ControlClient) (a : r.Answer) (t : ControlClient) : Prop :=
  ∃ reply, r.possible reply s = true ∧ r.stretch reply s = (a, t)

end Ask

end Wiii.NekoControl
