import Wiii.NekoChill.Registry
import Wiii.NekoControl.Client

/-!
# The calls of the control client

`spawnProvider`, `cancelUnresolvedStarts`, and the cancellation that the output listener of a start runs when
its bootstrap output overflows, each from await to await.
-/

namespace Wiii.NekoControl

open Dialog

abbrev Client (β : Type) := Dialog Ask.Answer Failure β

def await (r : Ask) : Client r.Answer := request r

/-- A request whose delivery is uncertain is sent a second time, under its own id. -/
def invokeIdempotently {α : Type} (first second : Client (InvokeReply α)) : Client α := do
  match ← first with
  | .value value => pure value
  | .text message => fail (.text message)
  | .bridge =>
    match ← second with
    | .value value => pure value
    | .text message => fail (.text message)
    | .bridge => fail .error

def invokeStart (id : ℕ) : Client (Option StartResult) :=
  invokeIdempotently (await (.startReply id true)) (await (.startReply id false))

def listSessions : Client (List NativeSession) := do
  ofExcept (← await .sessions)

def requireSafeCancellation (result : Option CancelResult) (id : ℕ) : Client Unit := do
  match result with
  | none => fail .error
  | some result =>
    if result.agentSessionId ≠ id then fail .error
    if result.cancelled then return
    match (← listSessions).find? fun session => decide (session.agentSessionId = id) with
    | none => pure ()
    | some current =>
      if current.isNativeOutcomeUncertain || !current.isTerminal then fail .error

def cancelStartIdentity (id : ℕ) : Client Unit := do
  let result ← invokeIdempotently (await (.cancelReply id)) (await (.cancelReply id))
  requireSafeCancellation result id

def confirmOverflowCancellation (id : ℕ) : Client Bool := do
  if ← await (.overflowCancellation id) then return true
  match (← listSessions).find? fun session => decide (session.agentSessionId = id) with
  | none => pure true
  | some current =>
    if current.isTerminal then return !current.isNativeOutcomeUncertain
    if current.isNativeOutcomeUncertain then return false
    let outcome : Except Failure Unit ← attempt do
      if !(← await .importCore) then fail .error
      cancelStartIdentity id
    match outcome with
    | .ok _ => pure true
    | .error _ => pure false

/-! ## `spawnProvider` -/

def confirmStart (key : StartKey) (id : ℕ) (result : Option StartResult) : Client Unit := do
  match ← await (.started key id result) with
  | .mismatched => fail .error
  | .complete => pure ()
  | .overflowed =>
    let cancelled ← confirmOverflowCancellation id
    await (.giveUp key id cancelled)
    fail .error

/-- The start itself, in its `try`. -/
def awaitStart (key : StartKey) (id : ℕ) : Client Unit := do
  match ← attempt (invokeStart id) with
  | .error failure =>
    await (.startFailed key id true failure)
    fail failure
  | .ok result =>
    match ← attempt (confirmStart key id result) with
    | .error failure =>
      await (.startFailed key id false failure)
      fail failure
    | .ok _ => pure ()

def start (key : StartKey) (id : ℕ) : Client ℕ := do
  if !(← await (.imports id)) then fail .error
  if !(← await (.listeners key id)) then fail .error
  awaitStart key id
  return id

def spawnProvider (spawn : SpawnRequest) : Client ℕ := do
  if spawn.providerId ∉ NekoChill.providerIds then fail .error
  if spawn.workspacePath = "" then fail .error
  match ← await (.enter spawn) with
  | .registered id => start spawn.startKey id
  | .bootstrap => start spawn.startKey (← ofExcept (← await (.bootstrapListing spawn)))
  | .overflowed id =>
    let cancelled ← confirmOverflowCancellation id
    await (.giveUp spawn.startKey id cancelled)
    fail .error

/-! ## `cancelUnresolvedStarts` -/

def replay (id : ℕ) : Client NativeSession := do
  match ← await (.replayed id (← invokeStart id)) with
  | some native => pure native
  | none => fail .error

def retainedNative (id : ℕ) : Client (Option NativeSession) := do
  if !(← await .importCore) then fail .error
  match ← ofExcept (← await (.retainedListing id)) with
  | some native => pure (some native)
  | none =>
    let replayed : Except Failure NativeSession ← attempt (replay id)
    match replayed with
    | .ok native => pure (some native)
    | .error failure => if isRecordedStartFailure failure then pure none else fail failure

def cancelRetainedStart (key : StartKey) (id : ℕ) : Client Unit := do
  if ← await (.overflowing id) then
    if !(← confirmOverflowCancellation id) then fail .error
  else
    match ← retainedNative id with
    | none => pure ()
    | some native =>
      if native.isNativeOutcomeUncertain then fail .error
      if !native.isTerminal then cancelStartIdentity id
  await (.forget key id)

def durableStarts (clientSessionId : String) (represented : List ℕ) (listed : List NativeSession) :
    List NativeSession :=
  listed.filter fun session =>
    decide (session.taskId = (legacyExecution clientSessionId clientSessionId).taskId) &&
      (!isCodexBootstrap clientSessionId || decide (session.providerId = "codex")) &&
      !decide (session.agentSessionId ∈ represented) && !session.isTerminal

def cancelDurableStarts (clientSessionId : String) (represented : List ℕ) :
    Client (List (Except Failure Unit)) := do
  let durable := durableStarts clientSessionId represented (← listSessions)
  if durable = [] then return []
  if !(← await .importCore) then fail .error
  durable.mapM fun session => attempt (cancelStartIdentity session.agentSessionId)

def cancelUnresolvedStarts (clientSessionId : String) : Client ℕ := do
  let retained ← await (.retained clientSessionId)
  let cancelled ← retained.mapM fun entry => attempt (cancelRetainedStart entry.startKey entry.identity)
  let durable : Except Failure (List (Except Failure Unit)) ←
    attempt (cancelDurableStarts clientSessionId (retained.map UnresolvedStart.identity))
  let outcomes := cancelled ++ match durable with
    | .ok outcomes => outcomes
    | .error failure => [.error failure]
  match outcomes.filterMap fun outcome => match outcome with | .ok _ => none | .error failure => some failure with
  | [] => pure outcomes.length
  | [failure] => fail failure
  | _ => fail .error

/-! ## The overflow of a start -/

/-- Run by the listener of the bootstrap output. -/
def cancelOverflow (id : ℕ) : Client ℕ := do
  await (.overflow id)
  let outcome : Except Failure Unit ← attempt (cancelStartIdentity id)
  match outcome with
  | .ok _ => await (.overflowSettled id true)
  | .error _ => await (.overflowSettled id false)
  return id

/-! ## The system -/

/-- The calls that run, in any number, next to each other. -/
inductive Starts : Client ℕ → Prop
  | spawnProvider (spawn : SpawnRequest) : Starts (spawnProvider spawn)
  | cancelUnresolvedStarts (clientSessionId : String) : Starts (cancelUnresolvedStarts clientSessionId)
  | cancelOverflow (id : ℕ) : Starts (cancelOverflow id)

abbrev Step : Pool Ask.Answer Failure ℕ ControlClient → PoolEvent Ask.Answer →
    Pool Ask.Answer Failure ℕ ControlClient → Prop :=
  Pool.Step Ask.Effect Starts fun _ _ => False

end Wiii.NekoControl
