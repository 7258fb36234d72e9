import Wiii.NekoChill.JsValue
import Wiii.NekoControl.Client

/-!
# The transport of a started session

What the native side says of a session comes as events: a line of output, or a notice that the process exited.  The
handlers are attached when the session is started, so what comes before has to be kept for them.

A handler is the number of its registration, and a call of one is an output.  An event is the stretch of code that runs
for it; a microtask that it leaves runs as an event of its own.
-/

namespace Wiii.NekoControl

open NekoChill (JsText JsValue isBlank utf8Length)

/-! ## Exit notices -/

structure NativeProcessExitNotice where
  exitCode : JsValue
  terminationProven : Bool
  terminalStatePersisted : Bool
  stderrTail : Option JsText

namespace NativeProcessExitNotice

def isExitCode : JsValue → Bool
  | .null | .number _ | .fraction => true
  | _ => false

/-- A tail that is there, or a value that stands for none. -/
def tailOf : JsValue → Option (Option JsText)
  | .undefined | .null => some none
  | .string text => some (some text)
  | _ => none

/-- `isNativeProcessExitNotice`. -/
def ofPayload (payload : JsValue) : Option NativeProcessExitNotice :=
  match payload.own "terminationProven", payload.own "terminalStatePersisted", tailOf (payload.own "stderrTail") with
  | .bool terminationProven, .bool terminalStatePersisted, some stderrTail =>
    if isExitCode (payload.own "exitCode") then
      some ⟨payload.own "exitCode", terminationProven, terminalStatePersisted, stderrTail⟩
    else none
  | _, _, _ => none

def unknown : NativeProcessExitNotice := ⟨.null, false, false, none⟩

/-- The process tree is gone, and its terminal state is recorded. -/
def isProof (notice : NativeProcessExitNotice) : Bool :=
  notice.terminationProven && notice.terminalStatePersisted

end NativeProcessExitNotice

/-! ## Cancellations -/

/-- How far `requireSafeCancellation` is. -/
inductive Cancellation where
  /-- The native side was asked; `first` if it may be asked again when the delivery is uncertain. -/
  | asked (first : Bool)
  | listing
  | confirmed
  | failed
  deriving DecidableEq

namespace Cancellation

def reply (agentSessionId : ℕ) (r : InvokeReply (Option CancelResult)) : Cancellation → Cancellation
  | asked first =>
    match r with
    | .value none => failed
    | .value (some result) =>
      if result.agentSessionId ≠ agentSessionId then failed else if result.cancelled then confirmed else listing
    | .text _ => failed
    | .bridge => if first then asked false else failed
  | c => c

def listed (agentSessionId : ℕ) (r : Except Failure (List NativeSession)) : Cancellation → Cancellation
  | listing =>
    match r with
    | .error _ => failed
    | .ok sessions =>
      match sessions.find? fun session => decide (session.agentSessionId = agentSessionId) with
      | none => confirmed
      | some current => if current.isNativeOutcomeUncertain || !current.isTerminal then failed else confirmed
  | c => c

/-- The request goes to the native side a second time. -/
def asksAgain (r : InvokeReply (Option CancelResult)) (c : Cancellation) : Bool :=
  decide (c = asked true ∧ r = .bridge)

end Cancellation

/-! ## State -/

def maxPendingBootstrapFrames : ℕ := 256
def maxPendingBootstrapBytes : ℕ := 8 * 1024 * 1024

inductive ListenerSetup where
  | line
  | exit
  | ready
  | failed
  deriving DecidableEq

inductive Microtask where
  | exit (handler : ℕ)
  | detach
  deriving DecidableEq

/-- A promise of `kill`, with the calls that await it. -/
structure KillPromise where
  cancellation : Cancellation
  waiting : ℕ
  deriving DecidableEq

/-- `unlistenLine` and `unlistenExit` say that there is a function to call. -/
structure StartTransportState where
  lineHandlers : List ℕ := []
  exitHandlers : List ℕ := []
  pendingLines : List JsText := []
  pendingLineBytes : ℕ := 0
  terminalError : Bool := false
  overflowCancellation : Option Cancellation := none
  exitObserved : Bool := false
  pendingExitCode : JsValue := .null
  pendingStderrTail : Option JsText := none
  killed : Bool := false
  killPromise : Option ℕ := none
  unlistenLine : Bool := false
  unlistenExit : Bool := false
  listenerSetup : Option ListenerSetup := none
  kills : List KillPromise := []
  microtasks : List Microtask := []
  nextHandler : ℕ := 0

inductive Output where
  | line (handler : ℕ) (payload : JsText)
  | exit (handler : ℕ) (code : JsValue) (stderrTail : Option JsText)
  | cancel

abbrev Outcome := List Output × StartTransportState

/-- A cancellation that was replied to, and asked for again where its delivery is uncertain. -/
def asking (again : Bool) (outcome : Outcome) : Outcome :=
  ((if again then [.cancel] else []) ++ outcome.1, outcome.2)

namespace StartTransportState

/-! ## Listeners -/

def detachStartListeners (s : StartTransportState) : StartTransportState :=
  { s with unlistenLine := false, unlistenExit := false }

def notifyProvenExit (s : StartTransportState) : Outcome :=
  if !s.killed || !s.exitObserved then ([], s)
  else (s.exitHandlers.map fun handler => .exit handler s.pendingExitCode s.pendingStderrTail,
    { s with exitHandlers := [] })

/-- `ensureStartListeners`, up to its first await. -/
def ensureStartListeners (s : StartTransportState) : StartTransportState :=
  if s.listenerSetup = none then { s with listenerSetup := some .line } else s

def lineListening (ok : Bool) (s : StartTransportState) : StartTransportState :=
  if !ok then { s with listenerSetup := some .failed }
  else
    let s := { s with unlistenLine := true }
    if s.terminalError then { s.detachStartListeners with listenerSetup := some .ready }
    else { s with listenerSetup := some .exit }

def exitListening (ok : Bool) (s : StartTransportState) : StartTransportState :=
  if !ok then { s.detachStartListeners with listenerSetup := some .failed }
  else
    let s := { s with unlistenExit := true, listenerSetup := some .ready }
    if s.terminalError then s.detachStartListeners else s

def overflows (payload : JsText) (s : StartTransportState) : Bool :=
  decide (maxPendingBootstrapFrames ≤ s.pendingLines.length ∨
    maxPendingBootstrapBytes < s.pendingLineBytes + utf8Length payload)

def lineEvent (payload : JsText) (s : StartTransportState) : Outcome :=
  if s.lineHandlers ≠ [] then (s.lineHandlers.map fun handler => .line handler payload, s)
  else if s.overflows payload then
    if !s.terminalError then
      let s := { s with terminalError := true, pendingLines := [], pendingLineBytes := 0 }
      ([.cancel], { s.detachStartListeners with overflowCancellation := some (.asked true) })
    else ([], s)
  else ([], { s with
    pendingLines := s.pendingLines ++ [payload]
    pendingLineBytes := s.pendingLineBytes + utf8Length payload })

def observeExit (notice : NativeProcessExitNotice) (s : StartTransportState) : StartTransportState :=
  { s with
    exitObserved := true
    pendingExitCode := notice.exitCode
    pendingStderrTail := notice.stderrTail.filter fun tail => !isBlank tail
    killed := notice.isProof }

def exitEvent (payload : JsValue) (s : StartTransportState) : Outcome :=
  let s := s.observeExit ((NativeProcessExitNotice.ofPayload payload).getD .unknown)
  if s.killed then
    let (outputs, s) := s.notifyProvenExit
    (outputs, { s with microtasks := s.microtasks ++ [.detach] })
  else ([], s)

/-- The cancellation of an overflow goes on to `c`. -/
def overflowSettles (c : Cancellation) (s : StartTransportState) : StartTransportState :=
  let s := { s with overflowCancellation := some c }
  if c = .confirmed then { s with killed := true } else s

def overflowReply (agentSessionId : ℕ) (reply : InvokeReply (Option CancelResult)) (s : StartTransportState) :
    Outcome :=
  match s.overflowCancellation with
  | none => ([], s)
  | some c => asking (c.asksAgain reply) ([], s.overflowSettles (c.reply agentSessionId reply))

def overflowListed (agentSessionId : ℕ) (reply : Except Failure (List NativeSession)) (s : StartTransportState) :
    StartTransportState :=
  match s.overflowCancellation with
  | none => s
  | some c => s.overflowSettles (c.listed agentSessionId reply)

/-! ## The transport -/

def onLine (s : StartTransportState) : Outcome :=
  let attached := { s with lineHandlers := s.lineHandlers ++ [s.nextHandler], nextHandler := s.nextHandler + 1 }
  if s.pendingLines.length > 0 then
    (s.pendingLines.map fun payload => .line s.nextHandler payload,
      { attached with pendingLines := [], pendingLineBytes := 0 })
  else ([], attached)

def onExit (s : StartTransportState) : StartTransportState :=
  let next := { s with nextHandler := s.nextHandler + 1 }
  if s.killed && s.exitObserved then { next with microtasks := s.microtasks ++ [.exit s.nextHandler] }
  else { next with exitHandlers := s.exitHandlers ++ [s.nextHandler] }

def kill (s : StartTransportState) : Outcome :=
  if s.killed then ([], s)
  else
    match s.killPromise with
    | none => ([.cancel], { s with
        kills := s.kills ++ [⟨.asked true, 1⟩]
        killPromise := some s.kills.length })
    | some i => ([], { s with
        kills := s.kills.modify i fun promise => { promise with waiting := promise.waiting + 1 } })

def setKill (i : ℕ) (c : Cancellation) (s : StartTransportState) : StartTransportState :=
  { s with kills := s.kills.modify i fun promise => { promise with cancellation := c } }

/-- The cancellation of a kill goes on to `c`. -/
def killSettles (i : ℕ) (c : Cancellation) (s : StartTransportState) : Outcome :=
  let s := s.setKill i c
  if c = .confirmed then
    let (outputs, s) := { s with killed := true }.notifyProvenExit
    (outputs, s.detachStartListeners)
  else ([], s)

def killReply (agentSessionId i : ℕ) (reply : InvokeReply (Option CancelResult)) (s : StartTransportState) :
    Outcome :=
  match s.kills[i]? with
  | none => ([], s)
  | some promise => asking (promise.cancellation.asksAgain reply)
      (s.killSettles i (promise.cancellation.reply agentSessionId reply))

def killListed (agentSessionId i : ℕ) (reply : Except Failure (List NativeSession)) (s : StartTransportState) :
    Outcome :=
  match s.kills[i]? with
  | none => ([], s)
  | some promise => s.killSettles i (promise.cancellation.listed agentSessionId reply)

/-- The `catch` of a call that awaited a kill. -/
def killRejected (i : ℕ) (s : StartTransportState) : StartTransportState :=
  { s with
    kills := s.kills.modify i fun promise => { promise with waiting := promise.waiting - 1 }
    killPromise := none }

def runMicrotask (s : StartTransportState) : Outcome :=
  match s.microtasks with
  | [] => ([], s)
  | .exit handler :: rest =>
    ([.exit handler s.pendingExitCode s.pendingStderrTail], { s with microtasks := rest })
  | .detach :: rest => ([], { s.detachStartListeners with microtasks := rest })

end StartTransportState

/-! ## Events -/

inductive Event where
  | ensureStartListeners
  | lineListening (ok : Bool)
  | exitListening (ok : Bool)
  | line (payload : JsText)
  | exit (payload : JsValue)
  | overflowReply (reply : InvokeReply (Option CancelResult))
  | overflowListed (reply : Except Failure (List NativeSession))
  /-- The start was given up, and its listeners with it. -/
  | giveUp
  | onLine
  | onExit
  | kill
  | killReply (i : ℕ) (reply : InvokeReply (Option CancelResult))
  | killListed (i : ℕ) (reply : Except Failure (List NativeSession))
  | killRejected (i : ℕ)
  | microtask

namespace Event

open StartTransportState

/-- Which events can come.  A listener hears from when it is asked for until it is taken away. -/
def possible (s : StartTransportState) : Event → Bool
  | lineListening _ => decide (s.listenerSetup = some .line)
  | exitListening _ => decide (s.listenerSetup = some .exit)
  | line _ => decide (s.listenerSetup = some .line) || s.unlistenLine
  | exit _ => decide (s.listenerSetup = some .exit) || s.unlistenExit
  | overflowReply _ => s.overflowCancellation.any fun c => decide (c = .asked true ∨ c = .asked false)
  | overflowListed _ => decide (s.overflowCancellation = some .listing)
  | killReply i _ => s.kills[i]?.any fun promise =>
      decide (promise.cancellation = .asked true ∨ promise.cancellation = .asked false)
  | killListed i _ => s.kills[i]?.any fun promise => decide (promise.cancellation = .listing)
  | killRejected i => s.kills[i]?.any fun promise =>
      decide (promise.cancellation = .failed) && decide (0 < promise.waiting)
  | microtask => !s.microtasks.isEmpty
  | _ => true

def run (agentSessionId : ℕ) (s : StartTransportState) : Event → Outcome
  | ensureStartListeners => ([], s.ensureStartListeners)
  | lineListening ok => ([], s.lineListening ok)
  | exitListening ok => ([], s.exitListening ok)
  | line payload => s.lineEvent payload
  | exit payload => s.exitEvent payload
  | overflowReply reply => s.overflowReply agentSessionId reply
  | overflowListed reply => ([], s.overflowListed agentSessionId reply)
  | giveUp => ([], s.detachStartListeners)
  | onLine => s.onLine
  | onExit => ([], s.onExit)
  | kill => s.kill
  | killReply i reply => s.killReply agentSessionId i reply
  | killListed i reply => s.killListed agentSessionId i reply
  | killRejected i => ([], s.killRejected i)
  | microtask => s.runMicrotask

def Step (agentSessionId : ℕ) (s : StartTransportState) (label : Event × List Output)
    (t : StartTransportState) : Prop :=
  label.1.possible s = true ∧ label.1.run agentSessionId s = (label.2, t)

end Event

end Wiii.NekoControl
