import Wiii.Neko.Journal.Steps
import Wiii.Neko.Runtime.Operations

/-!
# The runtime as a system

A state is the journal on disk and the runtime in memory.  A step is one critical section of one operation, with the
host's answers as its argument and one tick for each call on the journal; or a crash; or the opening of the runtime.
A crash in the middle of a section is the section run with every later call failing, followed by a crash.
-/

namespace Wiii.Neko

open Program Wiii.Neko.Runtime

/-- The journal on disk and the runtime in memory. -/
structure System where
  journal : Database
  runtime : Runtime

namespace System

/-- The sections of the operations, with what the host answered. -/
inductive Event where
  | admitStart (request : SessionStartRequest)
  | finishStart (request : SessionStartRequest) (probed : Probed)
  | beginWriting (request : SessionWriteRequest)
  | finishWriting (request : SessionWriteRequest) (outcome : Written)
  | cancelSession (request : SessionCancelRequest) (termination : Except String Unit)
  | drainProcesses
  | killDrained (process : Process) (termination : Except String Unit)
  | flushAll (order : List String)
  | listSessions (runId : Option String) (order : List String)
  | pollProcessExit (agentSessionId : String) (status : ProcessStatus)
  | finishProcessExit (exit : Exit) (termination : Except String Unit) (stderrTail : Option String)
  | failProviderProtocol (agentSessionId : String) (termination : Except String Unit)
      (stderrTail : Option String)
  | openRuntime (terminalNow requestNow : Timestamp)
  | crash

/-- The sessions with a pending terminal fact, in some order. -/
def ListsFacts (runtime : Runtime) (order : List String) : Prop :=
  order.Nodup ∧ ∀ s, s ∈ order ↔ (runtime.pendingTerminalFacts s).isSome

/-- The runtime is open, and a later section follows its earlier one. -/
def Event.Enabled (runtime : Runtime) : Event → Prop
  | openRuntime _ _ => runtime.up = false
  | finishStart request _ => runtime.up ∧ request ∈ runtime.starts
  | finishWriting request _ => runtime.up ∧ request ∈ runtime.writes
  | killDrained process _ => runtime.up ∧ process ∈ runtime.kills
  | finishProcessExit exit _ _ => runtime.up ∧ exit ∈ runtime.exits
  | flushAll order => runtime.up ∧ runtime.exitSupervisions = ∅ ∧ ListsFacts runtime order
  | listSessions _ order => runtime.up ∧ ListsFacts runtime order
  | admitStart _ | beginWriting _ | cancelSession _ _ | drainProcesses | pollProcessExit _ _
  | failProviderProtocol _ _ _ | crash => runtime.up

/-- Runs the program for its effect and its failure. -/
def outcome {α : Type} (m : Action (Except Failure α)) : Action (Except Failure Unit) :=
  m.andThen fun _ => pure (.ok ())

def effect (m : Action Unit) : Action (Except Failure Unit) := do
  m
  pure (.ok ())

section

variable (sha256 : List UInt8 → String) (isAbsolute : String → Bool)

def Event.program : Event → Action (Except Failure Unit)
  | admitStart request => outcome (Runtime.admitStart sha256 isAbsolute request)
  | finishStart request probed => outcome (Runtime.finishStart request probed)
  | beginWriting request => outcome (Runtime.beginWriting sha256 request)
  | finishWriting request result => outcome (Runtime.finishWriting request result)
  | cancelSession request termination =>
    outcome (Runtime.cancelSession sha256 request termination)
  | drainProcesses => effect Runtime.drainProcesses
  | killDrained process termination => effect (Runtime.killDrained process termination)
  | flushAll order => effect (Runtime.flushAll order)
  | listSessions runId order => outcome (Runtime.listSessions runId order)
  | pollProcessExit agentSessionId status =>
    effect (Runtime.pollProcessExit agentSessionId status)
  | finishProcessExit exit termination stderrTail =>
    effect (Runtime.finishProcessExit exit termination stderrTail)
  | failProviderProtocol agentSessionId termination stderrTail =>
    effect (Runtime.failProviderProtocol agentSessionId termination stderrTail)
  | openRuntime terminalNow requestNow =>
    (Runtime.openRuntime terminalNow requestNow).escalate .other fun _ => pure (.ok ())
  | crash => effect (update crashed)

/-- One run of a section: its event, the ticks of its calls and its answer. -/
structure Act where
  event : Event
  ticks : List Tick
  answer : Except Failure Unit

/-- The state and the ticks in which a section runs. -/
def world (σ : System) (ticks : List Tick) : World Database Runtime :=
  ⟨σ.journal, σ.runtime, ticks⟩

def Step (σ : System) (act : Act) (σ' : System) : Prop :=
  act.event.Enabled σ.runtime ∧
    (act.event.program sha256 isAbsolute (σ.world act.ticks)).1 = act.answer ∧
    (act.event.program sha256 isAbsolute (σ.world act.ticks)).2.durable = σ'.journal ∧
    (act.event.program sha256 isAbsolute (σ.world act.ticks)).2.volatile = σ'.runtime

end

end System

end Wiii.Neko
