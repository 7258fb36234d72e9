import Wiii.Neko.Runtime.Facts
import Wiii.Neko.Runtime.Requests
import Mathlib.Data.Finset.Erase
import Mathlib.Data.Finset.Insert

/-!
# The state of the running runtime

The memory of the runtime process, and what the operations that have released the lifecycle lock carry in their local
variables: the admitted starts, the dispatched writes, the process that a monitor took out of the map and those that
`kill_all` drained.  A crash loses all of it.  `History` records what happened; no operation reads it.
-/

namespace Wiii.Neko

/-- A provider process: which one of those spawned for its session. -/
structure Process where
  agentSessionId : String
  serial : ℕ
  deriving DecidableEq

/-- A process that its monitor took out of the session map. -/
structure Exit where
  process : Process
  code : Option Int
  reason : ExitReason
  deriving DecidableEq

inductive Actor where
  | start
  | cancel
  | monitor
  | protocol
  | killAll
  deriving DecidableEq

structure Termination where
  process : Process
  actor : Actor
  deriving DecidableEq

inductive RequestKind where
  | start
  | write
  | cancel
  deriving DecidableEq

/-- The operation that a request identity was admitted for. -/
structure Owner where
  kind : RequestKind
  agentSessionId : String
  deriving DecidableEq

structure History where
  /-- The last operation each request identity was admitted for. -/
  owner : String → Option Owner
  /-- How many processes were spawned for each session. -/
  spawned : String → ℕ
  /-- The processes whose termination was attempted, and by whom. -/
  terminations : List Termination
  /-- The processes that a crash of the runtime left behind. -/
  orphans : List Process
  /-- The sessions for which a termination was not proven since the runtime opened. -/
  unproven : List String
  /-- The sessions whose row `kill_all` could not read. -/
  unread : List String

structure Runtime where
  up : Bool
  processes : Table Process.agentSessionId
  exitSupervisions : Finset String
  pendingTerminalFacts : String → Option PendingTerminalFact
  shuttingDown : Bool
  /-- The starts that were admitted and are resolving their provider. -/
  starts : List SessionStartRequest
  /-- The writes that were dispatched and wait for their acknowledgement. -/
  writes : List SessionWriteRequest
  /-- The processes in the hands of their monitors. -/
  exits : List Exit
  /-- The processes that `kill_all` has drained and not yet killed. -/
  kills : List Process
  history : History

namespace Runtime

def initial : Runtime where
  up := false
  processes := ∅
  exitSupervisions := ∅
  pendingTerminalFacts := fun _ => none
  shuttingDown := false
  starts := []
  writes := []
  exits := []
  kills := []
  history := ⟨fun _ => none, fun _ => 0, [], [], [], []⟩

/-- The processes that some thread of the runtime still owns. -/
def alive (runtime : Runtime) : List Process :=
  runtime.processes.rows ++ runtime.exits.map Exit.process ++ runtime.kills

/-- The runtime process is gone; only the record of what happened is carried on. -/
def crashed (runtime : Runtime) : Runtime :=
  { initial with
    history := { runtime.history with
      orphans := runtime.history.orphans ++ runtime.alive, unproven := [] } }

/-- A new runtime process has loaded the retained facts. -/
def opened (facts : String → Option PendingTerminalFact) (runtime : Runtime) : Runtime :=
  { runtime with up := true, pendingTerminalFacts := facts }

/-! ## The session map -/

def process (runtime : Runtime) (agentSessionId : String) : Option Process :=
  runtime.processes.find? agentSessionId

def insertProcess (process : Process) (runtime : Runtime) : Runtime :=
  { runtime with processes := runtime.processes.upsert process }

def removeProcess (agentSessionId : String) (runtime : Runtime) : Runtime :=
  { runtime with processes := runtime.processes.delete agentSessionId }

/-- `kill_all` closes admission and takes every process out of the map. -/
def drained (runtime : Runtime) : Runtime :=
  { runtime with
    shuttingDown := true, processes := ∅, kills := runtime.kills ++ runtime.processes.rows }

/-- The monitor announces its supervision and takes the process out of the map. -/
def supervise (exit : Exit) (runtime : Runtime) : Runtime :=
  { runtime.removeProcess exit.process.agentSessionId with
    exitSupervisions := insert exit.process.agentSessionId runtime.exitSupervisions
    exits := runtime.exits ++ [exit] }

def completeExitSupervision (agentSessionId : String) (runtime : Runtime) : Runtime :=
  { runtime with exitSupervisions := runtime.exitSupervisions.erase agentSessionId }

/-! ## Pending terminal facts -/

def hold (agentSessionId : String) (fact : PendingTerminalFact) (runtime : Runtime) : Runtime :=
  { runtime with
    pendingTerminalFacts := fun s =>
      if s = agentSessionId then some fact else runtime.pendingTerminalFacts s }

def release (agentSessionId : String) (runtime : Runtime) : Runtime :=
  { runtime with
    pendingTerminalFacts := fun s =>
      if s = agentSessionId then none else runtime.pendingTerminalFacts s }

/-! ## The operations that are under way -/

/-- A request identity is admitted: the record of whom it belongs to. -/
def own (requestId : String) (owner : Owner) (runtime : Runtime) : Runtime :=
  { runtime with
    history := { runtime.history with
      owner := fun r => if r = requestId then some owner else runtime.history.owner r } }

def beginStart (request : SessionStartRequest) (runtime : Runtime) : Runtime :=
  { runtime with starts := runtime.starts ++ [request] }

def endStart (request : SessionStartRequest) (runtime : Runtime) : Runtime :=
  { runtime with starts := runtime.starts.erase request }

def beginWrite (request : SessionWriteRequest) (runtime : Runtime) : Runtime :=
  { runtime with writes := runtime.writes ++ [request] }

def endWrite (request : SessionWriteRequest) (runtime : Runtime) : Runtime :=
  { runtime with writes := runtime.writes.erase request }

def endExit (exit : Exit) (runtime : Runtime) : Runtime :=
  { runtime with exits := runtime.exits.erase exit }

def endKill (process : Process) (runtime : Runtime) : Runtime :=
  { runtime with kills := runtime.kills.erase process }

/-! ## What happened -/

def nextProcess (runtime : Runtime) (agentSessionId : String) : Process :=
  ⟨agentSessionId, runtime.history.spawned agentSessionId⟩

def spawn (agentSessionId : String) (runtime : Runtime) : Runtime :=
  { runtime with
    history := { runtime.history with
      spawned := fun s => if s = agentSessionId then runtime.history.spawned s + 1
        else runtime.history.spawned s } }

def noteUnproven (agentSessionId : String) (runtime : Runtime) : Runtime :=
  { runtime with
    history := { runtime.history with unproven := runtime.history.unproven ++ [agentSessionId] } }

def noteUnread (agentSessionId : String) (runtime : Runtime) : Runtime :=
  { runtime with
    history := { runtime.history with unread := runtime.history.unread ++ [agentSessionId] } }

/-- The actor attempted to terminate the process tree, with the given result. -/
def noteTermination (process : Process) (actor : Actor) (termination : Except String Unit)
    (runtime : Runtime) : Runtime :=
  let noted := { runtime with
    history := { runtime.history with
      terminations := runtime.history.terminations ++ [⟨process, actor⟩] } }
  match termination with
  | .ok () => noted
  | .error _ => noted.noteUnproven process.agentSessionId

end Runtime

/-- The error of an operation: some say that the outcome of the session is unknown. -/
inductive Failure where
  | unknownOutcome (message : String)
  | other (message : String)
  deriving DecidableEq

end Wiii.Neko
