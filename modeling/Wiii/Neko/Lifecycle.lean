import Mathlib.Tactic.Common

/-!
# Run states, operation phases and their transitions

The lifecycle tables of the Neko runtime: the state of a session (`RunState`), the phase of an
operation (`OperationPhase`), the two transition guards and what startup recovery makes of a phase.
Both guards allow the step from a state to itself.
-/

namespace Wiii.Neko

inductive RunState where
  | queued
  | starting
  | running
  | waiting
  | verifying
  | review
  | completed
  | failed
  | cancelled
  | unknownOutcome
  deriving DecidableEq, Repr

namespace RunState

def asStr : RunState → String
  | queued => "queued"
  | starting => "starting"
  | running => "running"
  | waiting => "waiting"
  | verifying => "verifying"
  | review => "review"
  | completed => "completed"
  | failed => "failed"
  | cancelled => "cancelled"
  | unknownOutcome => "unknown_outcome"

def parse (value : String) : Option RunState :=
  match value with
  | "queued" => some queued
  | "starting" => some starting
  | "running" => some running
  | "waiting" => some waiting
  | "verifying" => some verifying
  | "review" => some review
  | "completed" => some completed
  | "failed" => some failed
  | "cancelled" => some cancelled
  | "unknown_outcome" => some unknownOutcome
  | _ => none

def isTerminal : RunState → Bool
  | completed | failed | cancelled | unknownOutcome => true
  | _ => false

@[simp] theorem parse_asStr (s : RunState) : parse s.asStr = some s := by
  cases s <;> rfl

end RunState

def canTransition (source target : RunState) : Bool :=
  if source = target then true
  else match source, target with
    | .queued, .starting | .queued, .cancelled => true
    | .starting, .running | .starting, .failed | .starting, .cancelled
    | .starting, .unknownOutcome => true
    | .running, .waiting | .running, .verifying | .running, .failed | .running, .cancelled
    | .running, .unknownOutcome => true
    | .waiting, .running | .waiting, .failed | .waiting, .cancelled
    | .waiting, .unknownOutcome => true
    | .verifying, .running | .verifying, .review | .verifying, .failed | .verifying, .cancelled
    | .verifying, .unknownOutcome => true
    | .review, .completed | .review, .failed | .review, .cancelled
    | .review, .unknownOutcome => true
    | _, _ => false

inductive OperationPhase where
  | accepted
  | dispatched
  | sideEffectStarted
  | committed
  | completed
  | failed
  | unknownOutcome
  deriving DecidableEq, Repr

namespace OperationPhase

def asStr : OperationPhase → String
  | accepted => "accepted"
  | dispatched => "dispatched"
  | sideEffectStarted => "side_effect_started"
  | committed => "committed"
  | completed => "completed"
  | failed => "failed"
  | unknownOutcome => "unknown_outcome"

def parse (value : String) : Option OperationPhase :=
  match value with
  | "accepted" => some accepted
  | "dispatched" => some dispatched
  | "side_effect_started" => some sideEffectStarted
  | "committed" => some committed
  | "completed" => some completed
  | "failed" => some failed
  | "unknown_outcome" => some unknownOutcome
  | _ => none

@[simp] theorem parse_asStr (p : OperationPhase) : parse p.asStr = some p := by
  cases p <;> rfl

/-- The phases with no way out: the outcome of the operation is recorded. -/
def isTerminal : OperationPhase → Bool
  | completed | failed | unknownOutcome => true
  | _ => false

end OperationPhase

/-- The guard of every phase advance, of requests and of sessions. -/
def canAdvanceOperation (source target : OperationPhase) : Bool :=
  if source = target then true
  else match source, target with
    | .accepted, .dispatched | .accepted, .completed | .accepted, .failed => true
    | .dispatched, .sideEffectStarted | .dispatched, .failed => true
    | .sideEffectStarted, .committed | .sideEffectStarted, .failed
    | .sideEffectStarted, .unknownOutcome => true
    | .committed, .completed | .committed, .failed | .committed, .unknownOutcome => true
    | _, _ => false

/-- What startup recovery makes of the phase a dead process left behind. -/
inductive RecoveryDisposition where
  | preserve
  | continuityLost
  | unknownOutcome
  deriving DecidableEq, Repr

def recoveryDisposition : OperationPhase → RecoveryDisposition
  | .accepted | .dispatched => .continuityLost
  | .sideEffectStarted | .committed => .unknownOutcome
  | .completed | .failed | .unknownOutcome => .preserve

/-! ## Consequences of the two tables -/

theorem canTransition_terminal {s t : RunState} (hs : s.isTerminal) (h : canTransition s t) :
    t = s := by
  cases s <;> simp [RunState.isTerminal] at hs <;> cases t <;> simp [canTransition] at h ⊢

theorem canTransition_queued {s : RunState} (h : canTransition s .queued) : s = .queued := by
  cases s <;> simp [canTransition] at h ⊢

theorem canTransition_end {s : RunState} (hs : s.isTerminal = false) (hq : s ≠ .queued) :
    canTransition s .failed ∧ canTransition s .cancelled ∧ canTransition s .unknownOutcome := by
  cases s <;> simp [RunState.isTerminal] at hs <;> simp [canTransition] at hq ⊢

theorem canAdvanceOperation_terminal {p q : OperationPhase} (hp : p.isTerminal)
    (h : canAdvanceOperation p q) : q = p := by
  cases p <;> simp [OperationPhase.isTerminal] at hp <;> cases q <;>
    simp [canAdvanceOperation] at h ⊢

end Wiii.Neko
