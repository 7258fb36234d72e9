import Mathlib.Algebra.Order.Group.Int
import Mathlib.Tactic.Common

/-!
# The circuit breaker

The calls of a service ask the breaker before they start and record how they end, each under its lock; they overlap, so
that one may end while the circuit is open.  What the breaker answers is told from the past (`acquire_run`).
-/

namespace Wiii.Service.CircuitBreaker

inductive CircuitState where
  | closed
  | opened
  | halfOpen
deriving DecidableEq

structure Config where
  failureThreshold : ℤ
  recoveryTimeout : ℤ

structure State where
  state : CircuitState := .closed
  failureCount : ℕ := 0
  lastFailureTime : ℤ := 0

variable (c : Config)

def recordSuccess (s : State) : State :=
  { s with failureCount := 0, state := .closed }

def recordFailure (now : ℤ) (s : State) : State :=
  let failed := { s with failureCount := s.failureCount + 1, lastFailureTime := now }
  match s.state with
  | .halfOpen => { failed with state := .opened }
  | .closed => if c.failureThreshold ≤ failed.failureCount then { failed with state := .opened } else failed
  | .opened => failed

/-- The error is when to retry. -/
def checkAndAcquire (now : ℤ) (s : State) : Except ℤ Unit × State :=
  match s.state with
  | .closed | .halfOpen => (.ok (), s)
  | .opened =>
    let elapsed := now - s.lastFailureTime
    if c.recoveryTimeout ≤ elapsed then (.ok (), { s with state := .halfOpen })
    else (.error (c.recoveryTimeout - elapsed), s)

/-! ## The past -/

inductive Event where
  | acquire (now : ℤ)
  | success
  | failure (now : ℤ)

def step (s : State) : Event → State
  | .acquire now => (checkAndAcquire c now s).2
  | .success => recordSuccess s
  | .failure now => recordFailure c now s

/-- The state behind the events of the past, the last of them first. -/
def run : List Event → State
  | [] => {}
  | event :: past => step c (run past) event

def failures : List Event → ℕ
  | [] | .success :: _ => 0
  | .failure _ :: past => failures past + 1
  | .acquire _ :: past => failures past

def lastFailure : List Event → ℤ
  | [] => 0
  | .failure now :: _ => now
  | .acquire _ :: past | .success :: past => lastFailure past

/-- Since the last failure a call has asked when the timeout was over. -/
def probed : List Event → Bool
  | .acquire now :: past => decide (c.recoveryTimeout ≤ now - lastFailure past) || probed past
  | _ => false

/-- Too few failures to open the circuit. -/
def calm (past : List Event) : Bool := decide (failures past = 0 ∨ failures past < c.failureThreshold)

def told (past : List Event) : State where
  state := if calm c past then .closed else if probed c past then .halfOpen else .opened
  failureCount := failures past
  lastFailureTime := lastFailure past

variable {c} {past : List Event}

theorem calm_failure (now : ℤ) :
    calm c (.failure now :: past) = decide (((failures past + 1 : ℕ) : ℤ) < c.failureThreshold) :=
  decide_eq_decide.2 (or_iff_right (Nat.succ_ne_zero _))

theorem recordFailure_told (now : ℤ) : recordFailure c now (told c past) = told c (.failure now :: past) := by
  unfold recordFailure
  cases hcalm : calm c past with
  | false =>
    -- the circuit is open already, or half open
    have hlater : calm c (.failure now :: past) = false := by
      rw [calm_failure]
      simp only [calm, decide_eq_false_iff_not, not_or] at hcalm ⊢
      omega
    cases hprobed : probed c past
    all_goals
      simp only [told, hcalm, hprobed, hlater]
      rfl
  | true =>
    by_cases hreached : c.failureThreshold ≤ ((failures past + 1 : ℕ) : ℤ)
    all_goals
      simp only [told, hcalm, calm_failure, ← not_le, hreached]
      rfl

theorem checkAndAcquire_told (now : ℤ) : checkAndAcquire c now (told c past) =
    (if calm c past || probed c (.acquire now :: past) then .ok ()
      else .error (c.recoveryTimeout - (now - lastFailure past)), told c (.acquire now :: past)) := by
  have hcalm : calm c (.acquire now :: past) = calm c past := rfl
  unfold checkAndAcquire told
  rw [hcalm]
  cases calm c past with
  | true => rfl
  | false =>
    rw [probed]
    cases probed c past with
    | true =>
      rw [Bool.or_true]
      rfl
    | false =>
      rw [Bool.or_false]
      by_cases hpassed : c.recoveryTimeout ≤ now - lastFailure past
      all_goals
        simp only [hpassed]
        rfl

theorem run_eq (past : List Event) : run c past = told c past := by
  induction past with
  | nil => rfl
  | cons event past ih =>
    rw [run, ih]
    cases event with
    | acquire now => exact congrArg Prod.snd (checkAndAcquire_told now)
    | success => rfl
    | failure now => exact recordFailure_told now

/-- A call may start as long as too few have failed since the last success, or when one has asked late enough since the
last failure. -/
theorem acquire_run (past : List Event) (now : ℤ) : (checkAndAcquire c now (run c past)).1 =
    if calm c past || probed c (.acquire now :: past) then .ok ()
    else .error (c.recoveryTimeout - (now - lastFailure past)) := by
  rw [run_eq, checkAndAcquire_told]

end Wiii.Service.CircuitBreaker
