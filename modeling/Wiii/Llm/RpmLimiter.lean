import Mathlib.Algebra.Order.Group.Int
import Wiii.Lib.Run
import Wiii.Lib.SlidingWindow

/-!
# The limiter of calls per minute

`acquire` counts the calls of the last minute under a lock.  When they are as many as the cap allows it sleeps; after
the sleep it drops the calls that became old and records its own, whether there is room or not.  Runs in which every
caller that wakes finds room keep to the cap (`at_most_cap`); two callers that wake together do not
(`two_wake_together`).  A stretch between two awaits is one step, and times are in nanoseconds.
-/

namespace Wiii.Llm.RpmLimiter

open Function (update update_self)
open SlidingWindow (Tracks evict count recent)

def window : ℤ := 60000000000

def margin : ℤ := 50000000

structure State where
  /-- The recorded calls, the oldest first. -/
  calls : List ℤ := []
  waitedCount : ℕ := 0
  waitedTotal : ℤ := 0
  clock : ℤ := 0
  /-- The callers that sleep, and until when. -/
  asleep : ℕ → Option ℤ := fun _ => none
  /-- When the calls of `acquire` completed: the last reading each of them makes. -/
  completed : List ℤ := []

def cap (rpm : ℤ) : ℕ := rpm.toNat

/-- Drops what is old at one reading of the clock and records the call at the next. -/
def State.record (s : State) (now later : ℤ) : State :=
  { s with
    calls := evict window now s.calls ++ [later]
    clock := later
    completed := s.completed ++ [later] }

/-- `acquire` up to its sleep, or to its end, with three readings of the clock. -/
def acquire (rpm : ℤ) (id : ℕ) (now again later : ℤ) (s : State) : State :=
  if cap rpm = 0 then s
  else
    let calls := evict window now s.calls
    if calls.length < cap rpm then s.record now later
    else
      let wait := window - (now - calls.headD now) + margin
      if 0 < wait then
        { s with
          calls := calls
          waitedCount := s.waitedCount + 1
          waitedTotal := s.waitedTotal + wait
          clock := now
          asleep := update s.asleep id (some (now + wait)) }
      else { s with calls := calls }.record again later

/-- `acquire` after its sleep. -/
def wake (id : ℕ) (now later : ℤ) (s : State) : State := { s with asleep := update s.asleep id none }.record now later

inductive Act where
  | acquire (id : ℕ) (now again later : ℤ)
  | wake (id : ℕ) (now later : ℤ)
  /-- The task of a caller that sleeps is cancelled. -/
  | cancel (id : ℕ) (now : ℤ)

/-- A sleep lasts as long as was asked for, up to the resolution of the timers. -/
inductive Step (rpm resolution : ℤ) : State → Act → State → Prop
  | acquire {s : State} {id : ℕ} {now again later : ℤ} (idle : s.asleep id = none) (tick : s.clock ≤ now)
      (next : now ≤ again) (last : again ≤ later) :
    Step rpm resolution s (.acquire id now again later) (acquire rpm id now again later s)
  | wake {s : State} {id : ℕ} {due now later : ℤ} (asleep : s.asleep id = some due) (passed : due ≤ now + resolution)
      (tick : s.clock ≤ now) (last : now ≤ later) :
    Step rpm resolution s (.wake id now later) (wake id now later s)
  | cancel {s : State} {id : ℕ} {due now : ℤ} (asleep : s.asleep id = some due) (tick : s.clock ≤ now) :
    Step rpm resolution s (.cancel id now) { s with asleep := update s.asleep id none, clock := now }

def initial (clock : ℤ) : State := { clock := clock }

/-! ## What the record holds -/

/-- The record is the end of the list of completed calls. -/
def State.Kept (s : State) : Prop := Tracks window s.clock s.completed s.calls

variable {rpm resolution : ℤ} {s t : State} {act : Act} {id : ℕ} {now again later : ℤ}

theorem State.Kept.record (h : s.Kept) (htick : s.clock ≤ now) (hlast : now ≤ later) : (s.record now later).Kept :=
  (h.mono htick).evict.append hlast

theorem State.Kept.evict (h : s.Kept) (htick : s.clock ≤ now) :
    ({ s with calls := evict window now s.calls, clock := now } : State).Kept :=
  (h.mono htick).evict

/-- A caller that finds the cap reached waits, for a positive time. -/
theorem wait_pos (h : s.Kept) (htick : s.clock ≤ now) (hcap : cap rpm ≠ 0)
    (hfull : ¬ (evict window now s.calls).length < cap rpm) :
    0 < window - (now - (evict window now s.calls).headD now) + margin := by
  cases hcalls : evict window now s.calls with
  | nil =>
    rw [hcalls] at hfull
    exact absurd (Nat.pos_of_ne_zero hcap) hfull
  | cons oldest rest =>
    have holdest : now - oldest < window :=
      (h.mono htick).lt_of_mem_evict (by rw [hcalls]; exact List.mem_cons_self)
    rw [List.headD_cons]
    have hmargin : 0 < margin := by decide
    omega

theorem acquire_cases (h : s.Kept) (htick : s.clock ≤ now) (hcap : cap rpm ≠ 0) :
    (evict window now s.calls).length < cap rpm ∧ acquire rpm id now again later s = s.record now later ∨
      cap rpm ≤ (evict window now s.calls).length ∧ ∃ wait, acquire rpm id now again later s =
        { s with
          calls := evict window now s.calls
          waitedCount := s.waitedCount + 1
          waitedTotal := s.waitedTotal + wait
          clock := now
          asleep := update s.asleep id (some (now + wait)) } := by
  unfold acquire
  rw [if_neg hcap]
  dsimp only
  by_cases hroom : (evict window now s.calls).length < cap rpm
  · exact Or.inl ⟨hroom, if_pos hroom⟩
  · refine Or.inr ⟨not_lt.1 hroom, window - (now - (evict window now s.calls).headD now) + margin, ?_⟩
    rw [if_neg hroom, if_pos (wait_pos h htick hcap hroom)]

theorem State.Kept.step (h : s.Kept) (hcap : cap rpm ≠ 0) (hstep : Step rpm resolution s act t) : t.Kept := by
  cases hstep with
  | acquire _ htick hnext hlast =>
    rcases acquire_cases h htick hcap with ⟨-, heq⟩ | ⟨-, wait, heq⟩
    · rw [heq]
      exact h.record htick (hnext.trans hlast)
    · rw [heq]
      exact h.evict htick
  | wake _ _ htick hlast => exact State.Kept.record h htick hlast
  | cancel _ htick => exact h.mono htick

theorem kept_initial (clock : ℤ) : (initial clock).Kept := Tracks.nil

/-! ## The cap -/

/-- A caller that wakes finds fewer calls of the last minute than the cap allows. -/
def FindsRoom (rpm : ℤ) (s : State) : Act → Prop
  | .wake _ now _ => (evict window now s.calls).length < cap rpm
  | _ => True

structure State.Capped (rpm : ℤ) (s : State) : Prop where
  kept : s.Kept
  counts : ∀ start, count window start s.completed ≤ cap rpm

theorem State.Capped.record (h : s.Capped rpm) (htick : s.clock ≤ now) (hlast : now ≤ later)
    (hroom : (evict window now s.calls).length < cap rpm) : (s.record now later).Capped rpm where
  kept := h.kept.record htick hlast
  counts := (h.kept.mono htick).evict.count_append_le h.counts hroom hlast

theorem State.Capped.step (h : s.Capped rpm) (hcap : cap rpm ≠ 0)
    (hstep : Guarded (Step rpm resolution) (FindsRoom rpm) s act t) : t.Capped rpm := by
  obtain ⟨hstep, hfinds⟩ := hstep
  refine ⟨h.kept.step hcap hstep, ?_⟩
  cases hstep with
  | acquire _ htick hnext hlast =>
    rcases acquire_cases h.kept htick hcap with ⟨hroom, heq⟩ | ⟨-, wait, heq⟩
    · rw [heq]
      exact (h.record htick (hnext.trans hlast) hroom).counts
    · rw [heq]
      exact h.counts
  | wake _ _ htick hlast => exact (h.record htick hlast hfinds).counts
  | cancel _ _ => exact h.counts

theorem cap_le_recent (h : s.Kept) (hcap : cap rpm ≠ 0)
    (hstep : Step rpm resolution s (.acquire id now again later) t) (hasleep : t.asleep id ≠ none) :
    cap rpm ≤ recent window now s.completed := by
  cases hstep with
  | acquire hidle htick _ _ =>
    rcases acquire_cases h htick hcap with ⟨-, heq⟩ | ⟨hfull, -⟩
    · rw [heq] at hasleep
      exact absurd hidle hasleep
    · exact hfull.trans (h.mono htick).length_evict_le

theorem cap_ne_zero (h : 0 < rpm) : cap rpm ≠ 0 := by
  unfold cap
  omega

/-- In every run in which the callers that wake find room, and callers sleep only when it is reached. -/
theorem at_most_cap {clock : ℤ} {acts : List Act} (hrpm : 0 < rpm)
    (h : Run (Guarded (Step rpm resolution) (FindsRoom rpm)) (initial clock) acts s) :
    (∀ start, count window start s.completed ≤ cap rpm) ∧
      ∀ id now again later t, Step rpm resolution s (.acquire id now again later) t → t.asleep id ≠ none →
        cap rpm ≤ recent window now s.completed := by
  have hcapped : s.Capped rpm :=
    h.invariant (fun _ _ _ hs hstep => State.Capped.step hs (cap_ne_zero hrpm) hstep)
      ⟨kept_initial clock, fun _ => Nat.zero_le _⟩
  exact ⟨hcapped.counts, fun _ _ _ _ _ hstep hasleep => cap_le_recent hcapped.kept (cap_ne_zero hrpm) hstep hasleep⟩

/-- One call a minute: the second caller sleeps, wakes alone, and finds room. -/
theorem at_most_cap_one :
    count window 0 (wake 2 60050000001 60050000002 (acquire 1 2 1 1 1 (acquire 1 1 0 0 0 (initial 0)))).completed ≤ 1 := by
  refine (@at_most_cap 1 0 _ 0 [.acquire 1 0 0 0, .acquire 2 1 1 1, .wake 2 60050000001 60050000002]
    (by decide) ?_).1 0
  refine .cons ⟨.acquire rfl (by decide) (by decide) (by decide), trivial⟩ ?_
  refine .cons ⟨.acquire rfl (by decide) (by decide) (by decide), trivial⟩ ?_
  refine .single ⟨@Step.wake _ _ _ _ 60050000000 _ _ ?_ (by decide) (by decide) (by decide), ?_⟩
  · decide
  · show (evict window 60050000001 _).length < cap 1
    decide

/-- Two callers wait for the same call to grow old, and both record theirs when it has. -/
theorem two_wake_together : ∃ acts s, Run (Step 1 0) (initial 0) acts s ∧ cap 1 < count window 60050000001 s.completed := by
  refine ⟨[.acquire 1 0 0 0, .acquire 2 1 1 1, .acquire 3 1 1 1, .wake 2 60050000001 60050000001,
    .wake 3 60050000001 60050000001],
    wake 3 60050000001 60050000001 (wake 2 60050000001 60050000001
      (acquire 1 3 1 1 1 (acquire 1 2 1 1 1 (acquire 1 1 0 0 0 (initial 0))))), ?_, ?_⟩
  · refine .cons (.acquire rfl (by decide) (by decide) (by decide)) ?_
    refine .cons (.acquire rfl (by decide) (by decide) (by decide)) ?_
    refine .cons (.acquire (by decide) (by decide) (by decide) (by decide)) ?_
    refine .cons (@Step.wake _ _ _ _ 60050000000 _ _ (by decide) (by decide) (by decide) (by decide)) ?_
    exact .single (@Step.wake _ _ _ _ 60050000000 _ _ (by decide) (by decide) (by decide) (by decide))
  · decide

end Wiii.Llm.RpmLimiter
