import Mathlib.Algebra.Order.Group.Defs
import Mathlib.Algebra.Order.Group.Basic
import Mathlib.Data.List.TakeWhile
import Mathlib.Tactic.Common

/-!
# Sliding windows

Calls are recorded at the times of a clock that does not go back, and those that lie a window or more in the past are
dropped.  `Tracks` says that the record is the end of the list of all times.  A call that is added to fewer than `cap`
recorded ones leaves at most `cap` calls in each window (`Tracks.count_append_le`).
-/

namespace Wiii.SlidingWindow

variable {τ : Type} [AddCommGroup τ] [LinearOrder τ] {width now later : τ} {times calls : List τ}

/-- Drops from the front what is a window old or older. -/
def evict (width now : τ) (calls : List τ) : List τ := calls.dropWhile fun call => decide (width ≤ now - call)

/-- How many of the times lie in the window's length from `start` on. -/
def count (width start : τ) (times : List τ) : ℕ :=
  times.countP fun time => decide (start ≤ time) && decide (time < start + width)

def recent (width now : τ) (times : List τ) : ℕ := times.countP fun time => decide (now - time < width)

theorem count_append (start : τ) (more : List τ) :
    count width start (times ++ more) = count width start times + count width start more := List.countP_append

theorem count_singleton_le (start time : τ) : count width start [time] ≤ 1 := List.countP_le_length

/-- The record is the end of all times in order; what is missing is a window old. -/
structure Tracks (width now : τ) (times calls : List τ) : Prop where
  sorted : times.Pairwise (· ≤ ·)
  past : ∀ time ∈ times, time ≤ now
  split : ∃ old, times = old ++ calls ∧ ∀ time ∈ old, width ≤ now - time

namespace Tracks

theorem nil : Tracks width now [] [] := ⟨List.Pairwise.nil, by simp, [], rfl, by simp⟩

theorem sublist (h : Tracks width now times calls) : calls.Sublist times := by
  obtain ⟨old, rfl, -⟩ := h.split
  exact List.sublist_append_right old calls

theorem evict (h : Tracks width now times calls) : Tracks width now times (evict width now calls) := by
  obtain ⟨old, hsplit, hold⟩ := h.split
  refine ⟨h.sorted, h.past, old ++ calls.takeWhile fun call => decide (width ≤ now - call), ?_, fun time htime => ?_⟩
  · rw [hsplit, List.append_assoc, SlidingWindow.evict, List.takeWhile_append_dropWhile]
  · rcases List.mem_append.1 htime with htime | htime
    · exact hold time htime
    · exact of_decide_eq_true (List.mem_takeWhile_imp (p := fun call => decide (width ≤ now - call)) htime)

variable [IsOrderedAddMonoid τ]

theorem mono (h : Tracks width now times calls) (hlater : now ≤ later) : Tracks width later times calls := by
  obtain ⟨old, hsplit, hold⟩ := h.split
  refine ⟨h.sorted, fun time htime => (h.past time htime).trans hlater, old, hsplit, fun time htime => ?_⟩
  exact (hold time htime).trans (sub_le_sub_right hlater time)

theorem lt_of_mem_evict (h : Tracks width now times calls) {call : τ} (hcall : call ∈ SlidingWindow.evict width now calls) :
    now - call < width := by
  have hsorted : (SlidingWindow.evict width now calls).Pairwise (· ≤ ·) := h.sorted.sublist h.evict.sublist
  cases hkept : SlidingWindow.evict width now calls with
  | nil => rw [hkept] at hcall; cases hcall
  | cons oldest rest =>
    rw [hkept] at hcall hsorted
    have holdest : now - oldest < width := by
      have hhead := List.head?_dropWhile_not (fun call => decide (width ≤ now - call)) calls
      rw [← SlidingWindow.evict, hkept] at hhead
      simpa using hhead
    rcases List.mem_cons.1 hcall with rfl | hrest
    · exact holdest
    · exact (sub_le_sub_left (List.rel_of_pairwise_cons hsorted hrest) now).trans_lt holdest

theorem length_evict_le (h : Tracks width now times calls) :
    (SlidingWindow.evict width now calls).length ≤ recent width now times := by
  have hall : (SlidingWindow.evict width now calls).countP (fun time => decide (now - time < width)) =
      (SlidingWindow.evict width now calls).length :=
    List.countP_eq_length.2 fun call hcall => decide_eq_true (h.lt_of_mem_evict hcall)
  rw [← hall]
  exact h.evict.sublist.countP_le

theorem append (h : Tracks width now times calls) (hlater : now ≤ later) :
    Tracks width later (times ++ [later]) (calls ++ [later]) := by
  obtain ⟨old, hsplit, hold⟩ := (h.mono hlater).split
  refine ⟨?_, fun time htime => ?_, old, by rw [hsplit, List.append_assoc], hold⟩
  · refine List.pairwise_append.2 ⟨h.sorted, List.pairwise_singleton _ _, fun time htime last hlast => ?_⟩
    rw [List.mem_singleton.1 hlast]
    exact (h.past time htime).trans hlater
  · rcases List.mem_append.1 htime with htime | htime
    · exact (h.past time htime).trans hlater
    · exact (List.mem_singleton.1 htime).le

theorem count_le_length (h : Tracks width now times calls) {start : τ} (hstart : now < start + width) :
    count width start times ≤ calls.length := by
  obtain ⟨old, rfl, hold⟩ := h.split
  have hnone : count width start old = 0 := by
    refine List.countP_eq_zero.2 fun time htime hin => ?_
    have hbegin : start ≤ time := of_decide_eq_true (Bool.and_eq_true_iff.1 hin).1
    have hend : time + width ≤ now := by
      rw [add_comm]
      exact le_sub_iff_add_le.1 (hold time htime)
    exact absurd hstart (not_lt.2 ((add_le_add_left hbegin width).trans hend))
  rw [count_append, hnone, Nat.zero_add]
  exact List.countP_le_length

theorem count_append_le (h : Tracks width now times calls) {cap : ℕ} (hcap : ∀ start, count width start times ≤ cap)
    (hroom : calls.length < cap) (hlater : now ≤ later) (start : τ) : count width start (times ++ [later]) ≤ cap := by
  rw [count_append]
  by_cases hin : start ≤ later ∧ later < start + width
  · have hle := h.count_le_length (hlater.trans_lt hin.2)
    have hone : count width start [later] ≤ 1 := count_singleton_le start later
    omega
  · have hnone : count width start [later] = 0 := by
      refine List.countP_eq_zero.2 fun time htime htrue => hin ?_
      rw [List.mem_singleton.1 htime] at htrue
      simpa using htrue
    rw [hnone]
    exact hcap start

end Tracks

end Wiii.SlidingWindow
