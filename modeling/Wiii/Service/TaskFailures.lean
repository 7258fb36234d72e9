import Wiii.Service.ScheduledTasks

/-!
# Failures of a recurring task

A task is given up when its failure count reaches three.  A success does not reset the count, so three failures over the
whole life of the task are enough (`given_up_between_successes`).
-/

namespace Wiii.Service

inductive Outcome where
  | succeeded
  | failed
  deriving DecidableEq

/-- A task is created, or the outcome of an execution marked. -/
inductive TaskMark where
  /-- `create_task` has inserted the row. -/
  | created (id userId scheduleType scheduleExpr : String) (nextRun maxRuns : Option ℤ) (org : String)
  | executed (taskId : String) (now : ℤ) (nextRun : Option ℤ) (organizationId ambient : Option String) (commit : Commit)
  | failed (taskId : String) (now : ℤ) (error : String) (organizationId ambient : Option String) (commit : Commit)

namespace TaskMark

def outcome (t : String) : TaskMark → Option Outcome
  | .created .. => none
  | .executed taskId .. => if taskId = t then some .succeeded else none
  | .failed taskId .. => if taskId = t then some .failed else none

def step (tasks : TaskTable) : TaskMark → Option TaskTable
  | .created id userId scheduleType scheduleExpr nextRun maxRuns org =>
    tasks.insert? (TaskBoard.newTask id userId scheduleType scheduleExpr nextRun maxRuns org)
  | .executed taskId now nextRun organizationId ambient commit =>
    some (markExecuted now nextRun taskId (orgScope ambient organizationId) commit tasks)
  | .failed taskId now error organizationId ambient commit =>
    some (markFailed now error taskId (orgScope ambient organizationId) commit tasks)

def Step (tasks : TaskTable) (mark : TaskMark) (tasks' : TaskTable) : Prop := mark.step tasks = some tasks'

/-- A success is marked before the first counted failure, or when the task is given up. -/
def SucceedsFirst (t : String) (tasks : TaskTable) (mark : TaskMark) : Prop :=
  mark.outcome t = some .succeeded → ∀ task, tasks.find? t = some task →
    task.failureCount.getD 0 = 0 ∨ 3 ≤ task.failureCount.getD 0

end TaskMark

/-- The status is `failed`, or the failure count keeps the task from being polled. -/
def ScheduledTask.GivenUp (task : ScheduledTask) : Prop := task.status = .failed ∨ 3 ≤ task.failureCount.getD 0

instance (task : ScheduledTask) : Decidable task.GivenUp := inferInstanceAs (Decidable (_ ∨ _))

def ThreeInARow (outcomes : List Outcome) : Prop := List.replicate 3 .failed <:+: outcomes

variable {t : String} {tasks tasks' : TaskTable} {outcomes : List Outcome} {mark : TaskMark}

/-- Failures that are counted short of three are the last outcomes. -/
structure Counted (outcomes : List Outcome) (task : ScheduledTask) : Prop where
  last : task.failureCount.getD 0 < 3 → List.replicate (task.failureCount.getD 0) .failed <:+ outcomes
  three : 3 ≤ task.failureCount.getD 0 → ThreeInARow outcomes
  status : task.status = .failed → 3 ≤ task.failureCount.getD 0

namespace Counted

variable {task : ScheduledTask}

theorem fresh (hcount : task.failureCount.getD 0 = 0) (hstatus : task.status ≠ .failed) : Counted outcomes task := by
  refine ⟨fun _ => ?_, fun h => ?_, fun h => absurd h hstatus⟩
  · rw [hcount]
    exact List.nil_suffix
  · omega

theorem fail (h : Counted outcomes task) (now : ℤ) (error : String) :
    Counted (outcomes ++ [.failed]) (task.recordFailure now error) := by
  have hlast (hlt : task.failureCount.getD 0 < 3) :
      List.replicate (task.failureCount.getD 0 + 1) .failed <:+ outcomes ++ [.failed] := by
    rw [List.replicate_succ', List.suffix_concat_iff]
    exact Or.inr ⟨_, rfl, h.last hlt⟩
  refine ⟨fun hlt => ?_, fun hle => ?_, fun hstatus => ?_⟩
  · simp only [ScheduledTask.recordFailure, Option.getD_some] at hlt ⊢
    exact hlast (by omega)
  · simp only [ScheduledTask.recordFailure, Option.getD_some] at hle
    by_cases hthree : 3 ≤ task.failureCount.getD 0
    · exact (h.three hthree).trans (List.prefix_append _ _).isInfix
    · have heq : task.failureCount.getD 0 + 1 = 3 := by omega
      have hthree' := (hlast (by omega)).isInfix
      rwa [heq] at hthree'
  · simp only [ScheduledTask.recordFailure, Option.getD_some] at hstatus ⊢
    split at hstatus
    next hle => exact hle
    next => exact Nat.le_succ_of_le (h.status hstatus)

theorem unrecorded (h : Counted outcomes task) : Counted (outcomes ++ [.failed]) task := by
  refine ⟨fun hlt => ?_, fun hle => (h.three hle).trans (List.prefix_append _ _).isInfix, h.status⟩
  have hmore : List.replicate (task.failureCount.getD 0 + 1) .failed <:+ outcomes ++ [.failed] := by
    rw [List.replicate_succ', List.suffix_concat_iff]
    exact Or.inr ⟨_, rfl, h.last hlt⟩
  rw [List.replicate_succ] at hmore
  exact (List.suffix_cons _ _).trans hmore

theorem succeed {task' : ScheduledTask} (h : Counted outcomes task)
    (hfirst : task.failureCount.getD 0 = 0 ∨ 3 ≤ task.failureCount.getD 0)
    (hcount : task'.failureCount = task.failureCount) (hstatus : task'.status = .failed → task.status = .failed) :
    Counted (outcomes ++ [.succeeded]) task' := by
  refine ⟨fun hlt => ?_, fun hle => ?_, fun hfailed => ?_⟩
  · rw [hcount] at hlt ⊢
    rw [hfirst.resolve_right (by omega)]
    exact List.nil_suffix
  · rw [hcount] at hle
    exact (h.three hle).trans (List.prefix_append _ _).isInfix
  · rw [hcount]
    exact h.status (hstatus hfailed)

end Counted

theorem status_checkMaxRuns {task : ScheduledTask} (h : task.checkMaxRuns.status = .failed) : task.status = .failed := by
  unfold ScheduledTask.checkMaxRuns at h
  split at h
  · cases h
  · exact h

theorem status_recordRun {task : ScheduledTask} {now : ℤ} {nextRun : Option ℤ}
    (h : (task.recordRun now nextRun).status = .failed) : task.status = .failed := by
  cases nextRun with
  | none => cases h
  | some next => exact h

theorem failureCount_mark (now : ℤ) (nextRun : Option ℤ) (task : ScheduledTask) :
    (task.recordRun now nextRun).checkMaxRuns.failureCount = task.failureCount := by
  unfold ScheduledTask.checkMaxRuns
  cases nextRun <;> split <;> rfl

theorem TaskMark.SucceedsFirst.of_other (h : mark.outcome t ≠ some .succeeded) : mark.SucceedsFirst t tasks :=
  fun hsucceeded => absurd hsucceeded h

theorem counted_step (hcounted : ∀ task, tasks.find? t = some task → Counted outcomes task)
    (hfirst : mark.SucceedsFirst t tasks) (hstep : mark.step tasks = some tasks') :
    ∀ task, tasks'.find? t = some task → Counted (outcomes ++ (mark.outcome t).toList) task := by
  intro task hfind
  cases mark with
  | created id userId scheduleType scheduleExpr nextRun maxRuns org =>
    simp only [TaskMark.outcome, Option.toList_none, List.append_nil]
    rw [Table.find?_insert? hstep] at hfind
    split at hfind
    · cases hfind
      exact .fresh rfl (by rintro ⟨⟩)
    · exact hcounted task hfind
  | executed taskId now nextRun organizationId ambient commit =>
    cases hstep
    obtain ⟨before, hbefore, rfl⟩ := Option.map_eq_some_iff.1 ((TaskBoard.find?_updateTask t).symm.trans hfind)
    have hb := hcounted before hbefore
    by_cases ht : taskId = t
    · have houtcome : (TaskMark.executed taskId now nextRun organizationId ambient commit).outcome t = some .succeeded :=
        if_pos ht
      rw [houtcome]
      have hzero := hfirst houtcome before hbefore
      split
      · exact hb.succeed hzero (failureCount_mark now nextRun before) fun h => status_recordRun (status_checkMaxRuns h)
      · exact hb.succeed hzero rfl id
    · rw [if_neg fun h => ht h.2.1.symm, TaskMark.outcome, if_neg ht]
      simpa using hb
  | failed taskId now error organizationId ambient commit =>
    cases hstep
    obtain ⟨before, hbefore, rfl⟩ := Option.map_eq_some_iff.1 ((TaskBoard.find?_updateTask t).symm.trans hfind)
    have hb := hcounted before hbefore
    by_cases ht : taskId = t
    · rw [TaskMark.outcome, if_pos ht]
      split
      · exact hb.fail now error
      · exact hb.unrecorded
    · rw [if_neg fun h => ht h.2.1.symm, TaskMark.outcome, if_neg ht]
      simpa using hb

/-- A task whose successes come before its first counted failure is given up for three failures in a row only. -/
theorem given_up_after_three (t : String) (marks : List TaskMark) (tasks : TaskTable)
    (hrun : Run (Guarded TaskMark.Step (TaskMark.SucceedsFirst t)) ∅ marks tasks) (task : ScheduledTask)
    (hfind : tasks.find? t = some task) (hgivenUp : task.GivenUp) : ThreeInARow (marks.filterMap (TaskMark.outcome t)) := by
  have hcounted : ∀ row, tasks.find? t = some row → Counted (marks.filterMap (TaskMark.outcome t)) row := by
    have hempty : ∀ row, Table.find? (∅ : TaskTable) t = some row → Counted [] row := fun row hrow => by
      rw [Table.find?_empty] at hrow
      cases hrow
    have hinvariant := @Run.invariant_outputs _ _ _ _ (fun mark => (TaskMark.outcome t mark).toList)
      (fun outcomes tasks => ∀ row, tasks.find? t = some row → Counted outcomes row)
      (fun _ _ _ _ hI hstep => counted_step hI hstep.2 hstep.1) _ _ _ hrun [] hempty
    rwa [List.nil_append, ← List.filterMap_eq_flatMap_toList] at hinvariant
  have hrow := hcounted task hfind
  exact hrow.three (hgivenUp.elim hrow.status id)

def marksOfThree : List TaskMark :=
  [.created "t1" "u1" "recurring" "1h" (some 0) none "org",
    .executed "t1" 1 (some 2) (some "org") none .acknowledged,
    .failed "t1" 3 "timeout" (some "org") none .acknowledged,
    .failed "t1" 4 "timeout" (some "org") none .acknowledged,
    .failed "t1" 5 "timeout" (some "org") none .acknowledged]

theorem given_up_after_three_failures : ThreeInARow (marksOfThree.filterMap (TaskMark.outcome "t1")) := by
  refine given_up_after_three "t1" marksOfThree _
    (.cons ⟨rfl, .of_other (by decide)⟩ (.cons ⟨rfl, fun _ task hfind => ?_⟩ (.cons ⟨rfl, .of_other (by decide)⟩
      (.cons ⟨rfl, .of_other (by decide)⟩ (.cons ⟨rfl, .of_other (by decide)⟩ (.nil _)))))) _ rfl (by decide)
  cases hfind
  exact Or.inl rfl

/-- Three failures with successes between them. -/
def marksWithSuccess : List TaskMark :=
  [.created "t1" "u1" "recurring" "1h" (some 0) none "org",
    .failed "t1" 1 "timeout" (some "org") none .acknowledged,
    .executed "t1" 2 (some 3) (some "org") none .acknowledged,
    .failed "t1" 4 "timeout" (some "org") none .acknowledged,
    .executed "t1" 5 (some 6) (some "org") none .acknowledged,
    .failed "t1" 7 "timeout" (some "org") none .acknowledged]

theorem given_up_between_successes : ∃ tasks task, Run TaskMark.Step ∅ marksWithSuccess tasks ∧
    tasks.find? "t1" = some task ∧ task.GivenUp ∧
      ¬ ThreeInARow (marksWithSuccess.filterMap (TaskMark.outcome "t1")) := by
  refine ⟨_, _, .cons rfl (.cons rfl (.cons rfl (.cons rfl (.cons rfl (.cons rfl (.nil _)))))), rfl, by decide, ?_⟩
  rw [ThreeInARow]
  decide

end Wiii.Service
