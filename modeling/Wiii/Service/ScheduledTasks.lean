import Mathlib
import Wiii.Lib.PyText
import Wiii.Lib.Run
import Wiii.Lib.Table

/-!
# Scheduled tasks

The table of scheduled tasks and the executors that poll it.  An executor reads the due rows, and then executes a task,
notifies the user and marks the row, one after the other.  Neither the read nor any update claims a row, so two
executors may hold one task and a task may be cancelled while it is held.
-/

namespace Wiii.Service

open PyText (strip isSpace)

inductive TaskStatus where
  | active
  | completed
  | cancelled
  | failed
  deriving DecidableEq

/-- A row of `scheduled_tasks`.  Times are in microseconds. -/
structure ScheduledTask where
  id : String
  userId : String
  scheduleType : String
  scheduleExpr : String
  nextRun : Option ℤ
  lastRun : Option ℤ
  runCount : ℕ
  maxRuns : Option ℤ
  status : TaskStatus
  failureCount : Option ℕ
  lastError : Option String
  organizationId : String
  deriving DecidableEq

abbrev TaskTable := Table ScheduledTask.id

/-! ## The next run of a recurring task -/

/-- The digits so far, whether a space follows, and the numbers with units. -/
structure IntervalScan where
  number : Option (List ℕ)
  spaced : Bool
  found : List (List ℕ × Char)

def IntervalScan.initial : IntervalScan := ⟨none, false, []⟩

/-- One character of the search; `decimal` is the value of a decimal digit. -/
def IntervalScan.step (decimal : Char → Option ℕ) (scan : IntervalScan) (c : Char) : IntervalScan :=
  match decimal c with
  | some d =>
    let number := if scan.spaced then [d] else scan.number.getD [] ++ [d]
    { scan with number := some number, spaced := false }
  | none =>
    if isSpace c then { scan with spaced := scan.number.isSome }
    else
      match scan.number with
      | some v =>
        if c ∈ ['s', 'S', 'm', 'M', 'h', 'H', 'd', 'D', 'ſ'] then ⟨none, false, scan.found ++ [(v, c)]⟩
        else ⟨none, false, scan.found⟩
      | none => ⟨none, false, scan.found⟩

def unitSeconds (v : ℕ) (unit : Char) : ℕ :=
  if unit = 's' ∨ unit = 'S' then v
  else if unit = 'm' ∨ unit = 'M' then 60 * v
  else if unit = 'h' ∨ unit = 'H' then 3600 * v
  else if unit = 'd' ∨ unit = 'D' then 86400 * v
  else 0

def numberOf (digits : List ℕ) : ℕ := digits.foldl (fun v d => 10 * v + d) 0

/-- The number of digits up to which `int` reads a number. -/
def maxIntDigits : ℕ := 4300

/-- The sum of numbers with their units, in seconds. -/
def totalSeconds (parts : List (List ℕ × Char)) : ℕ :=
  (parts.map fun (digits, unit) => unitSeconds (numberOf digits) unit).sum

/-- The largest `timedelta`, in whole seconds. -/
def maxTimedelta : ℕ := 999999999 * 86400 + 86399

def maxDatetime : ℤ := 253402300799999999

/-- `_parse_interval`, in seconds, which may overflow or meet too many digits. -/
def parseInterval (decimal : Char → Option ℕ) (expr : String) : Except Unit (Option ℕ) :=
  let found := (expr.toList.foldl (IntervalScan.step decimal) .initial).found
  if found.any (fun part => decide (maxIntDigits < part.1.length)) || decide (maxTimedelta < totalSeconds found) then
    .error ()
  else if 0 < totalSeconds found then .ok (some (totalSeconds found))
  else .ok none

/-- `_calculate_next_run`. -/
def calculateNextRun (decimal : Char → Option ℕ) (now : ℤ) (task : ScheduledTask) :
    Except Unit (Option ℤ) :=
  if task.scheduleType = "recurring" ∧ task.scheduleExpr ≠ "" then
    match parseInterval decimal task.scheduleExpr with
    | .error error => .error error
    | .ok none => .ok none
    | .ok (some delta) =>
      let next := now + 1000000 * delta
      if maxDatetime < next then .error () else .ok (some next)
  else .ok none

def nextRunOf (decimal : Char → Option ℕ) (now : ℤ) (task : ScheduledTask) : Except Unit (Option ℤ) :=
  if task.scheduleType = "once" then .ok none else calculateNextRun decimal now task

section

variable {decimal : Char → Option ℕ} {now next : ℤ} {task : ScheduledTask}

theorem lt_of_calculateNextRun (h : calculateNextRun decimal now task = .ok (some next)) : now < next := by
  unfold calculateNextRun at h
  split at h
  · cases hparse : parseInterval decimal task.scheduleExpr with
    | error _ => simp [hparse] at h
    | ok found =>
      cases found with
      | none => simp [hparse] at h
      | some delta =>
        have hpos : 0 < delta := by
          unfold parseInterval at hparse
          simp only at hparse
          split at hparse
          · cases hparse
          · split at hparse
            · cases hparse
              assumption
            · cases hparse
        simp only [hparse] at h
        split at h
        · cases h
        · cases h
          omega
  · cases h

theorem lt_of_nextRunOf (h : nextRunOf decimal now task = .ok (some next)) : now < next := by
  unfold nextRunOf at h
  split at h
  · cases h
  · exact lt_of_calculateNextRun h

end

/-! ## The statements -/

/-- The organisation of a statement: the one given, or the context's; none blocks it. -/
def orgScope (ambient : Option String) (organizationId : Option String) : Option String :=
  match organizationId with
  | some org => if strip org ≠ "" then some (strip org) else ambient.filter (· ≠ "")
  | none => ambient.filter (· ≠ "")

/-- What becomes of a transaction: an error may be reported although it took effect. -/
inductive Commit where
  | acknowledged
  | unacknowledged
  | rolledBack
  deriving DecidableEq

def Commit.applied : Commit → Bool
  | acknowledged | unacknowledged => true
  | rolledBack => false

namespace ScheduledTask

def isDue (now : ℤ) (task : ScheduledTask) : Bool :=
  decide (task.status = .active) && task.nextRun.any (fun next => decide (next ≤ now)) &&
    decide (task.failureCount.getD 0 < 3)

/-- A row that an update on behalf of an organisation finds. -/
def inScope (taskId org : String) (task : ScheduledTask) : Bool :=
  decide (task.id = taskId) && decide (task.organizationId = org)

/-- The row that `cancel_task` finds. -/
def cancellable (taskId userId org : String) (task : ScheduledTask) : Bool :=
  task.inScope taskId org && decide (task.userId = userId) && decide (task.status = .active)

def cancel (task : ScheduledTask) : ScheduledTask := { task with status := .cancelled }

/-- The update of `mark_failed`. -/
def recordFailure (now : ℤ) (error : String) (task : ScheduledTask) : ScheduledTask :=
  { task with
    failureCount := some (task.failureCount.getD 0 + 1), lastError := some error, lastRun := some now
    status := if task.failureCount.getD 0 + 1 ≥ 3 then .failed else task.status }

/-- The first update of `mark_executed`. -/
def recordRun (now : ℤ) (nextRun : Option ℤ) (task : ScheduledTask) : ScheduledTask :=
  match nextRun with
  | some next => { task with lastRun := some now, runCount := task.runCount + 1, nextRun := some next }
  | none =>
    { task with
      lastRun := some now, runCount := task.runCount + 1, nextRun := none, status := .completed }

/-- The second update of `mark_executed`. -/
def checkMaxRuns (task : ScheduledTask) : ScheduledTask :=
  if task.maxRuns.any (fun max : ℤ => decide (max ≤ (task.runCount : ℤ))) then
    { task with status := .completed, nextRun := none }
  else task

end ScheduledTask

/-- An update limited to the organisation of a scope, if the transaction takes effect. -/
def updateTask (tasks : TaskTable) (commit : Commit) (scope : Option String) (taskId : String)
    (f : ScheduledTask → ScheduledTask) (hf : ∀ task, (f task).id = task.id := by intro _; rfl) : TaskTable :=
  match scope with
  | some org => if commit.applied then tasks.updateWhere (ScheduledTask.inScope taskId org) f hf else tasks
  | none => tasks

/-- `mark_failed`. -/
def markFailed (now : ℤ) (error taskId : String) (scope : Option String) (commit : Commit)
    (tasks : TaskTable) : TaskTable :=
  updateTask tasks commit scope taskId (ScheduledTask.recordFailure now error)

theorem id_checkMaxRuns (task : ScheduledTask) : task.checkMaxRuns.id = task.id := by
  unfold ScheduledTask.checkMaxRuns
  split <;> rfl

theorem id_mark (now : ℤ) (nextRun : Option ℤ) (task : ScheduledTask) :
    ((task.recordRun now nextRun).checkMaxRuns).id = task.id := by
  rw [id_checkMaxRuns]
  cases nextRun <;> rfl

/-- `mark_executed`. -/
def markExecuted (now : ℤ) (nextRun : Option ℤ) (taskId : String) (scope : Option String) (commit : Commit)
    (tasks : TaskTable) : TaskTable :=
  updateTask tasks commit scope taskId (fun task => (task.recordRun now nextRun).checkMaxRuns)
    (id_mark now nextRun)

/-- The earliest due rows by their next run, in any order within one time. -/
def IsDueAnswer (now : ℤ) (limit : ℕ) (tasks : TaskTable) (rows : List ScheduledTask) : Prop :=
  (rows.map ScheduledTask.id).Nodup ∧ rows.length ≤ limit ∧
    (∀ row ∈ rows, row ∈ tasks.rows ∧ row.isDue now = true) ∧
    rows.Pairwise (fun a b => a.nextRun.getD 0 ≤ b.nextRun.getD 0) ∧
    ∀ row ∈ tasks.rows, row.isDue now = true → row ∈ rows ∨
      rows.length = limit ∧ ∀ earlier ∈ rows, earlier.nextRun.getD 0 ≤ row.nextRun.getD 0

instance (now : ℤ) (limit : ℕ) (tasks : TaskTable) (rows : List ScheduledTask) :
    Decidable (IsDueAnswer now limit tasks rows) :=
  inferInstanceAs (Decidable (_ ∧ _ ∧ _ ∧ _ ∧ _))

/-! ## The executors -/

/-- How far an executor is with the first task of its batch. -/
inductive Stage where
  | waiting
  | executing
  | executed
  | notified
  | failed (error : String)
  deriving DecidableEq

/-- The rows that an executor read and has not finished, and the clock of the read. -/
structure Executor where
  batch : List ScheduledTask
  stage : Stage
  fetchedAt : ℤ

def Executor.idle : Executor := ⟨[], .waiting, 0⟩

def Executor.next (executor : Executor) : Executor :=
  { executor with batch := executor.batch.tail, stage := .waiting }

inductive TaskEvent where
  | cancelled (taskId : String)
  | began (taskId : String)
  | delivered (taskId : String) (occurrence : Option ℤ) (raised : Bool)
  deriving DecidableEq

structure TaskBoard where
  tasks : TaskTable
  executors : ℕ → Executor
  /-- What happened, oldest first. -/
  history : List TaskEvent

def TaskBoard.initial : TaskBoard := ⟨∅, fun _ => .idle, []⟩

namespace TaskBoard

def setExecutor (board : TaskBoard) (e : ℕ) (executor : Executor) : TaskBoard :=
  { board with executors := fun e' => if e' = e then executor else board.executors e' }

def note (board : TaskBoard) (event : TaskEvent) : TaskBoard :=
  { board with history := board.history ++ [event] }

inductive Act where
  /-- `create_task` has inserted the row. -/
  | create (id userId scheduleType scheduleExpr : String) (nextRun maxRuns : Option ℤ)
      (organizationId ambient : Option String)
  | cancel (taskId userId : String) (ambient : Option String) (commit : Commit)
  /-- An idle executor reads the due rows. -/
  | poll (e : ℕ) (now : ℤ) (limit : ℕ) (rows : List ScheduledTask)
  | startTask (e : ℕ)
  /-- The execution of a task returned, or raised or timed out. -/
  | executed (e : ℕ) (error : Option String)
  /-- The notification of the user returned, or raised. -/
  | notified (e : ℕ) (error : Option String)
  /-- The next run is calculated and the task marked as executed. -/
  | finish (e : ℕ) (now : ℤ) (ambient : Option String) (commit : Commit)
  | fail (e : ℕ) (now : ℤ) (ambient : Option String) (commit : Commit)
  /-- The executor is gone, with what it held. -/
  | crash (e : ℕ)

/-- Whether `cancel_task` answers True. -/
def cancels (board : TaskBoard) (taskId userId : String) (ambient : Option String) (commit : Commit) : Bool :=
  decide (commit = .acknowledged) && (orgScope ambient none).any fun org =>
    (board.tasks.find? taskId).any (ScheduledTask.cancellable taskId userId org)

def applyCancel (board : TaskBoard) (taskId userId : String) (ambient : Option String) (commit : Commit) :
    TaskTable :=
  match orgScope ambient none with
  | some org =>
    if commit.applied then
      board.tasks.updateWhere (ScheduledTask.cancellable taskId userId org) ScheduledTask.cancel
    else board.tasks
  | none => board.tasks

def newTask (id userId scheduleType scheduleExpr : String) (nextRun maxRuns : Option ℤ) (org : String) :
    ScheduledTask :=
  ⟨id, userId, scheduleType, scheduleExpr, nextRun, none, 0, maxRuns, .active, some 0, none, org⟩

variable (decimal : Char → Option ℕ)

def step (board : TaskBoard) : Act → Option TaskBoard
  | .create id userId scheduleType scheduleExpr nextRun maxRuns organizationId ambient =>
    (orgScope ambient organizationId).bind fun org =>
      (board.tasks.insert? (newTask id userId scheduleType scheduleExpr nextRun maxRuns org)).map fun tasks =>
        { board with tasks }
  | .cancel taskId userId ambient commit =>
    let after := { board with tasks := board.applyCancel taskId userId ambient commit }
    if board.cancels taskId userId ambient commit then some (after.note (.cancelled taskId)) else some after
  | .poll e now limit rows =>
    if (board.executors e).batch = [] ∧ IsDueAnswer now limit board.tasks rows then
      some (board.setExecutor e ⟨rows, .waiting, now⟩)
    else none
  | .startTask e =>
    match board.executors e with
    | ⟨task :: rest, .waiting, at'⟩ =>
      some ((board.setExecutor e ⟨task :: rest, .executing, at'⟩).note (.began task.id))
    | _ => none
  | .executed e error =>
    match board.executors e with
    | ⟨task :: rest, .executing, at'⟩ =>
      some (board.setExecutor e ⟨task :: rest, error.elim .executed .failed, at'⟩)
    | _ => none
  | .notified e error =>
    match board.executors e with
    | ⟨task :: rest, .executed, at'⟩ =>
      some ((board.setExecutor e ⟨task :: rest, error.elim .notified .failed, at'⟩).note
        (.delivered task.id task.nextRun error.isSome))
    | _ => none
  | .finish e now ambient commit =>
    match board.executors e with
    | ⟨task :: rest, .notified, at'⟩ =>
      match nextRunOf decimal now task with
      | .error () => some (board.setExecutor e ⟨task :: rest, .failed "date value out of range", at'⟩)
      | .ok nextRun =>
        some { board.setExecutor e (board.executors e).next with
          tasks := markExecuted now nextRun task.id (orgScope ambient (some task.organizationId)) commit
            board.tasks }
    | _ => none
  | .fail e now ambient commit =>
    match board.executors e with
    | ⟨task :: _, .failed error, _⟩ =>
      some { board.setExecutor e (board.executors e).next with
        tasks := markFailed now error task.id (orgScope ambient (some task.organizationId)) commit
          board.tasks }
    | _ => none
  | .crash e => some (board.setExecutor e .idle)

def Step (board : TaskBoard) (act : Act) (board' : TaskBoard) : Prop := board.step decimal act = some board'

variable {decimal} {board board' : TaskBoard} {e : ℕ}

/-! ## What each act does -/

@[simp] theorem executors_setExecutor (executor : Executor) (e' : ℕ) :
    (board.setExecutor e executor).executors e' = if e' = e then executor else board.executors e' := rfl

theorem step_startTask (h : board.step decimal (.startTask e) = some board') :
    ∃ task rest at', board.executors e = ⟨task :: rest, .waiting, at'⟩ ∧
      board' = (board.setExecutor e ⟨task :: rest, .executing, at'⟩).note (.began task.id) := by
  simp only [step] at h
  split at h
  next task rest at' he => exact ⟨task, rest, at', he, (Option.some.inj h).symm⟩
  next => cases h

theorem step_executed {error : Option String} (h : board.step decimal (.executed e error) = some board') :
    ∃ task rest at', board.executors e = ⟨task :: rest, .executing, at'⟩ ∧
      board' = board.setExecutor e ⟨task :: rest, error.elim .executed .failed, at'⟩ := by
  simp only [step] at h
  split at h
  next task rest at' he => exact ⟨task, rest, at', he, (Option.some.inj h).symm⟩
  next => cases h

theorem step_notified {error : Option String} (h : board.step decimal (.notified e error) = some board') :
    ∃ task rest at', board.executors e = ⟨task :: rest, .executed, at'⟩ ∧
      board' = (board.setExecutor e ⟨task :: rest, error.elim .notified .failed, at'⟩).note
        (.delivered task.id task.nextRun error.isSome) := by
  simp only [step] at h
  split at h
  next task rest at' he => exact ⟨task, rest, at', he, (Option.some.inj h).symm⟩
  next => cases h

theorem step_finish {now : ℤ} {ambient : Option String} {commit : Commit}
    (h : board.step decimal (.finish e now ambient commit) = some board') :
    ∃ task rest at', board.executors e = ⟨task :: rest, .notified, at'⟩ ∧
      ((nextRunOf decimal now task = .error () ∧ ∃ error, board' = board.setExecutor e ⟨task :: rest, .failed error, at'⟩) ∨
        ∃ nextRun, nextRunOf decimal now task = .ok nextRun ∧
          board' = { board.setExecutor e ⟨rest, .waiting, at'⟩ with
            tasks := markExecuted now nextRun task.id (orgScope ambient (some task.organizationId)) commit
              board.tasks }) := by
  simp only [step] at h
  split at h
  next task rest at' he =>
    refine ⟨task, rest, at', he, ?_⟩
    split at h
    next hnext => exact .inl ⟨hnext, _, (Option.some.inj h).symm⟩
    next nextRun hnext =>
      refine .inr ⟨nextRun, hnext, ?_⟩
      rw [he] at h
      exact (Option.some.inj h).symm
  next => cases h

theorem step_fail {now : ℤ} {ambient : Option String} {commit : Commit}
    (h : board.step decimal (.fail e now ambient commit) = some board') :
    ∃ task rest error at', board.executors e = ⟨task :: rest, .failed error, at'⟩ ∧
      board' = { board.setExecutor e ⟨rest, .waiting, at'⟩ with
        tasks := markFailed now error task.id (orgScope ambient (some task.organizationId)) commit
          board.tasks } := by
  simp only [step] at h
  split at h
  next task rest error at' he =>
    refine ⟨task, rest, error, at', he, ?_⟩
    rw [he] at h
    exact (Option.some.inj h).symm
  next => cases h

theorem step_poll {now : ℤ} {limit : ℕ} {rows : List ScheduledTask}
    (h : board.step decimal (.poll e now limit rows) = some board') :
    (board.executors e).batch = [] ∧ IsDueAnswer now limit board.tasks rows ∧
      board' = board.setExecutor e ⟨rows, .waiting, now⟩ := by
  simp only [step] at h
  split at h
  next hguard => exact ⟨hguard.1, hguard.2, (Option.some.inj h).symm⟩
  next => cases h

theorem step_create {id userId scheduleType scheduleExpr : String} {nextRun maxRuns : Option ℤ}
    {organizationId ambient : Option String}
    (h : board.step decimal (.create id userId scheduleType scheduleExpr nextRun maxRuns organizationId
      ambient) = some board') :
    ∃ org tasks, board.tasks.insert? (newTask id userId scheduleType scheduleExpr nextRun maxRuns org) =
      some tasks ∧ board' = { board with tasks } := by
  simp only [step] at h
  obtain ⟨org, -, h⟩ := Option.bind_eq_some_iff.1 h
  obtain ⟨tasks, htasks, h⟩ := Option.map_eq_some_iff.1 h
  exact ⟨org, tasks, htasks, h.symm⟩

theorem step_cancel {taskId userId : String} {ambient : Option String} {commit : Commit}
    (h : board.step decimal (.cancel taskId userId ambient commit) = some board') :
    board' = ⟨board.applyCancel taskId userId ambient commit, board.executors,
      board.history ++ if board.cancels taskId userId ambient commit then [.cancelled taskId] else []⟩ := by
  simp only [step] at h
  split at h
  next hc => rw [if_pos hc, ← Option.some.inj h]; rfl
  next hc => rw [if_neg hc, List.append_nil, ← Option.some.inj h]

/-! ### The table -/

theorem find?_updateTask {tasks : TaskTable} {commit : Commit} {scope : Option String} {taskId : String}
    {f : ScheduledTask → ScheduledTask} {hf : ∀ task, (f task).id = task.id} (k : String) :
    (updateTask tasks commit scope taskId f hf).find? k = (tasks.find? k).map fun task =>
      if commit.applied ∧ k = taskId ∧ scope = some task.organizationId then f task else task := by
  have hid : ∀ g : ScheduledTask → ScheduledTask, (∀ task, tasks.find? k = some task → g task = task) →
      tasks.find? k = (tasks.find? k).map g := by
    intro g hg
    cases hfind : tasks.find? k with
    | none => rfl
    | some task => rw [Option.map_some, hg task hfind]
  unfold updateTask
  cases scope with
  | none =>
    refine hid _ fun task _ => if_neg ?_
    rintro ⟨-, -, h⟩
    cases h
  | some org =>
    by_cases hc : commit.applied
    · simp only [hc, if_true, true_and, Table.find?_updateWhere]
      refine Option.map_congr fun task hfind => ?_
      have hkey : task.id = k := Table.key_of_find? hfind
      simp only [ScheduledTask.inScope, hkey, Bool.and_eq_true, decide_eq_true_eq, Option.some.injEq,
        eq_comm (a := org)]
    · simp only [hc, if_false, Bool.false_eq_true, false_and]
      exact hid _ fun _ _ => rfl

theorem find?_applyCancel (board : TaskBoard) (taskId userId : String) (ambient : Option String)
    (commit : Commit) :
    ∃ g : ScheduledTask → ScheduledTask, (∀ task, g task = task ∨ g task = task.cancel) ∧
      ∀ k, (board.applyCancel taskId userId ambient commit).find? k = (board.tasks.find? k).map g := by
  unfold applyCancel
  cases orgScope ambient none with
  | none => exact ⟨id, fun _ => .inl rfl, fun _ => by rw [Option.map_id, id]⟩
  | some org =>
    by_cases hc : commit.applied
    · refine ⟨fun task => if task.cancellable taskId userId org then task.cancel else task, ?_, ?_⟩
      · intro task
        by_cases h : task.cancellable taskId userId org
        · exact .inr (if_pos h)
        · exact .inl (if_neg h)
      · intro k
        simp only [hc, if_true]
        exact Table.find?_updateWhere _ _ _ _ k
    · simp only [hc, if_false, Bool.false_eq_true]
      exact ⟨id, fun _ => .inl rfl, fun _ => by rw [Option.map_id, id]⟩

theorem find?_of_cancels {taskId userId : String} {ambient : Option String} {commit : Commit}
    (h : board.cancels taskId userId ambient commit = true) :
    ∃ task, (board.applyCancel taskId userId ambient commit).find? taskId = some task ∧
      task.status = .cancelled := by
  simp only [cancels, Bool.and_eq_true, decide_eq_true_eq, Option.any_eq_true] at h
  obtain ⟨rfl, org, horg, task, htask, hcancellable⟩ := h
  refine ⟨task.cancel, ?_, rfl⟩
  unfold applyCancel
  simp only [horg, Commit.applied, if_true]
  refine (Table.find?_updateWhere _ _ _ _ taskId).trans ?_
  rw [htask, Option.map_some, if_pos hcancellable]

/-! ## Cancellation -/

def IsCancelled (board : TaskBoard) (taskId : String) : Prop :=
  ∃ task, board.tasks.find? taskId = some task ∧ task.status = .cancelled

def Held (board : TaskBoard) (taskId : String) : Prop :=
  ∃ e, ∃ task ∈ (board.executors e).batch, task.id = taskId

/-- A cancellation that answers True finds the task in the hands of no executor. -/
def CancelsUnheld (board : TaskBoard) : Act → Prop
  | .cancel taskId userId ambient commit =>
    board.cancels taskId userId ambient commit = true → ¬ board.Held taskId
  | _ => True

/-- Every task whose cancellation answered True is cancelled and was not begun after it. -/
structure CancellationFinal (board : TaskBoard) : Prop where
  status : ∀ t, .cancelled t ∈ board.history → board.IsCancelled t
  order : board.history.Pairwise fun earlier later => ∀ t, earlier = .cancelled t → later ≠ .began t

/-- No executor holds a task whose cancellation answered True. -/
def Unheld (board : TaskBoard) : Prop := ∀ t, .cancelled t ∈ board.history → ¬ board.Held t

theorem CancellationFinal.note {event : TaskEvent} (h : board.CancellationFinal)
    (hcancelled : ∀ t, event = .cancelled t → board.IsCancelled t)
    (hbegan : ∀ t, event = .began t → .cancelled t ∉ board.history) :
    (board.note event).CancellationFinal := by
  refine ⟨?_, ?_⟩
  · intro t ht
    rcases List.mem_append.1 ht with hold | hnew
    · exact h.status t hold
    · exact hcancelled t (List.mem_singleton.1 hnew).symm
  · refine List.pairwise_append.2 ⟨h.order, List.pairwise_singleton _ _, ?_⟩
    rintro earlier hearlier later hlater t rfl rfl
    exact hbegan t (List.mem_singleton.1 hlater).symm hearlier

theorem held_setExecutor {executor : Executor} {t : String} (h : (board.setExecutor e executor).Held t)
    (hbatch : ∀ task ∈ executor.batch, task.id = t → board.Held t) : board.Held t := by
  obtain ⟨e', task, htask, rfl⟩ := h
  rw [executors_setExecutor] at htask
  by_cases he : e' = e
  · rw [if_pos he] at htask
    exact hbatch task htask rfl
  · rw [if_neg he] at htask
    exact ⟨e', task, htask, rfl⟩

theorem isCancelled_updateTask {commit : Commit} {scope : Option String} {taskId t : String}
    {f : ScheduledTask → ScheduledTask} {hf : ∀ task, (f task).id = task.id} (hne : t ≠ taskId)
    (hcancelled : board.IsCancelled t)
    (htasks : board'.tasks = updateTask board.tasks commit scope taskId f hf) : board'.IsCancelled t := by
  obtain ⟨task, hfind, hstatus⟩ := hcancelled
  refine ⟨task, ?_, hstatus⟩
  rw [htasks, find?_updateTask, hfind, Option.map_some, if_neg fun h => hne h.2.1]

theorem CancellationFinal.step {act : Act} (hfinal : board.CancellationFinal) (hfree : board.Unheld)
    (hact : board.CancelsUnheld act) (h : board.step decimal act = some board') :
    board'.CancellationFinal ∧ board'.Unheld := by
  cases act with
  | create id userId scheduleType scheduleExpr nextRun maxRuns organizationId ambient =>
    obtain ⟨org, tasks, hinsert, rfl⟩ := step_create h
    refine ⟨⟨fun t ht => ?_, hfinal.order⟩, hfree⟩
    obtain ⟨task, hfind, hstatus⟩ := hfinal.status t ht
    refine ⟨task, ?_, hstatus⟩
    have hnone := (Table.insert?_eq_some_iff.1 hinsert).1
    rw [Table.find?_insert? hinsert, if_neg, hfind]
    rintro rfl
    cases hfind.symm.trans hnone
  | cancel taskId userId ambient commit =>
    have hboard := step_cancel h
    obtain ⟨g, hg, hfind⟩ := find?_applyCancel board taskId userId ambient commit
    have hkeeps (t : String) (ht : board.IsCancelled t) : board'.IsCancelled t := by
      obtain ⟨task, htask, hstatus⟩ := ht
      rw [hboard]
      refine ⟨g task, by rw [hfind, htask, Option.map_some], ?_⟩
      rcases hg task with hsame | hcancel
      · rw [hsame, hstatus]
      · rw [hcancel]
        rfl
    by_cases hc : board.cancels taskId userId ambient commit = true
    · rw [if_pos hc] at hboard
      have hwritten : board'.IsCancelled taskId := by
        rw [hboard]
        exact find?_of_cancels hc
      have hmem (t : String) (ht : .cancelled t ∈ board'.history) :
          .cancelled t ∈ board.history ∨ t = taskId := by
        rw [hboard] at ht
        rcases List.mem_append.1 ht with hold | hnew
        · exact .inl hold
        · exact .inr (TaskEvent.cancelled.inj (List.mem_singleton.1 hnew))
      refine ⟨⟨fun t ht => ?_, ?_⟩, fun t ht hheld => ?_⟩
      · rcases hmem t ht with hold | rfl
        · exact hkeeps t (hfinal.status t hold)
        · exact hwritten
      · rw [hboard]
        refine List.pairwise_append.2 ⟨hfinal.order, List.pairwise_singleton _ _, ?_⟩
        intro earlier _ later hlater t _
        rw [List.mem_singleton.1 hlater]
        nofun
      · have hheld : board.Held t := by rwa [hboard] at hheld
        rcases hmem t ht with hold | rfl
        · exact hfree t hold hheld
        · exact hact hc hheld
    · rw [if_neg hc, List.append_nil] at hboard
      have hhistory : board'.history = board.history := by rw [hboard]
      refine ⟨⟨fun t ht => hkeeps t (hfinal.status t (hhistory ▸ ht)), hhistory ▸ hfinal.order⟩, ?_⟩
      intro t ht hheld
      rw [hboard] at hheld
      exact hfree t (hhistory ▸ ht) hheld
  | poll e now limit rows =>
    obtain ⟨-, ⟨-, -, hdue, -⟩, rfl⟩ := step_poll h
    refine ⟨⟨hfinal.status, hfinal.order⟩, fun t ht hheld => hfree t ht (held_setExecutor hheld ?_)⟩
    -- a row that is read is active, so its task is not cancelled
    rintro task htask rfl
    obtain ⟨hmem, hisDue⟩ := hdue task htask
    obtain ⟨row, hfind, hstatus⟩ := hfinal.status _ ht
    rw [Table.find?_of_mem hmem] at hfind
    obtain rfl := Option.some.inj hfind
    simp [ScheduledTask.isDue, hstatus] at hisDue
  | startTask e =>
    obtain ⟨task, rest, at', he, rfl⟩ := step_startTask h
    have hheld : board.Held task.id := ⟨e, task, by rw [he]; exact List.mem_cons_self, rfl⟩
    refine ⟨CancellationFinal.note ⟨hfinal.status, hfinal.order⟩ nofun ?_, fun t ht hheld' => ?_⟩
    · rintro t ⟨⟩ ht
      exact hfree _ ht hheld
    · refine hfree t ?_ (held_setExecutor hheld' fun task' htask' ht' => ⟨e, task', by rwa [he], ht'⟩)
      rcases List.mem_append.1 ht with hold | hnew
      · exact hold
      · cases List.mem_singleton.1 hnew
  | executed e error =>
    obtain ⟨task, rest, at', he, rfl⟩ := step_executed h
    refine ⟨⟨hfinal.status, hfinal.order⟩, fun t ht hheld' => hfree t ht ?_⟩
    exact held_setExecutor hheld' fun task' htask' ht' => ⟨e, task', by rwa [he], ht'⟩
  | notified e error =>
    obtain ⟨task, rest, at', he, rfl⟩ := step_notified h
    refine ⟨CancellationFinal.note ⟨hfinal.status, hfinal.order⟩ nofun nofun, fun t ht hheld' => ?_⟩
    refine hfree t ?_ (held_setExecutor hheld' fun task' htask' ht' => ⟨e, task', by rwa [he], ht'⟩)
    rcases List.mem_append.1 ht with hold | hnew
    · exact hold
    · cases List.mem_singleton.1 hnew
  | finish e now ambient commit =>
    obtain ⟨task, rest, at', he, ⟨-, error, rfl⟩ | ⟨nextRun, -, rfl⟩⟩ := step_finish h
    · refine ⟨⟨hfinal.status, hfinal.order⟩, fun t ht hheld' => hfree t ht ?_⟩
      exact held_setExecutor hheld' fun task' htask' ht' => ⟨e, task', by rwa [he], ht'⟩
    · have hheld : board.Held task.id := ⟨e, task, by rw [he]; exact List.mem_cons_self, rfl⟩
      refine ⟨⟨fun t ht => ?_, hfinal.order⟩, fun t ht hheld' => hfree t ht ?_⟩
      · exact isCancelled_updateTask (fun heq => hfree t ht (heq ▸ hheld)) (hfinal.status t ht) rfl
      · refine @held_setExecutor board e ⟨rest, .waiting, at'⟩ t hheld' fun task' htask' ht' =>
        ⟨e, task', ?_, ht'⟩
        rw [he]
        exact List.mem_cons_of_mem _ htask'
  | fail e now ambient commit =>
    obtain ⟨task, rest, error, at', he, rfl⟩ := step_fail h
    have hheld : board.Held task.id := ⟨e, task, by rw [he]; exact List.mem_cons_self, rfl⟩
    refine ⟨⟨fun t ht => ?_, hfinal.order⟩, fun t ht hheld' => hfree t ht ?_⟩
    · exact isCancelled_updateTask (fun heq => hfree t ht (heq ▸ hheld)) (hfinal.status t ht) rfl
    · refine @held_setExecutor board e ⟨rest, .waiting, at'⟩ t hheld' fun task' htask' ht' =>
        ⟨e, task', ?_, ht'⟩
      rw [he]
      exact List.mem_cons_of_mem _ htask'
  | crash e =>
    obtain rfl : board.setExecutor e .idle = board' := Option.some.inj h
    refine ⟨⟨hfinal.status, hfinal.order⟩, fun t ht hheld' => hfree t ht (held_setExecutor hheld' ?_)⟩
    intro task htask
    cases htask

/-- In a run whose successful cancellations find their tasks unheld, cancellation is final. -/
theorem cancellation_final (h : Reaches (Guarded (Step decimal) CancelsUnheld) .initial board) :
    board.CancellationFinal := by
  obtain ⟨acts, hrun⟩ := h
  refine (hrun.invariant (I := fun board => board.CancellationFinal ∧ board.Unheld) ?_ ?_).1
  · exact fun board act board' ⟨hfinal, hfree⟩ ⟨hstep, hact⟩ => hfinal.step hfree hact hstep
  · exact ⟨⟨nofun, List.Pairwise.nil⟩, nofun⟩

def reminder : ScheduledTask := newTask "task" "user" "once" "" (some 5) none "org"

def createReminder : Act := .create "task" "user" "once" "" (some 5) none (some "org") none

theorem cancellation_final_unheld :
    ∃ board : TaskBoard, (∃ t, .cancelled t ∈ board.history) ∧ board.CancellationFinal := by
  refine ⟨_, ⟨"task", List.mem_singleton.2 rfl⟩, @cancellation_final (fun _ => none) _
    ⟨[createReminder, .cancel "task" "user" (some "org") .acknowledged],
      .cons ⟨rfl, trivial⟩ (.cons ⟨rfl, ?_⟩ (.nil _))⟩⟩
  rintro - ⟨e, task, htask, -⟩
  cases htask

def play (decimal : Char → Option ℕ) (board : TaskBoard) (acts : List Act) : Option TaskBoard :=
  acts.foldlM (step decimal) board

theorem reaches_of_play {acts : List Act} (h : play decimal board acts = some board') :
    Reaches (Step decimal) board board' := by
  induction acts generalizing board with
  | nil =>
    cases h
    exact .refl _
  | cons act acts ih =>
    obtain ⟨middle, hstep, hrest⟩ := Option.bind_eq_some_iff.1 h
    exact (Reaches.single hstep).trans (ih hrest)

/-- A reminder is read, cancelled, executed, delivered and marked as completed. -/
theorem cancelled_reminder_begun : ∃ board : TaskBoard, Reaches (Step fun _ => none) .initial board ∧
    ¬ (∀ t, .cancelled t ∈ board.history → board.IsCancelled t) ∧
      ¬ board.history.Pairwise fun earlier later => ∀ t, earlier = .cancelled t → later ≠ .began t := by
  have hplay : (play (fun _ => none) .initial [createReminder, .poll 0 6 10 [reminder],
      .cancel "task" "user" (some "org") .acknowledged, .startTask 0, .executed 0 none, .notified 0 none,
      .finish 0 7 none .acknowledged]).map (fun board =>
        (board.history, (board.tasks.find? "task").map ScheduledTask.status)) =
      some ([.cancelled "task", .began "task", .delivered "task" (some 5) false], some .completed) := by
    decide
  obtain ⟨board, hboard, hend⟩ := Option.map_eq_some_iff.1 hplay
  obtain ⟨hhistory, hstatus⟩ := Prod.mk.inj hend
  refine ⟨board, reaches_of_play hboard, fun h => ?_, fun h => ?_⟩
  · obtain ⟨task, hfind, hcancelled⟩ := h "task" (by rw [hhistory]; exact List.mem_cons_self)
    rw [hfind, Option.map_some, hcancelled] at hstatus
    cases hstatus
  · rw [hhistory] at h
    exact (List.pairwise_cons.1 h).1 (.began "task") List.mem_cons_self "task" rfl rfl

end TaskBoard

end Wiii.Service
