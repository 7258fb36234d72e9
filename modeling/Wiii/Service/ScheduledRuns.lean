import Wiii.Service.ScheduledTasks

/-!
# How often a scheduled task is delivered

Where no executor reads a task that another one holds, no executor goes away between a delivery and its mark and every
mark takes effect, an occurrence is delivered once at most and a task no more often than its maximum of runs
(`delivered_once`).
-/

namespace Wiii.Service

namespace TaskBoard

variable {decimal : Char → Option ℕ} {board board' : TaskBoard} {e : ℕ}

def deliveries (board : TaskBoard) (taskId : String) : ℕ :=
  board.history.countP fun event =>
    match event with
    | .delivered t _ false => decide (t = taskId)
    | _ => false

def deliveriesAt (board : TaskBoard) (taskId : String) (occurrence : Option ℤ) : ℕ :=
  board.history.countP fun event => decide (event = .delivered taskId occurrence false)

/-- Some executor has delivered the task and not marked it. -/
def Notified (board : TaskBoard) (taskId : String) : Prop :=
  ∃ e task rest at', board.executors e = ⟨task :: rest, .notified, at'⟩ ∧ task.id = taskId

/-- No executor reads a task that is held or goes away before its mark, every mark takes effect, and a task with a
maximum may run once. -/
def Undisturbed (decimal : Char → Option ℕ) (board : TaskBoard) : Act → Prop
  | .create _ _ _ _ _ maxRuns _ _ => ∀ max ∈ maxRuns, 1 ≤ max
  | .poll _ _ _ rows => ∀ row ∈ rows, ¬ board.Held row.id
  | .finish e now ambient commit => ∀ task ∈ (board.executors e).batch.head?,
    commit.applied = true ∧ orgScope ambient (some task.organizationId) = some task.organizationId ∧
      (∃ nextRun, nextRunOf decimal now task = .ok nextRun) ∧ (board.executors e).fetchedAt ≤ now
  | .crash e => (board.executors e).stage ≠ .notified
  | _ => True

/-- What is delivered, marked and held agrees. -/
structure Accounts (board : TaskBoard) : Prop where
  held : ∀ e, ∀ task ∈ (board.executors e).batch, ∃ row, board.tasks.find? task.id = some row ∧
    row.nextRun = task.nextRun ∧ row.organizationId = task.organizationId ∧
      (∃ occurrence, task.nextRun = some occurrence ∧ occurrence ≤ (board.executors e).fetchedAt) ∧
        ∀ max ∈ row.maxRuns, (row.runCount : ℤ) < max
  apart : ∀ e e', e ≠ e' → ∀ task ∈ (board.executors e).batch, ∀ task' ∈ (board.executors e').batch,
    task.id ≠ task'.id
  nodup : ∀ e, ((board.executors e).batch.map ScheduledTask.id).Nodup
  known : ∀ t o raised, .delivered t o raised ∈ board.history → (board.tasks.find? t).isSome
  past : ∀ t row, board.tasks.find? t = some row → ∀ o, .delivered t o false ∈ board.history →
    board.Notified t ∧ o = row.nextRun ∨ ∀ next, row.nextRun = some next → ∃ k, o = some k ∧ k < next
  once : ∀ t o, board.deliveriesAt t o ≤ 1
  count : ∀ t row, board.tasks.find? t = some row →
    (board.Notified t → board.deliveries t = row.runCount + 1) ∧
      (¬ board.Notified t → board.deliveries t = row.runCount)
  limit : ∀ t row, board.tasks.find? t = some row → ∀ max ∈ row.maxRuns, (row.runCount : ℤ) ≤ max
  due : ∀ t row, board.tasks.find? t = some row → row.status = .active → row.nextRun.isSome →
    ∀ max ∈ row.maxRuns, (row.runCount : ℤ) < max

/-- A task that is delivered and not marked is held by that executor alone. -/
theorem Accounts.eq_of_held (h : board.Accounts) {e' : ℕ} {task task' : ScheduledTask}
    (htask : task ∈ (board.executors e).batch) (htask' : task' ∈ (board.executors e').batch)
    (hid : task.id = task'.id) : e = e' := by
  by_contra hne
  exact h.apart e e' hne task htask task' htask' hid

theorem notified_setExecutor_iff {executor : Executor}
    (hbefore : (board.executors e).batch = [] ∨ (board.executors e).stage ≠ .notified)
    (hafter : executor.stage ≠ .notified) (t : String) :
    (board.setExecutor e executor).Notified t ↔ board.Notified t := by
  refine exists_congr fun e' => ?_
  rw [executors_setExecutor]
  by_cases he : e' = e
  · subst he
    rw [if_pos rfl]
    refine iff_of_false ?_ ?_
    · rintro ⟨task, rest, at', rfl, -⟩
      exact hafter rfl
    · rintro ⟨task, rest, at', heq, -⟩
      rw [heq] at hbefore
      exact hbefore.elim (List.cons_ne_nil _ _) fun hne => hne rfl
  · rw [if_neg he]

theorem Accounts.setExecutor {executor : Executor} (h : board.Accounts)
    (hbefore : (board.executors e).batch = [] ∨ (board.executors e).stage ≠ .notified)
    (hafter : executor.stage ≠ .notified)
    (hbatch : executor.batch.Sublist (board.executors e).batch)
    (hat : executor.batch = [] ∨ executor.fetchedAt = (board.executors e).fetchedAt) :
    (board.setExecutor e executor).Accounts := by
  have hsub (e' : ℕ) : ((board.setExecutor e executor).executors e').batch.Sublist
      (board.executors e').batch := by
    rw [executors_setExecutor]
    by_cases he : e' = e
    · rw [if_pos he, he]
      exact hbatch
    · rw [if_neg he]
  have hnotified := notified_setExecutor_iff hbefore hafter
  refine ⟨?_, ?_, ?_, h.known, ?_, h.once, ?_, h.limit, h.due⟩
  · intro e' task htask
    obtain ⟨row, hfind, hnext, horg, ⟨occurrence, ho, hle⟩, hmax⟩ := h.held e' task ((hsub e').subset htask)
    refine ⟨row, hfind, hnext, horg, ⟨occurrence, ho, hle.trans ?_⟩, hmax⟩
    rw [executors_setExecutor] at htask ⊢
    by_cases he : e' = e
    · rw [if_pos he] at htask ⊢
      rcases hat with hempty | heq
      · rw [hempty] at htask
        cases htask
      · rw [he, heq]
    · rw [if_neg he]
  · exact fun e₁ e₂ hne task htask task' htask' =>
      h.apart e₁ e₂ hne task ((hsub e₁).subset htask) task' ((hsub e₂).subset htask')
  · exact fun e' => ((hsub e').map _).nodup (h.nodup e')
  · intro t row hfind o ho
    rw [hnotified]
    exact h.past t row hfind o ho
  · intro t row hfind
    rw [hnotified]
    exact h.count t row hfind

/-- An update leaves the schedule, the runs and the organisation alone and activates nothing. -/
structure SameSchedule (old new : ScheduledTask) : Prop where
  nextRun : new.nextRun = old.nextRun
  runCount : new.runCount = old.runCount
  maxRuns : new.maxRuns = old.maxRuns
  organizationId : new.organizationId = old.organizationId
  active : new.status = .active → old.status = .active

theorem SameSchedule.refl (task : ScheduledTask) : SameSchedule task task := ⟨rfl, rfl, rfl, rfl, id⟩

theorem Accounts.mapTasks {tasks : TaskTable} (h : board.Accounts)
    (hfind : ∀ k, ∃ g : ScheduledTask → ScheduledTask, tasks.find? k = (board.tasks.find? k).map g ∧
      ∀ task, SameSchedule task (g task)) : ({ board with tasks } : TaskBoard).Accounts := by
  have hrow {t : String} {row : ScheduledTask} (hsome : tasks.find? t = some row) :
      ∃ old, board.tasks.find? t = some old ∧ SameSchedule old row := by
    obtain ⟨g, hg, hsame⟩ := hfind t
    rw [hg] at hsome
    obtain ⟨old, hold, rfl⟩ := Option.map_eq_some_iff.1 hsome
    exact ⟨old, hold, hsame old⟩
  refine ⟨?_, h.apart, h.nodup, ?_, ?_, h.once, ?_, ?_, ?_⟩
  · intro e task htask
    obtain ⟨row, hsome, hnext, horg, hoccurrence, hmax⟩ := h.held e task htask
    obtain ⟨g, hg, hsame⟩ := hfind task.id
    refine ⟨g row, by rw [hg, hsome, Option.map_some], (hsame row).nextRun.trans hnext,
      (hsame row).organizationId.trans horg, hoccurrence, ?_⟩
    rw [(hsame row).maxRuns, (hsame row).runCount]
    exact hmax
  · intro t o raised ht
    obtain ⟨g, hg, -⟩ := hfind t
    change (tasks.find? t).isSome
    rw [hg, Option.isSome_map]
    exact h.known t o raised ht
  · intro t row hsome o ho
    obtain ⟨old, hold, hsame⟩ := hrow hsome
    rw [hsame.nextRun]
    exact h.past t old hold o ho
  · intro t row hsome
    obtain ⟨old, hold, hsame⟩ := hrow hsome
    rw [hsame.runCount]
    exact h.count t old hold
  · intro t row hsome
    obtain ⟨old, hold, hsame⟩ := hrow hsome
    rw [hsame.runCount, hsame.maxRuns]
    exact h.limit t old hold
  · intro t row hsome hactive
    obtain ⟨old, hold, hsame⟩ := hrow hsome
    rw [hsame.nextRun, hsame.runCount, hsame.maxRuns]
    exact h.due t old hold (hsame.active hactive)

theorem sameSchedule_recordFailure (now : ℤ) (error : String) (task : ScheduledTask) :
    SameSchedule task (task.recordFailure now error) := by
  refine ⟨rfl, rfl, rfl, rfl, fun hactive => ?_⟩
  unfold ScheduledTask.recordFailure at hactive
  simp only at hactive
  split at hactive
  · cases hactive
  · exact hactive

theorem Notified.held {t : String} (h : board.Notified t) : board.Held t := by
  obtain ⟨e, task, rest, at', he, ht⟩ := h
  exact ⟨e, task, by rw [he]; exact List.mem_cons_self, ht⟩

theorem Accounts.of_find?_eq_none {t : String} (h : board.Accounts) (hnone : board.tasks.find? t = none) :
    ¬ board.Held t ∧ (∀ o raised, .delivered t o raised ∉ board.history) ∧ board.deliveries t = 0 := by
  have hevent (o : Option ℤ) (raised : Bool) : .delivered t o raised ∉ board.history := by
    intro hmem
    have hsome := h.known t o raised hmem
    rw [hnone] at hsome
    cases hsome
  refine ⟨?_, hevent, ?_⟩
  · rintro ⟨e, task, htask, rfl⟩
    obtain ⟨row, hsome, -⟩ := h.held e task htask
    cases hnone.symm.trans hsome
  · refine List.countP_eq_zero.2 fun event hmem hdelivers => ?_
    split at hdelivers
    next t' o =>
      obtain rfl : t' = t := of_decide_eq_true hdelivers
      exact hevent o false hmem
    next => cases hdelivers

theorem Accounts.create {tasks : TaskTable} {row : ScheduledTask} (h : board.Accounts)
    (hinsert : board.tasks.insert? row = some tasks) (hruns : row.runCount = 0)
    (hmax : ∀ max ∈ row.maxRuns, 1 ≤ max) : ({ board with tasks } : TaskBoard).Accounts := by
  have hnone := (Table.insert?_eq_some_iff.1 hinsert).1
  obtain ⟨hunheld, hnew, hzero⟩ := h.of_find?_eq_none hnone
  have hfind := Table.find?_insert? hinsert
  have hold {t : String} {old : ScheduledTask} (hsome : board.tasks.find? t = some old) :
      tasks.find? t = some old := by
    rw [hfind, if_neg, hsome]
    rintro rfl
    cases hnone.symm.trans hsome
  have hcases {t : String} {found : ScheduledTask} (hsome : tasks.find? t = some found) :
      t = row.id ∧ found = row ∨ board.tasks.find? t = some found := by
    rw [hfind] at hsome
    split at hsome
    next ht => exact .inl ⟨ht, (Option.some.inj hsome).symm⟩
    next => exact .inr hsome
  have hbelow : ∀ max ∈ row.maxRuns, (row.runCount : ℤ) < max := fun max hmem => by
    have := hmax max hmem
    rw [hruns]
    omega
  refine ⟨?_, h.apart, h.nodup, ?_, ?_, h.once, ?_, ?_, ?_⟩
  · intro e task htask
    obtain ⟨found, hsome, hrest⟩ := h.held e task htask
    exact ⟨found, hold hsome, hrest⟩
  · intro t o raised ht
    obtain ⟨found, hsome⟩ := Option.isSome_iff_exists.1 (h.known t o raised ht)
    exact Option.isSome_iff_exists.2 ⟨found, hold hsome⟩
  · intro t found hsome o ho
    rcases hcases hsome with ⟨rfl, rfl⟩ | hsome
    · exact absurd ho (hnew o false)
    · exact h.past t found hsome o ho
  · intro t found hsome
    rcases hcases hsome with ⟨rfl, rfl⟩ | hsome
    · refine ⟨fun hnotified => absurd hnotified.held hunheld, fun _ => ?_⟩
      rw [hruns]
      exact hzero
    · exact h.count t found hsome
  · intro t found hsome
    rcases hcases hsome with ⟨rfl, rfl⟩ | hsome
    · exact fun max hmem => (hbelow max hmem).le
    · exact h.limit t found hsome
  · intro t found hsome
    rcases hcases hsome with ⟨rfl, rfl⟩ | hsome
    · exact fun _ _ => hbelow
    · exact h.due t found hsome

theorem Accounts.poll {now : ℤ} {limit : ℕ} {rows : List ScheduledTask} (h : board.Accounts)
    (hidle : (board.executors e).batch = []) (hanswer : IsDueAnswer now limit board.tasks rows)
    (hfree : ∀ row ∈ rows, ¬ board.Held row.id) :
    (board.setExecutor e ⟨rows, .waiting, now⟩).Accounts := by
  obtain ⟨hnodup, -, hdue, -⟩ := hanswer
  have hwaiting : (⟨rows, .waiting, now⟩ : Executor).stage ≠ .notified := nofun
  have hnotified := notified_setExecutor_iff (.inl hidle) hwaiting
  refine ⟨?_, ?_, ?_, h.known, ?_, h.once, ?_, h.limit, h.due⟩
  · intro e' task htask
    rw [executors_setExecutor] at htask ⊢
    by_cases he : e' = e
    · rw [if_pos he] at htask ⊢
      obtain ⟨hmem, hisDue⟩ := hdue task htask
      have hsome := @Table.find?_of_mem _ _ ScheduledTask.id _ _ _ hmem
      simp only [ScheduledTask.isDue, Bool.and_eq_true, decide_eq_true_eq, Option.any_eq_true] at hisDue
      obtain ⟨⟨hactive, next, hnext, hle⟩, -⟩ := hisDue
      refine ⟨task, hsome, rfl, rfl, ⟨next, hnext, hle⟩, h.due _ task hsome hactive ?_⟩
      rw [hnext]
      rfl
    · rw [if_neg he] at htask ⊢
      exact h.held e' task htask
  · intro e₁ e₂ hne task htask task' htask' hid
    rw [executors_setExecutor] at htask htask'
    by_cases he₁ : e₁ = e
    · rw [if_pos he₁] at htask
      rw [if_neg fun he₂ => hne (he₁.trans he₂.symm)] at htask'
      exact hfree task htask ⟨e₂, task', htask', hid.symm⟩
    · rw [if_neg he₁] at htask
      by_cases he₂ : e₂ = e
      · rw [if_pos he₂] at htask'
        exact hfree task' htask' ⟨e₁, task, htask, hid⟩
      · rw [if_neg he₂] at htask'
        exact h.apart e₁ e₂ hne task htask task' htask' hid
  · intro e'
    rw [executors_setExecutor]
    by_cases he : e' = e
    · rw [if_pos he]
      exact hnodup
    · rw [if_neg he]
      exact h.nodup e'
  · intro t row hfind o ho
    rw [hnotified]
    exact h.past t row hfind o ho
  · intro t row hfind
    rw [hnotified]
    exact h.count t row hfind

theorem Accounts.note {event : TaskEvent} (h : board.Accounts) (hquiet : ∀ t o, event ≠ .delivered t o false)
    (hknown : ∀ t o raised, event = .delivered t o raised → (board.tasks.find? t).isSome) :
    (board.note event).Accounts := by
  have hdelivered {t : String} {o : Option ℤ} (hmem : .delivered t o false ∈ (board.note event).history) :
      .delivered t o false ∈ board.history := by
    rcases List.mem_append.1 hmem with hold | hnew
    · exact hold
    · exact absurd (List.mem_singleton.1 hnew).symm (hquiet t o)
  refine ⟨h.held, h.apart, h.nodup, ?_, ?_, ?_, ?_, h.limit, h.due⟩
  · intro t o raised hmem
    rcases List.mem_append.1 hmem with hold | hnew
    · exact h.known t o raised hold
    · exact hknown t o raised (List.mem_singleton.1 hnew).symm
  · exact fun t row hrow o hmem => h.past t row hrow o (hdelivered hmem)
  · intro t o
    have hcount : (board.note event).deliveriesAt t o = board.deliveriesAt t o := by
      simp [deliveriesAt, TaskBoard.note, hquiet t o]
    rw [hcount]
    exact h.once t o
  · intro t row hrow
    have hcount : (board.note event).deliveries t = board.deliveries t := by
      unfold deliveries TaskBoard.note
      rw [List.countP_append, List.countP_singleton, if_neg, Nat.add_zero]
      split
      next t' o => exact absurd rfl (hquiet t' o)
      next => exact Bool.false_ne_true
    rw [hcount]
    exact h.count t row hrow

theorem Accounts.deliver {task : ScheduledTask} {rest : List ScheduledTask} {at' : ℤ} (h : board.Accounts)
    (he : board.executors e = ⟨task :: rest, .executed, at'⟩) :
    ((board.setExecutor e ⟨task :: rest, .notified, at'⟩).note
      (.delivered task.id task.nextRun false)).Accounts := by
  have hmem : task ∈ (board.executors e).batch := by
    rw [he]
    exact List.mem_cons_self
  obtain ⟨row, hrow, hnext, -, ⟨occurrence, ho, -⟩, -⟩ := h.held e task hmem
  have hbefore : ¬ board.Notified task.id := by
    rintro ⟨e', task', rest', at'', he', hid⟩
    have hmem' : task' ∈ (board.executors e').batch := by
      rw [he']
      exact List.mem_cons_self
    obtain rfl := h.eq_of_held hmem hmem' hid.symm
    cases he.symm.trans he'
  have hnotified (t : String) : ((board.setExecutor e ⟨task :: rest, .notified, at'⟩).note
      (.delivered task.id task.nextRun false)).Notified t ↔ t = task.id ∨ board.Notified t := by
    constructor
    · rintro ⟨e', task', rest', at'', he', rfl⟩
      change (if e' = e then _ else board.executors e') = _ at he'
      by_cases hee : e' = e
      · rw [if_pos hee] at he'
        cases he'
        exact .inl rfl
      · rw [if_neg hee] at he'
        exact .inr ⟨e', task', rest', at'', he', rfl⟩
    · rintro (rfl | ⟨e', task', rest', at'', he', rfl⟩)
      · exact ⟨e, task, rest, at', if_pos rfl, rfl⟩
      · refine ⟨e', task', rest', at'', (if_neg ?_).trans he', rfl⟩
        rintro rfl
        cases he.symm.trans he'
  have hnever : .delivered task.id task.nextRun false ∉ board.history := by
    intro hdelivered
    rcases h.past task.id row hrow _ hdelivered with ⟨hnow, -⟩ | hless
    · exact hbefore hnow
    · obtain ⟨k, hk, hlt⟩ := hless occurrence (hnext.trans ho)
      rw [ho] at hk
      cases hk
      exact lt_irrefl _ hlt
  have hbatch (e' : ℕ) : ((board.setExecutor e ⟨task :: rest, .notified, at'⟩).note
      (.delivered task.id task.nextRun false)).executors e' = if e' = e then ⟨task :: rest, .notified, at'⟩
        else board.executors e' := rfl
  have hsame (e' : ℕ) : (((board.setExecutor e ⟨task :: rest, .notified, at'⟩).note
      (.delivered task.id task.nextRun false)).executors e').batch = (board.executors e').batch ∧
        (((board.setExecutor e ⟨task :: rest, .notified, at'⟩).note
          (.delivered task.id task.nextRun false)).executors e').fetchedAt = (board.executors e').fetchedAt := by
    rw [hbatch]
    by_cases hee : e' = e
    · rw [if_pos hee, hee, he]
      exact ⟨rfl, rfl⟩
    · rw [if_neg hee]
      exact ⟨rfl, rfl⟩
  refine ⟨?_, ?_, ?_, ?_, ?_, ?_, ?_, h.limit, h.due⟩
  · intro e' task' htask'
    rw [(hsame e').1] at htask'
    rw [(hsame e').2]
    exact h.held e' task' htask'
  · intro e₁ e₂
    rw [(hsame e₁).1, (hsame e₂).1]
    exact h.apart e₁ e₂
  · intro e'
    rw [(hsame e').1]
    exact h.nodup e'
  · intro t o raised hdelivered
    rcases List.mem_append.1 hdelivered with hold | hnew
    · exact h.known t o raised hold
    · cases List.mem_singleton.1 hnew
      exact Option.isSome_iff_exists.2 ⟨row, hrow⟩
  · intro t found hfound o hdelivered
    rw [hnotified]
    rcases List.mem_append.1 hdelivered with hold | hnew
    · rcases h.past t found hfound o hold with ⟨hnow, heq⟩ | hless
      · exact .inl ⟨.inr hnow, heq⟩
      · exact .inr hless
    · cases List.mem_singleton.1 hnew
      cases hrow.symm.trans hfound
      exact .inl ⟨.inl rfl, hnext.symm⟩
  · intro t o
    change List.countP _ (board.history ++ [_]) ≤ 1
    rw [List.countP_append, List.countP_singleton]
    by_cases heq : TaskEvent.delivered task.id task.nextRun false = .delivered t o false
    · obtain ⟨rfl, rfl, -⟩ := TaskEvent.delivered.inj heq
      have hzero : board.deliveriesAt task.id task.nextRun = 0 :=
        List.countP_eq_zero.2 fun event hevent hdec => hnever (of_decide_eq_true hdec ▸ hevent)
      change board.deliveriesAt task.id task.nextRun + _ ≤ 1
      rw [hzero]
      split <;> omega
    · have hle := h.once t o
      change board.deliveriesAt t o + _ ≤ 1
      rw [if_neg (by simpa using heq)]
      exact hle
  · intro t found hfound
    have hcount : ((board.setExecutor e ⟨task :: rest, .notified, at'⟩).note
        (.delivered task.id task.nextRun false)).deliveries t =
          board.deliveries t + if task.id = t then 1 else 0 := by
      change List.countP _ (board.history ++ [_]) = _
      rw [List.countP_append, List.countP_singleton]
      simp [deliveries]
    rw [hnotified, hcount]
    by_cases ht : t = task.id
    · subst ht
      cases hrow.symm.trans hfound
      rw [if_pos rfl, (h.count _ row hrow).2 hbefore]
      exact ⟨fun _ => rfl, fun hnot => absurd (.inl rfl) hnot⟩
    · rw [if_neg (Ne.symm ht), Nat.add_zero]
      refine ⟨fun hor => (h.count t found hfound).1 (hor.resolve_left ht), fun hnot => ?_⟩
      exact (h.count t found hfound).2 fun hnow => hnot (.inr hnow)

theorem mark_row (now : ℤ) (nextRun : Option ℤ) (row : ScheduledTask) :
    ((row.recordRun now nextRun).checkMaxRuns).runCount = row.runCount + 1 ∧
      ((row.recordRun now nextRun).checkMaxRuns).maxRuns = row.maxRuns ∧
        (∀ next, ((row.recordRun now nextRun).checkMaxRuns).nextRun = some next → nextRun = some next) ∧
          (((row.recordRun now nextRun).checkMaxRuns).nextRun.isSome →
            ∀ max ∈ row.maxRuns, ((row.runCount + 1 : ℕ) : ℤ) < max) := by
  have hrun : (row.recordRun now nextRun).runCount = row.runCount + 1 ∧
      (row.recordRun now nextRun).maxRuns = row.maxRuns ∧ (row.recordRun now nextRun).nextRun = nextRun := by
    cases nextRun <;> exact ⟨rfl, rfl, rfl⟩
  obtain ⟨hcount, hmax, hnext⟩ := hrun
  unfold ScheduledTask.checkMaxRuns
  rw [hcount, hmax]
  split
  next => exact ⟨rfl, rfl, fun _ h => (nomatch h), fun h => (nomatch h)⟩
  next hmore =>
    refine ⟨hcount, hmax, fun next h => hnext ▸ h, fun _ max hmem => ?_⟩
    rw [Option.mem_def.1 hmem, Option.any_some, decide_eq_true_eq] at hmore
    exact not_le.1 hmore

theorem Accounts.mark {task : ScheduledTask} {rest : List ScheduledTask} {at' now : ℤ}
    {nextRun : Option ℤ} {tasks : TaskTable} (h : board.Accounts)
    (he : board.executors e = ⟨task :: rest, .notified, at'⟩) (hclock : at' ≤ now)
    (hnext : nextRunOf decimal now task = .ok nextRun)
    (hfind : ∀ k, tasks.find? k = (board.tasks.find? k).map fun row =>
      if k = task.id ∧ row.organizationId = task.organizationId then (row.recordRun now nextRun).checkMaxRuns
      else row) : ({ board.setExecutor e ⟨rest, .waiting, at'⟩ with tasks } : TaskBoard).Accounts := by
  have hmem : task ∈ (board.executors e).batch := by
    rw [he]
    exact List.mem_cons_self
  obtain ⟨row, hrow, hrownext, horg, ⟨occurrence, ho, hle⟩, hmax⟩ := h.held e task hmem
  have hold {t : String} (ht : t ≠ task.id) : tasks.find? t = board.tasks.find? t := by
    rw [hfind]
    cases board.tasks.find? t with
    | none => rfl
    | some other => rw [Option.map_some, if_neg fun hand => ht hand.1]
  have hmarked : tasks.find? task.id = some (row.recordRun now nextRun).checkMaxRuns := by
    rw [hfind, hrow, Option.map_some, if_pos ⟨rfl, horg⟩]
  obtain ⟨hruns, hmaxRuns, hnextRun, hmore⟩ := mark_row now nextRun row
  have hnow : board.Notified task.id := ⟨e, task, rest, at', he, rfl⟩
  have hbatch (e' : ℕ) : (({ board.setExecutor e ⟨rest, .waiting, at'⟩ with tasks } : TaskBoard).executors e') =
      if e' = e then ⟨rest, .waiting, at'⟩ else board.executors e' := rfl
  have hothers (e' : ℕ) (task' : ScheduledTask) (htask' : task' ∈ (({ board.setExecutor e ⟨rest, .waiting, at'⟩ with
      tasks } : TaskBoard).executors e').batch) : task' ∈ (board.executors e').batch ∧ task'.id ≠ task.id := by
    rw [hbatch] at htask'
    by_cases hee : e' = e
    · rw [if_pos hee] at htask'
      subst hee
      have hnodup := h.nodup e'
      rw [he] at hnodup ⊢
      refine ⟨List.mem_cons_of_mem _ htask', fun hid => ?_⟩
      exact (List.nodup_cons.1 hnodup).1 (hid ▸ List.mem_map_of_mem htask')
    · rw [if_neg hee] at htask'
      exact ⟨htask', fun hid => hee (h.eq_of_held htask' hmem hid)⟩
  have hnotified (t : String) : ({ board.setExecutor e ⟨rest, .waiting, at'⟩ with tasks } : TaskBoard).Notified t ↔
      t ≠ task.id ∧ board.Notified t := by
    constructor
    · rintro ⟨e', task', rest', at'', he', rfl⟩
      have hhead : task' ∈ (({ board.setExecutor e ⟨rest, .waiting, at'⟩ with
          tasks } : TaskBoard).executors e').batch := by
        rw [he']
        exact List.mem_cons_self
      refine ⟨(hothers e' task' hhead).2, ?_⟩
      rw [hbatch] at he'
      by_cases hee : e' = e
      · rw [if_pos hee] at he'
        cases he'
      · rw [if_neg hee] at he'
        exact ⟨e', task', rest', at'', he', rfl⟩
    · rintro ⟨hne, e', task', rest', at'', he', rfl⟩
      refine ⟨e', task', rest', at'', ?_, rfl⟩
      rw [hbatch, if_neg, he']
      rintro rfl
      cases he.symm.trans he'
      exact hne rfl
  refine ⟨?_, ?_, ?_, ?_, ?_, h.once, ?_, ?_, ?_⟩
  · intro e' task' htask'
    obtain ⟨hbefore, hne⟩ := hothers e' task' htask'
    obtain ⟨found, hfound, hf1, hf2, ⟨o, ho', hle'⟩, hf3⟩ := h.held e' task' hbefore
    refine ⟨found, (hold hne).trans hfound, hf1, hf2, ⟨o, ho', hle'.trans ?_⟩, hf3⟩
    rw [hbatch]
    by_cases hee : e' = e
    · rw [if_pos hee, hee, he]
    · rw [if_neg hee]
  · exact fun e₁ e₂ hne task₁ h₁ task₂ h₂ =>
      h.apart e₁ e₂ hne task₁ (hothers e₁ task₁ h₁).1 task₂ (hothers e₂ task₂ h₂).1
  · intro e'
    rw [hbatch]
    by_cases hee : e' = e
    · rw [if_pos hee]
      have hnodup := h.nodup e
      rw [he] at hnodup
      exact (List.nodup_cons.1 hnodup).2
    · rw [if_neg hee]
      exact h.nodup e'
  · intro t o raised hdelivered
    change (tasks.find? t).isSome
    rw [hfind, Option.isSome_map]
    exact h.known t o raised hdelivered
  · intro t found hfound o hdelivered
    rw [hnotified]
    by_cases ht : t = task.id
    · subst ht
      cases hmarked.symm.trans hfound
      refine .inr fun next hsome => ?_
      have hlater : now < next := lt_of_nextRunOf ((hnextRun next hsome) ▸ hnext)
      have hread : occurrence ≤ at' := by rwa [he] at hle
      rcases h.past task.id row hrow o hdelivered with ⟨-, heq⟩ | hless
      · exact ⟨occurrence, heq.trans (hrownext.trans ho), by omega⟩
      · obtain ⟨k, hk, hlt⟩ := hless occurrence (hrownext.trans ho)
        exact ⟨k, hk, by omega⟩
    · rcases h.past t found ((hold ht).symm.trans hfound) o hdelivered with ⟨hnow', heq⟩ | hless
      · exact .inl ⟨⟨ht, hnow'⟩, heq⟩
      · exact .inr hless
  · intro t found hfound
    rw [hnotified]
    by_cases ht : t = task.id
    · subst ht
      cases hmarked.symm.trans hfound
      refine ⟨fun hand => absurd rfl hand.1, fun _ => ?_⟩
      rw [hruns]
      exact (h.count _ row hrow).1 hnow
    · obtain ⟨hyes, hno⟩ := h.count t found ((hold ht).symm.trans hfound)
      exact ⟨fun hand => hyes hand.2, fun hnot => hno fun hnow' => hnot ⟨ht, hnow'⟩⟩
  · intro t found hfound
    by_cases ht : t = task.id
    · subst ht
      cases hmarked.symm.trans hfound
      rw [hruns, hmaxRuns]
      intro max hmem'
      have := hmax max hmem'
      omega
    · exact h.limit t found ((hold ht).symm.trans hfound)
  · intro t found hfound hactive hsome
    by_cases ht : t = task.id
    · subst ht
      cases hmarked.symm.trans hfound
      rw [hruns, hmaxRuns]
      exact hmore hsome
    · exact h.due t found ((hold ht).symm.trans hfound) hactive hsome

theorem Accounts.restage {task : ScheduledTask} {rest : List ScheduledTask} {before after : Stage} {at' : ℤ}
    (h : board.Accounts) (he : board.executors e = ⟨task :: rest, before, at'⟩) (hbefore : before ≠ .notified)
    (hafter : after ≠ .notified) : (board.setExecutor e ⟨task :: rest, after, at'⟩).Accounts := by
  refine h.setExecutor (.inr ?_) hafter ?_ (.inr ?_)
  · rwa [he]
  · rw [he]
  · rw [he]

theorem Accounts.step {act : Act} (h : board.Accounts) (hact : board.Undisturbed decimal act)
    (hstep : board.step decimal act = some board') : board'.Accounts := by
  cases act with
  | create id userId scheduleType scheduleExpr nextRun maxRuns organizationId ambient =>
    obtain ⟨org, tasks, hinsert, rfl⟩ := step_create hstep
    exact h.create hinsert rfl hact
  | cancel taskId userId ambient commit =>
    obtain ⟨g, hg, hfind⟩ := find?_applyCancel board taskId userId ambient commit
    have hcancelled : ({ board with tasks := board.applyCancel taskId userId ambient commit } : TaskBoard).Accounts := by
      refine h.mapTasks fun k => ⟨g, hfind k, fun task => ?_⟩
      rcases hg task with hsame | hcancel
      · rw [hsame]
        exact .refl task
      · rw [hcancel]
        exact ⟨rfl, rfl, rfl, rfl, nofun⟩
    rw [step_cancel hstep]
    split
    · exact hcancelled.note nofun nofun
    · rwa [List.append_nil]
  | poll e now limit rows =>
    obtain ⟨hidle, hanswer, rfl⟩ := step_poll hstep
    exact h.poll hidle hanswer hact
  | startTask e =>
    obtain ⟨task, rest, at', he, rfl⟩ := step_startTask hstep
    have hmoved : (board.setExecutor e ⟨task :: rest, .executing, at'⟩).Accounts := h.restage he nofun nofun
    exact hmoved.note nofun nofun
  | executed e error =>
    obtain ⟨task, rest, at', he, rfl⟩ := step_executed hstep
    refine h.restage he nofun ?_
    cases error <;> nofun
  | notified e error =>
    obtain ⟨task, rest, at', he, rfl⟩ := step_notified hstep
    cases error with
    | none => exact h.deliver he
    | some error =>
      have hmem : task ∈ (board.executors e).batch := by
        rw [he]
        exact List.mem_cons_self
      obtain ⟨row, hrow, -⟩ := h.held e task hmem
      have hraised : (board.setExecutor e ⟨task :: rest, .failed error, at'⟩).Accounts :=
        h.restage he nofun nofun
      refine hraised.note (fun t o heq => ?_) fun t o raised heq => ?_
      · cases (TaskEvent.delivered.inj heq).2.2
      · obtain ⟨rfl, -⟩ := TaskEvent.delivered.inj heq
        exact Option.isSome_iff_exists.2 ⟨row, hrow⟩
  | finish e now ambient commit =>
    obtain ⟨task, rest, at', he, hend⟩ := step_finish hstep
    obtain ⟨happlied, horg, ⟨nextRun, hnext⟩, hclock⟩ := hact task (by rw [he]; rfl)
    rcases hend with ⟨herror, -⟩ | ⟨nextRun', hnext', rfl⟩
    · cases herror.symm.trans hnext
    · rw [he] at hclock
      refine h.mark he hclock hnext' fun k => ?_
      rw [markExecuted, find?_updateTask, horg]
      refine Option.map_congr fun row _ => ?_
      simp only [happlied, true_and, Option.some.injEq, eq_comm]
  | fail e now ambient commit =>
    obtain ⟨task, rest, error, at', he, rfl⟩ := step_fail hstep
    have hmoved : (board.setExecutor e ⟨rest, .waiting, at'⟩).Accounts := by
      refine h.setExecutor (.inr ?_) nofun ?_ (.inr ?_)
      · rw [he]
        nofun
      · rw [he]
        exact List.sublist_cons_self _ _
      · rw [he]
    refine hmoved.mapTasks fun k => ⟨_, find?_updateTask k, fun row => ?_⟩
    split
    · exact sameSchedule_recordFailure now error row
    · exact .refl row
  | crash e =>
    obtain rfl : board.setExecutor e .idle = board' := Option.some.inj hstep
    exact h.setExecutor (.inr hact) nofun (List.nil_sublist _) (.inl rfl)

theorem Accounts.initial : TaskBoard.initial.Accounts := by
  have hnone {t : String} {row : ScheduledTask} (h : TaskBoard.initial.tasks.find? t = some row) : False := by
    cases h
  have hempty {e : ℕ} {task : ScheduledTask} (h : task ∈ (TaskBoard.initial.executors e).batch) : False := by
    cases h
  have hnever {event : TaskEvent} (h : event ∈ TaskBoard.initial.history) : False := by
    cases h
  constructor
  · exact fun _ _ htask => (hempty htask).elim
  · exact fun _ _ _ _ htask => (hempty htask).elim
  · exact fun _ => List.nodup_nil
  · exact fun _ _ _ hmem => (hnever hmem).elim
  · exact fun _ _ hrow => (hnone hrow).elim
  · exact fun _ _ => Nat.zero_le _
  · exact fun _ _ hrow => (hnone hrow).elim
  · exact fun _ _ hrow => (hnone hrow).elim
  · exact fun _ _ hrow => (hnone hrow).elim

/-- The deliveries of a task stay within its maximum of runs. -/
theorem Accounts.deliveries_le {t : String} {row : ScheduledTask} (h : board.Accounts)
    (hrow : board.tasks.find? t = some row) {max : ℤ} (hmax : max ∈ row.maxRuns) :
    (board.deliveries t : ℤ) ≤ max := by
  obtain ⟨hyes, hno⟩ := h.count t row hrow
  by_cases hnotified : board.Notified t
  · obtain ⟨e, task, rest, at', he, rfl⟩ := hnotified
    have hmem : task ∈ (board.executors e).batch := by
      rw [he]
      exact List.mem_cons_self
    obtain ⟨held, hheld, -, -, -, hbelow⟩ := h.held e task hmem
    cases hrow.symm.trans hheld
    have := hbelow max hmax
    rw [hyes ⟨e, task, rest, at', he, rfl⟩]
    omega
  · rw [hno hnotified]
    exact h.limit t row hrow max hmax

/-- Every occurrence is delivered once at most, and no task more often than its maximum. -/
theorem delivered_once (h : Reaches (Guarded (Step decimal) (Undisturbed decimal)) .initial board) :
    (∀ t o, board.deliveriesAt t o ≤ 1) ∧ ∀ t row, board.tasks.find? t = some row →
      ∀ max ∈ row.maxRuns, (board.deliveries t : ℤ) ≤ max := by
  have haccounts : board.Accounts :=
    h.invariant (I := Accounts) (fun _ _ _ haccounts hstep => haccounts.step hstep.2 hstep.1) .initial
  exact ⟨haccounts.once, fun t row hrow max hmax => haccounts.deliveries_le hrow hmax⟩

def runReminder (e : ℕ) : List Act :=
  [.startTask e, .executed e none, .notified e none]

theorem delivered_once_reminder :
    ∃ board : TaskBoard, board.deliveries "task" = 1 ∧ board.deliveriesAt "task" (some 5) ≤ 1 := by
  refine ⟨_, rfl, (@delivered_once (fun _ => none) _ ⟨[createReminder, .poll 0 6 10 [reminder], .startTask 0,
    .executed 0 none, .notified 0 none], .cons ⟨rfl, nofun⟩ (.cons ⟨rfl, ?_⟩ (.cons ⟨rfl, trivial⟩
      (.cons ⟨rfl, trivial⟩ (.cons ⟨rfl, trivial⟩ (.nil _)))))⟩).1 "task" (some 5)⟩
  rintro row - ⟨e, task, htask, -⟩
  cases htask

/-- Two executors read a task that may run once, and both deliver it. -/
theorem reminder_delivered_twice : ∃ board : TaskBoard, Reaches (Step fun _ => none) .initial board ∧
    board.deliveriesAt "task" (some 5) = 2 ∧ board.deliveries "task" = 2 ∧
      (board.tasks.find? "task").map ScheduledTask.maxRuns = some (some 1) := by
  have hplay : (play (fun _ => none) .initial ([.create "task" "user" "once" "" (some 5) (some 1) (some "org") none,
      .poll 0 6 10 [{ reminder with maxRuns := some 1 }], .poll 1 6 10 [{ reminder with maxRuns := some 1 }]] ++
        runReminder 0 ++ runReminder 1)).map (fun board =>
        (board.deliveriesAt "task" (some 5), board.deliveries "task",
          (board.tasks.find? "task").map ScheduledTask.maxRuns)) = some (2, 2, some (some 1)) := by
    decide
  obtain ⟨board, hboard, hend⟩ := Option.map_eq_some_iff.1 hplay
  obtain ⟨hat, hrest⟩ := Prod.mk.inj hend
  obtain ⟨hall, hmax⟩ := Prod.mk.inj hrest
  exact ⟨board, reaches_of_play hboard, hat, hall, hmax⟩

end TaskBoard

end Wiii.Service
