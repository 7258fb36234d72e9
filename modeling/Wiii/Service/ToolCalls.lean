import Wiii.Lib.Json
import Wiii.Lib.Run

/-!
# Concurrent tool calls

Read-only calls are gathered, a bounded number of them at a time, and the others then run one after the other.  So a
read-only call sees the state before every call of the turn; the others do and answer what they would in a sequential
run, and the turn ends in its state (`concurrent_results`).
-/

namespace Wiii.Service.ToolCalls

structure ToolCall where
  id : Option String
  name : Option String
  args : Value
  deriving DecidableEq

structure ToolCallResult (ρ : Type) where
  toolCallId : String
  toolName : String
  result : Option ρ
  error : Option String
  deriving DecidableEq

/-! ## The classification -/

def readonlyToolPrefixes : List String :=
  ["tool_web_search", "tool_knowledge_search", "tool_maritime_search", "tool_search_news", "tool_search_legal",
    "tool_current_datetime", "tool_calculator", "tool_think", "tool_report_progress", "tool_search_maritime"]

def stateModifyingToolPrefixes : List String :=
  ["tool_execute_python", "tool_generate_visual", "tool_create_visual_code", "tool_generate_mermaid",
    "tool_generate_html_file", "tool_generate_excel_file", "tool_generate_word_document",
    "tool_generate_interactive_chart", "tool_browser_snapshot_url", "handoff_to_agent"]

/-- `name.startswith(p) or name == p` for one of the names. -/
def startsWithOne (names : List String) (toolName : String) : Bool :=
  names.any fun p => p.toList.isPrefixOf toolName.toList || decide (toolName = p)

def isReadonlyTool (toolName : String) : Bool := startsWithOne readonlyToolPrefixes toolName

def isStateModifyingTool (toolName : String) : Bool := startsWithOne stateModifyingToolPrefixes toolName

def ToolCall.isReadonly (call : ToolCall) : Bool :=
  isReadonlyTool (call.name.getD "") && !isStateModifyingTool (call.name.getD "")

variable {ρ σ : Type}

def ToolCall.record (call : ToolCall) : Except String ρ → ToolCallResult ρ
  | .ok result => ⟨call.id.getD "unknown", call.name.getD "unknown", some result, none⟩
  | .error error => ⟨call.id.getD "unknown", call.name.getD "unknown", none, some error⟩

/-- The tools: what a call answers in a state, and the state it leaves, also if it raises. -/
abbrev Invoke (ρ σ : Type) := ToolCall → σ → Except String ρ × σ

variable (invoke : Invoke ρ σ)

def recordIn (s : σ) (call : ToolCall) : ToolCallResult ρ := call.record (invoke call s).1

/-! ## One after the other -/

/-- `_execute_sequential`. -/
def executeSequential : List ToolCall → σ → List (ToolCallResult ρ) × σ
  | [], s => ([], s)
  | call :: calls, s =>
    let later := executeSequential calls (invoke call s).2
    (recordIn invoke s call :: later.1, later.2)

/-! ## Gathered -/

inductive Progress (ρ : Type) where
  | waiting
  | running
  | done (result : ToolCallResult ρ)

namespace Progress

def isRunning : Progress ρ → Bool
  | running => true
  | _ => false

def left : Progress ρ → ℕ
  | waiting => 2
  | running => 1
  | done _ => 0

end Progress

/-- The shared state and the gathered calls, in the order of the list. -/
structure Gather (ρ σ : Type) where
  state : σ
  progress : List (Progress ρ)

inductive GatherAct where
  | acquire (i : ℕ)
  | complete (i : ℕ)

variable (bound : ℕ) (calls : List ToolCall)

/-- A call enters the semaphore, or its invocation ends. -/
inductive Gather.Step : Gather ρ σ → GatherAct → Gather ρ σ → Prop
  | acquire {s : σ} {progress : List (Progress ρ)} {i : ℕ} (h : progress[i]? = some .waiting)
      (hbound : progress.countP Progress.isRunning < bound) :
      Gather.Step ⟨s, progress⟩ (.acquire i) ⟨s, progress.set i .running⟩
  | complete {s : σ} {progress : List (Progress ρ)} {i : ℕ} {call : ToolCall}
      (h : progress[i]? = some .running) (hcall : calls[i]? = some call) :
      Gather.Step ⟨s, progress⟩ (.complete i)
        ⟨(invoke call s).2, progress.set i (.done (recordIn invoke s call))⟩

def Gather.start (s : σ) : Gather ρ σ := ⟨s, calls.map fun _ => .waiting⟩

/-- `_execute_concurrent` may end with these results, in this state. -/
def ExecutesConcurrent (s : σ) (results : List (ToolCallResult ρ)) (s' : σ) : Prop :=
  Reaches (Gather.Step invoke bound calls) (Gather.start calls s) ⟨s', results.map Progress.done⟩

/-! ## Partitioned and merged -/

structure Settings where
  enableConcurrentToolExecution : Bool
  concurrentToolMaxWorkers : ℕ

/-- `max_concurrent or settings.concurrent_tool_max_workers`. -/
def Settings.maxConcurrent (settings : Settings) : Option ℕ → ℕ
  | none | some 0 => settings.concurrentToolMaxWorkers
  | some (n + 1) => n + 1

def batch (inBatch : ToolCall → Bool) (calls : List ToolCall) : List (ToolCall × ℕ) :=
  calls.zipIdx.filter fun call => inBatch call.1

def readonlyBatch (calls : List ToolCall) : List (ToolCall × ℕ) := batch ToolCall.isReadonly calls

def stateModifyingBatch (calls : List ToolCall) : List (ToolCall × ℕ) := batch (fun call => !call.isReadonly) calls

/-- `for i, result in zip(indices, results): all_results[i] = result`. -/
def place {α : Type} (indices : List ℕ) (results : List α) (allResults : List (Option α)) : List (Option α) :=
  (indices.zip results).foldl (fun allResults placed => allResults.set placed.1 (some placed.2)) allResults

def mergeResults (calls : List ToolCall) (readonlyResults stateModifyingResults : List (ToolCallResult ρ)) :
    List (Option (ToolCallResult ρ)) :=
  place ((stateModifyingBatch calls).map Prod.snd) stateModifyingResults
    (place ((readonlyBatch calls).map Prod.snd) readonlyResults (List.replicate calls.length none))

/-- `execute_tool_calls_concurrent` may return these results and leave this state. -/
inductive ExecutesToolCalls (settings : Settings) (maxConcurrent : Option ℕ) (calls : List ToolCall) (s : σ) :
    List (Option (ToolCallResult ρ)) → σ → Prop
  | disabled (h : settings.enableConcurrentToolExecution = false) :
      ExecutesToolCalls settings maxConcurrent calls s ((executeSequential invoke calls s).1.map some)
        (executeSequential invoke calls s).2
  | enabled (h : settings.enableConcurrentToolExecution = true) {readonlyResults : List (ToolCallResult ρ)} {s' : σ}
      (hreadonly : ExecutesConcurrent invoke (settings.maxConcurrent maxConcurrent)
        ((readonlyBatch calls).map Prod.fst) s readonlyResults s') :
      ExecutesToolCalls settings maxConcurrent calls s
        (mergeResults calls readonlyResults
          (executeSequential invoke ((stateModifyingBatch calls).map Prod.fst) s').1)
        (executeSequential invoke ((stateModifyingBatch calls).map Prod.fst) s').2

section

variable {invoke bound calls}

/-- What holds while calls are gathered that leave the state alone. -/
structure Gather.Reads (invoke : Invoke ρ σ) (calls : List ToolCall) (s : σ) (gather : Gather ρ σ) : Prop where
  state : gather.state = s
  length : gather.progress.length = calls.length
  results : ∀ (i : ℕ) (result : ToolCallResult ρ), gather.progress[i]? = some (Progress.done result) → ∃ call, calls[i]? = some call ∧
    result = recordIn invoke s call

theorem Gather.reads_start (s : σ) : Gather.Reads invoke calls s (Gather.start calls s) := by
  refine ⟨rfl, List.length_map _, fun i result hi => ?_⟩
  simp only [Gather.start, List.getElem?_map, Option.map_eq_some_iff] at hi
  obtain ⟨call, -, hdone⟩ := hi
  cases hdone

theorem Gather.Reads.step {s : σ} {gather gather' : Gather ρ σ} {act : GatherAct}
    (hreads : ∀ call ∈ calls, ∀ s, (invoke call s).2 = s) (h : Gather.Reads invoke calls s gather)
    (hstep : Gather.Step invoke bound calls gather act gather') : Gather.Reads invoke calls s gather' := by
  obtain ⟨hstate, hlength, hresults⟩ := h
  cases hstep with
  | acquire hi hbound =>
    refine ⟨hstate, (List.length_set ..).trans hlength, fun j result hj => hresults j result ?_⟩
    rw [List.getElem?_set] at hj
    split at hj
    · split at hj <;> cases hj
    · exact hj
  | @complete _ progress i call hi hcall =>
    have hs := hreads call (List.mem_of_getElem? hcall)
    refine ⟨(hs _).trans hstate, (List.length_set ..).trans hlength, fun j result hj => ?_⟩
    rw [List.getElem?_set] at hj
    split at hj
    next heq =>
      subst heq
      split at hj
      · cases hj
        exact ⟨call, hcall, by rw [← hstate]⟩
      · cases hj
    next => exact hresults j result hj

theorem executesConcurrent_reads {s s' : σ} {results : List (ToolCallResult ρ)}
    (hreads : ∀ call ∈ calls, ∀ s, (invoke call s).2 = s)
    (h : ExecutesConcurrent invoke bound calls s results s') :
    s' = s ∧ results = calls.map (recordIn invoke s) := by
  obtain ⟨acts, hrun⟩ := h
  obtain ⟨hstate, hlength, hresults⟩ :=
    hrun.invariant (I := Gather.Reads invoke calls s) (fun _ _ _ hI hstep => hI.step hreads hstep) (Gather.reads_start s)
  refine ⟨hstate, List.ext_getElem? fun i => ?_⟩
  rw [List.length_map] at hlength
  rw [List.getElem?_map]
  cases hi : results[i]? with
  | none =>
    rw [List.getElem?_eq_none_iff, hlength] at hi
    rw [List.getElem?_eq_none hi]
    rfl
  | some result =>
    obtain ⟨call, hcall, rfl⟩ := hresults i result (by rw [List.getElem?_map, hi]; rfl)
    rw [hcall]
    rfl

theorem sum_left_set {progress : List (Progress ρ)} {i : ℕ} {p : Progress ρ} (h : progress[i]? = some p)
    (q : Progress ρ) :
    ((progress.set i q).map Progress.left).sum + p.left = (progress.map Progress.left).sum + q.left := by
  induction progress generalizing i with
  | nil => simp at h
  | cons head progress ih =>
    cases i with
    | zero =>
      simp only [List.getElem?_cons_zero, Option.some.injEq] at h
      subst h
      simp only [List.set_cons_zero, List.map_cons, List.sum_cons]
      omega
    | succ i =>
      have hrest := ih (List.getElem?_cons_succ ▸ h)
      simp only [List.set_cons_succ, List.map_cons, List.sum_cons]
      omega

theorem exists_results {progress : List (Progress ρ)} (h : (progress.map Progress.left).sum = 0) :
    ∃ results : List (ToolCallResult ρ), progress = results.map Progress.done := by
  induction progress with
  | nil => exact ⟨[], rfl⟩
  | cons p progress ih =>
    simp only [List.map_cons, List.sum_cons, Nat.add_eq_zero_iff] at h
    obtain ⟨results, rfl⟩ := ih h.2
    cases p with
    | waiting => exact absurd h.1 (Nat.succ_ne_zero _)
    | running => exact absurd h.1 (Nat.succ_ne_zero _)
    | done result => exact ⟨result :: results, rfl⟩

/-- While a call is left to end, the semaphore lets one on. -/
theorem exists_gather_step (hbound : 1 ≤ bound) {s : σ} {progress : List (Progress ρ)}
    (hlength : progress.length = calls.length) (h : (progress.map Progress.left).sum ≠ 0) :
    ∃ act s' progress', Gather.Step invoke bound calls ⟨s, progress⟩ act ⟨s', progress'⟩ ∧
      progress'.length = calls.length ∧
      (progress'.map Progress.left).sum < (progress.map Progress.left).sum := by
  by_cases hrunning : ∃ i : ℕ, progress[i]? = some Progress.running
  · obtain ⟨i, hi⟩ := hrunning
    obtain ⟨hlt, -⟩ := List.getElem?_eq_some_iff.1 hi
    obtain ⟨call, hcall⟩ : ∃ call, calls[i]? = some call := ⟨_, List.getElem?_eq_getElem (hlength ▸ hlt)⟩
    refine ⟨_, _, _, .complete hi hcall, (List.length_set ..).trans hlength, ?_⟩
    have hsum := sum_left_set hi (.done (recordIn invoke s call))
    simp only [Progress.left] at hsum ⊢
    omega
  · have hzero : progress.countP Progress.isRunning = 0 := by
      rw [List.countP_eq_zero]
      intro p hp hisRunning
      obtain ⟨i, hi⟩ := List.getElem?_of_mem hp
      cases p with
      | running => exact hrunning ⟨i, hi⟩
      | waiting => cases hisRunning
      | done result => cases hisRunning
    have hwaiting : ∃ i : ℕ, progress[i]? = some Progress.waiting := by
      by_contra hnone
      apply h
      rw [List.sum_eq_zero_iff_forall_eq_nat]
      intro left hleft
      obtain ⟨p, hp, rfl⟩ := List.mem_map.1 hleft
      obtain ⟨i, hi⟩ := List.getElem?_of_mem hp
      cases p with
      | running => exact absurd ⟨i, hi⟩ hrunning
      | waiting => exact absurd ⟨i, hi⟩ hnone
      | done result => rfl
    obtain ⟨i, hi⟩ := hwaiting
    refine ⟨_, _, _, .acquire hi (hzero ▸ hbound), (List.length_set ..).trans hlength, ?_⟩
    have hsum := sum_left_set hi .running
    simp only [Progress.left] at hsum ⊢
    omega

theorem gather_ends (hbound : 1 ≤ bound) (left : ℕ) {s : σ} {progress : List (Progress ρ)}
    (hlength : progress.length = calls.length) (hleft : (progress.map Progress.left).sum ≤ left) :
    ∃ (results : List (ToolCallResult ρ)) (s' : σ),
      Reaches (Gather.Step invoke bound calls) ⟨s, progress⟩ ⟨s', results.map Progress.done⟩ := by
  induction left generalizing s progress with
  | zero =>
    obtain ⟨results, rfl⟩ := exists_results (Nat.le_zero.1 hleft)
    exact ⟨results, s, [], .nil _⟩
  | succ left ih =>
    by_cases hzero : (progress.map Progress.left).sum = 0
    · obtain ⟨results, rfl⟩ := exists_results hzero
      exact ⟨results, s, [], .nil _⟩
    · obtain ⟨act, s₁, progress₁, hstep, hlength₁, hlt⟩ := exists_gather_step hbound (s := s) hlength hzero
      obtain ⟨results, s', acts, hrun⟩ := ih (s := s₁) hlength₁ (by omega)
      exact ⟨results, s', act :: acts, .cons hstep hrun⟩

/-! ## What the sequential part does -/

theorem executeSequential_length (s : σ) : (executeSequential invoke calls s).1.length = calls.length := by
  induction calls generalizing s with
  | nil => rfl
  | cons call calls ih => exact congrArg (· + 1) (ih _)

theorem batch_cons (inBatch : ToolCall → Bool) (call : ToolCall) (calls : List ToolCall) (k : ℕ) :
    ((call :: calls).zipIdx k).filter (fun c => inBatch c.1) =
      (if inBatch call then [(call, k)] else []) ++ (calls.zipIdx (k + 1)).filter fun c => inBatch c.1 := by
  rw [List.zipIdx_cons, List.filter_cons]
  split <;> rfl

/-- A list leaves the same state without its read-only calls, and the others do the same. -/
theorem executeSequential_modifying (hreads : ∀ call : ToolCall, call.isReadonly = true → ∀ s, (invoke call s).2 = s)
    (k : ℕ) (s : σ) :
    (executeSequential invoke (((calls.zipIdx k).filter fun c => !c.1.isReadonly).map Prod.fst) s).2 =
        (executeSequential invoke calls s).2 ∧
      ∀ placed ∈ (((calls.zipIdx k).filter fun c => !c.1.isReadonly).map Prod.snd).zip
          (executeSequential invoke (((calls.zipIdx k).filter fun c => !c.1.isReadonly).map Prod.fst) s).1,
        k ≤ placed.1 ∧ (executeSequential invoke calls s).1[placed.1 - k]? = some placed.2 := by
  induction calls generalizing k s with
  | nil => exact ⟨rfl, fun placed hplaced => absurd hplaced (by simp)⟩
  | cons call calls ih =>
    rw [batch_cons (fun call => !call.isReadonly)]
    cases hreadonly : call.isReadonly with
    | true =>
      obtain ⟨hstate, hresults⟩ := ih (k + 1) s
      simp only [Bool.not_true, Bool.false_eq_true, if_false, List.nil_append, executeSequential,
        hreads call hreadonly]
      refine ⟨hstate, fun placed hplaced => ?_⟩
      obtain ⟨hle, hresult⟩ := hresults placed hplaced
      refine ⟨Nat.le_of_succ_le hle, ?_⟩
      rw [show placed.1 - k = placed.1 - (k + 1) + 1 by omega, List.getElem?_cons_succ]
      exact hresult
    | false =>
      obtain ⟨hstate, hresults⟩ := ih (k + 1) (invoke call s).2
      simp only [Bool.not_false, if_true, List.cons_append, List.nil_append, List.map_cons, executeSequential,
        List.zip_cons_cons, List.mem_cons]
      refine ⟨hstate, fun placed hplaced => ?_⟩
      rcases hplaced with rfl | hplaced
      · simp
      · obtain ⟨hle, hresult⟩ := hresults placed hplaced
        refine ⟨Nat.le_of_succ_le hle, ?_⟩
        rw [show placed.1 - k = placed.1 - (k + 1) + 1 by omega, List.getElem?_cons_succ]
        exact hresult

/-- Before the first call that is not read-only, a call is made in the first state. -/
theorem executeSequential_read (hreads : ∀ call : ToolCall, call.isReadonly = true → ∀ s, (invoke call s).2 = s)
    (s : σ) {i : ℕ} {call : ToolCall} (hcall : calls[i]? = some call)
    (hbefore : ∀ before ∈ calls.take i, before.isReadonly = true) :
    (executeSequential invoke calls s).1[i]? = some (recordIn invoke s call) := by
  induction calls generalizing i with
  | nil => simp at hcall
  | cons head calls ih =>
    cases i with
    | zero =>
      cases hcall
      rfl
    | succ i =>
      rw [List.take_succ_cons] at hbefore
      simp only [executeSequential, List.getElem?_cons_succ, hreads head (hbefore head List.mem_cons_self)]
      exact ih hcall fun before hmem => hbefore before (List.mem_cons_of_mem _ hmem)

/-! ## The merged results -/

section

variable {α : Type} {indices : List ℕ} {results : List α} {allResults : List (Option α)} {i : ℕ}

theorem place_length : (place indices results allResults).length = allResults.length := by
  unfold place
  induction indices.zip results generalizing allResults with
  | nil => rfl
  | cons placed pairs ih => rw [List.foldl_cons, ih, List.length_set]

theorem of_place {r : α} (h : (place indices results allResults)[i]? = some (some r)) :
    (i, r) ∈ indices.zip results ∨ allResults[i]? = some (some r) := by
  unfold place at h
  generalize indices.zip results = pairs at h ⊢
  induction pairs generalizing allResults with
  | nil => exact Or.inr h
  | cons placed pairs ih =>
    rcases ih h with hmem | hset
    · exact Or.inl (List.mem_cons_of_mem _ hmem)
    · rw [List.getElem?_set] at hset
      split at hset
      next heq =>
        split at hset
        · cases hset
          exact Or.inl (heq ▸ List.mem_cons_self)
        · cases hset
      next => exact Or.inr hset

theorem place_filled (hi : i < allResults.length)
    (h : (∃ r, (i, r) ∈ indices.zip results) ∨ ∃ r, allResults[i]? = some (some r)) :
    ∃ r, (place indices results allResults)[i]? = some (some r) := by
  unfold place
  generalize indices.zip results = pairs at h ⊢
  induction pairs generalizing allResults with
  | nil =>
    rcases h with ⟨r, hr⟩ | h
    · cases hr
    · exact h
  | cons placed pairs ih =>
    refine ih (by rwa [List.length_set]) ?_
    by_cases heq : placed.1 = i
    · exact Or.inr ⟨placed.2, heq ▸ List.getElem?_set_self (heq ▸ hi)⟩
    · rcases h with ⟨r, hr⟩ | ⟨r, hr⟩
      · refine Or.inl ⟨r, (List.mem_cons.1 hr).resolve_left fun h => heq ?_⟩
        rw [← h]
      · exact Or.inr ⟨r, by rw [List.getElem?_set_ne heq, hr]⟩

theorem exists_mem_zip (hlength : indices.length = results.length) (h : i ∈ indices) :
    ∃ r, (i, r) ∈ indices.zip results := by
  obtain ⟨n, hn, rfl⟩ := List.mem_iff_getElem.1 h
  exact ⟨results[n], List.mem_iff_getElem.2 ⟨n, by rw [List.length_zip]; omega, List.getElem_zip⟩⟩

end

theorem mem_batch {inBatch : ToolCall → Bool} {call : ToolCall} {i : ℕ} :
    (call, i) ∈ batch inBatch calls ↔ calls[i]? = some call ∧ inBatch call = true := by
  rw [batch, List.mem_filter, List.mk_mem_zipIdx_iff_getElem?]

/-- A read-only call answers what it does in the first state, the others what they do in turn. -/
theorem mergeResults_eq (hreads : ∀ call : ToolCall, call.isReadonly = true → ∀ s, (invoke call s).2 = s) (s : σ)
    {i : ℕ} {call : ToolCall} (hcall : calls[i]? = some call) :
    (mergeResults calls (((readonlyBatch calls).map Prod.fst).map (recordIn invoke s))
        (executeSequential invoke ((stateModifyingBatch calls).map Prod.fst) s).1)[i]? =
      if call.isReadonly then some (some (recordIn invoke s call))
      else (executeSequential invoke calls s).1[i]?.map some := by
  have hi : i < calls.length := (List.getElem?_eq_some_iff.1 hcall).1
  have hzip : ∀ r, (i, r) ∈ ((readonlyBatch calls).map Prod.snd).zip
      (((readonlyBatch calls).map Prod.fst).map (recordIn invoke s)) →
      call.isReadonly = true ∧ r = recordIn invoke s call := by
    intro r hr
    rw [List.map_map, List.zip_map'] at hr
    obtain ⟨⟨call', i'⟩, hmem, heq⟩ := List.mem_map.1 hr
    cases heq
    obtain ⟨hcall', hreadonly⟩ := mem_batch.1 hmem
    rw [hcall] at hcall'
    cases hcall'
    exact ⟨hreadonly, rfl⟩
  have hzip' : ∀ r, (i, r) ∈ ((stateModifyingBatch calls).map Prod.snd).zip
      (executeSequential invoke ((stateModifyingBatch calls).map Prod.fst) s).1 →
      call.isReadonly = false ∧ (executeSequential invoke calls s).1[i]? = some r := by
    intro r hr
    obtain ⟨⟨call', i'⟩, hmem, hindex⟩ := List.mem_map.1 (List.of_mem_zip hr).1
    cases hindex
    obtain ⟨hcall', hmodifying⟩ := mem_batch.1 hmem
    rw [hcall] at hcall'
    cases hcall'
    exact ⟨by simpa using hmodifying, ((executeSequential_modifying hreads 0 s).2 _ hr).2⟩
  have hfilled : ∃ r, (mergeResults calls (((readonlyBatch calls).map Prod.fst).map (recordIn invoke s))
      (executeSequential invoke ((stateModifyingBatch calls).map Prod.fst) s).1)[i]? = some (some r) := by
    refine place_filled (by rwa [place_length, List.length_replicate]) ?_
    cases hreadonly : call.isReadonly with
    | true =>
      refine Or.inr (place_filled (by rwa [List.length_replicate]) (Or.inl (exists_mem_zip ?_ ?_)))
      · simp only [List.length_map]
      · exact List.mem_map.2 ⟨(call, i), mem_batch.2 ⟨hcall, hreadonly⟩, rfl⟩
    | false =>
      refine Or.inl (exists_mem_zip ?_ ?_)
      · rw [executeSequential_length]
        simp only [List.length_map]
      · exact List.mem_map.2 ⟨(call, i), mem_batch.2 ⟨hcall, by rw [hreadonly]; rfl⟩, rfl⟩
  obtain ⟨r, hr⟩ := hfilled
  rw [hr]
  rcases of_place hr with hmodifying | hreadonly
  · obtain ⟨hread, hresult⟩ := hzip' r hmodifying
    rw [hread, hresult]
    rfl
  · rcases of_place hreadonly with hreadonly | hnone
    · obtain ⟨hread, rfl⟩ := hzip r hreadonly
      rw [if_pos hread]
    · rw [List.getElem?_replicate, if_pos hi] at hnone
      cases hnone

end

/-- A turn can be brought to its end; it ends in the state of the sequential run, with its answers for the calls that
write, and with those of the first state for the others. -/
theorem concurrent_results (settings : Settings) (maxConcurrent : Option ℕ) (calls : List ToolCall) (s : σ)
    (hbound : 1 ≤ settings.maxConcurrent maxConcurrent)
    (hreads : ∀ call : ToolCall, call.isReadonly = true → ∀ s, (invoke call s).2 = s) :
    (∃ results s', ExecutesToolCalls invoke settings maxConcurrent calls s results s') ∧
      ∀ results s', ExecutesToolCalls invoke settings maxConcurrent calls s results s' →
        s' = (executeSequential invoke calls s).2 ∧ results.length = calls.length ∧
          ∀ (i : ℕ) (call : ToolCall), calls[i]? = some call →
            (results[i]? =
              if settings.enableConcurrentToolExecution && call.isReadonly then some (some (recordIn invoke s call))
              else (executeSequential invoke calls s).1[i]?.map some) ∧
            ((∀ before ∈ calls.take i, before.isReadonly = true) →
              results[i]? = (executeSequential invoke calls s).1[i]?.map some) := by
  refine ⟨?_, fun results s' h => ?_⟩
  · cases henabled : settings.enableConcurrentToolExecution with
    | false => exact ⟨_, _, .disabled henabled⟩
    | true =>
      obtain ⟨readonlyResults, s', hrun⟩ := @gather_ends _ _ invoke _ ((readonlyBatch calls).map Prod.fst) hbound _ s
        _ (List.length_map fun _ => Progress.waiting) le_rfl
      exact ⟨_, _, .enabled henabled hrun⟩
  · cases h with
    | disabled henabled =>
      refine ⟨rfl, by rw [List.length_map, executeSequential_length], fun i call hcall => ?_⟩
      have hresult : ((executeSequential invoke calls s).1.map some)[i]? =
          (executeSequential invoke calls s).1[i]?.map some := List.getElem?_map
      rw [henabled]
      exact ⟨hresult, fun _ => hresult⟩
    | @enabled henabled readonlyResults s' hreadonly =>
      have hbatch : ∀ call ∈ (readonlyBatch calls).map Prod.fst, ∀ s, (invoke call s).2 = s := by
        intro call hcall
        obtain ⟨⟨call', i⟩, hmem, rfl⟩ := List.mem_map.1 hcall
        exact hreads _ (mem_batch.1 hmem).2
      obtain ⟨rfl, rfl⟩ := executesConcurrent_reads hbatch hreadonly
      refine ⟨(executeSequential_modifying hreads 0 s').1, ?_, fun i call hcall => ?_⟩
      · rw [mergeResults, place_length, place_length, List.length_replicate]
      · rw [henabled, mergeResults_eq hreads s' hcall, Bool.true_and]
        refine ⟨rfl, fun hbefore => ?_⟩
        rw [executeSequential_read hreads s' hcall hbefore, Option.map_some, ite_self]

/-- Tools over a counter: a read-only call answers it, another one raises it. -/
def counterTools : Invoke ℕ ℕ := fun call n => if call.isReadonly then (.ok n, n) else (.ok n, n + 1)

theorem counterTools_reads (call : ToolCall) (h : call.isReadonly = true) (n : ℕ) : (counterTools call n).2 = n := by
  rw [counterTools, if_pos h]

def visualThenCalculator : List ToolCall :=
  [⟨some "call_1", some "tool_generate_visual", .object []⟩, ⟨some "call_2", some "tool_calculator", .object []⟩]

theorem concurrent_results_counter :
    ∃ results, ExecutesToolCalls counterTools ⟨true, 10⟩ none visualThenCalculator 0 results 1 ∧ results.length = 2 := by
  obtain ⟨⟨results, n, h⟩, hevery⟩ :=
    concurrent_results counterTools ⟨true, 10⟩ none visualThenCalculator 0 (by decide) counterTools_reads
  obtain ⟨rfl, hlength, -⟩ := hevery results n h
  exact ⟨results, h, hlength⟩

/-- A read that stands after a write answers as if it stood before it. -/
theorem read_before_write : (∀ call : ToolCall, call.isReadonly = true → ∀ n, (counterTools call n).2 = n) ∧
    ∃ results n, ExecutesToolCalls counterTools ⟨true, 10⟩ none visualThenCalculator 0 results n ∧
      results ≠ (executeSequential counterTools visualThenCalculator 0).1.map some := by
  refine ⟨counterTools_reads, ?_⟩
  have hreadonly : (readonlyBatch visualThenCalculator).map Prod.fst =
      [⟨some "call_2", some "tool_calculator", .object []⟩] := by
    rfl
  have hrun : ExecutesConcurrent counterTools 10 ((readonlyBatch visualThenCalculator).map Prod.fst) 0
      [⟨"call_2", "tool_calculator", some 0, none⟩] 0 := by
    rw [hreadonly]
    have hcomplete : Gather.Step counterTools 10 [⟨some "call_2", some "tool_calculator", .object []⟩]
        ⟨0, [.running]⟩ (.complete 0) ⟨0, [.done ⟨"call_2", "tool_calculator", some 0, none⟩]⟩ :=
      @Gather.Step.complete _ _ counterTools _ _ 0 _ 0 ⟨some "call_2", some "tool_calculator", .object []⟩ rfl rfl
    exact ⟨_, .cons (.acquire (i := 0) rfl (by decide)) (.single hcomplete)⟩
  refine ⟨_, _, .enabled rfl hrun, fun h => ?_⟩
  have hresult := congrArg (fun results => results[1]?) h
  exact absurd hresult (by decide)

end Wiii.Service.ToolCalls
