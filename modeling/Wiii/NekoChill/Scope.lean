import Mathlib.Data.List.Nodup

/-!
# Runtime scopes

A scope owns disposers, numbered in the order they were added.  `dispose` starts an attempt, which calls every disposer
it finds, the last one first; whoever calls `dispose` meanwhile joins that one.  An attempt leaves the disposers that
failed, and is kept with what each disposer answered.

`Sound` says what a scope remembers: its disposers are the ones that no attempt saw succeed (`Sound.disposers`), and
each attempt called exactly those, in reverse order (`Sound.ended`).
-/

namespace Wiii.NekoChill

abbrev Outcome := ℕ × Bool

structure Attempt where
  queue : List ℕ
  results : List Outcome
  deriving DecidableEq

structure RuntimeScope where
  registered : ℕ := 0
  disposers : List ℕ := []
  disposalStarted : Bool := false
  attempt : Option Attempt := none
  ended : List (List Outcome) := []
  /-- The promise of the attempt that ended last is still the one to join. -/
  held : Bool := false
  deriving DecidableEq

/-- The disposers that failed, in the order they were called. -/
def failedDisposers (results : List Outcome) : List ℕ :=
  (results.filter fun outcome => !outcome.2).map Prod.fst

namespace RuntimeScope

/-- `add`: refused once a disposal was started. -/
def add (scope : RuntimeScope) : Option RuntimeScope :=
  if scope.disposalStarted then none
  else some { scope with
    registered := scope.registered + 1
    disposers := scope.disposers ++ [scope.registered] }

/-- `dispose`, and the number of the attempt it answers for. -/
def dispose (scope : RuntimeScope) : RuntimeScope × ℕ :=
  if scope.attempt.isSome then (scope, scope.ended.length)
  else if scope.held then (scope, scope.ended.length - 1)
  else if scope.disposers = [] then
    ({ scope with disposalStarted := true, ended := scope.ended ++ [[]] }, scope.ended.length)
  else
    ({ scope with disposalStarted := true, attempt := some ⟨scope.disposers.reverse, []⟩ },
      scope.ended.length)

def settle (ok : Bool) (scope : RuntimeScope) : Option RuntimeScope :=
  match scope.attempt with
  | some ⟨disposer :: queue, results⟩ =>
    let results := results ++ [(disposer, ok)]
    if queue = [] then some { scope with
      disposers := (failedDisposers results).reverse
      attempt := none
      ended := scope.ended ++ [results]
      held := true }
    else some { scope with attempt := some ⟨queue, results⟩ }
  | _ => none

/-- The promise of the attempt that ended is let go. -/
def release (scope : RuntimeScope) : RuntimeScope := { scope with held := false }

def outcome (scope : RuntimeScope) (attempt : ℕ) : Option Bool :=
  scope.ended[attempt]?.map fun results => results.all Prod.snd

def Succeeded (scope : RuntimeScope) (disposer : ℕ) : Prop :=
  (disposer, true) ∈ scope.ended.flatten ∨ ∃ a, scope.attempt = some a ∧ (disposer, true) ∈ a.results

def calling (scope : RuntimeScope) : Option ℕ := scope.attempt.bind fun a => a.queue.head?

end RuntimeScope

/-- The disposers that did not succeed in these attempts. -/
def unsettled (registered : ℕ) (attempts : List (List Outcome)) : List ℕ :=
  (List.range registered).filter fun disposer => decide ((disposer, true) ∉ attempts.flatten)

structure RuntimeScope.Sound (scope : RuntimeScope) : Prop where
  disposers : scope.disposers = unsettled scope.registered scope.ended
  fresh : scope.disposalStarted = false → scope.ended = [] ∧ scope.attempt = none ∧ scope.held = false
  attempt : ∀ a, scope.attempt = some a →
    a.results.map Prod.fst ++ a.queue = scope.disposers.reverse ∧ a.queue ≠ [] ∧ scope.held = false
  ended : ∀ before results after, scope.ended = before ++ results :: after →
    results.map Prod.fst = (unsettled scope.registered before).reverse
  held : scope.held = true → scope.ended ≠ []

theorem unsettled_nodup (registered : ℕ) (attempts : List (List Outcome)) :
    (unsettled registered attempts).Nodup :=
  List.nodup_range.filter _

theorem mem_unsettled {registered disposer : ℕ} {attempts : List (List Outcome)} :
    disposer ∈ unsettled registered attempts ↔
      disposer < registered ∧ (disposer, true) ∉ attempts.flatten := by
  simp [unsettled]

theorem unsettled_snoc {registered : ℕ} {attempts : List (List Outcome)} {results : List Outcome}
    (h : results.map Prod.fst = (unsettled registered attempts).reverse) :
    unsettled registered (attempts ++ [results]) = (failedDisposers results).reverse := by
  have hnodup : (results.map Prod.fst).Nodup := h ▸ List.nodup_reverse.2 (unsettled_nodup registered attempts)
  have hsplit : unsettled registered (attempts ++ [results]) =
      (unsettled registered attempts).filter fun disposer => decide ((disposer, true) ∉ results) := by
    unfold unsettled
    rw [List.filter_filter]
    apply List.filter_congr
    intro disposer _
    simp only [List.flatten_append, List.flatten_singleton, List.mem_append, not_or]
    rw [Bool.decide_and, Bool.and_comm]
  have hleft : unsettled registered attempts = (results.map Prod.fst).reverse := by
    rw [h, List.reverse_reverse]
  rw [hsplit, hleft, List.filter_reverse]
  congr 1
  -- of the results, which name each disposer once, the failures are those without a success
  rw [List.filter_map]
  unfold failedDisposers
  congr 1
  apply List.filter_congr
  rintro ⟨disposer, ok⟩ hmem
  cases ok with
  | true => simpa using hmem
  | false =>
    simp only [Function.comp, Bool.not_false, decide_eq_true_eq]
    intro htrue
    have heq := List.inj_on_of_nodup_map hnodup hmem htrue rfl
    cases heq

theorem eq_or_eq_of_snoc {α : Type} {xs before after : List α} {x y : α}
    (h : xs ++ [x] = before ++ y :: after) :
    (before = xs ∧ y = x) ∨ ∃ rest, xs = before ++ y :: rest := by
  rcases List.eq_nil_or_concat after with rfl | ⟨rest, last, rfl⟩
  · obtain ⟨hxs, hx⟩ := List.append_inj' h rfl
    exact .inl ⟨hxs.symm, (List.singleton_inj.1 hx).symm⟩
  · right
    rw [List.concat_eq_append, ← List.cons_append, ← List.append_assoc] at h
    exact ⟨rest, (List.append_inj' h rfl).1⟩

namespace RuntimeScope.Sound

variable {scope scope' : RuntimeScope}

theorem new : ({} : RuntimeScope).Sound where
  disposers := rfl
  fresh _ := ⟨rfl, rfl, rfl⟩
  attempt _ h := by cases h
  ended before results after h := by
    have hlen := congrArg List.length h
    simp at hlen
  held h := by cases h

theorem add (h : scope.Sound) (ha : scope.add = some scope') : scope'.Sound := by
  unfold RuntimeScope.add at ha
  split_ifs at ha with hstarted
  cases ha
  obtain ⟨hended, hattempt, hheld⟩ := h.fresh (Bool.not_eq_true _ ▸ hstarted)
  have hdisposers := h.disposers
  refine ⟨?_, fun _ => ⟨hended, hattempt, hheld⟩, ?_, ?_, ?_⟩
  · rw [hdisposers, hended]
    simp [unsettled, List.range_succ]
  · intro a ha
    rw [show ({ scope with registered := _, disposers := _ } : RuntimeScope).attempt = none from hattempt] at ha
    cases ha
  · intro before results after heq
    rw [show ({ scope with registered := _, disposers := _ } : RuntimeScope).ended = [] from hended] at heq
    have hlen := congrArg List.length heq
    simp at hlen
  · intro hh
    rw [show ({ scope with registered := _, disposers := _ } : RuntimeScope).held = false from hheld] at hh
    cases hh

theorem dispose (h : scope.Sound) : scope.dispose.1.Sound := by
  unfold RuntimeScope.dispose
  split_ifs with hattempt hheld hempty
  · exact h
  · exact h
  · have hnone : scope.attempt = none := by simpa using hattempt
    have hunsettled : unsettled scope.registered scope.ended = [] := h.disposers ▸ hempty
    refine ⟨?_, fun hs => (nomatch hs), fun a ha => ?_, ?_, fun hh => absurd hh hheld⟩
    · show scope.disposers = unsettled scope.registered (scope.ended ++ [[]])
      rw [unsettled_snoc (by rw [hunsettled]; rfl), hempty]
      rfl
    · rw [show scope.attempt = some a from ha] at hnone
      cases hnone
    · intro before results after heq
      rcases eq_or_eq_of_snoc heq with ⟨rfl, rfl⟩ | ⟨rest, hended⟩
      · rw [hunsettled]
        rfl
      · exact h.ended before results rest hended
  · have hnone : scope.attempt = none := by simpa using hattempt
    refine ⟨h.disposers, fun hs => (nomatch hs), fun a ha => ?_, h.ended, h.held⟩
    cases ha
    exact ⟨rfl, by simpa using hempty, by simpa using hheld⟩

theorem settle {ok : Bool} (h : scope.Sound) (hs : scope.settle ok = some scope') : scope'.Sound := by
  unfold RuntimeScope.settle at hs
  split at hs
  · rename_i disposer queue results hattempt
    obtain ⟨hcalls, -, hheld⟩ := h.attempt _ hattempt
    have hstarted : scope.disposalStarted = true := by
      by_contra hfresh
      have hnone := (h.fresh (Bool.not_eq_true _ ▸ hfresh)).2.1
      rw [hattempt] at hnone
      cases hnone
    have hmap : (results ++ [(disposer, ok)]).map Prod.fst ++ queue = scope.disposers.reverse := by
      rw [← hcalls, List.map_append, List.map_singleton, List.append_assoc, List.singleton_append]
    simp only at hs
    split_ifs at hs with hqueue
    · cases hs
      have hresults : (results ++ [(disposer, ok)]).map Prod.fst =
          (unsettled scope.registered scope.ended).reverse := by
        rw [← h.disposers, ← hmap, hqueue, List.append_nil]
      refine ⟨(unsettled_snoc hresults).symm, fun hf => ?_, fun a ha => (nomatch ha), ?_, fun _ => ?_⟩
      · rw [show scope.disposalStarted = false from hf] at hstarted
        cases hstarted
      · intro before attempt after heq
        rcases eq_or_eq_of_snoc heq with ⟨rfl, rfl⟩ | ⟨rest, hended⟩
        · exact hresults
        · exact h.ended before attempt rest hended
      · simp
    · cases hs
      refine ⟨h.disposers, fun hf => ?_, fun a ha => ?_, h.ended, h.held⟩
      · rw [show scope.disposalStarted = false from hf] at hstarted
        cases hstarted
      · cases ha
        exact ⟨hmap, hqueue, hheld⟩
  · cases hs

theorem release (h : scope.Sound) : scope.release.Sound where
  disposers := h.disposers
  fresh hs := ⟨(h.fresh hs).1, (h.fresh hs).2.1, rfl⟩
  attempt a ha := ⟨(h.attempt a ha).1, (h.attempt a ha).2.1, rfl⟩
  ended := h.ended
  held hh := by cases hh

/-! ## What follows -/

theorem registered_or_succeeded (h : scope.Sound) {disposer : ℕ} (hd : disposer < scope.registered) :
    disposer ∈ scope.disposers ∨ scope.Succeeded disposer := by
  by_cases hsucceeded : (disposer, true) ∈ scope.ended.flatten
  · exact .inr (.inl hsucceeded)
  · left
    rw [h.disposers]
    exact mem_unsettled.2 ⟨hd, hsucceeded⟩

theorem not_succeeded_of_calling (h : scope.Sound) {disposer : ℕ} (hc : scope.calling = some disposer) :
    ¬ scope.Succeeded disposer := by
  obtain ⟨a, ha, hhead⟩ := Option.bind_eq_some_iff.1 hc
  obtain ⟨queue, hqueue⟩ := List.head?_eq_some_iff.1 hhead
  obtain ⟨hcalls, -, -⟩ := h.attempt a ha
  have hmem : disposer ∈ scope.disposers := by
    rw [← List.mem_reverse, ← hcalls, hqueue]
    exact List.mem_append_right _ List.mem_cons_self
  have hnodup : (a.results.map Prod.fst ++ a.queue).Nodup := by
    rw [hcalls, List.nodup_reverse, h.disposers]
    exact unsettled_nodup _ _
  rintro (hended | ⟨a', ha', hresult⟩)
  · rw [h.disposers] at hmem
    exact (mem_unsettled.1 hmem).2 hended
  · rw [ha] at ha'
    cases ha'
    have hcalled : disposer ∈ a.results.map Prod.fst := List.mem_map.2 ⟨_, hresult, rfl⟩
    exact (List.disjoint_of_nodup_append hnodup) hcalled (hqueue ▸ List.mem_cons_self)

/-- A promise that was fulfilled left nothing to dispose. -/
theorem disposers_of_outcome (h : scope.Sound) {attempt : ℕ} (ho : scope.outcome attempt = some true) :
    scope.disposers = [] := by
  obtain ⟨results, hresults, hall⟩ := Option.map_eq_some_iff.1 ho
  obtain ⟨hlt, hget⟩ := List.getElem?_eq_some_iff.1 hresults
  have hsplit : scope.ended = scope.ended.take attempt ++ results :: scope.ended.drop (attempt + 1) := by
    rw [← hget, ← List.drop_eq_getElem_cons hlt, List.take_append_drop]
  have hcalled := h.ended _ _ _ hsplit
  have hfailed : failedDisposers results = [] := by
    unfold failedDisposers
    rw [List.map_eq_nil_iff, List.filter_eq_nil_iff]
    intro outcome houtcome
    simpa using List.all_eq_true.1 hall outcome houtcome
  have hleft := unsettled_snoc hcalled
  rw [hfailed, List.reverse_nil] at hleft
  rw [h.disposers, List.eq_nil_iff_forall_not_mem]
  intro disposer hd
  obtain ⟨hlt, hnot⟩ := mem_unsettled.1 hd
  have hmem : disposer ∈ unsettled scope.registered (scope.ended.take attempt ++ [results]) := by
    refine mem_unsettled.2 ⟨hlt, fun hin => hnot ?_⟩
    rw [hsplit]
    simp only [List.flatten_append, List.flatten_cons, List.flatten_nil, List.append_nil, List.mem_append] at hin ⊢
    tauto
  rw [hleft] at hmem
  cases hmem

/-- Once there is nothing to dispose, nothing is called. -/
theorem attempt_of_disposers (h : scope.Sound) (hd : scope.disposers = []) : scope.attempt = none := by
  cases ha : scope.attempt with
  | none => rfl
  | some a =>
    obtain ⟨hcalls, hqueue, -⟩ := h.attempt a ha
    rw [hd, List.reverse_nil, List.append_eq_nil_iff] at hcalls
    exact absurd hcalls.2 hqueue

end RuntimeScope.Sound

/-! ## Later states of a scope -/

namespace RuntimeScope

variable {scope scope' : RuntimeScope}

/-- What was registered stays so, and what succeeded has succeeded. -/
structure Later (scope scope' : RuntimeScope) : Prop where
  registered : scope.registered ≤ scope'.registered
  succeeded : ∀ disposer, scope.Succeeded disposer → scope'.Succeeded disposer

theorem Later.refl (scope : RuntimeScope) : Later scope scope := ⟨Nat.le_refl _, fun _ h => h⟩

theorem Later.trans {a b c : RuntimeScope} (h : Later a b) (h' : Later b c) : Later a c :=
  ⟨Nat.le_trans h.registered h'.registered, fun d hd => h'.succeeded d (h.succeeded d hd)⟩

theorem later_add (h : scope.add = some scope') : Later scope scope' := by
  unfold RuntimeScope.add at h
  split_ifs at h
  cases h
  exact ⟨Nat.le_succ _, fun _ hd => hd⟩

theorem later_dispose (scope : RuntimeScope) : Later scope scope.dispose.1 := by
  unfold RuntimeScope.dispose
  split_ifs with hattempt
  · exact .refl scope
  · exact .refl scope
  · refine ⟨Nat.le_refl _, fun disposer hd => ?_⟩
    rcases hd with hd | hd
    · left
      simpa using hd
    · exact .inr hd
  · refine ⟨Nat.le_refl _, fun disposer hd => ?_⟩
    rcases hd with hd | ⟨a, ha, -⟩
    · exact .inl hd
    · rw [ha] at hattempt
      simp at hattempt

theorem later_settle {ok : Bool} (h : scope.settle ok = some scope') : Later scope scope' := by
  unfold RuntimeScope.settle at h
  split at h
  · rename_i disposer queue results hattempt
    have hkept : ∀ other, scope.Succeeded other →
        (other, true) ∈ scope.ended.flatten ∨ (other, true) ∈ results ++ [(disposer, ok)] := by
      rintro other (hended | ⟨a, ha, hresult⟩)
      · exact .inl hended
      · rw [hattempt] at ha
        cases ha
        exact .inr (List.mem_append_left _ hresult)
    simp only at h
    split_ifs at h <;> cases h
    · refine ⟨Nat.le_refl _, fun other hd => .inl ?_⟩
      show (other, true) ∈ (scope.ended ++ [results ++ [(disposer, ok)]]).flatten
      rw [List.flatten_append, List.flatten_singleton, List.mem_append]
      exact hkept other hd
    · refine ⟨Nat.le_refl _, fun other hd => ?_⟩
      rcases hkept other hd with hd | hd
      · exact .inl hd
      · exact .inr ⟨_, rfl, hd⟩
  · cases h

theorem later_release (scope : RuntimeScope) : Later scope scope.release := ⟨Nat.le_refl _, fun _ h => h⟩

theorem later_of_registered_eq_zero (h : scope.Sound) (hzero : scope.registered = 0) : Later scope scope' := by
  refine ⟨hzero ▸ Nat.zero_le _, fun disposer hd => ?_⟩
  have hempty : ∀ attempts, unsettled scope.registered attempts = [] := fun attempts => by
    rw [hzero]
    rfl
  rcases hd with hd | ⟨a, ha, hresult⟩
  · obtain ⟨results, hresults, hd⟩ := List.mem_flatten.1 hd
    obtain ⟨before, after, hsplit⟩ := List.append_of_mem hresults
    have hcalled := h.ended before results after hsplit
    rw [hempty, List.reverse_nil, List.map_eq_nil_iff] at hcalled
    rw [hcalled] at hd
    cases hd
  · obtain ⟨hcalls, -, -⟩ := h.attempt a ha
    rw [h.disposers, hempty, List.reverse_nil, List.append_eq_nil_iff, List.map_eq_nil_iff] at hcalls
    rw [hcalls.1] at hresult
    cases hresult

/-! ## Frames -/

theorem dispose_disposers (scope : RuntimeScope) : scope.dispose.1.disposers = scope.disposers := by
  unfold RuntimeScope.dispose
  split_ifs <;> rfl

theorem dispose_registered (scope : RuntimeScope) : scope.dispose.1.registered = scope.registered := by
  unfold RuntimeScope.dispose
  split_ifs <;> rfl

theorem settle_disposers {ok : Bool} (h : scope.Sound) (hs : scope.settle ok = some scope')
    (hd : scope.disposers = []) : scope'.disposers = [] := by
  unfold RuntimeScope.settle at hs
  rw [h.attempt_of_disposers hd] at hs
  cases hs

theorem settle_registered {ok : Bool} (hs : scope.settle ok = some scope') :
    scope'.registered = scope.registered := by
  unfold RuntimeScope.settle at hs
  split at hs
  · simp only at hs
    split_ifs at hs <;> cases hs <;> rfl
  · cases hs

theorem dispose_calls (scope : RuntimeScope) (h : scope.disposers ≠ []) (hfree : scope.attempt = none)
    (hreleased : scope.held = false) :
    scope.dispose.1.attempt = some ⟨scope.disposers.reverse, []⟩ := by
  unfold RuntimeScope.dispose
  rw [if_neg (by simp [hfree]), if_neg (by simp [hreleased]), if_neg h]

end RuntimeScope

end Wiii.NekoChill
