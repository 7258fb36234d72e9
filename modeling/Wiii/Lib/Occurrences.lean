import Mathlib.Data.List.Infix

/-!
# Occurrences of a pattern in a text

`count` reads the occurrences off from the left and goes on behind each of them, so it does not see
one that overlaps an earlier one.  It is one exactly if every occurrence starts inside the first
(`count_eq_one_iff`), which is more than to say that there is one.
-/

namespace Wiii.Occurrences

variable {α : Type*} [DecidableEq α]

def OccursAt (pattern text : List α) (position : ℕ) : Prop := pattern <+: text.drop position

instance (pattern text : List α) (position : ℕ) : Decidable (OccursAt pattern text position) :=
  inferInstanceAs (Decidable (_ <+: _))

/-- The occurrences from the left, `skip` characters of the last one still to be passed. -/
def countFrom (pattern : List α) : ℕ → List α → ℕ
  | _, [] => 0
  | skip + 1, _ :: rest => countFrom pattern skip rest
  | 0, c :: rest =>
    if pattern.isPrefixOf (c :: rest) then countFrom pattern (pattern.length - 1) rest + 1
    else countFrom pattern 0 rest

/-- How often a pattern that is not empty occurs, without overlaps. -/
def count (pattern text : List α) : ℕ := countFrom pattern 0 text

def replaceFirst (pattern replacement : List α) : List α → List α
  | [] => if pattern = [] then replacement else []
  | c :: rest =>
    if pattern.isPrefixOf (c :: rest) then replacement ++ (c :: rest).drop pattern.length
    else c :: replaceFirst pattern replacement rest

variable {pattern text rest : List α} {c : α} {position : ℕ}

omit [DecidableEq α] in
theorem occursAt_drop {n : ℕ} : OccursAt pattern (text.drop n) position ↔ OccursAt pattern text (n + position) := by
  rw [OccursAt, List.drop_drop]
  exact Iff.rfl

omit [DecidableEq α] in
theorem not_occursAt_nil (h : pattern ≠ []) : ¬ OccursAt pattern [] position := by
  intro hoccurs
  rw [OccursAt, List.drop_nil, List.prefix_nil] at hoccurs
  exact h hoccurs

omit [DecidableEq α] in
/-! ## Counting -/

theorem countFrom_eq (skip : ℕ) (text : List α) : countFrom pattern skip text = count pattern (text.drop skip) := by
  induction text generalizing skip with
  | nil =>
    rw [List.drop_nil]
    cases skip <;> rfl
  | cons c rest ih =>
    cases skip with
    | zero => rfl
    | succ skip => exact ih skip

theorem count_nil : count pattern [] = 0 := rfl

theorem count_of_head (hne : pattern ≠ []) (h : pattern <+: c :: rest) :
    count pattern (c :: rest) = count pattern ((c :: rest).drop pattern.length) + 1 := by
  obtain ⟨first, more, rfl⟩ := List.exists_cons_of_ne_nil hne
  rw [count, countFrom, if_pos (List.isPrefixOf_iff_prefix.2 h), countFrom_eq]
  rfl

theorem count_of_not_head (h : ¬ pattern <+: c :: rest) : count pattern (c :: rest) = count pattern rest := by
  rw [count, countFrom, if_neg fun hprefix => h (List.isPrefixOf_iff_prefix.1 hprefix)]
  rfl

theorem count_eq_zero_iff (hne : pattern ≠ []) : count pattern text = 0 ↔ ∀ position, ¬ OccursAt pattern text position := by
  induction text with
  | nil => exact ⟨fun _ _ => not_occursAt_nil hne, fun _ => rfl⟩
  | cons c rest ih =>
    by_cases h : pattern <+: c :: rest
    · rw [count_of_head hne h]
      exact ⟨fun hzero => absurd hzero (Nat.succ_ne_zero _), fun hnone => absurd h (hnone 0)⟩
    · rw [count_of_not_head h, ih]
      constructor
      · rintro hnone (_ | position)
        · exact h
        · exact hnone position
      · exact fun hnone position => hnone (position + 1)

/-- One occurrence is counted if and only if all of them start inside the first. -/
theorem count_eq_one_iff (hne : pattern ≠ []) : count pattern text = 1 ↔
    ∃ first, OccursAt pattern text first ∧
      ∀ position, OccursAt pattern text position → first ≤ position ∧ position < first + pattern.length := by
  induction text with
  | nil =>
    refine ⟨fun hone => absurd hone (by rw [count_nil]; decide), ?_⟩
    rintro ⟨first, hoccurs, -⟩
    exact absurd hoccurs (not_occursAt_nil hne)
  | cons c rest ih =>
    by_cases h : pattern <+: c :: rest
    · rw [count_of_head hne h, Nat.add_eq_right, count_eq_zero_iff hne]
      constructor
      · intro hnone
        refine ⟨0, h, fun position hoccurs => ⟨Nat.zero_le _, ?_⟩⟩
        by_contra hle
        refine hnone (position - pattern.length) (occursAt_drop.2 ?_)
        rwa [Nat.add_sub_cancel' (by omega)]
      · rintro ⟨first, -, hinside⟩ position hoccurs
        have hfirst := (hinside 0 h).1
        have hlt := (hinside _ (occursAt_drop.1 hoccurs)).2
        omega
    · rw [count_of_not_head h, ih]
      constructor
      · rintro ⟨first, hoccurs, hinside⟩
        refine ⟨first + 1, hoccurs, ?_⟩
        rintro (_ | position) hposition
        · exact absurd hposition h
        · have := hinside position hposition
          omega
      · rintro ⟨_ | first, hoccurs, hinside⟩
        · exact absurd hoccurs h
        · refine ⟨first, hoccurs, fun position hposition => ?_⟩
          have := hinside (position + 1) hposition
          omega

/-- A second occurrence, and none that does not overlap the first. -/
def Crowded (pattern text : List α) : Prop :=
  ∃ first second, OccursAt pattern text first ∧ OccursAt pattern text second ∧ first < second ∧
    ∀ position, OccursAt pattern text position → first ≤ position ∧ position < first + pattern.length

theorem crowded_iff (hne : pattern ≠ []) : Crowded pattern text ↔
    count pattern text = 1 ∧ ¬ ∃! position, OccursAt pattern text position := by
  rw [count_eq_one_iff hne]
  constructor
  · rintro ⟨first, second, hfirst, hsecond, hlt, hinside⟩
    refine ⟨⟨first, hfirst, hinside⟩, ?_⟩
    rintro ⟨position, -, hunique⟩
    have heq := (hunique first hfirst).trans (hunique second hsecond).symm
    omega
  · rintro ⟨⟨first, hfirst, hinside⟩, hnot⟩
    by_contra hcrowd
    refine hnot ⟨first, hfirst, fun position hposition => ?_⟩
    by_contra hother
    have := hinside position hposition
    exact hcrowd ⟨first, position, hfirst, hposition, by omega, hinside⟩

theorem count_eq_one_of_unique (hne : pattern ≠ []) (h : ∃! position, OccursAt pattern text position) :
    count pattern text = 1 := by
  obtain ⟨first, hoccurs, hunique⟩ := h
  refine (count_eq_one_iff hne).2 ⟨first, hoccurs, fun position hposition => ?_⟩
  have heq : position = first := hunique position hposition
  have := List.length_pos_iff.2 hne
  omega

/-! ## Replacing -/

theorem replaceFirst_eq {first : ℕ} (replacement : List α) (hoccurs : OccursAt pattern text first)
    (hleast : ∀ position, OccursAt pattern text position → first ≤ position) :
    replaceFirst pattern replacement text =
      text.take first ++ replacement ++ text.drop (first + pattern.length) := by
  induction text generalizing first with
  | nil =>
    have hnil : pattern = [] := by
      rwa [OccursAt, List.drop_nil, List.prefix_nil] at hoccurs
    simp [replaceFirst, hnil]
  | cons c rest ih =>
    by_cases h : pattern <+: c :: rest
    · have hzero : first = 0 := Nat.le_zero.1 (hleast 0 h)
      rw [replaceFirst, if_pos (List.isPrefixOf_iff_prefix.2 h), hzero]
      simp
    · rw [replaceFirst, if_neg fun hprefix => h (List.isPrefixOf_iff_prefix.1 hprefix)]
      cases first with
      | zero => exact absurd hoccurs h
      | succ first =>
        rw [ih hoccurs fun position hposition => Nat.le_of_succ_le_succ (hleast (position + 1) hposition),
          Nat.succ_add]
        rfl

end Wiii.Occurrences
