import Mathlib.Data.List.Infix

/-!
# Cutting the occurrences of patterns out of a text

`replaceAll` puts a replacement in the place of each occurrence of a pattern, from the left, where texts are compared
after a map `f` of their characters.  Where a text with the replacement in it can only contain a pattern that is there
without it (`Apart`), nothing is left of the pattern (`free_replaceAll`), and what is cut by one pattern after the other
are occurrences in the text of the beginning (`Redacted.replaceAll`).
-/

namespace Wiii.Redaction

variable {α β : Type*} [DecidableEq β] {f : α → β}

/-- `replaceAll` on a text of which `skip` characters belong to the last occurrence. -/
def replaceSkip (f : α → β) (pattern : List β) (replacement : List α) : ℕ → List α → List α
  | _, [] => []
  | skip + 1, _ :: rest => replaceSkip f pattern replacement skip rest
  | 0, c :: rest =>
    if pattern.isPrefixOf ((c :: rest).map f) then
      replacement ++ replaceSkip f pattern replacement (pattern.length - 1) rest
    else c :: replaceSkip f pattern replacement 0 rest

def replaceAll (f : α → β) (pattern : List β) (replacement text : List α) : List α :=
  replaceSkip f pattern replacement 0 text

/-- An occurrence in a text with `middle` inside is matched by one before or behind it. -/
def Apart (pattern middle : List β) : Prop :=
  ∀ before after, pattern <:+: before ++ middle ++ after → pattern <:+: before ∨ pattern <:+: after

/-- The second text is the first with the replacement for some pieces that `M` allows. -/
inductive Redacted (M : List α → Prop) (replacement : List α) : List α → List α → Prop
  | kept (text : List α) : Redacted M replacement text text
  | cut {piece : List α} (before : List α) {text text' : List α} (hpiece : M piece)
      (h : Redacted M replacement text text') :
      Redacted M replacement (before ++ piece ++ text) (before ++ replacement ++ text')

variable {pattern other : List β} {replacement text rest : List α} {c : α} {M : List α → Prop}

/-! ## One pattern -/

theorem replaceSkip_eq (skip : ℕ) (text : List α) :
    replaceSkip f pattern replacement skip text = replaceAll f pattern replacement (text.drop skip) := by
  induction text generalizing skip with
  | nil =>
    rw [List.drop_nil]
    cases skip <;> rfl
  | cons c rest ih =>
    cases skip with
    | zero => rfl
    | succ skip => exact ih skip

theorem replaceAll_of_start (hne : pattern ≠ []) (h : pattern <+: text.map f) :
    replaceAll f pattern replacement text = replacement ++ replaceAll f pattern replacement (text.drop pattern.length) := by
  obtain ⟨first, more, rfl⟩ := List.exists_cons_of_ne_nil hne
  cases text with
  | nil => exact absurd (List.prefix_nil.1 h) (List.cons_ne_nil _ _)
  | cons c rest =>
    rw [replaceAll, replaceSkip, if_pos (List.isPrefixOf_iff_prefix.2 h), replaceSkip_eq]
    rfl

theorem replaceAll_of_not_start (h : ¬ pattern <+: (c :: rest).map f) :
    replaceAll f pattern replacement (c :: rest) = c :: replaceAll f pattern replacement rest := by
  rw [replaceAll, replaceSkip, if_neg fun hstart => h (List.isPrefixOf_iff_prefix.1 hstart)]
  rfl

theorem replaceAll_of_absent (h : ¬ pattern <:+: text.map f) : replaceAll f pattern replacement text = text := by
  induction text with
  | nil => rfl
  | cons c rest ih =>
    rw [List.map_cons, List.infix_cons_iff, not_or] at h
    rw [replaceAll_of_not_start h.1, ih h.2]

theorem replaceAll_of_first (hne : pattern ≠ []) {k : ℕ} (hk : pattern <+: (text.map f).drop k)
    (hfirst : ∀ j < k, ¬ pattern <+: (text.map f).drop j) : replaceAll f pattern replacement text =
      text.take k ++ replacement ++ replaceAll f pattern replacement (text.drop (k + pattern.length)) := by
  induction k generalizing text with
  | zero => rw [replaceAll_of_start hne hk, Nat.zero_add]; rfl
  | succ k ih =>
    cases text with
    | nil => exact absurd (List.prefix_nil.1 hk) hne
    | cons c rest =>
      have hrest := ih hk fun j hj => hfirst (j + 1) (Nat.succ_lt_succ hj)
      rw [replaceAll_of_not_start (hfirst 0 (Nat.succ_pos k)), hrest, Nat.succ_add]
      rfl

theorem exists_cut (hne : pattern ≠ []) (h : pattern <:+: text.map f) (replacement : List α) :
    ∃ before piece after, text = before ++ piece ++ after ∧ piece.map f = pattern ∧ ¬ pattern <:+: before.map f ∧
      replaceAll f pattern replacement text = before ++ replacement ++ replaceAll f pattern replacement after := by
  induction text with
  | nil => exact absurd (List.infix_nil.1 h) hne
  | cons c rest ih =>
    by_cases hstart : pattern <+: (c :: rest).map f
    · refine ⟨[], (c :: rest).take pattern.length, (c :: rest).drop pattern.length, ?_, ?_, ?_, ?_⟩
      · rw [List.nil_append, List.take_append_drop]
      · rw [List.map_take]
        exact (List.prefix_iff_eq_take.1 hstart).symm
      · exact fun h => hne (List.infix_nil.1 h)
      · rw [replaceAll_of_start hne hstart, List.nil_append]
    · rw [List.map_cons, List.infix_cons_iff] at h
      obtain ⟨before, piece, after, rfl, hpiece, hfree, hreplace⟩ := ih (h.resolve_left hstart)
      refine ⟨c :: before, piece, after, rfl, hpiece, ?_, ?_⟩
      · rw [List.map_cons, List.infix_cons_iff, not_or]
        refine ⟨fun hhead => hstart ?_, hfree⟩
        rw [List.append_assoc, ← List.cons_append, List.map_append, List.map_cons]
        exact hhead.trans (List.prefix_append _ _)
      · rw [replaceAll_of_not_start hstart, hreplace]
        rfl

theorem free_replaceAll (hne : pattern ≠ []) (hapart : Apart pattern (replacement.map f)) (text : List α) :
    ¬ pattern <:+: (replaceAll f pattern replacement text).map f := by
  induction hlength : text.length using Nat.strong_induction_on generalizing text with
  | _ n ih =>
    by_cases h : pattern <:+: text.map f
    · obtain ⟨before, piece, after, rfl, hpiece, hfree, hreplace⟩ := exists_cut hne h replacement
      have hpos : 0 < piece.length := by
        rw [← List.length_map (f := f), hpiece]
        exact List.length_pos_iff.2 hne
      rw [hreplace, List.map_append, List.map_append]
      intro hfound
      refine (hapart _ _ hfound).elim hfree (ih after.length ?_ after rfl)
      simp only [List.length_append] at hlength
      omega
    · rw [replaceAll_of_absent h]
      exact h

/-! ## A replacement that stays apart -/

omit [DecidableEq β] in
theorem Apart.outside {middle before after front back : List β} (h : Apart pattern middle) (hne : pattern ≠ [])
    (heq : before ++ middle ++ after = front ++ pattern ++ back) :
    front.length + pattern.length ≤ before.length ∨ before.length + middle.length ≤ front.length := by
  by_contra hinside
  rw [not_or, Nat.not_le, Nat.not_le] at hinside
  have hpos := List.length_pos_iff.2 hne
  have hlength := congrArg List.length heq
  simp only [List.length_append] at hlength
  -- what the occurrence can reach of the text before and of the text behind is shorter than the pattern
  let k := min front.length before.length
  let reached := after.take (front.length + pattern.length - (before.length + middle.length))
  have hpart : before.drop k ++ middle ++ reached <+: (front ++ pattern ++ back).drop k := by
    rw [← heq, List.append_assoc, List.append_assoc, List.drop_append_of_le_length (Nat.min_le_right _ _)]
    exact (List.prefix_append_right_inj _).2 ((List.prefix_append_right_inj _).2 (List.take_prefix _ _))
  have hwhole : front.drop k ++ pattern <+: (front ++ pattern ++ back).drop k := by
    rw [List.append_assoc, List.drop_append_of_le_length (Nat.min_le_left _ _), ← List.append_assoc]
    exact List.prefix_append _ _
  have hle : (front.drop k ++ pattern).length ≤ (before.drop k ++ middle ++ reached).length := by
    simp only [List.length_append, List.length_drop, List.length_take, reached, k]
    omega
  have hfound : pattern <:+: before.drop k ++ middle ++ reached :=
    (List.suffix_append _ _).isInfix.trans (List.prefix_of_prefix_length_le hwhole hpart hle).isInfix
  rcases h _ _ hfound with hbefore | hafter
  · have := hbefore.length_le
    simp only [List.length_drop, k] at this
    omega
  · have := hafter.length_le
    simp only [List.length_take, reached] at this
    omega

theorem replaceAll_behind (hne : pattern ≠ []) (hapart : Apart pattern (replacement.map f)) {front back : List α}
    (heq : replacement = front ++ back) (after : List α) :
    replaceAll f pattern replacement (back ++ after) = back ++ replaceAll f pattern replacement after := by
  induction back generalizing front with
  | nil => rfl
  | cons c back ih =>
    have hnot : ¬ pattern <+: (c :: (back ++ after)).map f := by
      rintro ⟨tail, htail⟩
      have hwhole : [] ++ replacement.map f ++ after.map f = front.map f ++ pattern ++ tail := by
        rw [List.append_assoc (front.map f), htail, heq]
        simp
      have := hapart.outside hne hwhole
      have hpos := List.length_pos_iff.2 hne
      simp only [heq, List.map_append, List.map_cons, List.length_append, List.length_cons, List.length_map,
        List.length_nil] at this
      omega
    rw [List.cons_append, replaceAll_of_not_start hnot, ih (heq.trans (List.append_cons _ _ _))]
    rfl

/-- A replacement that was put in before is passed over. -/
theorem replaceAll_append (hne : pattern ≠ []) (hapart : Apart pattern (replacement.map f)) (before after : List α) :
    replaceAll f pattern replacement (before ++ replacement ++ after) =
      replaceAll f pattern replacement before ++ replacement ++ replaceAll f pattern replacement after := by
  induction hlength : before.length using Nat.strong_induction_on generalizing before with
  | _ n ih =>
    cases before with
    | nil => exact replaceAll_behind hne hapart (List.nil_append _).symm after
    | cons c before =>
      by_cases hstart : pattern <+: ((c :: before) ++ replacement ++ after).map f
      · have hle : pattern.length ≤ (c :: before).length := by
          obtain ⟨tail, htail⟩ := hstart
          have hwhole : (c :: before).map f ++ replacement.map f ++ after.map f = [] ++ pattern ++ tail := by
            rw [List.nil_append, htail, List.map_append, List.map_append]
          have := hapart.outside hne hwhole
          simp only [List.length_map, List.length_nil, List.length_cons] at this ⊢
          omega
        have hbefore : pattern <+: (c :: before).map f := by
          refine List.prefix_of_prefix_length_le hstart ?_ (by rwa [List.length_map])
          rw [List.append_assoc, List.map_append]
          exact List.prefix_append _ _
        have hshorter : ((c :: before).drop pattern.length).length < n := by
          have := List.length_pos_iff.2 hne
          rw [List.length_drop, hlength]
          simp only [List.length_cons] at hlength
          omega
        rw [replaceAll_of_start hne hstart, replaceAll_of_start hne hbefore, List.append_assoc (c :: before),
          List.drop_append_of_le_length hle, ← List.append_assoc (List.drop _ _), ih _ hshorter _ rfl]
        simp only [List.append_assoc]
      · have hbefore : ¬ pattern <+: (c :: before).map f := by
          refine fun h => hstart (h.trans ?_)
          rw [List.append_assoc, List.map_append]
          exact List.prefix_append _ _
        rw [List.cons_append, List.cons_append] at hstart ⊢
        simp only [List.length_cons] at hlength
        rw [replaceAll_of_not_start hstart, replaceAll_of_not_start hbefore, ih before.length (by omega) _ rfl]
        rfl

/-! ## One pattern after the other -/

namespace Redacted

variable {text' : List α}

theorem append_cut {piece rest' : List α} (h : Redacted M replacement text text') (hpiece : M piece)
    (hrest : Redacted M replacement rest rest') :
    Redacted M replacement (text ++ piece ++ rest) (text' ++ replacement ++ rest') := by
  induction h with
  | kept text => exact .cut text hpiece hrest
  | cut before hfirst _ ih =>
    have hcut := Redacted.cut before hfirst ih
    simp only [List.append_assoc] at hcut ⊢
    exact hcut

theorem of_replaceAll (hne : pattern ≠ []) (hM : ∀ piece, piece.map f = pattern → M piece) (text : List α) :
    Redacted M replacement text (Redaction.replaceAll f pattern replacement text) := by
  induction hlength : text.length using Nat.strong_induction_on generalizing text with
  | _ n ih =>
    by_cases h : pattern <:+: text.map f
    · obtain ⟨before, piece, after, rfl, hpiece, -, hreplace⟩ := exists_cut hne h replacement
      have hpos : 0 < piece.length := by
        rw [← List.length_map (f := f), hpiece]
        exact List.length_pos_iff.2 hne
      rw [hreplace]
      refine .cut before (hM piece hpiece) (ih after.length ?_ after rfl)
      simp only [List.length_append] at hlength
      omega
    · rw [replaceAll_of_absent h]
      exact .kept text

/-- The pieces that a later pattern cuts are pieces of the text of the beginning. -/
theorem replaceAll (hne : pattern ≠ []) (hapart : Apart pattern (replacement.map f))
    (hM : ∀ piece, piece.map f = pattern → M piece) (h : Redacted M replacement text text') :
    Redacted M replacement text (Redaction.replaceAll f pattern replacement text') := by
  induction h with
  | kept text => exact of_replaceAll hne hM text
  | cut before hpiece _ ih =>
    rw [replaceAll_append hne hapart]
    exact (of_replaceAll hne hM before).append_cut hpiece ih

theorem mem (h : Redacted M replacement text text') (hc : c ∈ text') : c ∈ text ∨ c ∈ replacement := by
  induction h with
  | kept => exact .inl hc
  | cut before _ _ ih =>
    simp only [List.mem_append] at hc ⊢
    rcases hc with (hc | hc) | hc
    · exact .inl (.inl (.inl hc))
    · exact .inr hc
    · exact (ih hc).imp .inr id

omit [DecidableEq β] in
theorem free (hapart : Apart other (replacement.map f)) (h : Redacted M replacement text text')
    (hfree : ¬ other <:+: text.map f) : ¬ other <:+: text'.map f := by
  induction h with
  | kept => exact hfree
  | cut before hpiece h ih =>
    rename_i piece rest rest'
    rw [List.map_append, List.map_append] at hfree ⊢
    intro hfound
    refine (hapart _ _ hfound).elim (fun hbefore => hfree ?_) (ih fun hrest => hfree ?_)
    · rw [List.append_assoc]
      exact hbefore.trans (List.prefix_append _ _).isInfix
    · exact hrest.trans (List.suffix_append _ _).isInfix

end Redacted

/-! ## A replacement that shares nothing with the pattern -/

omit [DecidableEq β] in
theorem occurs_of_not_mem {c : β} {before after : List β} (hc : c ∉ pattern) (h : pattern <:+: before ++ c :: after) :
    pattern <:+: before ∨ pattern <:+: after := by
  induction before with
  | nil =>
    rcases List.infix_cons_iff.1 h with hstart | hfound
    · cases pattern with
      | nil => exact .inl List.nil_infix
      | cons d pattern => exact absurd (List.cons_prefix_cons.1 hstart).1 fun heq => hc (heq ▸ List.mem_cons_self)
    · exact .inr hfound
  | cons d before ih =>
    rcases List.infix_cons_iff.1 h with hstart | hfound
    · refine .inl (List.IsPrefix.isInfix ?_)
      by_contra hnot
      have hlonger : (d :: before ++ [c]).length ≤ pattern.length := by
        by_contra hle
        rw [List.length_append, List.length_singleton] at hle
        exact hnot (List.prefix_of_prefix_length_le hstart (List.prefix_append (d :: before) (c :: after)) (by omega))
      have hhead : d :: before ++ [c] <+: d :: before ++ c :: after :=
        (List.prefix_append_right_inj _).2 (List.cons_prefix_cons.2 ⟨rfl, List.nil_prefix⟩)
      exact hc ((List.prefix_of_prefix_length_le hhead hstart hlonger).subset (by simp))
    · exact (ih hfound).imp (fun h => h.trans (List.suffix_cons _ _).isInfix) id

omit [DecidableEq β] in
theorem apart_of_disjoint {middle : List β} (hne : middle ≠ []) (h : ∀ c ∈ middle, c ∉ pattern) :
    Apart pattern middle := by
  intro before after hfound
  obtain ⟨c, rest, rfl⟩ := List.exists_cons_of_ne_nil hne
  rw [List.forall_mem_cons] at h
  rw [List.append_assoc, List.cons_append] at hfound
  refine (occurs_of_not_mem h.1 hfound).imp id fun hrest => ?_
  clear hfound hne
  induction rest with
  | nil => exact hrest
  | cons d rest ih =>
    have hd := h.2 d List.mem_cons_self
    rcases @occurs_of_not_mem _ pattern d [] (rest ++ after) hd hrest with hnil | hrest
    · exact hnil.trans List.nil_infix
    · exact ih ⟨h.1, fun c hc => h.2 c (List.mem_cons_of_mem _ hc)⟩ hrest

end Wiii.Redaction
