import Mathlib.Data.List.Infix

/-!
# Parts of a text

A layout says where parts of a text lie in it: behind each other, with other text in between.  Splitting a text on a separator
gives a layout of its pieces (`intercalate_splitOn`).
-/

namespace Wiii

/-- Parts of a text, each with the text between it and the part before. -/
structure Layout (α : Type) where
  parts : List (List α × List α)
  rest : List α

namespace Layout

variable {α : Type}

def text (layout : Layout α) : List α := layout.parts.flatMap (fun part => part.1 ++ part.2) ++ layout.rest

def chunks (layout : Layout α) : List (List α) := layout.parts.map Prod.snd

def gaps (layout : Layout α) : List (List α) := layout.parts.map Prod.fst ++ [layout.rest]

/-- A text without parts. -/
def gap (text : List α) : Layout α := ⟨[], text⟩

def after (before : List α) : Layout α → Layout α
  | ⟨[], rest⟩ => ⟨[], before ++ rest⟩
  | ⟨(gap, chunk) :: parts, rest⟩ => ⟨(before ++ gap, chunk) :: parts, rest⟩

def append (first second : Layout α) : Layout α :=
  ⟨first.parts ++ (second.after first.rest).parts, (second.after first.rest).rest⟩

def concat (layouts : List (Layout α)) : Layout α := layouts.foldr append (gap [])

variable {layout first second : Layout α} {layouts : List (Layout α)} {before chunk : List α}

@[simp] theorem text_gap (text : List α) : (gap text).text = text := rfl

@[simp] theorem chunks_gap (text : List α) : (gap text).chunks = [] := rfl

@[simp] theorem text_after (before : List α) (layout : Layout α) : (layout.after before).text = before ++ layout.text := by
  obtain ⟨parts, rest⟩ := layout
  cases parts with
  | nil => rfl
  | cons part parts => simp [after, text]

@[simp] theorem chunks_after (before : List α) (layout : Layout α) : (layout.after before).chunks = layout.chunks := by
  obtain ⟨parts, rest⟩ := layout
  cases parts with
  | nil => rfl
  | cons part parts => rfl

theorem text_append (first second : Layout α) : (first.append second).text = first.text ++ second.text := by
  have hsecond := text_after first.rest second
  rw [text] at hsecond
  rw [append, text, List.flatMap_append, List.append_assoc, hsecond, ← List.append_assoc]
  rfl

theorem chunks_append (first second : Layout α) : (first.append second).chunks = first.chunks ++ second.chunks := by
  rw [append, chunks, List.map_append]
  exact congrArg _ (chunks_after first.rest second)

theorem text_concat (layouts : List (Layout α)) : (concat layouts).text = (layouts.map text).flatten := by
  induction layouts with
  | nil => rfl
  | cons layout layouts ih =>
    rw [List.map_cons, List.flatten_cons, ← ih]
    exact text_append _ _

theorem chunks_concat (layouts : List (Layout α)) : (concat layouts).chunks = layouts.flatMap chunks := by
  induction layouts with
  | nil => rfl
  | cons layout layouts ih =>
    rw [List.flatMap_cons, ← ih]
    exact chunks_append _ _

theorem infix_of_mem_chunks (h : chunk ∈ layout.chunks) : chunk <:+: layout.text := by
  obtain ⟨part, hpart, rfl⟩ := List.mem_map.1 h
  obtain ⟨front, back, hparts⟩ := List.append_of_mem hpart
  refine ⟨front.flatMap (fun part => part.1 ++ part.2) ++ part.1,
    back.flatMap (fun part => part.1 ++ part.2) ++ layout.rest, ?_⟩
  rw [text, hparts]
  simp

/-! ## What stands in the gaps -/

/-- A property of texts that is kept when texts are joined. -/
structure KeptByAppend (P : List α → Prop) : Prop where
  nil : P []
  append : ∀ {first second}, P first → P second → P (first ++ second)

variable {P : List α → Prop}

theorem gaps_gap {text : List α} (h : P text) : ∀ g ∈ (gap text).gaps, P g := by
  intro g hg
  obtain rfl : g = text := by simpa [gap, gaps] using hg
  exact h

theorem gaps_after (hP : KeptByAppend P) (hbefore : P before) (h : ∀ g ∈ layout.gaps, P g) :
    ∀ g ∈ (layout.after before).gaps, P g := by
  obtain ⟨parts, rest⟩ := layout
  cases parts with
  | nil =>
    intro g hg
    obtain rfl : g = before ++ rest := by simpa [after, gaps] using hg
    exact hP.append hbefore (h rest (by simp [gaps]))
  | cons part parts =>
    intro g hg
    rcases List.mem_cons.1 hg with rfl | hg
    · exact hP.append hbefore (h part.1 (by simp [gaps]))
    · exact h g (List.mem_cons_of_mem _ hg)

theorem gaps_append (hP : KeptByAppend P) (hfirst : ∀ g ∈ first.gaps, P g) (hsecond : ∀ g ∈ second.gaps, P g) :
    ∀ g ∈ (first.append second).gaps, P g := by
  have hafter := gaps_after hP (hfirst first.rest (by simp [gaps])) hsecond
  intro g hg
  simp only [append, gaps, List.map_append, List.append_assoc, List.mem_append] at hg
  rcases hg with hg | hg
  · exact hfirst g (List.mem_append_left _ hg)
  · exact hafter g (List.mem_append.2 hg)

theorem gaps_concat (hP : KeptByAppend P) (h : ∀ layout ∈ layouts, ∀ g ∈ layout.gaps, P g) : ∀ g ∈ (concat layouts).gaps, P g := by
  induction layouts with
  | nil => exact gaps_gap hP.nil
  | cons layout layouts ih =>
    exact gaps_append hP (h layout List.mem_cons_self) (ih fun other hother => h other (List.mem_cons_of_mem _ hother))

end Layout

section

variable {α : Type} [DecidableEq α]

/-- `str.split` behind the first `skip` characters. -/
def splitOn (sep : List α) : ℕ → List α → List (List α)
  | _, [] => [[]]
  | skip + 1, _ :: rest => splitOn sep skip rest
  | 0, c :: rest =>
    if sep.isPrefixOf (c :: rest) then [] :: splitOn sep (sep.length - 1) rest
    else (splitOn sep 0 rest).modifyHead (c :: ·)

variable {sep text : List α}

theorem splitOn_drop (sep : List α) (skip : ℕ) (text : List α) : splitOn sep skip text = splitOn sep 0 (text.drop skip) := by
  induction text generalizing skip with
  | nil => simp [splitOn]
  | cons c text ih =>
    cases skip with
    | zero => rfl
    | succ skip => exact ih skip

theorem splitOn_ne_nil (sep : List α) (skip : ℕ) (text : List α) : splitOn sep skip text ≠ [] := by
  induction text generalizing skip with
  | nil => simp [splitOn]
  | cons c text ih =>
    cases skip with
    | zero =>
      unfold splitOn
      split
      · simp
      · simpa using ih 0
    | succ skip => exact ih skip

theorem intercalate_splitOn (hsep : sep ≠ []) (text : List α) : List.intercalate sep (splitOn sep 0 text) = text := by
  induction hlength : text.length using Nat.strong_induction_on generalizing text with
  | _ n ih =>
    subst hlength
    cases text with
    | nil => simp [splitOn]
    | cons c text =>
      unfold splitOn
      split
      next hprefix =>
        obtain ⟨rest, hrest⟩ := List.isPrefixOf_iff_prefix.1 hprefix
        obtain ⟨s, sep', rfl⟩ := List.exists_cons_of_ne_nil hsep
        obtain ⟨rfl, htext⟩ := List.cons.inj hrest
        have hdrop : text.drop ((s :: sep').length - 1) = rest := by simp [← htext]
        have hshort : rest.length < (s :: text).length := by
          simp only [← htext, List.append_eq, List.length_append, List.length_cons]
          omega
        rw [splitOn_drop, List.intercalate_cons_of_ne_nil (splitOn_ne_nil _ _ _), hdrop, ih rest.length hshort rest rfl]
        exact hrest
      next =>
        have hrest := ih text.length (by simp) text rfl
        obtain ⟨first, pieces, hpieces⟩ := List.exists_cons_of_ne_nil (splitOn_ne_nil sep 0 text)
        rw [hpieces] at hrest ⊢
        rw [List.modifyHead_cons]
        cases pieces with
        | nil =>
          rw [List.intercalate_singleton] at hrest ⊢
          rw [hrest]
        | cons second pieces =>
          rw [List.intercalate_cons_cons] at hrest ⊢
          rw [← hrest, List.cons_append, List.cons_append]

end

end Wiii
