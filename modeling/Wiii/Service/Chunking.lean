import Mathlib
import Wiii.Lib.Layout
import Wiii.Lib.PyText

/-!
# Splitting a text into chunks

A text is split on the first separator that it has, a long piece on the separators behind that one, and then the splits
are merged while they are short enough.  The merge does not count the separator that it puts between two texts, and it
joins what deeper splits left, so chunks may be too long and may hold what the text does not.
-/

namespace Wiii.Service

open PyText (isSpace)

/-- `separators` of a splitter that is given none. -/
def defaultSeparators : List (List Char) :=
  [['\n', '\n'], ['\n'], ['.', ' '], ['!', ' '], ['?', ' '], [';', ' '], [',', ' '], [' '], []]

def separatorSplits (sep text : List Char) : List (List Char) := if sep = [] then [text] else splitOn sep 0 text

/-- The merge of splits into chunks, behind `current_chunk`. -/
def mergeSplits (size : ℕ) (sep : List Char) : List Char → List (List Char) → List (List Char)
  | current, [] => if current = [] then [] else [current]
  | current, split :: splits =>
    if current.length + split.length ≤ size then
      mergeSplits size sep (if current = [] then split else current ++ sep ++ split) splits
    else (if current = [] then [] else [current]) ++ mergeSplits size sep split splits

/-- `split_text`.  The best separator is the first one that the text has, or the last one. -/
def splitText (size : ℕ) : List (List Char) → List Char → List (List Char)
  | [], _ => []
  | sep :: later, text =>
    if text = [] then []
    else if later = [] ∨ sep <:+: text then
      mergeSplits size sep [] ((separatorSplits sep text).flatMap fun split =>
        if split.length < size then [split]
        else if later = [] then [split.take size, split.drop size]
        else splitText size later split)
    else splitText size later text

/-- What a `ChunkResult` keeps of a chunk. -/
structure ChunkResult where
  chunkIndex : ℕ
  content : List Char
  deriving DecidableEq

def stripped (text : List Char) : List Char := (PyText.strip (String.ofList text)).toList

/-- One raw chunk of a page: a very small one is merged with the chunk before it. -/
def addChunk (minimum : ℕ) (processed : List ChunkResult) (raw : List Char) : List ChunkResult :=
  let chunk := stripped raw
  if chunk = [] then processed
  else
    match processed.getLast? with
    | none => processed ++ [⟨processed.length, chunk⟩]
    | some prev =>
      if chunk.length < minimum then processed.dropLast ++ [{ prev with content := prev.content ++ ['\n'] ++ chunk }]
      else processed ++ [⟨processed.length, chunk⟩]

/-- `chunk_page_content`. -/
def chunkPageContent (size minimum : ℕ) (text : List Char) : List ChunkResult :=
  if stripped text = [] then []
  else (splitText size defaultSeparators text).foldl (addChunk minimum) []

/-! ## Where the chunks come from -/

/-- The merge, with the text that stands before each split and behind the last. -/
def mergeLayout (size : ℕ) (sep : List Char) : List Char → List Char → List (List Char × List Char) → List Char → Layout Char
  | before, current, [], rest => if current = [] then .gap (before ++ rest) else ⟨[(before, current)], rest⟩
  | before, current, (gap, split) :: parts, rest =>
    if current = [] then mergeLayout size sep (before ++ gap) split parts rest
    else if current.length + split.length ≤ size then mergeLayout size sep before (current ++ sep ++ split) parts rest
    else .append ⟨[(before, current)], []⟩ (mergeLayout size sep gap split parts rest)

def splitParts (size : ℕ) (later : List (List Char)) (deeper : List Char → Layout Char) (split : List Char) : Layout Char :=
  if split.length < size then ⟨[([], split)], []⟩
  else if later = [] then ⟨[([], split.take size), ([], split.drop size)], []⟩
  else deeper split

/-- The good splits of a text, with the separators between them. -/
def goodLayout (size : ℕ) (sep : List Char) (later : List (List Char)) (deeper : List Char → Layout Char)
    (text : List Char) : Layout Char :=
  .concat (((separatorSplits sep text).map (splitParts size later deeper)).intersperse (.gap sep))

/-- `split_text`, with the text between the chunks. -/
def splitLayout (size : ℕ) : List (List Char) → List Char → Layout Char
  | [], text => .gap text
  | sep :: later, text =>
    if text = [] then .gap []
    else if later = [] ∨ sep <:+: text then
      let good := goodLayout size sep later (splitLayout size later) text
      mergeLayout size sep [] [] good.parts good.rest
    else splitLayout size later text

inductive SplitEvent where
  /-- A split is put behind a separator and the current chunk. -/
  | join (sep current : List Char) (part : List Char × List Char)
  /-- A split without further separators is cut in two. -/
  | cut (split : List Char)
  deriving DecidableEq

def mergeEvents (size : ℕ) (sep : List Char) : List Char → List (List Char × List Char) → List SplitEvent
  | _, [] => []
  | current, part :: parts =>
    if current.length + part.2.length ≤ size then
      if current = [] then mergeEvents size sep part.2 parts
      else .join sep current part :: mergeEvents size sep (current ++ sep ++ part.2) parts
    else mergeEvents size sep part.2 parts

/-- The joins and cuts of `split_text`. -/
def splitEvents (size : ℕ) : List (List Char) → List Char → List SplitEvent
  | [], _ => []
  | sep :: later, text =>
    if text = [] then []
    else if later = [] ∨ sep <:+: text then
      (separatorSplits sep text).flatMap (fun split =>
        if split.length < size then []
        else if later = [] then [.cut split]
        else splitEvents size later split) ++
      mergeEvents size sep [] (goodLayout size sep later (splitLayout size later) text).parts
    else splitEvents size later text

def SplitEvent.Fits (size : ℕ) : SplitEvent → Prop
  | .join sep current part => current.length + sep.length + part.2.length ≤ size
  | .cut split => split.length ≤ 2 * size

/-- The separator is what stands in the text there. -/
def SplitEvent.Kept : SplitEvent → Prop
  | .join sep _ part => part.1 = sep
  | .cut _ => True

instance (size : ℕ) (event : SplitEvent) : Decidable (event.Fits size) :=
  match event with
  | .join _ _ _ => inferInstanceAs (Decidable (_ ≤ _))
  | .cut _ => inferInstanceAs (Decidable (_ ≤ _))

instance (event : SplitEvent) : Decidable event.Kept :=
  match event with
  | .join _ _ _ => inferInstanceAs (Decidable (_ = _))
  | .cut _ => .isTrue trivial

variable {size : ℕ} {sep before current rest text chunk : List Char} {later separators : List (List Char)}
  {parts : List (List Char × List Char)} {deeper : List Char → Layout Char}

/-! ## The layout is that of the chunks -/

theorem intercalate_separatorSplits (sep text : List Char) : List.intercalate sep (separatorSplits sep text) = text := by
  unfold separatorSplits
  split
  · rw [List.intercalate_singleton]
  next hsep => exact intercalate_splitOn hsep text

theorem chunks_mergeLayout (before current : List Char) (parts : List (List Char × List Char)) (rest : List Char) :
    (mergeLayout size sep before current parts rest).chunks = mergeSplits size sep current (parts.map Prod.snd) := by
  induction parts generalizing before current with
  | nil =>
    rw [List.map_nil, mergeLayout, mergeSplits]
    split <;> rfl
  | cons part parts ih =>
    obtain ⟨gap, split⟩ := part
    rw [List.map_cons]
    unfold mergeLayout mergeSplits
    by_cases hcurrent : current = []
    · subst hcurrent
      rw [if_pos rfl, ih]
      simp
    · rw [if_neg hcurrent, if_neg hcurrent, if_neg hcurrent]
      split
      · exact ih _ _
      · rw [Layout.chunks_append, ih]
        rfl

theorem chunks_intersperse (layouts : List (Layout Char)) :
    (layouts.intersperse (.gap sep)).flatMap Layout.chunks = layouts.flatMap Layout.chunks := by
  induction layouts with
  | nil => rfl
  | cons layout layouts ih =>
    cases layouts with
    | nil => rfl
    | cons second layouts =>
      rw [List.intersperse_cons_cons, List.flatMap_cons, List.flatMap_cons, ih]
      rfl

theorem text_intersperse (layouts : List (Layout Char)) :
    (Layout.concat (layouts.intersperse (.gap sep))).text = List.intercalate sep (layouts.map Layout.text) := by
  induction layouts with
  | nil => rfl
  | cons layout layouts ih =>
    cases layouts with
    | nil => simp [Layout.text_concat]
    | cons second layouts =>
      rw [Layout.text_concat] at ih ⊢
      rw [List.intersperse_cons_cons, List.map_cons, List.map_cons, List.map_cons, List.map_cons, List.intercalate_cons_cons,
        List.flatten_cons, List.flatten_cons, ih, Layout.text_gap, List.append_assoc, List.map_cons]

theorem chunks_goodLayout (size : ℕ) (sep : List Char) (later : List (List Char)) (deeper : List Char → Layout Char)
    (text : List Char) : (goodLayout size sep later deeper text).chunks =
      (separatorSplits sep text).flatMap fun split => (splitParts size later deeper split).chunks := by
  rw [goodLayout, Layout.chunks_concat, chunks_intersperse, List.flatMap_map]

theorem chunks_splitLayout (separators : List (List Char)) (text : List Char) :
    (splitLayout size separators text).chunks = splitText size separators text := by
  induction separators generalizing text with
  | nil => rfl
  | cons sep later ih =>
    unfold splitLayout splitText
    split
    · rfl
    split
    · dsimp only
      rw [chunks_mergeLayout, ← Layout.chunks, chunks_goodLayout]
      refine congrArg _ (List.flatMap_congr fun split _ => ?_)
      unfold splitParts
      split
      · rfl
      split
      · rfl
      · exact ih split
    · exact ih text

/-! ## The lengths of the chunks -/

theorem mergeSplits_le_iff (current : List Char) (parts : List (List Char × List Char)) :
    (∀ chunk ∈ mergeSplits size sep current (parts.map Prod.snd), chunk.length ≤ size) ↔
      current.length ≤ size ∧ (∀ part ∈ parts, part.2.length ≤ size) ∧
        ∀ event ∈ mergeEvents size sep current parts, event.Fits size := by
  induction parts generalizing current with
  | nil =>
    rw [List.map_nil, mergeSplits, mergeEvents]
    by_cases hcurrent : current = []
    · subst hcurrent
      simp
    · simp [hcurrent]
  | cons part parts ih =>
    rw [List.map_cons, List.forall_mem_cons]
    unfold mergeSplits mergeEvents
    by_cases hfits : current.length + part.2.length ≤ size
    · rw [if_pos hfits, if_pos hfits, ih]
      have hcurrent : current.length ≤ size := by omega
      have hpart : part.2.length ≤ size := by omega
      by_cases hnil : current = []
      · rw [if_pos hnil, if_pos hnil]
        simp only [hcurrent, hpart, true_and]
      · rw [if_neg hnil, if_neg hnil, List.forall_mem_cons]
        have hevent : (SplitEvent.join sep current part).Fits size ↔ (current ++ sep ++ part.2).length ≤ size := by
          rw [List.length_append, List.length_append]
          rfl
        rw [hevent]
        simp only [hcurrent, hpart, true_and]
        constructor
        · rintro ⟨hjoin, hparts, hevents⟩
          exact ⟨hparts, hjoin, hevents⟩
        · rintro ⟨hparts, hjoin, hevents⟩
          exact ⟨hjoin, hparts, hevents⟩
    · rw [if_neg hfits, if_neg hfits]
      by_cases hnil : current = []
      · subst hnil
        rw [if_pos rfl, List.nil_append, ih]
        simp [and_assoc]
      · rw [if_neg hnil, List.singleton_append, List.forall_mem_cons, ih, and_assoc]

theorem splitText_le_iff (size : ℕ) (separators : List (List Char)) (text : List Char) :
    (∀ chunk ∈ splitText size separators text, chunk.length ≤ size) ↔
      ∀ event ∈ splitEvents size separators text, event.Fits size := by
  induction separators generalizing text with
  | nil => simp [splitText, splitEvents]
  | cons sep later ih =>
    rw [← chunks_splitLayout]
    unfold splitLayout splitEvents
    split
    · simp
    split
    · dsimp only
      rw [chunks_mergeLayout, mergeSplits_le_iff, List.forall_mem_append, List.forall_mem_flatMap]
      have hparts : (∀ part ∈ (goodLayout size sep later (splitLayout size later) text).parts, part.2.length ≤ size) ↔
          ∀ split ∈ separatorSplits sep text, ∀ event ∈ (if split.length < size then []
            else if later = [] then [SplitEvent.cut split] else splitEvents size later split), event.Fits size := by
        rw [← List.forall_mem_map (P := fun chunk : List Char => chunk.length ≤ size), ← Layout.chunks, chunks_goodLayout,
          List.forall_mem_flatMap]
        refine forall₂_congr fun split _ => ?_
        unfold splitParts
        split
        next hshort => simpa [Layout.chunks] using hshort.le
        split
        next hlong _ =>
          have htake : min size split.length = size := by omega
          simp [Layout.chunks, SplitEvent.Fits]
          omega
        · rw [chunks_splitLayout]
          exact ih split
      rw [hparts]
      simp
    · rw [chunks_splitLayout]
      exact ih text

/-! ## The chunks of a page -/

/-- The raw chunks that are not blank, without the white space around them. -/
def contentsOf (raws : List (List Char)) : List (List Char) := (raws.map stripped).filter (· ≠ [])

def mergedLength (length : ℕ) (small : List (List Char)) : ℕ := length + (small.map fun chunk => chunk.length + 1).sum

/-- A chunk is short enough together with any small chunks that follow it. -/
def RunsFit (bound minimum : ℕ) (contents : List (List Char)) : Prop :=
  ∀ before first small after, contents = before ++ first :: (small ++ after) → (∀ chunk ∈ small, chunk.length < minimum) →
    mergedLength first.length small ≤ bound

theorem runsFit_cons_iff {bound minimum : ℕ} {first : List Char} {contents : List (List Char)} :
    RunsFit bound minimum (first :: contents) ↔
      (∀ small after, contents = small ++ after → (∀ chunk ∈ small, chunk.length < minimum) →
        mergedLength first.length small ≤ bound) ∧ RunsFit bound minimum contents := by
  constructor
  · intro h
    refine ⟨fun small after hcontents hsmall => ?_, fun before next small after hcontents hsmall => ?_⟩
    · exact h [] first small after (by rw [hcontents, List.nil_append]) hsmall
    · exact h (first :: before) next small after (by rw [hcontents, List.cons_append]) hsmall
  · rintro ⟨hfirst, hrest⟩ before next small after hcontents hsmall
    rcases before with - | ⟨head, before⟩
    · rw [List.nil_append] at hcontents
      obtain ⟨rfl, htail⟩ := List.cons.inj hcontents
      exact hfirst small after htail hsmall
    · exact hrest before next small after (List.cons.inj hcontents).2 hsmall

theorem contentsOf_cons (raw : List Char) (raws : List (List Char)) : contentsOf (raw :: raws) =
    if stripped raw = [] then contentsOf raws else stripped raw :: contentsOf raws := by
  unfold contentsOf
  rw [List.map_cons, List.filter_cons]
  by_cases hblank : stripped raw = [] <;> simp [hblank]

theorem addChunk_snoc (minimum : ℕ) (processed : List ChunkResult) (last : ChunkResult) (raw : List Char) :
    addChunk minimum (processed ++ [last]) raw =
      if stripped raw = [] then processed ++ [last]
      else if (stripped raw).length < minimum then
        processed ++ [{ last with content := last.content ++ ['\n'] ++ stripped raw }]
      else processed ++ [last] ++ [⟨processed.length + 1, stripped raw⟩] := by
  unfold addChunk
  simp

theorem mergedLength_cons (length : ℕ) (chunk : List Char) (small : List (List Char)) :
    mergedLength length (chunk :: small) = mergedLength (length + 1 + chunk.length) small := by
  simp only [mergedLength, List.map_cons, List.sum_cons]
  omega

theorem foldl_addChunk_le_iff {bound minimum : ℕ} (processed : List ChunkResult) (last : ChunkResult)
    (raws : List (List Char)) :
    (∀ result ∈ raws.foldl (addChunk minimum) (processed ++ [last]), result.content.length ≤ bound) ↔
      (∀ result ∈ processed, result.content.length ≤ bound) ∧
        (∀ small after, contentsOf raws = small ++ after → (∀ chunk ∈ small, chunk.length < minimum) →
          mergedLength last.content.length small ≤ bound) ∧ RunsFit bound minimum (contentsOf raws) := by
  induction raws generalizing processed last with
  | nil =>
    rw [List.foldl_nil, List.forall_mem_append, List.forall_mem_singleton]
    refine and_congr_right fun _ => ⟨fun hlast => ⟨?_, ?_⟩, fun h => h.1 [] [] rfl nofun⟩
    · intro small after hcontents _
      obtain ⟨rfl, -⟩ := List.append_eq_nil_iff.1 hcontents.symm
      exact hlast
    · intro before first small after hcontents
      simp [contentsOf] at hcontents
  | cons raw raws ih =>
    rw [List.foldl_cons, addChunk_snoc, contentsOf_cons]
    by_cases hblank : stripped raw = []
    · rw [if_pos hblank, if_pos hblank]
      exact ih processed last
    rw [if_neg hblank, if_neg hblank, runsFit_cons_iff]
    by_cases hsmall : (stripped raw).length < minimum
    · rw [if_pos hsmall, ih]
      have hlength : (last.content ++ ['\n'] ++ stripped raw).length = last.content.length + 1 + (stripped raw).length := by
        rw [List.length_append, List.length_append, List.length_singleton]
      dsimp only
      rw [hlength]
      refine and_congr_right fun _ => ⟨?_, ?_⟩
      · rintro ⟨hmerged, hruns⟩
        refine ⟨fun small after hcontents hall => ?_, fun small after hcontents hall => ?_, hruns⟩
        · rcases small with - | ⟨chunk, small⟩
          · have hnone := hmerged [] (contentsOf raws) rfl nofun
            simp only [mergedLength, List.map_nil, List.sum_nil] at hnone ⊢
            omega
          · obtain ⟨rfl, htail⟩ := List.cons.inj hcontents
            rw [mergedLength_cons]
            exact hmerged small after htail fun chunk hchunk => hall chunk (List.mem_cons_of_mem _ hchunk)
        · have hsum := hmerged small after hcontents hall
          simp only [mergedLength] at hsum ⊢
          omega
      · rintro ⟨hmerged, -, hruns⟩
        refine ⟨fun small after hcontents hall => ?_, hruns⟩
        rw [← mergedLength_cons]
        exact hmerged (stripped raw :: small) after (by rw [hcontents, List.cons_append])
          (List.forall_mem_cons.2 ⟨hsmall, hall⟩)
    · rw [if_neg hsmall, ih, List.forall_mem_append, List.forall_mem_singleton, and_assoc]
      dsimp only
      refine and_congr_right fun _ => ⟨?_, ?_⟩
      · rintro ⟨hlast, hmerged, hruns⟩
        refine ⟨fun small after hcontents hall => ?_, hmerged, hruns⟩
        rcases small with - | ⟨chunk, small⟩
        · exact hlast
        · obtain ⟨rfl, -⟩ := List.cons.inj hcontents
          exact absurd (hall _ List.mem_cons_self) hsmall
      · rintro ⟨hmerged, hruns⟩
        exact ⟨hmerged [] _ rfl nofun, hruns⟩

theorem foldl_addChunk_nil_le_iff {bound minimum : ℕ} (raws : List (List Char)) :
    (∀ result ∈ raws.foldl (addChunk minimum) [], result.content.length ≤ bound) ↔
      RunsFit bound minimum (contentsOf raws) := by
  induction raws with
  | nil =>
    refine iff_of_true nofun ?_
    intro before first small after hcontents
    simp [contentsOf] at hcontents
  | cons raw raws ih =>
    rw [List.foldl_cons, contentsOf_cons]
    by_cases hblank : stripped raw = []
    · have hsame : addChunk minimum [] raw = [] := by simp [addChunk, hblank]
      rw [hsame, if_pos hblank]
      exact ih
    · have hnew : addChunk minimum [] raw = [] ++ [⟨0, stripped raw⟩] := by simp [addChunk, hblank]
      rw [hnew, if_neg hblank, foldl_addChunk_le_iff, runsFit_cons_iff]
      simp

def SeparatorRun (separators : List (List Char)) (text : List Char) : Prop :=
  ∃ run : List (List Char), (∀ sep ∈ run, sep ∈ separators) ∧ run.flatten = text

/-- The chunks stand in the text one behind the other, and what is not in them are separators. -/
def Tiles (separators : List (List Char)) (text : List Char) (chunks : List (List Char)) : Prop :=
  ∃ layout : Layout Char, layout.text = text ∧ layout.chunks = chunks ∧ ∀ gap ∈ layout.gaps, SeparatorRun separators gap

theorem separatorRun_kept (separators : List (List Char)) : Layout.KeptByAppend (SeparatorRun separators) where
  nil := ⟨[], nofun, rfl⟩
  append := by
    rintro first second ⟨run, hrun, rfl⟩ ⟨run', hrun', rfl⟩
    exact ⟨run ++ run', List.forall_mem_append.2 ⟨hrun, hrun'⟩, List.flatten_append⟩

theorem separatorRun_singleton (h : sep ∈ separators) : SeparatorRun separators sep :=
  ⟨[sep], List.forall_mem_singleton.2 h, by simp⟩

theorem text_mergeLayout (hkept : ∀ event ∈ mergeEvents size sep current parts, event.Kept) :
    (mergeLayout size sep before current parts rest).text = before ++ current ++ Layout.text ⟨parts, rest⟩ := by
  induction parts generalizing before current with
  | nil =>
    rw [mergeLayout]
    by_cases hcurrent : current = [] <;> simp [hcurrent, Layout.text, Layout.gap]
  | cons part parts ih =>
    obtain ⟨gap, split⟩ := part
    have htext : Layout.text ⟨(gap, split) :: parts, rest⟩ = gap ++ split ++ Layout.text ⟨parts, rest⟩ := by
      simp [Layout.text]
    unfold mergeEvents at hkept
    unfold mergeLayout
    by_cases hcurrent : current = []
    · subst hcurrent
      have hnext : ∀ event ∈ mergeEvents size sep split parts, event.Kept := by
        intro event hevent
        apply hkept
        dsimp only
        split <;> simpa using hevent
      rw [if_pos rfl, ih hnext, htext]
      simp
    · rw [if_neg hcurrent] at hkept ⊢
      split
      next hfits =>
        rw [if_pos hfits, List.forall_mem_cons] at hkept
        obtain ⟨hgap, hnext⟩ := hkept
        obtain rfl : gap = sep := hgap
        rw [ih hnext, htext]
        simp
      next hlong =>
        rw [if_neg hlong] at hkept
        rw [Layout.text_append, ih hkept, htext]
        simp [Layout.text]

theorem gaps_mergeLayout (hbefore : SeparatorRun separators before)
    (hgaps : ∀ gap ∈ Layout.gaps ⟨parts, rest⟩, SeparatorRun separators gap) :
    ∀ gap ∈ (mergeLayout size sep before current parts rest).gaps, SeparatorRun separators gap := by
  have hjoined := separatorRun_kept separators
  induction parts generalizing before current with
  | nil =>
    have hrest : SeparatorRun separators rest := hgaps rest (by simp [Layout.gaps])
    rw [mergeLayout]
    split
    · exact Layout.gaps_gap (hjoined.append hbefore hrest)
    · intro gap hgap
      simp only [Layout.gaps, List.map_cons, List.map_nil, List.singleton_append, List.mem_cons, List.not_mem_nil,
        or_false] at hgap
      rcases hgap with rfl | rfl
      · exact hbefore
      · exact hrest
  | cons part parts ih =>
    obtain ⟨gap, split⟩ := part
    have hgap : SeparatorRun separators gap := hgaps gap (by simp [Layout.gaps])
    have hparts : ∀ gap ∈ Layout.gaps ⟨parts, rest⟩, SeparatorRun separators gap :=
      fun gap hmem => hgaps gap (List.mem_cons_of_mem _ hmem)
    unfold mergeLayout
    split
    · exact ih (hjoined.append hbefore hgap) hparts
    split
    · exact ih hbefore hparts
    · refine Layout.gaps_append hjoined ?_ (ih hgap hparts)
      intro gap hmem
      simp only [Layout.gaps, List.map_cons, List.map_nil, List.singleton_append, List.mem_cons, List.not_mem_nil,
        or_false] at hmem
      rcases hmem with rfl | rfl
      · exact hbefore
      · exact hjoined.nil

theorem mem_intersperse {α : Type} {a b : α} {l : List α} (h : a ∈ l.intersperse b) : a = b ∨ a ∈ l := by
  induction l with
  | nil => cases h
  | cons c l ih =>
    cases l with
    | nil => exact Or.inr h
    | cons d l =>
      rw [List.intersperse_cons_cons, List.mem_cons, List.mem_cons] at h
      rcases h with rfl | rfl | h
      · exact Or.inr List.mem_cons_self
      · exact Or.inl rfl
      · exact (ih h).imp_right (List.mem_cons_of_mem _)

theorem gaps_goodLayout (hsep : sep ∈ separators)
    (hdeeper : later ≠ [] → ∀ split, ∀ gap ∈ (deeper split).gaps, SeparatorRun separators gap) :
    ∀ gap ∈ (goodLayout size sep later deeper text).gaps, SeparatorRun separators gap := by
  have hjoined := separatorRun_kept separators
  refine Layout.gaps_concat hjoined fun layout hlayout => ?_
  rcases mem_intersperse hlayout with rfl | hmem
  · exact Layout.gaps_gap (separatorRun_singleton hsep)
  · obtain ⟨split, -, rfl⟩ := List.mem_map.1 hmem
    unfold splitParts
    split
    · simpa [Layout.gaps] using hjoined.nil
    split
    · simpa [Layout.gaps] using hjoined.nil
    next hlater => exact hdeeper hlater split

theorem gaps_splitLayout (hne : later ≠ []) (hmem : ∀ sep ∈ later, sep ∈ separators) (text : List Char) :
    ∀ gap ∈ (splitLayout size later text).gaps, SeparatorRun separators gap := by
  have hjoined := separatorRun_kept separators
  induction later generalizing text with
  | nil => exact absurd rfl hne
  | cons sep later ih =>
    obtain ⟨hsep, hlater⟩ := List.forall_mem_cons.1 hmem
    unfold splitLayout
    split
    · exact Layout.gaps_gap hjoined.nil
    split
    · exact gaps_mergeLayout hjoined.nil (gaps_goodLayout hsep fun hne => ih hne hlater)
    next hskip => exact ih (fun hnil => hskip (Or.inl hnil)) hlater text

theorem text_goodLayout
    (hdeeper : ∀ split ∈ separatorSplits sep text, size ≤ split.length → later ≠ [] → (deeper split).text = split) :
    (goodLayout size sep later deeper text).text = text := by
  rw [goodLayout, text_intersperse, List.map_map]
  have hsplits : (separatorSplits sep text).map (Layout.text ∘ splitParts size later deeper) =
      (separatorSplits sep text).map id := by
    refine List.map_congr_left fun split hsplit => ?_
    unfold splitParts
    rw [Function.comp_apply]
    split
    · simp [Layout.text]
    split
    · simp [Layout.text]
    next hlong hlater => exact hdeeper split hsplit (by omega) hlater
  rw [hsplits, List.map_id, intercalate_separatorSplits]

theorem text_splitLayout (hkept : ∀ event ∈ splitEvents size later text, event.Kept) :
    (splitLayout size later text).text = text := by
  induction later generalizing text with
  | nil => rfl
  | cons sep later ih =>
    unfold splitEvents at hkept
    unfold splitLayout
    split
    next hnil => exact hnil.symm
    next hne =>
    rw [if_neg hne] at hkept
    split
    next hfound =>
      rw [if_pos hfound, List.forall_mem_append, List.forall_mem_flatMap] at hkept
      obtain ⟨hdeeper, hmerge⟩ := hkept
      have hgood : (goodLayout size sep later (splitLayout size later) text).text = text := by
        refine text_goodLayout fun split hsplit hlong hlater => ih ?_
        have hsplit := hdeeper split hsplit
        rwa [if_neg (by omega), if_neg hlater] at hsplit
      dsimp only
      rw [text_mergeLayout hmerge]
      exact hgood
    next hskip =>
      rw [if_neg hskip] at hkept
      exact ih hkept

end Wiii.Service
