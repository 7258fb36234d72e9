import Mathlib.Data.List.DropRight
import Mathlib.Data.String.Basic

/-!
# Text in the way of Python

The functions on text that identifiers and keys are normalised with.  Case maps send each character to some
characters; what they do outside ASCII is a parameter, so a statement over every table holds for the table that
Python has.
-/

namespace Wiii

/-- Where a case map sends the characters outside ASCII. -/
abbrev CaseTable := Char → List Char

namespace PyText

/-- `str.isspace` of one character. -/
def isSpace (c : Char) : Bool :=
  let n := c.toNat
  (9 ≤ n && n ≤ 13) || (28 ≤ n && n ≤ 32) || n == 0x85 || n == 0xa0 || n == 0x1680 || (0x2000 ≤ n && n ≤ 0x200a) ||
    n == 0x2028 || n == 0x2029 || n == 0x202f || n == 0x205f || n == 0x3000

/-- `str.strip`. -/
def strip (text : String) : String :=
  String.ofList ((text.toList.dropWhile isSpace).reverse.dropWhile isSpace).reverse

/-- `str.lower`. -/
def lower (table : CaseTable) (text : String) : String :=
  String.ofList (text.toList.flatMap fun c => if c.toNat < 128 then [c.toLower] else table c)

/-- `str.upper`. -/
def upper (table : CaseTable) (text : String) : String :=
  String.ofList (text.toList.flatMap fun c => if c.toNat < 128 then [c.toUpper] else table c)

/-- `str.replace` of one character by another. -/
def replace (old new : Char) (text : String) : String :=
  String.ofList (text.toList.map fun c => if c = old then new else c)

/-- `text[:n]`. -/
def take (n : ℕ) (text : String) : String := String.ofList (text.toList.take n)

/-- `part in text`. -/
def contains (text part : String) : Bool := text.toList.tails.any (List.isPrefixOf part.toList)

theorem take_of_length_le {n : ℕ} {text : String} (h : text.length ≤ n) : take n text = text := by
  rw [take, List.take_of_length_le (by rw [String.length_toList]; exact h), String.ofList_toList]

theorem length_strip_le (text : String) : (strip text).length ≤ text.length := by
  rw [strip, String.length_ofList, List.length_reverse, ← String.length_toList]
  refine (List.dropWhile_sublist _).length_le.trans ?_
  rw [List.length_reverse]
  exact (List.dropWhile_sublist _).length_le

theorem take_ne_empty {n : ℕ} {text : String} (hn : 0 < n) (h : text ≠ "") : take n text ≠ "" := by
  intro hnil
  have htake : text.toList.take n = [] := by simpa [take] using congrArg String.toList hnil
  rcases List.take_eq_nil_iff.1 htake with hzero | hempty
  · omega
  · exact h (String.toList_eq_nil_iff.1 hempty)

/-! ## Texts that are in normal form -/

theorem strip_of_forall {text : String} (h : ∀ c ∈ text.toList, isSpace c = false) : strip text = text := by
  have hdrop : ∀ l : List Char, (∀ c ∈ l, isSpace c = false) → l.dropWhile isSpace = l := by
    intro l hl
    cases l with
    | nil => rfl
    | cons c l => rw [List.dropWhile_cons, hl c List.mem_cons_self]; rfl
  rw [strip, hdrop _ h, hdrop _ (fun c hc => h c (List.mem_reverse.1 hc)), List.reverse_reverse, String.ofList_toList]

theorem strip_strip (text : String) : strip (strip text) = strip text := by
  have hfixed : ∀ {front l : List Char}, front <+: l → l.dropWhile isSpace = l → front.dropWhile isSpace = front := by
    rintro front l ⟨rest, rfl⟩ hl
    rw [List.dropWhile_eq_self_iff] at hl ⊢
    intro hfront
    have hhead := hl (by rw [List.length_append]; omega)
    rwa [List.getElem_append_left hfront] at hhead
  generalize hkept : (text.toList.dropWhile isSpace).reverse.dropWhile isSpace = kept
  have hprefix : kept.reverse <+: text.toList.dropWhile isSpace := by
    rw [← List.reverse_reverse (text.toList.dropWhile isSpace), ← hkept]
    exact List.reverse_prefix.2 (List.dropWhile_suffix _)
  have hback : kept.dropWhile isSpace = kept := by
    rw [← hkept]
    exact List.dropWhile_idempotent _ _
  have hstrip : strip text = String.ofList kept.reverse := by rw [strip, hkept]
  rw [hstrip, strip, String.toList_ofList, hfixed hprefix (List.dropWhile_idempotent _ _), List.reverse_reverse, hback]

theorem lower_of_forall {table : CaseTable} {text : String} (h : ∀ c ∈ text.toList, c.toNat < 128 ∧ c.toLower = c) :
    lower table text = text := by
  have hmap : ∀ l : List Char, (∀ c ∈ l, c.toNat < 128 ∧ c.toLower = c) →
      (l.flatMap fun c => if c.toNat < 128 then [c.toLower] else table c) = l := by
    intro l hl
    induction l with
    | nil => rfl
    | cons c l ih =>
      have hc := hl c List.mem_cons_self
      rw [List.flatMap_cons, if_pos hc.1, hc.2, ih fun d hd => hl d (List.mem_cons_of_mem _ hd)]
      rfl
  rw [lower, hmap _ h, String.ofList_toList]

theorem replace_of_not_mem {old new : Char} {text : String} (h : old ∉ text.toList) : replace old new text = text := by
  have hmap : text.toList.map (fun c => if c = old then new else c) = text.toList := by
    rw [List.map_congr_left (g := id), List.map_id]
    intro c hc
    exact if_neg fun heq : c = old => h (heq ▸ hc)
  rw [replace, hmap, String.ofList_toList]

/-- Lower case letters and underscores, which every normal form leaves as they are. -/
def isPlainChar (c : Char) : Bool := (97 ≤ c.toNat && c.toNat ≤ 122) || c.toNat == 95

theorem isSpace_of_plain {c : Char} (h : isPlainChar c = true) : isSpace c = false := by
  simp only [isPlainChar, isSpace, Bool.or_eq_true, Bool.and_eq_true, decide_eq_true_eq, beq_iff_eq] at h ⊢
  simp
  omega

theorem toNat_lt_of_plain {c : Char} (h : isPlainChar c = true) : c.toNat < 128 := by
  simp only [isPlainChar, Bool.or_eq_true, Bool.and_eq_true, decide_eq_true_eq, beq_iff_eq] at h
  omega

theorem toLower_of_plain {c : Char} (h : isPlainChar c = true) : c.toLower = c := by
  simp only [isPlainChar, Bool.or_eq_true, Bool.and_eq_true, decide_eq_true_eq, beq_iff_eq] at h
  unfold Char.toLower
  split
  next hup =>
    have hle := UInt32.le_iff_toNat_le.1 hup.2
    have hge := UInt32.le_iff_toNat_le.1 hup.1
    rw [Char.toNat_val] at hle
    change c.toNat ≤ 90 at hle
    omega
  next => rfl

end PyText

end Wiii
