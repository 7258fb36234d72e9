import Mathlib.Data.List.Forall2
import Wiii.Guardrails.Composition
import Wiii.Lib.Redaction

/-!
# Redaction of the arguments of a tool call

`StringRedactionGuardrail` replaces what matches one of its patterns, without regard to case, in the arguments that are
strings.  It looks for matches in the lower-case text and cuts the original text at the same positions (`Plain`).
-/

namespace Wiii.Guardrails

open Service (Payload PyValue)
open Redaction (Apart Redacted)

/-! ## Strings -/

/-- What the Unicode database says of single characters. -/
structure CaseTables where
  lower : Char → Char
  cased : Char → Bool
  caseIgnorable : Char → Bool

namespace CaseTables

variable (tables : CaseTables)

/-- A sigma at the end of a word; `before` is reversed. -/
def isFinalSigma (before after : List Char) : Bool :=
  (before.dropWhile tables.caseIgnorable).head?.any tables.cased &&
    !(after.dropWhile tables.caseIgnorable).head?.any tables.cased

def lowerFrom : List Char → List Char → List Char
  | _, [] => []
  | before, c :: rest =>
    (if c = 'İ' then ['i', '\u0307']
      else if c = 'Σ' then [if tables.isFinalSigma before rest then 'ς' else 'σ']
      else [tables.lower c]) ++ lowerFrom (c :: before) rest

/-- `str.lower`. -/
def toLower (text : String) : List Char := tables.lowerFrom [] text.toList

/-- `pattern.lower() in text.lower()` -/
def Contains (text pattern : String) : Prop := tables.toLower pattern <:+: tables.toLower text

instance (text pattern : String) : Decidable (tables.Contains text pattern) := inferInstanceAs (Decidable (_ <:+: _))

end CaseTables

/-- No character whose lower case is longer, or depends on where it stands. -/
def Plain (text : String) : Prop := ∀ c ∈ text.toList, c ≠ 'İ' ∧ c ≠ 'Σ'

instance (text : String) : Decidable (Plain text) := List.decidableBAll (fun c => c ≠ 'İ' ∧ c ≠ 'Σ') text.toList

/-- `haystack.find(needle, start)` -/
def find (needle haystack : List Char) (start : ℕ) : Option ℕ :=
  (List.range' start (haystack.length + 1 - start)).find? fun i => needle.isPrefixOf (haystack.drop i)

theorem find_le {needle haystack : List Char} {start idx : ℕ} (h : find needle haystack start = some idx) :
    start ≤ idx :=
  (List.mem_range'_1.1 (List.mem_of_find?_eq_some h)).1

/-! ## The guardrail -/

structure StringRedactionGuardrail where
  patterns : List String
  replacement : String := "[REDACTED]"

namespace StringRedactionGuardrail

/-- The loop of `_case_insensitive_replace`. -/
def replaceFrom (haystack haystackLower needleLower replacement : List Char) (cursor : ℕ) : List Char :=
  if _h : cursor < haystack.length ∧ needleLower ≠ [] then
    match _hfind : find needleLower haystackLower cursor with
    | none => haystack.drop cursor
    | some idx =>
      (haystack.take idx).drop cursor ++ replacement ++
        replaceFrom haystack haystackLower needleLower replacement (idx + needleLower.length)
  else []
termination_by haystack.length - cursor
decreasing_by
  have hidx := find_le _hfind
  have hpos := List.length_pos_iff.2 _h.2
  omega

variable (tables : CaseTables)

def caseInsensitiveReplace (haystack needle replacement : String) : String :=
  if tables.toLower needle = [] then haystack
  else
    String.ofList
      (replaceFrom haystack.toList (tables.toLower haystack) (tables.toLower needle) replacement.toList 0)

variable (guardrail : StringRedactionGuardrail)

/-- `[p for p in patterns if p]` -/
def used : List String := guardrail.patterns.filter fun p => decide (p ≠ "")

/-- The text after one more pattern, and whether something was replaced. -/
def redactOne (redacted : String × Bool) (pattern : String) : String × Bool :=
  if tables.Contains redacted.1 pattern then
    (caseInsensitiveReplace tables redacted.1 pattern guardrail.replacement, true)
  else redacted

def redact (value : String) : String × Bool := guardrail.used.foldl (guardrail.redactOne tables) (value, false)

/-- An argument, and whether it was modified. -/
def redactArgument : String × PyValue → (String × PyValue) × Bool
  | (key, .str value) => ((key, .str (guardrail.redact tables value).1), (guardrail.redact tables value).2)
  | argument => (argument, false)

def check (call : ToolCall) : GuardrailResult :=
  if guardrail.used = [] then { decision := .allow, toolCall := call }
  else
    let redacted := call.arguments.map (guardrail.redactArgument tables)
    if redacted.any Prod.snd then
      { decision := .modify
        toolCall := { call with arguments := redacted.map Prod.fst }
        reason := some "redacted matching substrings"
        metadata := [("guardrail", .str "StringRedactionGuardrail")] }
    else { decision := .allow, toolCall := call }

end StringRedactionGuardrail

/-! ## Texts whose lower case is a map -/

namespace CaseTables

variable {tables : CaseTables} {text : String}

theorem lowerFrom_of_plain {before text : List Char} (h : ∀ c ∈ text, c ≠ 'İ' ∧ c ≠ 'Σ') :
    tables.lowerFrom before text = text.map tables.lower := by
  induction text generalizing before with
  | nil => rfl
  | cons c rest ih =>
    rw [List.forall_mem_cons] at h
    rw [lowerFrom, if_neg h.1.1, if_neg h.1.2, ih h.2]
    rfl

theorem toLower_of_plain (h : Plain text) : tables.toLower text = text.toList.map tables.lower :=
  lowerFrom_of_plain h

theorem toLower_ne_nil (h : text ≠ "") : tables.toLower text ≠ [] := by
  cases htext : text.toList with
  | nil => exact absurd (String.toList_eq_nil_iff.1 htext) h
  | cons c rest =>
    rw [toLower, htext, lowerFrom]
    refine List.append_ne_nil_of_left_ne_nil ?_ _
    split
    · exact List.cons_ne_nil _ _
    · split <;> exact List.cons_ne_nil _ _

end CaseTables

namespace StringRedactionGuardrail

theorem find_eq_some {needle haystack : List Char} {start idx : ℕ} (h : find needle haystack start = some idx) :
    needle <+: haystack.drop idx ∧ ∀ j, start ≤ j → j < idx → ¬ needle <+: haystack.drop j := by
  rw [find, List.find?_range'_eq_some] at h
  refine ⟨List.isPrefixOf_iff_prefix.1 h.1, fun j hstart hj hmatch => ?_⟩
  have hnot := h.2.2 j hstart hj
  rw [List.isPrefixOf_iff_prefix.2 hmatch] at hnot
  cases hnot

theorem absent_of_find {needle haystack : List Char} {start : ℕ} (hstart : start ≤ haystack.length)
    (h : find needle haystack start = none) : ¬ needle <:+: haystack.drop start := by
  rw [find, List.find?_range'_eq_none] at h
  rintro ⟨before, after, heq⟩
  have hlength := congrArg List.length heq
  simp only [List.length_append, List.length_drop] at hlength
  have hmatch : needle <+: haystack.drop (start + before.length) := by
    refine ⟨after, ?_⟩
    rw [← List.drop_drop, ← heq, List.append_assoc, List.drop_left]
  have hnot := h (start + before.length) (Nat.le_add_right _ _) (by omega)
  rw [List.isPrefixOf_iff_prefix.2 hmatch] at hnot
  cases hnot

/-- Where lower case is a map, the positions in the lower-case text are those in the text. -/
theorem replaceFrom_eq {f : Char → Char} {needle : List Char} (hne : needle ≠ []) (haystack replacement : List Char)
    (cursor : ℕ) : replaceFrom haystack (haystack.map f) needle replacement cursor =
      Redaction.replaceAll f needle replacement (haystack.drop cursor) := by
  induction hlength : haystack.length - cursor using Nat.strong_induction_on generalizing cursor with
  | _ n ih =>
    rw [replaceFrom]
    by_cases hcursor : cursor < haystack.length
    · rw [dif_pos ⟨hcursor, hne⟩]
      split
      · rename_i hfind
        have hnot := absent_of_find (by rw [List.length_map]; omega) hfind
        rw [← List.map_drop] at hnot
        exact (Redaction.replaceAll_of_absent hnot).symm
      · rename_i idx hfind
        have hle := find_le hfind
        have hpos := List.length_pos_iff.2 hne
        obtain ⟨hstart, hfirst⟩ := find_eq_some hfind
        have hk : needle <+: ((haystack.drop cursor).map f).drop (idx - cursor) := by
          rwa [List.map_drop, List.drop_drop, Nat.add_sub_cancel' hle]
        have hbefore : ∀ j < idx - cursor, ¬ needle <+: ((haystack.drop cursor).map f).drop j := by
          intro j hj
          rw [List.map_drop, List.drop_drop]
          exact hfirst (cursor + j) (by omega) (by omega)
        rw [Redaction.replaceAll_of_first hne hk hbefore, ih _ (by omega) _ rfl, List.drop_take, List.drop_drop]
        congr 3
        omega
    · rw [dif_neg fun h => hcursor h.1, List.drop_eq_nil_of_le (by omega)]
      rfl

theorem caseInsensitiveReplace_eq {tables : CaseTables} {haystack needle : String} (hplain : Plain haystack)
    (hne : needle ≠ "") (replacement : String) : (caseInsensitiveReplace tables haystack needle replacement).toList =
      Redaction.replaceAll tables.lower (tables.toLower needle) replacement.toList haystack.toList := by
  have hlower : tables.toLower needle ≠ [] := CaseTables.toLower_ne_nil hne
  rw [caseInsensitiveReplace, if_neg hlower, String.toList_ofList, CaseTables.toLower_of_plain hplain,
    replaceFrom_eq hlower]
  rfl

/-! ## What is left of a text -/

section

variable (tables : CaseTables) (guardrail : StringRedactionGuardrail)

/-- What a pattern matches, in a text whose lower case is a map. -/
def Matched (piece : List Char) : Prop := ∃ p ∈ guardrail.used, piece.map tables.lower = tables.toLower p

/-- No occurrence of a pattern can reach into a replacement. -/
def KeepsApart : Prop :=
  Plain guardrail.replacement ∧ ∀ p ∈ guardrail.used, Apart (tables.toLower p) (tables.toLower guardrail.replacement)

/-- The original with replacements for matches, and none of these patterns in it. -/
structure Cleaned (done : List String) (value : String) (redacted : String × Bool) : Prop where
  pieces : Redacted (guardrail.Matched tables) guardrail.replacement.toList value.toList redacted.1.toList
  free : ∀ p ∈ done, ¬ tables.Contains redacted.1 p

end

variable {tables : CaseTables} {guardrail : StringRedactionGuardrail} {done : List String} {value pattern : String}
  {redacted : String × Bool}

theorem Cleaned.plain (h : Cleaned tables guardrail done value redacted) (hvalue : Plain value)
    (hreplacement : Plain guardrail.replacement) : Plain redacted.1 :=
  fun c hc => (h.pieces.mem hc).elim (hvalue c) (hreplacement c)

theorem ne_empty_of_mem_used (h : pattern ∈ guardrail.used) : pattern ≠ "" :=
  of_decide_eq_true (List.mem_filter.1 h).2

theorem Cleaned.redactOne (h : Cleaned tables guardrail done value redacted) (hvalue : Plain value)
    (hkeeps : guardrail.KeepsApart tables) (hdone : ∀ p ∈ done, p ∈ guardrail.used) (hpattern : pattern ∈ guardrail.used) :
    Cleaned tables guardrail (pattern :: done) value (guardrail.redactOne tables redacted pattern) := by
  unfold StringRedactionGuardrail.redactOne
  split
  · have hplain := h.plain hvalue hkeeps.1
    have hlower : tables.toLower guardrail.replacement = _ := CaseTables.toLower_of_plain hkeeps.1
    have hapart : ∀ p ∈ guardrail.used, Apart (tables.toLower p) (guardrail.replacement.toList.map tables.lower) := by
      rw [← hlower]
      exact hkeeps.2
    have hne : tables.toLower pattern ≠ [] := CaseTables.toLower_ne_nil (ne_empty_of_mem_used hpattern)
    have htext : (caseInsensitiveReplace tables redacted.1 pattern guardrail.replacement).toList = _ :=
      caseInsensitiveReplace_eq hplain (ne_empty_of_mem_used hpattern) _
    have hmatched : ∀ piece : List Char, piece.map tables.lower = tables.toLower pattern →
        guardrail.Matched tables piece :=
      fun piece h => ⟨pattern, hpattern, h⟩
    have hpieces := h.pieces.replaceAll hne (hapart pattern hpattern) hmatched
    rw [← htext] at hpieces
    have hplain' : Plain (caseInsensitiveReplace tables redacted.1 pattern guardrail.replacement) :=
      fun c hc => (hpieces.mem hc).elim (hvalue c) (hkeeps.1 c)
    refine ⟨hpieces, ?_⟩
    rw [List.forall_mem_cons]
    simp only [CaseTables.Contains, CaseTables.toLower_of_plain hplain', htext]
    refine ⟨Redaction.free_replaceAll hne (hapart pattern hpattern) _, fun p hp => ?_⟩
    have hfree := h.free p hp
    rw [CaseTables.Contains, CaseTables.toLower_of_plain hplain] at hfree
    exact (Redacted.of_replaceAll hne hmatched _).free (hapart p (hdone p hp)) hfree
  · rename_i hnot
    refine ⟨h.pieces, ?_⟩
    rw [List.forall_mem_cons]
    exact ⟨hnot, h.free⟩

theorem cleaned_redact (hvalue : Plain value) (hkeeps : guardrail.KeepsApart tables) :
    Cleaned tables guardrail guardrail.used value (guardrail.redact tables value) := by
  have hrun : ∀ (patterns done : List String) (redacted : String × Bool), (∀ p ∈ patterns, p ∈ guardrail.used) → (∀ p ∈ done, p ∈ guardrail.used) →
      Cleaned tables guardrail done value redacted →
      Cleaned tables guardrail (patterns.reverse ++ done) value
        (patterns.foldl (guardrail.redactOne tables) redacted) := by
    intro patterns
    induction patterns with
    | nil => exact fun done redacted _ _ h => h
    | cons p patterns ih =>
      intro done redacted hpatterns hdone h
      rw [List.forall_mem_cons] at hpatterns
      rw [List.reverse_cons, List.append_assoc, List.foldl_cons]
      refine ih (p :: done) _ hpatterns.2 ?_ (h.redactOne hvalue hkeeps hdone hpatterns.1)
      rw [List.forall_mem_cons]
      exact ⟨hpatterns.1, hdone⟩
  have h := hrun guardrail.used [] (value, false) (fun _ hp => hp) (fun _ hp => nomatch hp) ⟨.kept _, fun _ hp => nomatch hp⟩
  exact ⟨h.pieces, fun p hp => h.free p (List.mem_append_left _ (List.mem_reverse.2 hp))⟩

theorem redact_of_free (h : ∀ p ∈ guardrail.used, ¬ tables.Contains value p) :
    guardrail.redact tables value = (value, false) := by
  unfold redact
  generalize guardrail.used = patterns at h ⊢
  induction patterns with
  | nil => rfl
  | cons p patterns ih =>
    rw [List.forall_mem_cons] at h
    rw [List.foldl_cons, StringRedactionGuardrail.redactOne, if_neg h.1]
    exact ih h.2

theorem redact_of_not_modified (h : (guardrail.redact tables value).2 = false) :
    (guardrail.redact tables value).1 = value := by
  have hrun : ∀ (patterns : List String) (redacted : String × Bool),
      (patterns.foldl (guardrail.redactOne tables) redacted).2 = false →
        patterns.foldl (guardrail.redactOne tables) redacted = redacted := by
    intro patterns
    induction patterns with
    | nil => exact fun _ _ => rfl
    | cons p patterns ih =>
      intro redacted hfalse
      rw [List.foldl_cons] at hfalse ⊢
      have hrest := ih _ hfalse
      rw [hrest] at hfalse ⊢
      unfold StringRedactionGuardrail.redactOne at hfalse ⊢
      split at hfalse
      · cases hfalse
      · rename_i hnot
        rw [if_neg hnot]
  exact congrArg Prod.fst (hrun guardrail.used (value, false) h)

theorem redactArgument_of_not_modified {argument : String × PyValue}
    (h : (guardrail.redactArgument tables argument).2 = false) :
    (guardrail.redactArgument tables argument).1 = argument := by
  obtain ⟨key, value⟩ := argument
  cases value with
  | str value => exact congrArg (fun text => (key, PyValue.str text)) (redact_of_not_modified h)
  | _ => rfl

/-! ## What is left of a call -/

section

variable (tables : CaseTables) (guardrail : StringRedactionGuardrail) (call : ToolCall)

theorem check_eq : guardrail.check tables call =
    if (call.arguments.map (guardrail.redactArgument tables)).any Prod.snd then
      { decision := .modify
        toolCall := { call with arguments := (call.arguments.map (guardrail.redactArgument tables)).map Prod.fst }
        reason := some "redacted matching substrings"
        metadata := [("guardrail", .str "StringRedactionGuardrail")] }
    else { decision := .allow, toolCall := call } := by
  unfold check
  by_cases hused : guardrail.used = []
  · have hnone (argument : String × PyValue) : (guardrail.redactArgument tables argument).2 = false := by
      obtain ⟨key, value⟩ := argument
      cases value with
      | str value =>
        have hfree : ∀ p ∈ guardrail.used, ¬ tables.Contains value p := by
          rw [hused]
          exact fun p hp => nomatch hp
        exact congrArg Prod.snd (redact_of_free hfree)
      | _ => rfl
    have hany : (call.arguments.map (guardrail.redactArgument tables)).any Prod.snd = false := by
      rw [List.any_eq_false]
      intro redacted hredacted
      obtain ⟨argument, -, rfl⟩ := List.mem_map.1 hredacted
      rw [hnone]
      exact Bool.false_ne_true
    rw [if_pos hused, hany]
    rfl
  · rw [if_neg hused]

theorem toolCall_check : (guardrail.check tables call).toolCall =
    { call with arguments := call.arguments.map fun argument => (guardrail.redactArgument tables argument).1 } := by
  rw [check_eq]
  split
  · rw [List.map_map]
    rfl
  · rename_i hany
    rw [Bool.not_eq_true, List.any_eq_false] at hany
    have hsame : call.arguments.map (fun argument => (guardrail.redactArgument tables argument).1) = call.arguments := by
      refine (List.map_congr_left fun argument hargument => ?_).trans (List.map_id _)
      exact redactArgument_of_not_modified (eq_false_of_ne_true (hany _ (List.mem_map_of_mem hargument)))
    rw [hsame]

def FreeArguments (arguments : Payload) : Prop :=
  ∀ key value, (key, PyValue.str value) ∈ arguments → ∀ p ∈ guardrail.used, ¬ tables.Contains value p

/-- A string with replacements for its matches; anything else as it is. -/
def ArgumentRedacted (argument argument' : String × PyValue) : Prop :=
  argument'.1 = argument.1 ∧
    match argument.2 with
    | .str value => ∃ value', argument'.2 = .str value' ∧
        Redacted (guardrail.Matched tables) guardrail.replacement.toList value.toList value'.toList
    | value => argument'.2 = value

end

theorem check_of_free {call : ToolCall} (h : guardrail.FreeArguments tables call.arguments) :
    guardrail.check tables call = { decision := .allow, toolCall := call } := by
  rw [check_eq]
  refine if_neg fun hany => ?_
  obtain ⟨redacted, hredacted, hmodified⟩ := List.any_eq_true.1 hany
  obtain ⟨⟨key, value⟩, hargument, rfl⟩ := List.mem_map.1 hredacted
  cases value with
  | str value =>
    have hsame : (guardrail.redact tables value).2 = false := congrArg Prod.snd (redact_of_free (h key value hargument))
    exact Bool.false_ne_true (hsame.symm.trans hmodified)
  | _ => cases hmodified

theorem redacted_completely (tables : CaseTables) (guardrail : StringRedactionGuardrail) (call : ToolCall)
    (hplain : ∀ key value, (key, PyValue.str value) ∈ call.arguments → Plain value)
    (hkeeps : guardrail.KeepsApart tables) :
    let result := guardrail.check tables call
    guardrail.FreeArguments tables result.toolCall.arguments ∧
      List.Forall₂ (guardrail.ArgumentRedacted tables) call.arguments result.toolCall.arguments ∧
      (guardrail.FreeArguments tables call.arguments → result = { decision := .allow, toolCall := call }) ∧
      guardrail.check tables result.toolCall = { decision := .allow, toolCall := result.toolCall } := by
  intro result
  have hcall := toolCall_check tables guardrail call
  have hfree : guardrail.FreeArguments tables result.toolCall.arguments := by
    intro key value hmem
    rw [show result.toolCall = _ from hcall] at hmem
    obtain ⟨⟨key', original⟩, hargument, heq⟩ := List.mem_map.1 hmem
    cases original with
    | str original =>
      cases heq
      exact (cleaned_redact (hplain _ _ hargument) hkeeps).free
    | _ => cases heq
  refine ⟨hfree, ?_, check_of_free, check_of_free hfree⟩
  rw [show result.toolCall = _ from hcall, List.forall₂_map_right_iff]
  refine List.forall₂_same.2 ?_
  rintro ⟨key, value⟩ hargument
  cases value with
  | str value => exact ⟨rfl, _, rfl, (cleaned_redact (hplain _ _ hargument) hkeeps).pieces⟩
  | _ => exact ⟨rfl, rfl⟩

def asciiTables : CaseTables := ⟨Char.toLower, Char.isAlpha, fun _ => false⟩

/-- A key in capitals is not found a second time. -/
theorem redacted_completely_key :
    let guardrail : StringRedactionGuardrail := { patterns := ["sk-pwn", ""] }
    let result := guardrail.check asciiTables ⟨"c1", "search", [("q", .str "my SK-PWN key"), ("limit", .int 10)]⟩
    (guardrail.check asciiTables result.toolCall).decision = .allow := by
  intro guardrail result
  have hkeeps : guardrail.KeepsApart asciiTables := by
    refine ⟨by decide, fun p hp => ?_⟩
    have hp : p = "sk-pwn" := by simpa [guardrail, used] using hp
    subst hp
    refine Redaction.apart_of_disjoint (by decide) (@of_decide_eq_true _ (List.decidableBAll _ _) ?_)
    decide
  have hplain : ∀ key value, (key, PyValue.str value) ∈ [("q", PyValue.str "my SK-PWN key"), ("limit", .int 10)] →
      Plain value := by
    intro key value h
    simp only [List.mem_cons, Prod.mk.injEq, PyValue.str.injEq, List.not_mem_nil, or_false, reduceCtorEq,
      and_false] at h
    rw [h.2]
    decide
  exact congrArg GuardrailResult.decision (redacted_completely asciiTables guardrail _ hplain hkeeps).2.2.2

/-- A string in a list is passed over, and a replacement can make a new match. -/
theorem not_redacted :
    let guardrail : StringRedactionGuardrail := { patterns := ["secret"] }
    let call : ToolCall := ⟨"c1", "search", [("q", .list [.str "my secret"])]⟩
    ¬ asciiTables.Contains guardrail.replacement "secret" ∧ asciiTables.Contains "my secret" "secret" ∧
      guardrail.check asciiTables call = { decision := .allow, toolCall := call } ∧
      ¬ asciiTables.Contains "b" "ab" ∧ caseInsensitiveReplace asciiTables "aab" "ab" "b" = "ab" := by
  intro guardrail call
  refine ⟨by decide, by decide, rfl, by decide, String.toList_inj.1 ?_⟩
  rw [caseInsensitiveReplace_eq (by decide) (by decide)]
  decide

end StringRedactionGuardrail

end Wiii.Guardrails
