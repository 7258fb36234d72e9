import Mathlib.Data.List.Infix
import Mathlib.Tactic.Ring
import Wiii.Service.ScheduledTasks

/-!
# The intervals of recurring tasks

An interval is a sequence of numbers with their units, and white space anywhere (`Denotes`).  The scan adds up every
number with a unit that it finds, whatever stands around it, and reads a number from its last white space on.
`parsed_exactly_iff` says of which texts it is right.
-/

namespace Wiii.Service

open PyText (isSpace)

/-- A number, by its digits, with its unit. -/
abbrev IntervalPart := List ℕ × Char

def unitLetters : List Char := ['s', 'S', 'm', 'M', 'h', 'H', 'd', 'D']

section

variable (decimal : Char → Option ℕ)

/-- The characters are digits with these values. -/
def Reads (chars : List Char) (digits : List ℕ) : Prop := chars.map decimal = digits.map some

def IsGap (chars : List Char) : Prop := ∀ c ∈ chars, decimal c = none ∧ isSpace c = true

/-- What stands before a number and its last white space, perhaps with digits. -/
def IsLead (chars : List Char) : Prop :=
  (∀ c ∈ chars, decimal c = none → isSpace c = true) ∧ ∀ c ∈ chars.getLast?, decimal c = none

/-- Numbers with units and white space anywhere; a number is cut at its last white space. -/
inductive Denotes : List Char → List (List ℕ × IntervalPart) → Prop
  | done {gap : List Char} (hgap : IsGap decimal gap) : Denotes gap []
  | part {lead chars gap rest : List Char} {unit : Char} {digits : List ℕ} {parts : List (List ℕ × IntervalPart)}
      (hlead : IsLead decimal lead) (hchars : chars ≠ []) (hdigits : Reads decimal chars digits)
      (hgap : IsGap decimal gap) (hunit : decimal unit = none) (hletter : unit ∈ unitLetters)
      (hrest : Denotes rest parts) :
      Denotes (lead ++ chars ++ gap ++ unit :: rest) ((lead.filterMap decimal, digits, unit) :: parts)

def IsInterval (expr : String) (parts : List (List ℕ × IntervalPart)) : Prop :=
  parts ≠ [] ∧ Denotes decimal expr.toList parts

/-- The sum of an interval, with the pieces of a number taken together. -/
def intervalSeconds (parts : List (List ℕ × IntervalPart)) : ℕ :=
  totalSeconds (parts.map fun (lead, digits, unit) => (lead ++ digits, unit))

/-- A number with a unit stands in the text, where a long s is a unit as well. -/
def Occurs (text : List Char) (part : IntervalPart) : Prop :=
  ∃ before chars gap after, text = before ++ chars ++ gap ++ part.2 :: after ∧ chars ≠ [] ∧ Reads decimal chars part.1 ∧
    IsGap decimal gap ∧ decimal part.2 = none ∧ part.2 ∈ unitLetters ++ ['ſ']

/-- The parse is the sum of an interval, and none of another text. -/
def ParsedExactly (expr : String) : Prop :=
  (∀ parts, IsInterval decimal expr parts → parseInterval decimal expr = .ok (some (intervalSeconds parts))) ∧
    ((¬ ∃ parts, IsInterval decimal expr parts) → parseInterval decimal expr = .ok none)

def scan (text : List Char) : IntervalScan := text.foldl (IntervalScan.step decimal) .initial

end

variable {decimal : Char → Option ℕ} {text chars gap : List Char} {digits digits' : List ℕ} {unit c : Char}
  {parts : List (List ℕ × IntervalPart)} {state : IntervalScan} {d : ℕ}

/-! ## One character -/

theorem step_digit (h : decimal c = some d) :
    state.step decimal c =
      { state with number := some ((if state.spaced then [] else state.number.getD []) ++ [d]), spaced := false } := by
  unfold IntervalScan.step
  rw [h]
  dsimp only
  split <;> rfl

theorem step_space (hdecimal : decimal c = none) (hspace : isSpace c = true) :
    state.step decimal c = { state with spaced := state.number.isSome } := by
  unfold IntervalScan.step
  rw [hdecimal]
  exact if_pos hspace

theorem isSpace_unit (h : unit ∈ unitLetters ++ ['ſ']) : isSpace unit = false := by
  have hall : (unitLetters ++ ['ſ']).all (fun c => !isSpace c) = true := by decide
  simpa using List.all_eq_true.1 hall unit h

theorem step_unit (hdecimal : decimal unit = none) (hletter : unit ∈ unitLetters ++ ['ſ']) :
    state.step decimal unit = ⟨none, false, state.found ++ (state.number.map fun digits => (digits, unit)).toList⟩ := by
  unfold IntervalScan.step
  rw [hdecimal, isSpace_unit hletter]
  dsimp only
  cases state.number with
  | none => simp
  | some digits => exact if_pos hletter

theorem step_other (hdecimal : decimal c = none) (hspace : isSpace c = false) (hletter : c ∉ unitLetters ++ ['ſ']) :
    state.step decimal c = ⟨none, false, state.found⟩ := by
  unfold IntervalScan.step
  rw [hdecimal, hspace]
  dsimp only
  cases state.number with
  | none => rfl
  | some digits => exact if_neg hletter

theorem scan_snoc (text : List Char) (c : Char) : scan decimal (text ++ [c]) = (scan decimal text).step decimal c := by
  rw [scan, List.foldl_append]
  rfl

/-! ## What the search has read -/

theorem reads_snoc_iff : Reads decimal (chars ++ [c]) digits ↔
    ∃ before d, digits = before ++ [d] ∧ Reads decimal chars before ∧ decimal c = some d := by
  unfold Reads
  constructor
  · intro h
    rw [List.map_append, List.map_singleton] at h
    obtain ⟨before, last, rfl, hbefore, hlast⟩ := List.append_eq_map_iff.1 h
    obtain ⟨d, rest, rfl, hd, hrest⟩ := List.map_eq_cons_iff.1 hlast
    cases List.map_eq_nil_iff.1 hrest
    exact ⟨before, d, rfl, hbefore.symm, hd.symm⟩
  · rintro ⟨before, d, rfl, hbefore, hd⟩
    rw [List.map_append, List.map_append, hbefore, List.map_singleton, List.map_singleton, hd]

theorem reads_nil_iff : Reads decimal [] digits ↔ digits = [] := by
  cases digits <;> simp [Reads]

/-- A text that ends in a number, and in white space behind it. -/
def EndsIn (decimal : Char → Option ℕ) (text : List Char) (digits : List ℕ) (gap : List Char) : Prop :=
  ∃ before chars, text = before ++ chars ++ gap ∧ chars ≠ [] ∧ Reads decimal chars digits ∧ IsGap decimal gap

/-- The number that is being read is the longest one that the text ends in. -/
structure Pending (decimal : Char → Option ℕ) (text : List Char) (state : IntervalScan) : Prop where
  sound : ∀ digits, state.number = some digits → ∃ gap, EndsIn decimal text digits gap ∧ (state.spaced = true ↔ gap ≠ [])
  complete : ∀ digits gap, EndsIn decimal text digits gap →
    ∃ longest, state.number = some longest ∧ digits <:+ longest ∧ (state.spaced = true ↔ gap ≠ [])

theorem Pending.step (h : Pending decimal text state) (c : Char) : Pending decimal (text ++ [c]) (state.step decimal c) := by
  obtain ⟨hsound, hcomplete⟩ := h
  cases hc : decimal c with
  | some d =>
    rw [step_digit hc]
    refine ⟨fun digits hdigits => ?_, fun digits gap hends => ?_⟩
    · cases hdigits
      refine ⟨[], ?_, by simp⟩
      cases hspaced : state.spaced with
      | true => exact ⟨text, [c], by simp, by simp, by simp [Reads, hc], nofun⟩
      | false =>
        cases hnumber : state.number with
        | none => exact ⟨text, [c], by simp, by simp, by simp [Reads, hc], nofun⟩
        | some digits =>
          obtain ⟨gap, ⟨before, chars, rfl, hchars, hreads, -⟩, hgap⟩ := hsound digits hnumber
          obtain rfl : gap = [] := by simpa [hspaced] using hgap
          refine ⟨before, chars ++ [c], by simp, by simp, ?_, nofun⟩
          exact reads_snoc_iff.2 ⟨digits, d, rfl, hreads, hc⟩
    · obtain ⟨before, chars, htext, hchars, hreads, hgap⟩ := hends
      rcases List.eq_nil_or_concat gap with rfl | ⟨gap, last, rfl⟩
      · refine ⟨_, rfl, ?_, by simp⟩
        obtain ⟨chars, last, rfl⟩ := (List.eq_nil_or_concat chars).resolve_left hchars
        simp only [List.append_nil, List.concat_eq_append, ← List.append_assoc] at htext hreads
        obtain ⟨hstart, hlast⟩ := List.append_inj' htext rfl
        cases hlast
        obtain ⟨front, d', rfl, hfront, hd'⟩ := reads_snoc_iff.1 hreads
        rw [hc] at hd'
        cases hd'
        rcases List.eq_nil_or_concat chars with rfl | ⟨chars', last, rfl⟩
        · rw [reads_nil_iff.1 hfront]
          exact List.suffix_append _ _
        · obtain ⟨longest, hnumber, hsuffix, hspaced⟩ :=
            hcomplete front [] ⟨before, _, by simpa using hstart, by simp, hfront, nofun⟩
          have hspaced : state.spaced = false := by simpa using hspaced
          rw [hspaced, hnumber]
          exact List.suffix_concat_iff.2 (Or.inr ⟨_, rfl, hsuffix⟩)
      · rw [List.concat_eq_append, ← List.append_assoc] at htext
        obtain ⟨-, hlast⟩ := List.append_inj' htext rfl
        cases hlast
        have hnone := (hgap c (by simp)).1
        rw [hc] at hnone
        cases hnone
  | none =>
    -- only white space keeps what the text ends in
    have hgapped : ∀ digits gap, EndsIn decimal (text ++ [c]) digits gap →
        ∃ gap', gap = gap' ++ [c] ∧ isSpace c = true ∧ EndsIn decimal text digits gap' := by
      rintro digits gap ⟨before, chars, htext, hchars, hreads, hgap⟩
      rcases List.eq_nil_or_concat gap with rfl | ⟨gap', last, rfl⟩
      · obtain ⟨chars, last, rfl⟩ := (List.eq_nil_or_concat chars).resolve_left hchars
        simp only [List.append_nil, List.concat_eq_append, ← List.append_assoc] at htext hreads
        obtain ⟨-, hlast⟩ := List.append_inj' htext rfl
        cases hlast
        obtain ⟨-, d, -, -, hd⟩ := reads_snoc_iff.1 hreads
        rw [hc] at hd
        cases hd
      · rw [List.concat_eq_append, ← List.append_assoc] at htext
        obtain ⟨hstart, hlast⟩ := List.append_inj' htext rfl
        cases hlast
        simp only [List.concat_eq_append, IsGap, List.mem_append, List.mem_singleton] at hgap
        exact ⟨gap', by simp, (hgap c (Or.inr rfl)).2, before, chars, hstart, hchars, hreads, fun x hx => hgap x (Or.inl hx)⟩
    by_cases hspace : isSpace c = true
    · rw [step_space hc hspace]
      refine ⟨fun digits hdigits => ?_, fun digits gap hends => ?_⟩
      · have hnumber : state.number = some digits := hdigits
        obtain ⟨gap, ⟨before, chars, rfl, hchars, hreads, hgap⟩, -⟩ := hsound digits hnumber
        refine ⟨gap ++ [c], ⟨before, chars, by simp, hchars, hreads, fun x hx => ?_⟩, by simp [hnumber]⟩
        rcases List.mem_append.1 hx with hx | hx
        · exact hgap x hx
        · rw [List.mem_singleton.1 hx]
          exact ⟨hc, hspace⟩
      · obtain ⟨gap', rfl, -, hends'⟩ := hgapped digits gap hends
        obtain ⟨longest, hnumber, hsuffix, -⟩ := hcomplete digits gap' hends'
        exact ⟨longest, hnumber, hsuffix, by simp [hnumber]⟩
    · have hnumber : (state.step decimal c).number = none := by
        by_cases hletter : c ∈ unitLetters ++ ['ſ']
        · rw [step_unit hc hletter]
        · rw [step_other hc (by simpa using hspace) hletter]
      refine ⟨fun digits hdigits => ?_, fun digits gap hends => ?_⟩
      · rw [hnumber] at hdigits
        cases hdigits
      · obtain ⟨-, -, hspace', -⟩ := hgapped digits gap hends
        exact absurd hspace' hspace

theorem pending_scan (text : List Char) : Pending decimal text (scan decimal text) := by
  induction text using List.reverseRecOn with
  | nil =>
    refine ⟨nofun, ?_⟩
    rintro digits gap ⟨before, chars, hnil, hchars, -⟩
    simp at hnil
    exact absurd hnil.2.1 hchars
  | append_singleton text c ih =>
    rw [scan_snoc]
    exact ih.step c

/-! ## What the search finds -/

theorem Occurs.append {part : IntervalPart} (h : Occurs decimal text part) (more : List Char) :
    Occurs decimal (text ++ more) part := by
  obtain ⟨before, chars, gap, after, rfl, h⟩ := h
  exact ⟨before, chars, gap, after ++ more, by simp, h⟩

theorem occurs_snoc_iff {part : IntervalPart} : Occurs decimal (text ++ [c]) part ↔ Occurs decimal text part ∨
    part.2 = c ∧ (∃ gap, EndsIn decimal text part.1 gap) ∧ decimal c = none ∧ c ∈ unitLetters ++ ['ſ'] := by
  constructor
  · rintro ⟨before, chars, gap, after, htext, hchars, hreads, hgap, hunit, hletter⟩
    rcases List.eq_nil_or_concat after with rfl | ⟨after, last, rfl⟩
    · obtain ⟨hstart, hlast⟩ := List.append_inj' htext rfl
      cases hlast
      exact Or.inr ⟨rfl, ⟨gap, before, chars, hstart, hchars, hreads, hgap⟩, hunit, hletter⟩
    · rw [List.concat_eq_append, ← List.cons_append, ← List.append_assoc] at htext
      obtain ⟨hstart, -⟩ := List.append_inj' htext rfl
      exact Or.inl ⟨before, chars, gap, after, hstart, hchars, hreads, hgap, hunit, hletter⟩
  · rintro (h | ⟨rfl, ⟨gap, before, chars, rfl, hchars, hreads, hgap⟩, hunit, hletter⟩)
    · exact h.append [c]
    · exact ⟨before, chars, gap, [], by simp, hchars, hreads, hgap, hunit, hletter⟩

/-- What is found occurs, and of what occurs the longest form is found. -/
theorem found_scan (text : List Char) : (∀ part ∈ (scan decimal text).found, Occurs decimal text part) ∧
    ∀ part, Occurs decimal text part → ∃ longest, (longest, part.2) ∈ (scan decimal text).found ∧ part.1 <:+ longest := by
  induction text using List.reverseRecOn with
  | nil =>
    refine ⟨nofun, ?_⟩
    rintro part ⟨before, chars, gap, after, hnil, -⟩
    simp at hnil
  | append_singleton text c ih =>
    obtain ⟨hsound, hcomplete⟩ := ih
    have hpending := @pending_scan decimal text
    rw [scan_snoc]
    -- what the last character adds to the parts
    have hfound : ((scan decimal text).step decimal c).found = (scan decimal text).found ++
        if decimal c = none ∧ c ∈ unitLetters ++ ['ſ'] then
          ((scan decimal text).number.map fun digits => (digits, c)).toList
        else [] := by
      cases hc : decimal c with
      | some d =>
        rw [step_digit hc]
        simp
      | none =>
        by_cases hletter : c ∈ unitLetters ++ ['ſ']
        · rw [step_unit hc hletter, if_pos ⟨rfl, hletter⟩]
        · rw [if_neg fun h => hletter h.2, List.append_nil]
          by_cases hspace : isSpace c = true
          · rw [step_space hc hspace]
          · rw [step_other hc (by simpa using hspace) hletter]
    rw [hfound]
    refine ⟨fun part hpart => ?_, fun part hoccurs => ?_⟩
    · rcases List.mem_append.1 hpart with hold | hnew
      · exact (hsound part hold).append [c]
      · split at hnew
        next hunit =>
          rw [Option.mem_toList, Option.map_eq_some_iff] at hnew
          obtain ⟨digits, hnumber, rfl⟩ := hnew
          obtain ⟨gap, hends, -⟩ := hpending.sound digits hnumber
          exact occurs_snoc_iff.2 (Or.inr ⟨rfl, ⟨gap, hends⟩, hunit⟩)
        next => cases hnew
    · rcases occurs_snoc_iff.1 hoccurs with hold | ⟨rfl, ⟨gap, hends⟩, hunit⟩
      · obtain ⟨longest, hmem, hsuffix⟩ := hcomplete part hold
        exact ⟨longest, List.mem_append_left _ hmem, hsuffix⟩
      · obtain ⟨longest, hnumber, hsuffix, -⟩ := hpending.complete part.1 gap hends
        refine ⟨longest, List.mem_append_right _ ?_, hsuffix⟩
        rw [if_pos hunit, hnumber]
        exact List.mem_singleton.2 rfl

/-! ## The search in an interval -/

theorem found_lead (h : ∀ c ∈ chars, decimal c = none → isSpace c = true) (state : IntervalScan) :
    (chars.foldl (IntervalScan.step decimal) state).found = state.found := by
  induction chars generalizing state with
  | nil => rfl
  | cons c chars ih =>
    rw [List.foldl_cons, ih fun x hx => h x (List.mem_cons_of_mem _ hx)]
    cases hc : decimal c with
    | some d => rw [step_digit hc]
    | none => rw [step_space hc (h c List.mem_cons_self hc)]

/-- Behind the characters in front of a number the next digit begins a number. -/
theorem scan_lead (h : IsLead decimal chars) (found : List IntervalPart) :
    ∃ number spaced, chars.foldl (IntervalScan.step decimal) ⟨none, false, found⟩ = ⟨number, spaced, found⟩ ∧
      (spaced = true ∨ number = none) := by
  rcases List.eq_nil_or_concat chars with rfl | ⟨front, last, rfl⟩
  · exact ⟨none, false, rfl, Or.inr rfl⟩
  · rw [List.concat_eq_append] at h ⊢
    have hlast : decimal last = none := h.2 last (by simp)
    have hspace : isSpace last = true := h.1 last (by simp) hlast
    have hfound := found_lead (fun c hc => h.1 c (List.mem_append_left _ hc)) ⟨none, false, found⟩
    rw [List.foldl_append, List.foldl_cons, List.foldl_nil, step_space hlast hspace, hfound]
    refine ⟨_, _, rfl, ?_⟩
    cases (front.foldl (IntervalScan.step decimal) ⟨none, false, found⟩).number with
    | none => exact Or.inr rfl
    | some digits => exact Or.inl rfl

theorem scan_digits (h : Reads decimal chars digits) (hchars : chars ≠ []) {number : Option (List ℕ)} {spaced : Bool}
    (hstart : spaced = true ∨ number = none) (found : List IntervalPart) :
    chars.foldl (IntervalScan.step decimal) ⟨number, spaced, found⟩ = ⟨some digits, false, found⟩ := by
  induction chars using List.reverseRecOn generalizing digits with
  | nil => exact absurd rfl hchars
  | append_singleton chars c ih =>
    obtain ⟨before, d, rfl, hbefore, hd⟩ := reads_snoc_iff.1 h
    rw [List.foldl_append, List.foldl_cons, List.foldl_nil]
    rcases eq_or_ne chars [] with rfl | hne
    · rw [reads_nil_iff.1 hbefore, List.foldl_nil, step_digit hd]
      rcases hstart with rfl | rfl
      · rfl
      · cases spaced <;> rfl
    · rw [ih hbefore hne, step_digit hd]
      rfl

theorem scan_gap (h : IsGap decimal gap) (number : Option (List ℕ)) (spaced : Bool) (found : List IntervalPart) :
    ∃ spaced', gap.foldl (IntervalScan.step decimal) ⟨number, spaced, found⟩ = ⟨number, spaced', found⟩ := by
  induction gap generalizing spaced with
  | nil => exact ⟨spaced, rfl⟩
  | cons c gap ih =>
    obtain ⟨hdecimal, hspace⟩ := h c List.mem_cons_self
    rw [List.foldl_cons, step_space hdecimal hspace]
    exact ih (fun x hx => h x (List.mem_cons_of_mem _ hx)) _

theorem scan_denotes (h : Denotes decimal text parts) (found : List IntervalPart) :
    (text.foldl (IntervalScan.step decimal) ⟨none, false, found⟩).found = found ++ parts.map Prod.snd := by
  induction h generalizing found with
  | done hgap =>
    obtain ⟨spaced, hscan⟩ := scan_gap hgap none false found
    rw [hscan, List.map_nil, List.append_nil]
  | @part lead chars gap rest unit digits parts hlead hchars hdigits hgap hunit hletter _ ih =>
    obtain ⟨number, spaced, hleadScan, hstart⟩ := scan_lead hlead found
    obtain ⟨spaced', hgapScan⟩ := scan_gap hgap (some digits) false found
    rw [List.foldl_append, List.foldl_append, List.foldl_append, hleadScan, scan_digits hdigits hchars hstart, hgapScan,
      List.foldl_cons, step_unit hunit (List.mem_append_left _ hletter), ih, List.append_assoc]
    rfl

/-! ## The sums -/

theorem foldl_digits (digits : List ℕ) (v : ℕ) :
    digits.foldl (fun v d => 10 * v + d) v = v * 10 ^ digits.length + numberOf digits := by
  induction digits generalizing v with
  | nil => simp [numberOf]
  | cons d digits ih =>
    rw [numberOf, List.foldl_cons, List.foldl_cons, ih, ih, List.length_cons]
    ring

theorem numberOf_append (lead digits : List ℕ) :
    numberOf (lead ++ digits) = numberOf lead * 10 ^ digits.length + numberOf digits := by
  rw [numberOf, List.foldl_append, foldl_digits]
  rfl

theorem numberOf_append_eq_iff {lead : List ℕ} : numberOf (lead ++ digits) = numberOf digits ↔ numberOf lead = 0 := by
  have hpos : 0 < 10 ^ digits.length := Nat.pow_pos (by omega)
  rw [numberOf_append, Nat.add_eq_right, Nat.mul_eq_zero]
  exact or_iff_left hpos.ne'

def secondsPer (unit : Char) : ℕ := unitSeconds 1 unit

theorem unitSeconds_eq (v : ℕ) (unit : Char) : unitSeconds v unit = secondsPer unit * v := by
  unfold secondsPer unitSeconds
  split
  · omega
  · split
    · omega
    · split
      · omega
      · split <;> omega

theorem secondsPer_pos (h : unit ∈ unitLetters) : 0 < secondsPer unit := by
  have hall : unitLetters.all (fun unit => decide (0 < secondsPer unit)) = true := by decide
  simpa using List.all_eq_true.1 hall unit h

theorem Denotes.unit_mem (h : Denotes decimal text parts) : ∀ part ∈ parts, part.2.2 ∈ unitLetters := by
  induction h with
  | done => nofun
  | part _ _ _ _ _ hletter _ ih =>
    intro part hpart
    rcases List.mem_cons.1 hpart with rfl | hpart
    · exact hletter
    · exact ih part hpart

@[simp] theorem totalSeconds_cons (part : IntervalPart) (found : List IntervalPart) :
    totalSeconds (part :: found) = unitSeconds (numberOf part.1) part.2 + totalSeconds found := by
  simp [totalSeconds]

@[simp] theorem intervalSeconds_cons (lead : List ℕ) (part : IntervalPart) :
    intervalSeconds ((lead, part) :: parts) = unitSeconds (numberOf (lead ++ part.1)) part.2 + intervalSeconds parts := by
  simp [intervalSeconds]

theorem totalSeconds_le_intervalSeconds (parts : List (List ℕ × IntervalPart)) :
    totalSeconds (parts.map Prod.snd) ≤ intervalSeconds parts := by
  induction parts with
  | nil => exact Nat.le_refl _
  | cons part parts ih =>
    obtain ⟨lead, digits, unit⟩ := part
    rw [List.map_cons, totalSeconds_cons, intervalSeconds_cons]
    have hnumber : numberOf digits ≤ numberOf (lead ++ digits) := numberOf_append lead digits ▸ Nat.le_add_left _ _
    have hpart := Nat.mul_le_mul_left (secondsPer unit) hnumber
    rw [← unitSeconds_eq, ← unitSeconds_eq] at hpart
    exact Nat.add_le_add hpart ih

/-- The search gives the sum of an interval when what it leaves out is zero. -/
theorem intervalSeconds_eq_iff (hunits : ∀ part ∈ parts, part.2.2 ∈ unitLetters) :
    intervalSeconds parts = totalSeconds (parts.map Prod.snd) ↔ ∀ part ∈ parts, numberOf part.1 = 0 := by
  induction parts with
  | nil => simp [intervalSeconds]
  | cons part parts ih =>
    obtain ⟨lead, digits, unit⟩ := part
    have hpos : 0 < secondsPer unit := secondsPer_pos (hunits _ List.mem_cons_self)
    have hsum := totalSeconds_le_intervalSeconds parts
    have hnumber := numberOf_append lead digits
    have hzero : numberOf (lead ++ digits) = numberOf digits ↔ numberOf lead = 0 := numberOf_append_eq_iff
    rw [List.map_cons, totalSeconds_cons, intervalSeconds_cons, List.forall_mem_cons,
      ← ih fun part hpart => hunits part (List.mem_cons_of_mem _ hpart), ← hzero, unitSeconds_eq, unitSeconds_eq]
    dsimp only
    constructor
    · intro h
      have hle : numberOf (lead ++ digits) ≤ numberOf digits := by
        refine Nat.le_of_mul_le_mul_left ?_ hpos
        omega
      have heq : numberOf (lead ++ digits) = numberOf digits := by omega
      rw [heq] at h
      exact ⟨heq, by omega⟩
    · rintro ⟨heq, hrest⟩
      rw [heq, hrest]

/-! ## The parse -/

theorem parseInterval_eq_some_iff {expr : String} {total : ℕ} : parseInterval decimal expr = .ok (some total) ↔
    (∀ part ∈ (scan decimal expr.toList).found, part.1.length ≤ maxIntDigits) ∧
      totalSeconds (scan decimal expr.toList).found = total ∧ 0 < total ∧ total ≤ maxTimedelta := by
  unfold parseInterval scan
  dsimp only
  split
  next h =>
    refine iff_of_false nofun ?_
    rintro ⟨hlength, rfl, -, hmax⟩
    simp only [Bool.or_eq_true, List.any_eq_true, decide_eq_true_eq] at h
    rcases h with ⟨part, hpart, hlong⟩ | hover
    · exact absurd (hlength part hpart) (by omega)
    · omega
  next h =>
    simp only [Bool.or_eq_true, List.any_eq_true, decide_eq_true_eq, not_or, not_exists, not_and, not_lt] at h
    split
    next hpos =>
      constructor
      · rintro ⟨⟩
        exact ⟨h.1, rfl, hpos, h.2⟩
      · rintro ⟨-, rfl, -⟩
        rfl
    next hzero =>
      refine iff_of_false nofun ?_
      rintro ⟨-, rfl, hpos, -⟩
      exact hzero hpos

theorem parseInterval_eq_none_iff {expr : String} : parseInterval decimal expr = .ok none ↔
    (∀ part ∈ (scan decimal expr.toList).found, part.1.length ≤ maxIntDigits) ∧
      totalSeconds (scan decimal expr.toList).found = 0 := by
  unfold parseInterval scan
  dsimp only
  split
  next h =>
    refine iff_of_false nofun ?_
    rintro ⟨hlength, hzero⟩
    simp only [Bool.or_eq_true, List.any_eq_true, decide_eq_true_eq] at h
    rcases h with ⟨part, hpart, hlong⟩ | hover
    · exact absurd (hlength part hpart) (by omega)
    · rw [hzero] at hover
      exact absurd hover (Nat.not_lt_zero _)
  next h =>
    simp only [Bool.or_eq_true, List.any_eq_true, decide_eq_true_eq, not_or, not_exists, not_and, not_lt] at h
    split
    next hpos =>
      refine iff_of_false nofun ?_
      rintro ⟨-, hzero⟩
      omega
    next hzero => exact iff_of_true rfl ⟨h.1, by omega⟩

/-- The search finds no number with too many digits when none occurs. -/
theorem found_length_iff : (∀ part ∈ (scan decimal text).found, part.1.length ≤ maxIntDigits) ↔
    ∀ part, Occurs decimal text part → part.1.length ≤ maxIntDigits := by
  obtain ⟨hsound, hcomplete⟩ := @found_scan decimal text
  constructor
  · intro h part hpart
    obtain ⟨longest, hmem, hsuffix⟩ := hcomplete part hpart
    exact hsuffix.length_le.trans (h _ hmem)
  · exact fun h part hpart => h part (hsound part hpart)

theorem totalSeconds_found_eq_zero_iff : totalSeconds (scan decimal text).found = 0 ↔
    ∀ part, Occurs decimal text part → unitSeconds (numberOf part.1) part.2 = 0 := by
  obtain ⟨hsound, hcomplete⟩ := @found_scan decimal text
  have hsum : totalSeconds (scan decimal text).found = 0 ↔
      ∀ part ∈ (scan decimal text).found, unitSeconds (numberOf part.1) part.2 = 0 := by
    rw [totalSeconds, List.sum_eq_zero_iff_forall_eq_nat, List.forall_mem_map]
  rw [hsum]
  constructor
  · intro h part hpart
    obtain ⟨longest, hmem, lead, hlead⟩ := hcomplete part hpart
    have hlongest := h _ hmem
    rw [unitSeconds_eq, Nat.mul_eq_zero] at hlongest ⊢
    refine hlongest.imp_right fun hzero => ?_
    rw [← hlead, numberOf_append] at hzero
    omega
  · exact fun h part hpart => h part (hsound part hpart)

/-- The parse is exact when every number before a unit is read and the text is a proper interval with nothing but zeros
before white space inside its numbers, or is none and no number in it counts. -/
theorem parsed_exactly_iff (decimal : Char → Option ℕ) (expr : String) : ParsedExactly decimal expr ↔
    (∀ part, Occurs decimal expr.toList part → part.1.length ≤ maxIntDigits) ∧
      (∀ parts, IsInterval decimal expr parts →
        (∀ part ∈ parts, numberOf part.1 = 0) ∧ 0 < intervalSeconds parts ∧ intervalSeconds parts ≤ maxTimedelta) ∧
      ((¬ ∃ parts, IsInterval decimal expr parts) →
        ∀ part, Occurs decimal expr.toList part → unitSeconds (numberOf part.1) part.2 = 0) := by
  have hinterval : ∀ parts, IsInterval decimal expr parts →
      (parseInterval decimal expr = .ok (some (intervalSeconds parts)) ↔
        (∀ part, Occurs decimal expr.toList part → part.1.length ≤ maxIntDigits) ∧
          (∀ part ∈ parts, numberOf part.1 = 0) ∧ 0 < intervalSeconds parts ∧ intervalSeconds parts ≤ maxTimedelta) := by
    intro parts hparts
    have hfound : (scan decimal expr.toList).found = parts.map Prod.snd := scan_denotes hparts.2 []
    rw [parseInterval_eq_some_iff, found_length_iff, hfound, eq_comm, intervalSeconds_eq_iff hparts.2.unit_mem]
  have hother : parseInterval decimal expr = .ok none ↔
      (∀ part, Occurs decimal expr.toList part → part.1.length ≤ maxIntDigits) ∧
        ∀ part, Occurs decimal expr.toList part → unitSeconds (numberOf part.1) part.2 = 0 := by
    rw [parseInterval_eq_none_iff, found_length_iff, totalSeconds_found_eq_zero_iff]
  unfold ParsedExactly
  by_cases hexists : ∃ parts, IsInterval decimal expr parts
  · constructor
    · rintro ⟨hsome, -⟩
      obtain ⟨parts, hparts⟩ := hexists
      exact ⟨((hinterval parts hparts).1 (hsome parts hparts)).1,
        fun parts hparts => ((hinterval parts hparts).1 (hsome parts hparts)).2, fun h => absurd ⟨parts, hparts⟩ h⟩
    · rintro ⟨hlength, hsome, -⟩
      exact ⟨fun parts hparts => (hinterval parts hparts).2 ⟨hlength, hsome parts hparts⟩, fun h => absurd hexists h⟩
  · constructor
    · rintro ⟨-, hnone⟩
      obtain ⟨hlength, hzero⟩ := hother.1 (hnone hexists)
      exact ⟨hlength, fun parts hparts => absurd ⟨parts, hparts⟩ hexists, fun _ => hzero⟩
    · rintro ⟨hlength, -, hzero⟩
      exact ⟨fun parts hparts => absurd ⟨parts, hparts⟩ hexists, fun h => hother.2 ⟨hlength, hzero h⟩⟩

/-! ## A decimal fraction -/

theorem Denotes.mem (h : Denotes decimal text parts) :
    ∀ c ∈ text, decimal c = none → isSpace c = true ∨ c ∈ unitLetters := by
  induction h with
  | done hgap => exact fun c hc _ => Or.inl (hgap c hc).2
  | part hlead _ hdigits hgap _ hletter _ ih =>
    intro c hc hnone
    rcases List.mem_append.1 hc with hc | hc
    · rcases List.mem_append.1 hc with hc | hc
      · rcases List.mem_append.1 hc with hc | hc
        · exact Or.inl (hlead.1 c hc hnone)
        · have hmem := List.mem_map_of_mem (f := decimal) hc
          rw [hdigits, hnone] at hmem
          simp at hmem
      · exact Or.inl (hgap c hc).2
    · rcases List.mem_cons.1 hc with rfl | hc
      · exact Or.inr hletter
      · exact ih c hc hnone

def asciiDigit (c : Char) : Option ℕ := if c.isDigit then some (c.toNat - '0'.toNat) else none

/-- One and a half hours are read as five. -/
theorem parsed_fraction : ¬ ParsedExactly asciiDigit "1.5h" := by
  rintro ⟨-, hnone⟩
  have hparse : parseInterval asciiDigit "1.5h" = .ok (some 18000) := by decide +kernel
  have hno : ¬ ∃ parts, IsInterval asciiDigit "1.5h" parts := by
    rintro ⟨parts, -, hdenotes⟩
    have hdot := hdenotes.mem '.' (by decide) (by decide)
    revert hdot
    decide
  rw [hnone hno] at hparse
  cases hparse

end Wiii.Service
