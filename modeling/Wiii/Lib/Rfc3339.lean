import Wiii.Lib.Instant

/-!
# Reading RFC 3339 texts

A reader of RFC 3339 date-times.  It reads back the fixed-width texts of instants, cut to milliseconds
(`Rfc3339.parse_text`).
-/

namespace Wiii.Rfc3339

def digitValue (c : Char) : ℕ := c.toNat - 48

theorem isDigit_digitChar {i : ℕ} (h : i < 10) : (Nat.digitChar i).isDigit = true := by
  have h' : ∀ i : Fin 10, (Nat.digitChar i).isDigit = true := by decide
  exact h' ⟨i, h⟩

theorem digitValue_digitChar {i : ℕ} (h : i < 10) : digitValue (Nat.digitChar i) = i := by
  have h' : ∀ i : Fin 10, digitValue (Nat.digitChar i) = i.val := by decide
  exact h' ⟨i, h⟩

/-- A number of exactly `w` digits. -/
def number : ℕ → List Char → Option (ℕ × List Char)
  | 0, cs => some (0, cs)
  | w + 1, c :: cs =>
    if c.isDigit then (number w cs).map fun x => (digitValue c * 10 ^ w + x.1, x.2) else none
  | _ + 1, [] => none

theorem number_digits {w n : ℕ} (h : n < 10 ^ w) (cs : List Char) :
    number w (digits w n ++ cs) = some (n, cs) := by
  induction w generalizing n with
  | zero =>
    obtain rfl : n = 0 := by simpa using h
    rfl
  | succ w ih =>
    rw [pow_succ] at h
    have hd : n / 10 ^ w < 10 := Nat.div_lt_of_lt_mul h
    rw [digits, List.cons_append, number, if_pos (isDigit_digitChar hd),
      ih (Nat.mod_lt _ (Nat.pow_pos (by decide))), Option.map_some, digitValue_digitChar hd]
    simp [Nat.div_add_mod']

/-- The character that the format asks for. -/
def char (allowed : List Char) : List Char → Option (List Char)
  | c :: cs => if c ∈ allowed then some cs else none
  | [] => none

theorem char_cons {allowed : List Char} {c : Char} (h : c ∈ allowed) (cs : List Char) :
    char allowed (c :: cs) = some cs :=
  if_pos h

/-- Fractional digits as nanoseconds; `place` counts the digits that still have weight. -/
def nanos : ℕ → List Char → ℕ × List Char
  | place, c :: cs =>
    if c.isDigit then
      ((if place = 0 then 0 else digitValue c * 10 ^ (place - 1)) + (nanos (place - 1) cs).1,
        (nanos (place - 1) cs).2)
    else (0, c :: cs)
  | _, [] => (0, [])

def fraction : List Char → Option (ℕ × List Char)
  | '.' :: c :: cs => if c.isDigit then some (nanos 9 (c :: cs)) else none
  | '.' :: [] => none
  | cs => some (0, cs)

/-- `Z`, or a sign with hours and minutes: whether the offset is ahead of UTC, and its minutes. -/
def offset : List Char → Option ((Bool × ℕ) × List Char)
  | c :: cs =>
    if c = 'Z' ∨ c = 'z' then some ((true, 0), cs)
    else if c = '+' ∨ c = '-' ∨ c = '−' then do
      let (hours, cs) ← number 2 cs
      let cs ← char [':'] cs
      let (minutes, cs) ← number 2 cs
      if hours < 24 ∧ minutes < 60 then some ((c = '+', hours * 60 + minutes), cs) else none
    else none
  | [] => none

def toUtc (date : Date) (minutes : ℕ) (ahead : Bool) (shift : ℕ) : Date × ℕ :=
  if ahead then
    if shift ≤ minutes then (date, minutes - shift) else (date.prev, minutes + 1440 - shift)
  else if minutes + shift < 1440 then (date, minutes + shift)
  else (date.next, minutes + shift - 1440)

def instant (year month day hour minute second nano : ℕ) (ahead : Bool) (shift : ℕ) :
    Option Instant :=
  if hd : (1 ≤ month ∧ month ≤ 12) ∧ 1 ≤ day ∧ day ≤ daysIn year month then
    if ht : (hour < 24 ∧ minute < 60) ∧ second < 61 ∧ nano < 1000000000 then
      let date : Date := ⟨year, month, day, hd.1.1, hd.1.2, hd.2.1, hd.2.2⟩
      let utc := toUtc date (hour * 60 + minute) ahead shift
      if hu : utc.2 < 1440 then
        some ⟨utc.1, ⟨utc.2 / 60, by omega⟩, ⟨utc.2 % 60, by omega⟩, ⟨second, ht.2.1⟩,
          ⟨nano, ht.2.2⟩⟩
      else none
    else none
  else none

def parse (text : String) : Option Instant := do
  let (year, cs) ← number 4 text.toList
  let cs ← char ['-'] cs
  let (month, cs) ← number 2 cs
  let cs ← char ['-'] cs
  let (day, cs) ← number 2 cs
  let cs ← char ['T', 't', ' '] cs
  let (hour, cs) ← number 2 cs
  let cs ← char [':'] cs
  let (minute, cs) ← number 2 cs
  let cs ← char [':'] cs
  let (second, cs) ← number 2 cs
  let (nano, cs) ← fraction cs
  let ((ahead, shift), cs) ← offset cs
  if cs = [] then instant year month day hour minute second nano ahead shift else none

theorem fraction_digits {m : ℕ} (h : m < 1000) (cs : List Char) :
    fraction ('.' :: (digits 3 m ++ 'Z' :: cs)) = some (m * 1000000, 'Z' :: cs) := by
  have h₁ : m / 100 < 10 := by omega
  have h₂ : m % 100 / 10 < 10 := by omega
  have h₃ : m % 100 % 10 < 10 := by omega
  have hz : ('Z').isDigit = false := by decide
  have hdigits : digits 3 m = [Nat.digitChar (m / 100), Nat.digitChar (m % 100 / 10),
      Nat.digitChar (m % 100 % 10)] := by
    simp [digits]
  simp only [hdigits, List.cons_append, List.nil_append, fraction, isDigit_digitChar h₁, if_true,
    nanos, isDigit_digitChar h₂, isDigit_digitChar h₃, hz, digitValue_digitChar h₁,
    digitValue_digitChar h₂, digitValue_digitChar h₃, Option.some.injEq, Prod.mk.injEq]
  simp
  omega

theorem instant_fields {t : Instant} (ht : t.FourDigit) :
    instant t.date.year.toNat t.date.month t.date.day t.hour t.minute t.second
      (t.nano / 1000000 * 1000000) true 0 = some t.floorMillis := by
  have hyear : ((t.date.year.toNat : ℕ) : ℤ) = t.date.year := Int.toNat_of_nonneg ht.1
  obtain ⟨hh, hmi⟩ := And.intro t.hour.isLt t.minute.isLt
  obtain ⟨hs, hn⟩ := And.intro t.second.isLt t.nano.isLt
  unfold instant
  rw [dif_pos ⟨⟨t.date.month_pos, t.date.month_le⟩, t.date.day_pos,
    by rw [hyear]; exact t.date.day_le⟩, dif_pos ⟨⟨hh, hmi⟩, hs, by omega⟩]
  simp only [toUtc, if_true, Nat.zero_le, Nat.sub_zero]
  rw [dif_pos (by omega)]
  refine congrArg some ?_
  ext <;> simp only [Instant.floorMillis, hyear] <;> omega

/-- The text of an instant is read back, cut to milliseconds. -/
theorem parse_text {t : Instant} (ht : t.FourDigit) : parse t.text = some t.floorMillis := by
  obtain ⟨hy₀, hy⟩ := ht
  obtain ⟨hmo, hd, hh⟩ := And.intro t.date.month_le (And.intro t.date.day_lt t.hour.isLt)
  obtain ⟨hmi, hs, hn⟩ := And.intro t.minute.isLt (And.intro t.second.isLt t.nano.isLt)
  simp only [parse, Instant.text, String.toList_ofList, Option.bind_eq_bind]
  rw [number_digits (by omega), Option.bind_some, char_cons (by decide), Option.bind_some]
  rw [number_digits (by omega), Option.bind_some, char_cons (by decide), Option.bind_some]
  rw [number_digits (by omega), Option.bind_some, char_cons (by decide), Option.bind_some]
  rw [number_digits (by omega), Option.bind_some, char_cons (by decide), Option.bind_some]
  rw [number_digits (by omega), Option.bind_some, char_cons (by decide), Option.bind_some]
  rw [number_digits (by omega), Option.bind_some, fraction_digits (by omega), Option.bind_some]
  simp only [Option.bind_some, offset, true_or, if_true]
  exact instant_fields ⟨hy₀, hy⟩

end Wiii.Rfc3339
