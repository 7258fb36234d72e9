import Mathlib.Data.String.Basic

/-!
# Civil instants and their text

An `Instant` is a `Date` of the civil calendar and a time of day in UTC; a second of 60 is a leap second.
`Instant.text` writes it in the form `YYYY-MM-DDTHH:MM:SS.mmmZ`.  Texts of this form are ordered as the instants they
denote, cut to milliseconds (`Instant.text_lt_iff`).
-/

namespace Wiii

/-! ## Decimal fields of a fixed width -/

/-- The last `w` decimal digits of a number, most significant first. -/
def digits : ℕ → ℕ → List Char
  | 0, _ => []
  | w + 1, n => Nat.digitChar (n / 10 ^ w) :: digits w (n % 10 ^ w)

theorem digitChar_lt_iff {i j : ℕ} (hi : i < 10) (hj : j < 10) :
    Nat.digitChar i < Nat.digitChar j ↔ i < j := by
  have h : ∀ i j : Fin 10, Nat.digitChar i < Nat.digitChar j ↔ i.val < j.val := by decide
  exact h ⟨i, hi⟩ ⟨j, hj⟩

theorem digitChar_inj {i j : ℕ} (hi : i < 10) (hj : j < 10) :
    Nat.digitChar i = Nat.digitChar j ↔ i = j := by
  have h : ∀ i j : Fin 10, Nat.digitChar i = Nat.digitChar j ↔ i.val = j.val := by decide
  exact h ⟨i, hi⟩ ⟨j, hj⟩

theorem lt_iff_div_mod {n m p : ℕ} :
    n < m ↔ n / p < m / p ∨ n / p = m / p ∧ n % p < m % p := by
  constructor
  · intro h
    rcases (Nat.div_le_div_right h.le : n / p ≤ m / p).lt_or_eq with hq | hq
    · exact .inl hq
    · refine .inr ⟨hq, ?_⟩
      have hn := Nat.div_add_mod n p
      have hm := Nat.div_add_mod m p
      rw [hq] at hn
      omega
  · rintro (h | ⟨hq, hr⟩)
    · exact lt_of_not_ge fun hle => absurd (Nat.div_le_div_right hle : m / p ≤ n / p) (not_le.2 h)
    · have hn := Nat.div_add_mod n p
      have hm := Nat.div_add_mod m p
      rw [hq] at hn
      omega

/-- Decimals of one width are ordered as the numbers they write; then the rest decides. -/
theorem digits_append_lt_iff {w n m : ℕ} {a b : List Char} (hn : n < 10 ^ w) (hm : m < 10 ^ w) :
    digits w n ++ a < digits w m ++ b ↔ n < m ∨ n = m ∧ a < b := by
  induction w generalizing n m with
  | zero =>
    obtain rfl : n = 0 := by simpa using hn
    obtain rfl : m = 0 := by simpa using hm
    simp [digits]
  | succ w ih =>
    rw [pow_succ] at hn hm
    have hp : 0 < 10 ^ w := Nat.pow_pos (by decide)
    have hdn : n / 10 ^ w < 10 := Nat.div_lt_of_lt_mul hn
    have hdm : m / 10 ^ w < 10 := Nat.div_lt_of_lt_mul hm
    have heq : n = m ↔ n / 10 ^ w = m / 10 ^ w ∧ n % 10 ^ w = m % 10 ^ w := by
      constructor
      · rintro rfl
        exact ⟨rfl, rfl⟩
      · rintro ⟨hq, hr⟩
        rw [← Nat.div_add_mod n (10 ^ w), ← Nat.div_add_mod m (10 ^ w), hq, hr]
    simp only [digits, List.cons_append]
    rw [List.cons_lt_cons_iff, digitChar_lt_iff hdn hdm, digitChar_inj hdn hdm,
      ih (Nat.mod_lt _ hp) (Nat.mod_lt _ hp), heq, @lt_iff_div_mod n m (10 ^ w)]
    tauto

/-! ## Dates -/

def isLeapYear (year : ℤ) : Bool :=
  decide (year % 4 = 0) && (!decide (year % 100 = 0) || decide (year % 400 = 0))

def daysIn (year : ℤ) (month : ℕ) : ℕ :=
  if month = 2 then if isLeapYear year then 29 else 28
  else if month = 4 ∨ month = 6 ∨ month = 9 ∨ month = 11 then 30
  else 31

theorem daysIn_pos (year : ℤ) (month : ℕ) : 1 ≤ daysIn year month := by
  unfold daysIn
  split_ifs <;> decide

theorem daysIn_lt (year : ℤ) (month : ℕ) : daysIn year month < 32 := by
  unfold daysIn
  split_ifs <;> decide

@[ext] structure Date where
  year : ℤ
  month : ℕ
  day : ℕ
  month_pos : 1 ≤ month
  month_le : month ≤ 12
  day_pos : 1 ≤ day
  day_le : day ≤ daysIn year month
  deriving DecidableEq

namespace Date

theorem day_lt (d : Date) : d.day < 32 := d.day_le.trans_lt (daysIn_lt _ _)

def next (d : Date) : Date :=
  if h : d.day < daysIn d.year d.month then
    ⟨d.year, d.month, d.day + 1, d.month_pos, d.month_le, by omega, h⟩
  else if h' : d.month < 12 then
    ⟨d.year, d.month + 1, 1, by omega, h', le_refl 1, daysIn_pos _ _⟩
  else ⟨d.year + 1, 1, 1, le_refl 1, by decide, le_refl 1, daysIn_pos _ _⟩

def prev (d : Date) : Date :=
  if h : 1 < d.day then
    ⟨d.year, d.month, d.day - 1, d.month_pos, d.month_le, by omega,
      (Nat.sub_le _ _).trans d.day_le⟩
  else if h' : 1 < d.month then
    ⟨d.year, d.month - 1, daysIn d.year (d.month - 1), by omega,
      (Nat.sub_le _ _).trans d.month_le, daysIn_pos _ _, le_refl _⟩
  else ⟨d.year - 1, 12, 31, by decide, le_refl 12, by decide, by simp [daysIn]⟩

end Date

/-! ## Instants -/

instance neZeroHours : @NeZero ℕ Zero.ofOfNat0 24 := ⟨Nat.succ_ne_zero _⟩
instance neZeroMinutes : @NeZero ℕ Zero.ofOfNat0 60 := ⟨Nat.succ_ne_zero _⟩
instance neZeroSeconds : @NeZero ℕ Zero.ofOfNat0 61 := ⟨Nat.succ_ne_zero _⟩
instance neZeroNanos : @NeZero ℕ Zero.ofOfNat0 1000000000 := ⟨Nat.succ_ne_zero _⟩

@[ext] structure Instant where
  date : Date
  hour : Fin 24
  minute : Fin 60
  second : Fin 61
  nano : Fin 1000000000
  deriving DecidableEq

namespace Instant

def rank (t : Instant) : ℤ :=
  (((((t.date.year * 13 + t.date.month) * 32 + t.date.day) * 24 + t.hour) * 60 + t.minute) * 61 +
    t.second) * 1000000000 + t.nano

theorem rank_injective : Function.Injective rank := by
  intro t u h
  obtain ⟨hmo, hd, hh⟩ := And.intro t.date.month_le (And.intro t.date.day_lt t.hour.isLt)
  obtain ⟨hmi, hs, hn⟩ := And.intro t.minute.isLt (And.intro t.second.isLt t.nano.isLt)
  obtain ⟨hmo', hd', hh'⟩ := And.intro u.date.month_le (And.intro u.date.day_lt u.hour.isLt)
  obtain ⟨hmi', hs', hn'⟩ := And.intro u.minute.isLt (And.intro u.second.isLt u.nano.isLt)
  simp only [rank] at h
  ext <;> omega

instance : LinearOrder Instant := LinearOrder.lift' rank rank_injective

theorem le_iff {t u : Instant} : t ≤ u ↔ t.rank ≤ u.rank := Iff.rfl

theorem lt_iff {t u : Instant} : t < u ↔ t.rank < u.rank := Iff.rfl

def plusSeconds (t : Instant) (seconds : ℕ) : Instant :=
  let total := (t.hour.val * 60 + t.minute) * 60 + t.second + seconds
  { date := Date.next^[total / 86400] t.date
    hour := ⟨total % 86400 / 3600, by omega⟩
    minute := ⟨total % 3600 / 60, by omega⟩
    second := ⟨total % 60, by omega⟩
    nano := t.nano }

/-- The instant cut to milliseconds. -/
def floorMillis (t : Instant) : Instant :=
  { t with nano := ⟨t.nano / 1000000 * 1000000, by have := t.nano.isLt; omega⟩ }

theorem floorMillis_le (t : Instant) : t.floorMillis ≤ t := by
  rw [le_iff]
  simp only [rank, floorMillis]
  omega

theorem floorMillis_mono {t u : Instant} (h : t ≤ u) : t.floorMillis ≤ u.floorMillis := by
  obtain ⟨hmo, hd, hh⟩ := And.intro t.date.month_le (And.intro t.date.day_lt t.hour.isLt)
  obtain ⟨hmi, hs, hn⟩ := And.intro t.minute.isLt (And.intro t.second.isLt t.nano.isLt)
  obtain ⟨hmo', hd', hh'⟩ := And.intro u.date.month_le (And.intro u.date.day_lt u.hour.isLt)
  obtain ⟨hmi', hs', hn'⟩ := And.intro u.minute.isLt (And.intro u.second.isLt u.nano.isLt)
  rw [le_iff] at h ⊢
  simp only [rank, floorMillis] at h ⊢
  omega

@[simp] theorem floorMillis_floorMillis (t : Instant) :
    t.floorMillis.floorMillis = t.floorMillis := by
  ext <;> simp [floorMillis]

theorem lt_of_floorMillis_lt {t u : Instant} (h : t.floorMillis < u.floorMillis) :
    t < u.floorMillis := by
  refine lt_of_not_ge fun hle => absurd h (not_lt.2 ?_)
  simpa using floorMillis_mono hle

/-! ## The text of an instant -/

def FourDigit (t : Instant) : Prop := 0 ≤ t.date.year ∧ t.date.year ≤ 9999

instance (t : Instant) : Decidable t.FourDigit := inferInstanceAs (Decidable (_ ∧ _))

/-- `YYYY-MM-DDTHH:MM:SS.mmmZ`. -/
def text (t : Instant) : String :=
  .ofList <| digits 4 t.date.year.toNat ++ '-' :: (digits 2 t.date.month ++
    '-' :: (digits 2 t.date.day ++ 'T' :: (digits 2 t.hour ++ ':' :: (digits 2 t.minute ++
    ':' :: (digits 2 t.second ++ '.' :: (digits 3 (t.nano / 1000000) ++ ['Z']))))))

/-- Texts are ordered as the instants cut to milliseconds. -/
theorem text_lt_iff {t u : Instant} (ht : t.FourDigit) (hu : u.FourDigit) :
    t.text < u.text ↔ t.floorMillis < u.floorMillis := by
  obtain ⟨hy₀, hy⟩ := ht
  obtain ⟨hy₀', hy'⟩ := hu
  obtain ⟨hmo, hd, hh⟩ := And.intro t.date.month_le (And.intro t.date.day_lt t.hour.isLt)
  obtain ⟨hmi, hs, hn⟩ := And.intro t.minute.isLt (And.intro t.second.isLt t.nano.isLt)
  obtain ⟨hmo', hd', hh'⟩ := And.intro u.date.month_le (And.intro u.date.day_lt u.hour.isLt)
  obtain ⟨hmi', hs', hn'⟩ := And.intro u.minute.isLt (And.intro u.second.isLt u.nano.isLt)
  rw [String.lt_iff_toList_lt, text, text, String.toList_ofList, String.toList_ofList]
  rw [digits_append_lt_iff (by omega) (by omega), List.cons_lt_cons_self,
    digits_append_lt_iff (by omega) (by omega), List.cons_lt_cons_self,
    digits_append_lt_iff (by omega) (by omega), List.cons_lt_cons_self,
    digits_append_lt_iff (by omega) (by omega), List.cons_lt_cons_self,
    digits_append_lt_iff (by omega) (by omega), List.cons_lt_cons_self,
    digits_append_lt_iff (by omega) (by omega), List.cons_lt_cons_self,
    digits_append_lt_iff (by omega) (by omega), lt_iff]
  simp only [rank, floorMillis, lt_irrefl, and_false, or_false]
  omega

theorem text_le_iff {t u : Instant} (ht : t.FourDigit) (hu : u.FourDigit) :
    t.text ≤ u.text ↔ t.floorMillis ≤ u.floorMillis := by
  rw [← not_lt, text_lt_iff hu ht, not_lt]

theorem ofList_lt_text {c : Char} (hc : c < '0') (rest : List Char) (t : Instant)
    (ht : t.FourDigit) : String.ofList (c :: rest) < t.text := by
  have h : ∀ i : Fin 10, '0' ≤ Nat.digitChar i := by decide
  have hlt : t.date.year.toNat / 10 ^ 3 < 10 := by
    obtain ⟨h₀, h₁⟩ := ht
    omega
  rw [String.lt_iff_toList_lt, text, String.toList_ofList, String.toList_ofList, digits,
    List.cons_append, List.cons_lt_cons_iff]
  exact .inl (lt_of_lt_of_le hc (h ⟨_, hlt⟩))

end Instant

end Wiii
