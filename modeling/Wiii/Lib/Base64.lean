import Mathlib.Data.List.Nodup

/-!
# URL-safe base64 without padding

Three bytes are four digits of six bits; a last group of one or two bytes has two or three digits, and the bits of its
last digit that are left over are zero.  `decode` does not look at these bits, so that a text is read back from what it
decodes to only if they are zero (`encode_eq_iff`).
-/

namespace Wiii.Base64

/-! ## Digits -/

def encodeDigits : List UInt8 → List (Fin 64)
  | [] => []
  | [a] => [Fin.ofNat 64 (a.toNat / 4), Fin.ofNat 64 (a.toNat % 4 * 16)]
  | [a, b] => [Fin.ofNat 64 (a.toNat / 4), Fin.ofNat 64 (a.toNat % 4 * 16 + b.toNat / 16),
      Fin.ofNat 64 (b.toNat % 16 * 4)]
  | a :: b :: c :: rest => Fin.ofNat 64 (a.toNat / 4) :: Fin.ofNat 64 (a.toNat % 4 * 16 + b.toNat / 16) ::
      Fin.ofNat 64 (b.toNat % 16 * 4 + c.toNat / 64) :: Fin.ofNat 64 (c.toNat % 64) :: encodeDigits rest

/-- A single last digit is no byte. -/
def decodeDigits : List (Fin 64) → Option (List UInt8)
  | [] => some []
  | [_] => none
  | [w, x] => some [UInt8.ofNat (w.val * 4 + x.val / 16)]
  | [w, x, y] => some [UInt8.ofNat (w.val * 4 + x.val / 16), UInt8.ofNat (x.val % 16 * 16 + y.val / 4)]
  | w :: x :: y :: z :: rest => (decodeDigits rest).map fun bytes =>
      UInt8.ofNat (w.val * 4 + x.val / 16) :: UInt8.ofNat (x.val % 16 * 16 + y.val / 4) ::
        UInt8.ofNat (y.val % 4 * 64 + z.val) :: bytes

/-- The bits of the last digit that belong to no byte are zero. -/
def noStrayBits : List (Fin 64) → Bool
  | [] => true
  | [_] => false
  | [_, x] => decide (x.val % 16 = 0)
  | [_, _, y] => decide (y.val % 4 = 0)
  | _ :: _ :: _ :: _ :: rest => noStrayBits rest

theorem decodeDigits_encodeDigits (bytes : List UInt8) : decodeDigits (encodeDigits bytes) = some bytes := by
  induction bytes using encodeDigits.induct with
  | case1 => rfl
  | case2 a =>
    have ha := a.toNat_lt
    simp only [encodeDigits, decodeDigits, Option.some.injEq, List.cons.injEq, and_true]
    apply UInt8.toNat_inj.1
    simp only [Fin.ofNat, UInt8.toNat_ofNat']
    omega
  | case3 a b =>
    have ha := a.toNat_lt
    have hb := b.toNat_lt
    simp only [encodeDigits, decodeDigits, Option.some.injEq, List.cons.injEq, and_true]
    constructor <;> apply UInt8.toNat_inj.1 <;> simp only [Fin.ofNat, UInt8.toNat_ofNat'] <;> omega
  | case4 a b c rest ih =>
    have ha := a.toNat_lt
    have hb := b.toNat_lt
    have hc := c.toNat_lt
    simp only [encodeDigits, decodeDigits, ih, Option.map_some, Option.some.injEq, List.cons.injEq, and_true]
    refine ⟨?_, ?_, ?_⟩ <;> apply UInt8.toNat_inj.1 <;> simp only [Fin.ofNat, UInt8.toNat_ofNat'] <;> omega

theorem noStrayBits_encodeDigits (bytes : List UInt8) : noStrayBits (encodeDigits bytes) = true := by
  induction bytes using encodeDigits.induct with
  | case1 => rfl
  | case2 a =>
    simp only [encodeDigits, noStrayBits, Fin.ofNat, decide_eq_true_eq]
    omega
  | case3 a b =>
    simp only [encodeDigits, noStrayBits, Fin.ofNat, decide_eq_true_eq]
    omega
  | case4 a b c rest ih => exact ih

theorem encodeDigits_of_decodeDigits {digits : List (Fin 64)} {bytes : List UInt8}
    (hd : decodeDigits digits = some bytes) (hn : noStrayBits digits = true) : encodeDigits bytes = digits := by
  induction digits using decodeDigits.induct generalizing bytes with
  | case1 =>
    cases hd
    rfl
  | case2 w => cases hd
  | case3 w x =>
    cases hd
    have hx := of_decide_eq_true hn
    simp only [encodeDigits, List.cons.injEq, and_true]
    constructor <;> apply Fin.ext <;> simp only [Fin.ofNat, UInt8.toNat_ofNat'] <;> omega
  | case4 w x y =>
    cases hd
    have hy := of_decide_eq_true hn
    simp only [encodeDigits, List.cons.injEq, and_true]
    refine ⟨?_, ?_, ?_⟩ <;> apply Fin.ext <;> simp only [Fin.ofNat, UInt8.toNat_ofNat'] <;> omega
  | case5 w x y z rest ih =>
    obtain ⟨tail, htail, rfl⟩ := Option.map_eq_some_iff.1 hd
    simp only [encodeDigits, ih htail hn, List.cons.injEq, and_true]
    refine ⟨?_, ?_, ?_, ?_⟩ <;> apply Fin.ext <;> simp only [Fin.ofNat, UInt8.toNat_ofNat'] <;> omega

theorem length_encodeDigits (bytes : List UInt8) :
    (encodeDigits bytes).length = (4 * bytes.length + 2) / 3 := by
  induction bytes using encodeDigits.induct with
  | case1 => rfl
  | case2 a => simp [encodeDigits]
  | case3 a b => simp [encodeDigits]
  | case4 a b c rest ih =>
    simp only [encodeDigits, List.length_cons, ih]
    omega

/-! ## Characters -/

def alphabet : List Char := "ABCDEFGHIJKLMNOPQRSTUVWXYZabcdefghijklmnopqrstuvwxyz0123456789-_".toList

theorem alphabet_eq : alphabet = ['A', 'B', 'C', 'D', 'E', 'F', 'G', 'H', 'I', 'J', 'K', 'L', 'M', 'N', 'O', 'P', 'Q',
    'R', 'S', 'T', 'U', 'V', 'W', 'X', 'Y', 'Z', 'a', 'b', 'c', 'd', 'e', 'f', 'g', 'h', 'i', 'j', 'k', 'l', 'm', 'n',
    'o', 'p', 'q', 'r', 's', 't', 'u', 'v', 'w', 'x', 'y', 'z', '0', '1', '2', '3', '4', '5', '6', '7', '8', '9', '-',
    '_'] := String.toList_ofList

theorem length_alphabet : alphabet.length = 64 := by
  rw [alphabet_eq]
  rfl

theorem nodup_alphabet : alphabet.Nodup := by
  rw [alphabet_eq]
  decide +kernel

def ofDigit (d : Fin 64) : Char := alphabet.get (d.cast length_alphabet.symm)

def digit? (c : Char) : Option (Fin 64) := (alphabet.finIdxOf? c).map (Fin.cast length_alphabet)

theorem digit?_ofDigit (d : Fin 64) : digit? (ofDigit d) = some d := by
  have hfind : alphabet.finIdxOf? (alphabet.get (d.cast length_alphabet.symm)) =
      some (d.cast length_alphabet.symm) := by
    rw [List.finIdxOf?_eq_some_iff]
    exact ⟨rfl, fun j hj heq => Fin.ne_of_lt hj (List.nodup_iff_injective_get.1 nodup_alphabet heq)⟩
  rw [digit?, ofDigit, hfind]
  rfl

theorem ofDigit_of_digit? {c : Char} {d : Fin 64} (h : digit? c = some d) : ofDigit d = c := by
  obtain ⟨i, hi, rfl⟩ := Option.map_eq_some_iff.1 h
  exact (List.finIdxOf?_eq_some_iff.1 hi).1

def encode (bytes : List UInt8) : List Char := (encodeDigits bytes).map ofDigit

def digits? (token : List Char) : Option (List (Fin 64)) := token.mapM digit?

def decode (token : List Char) : Option (List UInt8) := (digits? token).bind decodeDigits

/-- The token is what its bytes are encoded as. -/
def isCanonical (token : List Char) : Bool := (digits? token).any noStrayBits

theorem digits?_cons (c : Char) (token : List Char) :
    digits? (c :: token) = (digit? c).bind fun d => (digits? token).map (d :: ·) := by
  rw [digits?, List.mapM_cons]
  cases digit? c with
  | none => rfl
  | some d =>
    show ((token.mapM digit?).bind fun ds => some (d :: ds)) = _
    rw [Option.bind_some, Option.map_eq_bind]
    rfl

theorem digits?_ofDigit (ds : List (Fin 64)) : digits? (ds.map ofDigit) = some ds := by
  induction ds with
  | nil => rfl
  | cons d ds ih => rw [List.map_cons, digits?_cons, digit?_ofDigit, ih, Option.bind_some, Option.map_some]

theorem ofDigit_of_digits? {token : List Char} {ds : List (Fin 64)} (h : digits? token = some ds) :
    ds.map ofDigit = token := by
  induction token generalizing ds with
  | nil =>
    cases h
    rfl
  | cons c token ih =>
    rw [digits?_cons] at h
    obtain ⟨d, hd, h⟩ := Option.bind_eq_some_iff.1 h
    obtain ⟨ds', hds, rfl⟩ := Option.map_eq_some_iff.1 h
    rw [List.map_cons, ofDigit_of_digit? hd, ih hds]

theorem decode_encode (bytes : List UInt8) : decode (encode bytes) = some bytes := by
  rw [decode, encode, digits?_ofDigit]
  exact decodeDigits_encodeDigits bytes

theorem length_encode (bytes : List UInt8) : (encode bytes).length = (4 * bytes.length + 2) / 3 := by
  rw [encode, List.length_map, length_encodeDigits]

theorem digit?_of_mem_encode {bytes : List UInt8} {c : Char} (h : c ∈ encode bytes) : (digit? c).isSome := by
  obtain ⟨d, -, rfl⟩ := List.mem_map.1 h
  rw [digit?_ofDigit]
  rfl

theorem encode_eq_iff {token : List Char} {bytes : List UInt8} (h : decode token = some bytes) :
    encode bytes = token ↔ isCanonical token = true := by
  obtain ⟨ds, hds, hdecode⟩ := Option.bind_eq_some_iff.1 h
  rw [isCanonical, hds, Option.any_some]
  constructor
  · intro heq
    have hdigits : digits? token = some (encodeDigits bytes) := by rw [← heq, encode, digits?_ofDigit]
    rw [hds] at hdigits
    cases hdigits
    exact noStrayBits_encodeDigits bytes
  · intro hn
    rw [encode, encodeDigits_of_decodeDigits hdecode hn]
    exact ofDigit_of_digits? hds

/-! ## The standard alphabet, with padding -/

def toStandard (c : Char) : Char := if c = '-' then '+' else if c = '_' then '/' else c

def ofStandard (c : Char) : Char := if c = '+' then '-' else if c = '/' then '_' else c

/-- Groups of four digits, the last one filled up. -/
def encodePadded (bytes : List UInt8) : List Char :=
  let digits := (encode bytes).map toStandard
  digits ++ List.replicate ((4 - digits.length % 4) % 4) '='

def decodePadded (text : List Char) : Option (List UInt8) := decode ((text.filter (· ≠ '=')).map ofStandard)

theorem standard_of_mem_encode {bytes : List UInt8} {c : Char} (h : c ∈ encode bytes) :
    toStandard c ≠ '=' ∧ ofStandard (toStandard c) = c := by
  have hall : alphabet.all (fun c => toStandard c ≠ '=' ∧ ofStandard (toStandard c) = c) = true := by
    rw [alphabet_eq]
    rfl
  obtain ⟨d, -, rfl⟩ := List.mem_map.1 h
  exact of_decide_eq_true (List.all_eq_true.1 hall _ (List.get_mem _ _))

theorem decodePadded_encodePadded (bytes : List UInt8) : decodePadded (encodePadded bytes) = some bytes := by
  have hmap : (encode bytes).map (ofStandard ∘ toStandard) = encode bytes :=
    (List.map_congr_left fun c hc => (standard_of_mem_encode hc).2).trans (List.map_id _)
  rw [decodePadded, encodePadded, List.filter_append, List.filter_eq_self.2, List.filter_eq_nil_iff.2,
    List.append_nil, List.map_map, hmap]
  · exact decode_encode bytes
  · intro c hc
    rw [List.eq_of_mem_replicate hc]
    decide
  · intro c hc
    obtain ⟨d, hd, rfl⟩ := List.mem_map.1 hc
    exact decide_eq_true (standard_of_mem_encode hd).1

end Wiii.Base64
