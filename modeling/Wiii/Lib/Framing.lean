import Mathlib.Algebra.Order.Ring.Nat
import Mathlib.Data.List.Basic

/-!
# Length-prefixed framing

`frame` writes each byte string after its length in eight little-endian bytes, `frameBe` after its
length in eight big-endian bytes.  Parts of less than `2 ^ 64` bytes can be read back, so the framing
of a list of parts determines it (`frame_injective`, `frameBe_injective`).
-/

namespace Wiii

def leBytes (n : ℕ) : List UInt8 := (List.range 8).map fun i => UInt8.ofNat (n / 256 ^ i)

def frame (parts : List (List UInt8)) : List UInt8 :=
  parts.flatMap fun part => leBytes part.length ++ part

def beBytes (n : ℕ) : List UInt8 := (leBytes n).reverse

def frameWith (header : ℕ → List UInt8) (parts : List (List UInt8)) : List UInt8 :=
  parts.flatMap fun part => header part.length ++ part

def frameBe (parts : List (List UInt8)) : List UInt8 := frameWith beBytes parts

theorem length_leBytes (n : ℕ) : (leBytes n).length = 8 := by
  simp [leBytes]

theorem eq_of_digits {k n m : ℕ} (hn : n < 256 ^ k) (hm : m < 256 ^ k)
    (h : ∀ i < k, n / 256 ^ i % 256 = m / 256 ^ i % 256) : n = m := by
  induction k generalizing n m with
  | zero =>
    rw [pow_zero] at hn hm
    omega
  | succ k ih =>
    rw [pow_succ'] at hn hm
    have high : n / 256 = m / 256 := by
      refine ih (Nat.div_lt_of_lt_mul hn) (Nat.div_lt_of_lt_mul hm) fun i hi => ?_
      have hd := h (i + 1) (Nat.succ_lt_succ hi)
      rwa [pow_succ', ← Nat.div_div_eq_div_mul, ← Nat.div_div_eq_div_mul] at hd
    have low := h 0 (Nat.succ_pos k)
    rw [pow_zero, Nat.div_one, Nat.div_one] at low
    omega

theorem leBytes_injective {n m : ℕ} (hn : n < 2 ^ 64) (hm : m < 2 ^ 64)
    (h : leBytes n = leBytes m) : n = m := by
  have e : (2 : ℕ) ^ 64 = 256 ^ 8 := by decide
  refine eq_of_digits (k := 8) (e ▸ hn) (e ▸ hm) fun i hi => ?_
  have hget := congrArg (fun l => (l.getD i 0).toNat) h
  simpa [leBytes, List.getD_eq_getElem?_getD, hi] using hget

theorem beBytes_injective {n m : ℕ} (hn : n < 2 ^ 64) (hm : m < 2 ^ 64)
    (h : beBytes n = beBytes m) : n = m :=
  leBytes_injective hn hm (List.reverse_injective h)

/-- Headers of one length that determine the length of a part determine the parts. -/
theorem frameWith_injective {header : ℕ → List UInt8} {bound k : ℕ} (hk : 0 < k)
    (width : ∀ n, (header n).length = k)
    (inj : ∀ n m, n < bound → m < bound → header n = header m → n = m)
    {as bs : List (List UInt8)} (ha : ∀ a ∈ as, a.length < bound) (hb : ∀ b ∈ bs, b.length < bound)
    (h : frameWith header as = frameWith header bs) : as = bs := by
  induction as generalizing bs with
  | nil =>
    cases bs with
    | nil => rfl
    | cons b bs =>
      have hlen := congrArg List.length h
      simp [frameWith, width] at hlen
      omega
  | cons a as ih =>
    cases bs with
    | nil =>
      have hlen := congrArg List.length h
      simp [frameWith, width] at hlen
      omega
    | cons b bs =>
      have h : header a.length ++ (a ++ frameWith header as) =
          header b.length ++ (b ++ frameWith header bs) := by
        simpa [frameWith] using h
      -- the length comes first, then as many bytes
      obtain ⟨hlen, h⟩ := List.append_inj h (by rw [width, width])
      have hab := inj _ _ (ha a List.mem_cons_self) (hb b List.mem_cons_self) hlen
      obtain ⟨rfl, hrest⟩ := List.append_inj h hab
      rw [ih (fun c hc => ha c (List.mem_cons_of_mem _ hc))
        (fun c hc => hb c (List.mem_cons_of_mem _ hc)) hrest]

theorem frame_injective {as bs : List (List UInt8)} (ha : ∀ a ∈ as, a.length < 2 ^ 64)
    (hb : ∀ b ∈ bs, b.length < 2 ^ 64) (h : frame as = frame bs) : as = bs :=
  frameWith_injective (k := 8) (by decide) length_leBytes (fun _ _ => leBytes_injective) ha hb h

theorem frameBe_injective {as bs : List (List UInt8)} (ha : ∀ a ∈ as, a.length < 2 ^ 64)
    (hb : ∀ b ∈ bs, b.length < 2 ^ 64) (h : frameBe as = frameBe bs) : as = bs :=
  frameWith_injective (k := 8) (by decide) (fun n => by rw [beBytes, List.length_reverse, length_leBytes])
    (fun _ _ => beBytes_injective) ha hb h

end Wiii
