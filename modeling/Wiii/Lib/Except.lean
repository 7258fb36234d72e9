import Mathlib.Tactic.Common

/-!
# Bodies that may fail

What a body of `Except` did when it returned: each of its steps returned.
-/

namespace Wiii

variable {ε α β : Type}

theorem bind_ok_iff {m : Except ε α} {f : α → Except ε β} {b : β} :
    (m >>= f) = .ok b ↔ ∃ a, m = .ok a ∧ f a = .ok b := by
  cases m with
  | error e => simp [bind, Except.bind]
  | ok a => simp [bind, Except.bind]

theorem bind_unit_ok_iff {m : Except ε Unit} {f : Unit → Except ε β} {b : β} :
    (m >>= f) = .ok b ↔ m = .ok () ∧ f () = .ok b := by
  rw [bind_ok_iff]
  constructor
  · rintro ⟨⟨⟩, h⟩
    exact h
  · intro h
    exact ⟨(), h⟩

theorem map_ok_iff {m : Except ε α} {f : α → β} {b : β} :
    m.map f = .ok b ↔ ∃ a, m = .ok a ∧ f a = b := by
  cases m with
  | error e => simp [Except.map]
  | ok a => simp [Except.map]

theorem ite_error_ok_iff {c : Prop} [Decidable c] {e : ε} {m : Except ε α} {a : α} :
    (if c then .error e else m) = .ok a ↔ ¬ c ∧ m = .ok a := by
  by_cases hc : c <;> simp [hc]

theorem exists_error_iff {m : Except ε α} : (∃ e, m = .error e) ↔ ∀ a, m ≠ .ok a := by
  cases m <;> simp

end Wiii
