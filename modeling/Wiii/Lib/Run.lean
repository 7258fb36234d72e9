import Mathlib.Logic.Relation
import Mathlib.Tactic.Common

/-!
# Runs of a labelled system

`Run step s as t` is a run of the labelled step relation `step` from `s` to `t` with the labels `as` in order.  The
rules below package the inductions that safety proofs need: an invariant (`Run.invariant`), a preorder that every step
respects (`Run.lift`), the first step at which a predicate stops holding (`Run.exists_step_of_not`), and relations
between the outputs of a run (`Run.pairwise_outputs`).
-/

namespace Wiii

variable {σ ℓ ε : Type} {step : σ → ℓ → σ → Prop}

inductive Run (step : σ → ℓ → σ → Prop) : σ → List ℓ → σ → Prop
  | nil (s : σ) : Run step s [] s
  | cons {s t u : σ} {a : ℓ} {as : List ℓ} : step s a t → Run step t as u → Run step s (a :: as) u

/-- The states some run from `s` ends in. -/
def Reaches (step : σ → ℓ → σ → Prop) (s t : σ) : Prop := ∃ as, Run step s as t

/-- The steps that meet the condition `c` on their start state and label. -/
def Guarded (step : σ → ℓ → σ → Prop) (c : σ → ℓ → Prop) (s : σ) (a : ℓ) (t : σ) : Prop :=
  step s a t ∧ c s a

namespace Run

theorem single {s t : σ} {a : ℓ} (h : step s a t) : Run step s [a] t := cons h (nil t)

theorem append {s t u : σ} {as bs : List ℓ} (h₁ : Run step s as t) (h₂ : Run step t bs u) :
    Run step s (as ++ bs) u := by
  induction h₁ with
  | nil _ => exact h₂
  | cons h _ ih => exact cons h (ih h₂)

theorem snoc {s t u : σ} {as : List ℓ} {a : ℓ} (h₁ : Run step s as t) (h₂ : step t a u) :
    Run step s (as ++ [a]) u :=
  h₁.append (single h₂)

theorem mono {step' : σ → ℓ → σ → Prop} (hs : ∀ s a t, step s a t → step' s a t) {s t : σ}
    {as : List ℓ} (h : Run step s as t) : Run step' s as t := by
  induction h with
  | nil s => exact nil s
  | cons h _ ih => exact cons (hs _ _ _ h) ih

theorem invariant {I : σ → Prop} (hI : ∀ s a t, I s → step s a t → I t) {s t : σ} {as : List ℓ}
    (h : Run step s as t) (hs : I s) : I t := by
  induction h with
  | nil _ => exact hs
  | cons h _ ih => exact ih (hI _ _ _ hs h)

theorem under {I : σ → Prop} (hI : ∀ s a t, I s → step s a t → I t) {s t : σ} {as : List ℓ}
    (h : Run step s as t) (hs : I s) : Run (Guarded step fun s _ => I s) s as t := by
  induction h with
  | nil s => exact nil s
  | cons h _ ih => exact cons ⟨h, hs⟩ (ih (hI _ _ _ hs h))

theorem lift {I : σ → Prop} {R : σ → σ → Prop} (hI : ∀ s a t, I s → step s a t → I t)
    (refl : ∀ s, R s s) (trans : ∀ s t u, R s t → R t u → R s u)
    (hR : ∀ s a t, I s → step s a t → R s t) {s t : σ} {as : List ℓ}
    (h : Run step s as t) (hs : I s) : R s t := by
  induction h with
  | nil s => exact refl s
  | cons h _ ih => exact trans _ _ _ (hR _ _ _ hs h) (ih (hI _ _ _ hs h))

theorem exists_step_of_not {P : σ → Prop} {s t : σ} {as : List ℓ} (h : Run step s as t)
    (hs : P s) (ht : ¬ P t) :
    ∃ u v a bs cs, Run step s bs u ∧ step u a v ∧ Run step v cs t ∧ as = bs ++ a :: cs ∧
      P u ∧ ¬ P v := by
  induction h with
  | nil _ => exact absurd hs ht
  | @cons s v t a as h₁ h₂ ih =>
    by_cases hv : P v
    · obtain ⟨u, w, b, bs, cs, h, hb, hc, rfl, hu, hw⟩ := ih hv ht
      exact ⟨u, w, b, a :: bs, cs, cons h₁ h, hb, hc, rfl, hu, hw⟩
    · exact ⟨s, v, a, [], as, nil s, h₁, h₂, rfl, hs, hv⟩

theorem guard {P : ℓ → Prop} {s t : σ} {as : List ℓ} (h : Run step s as t) (hP : ∀ a ∈ as, P a) :
    Run (Guarded step fun _ a => P a) s as t := by
  induction h with
  | nil s => exact nil s
  | cons h _ ih =>
    exact cons ⟨h, hP _ List.mem_cons_self⟩ (ih fun a ha => hP a (List.mem_cons_of_mem _ ha))

/-- An invariant of the state and of what was emitted so far. -/
theorem invariant_outputs {out : ℓ → List ε} {I : List ε → σ → Prop}
    (hI : ∀ es s a t, I es s → step s a t → I (es ++ out a) t) {s t : σ} {as : List ℓ}
    (h : Run step s as t) {es : List ε} (hs : I es s) : I (es ++ as.flatMap out) t := by
  induction h generalizing es with
  | nil _ => simpa using hs
  | cons h _ ih =>
    rw [List.flatMap_cons, ← List.append_assoc]
    exact ih (hI _ _ _ _ hs h)

theorem invariant_labels {I : List ℓ → σ → Prop} (hI : ∀ as s a t, I as s → step s a t → I (as ++ [a]) t)
    {s t : σ} {as bs : List ℓ} (h : Run step s bs t) (hs : I as s) : I (as ++ bs) t := by
  induction h generalizing as with
  | nil _ => simpa using hs
  | @cons s u t b bs h _ ih =>
    rw [List.append_cons]
    exact ih (hI _ _ _ _ hs h)

theorem of_append {s u : σ} {as bs : List ℓ} (h : Run step s (as ++ bs) u) :
    ∃ t, Run step s as t ∧ Run step t bs u := by
  induction as generalizing s with
  | nil => exact ⟨s, nil s, h⟩
  | cons a as ih =>
    cases h with
    | cons h₁ h₂ =>
      obtain ⟨t, h₃, h₄⟩ := ih h₂
      exact ⟨t, cons h₁ h₃, h₄⟩

/-- What is emitted while `Q` holds satisfies `P`, if `Q` is kept. -/
theorem outputs {out : ℓ → List ε} {P : ε → Prop} {Q : σ → Prop}
    (keep : ∀ s a t, Q s → step s a t → Q t)
    (emit : ∀ s a t, Q s → step s a t → ∀ e ∈ out a, P e) {s t : σ} {as : List ℓ}
    (h : Run step s as t) (hs : Q s) : ∀ e ∈ as.flatMap out, P e := by
  induction h with
  | nil _ => simp
  | cons h _ ih =>
    intro e he
    rw [List.flatMap_cons, List.mem_append] at he
    rcases he with he | he
    · exact emit _ _ _ hs h e he
    · exact ih (keep _ _ _ hs h) e he

theorem outputs_kept {out : ℓ → List ε} {B : ε → σ → Prop}
    (emit : ∀ s a t, step s a t → ∀ e ∈ out a, B e t) (keep : ∀ e s a t, B e s → step s a t → B e t)
    {s t : σ} {as : List ℓ} (h : Run step s as t) : ∀ e ∈ as.flatMap out, B e t := by
  induction h with
  | nil _ => simp
  | cons h hr ih =>
    intro e he
    rw [List.flatMap_cons, List.mem_append] at he
    rcases he with he | he
    · exact hr.invariant (keep e) (emit _ _ _ h e he)
    · exact ih e he

/-- Outputs that come before every later one at their own step are ordered in the run. -/
theorem pairwise_outputs {out : ℓ → List ε} {B : ε → σ → Prop} {R : ε → ε → Prop}
    (keep : ∀ e s a t, B e s → step s a t → B e t)
    (emit : ∀ s a t, step s a t → ∀ e ∈ out a, B e t)
    (order : ∀ e s a t, B e s → step s a t → ∀ e' ∈ out a, R e e')
    (inner : ∀ s a t, step s a t → (out a).Pairwise R) {s t : σ} {as : List ℓ}
    (h : Run step s as t) : (as.flatMap out).Pairwise R := by
  induction h with
  | nil _ => simp
  | cons h hr ih =>
    rw [List.flatMap_cons]
    refine List.pairwise_append.2 ⟨inner _ _ _ h, ih, fun e he => ?_⟩
    exact hr.outputs (keep e) (order e) (emit _ _ _ h e he)

end Run

namespace Reaches

theorem refl (s : σ) : Reaches step s s := ⟨[], .nil s⟩

theorem trans {s t u : σ} (h₁ : Reaches step s t) (h₂ : Reaches step t u) : Reaches step s u := by
  obtain ⟨as, h₁⟩ := h₁
  obtain ⟨bs, h₂⟩ := h₂
  exact ⟨as ++ bs, h₁.append h₂⟩

theorem single {s t : σ} {a : ℓ} (h : step s a t) : Reaches step s t := ⟨[a], .single h⟩

theorem invariant {I : σ → Prop} (hI : ∀ s a t, I s → step s a t → I t) {s t : σ}
    (h : Reaches step s t) (hs : I s) : I t := by
  obtain ⟨as, h⟩ := h
  exact h.invariant hI hs

end Reaches

end Wiii
