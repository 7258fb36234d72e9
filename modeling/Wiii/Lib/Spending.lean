import Mathlib.Data.Int.Notation
import Wiii.Lib.Run

/-!
# Requests that look and then write

Each request reads the record, decides on what it read, and writes in a later step without looking again.  Where a
winning write spends the record, at most one request gains in a run whose winning writes find the record unspent
(`Once.of_run`), and whatever is gained was granted on what its request read (`Granted.of_run`).
-/

namespace Wiii

open Function (update update_self update_of_ne)

variable {ρ q π α γ : Type}

/-- What a request does: look at the record and plan a write, write, and go on to gain. -/
structure Procedure (ρ q π α γ : Type) where
  look : q → ℤ → ρ → α ⊕ π
  write : π → ℤ → ρ → ρ
  next : π → α ⊕ γ

/-- What a request read, and when. -/
structure Sight (ρ : Type) where
  row : ρ
  time : ℤ

namespace Spending

inductive Stage (ρ π γ : Type) where
  | idle
  | planned (plan : π) (seen : Sight ρ)
  | won (gain : γ) (seen : Sight ρ)
  | over

inductive Label (q : Type) where
  | look (id : ℕ) (request : q)
  /-- A write that fails ends its request. -/
  | write (id : ℕ) (done : Bool)
  | finish (id : ℕ) (gained : Bool)

structure State (ρ π γ : Type) where
  row : ρ
  clock : ℤ := 0
  stage : ℕ → Stage ρ π γ := fun _ => .idle
  gains : List (γ × Sight ρ) := []

def State.Won (s : State ρ π γ) (id : ℕ) : Prop := ∃ gain seen, s.stage id = .won gain seen

end Spending

open Spending

namespace Procedure

variable (P : Procedure ρ q π α γ)

def afterLook (request : q) (now : ℤ) (row : ρ) : Stage ρ π γ :=
  match P.look request now row with
  | .inl _ => .over
  | .inr plan => .planned plan ⟨row, now⟩

def afterWrite (plan : π) (seen : Sight ρ) : Stage ρ π γ :=
  match P.next plan with
  | .inl _ => .over
  | .inr gain => .won gain seen

inductive Step : State ρ π γ → Label q × ℤ → State ρ π γ → Prop
  | look {s : State ρ π γ} {id : ℕ} {request : q} {now : ℤ} (tick : s.clock ≤ now) (idle : s.stage id = .idle) :
    Step s (.look id request, now)
      { s with clock := now, stage := update s.stage id (P.afterLook request now s.row) }
  | write {s : State ρ π γ} {id : ℕ} {plan : π} {seen : Sight ρ} {now : ℤ} (tick : s.clock ≤ now)
      (planned : s.stage id = .planned plan seen) :
    Step s (.write id true, now)
      { s with
        row := P.write plan now s.row
        clock := now
        stage := update s.stage id (P.afterWrite plan seen) }
  | writeFailed {s : State ρ π γ} {id : ℕ} {plan : π} {seen : Sight ρ} {now : ℤ} (tick : s.clock ≤ now)
      (planned : s.stage id = .planned plan seen) :
    Step s (.write id false, now) { s with clock := now, stage := update s.stage id .over }
  | gain {s : State ρ π γ} {id : ℕ} {gain : γ} {seen : Sight ρ} {now : ℤ} (tick : s.clock ≤ now)
      (won : s.stage id = .won gain seen) :
    Step s (.finish id true, now)
      { s with clock := now, stage := update s.stage id .over, gains := s.gains ++ [(gain, seen)] }
  | lose {s : State ρ π γ} {id : ℕ} {gain : γ} {seen : Sight ρ} {now : ℤ} (tick : s.clock ≤ now)
      (won : s.stage id = .won gain seen) :
    Step s (.finish id false, now) { s with clock := now, stage := update s.stage id .over }

/-- A winning write finds the record unspent. -/
def Finds (Spent : ρ → Prop) (s : State ρ π γ) (a : Label q × ℤ) : Prop :=
  ∀ id plan seen gain, a.1 = .write id true → s.stage id = .planned plan seen → P.next plan = .inr gain →
    ¬ Spent s.row

/-- The gain is the outcome of what its request read. -/
def Granted (gain : γ) (seen : Sight ρ) : Prop :=
  ∃ request plan, P.look request seen.time seen.row = .inr plan ∧ P.next plan = .inr gain

/-- No write makes a spent record unspent, and a winning write spends it. -/
structure Spends (Spent : ρ → Prop) : Prop where
  keep : ∀ plan now row, Spent row → Spent (P.write plan now row)
  spend : ∀ plan gain now row, P.next plan = .inr gain → Spent (P.write plan now row)

end Procedure

/-! ## At most one gain -/

namespace Spending

variable {P : Procedure ρ q π α γ} {Spent : ρ → Prop} {s t : State ρ π γ} {a : Label q × ℤ} {as : List (Label q × ℤ)}

structure Once (Spent : ρ → Prop) (s : State ρ π γ) : Prop where
  unspent : ¬ Spent s.row → (∀ id, ¬ s.Won id) ∧ s.gains = []
  one : ∀ i j, s.Won i → s.Won j → i = j
  first : ∀ id, s.Won id → s.gains = []
  gains : s.gains.length ≤ 1

theorem Once.init (row : ρ) : Once Spent ({ row := row } : State ρ π γ) where
  unspent _ := ⟨fun _ ⟨_, _, h⟩ => (nomatch h), rfl⟩
  one _ _ h := by obtain ⟨_, _, h⟩ := h; cases h
  first _ _ := rfl
  gains := Nat.zero_le 1

theorem won_update_iff {id other : ℕ} {stage : Stage ρ π γ} {row : ρ} {clock : ℤ} {gains : List (γ × Sight ρ)} :
    State.Won ⟨row, clock, update s.stage id stage, gains⟩ other ↔
      (other = id ∧ ∃ gain seen, stage = .won gain seen) ∨ (other ≠ id ∧ s.Won other) := by
  unfold State.Won
  by_cases h : other = id
  · subst h
    simp [update_self]
  · simp [h]

theorem Once.quiet (h : Once Spent s) {id : ℕ} {stage : Stage ρ π γ} {row : ρ} {clock : ℤ}
    (hstage : ∀ gain seen, stage ≠ .won gain seen) (hrow : Spent s.row → Spent row) :
    Once Spent ⟨row, clock, update s.stage id stage, s.gains⟩ := by
  have hwon : ∀ other, State.Won ⟨row, clock, update s.stage id stage, s.gains⟩ other → s.Won other := by
    intro other hother
    rcases won_update_iff.1 hother with ⟨-, gain, seen, hgain⟩ | ⟨-, hold⟩
    · exact absurd hgain (hstage gain seen)
    · exact hold
  refine ⟨fun hfree => ?_, fun i j hi hj => h.one i j (hwon i hi) (hwon j hj), fun i hi => h.first i (hwon i hi), h.gains⟩
  obtain ⟨hnone, hgains⟩ := h.unspent fun hspent => hfree (hrow hspent)
  exact ⟨fun other hother => hnone other (hwon other hother), hgains⟩

theorem Once.step (hP : P.Spends Spent) (h : Once Spent s) (hstep : Guarded P.Step (P.Finds Spent) s a t) :
    Once Spent t := by
  obtain ⟨hstep, hfinds⟩ := hstep
  cases hstep with
  | @look _ request now _ _ =>
    apply h.quiet _ id
    intro gain seen hwon
    unfold Procedure.afterLook at hwon
    cases hlook : P.look request now s.row with
    | inl _ => rw [hlook] at hwon; cases hwon
    | inr _ => rw [hlook] at hwon; cases hwon
  | @write id plan seen now _ planned =>
    cases hnext : P.next plan with
    | inl _ =>
      apply h.quiet _ (hP.keep plan now s.row)
      intro gain seen hwon
      rw [Procedure.afterWrite, hnext] at hwon
      cases hwon
    | inr gain =>
      -- nobody has won before: the record was unspent
      obtain ⟨hnone, hgains⟩ := h.unspent (hfinds id plan seen gain rfl planned hnext)
      have honly : ∀ other, State.Won ⟨P.write plan now s.row, now, update s.stage id (P.afterWrite plan seen),
          s.gains⟩ other → other = id := by
        intro other hother
        rcases won_update_iff.1 hother with ⟨hid, -⟩ | ⟨-, hold⟩
        · exact hid
        · exact absurd hold (hnone other)
      exact ⟨fun hfree => absurd (hP.spend plan gain now s.row hnext) hfree,
        fun i j hi hj => (honly i hi).trans (honly j hj).symm, fun _ _ => hgains, h.gains⟩
  | writeFailed _ _ => exact h.quiet (fun _ _ hwon => nomatch hwon) id
  | @gain id gain seen now _ won =>
    have hgains := h.first id ⟨gain, seen, won⟩
    have hnone : ∀ other, ¬ State.Won ⟨s.row, now, update s.stage id .over, s.gains ++ [(gain, seen)]⟩ other := by
      intro other hother
      rcases won_update_iff.1 hother with ⟨-, _, _, hover⟩ | ⟨hne, hold⟩
      · cases hover
      · exact hne (h.one other id hold ⟨gain, seen, won⟩)
    refine ⟨fun hfree => absurd ⟨gain, seen, won⟩ ((h.unspent hfree).1 id), fun i _ hi => absurd hi (hnone i),
      fun i hi => absurd hi (hnone i), ?_⟩
    simp [hgains]
  | lose _ _ => exact h.quiet (fun _ _ hwon => nomatch hwon) id

theorem Once.of_run (hP : P.Spends Spent) {row : ρ}
    (run : Run (Guarded P.Step (P.Finds Spent)) { row := row } as s) : Once Spent s :=
  run.invariant (fun _ _ _ h hstep => h.step hP hstep) (Once.init row)

/-! ## What is gained was granted -/

structure Granted (P : Procedure ρ q π α γ) (s : State ρ π γ) : Prop where
  planned : ∀ id plan seen, s.stage id = .planned plan seen → ∃ request, P.look request seen.time seen.row = .inr plan
  won : ∀ id gain seen, s.stage id = .won gain seen → P.Granted gain seen
  gains : ∀ gained ∈ s.gains, P.Granted gained.1 gained.2

theorem Granted.init (row : ρ) : Granted P { row := row } where
  planned _ _ _ h := nomatch h
  won _ _ _ h := nomatch h
  gains _ h := nomatch h

theorem Granted.update (h : Granted P s) {id : ℕ} {stage : Stage ρ π γ} {row : ρ} {clock : ℤ}
    {gains : List (γ × Sight ρ)}
    (hplanned : ∀ plan seen, stage = .planned plan seen → ∃ request, P.look request seen.time seen.row = .inr plan)
    (hwon : ∀ gain seen, stage = .won gain seen → P.Granted gain seen)
    (hgains : ∀ gained ∈ gains, P.Granted gained.1 gained.2) :
    Granted P ⟨row, clock, update s.stage id stage, gains⟩ where
  planned other plan seen hother := by
    dsimp only at hother
    by_cases hid : other = id
    · rw [hid, update_self] at hother
      exact hplanned plan seen hother
    · rw [update_of_ne hid] at hother
      exact h.planned other plan seen hother
  won other gain seen hother := by
    dsimp only at hother
    by_cases hid : other = id
    · rw [hid, update_self] at hother
      exact hwon gain seen hother
    · rw [update_of_ne hid] at hother
      exact h.won other gain seen hother
  gains := hgains

theorem Granted.step (h : Granted P s) (hstep : P.Step s a t) : Granted P t := by
  cases hstep with
  | @look _ request now _ _ =>
    apply h.update _ _ h.gains
    · intro plan seen hplan
      unfold Procedure.afterLook at hplan
      cases hlook : P.look request now s.row with
      | inl _ => rw [hlook] at hplan; cases hplan
      | inr plan =>
        rw [hlook] at hplan
        cases hplan
        exact ⟨request, hlook⟩
    · intro gain seen hwon
      unfold Procedure.afterLook at hwon
      cases hlook : P.look request now s.row with
      | inl _ => rw [hlook] at hwon; cases hwon
      | inr _ => rw [hlook] at hwon; cases hwon
  | @write id plan seen now _ planned =>
    obtain ⟨request, hlook⟩ := h.planned id plan seen planned
    apply h.update _ _ h.gains
    · intro plan' seen' hplan
      unfold Procedure.afterWrite at hplan
      cases hnext : P.next plan with
      | inl _ => rw [hnext] at hplan; cases hplan
      | inr _ => rw [hnext] at hplan; cases hplan
    · intro gain seen' hwon
      unfold Procedure.afterWrite at hwon
      cases hnext : P.next plan with
      | inl _ => rw [hnext] at hwon; cases hwon
      | inr gain =>
        rw [hnext] at hwon
        cases hwon
        exact ⟨request, plan, hlook, hnext⟩
  | writeFailed _ _ => exact h.update (fun _ _ h => nomatch h) (fun _ _ h => nomatch h) h.gains
  | @gain id gain seen now _ won =>
    apply h.update
    · intro _ _ hover
      cases hover
    · intro _ _ hover
      cases hover
    · intro gained hgained
      rcases List.mem_append.1 hgained with hold | hnew
      · exact h.gains gained hold
      · rw [List.mem_singleton.1 hnew]
        exact h.won id gain seen won
  | lose _ _ => exact h.update (fun _ _ h => nomatch h) (fun _ _ h => nomatch h) h.gains

theorem Granted.of_run {row : ρ} (run : Run P.Step { row := row } as s) : Granted P s :=
  run.invariant (fun _ _ _ h hstep => h.step hstep) (Granted.init row)

end Spending

end Wiii
