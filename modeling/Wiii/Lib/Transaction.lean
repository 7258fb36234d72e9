import Mathlib.Tactic.Common

/-!
# Transactions of statements

The body of a transaction runs one statement after the other on a working copy of a store.  The storage may fail any of
them.  `immediate` begins a transaction, runs a body in it and commits: what fails before the commit has gone through
rolls it back.
-/

namespace Wiii

variable {δ α β : Type}

/-- The working copy, and the failures that the storage has in store for the statements to come. -/
structure Work (δ : Type) where
  copy : δ
  faults : List (Option String)

def Body (δ α : Type) : Type := Work δ → Except String α × Work δ

namespace Body

instance : Monad (Body δ) where
  pure a w := (.ok a, w)
  bind m f w :=
    match m w with
    | (.error error, w) => (.error error, w)
    | (.ok a, w) => f a w

def fail (error : String) : Body δ α := fun w => (.error error, w)

def ofExcept (result : Except String α) : Body δ α := fun w => (result, w)

def statement (op : δ → Except String (α × δ)) : Body δ α := fun w =>
  match w.faults.headD none with
  | some error => (.error error, ⟨w.copy, w.faults.tail⟩)
  | none =>
    match op w.copy with
    | .error error => (.error error, ⟨w.copy, w.faults.tail⟩)
    | .ok (a, copy) => (.ok a, ⟨copy, w.faults.tail⟩)

def query (f : δ → Except String α) : Body δ α := statement fun d => (f d).map fun a => (a, d)

def execute (f : δ → Except String δ) : Body δ Unit := statement fun d => (f d).map fun d => ((), d)

/-- A write that is left out where there is nothing to write. -/
def executeIf (written : Bool) (f : δ → δ) : Body δ Unit := if written then execute fun d => .ok (f d) else pure ()

variable {w w' : Work δ} {a : α} {b : β}

theorem bind_ok {m : Body δ α} {f : α → Body δ β} (h : (m >>= f) w = (.ok b, w')) :
    ∃ a between, m w = (.ok a, between) ∧ f a between = (.ok b, w') := by
  change (match m w with
    | (.error error, w) => ((.error error : Except String β), w)
    | (.ok a, w) => f a w) = _ at h
  rcases hm : m w with ⟨error | a, between⟩
  · rw [hm] at h
    cases h
  · rw [hm] at h
    exact ⟨a, between, rfl, h⟩

theorem bind_run {m : Body δ α} (f : α → Body δ β) (h : m w = (.ok a, w')) : (m >>= f) w = f a w' := by
  change (match m w with
    | (.error error, w) => ((.error error : Except String β), w)
    | (.ok a, w) => f a w) = _
  rw [h]

theorem bind_error {m : Body δ α} {error : String} (f : α → Body δ β) (h : m w = (.error error, w')) :
    (m >>= f) w = (.error error, w') := by
  change (match m w with
    | (.error error, w) => ((.error error : Except String β), w)
    | (.ok a, w) => f a w) = _
  rw [h]

theorem pure_ok (h : (pure a : Body δ α) w = (.ok a, w')) : w' = w := (Prod.ext_iff.1 h).2.symm

theorem ofExcept_ok {result : Except String α} (h : (ofExcept result : Body δ α) w = (.ok a, w')) :
    result = .ok a ∧ w' = w :=
  ⟨(Prod.ext_iff.1 h).1, (Prod.ext_iff.1 h).2.symm⟩

theorem statement_ok {op : δ → Except String (α × δ)} (h : statement op w = (.ok a, w')) :
    op w.copy = .ok (a, w'.copy) := by
  unfold statement at h
  cases hfault : w.faults.headD none with
  | some error =>
    rw [hfault] at h
    cases h
  | none =>
    rw [hfault] at h
    cases hop : op w.copy with
    | error error =>
      rw [hop] at h
      cases h
    | ok result =>
      rw [hop] at h
      cases h
      rfl

theorem query_ok {f : δ → Except String α} (h : query f w = (.ok a, w')) : f w.copy = .ok a ∧ w'.copy = w.copy := by
  have hop := statement_ok h
  cases hf : f w.copy with
  | error error =>
    rw [hf] at hop
    cases hop
  | ok result =>
    rw [hf] at hop
    obtain ⟨rfl, hcopy⟩ := Prod.ext_iff.1 (Except.ok.inj hop)
    exact ⟨rfl, hcopy.symm⟩

theorem execute_ok {f : δ → Except String δ} {u : Unit} (h : execute f w = (.ok u, w')) : f w.copy = .ok w'.copy := by
  have hop := statement_ok h
  cases hf : f w.copy with
  | error error =>
    rw [hf] at hop
    cases hop
  | ok copy =>
    rw [hf] at hop
    exact congrArg Except.ok (Prod.ext_iff.1 (Except.ok.inj hop)).2

theorem executeIf_ok {written : Bool} {f : δ → δ} {u : Unit} (h : executeIf written f w = (.ok u, w'))
    (hnone : written = false → f w.copy = w.copy) : w'.copy = f w.copy := by
  cases written with
  | true => exact (Except.ok.inj (execute_ok (f := fun d => .ok (f d)) h)).symm
  | false =>
    have hsame : w' = w := pure_ok h
    rw [hsame, hnone rfl]

/-- What comes of `m`; the error of it is no error of the body. -/
def attempt (m : Body δ α) : Body δ (Except String α) := fun w => (.ok (m w).1, (m w).2)

theorem attempt_run {m : Body δ α} {r : Except String α} (h : m w = (r, w')) : attempt m w = (.ok r, w') := by
  rw [attempt, h]

end Body

/-- The first and the last failure are those of the begin and of the commit. -/
def immediate (body : Body δ α) (faults : List (Option String)) (committed : δ) : Except String α × δ :=
  match faults.headD none with
  | some error => (.error error, committed)
  | none =>
    match body ⟨committed, faults.tail⟩ with
    | (.error error, _) => (.error error, committed)
    | (.ok a, w) =>
      match w.faults.headD none with
      | some error => (.error error, committed)
      | none => (.ok a, w.copy)

/-- A transaction that answers an error left nothing behind; else its body ran to the end. -/
theorem immediate_cases (body : Body δ α) (faults : List (Option String)) (committed : δ) :
    (∃ error, immediate body faults committed = (.error error, committed)) ∨
      ∃ a w, body ⟨committed, faults.tail⟩ = (.ok a, w) ∧ immediate body faults committed = (.ok a, w.copy) := by
  unfold immediate
  cases faults.headD none with
  | some error => exact Or.inl ⟨error, rfl⟩
  | none =>
    rcases hbody : body ⟨committed, faults.tail⟩ with ⟨error | a, w⟩
    · exact Or.inl ⟨error, rfl⟩
    · dsimp only
      cases w.faults.headD none with
      | some error => exact Or.inl ⟨error, rfl⟩
      | none => exact Or.inr ⟨a, w, rfl, rfl⟩

end Wiii
