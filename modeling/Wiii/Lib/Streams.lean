import Mathlib.Data.List.Basic
import Mathlib.Data.Nat.Init

/-!
# Streams

A reader that drains a source, a machine that emits for each symbol, and a generator that hands on the items of another.
-/

/-!
## Reading until the end

A reader gives one item after the other from a source that shrinks with each of them, until the
source ends or an item is refused.  `Reader.drain` is what it gives in all.  Two readers that agree
on every next item, up to a view of their sources, give the same (`Reader.drain_eq`).
-/

namespace Wiii

/-- One read, and a size of the source that every item makes smaller. -/
structure Reader (σ α ε : Type*) where
  next : σ → Except ε (Option α) × σ
  size : σ → ℕ
  shrinks : ∀ s item, (next s).1 = .ok (some item) → size (next s).2 < size s

namespace Reader

variable {σ τ α ε : Type*}

def drain (reader : Reader σ α ε) (s : σ) : List α × Option ε :=
  match _hitem : (reader.next s).1 with
  | .ok (some item) =>
    let later := drain reader (reader.next s).2
    (item :: later.1, later.2)
  | .ok none => ([], none)
  | .error error => ([], some error)
termination_by reader.size s
decreasing_by exact reader.shrinks s item _hitem

variable {reader : Reader σ α ε} {s : σ} {item : α} {error : ε}

theorem drain_some (h : (reader.next s).1 = .ok (some item)) :
    reader.drain s = (item :: (reader.drain (reader.next s).2).1, (reader.drain (reader.next s).2).2) := by
  refine (drain.eq_def reader s).trans ?_
  split
  all_goals rename_i heq; cases h.symm.trans heq
  rfl

theorem drain_none (h : (reader.next s).1 = .ok none) : reader.drain s = ([], none) := by
  refine (drain.eq_def reader s).trans ?_
  split
  all_goals rename_i heq; cases h.symm.trans heq
  rfl

theorem drain_error (h : (reader.next s).1 = .error error) : reader.drain s = ([], some error) := by
  refine (drain.eq_def reader s).trans ?_
  split
  all_goals rename_i heq; cases h.symm.trans heq
  rfl

/-- An induction over what is left of the source. -/
theorem induction {motive : σ → Prop} (reader : Reader σ α ε)
    (item : ∀ s item, (reader.next s).1 = .ok (some item) → motive (reader.next s).2 → motive s)
    (none : ∀ s, (reader.next s).1 = .ok none → motive s)
    (error : ∀ s error, (reader.next s).1 = .error error → motive s) (s : σ) : motive s :=
  match h : (reader.next s).1 with
  | .ok (some x) => item s x h (induction reader item none error (reader.next s).2)
  | .ok .none => none s h
  | .error e => error s e h
termination_by reader.size s
decreasing_by exact reader.shrinks s x h

/-- A reader of views gives what the reader of the sources gives. -/
theorem drain_eq (reader : Reader σ α ε) (abstract : Reader τ α ε) (view : σ → τ)
    (hnext : ∀ s, (reader.next s).1 = (abstract.next (view s)).1)
    (hrest : ∀ s item, (reader.next s).1 = .ok (some item) → view (reader.next s).2 = (abstract.next (view s)).2)
    (s : σ) : reader.drain s = abstract.drain (view s) := by
  induction s using reader.induction with
  | item s item h ih =>
    have habstract : (abstract.next (view s)).1 = .ok (some item) := (hnext s).symm.trans h
    rw [drain_some h, drain_some habstract, ← hrest s item h, ih]
  | none s h => rw [drain_none h, drain_none ((hnext s).symm.trans h)]
  | error s error h => rw [drain_error h, drain_error ((hnext s).symm.trans h)]

end Reader

end Wiii

/-!
## Machines that read and emit

A transducer reads one symbol after the other and emits a list for each.  What it emits for a text that comes in
pieces is what it emits for the whole (`run_append`, `runs_eq`).  A machine with another state that emits the same
is related to it by a view (`run_view`), and one that emits what it was given loses nothing (`run_content`).
-/

namespace Wiii

/-- The step of a machine with states `σ`, from symbols `α` to symbols `β`. -/
abbrev Transducer (σ α β : Type*) := σ → α → List β × σ

namespace Transducer

variable {σ τ α β : Type*}

def run (T : Transducer σ α β) (s : σ) : List α → List β × σ
  | [] => ([], s)
  | a :: as =>
    let now := T s a
    let later := run T now.2 as
    (now.1 ++ later.1, later.2)

variable (T : Transducer σ α β)

@[simp] theorem run_nil (s : σ) : T.run s [] = ([], s) := rfl

theorem run_cons (s : σ) (a : α) (as : List α) :
    T.run s (a :: as) = ((T s a).1 ++ (T.run (T s a).2 as).1, (T.run (T s a).2 as).2) := rfl

theorem run_append (s : σ) (as bs : List α) :
    T.run s (as ++ bs) = ((T.run s as).1 ++ (T.run (T.run s as).2 bs).1, (T.run (T.run s as).2 bs).2) := by
  induction as generalizing s with
  | nil => rfl
  | cons a as ih => rw [List.cons_append, run_cons, ih, run_cons, List.append_assoc]

variable {γ : Type*} (symbols : γ → List α)

/-- The machine whose inputs stand for several symbols each. -/
def runs : Transducer σ γ β := fun s input => T.run s (symbols input)

/-- What is emitted for the symbols does not depend on the inputs that they come in. -/
theorem runs_eq (s : σ) (inputs : List γ) : (T.runs symbols).run s inputs = T.run s (inputs.flatMap symbols) := by
  induction inputs generalizing s with
  | nil => rfl
  | cons input inputs ih =>
    rw [List.flatMap_cons, run_append, run_cons, ih]
    rfl

variable {T} {T' : Transducer τ α β}

theorem run_view {view : σ → τ} {I : σ → Prop} {as : List α}
    (h : ∀ s, ∀ a ∈ as, I s → T' (view s) a = ((T s a).1, view (T s a).2) ∧ I (T s a).2) {s : σ} (hs : I s) :
    T'.run (view s) as = ((T.run s as).1, view (T.run s as).2) ∧ I (T.run s as).2 := by
  induction as generalizing s with
  | nil => exact ⟨rfl, hs⟩
  | cons a as ih =>
    obtain ⟨hview, hnext⟩ := h s a List.mem_cons_self hs
    obtain ⟨hrest, hlast⟩ := ih (fun s a ha => h s a (List.mem_cons_of_mem _ ha)) hnext
    refine ⟨?_, hlast⟩
    rw [run_cons, run_cons, hview, hrest]

/-- Where each step gives out or keeps what it reads, a run does. -/
theorem run_content {γ : Type*} {T : Transducer σ α (List γ)} {content : σ → List γ} {given : α → List γ}
    (h : ∀ s a, (T s a).1.flatten ++ content (T s a).2 = content s ++ given a) (s : σ) (as : List α) :
    (T.run s as).1.flatten ++ content (T.run s as).2 = content s ++ as.flatMap given := by
  induction as generalizing s with
  | nil => simp
  | cons a as ih =>
    rw [run_cons, List.flatten_append, List.append_assoc, ih, ← List.append_assoc, h s a, List.append_assoc,
      List.flatMap_cons]

end Transducer

end Wiii

/-!
## Generators that hand on another one

A generator loops over an inner one, takes a note of each item and yields the item unchanged.  Three things end the
loop: the inner generator does, taking a note raises, or the consumer closes the generator at a `yield`.  Where
neither of the last two happens, every item is handed on and noted (`passOn_through`).
-/

namespace Wiii

/-- What the consumer does with a generator that is suspended at a `yield`. -/
inductive Resumption where
  | next
  | close
  deriving DecidableEq

/-- How a loop ends.  The last is an exception that handlers of ordinary ones do not catch. -/
inductive Ending (ε : Type*) where
  | exhausted
  | raised (e : ε)
  | cancelled
  deriving DecidableEq

/-- The items that were handed on, and the notes that were taken. -/
structure Pass (α β : Type*) where
  handed : List α
  notes : List β

namespace Pass

variable {α β ε : Type*}

def empty : Pass α β := ⟨[], []⟩

def push (pass : Pass α β) (a : α) (b : β) : Pass α β := ⟨pass.handed ++ [a], pass.notes ++ [b]⟩

variable (note : α → Except ε β) (consumer : ℕ → Resumption) (ending : Ending ε)

/-- The loop over the items that are left. -/
def passOn : List α → Pass α β → Pass α β × Ending ε
  | [], pass => (pass, ending)
  | a :: as, pass =>
    match note a with
    | .error e => (pass, .raised e)
    | .ok b =>
      match consumer pass.handed.length with
      | .next => passOn as (pass.push a b)
      | .close => (pass.push a b, .cancelled)

/-- The items up to the first one that the consumer closes at, which is the last one it gets. -/
def upToClose (consumer : ℕ → Resumption) : ℕ → List α → List α
  | _, [] => []
  | n, a :: as => if consumer n = .close then [a] else a :: upToClose consumer (n + 1) as

variable {note consumer ending}

theorem upToClose_of_next {n : ℕ} {as : List α} (h : ∀ i < as.length, consumer (n + i) = .next) :
    upToClose consumer n as = as := by
  induction as generalizing n with
  | nil => rfl
  | cons a as ih =>
    have hfirst : consumer n = .next := h 0 (Nat.zero_lt_succ _)
    rw [upToClose, if_neg (by simp [hfirst]), ih]
    intro i hi
    rw [Nat.add_assoc, Nat.add_comm 1 i]
    exact h (i + 1) (Nat.succ_lt_succ hi)

/-- Where no note raises and the consumer goes on, the loop ends as the inner generator does. -/
theorem passOn_through {as : List α} {pass : Pass α β} (hnote : ∀ a ∈ as, ∃ b, note a = .ok b)
    (hnext : ∀ i < as.length, consumer (pass.handed.length + i) = .next) :
    ∃ bs, as.map note = bs.map .ok ∧
      passOn note consumer ending as pass = (⟨pass.handed ++ as, pass.notes ++ bs⟩, ending) := by
  induction as generalizing pass with
  | nil => exact ⟨[], rfl, by simp [passOn]⟩
  | cons a as ih =>
    obtain ⟨b, hb⟩ := hnote a List.mem_cons_self
    have hfirst : consumer pass.handed.length = .next := hnext 0 (Nat.zero_lt_succ _)
    obtain ⟨bs, hbs, hrun⟩ := @ih (pass.push a b) (fun a' ha' => hnote a' (List.mem_cons_of_mem a ha')) (by
      intro i hi
      have hlength : (pass.push a b).handed.length + i = pass.handed.length + (i + 1) := by
        simp [push]
        omega
      rw [hlength]
      exact hnext (i + 1) (Nat.succ_lt_succ hi))
    refine ⟨b :: bs, by rw [List.map_cons, hb, hbs, List.map_cons], ?_⟩
    rw [passOn, hb]
    simp only [hfirst]
    rw [hrun]
    simp [push]

theorem passOn_reached {as : List α} {pass : Pass α β}
    (hleft : (passOn note consumer ending as pass).2 ≠ .cancelled)
    (hhanded : (passOn note consumer ending as pass).1.handed =
      pass.handed ++ upToClose consumer pass.handed.length as) :
    (∀ i < as.length, consumer (pass.handed.length + i) = .next) ∧ ending ≠ .cancelled ∧
      ∀ a ∈ as, ∃ b, note a = .ok b := by
  induction as generalizing pass with
  | nil => exact ⟨fun i hi => absurd hi (Nat.not_lt_zero i), hleft, fun a ha => (nomatch ha)⟩
  | cons a as ih =>
    rw [passOn] at hleft hhanded
    rw [upToClose] at hhanded
    cases hb : note a with
    | error e =>
      simp only [hb] at hhanded
      have hlength := congrArg List.length hhanded
      split at hlength <;> simp at hlength
    | ok b =>
      cases hfirst : consumer pass.handed.length with
      | close =>
        simp only [hb, hfirst] at hleft
        exact absurd rfl hleft
      | next =>
        simp only [hb, hfirst] at hleft hhanded
        have hpush : (pass.push a b).handed.length = pass.handed.length + 1 := by simp [push]
        obtain ⟨hnext, hending, hnotes⟩ := ih hleft (by
          rw [hhanded, hpush]
          simp [push])
        refine ⟨fun i hi => ?_, hending, fun a' ha' => ?_⟩
        · cases i with
          | zero => exact hfirst
          | succ i =>
            have hi' := hnext i (Nat.lt_of_succ_lt_succ hi)
            rwa [hpush, Nat.add_assoc, Nat.add_comm 1 i] at hi'
        · rcases List.mem_cons.1 ha' with rfl | ha'
          · exact ⟨b, hb⟩
          · exact hnotes a' ha'

end Pass

end Wiii
