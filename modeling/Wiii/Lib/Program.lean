import Wiii.Lib.Run

/-!
# Programs over a durable store and a volatile memory

A program runs in a `World`: a store `δ` that survives a crash, a memory `μ` that does not, and the `Tick`s that the
environment supplies, one to each call on the store, with the clock reading, a fresh name and whether the storage fails
the call.  A crash in the middle of a program is a run in which every later tick fails.

`Evolves` says that a program changes the store only by steps of a given system, `Yields` that it fails only when the
storage does, and `Meets` what holds of store and memory when it ends.
-/

namespace Wiii

/-- What the environment supplies to one call on the durable store. -/
structure Tick where
  /-- The clock reading, in milliseconds. -/
  now : Int
  /-- A freshly generated name. -/
  uuid : String
  /-- The error with which the storage fails the call, if it does. -/
  fault : Option String
  deriving DecidableEq, Inhabited

structure World (δ μ : Type) where
  /-- What survives a crash. -/
  durable : δ
  /-- What does not. -/
  volatile : μ
  /-- The ticks of the calls to come. -/
  ticks : List Tick

/-- A program over the durable store `δ` and the volatile memory `μ`. -/
def Program (δ μ α : Type) : Type := World δ μ → α × World δ μ

namespace Program

variable {δ μ α β ε ε' : Type}

instance : Monad (Program δ μ) where
  pure a w := (a, w)
  bind m f w := f (m w).1 (m w).2

@[simp] theorem pure_apply (a : α) (w : World δ μ) : (pure a : Program δ μ α) w = (a, w) := rfl

@[simp] theorem bind_apply (m : Program δ μ α) (f : α → Program δ μ β) (w : World δ μ) :
    (m >>= f) w = f (m w).1 (m w).2 := rfl

def asks (f : μ → β) : Program δ μ β := fun w => (f w.volatile, w)

def update (f : μ → μ) : Program δ μ Unit := fun w => ((), { w with volatile := f w.volatile })

@[simp] theorem asks_apply (f : μ → β) (w : World δ μ) :
    (asks f : Program δ μ β) w = (f w.volatile, w) := rfl

@[simp] theorem update_apply (f : μ → μ) (w : World δ μ) :
    (update f : Program δ μ Unit) w = ((), { w with volatile := f w.volatile }) := rfl

/-- The tick of the next call; a world whose ticks ran out no longer fails. -/
def nextTick (w : World δ μ) : Tick := w.ticks.headD ⟨0, "", none⟩

/-- The world after the next tick is used up. -/
def tickOff (w : World δ μ) : World δ μ := { w with ticks := w.ticks.tail }

/-- When the storage fails or the transaction is refused, the store is unchanged. -/
def transact (op : Tick → δ → Except String (α × δ)) (tick : Tick) (d : δ) : Except String α × δ :=
  match tick.fault with
  | some error => (.error error, d)
  | none =>
    match op tick d with
    | .error error => (.error error, d)
    | .ok (a, d') => (.ok a, d')

/-- Runs a transaction with the next tick. -/
def call (op : Tick → δ → Except String (α × δ)) : Program δ μ (Except String α) := fun w =>
  ((transact op (nextTick w) w.durable).1,
    { tickOff w with durable := (transact op (nextTick w) w.durable).2 })

theorem transact_error {op : Tick → δ → Except String (α × δ)} {tick : Tick} {d d' : δ}
    {error : String} (h : transact op tick d = (.error error, d')) :
    d' = d ∧ (tick.fault = some error ∨ tick.fault = none ∧ op tick d = .error error) := by
  unfold transact at h
  cases hf : tick.fault with
  | some e =>
    simp only [hf, Prod.mk.injEq, Except.error.injEq] at h
    exact ⟨h.2.symm, .inl (congrArg some h.1)⟩
  | none =>
    cases ho : op tick d with
    | error e =>
      simp only [hf, ho, Prod.mk.injEq, Except.error.injEq] at h
      exact ⟨h.2.symm, .inr ⟨rfl, congrArg _ h.1⟩⟩
    | ok r => simp [hf, ho] at h

theorem transact_ok_iff {op : Tick → δ → Except String (α × δ)} {tick : Tick} {d d' : δ} {a : α} :
    transact op tick d = (.ok a, d') ↔ tick.fault = none ∧ op tick d = .ok (a, d') := by
  unfold transact
  cases hf : tick.fault with
  | some e => simp
  | none =>
    cases ho : op tick d with
    | error e => simp
    | ok r => simp [Prod.ext_iff]

theorem transact_of_ok {op : Tick → δ → Except String (α × δ)} {tick : Tick} {d d' : δ} {a : α}
    (hf : tick.fault = none) (ho : op tick d = .ok (a, d')) :
    transact op tick d = (.ok a, d') :=
  transact_ok_iff.2 ⟨hf, ho⟩

/-- A call either changes nothing durable and answers an error, or is its transaction. -/
theorem call_cases (op : Tick → δ → Except String (α × δ)) (w : World δ μ) :
    (∃ error, call op w = (.error error, tickOff w) ∧
      ((nextTick w).fault = some error ∨
        (nextTick w).fault = none ∧ op (nextTick w) w.durable = .error error)) ∨
    ∃ a d, (nextTick w).fault = none ∧ op (nextTick w) w.durable = .ok (a, d) ∧
      call op w = (.ok a, { tickOff w with durable := d }) := by
  unfold call
  rcases h : transact op (nextTick w) w.durable with ⟨error | a, d⟩
  · obtain ⟨rfl, he⟩ := transact_error h
    exact .inl ⟨error, rfl, he⟩
  · obtain ⟨hf, ho⟩ := transact_ok_iff.1 h
    exact .inr ⟨a, d, hf, ho, rfl⟩

/-- Runs `f` on the answer of `m`, and stops at its error. -/
def andThen (m : Program δ μ (Except ε α)) (f : α → Program δ μ (Except ε β)) :
    Program δ μ (Except ε β) := do
  match ← m with
  | .error error => pure (.error error)
  | .ok a => f a

theorem andThen_apply (m : Program δ μ (Except ε α))
    (f : α → Program δ μ (Except ε β)) (w : World δ μ) :
    andThen m f w = match m w with
      | (.error error, w') => (.error error, w')
      | (.ok a, w') => f a w' := by
  simp only [andThen, bind_apply]
  rcases m w with ⟨error | a, w'⟩ <;> rfl

/-- Runs `f` on the answer of `m`; an error of `m` is answered as `wrap` reports it. -/
def escalate (m : Program δ μ (Except ε α)) (wrap : ε → ε')
    (f : α → Program δ μ (Except ε' β)) : Program δ μ (Except ε' β) := do
  match ← m with
  | .error error => pure (.error (wrap error))
  | .ok a => f a

def tryEach (body : α → Program δ μ (Except String Unit)) :
    List α → Program δ μ (Except String Unit)
  | [] => pure (.ok ())
  | a :: as => (body a).andThen fun _ => tryEach body as

def forEach (body : α → Program δ μ Unit) : List α → Program δ μ Unit
  | [] => pure ()
  | a :: as => do
    body a
    forEach body as

/-! ## Programs that only take the steps of a system -/

/-- `m` changes the durable store only by runs of `step`. -/
def Evolves {ℓ : Type} (step : δ → ℓ → δ → Prop) (m : Program δ μ α) : Prop :=
  ∀ w, Reaches step w.durable (m w).2.durable

section Evolves

variable {ℓ : Type} {step : δ → ℓ → δ → Prop}

theorem evolves_pure (a : α) : Evolves step (pure a : Program δ μ α) := fun w => .refl w.durable

theorem Evolves.bind {m : Program δ μ α} {f : α → Program δ μ β} (hm : Evolves step m)
    (hf : ∀ a, Evolves step (f a)) : Evolves step (m >>= f) :=
  fun w => (hm w).trans (hf _ _)

theorem Evolves.andThen {m : Program δ μ (Except String α)}
    {f : α → Program δ μ (Except String β)} (hm : Evolves step m) (hf : ∀ a, Evolves step (f a)) :
    Evolves step (andThen m f) := by
  refine hm.bind fun r => ?_
  cases r with
  | error _ => exact evolves_pure _
  | ok a => exact hf a

theorem evolves_call {op : Tick → δ → Except String (α × δ)}
    (h : ∀ t d a d', t.fault = none → op t d = .ok (a, d') → Reaches step d d') :
    Evolves step (call op : Program δ μ (Except String α)) := by
  intro w
  rcases call_cases op w with ⟨error, he, -⟩ | ⟨a, d, hf, ho, he⟩
  · rw [he]
    exact .refl w.durable
  · rw [he]
    exact h _ _ _ _ hf ho

theorem evolves_tryEach {body : α → Program δ μ (Except String Unit)}
    (h : ∀ a, Evolves step (body a)) (as : List α) : Evolves step (tryEach body as) := by
  induction as with
  | nil => exact evolves_pure _
  | cons a as ih => exact (h a).andThen fun _ => ih

end Evolves

/-! ## Programs that fail only when the storage does -/

/-- Started in `P`, the program answers in `Q`, or the storage failed and left the store in `E`. -/
def Yields (P : δ → Prop) (m : Program δ μ (Except String α)) (Q : α → δ → Prop) (E : δ → Prop) :
    Prop :=
  ∀ w, P w.durable → (m w).2.ticks ⊆ w.ticks ∧
    (∀ a, (m w).1 = .ok a → Q a (m w).2.durable) ∧
    ∀ error, (m w).1 = .error error →
      E (m w).2.durable ∧ ∃ tick ∈ w.ticks, tick.fault = some error

theorem nextTick_fault_mem {w : World δ μ} {error : String}
    (h : (nextTick w).fault = some error) : ∃ tick ∈ w.ticks, tick.fault = some error := by
  unfold nextTick at h
  cases hw : w.ticks with
  | nil =>
    rw [hw] at h
    cases h
  | cons t ts =>
    rw [hw] at h
    exact ⟨t, List.mem_cons_self, h⟩

section Yields

variable {P : δ → Prop} {E : δ → Prop}

theorem yields_pure {a : α} {Q : α → δ → Prop} (h : ∀ d, P d → Q a d) :
    Yields P (pure (.ok a) : Program δ μ (Except String α)) Q E := by
  intro w hw
  refine ⟨fun _ ht => ht, ?_, fun _ h => (nomatch h)⟩
  rintro _ ⟨⟩
  exact h _ hw

theorem yields_call {op : Tick → δ → Except String (α × δ)} {Q : α → δ → Prop}
    (hE : ∀ d, P d → E d)
    (h : ∀ t d, P d → ∃ a d', op t d = .ok (a, d') ∧ Q a d') :
    Yields P (call op : Program δ μ (Except String α)) Q E := by
  intro w hw
  obtain ⟨a, d, hok, hQ⟩ := h (nextTick w) w.durable hw
  rcases call_cases op w with ⟨error, he, hf | ⟨-, ho⟩⟩ | ⟨a', d', -, ho, he⟩
  · rw [he]
    refine ⟨fun _ ht => List.mem_of_mem_tail ht, fun _ h => (nomatch h), ?_⟩
    rintro _ ⟨⟩
    exact ⟨hE _ hw, nextTick_fault_mem hf⟩
  · rw [hok] at ho
    cases ho
  · rw [hok] at ho
    obtain ⟨rfl, rfl⟩ : a = a' ∧ d = d' := by simpa using ho
    rw [he]
    refine ⟨fun _ ht => List.mem_of_mem_tail ht, ?_, fun _ h => (nomatch h)⟩
    rintro _ ⟨⟩
    exact hQ

theorem Yields.andThen {m : Program δ μ (Except String α)}
    {f : α → Program δ μ (Except String β)} {R : α → δ → Prop} {Q : β → δ → Prop}
    (hm : Yields P m R E) (hf : ∀ a, Yields (R a) (f a) Q E) : Yields P (andThen m f) Q E := by
  intro w hw
  obtain ⟨ht, hok, herr⟩ := hm w hw
  rw [andThen_apply]
  rcases hmw : m w with ⟨error | a, w'⟩
  · rw [hmw] at ht herr
    refine ⟨ht, fun _ h => (nomatch h), ?_⟩
    rintro _ ⟨⟩
    exact herr error rfl
  · rw [hmw] at ht hok
    obtain ⟨ht', hok', herr'⟩ := hf a w' (hok a rfl)
    refine ⟨fun t h => ht (ht' h), hok', fun error he => ?_⟩
    obtain ⟨hE, t, hmem, hfault⟩ := herr' error he
    exact ⟨hE, t, ht hmem, hfault⟩

theorem yields_tryEach {body : α → Program δ μ (Except String Unit)} {I : List α → δ → Prop}
    (h : ∀ a as, Yields (I (a :: as)) (body a) (fun _ => I as) E) (as : List α) :
    Yields (I as) (tryEach body as) (fun _ => I []) E := by
  induction as with
  | nil => exact yields_pure fun _ hd => hd
  | cons a as ih => exact (h a as).andThen fun _ => ih

theorem Yields.mono {m : Program δ μ (Except String α)} {P' : δ → Prop} {Q Q' : α → δ → Prop}
    {E' : δ → Prop} (hm : Yields P m Q E) (hP : ∀ d, P' d → P d) (hQ : ∀ a d, Q a d → Q' a d)
    (hE : ∀ d, E d → E' d) : Yields P' m Q' E' := by
  intro w hw
  obtain ⟨ht, hok, herr⟩ := hm w (hP _ hw)
  refine ⟨ht, fun a ha => hQ _ _ (hok a ha), fun error he => ?_⟩
  exact ⟨hE _ (herr error he).1, (herr error he).2⟩

end Yields

/-! ## Programs from one predicate to another -/

/-- Started in `P`, the program ends in `Q`. -/
def Meets (P : δ → μ → Prop) (m : Program δ μ α) (Q : δ → μ → Prop) : Prop :=
  ∀ w, P w.durable w.volatile → Q (m w).2.durable (m w).2.volatile

section Meets

variable {P Q R : δ → μ → Prop} {m : Program δ μ α}

theorem meets_pure (a : α) : Meets P (pure a : Program δ μ α) P := fun _ hw => hw

theorem Meets.weaken (hm : Meets R m Q) (h : ∀ d v, P d v → R d v) : Meets P m Q := fun w hw => hm w (h _ _ hw)

theorem meets_update {f : μ → μ} (h : ∀ d v, P d v → Q d (f v)) : Meets P (update f) Q := fun _ hw => h _ _ hw

theorem Meets.bind {f : α → Program δ μ β} (hm : Meets P m R) (hf : ∀ a, Meets R (f a) Q) : Meets P (m >>= f) Q :=
  fun w hw => hf _ _ (hm w hw)

theorem Meets.map {f : α → β} (hm : Meets P m Q) : Meets P (m >>= fun a => pure (f a)) Q :=
  hm.bind fun a => meets_pure (f a)

theorem meets_asks {f : μ → α} {k : α → Program δ μ β} (h : ∀ a, Meets (fun d v => P d v ∧ f v = a) (k a) Q) :
    Meets P (asks f >>= k) Q :=
  fun w hw => h _ w ⟨hw, rfl⟩

theorem meets_call {op : Tick → δ → Except String (α × δ)}
    (h : ∀ t d a d' v, t.fault = none → op t d = .ok (a, d') → P d v → P d' v) : Meets P (call op) P := by
  intro w hw
  rcases call_cases op w with ⟨error, he, -⟩ | ⟨a, d, hf, ho, he⟩
  · rw [he]
    exact hw
  · rw [he]
    exact h _ _ _ _ _ hf ho hw

theorem Meets.escalate {m : Program δ μ (Except ε α)} {wrap : ε → ε'} {f : α → Program δ μ (Except ε' β)}
    (hm : Meets P m Q) (hf : ∀ a, Meets Q (f a) Q) : Meets P (m.escalate wrap f) Q := by
  refine hm.bind fun answer => ?_
  cases answer with
  | error error => exact meets_pure _
  | ok a => exact hf a

theorem Meets.andThen {m : Program δ μ (Except ε α)} {f : α → Program δ μ (Except ε β)} (hm : Meets P m Q)
    (hf : ∀ a, Meets Q (f a) Q) : Meets P (m.andThen f) Q := hm.escalate hf

theorem meets_tryEach {body : α → Program δ μ (Except String Unit)} (h : ∀ a, Meets P (body a) P) (as : List α) :
    Meets P (tryEach body as) P := by
  induction as with
  | nil => exact meets_pure _
  | cons a as ih => exact (h a).andThen fun _ => ih

theorem meets_forEach {body : α → Program δ μ Unit} (h : ∀ a, Meets P (body a) P) (as : List α) :
    Meets P (forEach body as) P := by
  induction as with
  | nil => exact meets_pure _
  | cons a as ih => exact (h a).bind fun _ => ih

end Meets

end Program

end Wiii
