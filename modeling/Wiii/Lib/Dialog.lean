import Wiii.Lib.Run

/-!
# Programs that interleave on a shared state

A `Dialog` asks one request after the other and goes on with the answers; it may fail.  Between two requests of one
program anything may happen to the shared state.  A `Pool` is a shared state with the programs that run on it.

A `Contract` says what a request does to the shared state, which invariant is kept and what has to hold when a request
is asked.  A program that keeps to it whatever the others do is `Safe` (`safe_request_bind`, `Safe.bind`), and pools of
safe programs keep the invariant (`Pool.sound`).
-/

namespace Wiii

/-- A program that asks requests `r` and is answered by an `α r` to each. -/
inductive Dialog {ρ : Type} (α : ρ → Type) (ε β : Type) : Type
  | done (b : β) : Dialog α ε β
  | fail (e : ε) : Dialog α ε β
  | ask (r : ρ) (k : α r → Dialog α ε β) : Dialog α ε β

namespace Dialog

variable {ρ : Type} {α : ρ → Type} {ε β γ : Type}

def bind : Dialog α ε β → (β → Dialog α ε γ) → Dialog α ε γ
  | done b, f => f b
  | fail e, _ => fail e
  | ask r k, f => ask r fun a => (k a).bind f

instance : Monad (Dialog α ε) where
  pure := done
  bind := bind

def request (r : ρ) : Dialog α ε (α r) := ask r done

/-- A last request, however the program ends. -/
def ensuring (r : ρ) : Dialog α ε β → Dialog α ε β
  | done b => ask r fun _ => done b
  | fail e => ask r fun _ => fail e
  | ask r' k => ask r' fun a => (k a).ensuring r

/-- How the program ends, as a value. -/
def attempt {ε' : Type} : Dialog α ε β → Dialog α ε' (Except ε β)
  | done b => done (.ok b)
  | fail e => done (.error e)
  | ask r k => ask r fun a => (k a).attempt

def ofExcept : Except ε β → Dialog α ε β
  | .ok b => done b
  | .error e => fail e

theorem pure_eq (b : β) : (pure b : Dialog α ε β) = done b := rfl

@[simp] theorem done_bind (b : β) (f : β → Dialog α ε γ) : done b >>= f = f b := rfl

end Dialog

/-- What requests do, when they may be asked, and what the others do in between. -/
structure Contract {ρ : Type} (α : ρ → Type) (σ : Type) where
  effect : (r : ρ) → σ → α r → σ → Prop
  inv : σ → Prop
  later : σ → σ → Prop
  allowed : ρ → σ → Prop
  refl : ∀ s, later s s
  trans : ∀ {s t u}, later s t → later t u → later s u
  sound : ∀ {r s a t}, inv s → allowed r s → effect r s a t → inv t

/-- The requests of one program are among what the others have to expect. -/
structure SharedContract {ρ : Type} (α : ρ → Type) (σ : Type) extends Contract α σ where
  guarantee : ∀ {r s a t}, inv s → allowed r s → effect r s a t → later s t

namespace Dialog

variable {ρ σ : Type} {α : ρ → Type} {ε β γ : Type} (c : Contract α σ)

/-- Last active in `s`, the program asks within the contract and ends in `Q`, if it does not fail. -/
def Safe (Q : β → σ → Prop) : Dialog α ε β → σ → Prop
  | done b, s => ∀ t, c.later s t → c.inv t → Q b t
  | fail _, _ => True
  | ask r k, s => ∀ t, c.later s t → c.inv t →
      c.allowed r t ∧ ∀ a u, c.effect r t a u → Safe Q (k a) u

variable {c} {Q : β → σ → Prop} {d : Dialog α ε β} {s t : σ}

theorem Safe.later (h : Safe c Q d s) (hst : c.later s t) : Safe c Q d t := by
  cases d with
  | done b => exact fun u htu => h u (c.trans hst htu)
  | fail e => trivial
  | ask r k => exact fun u htu => h u (c.trans hst htu)

theorem safe_of_later (h : ∀ t, c.later s t → c.inv t → Safe c Q d t) : Safe c Q d s := by
  cases d with
  | done b => exact fun t hst ht => h t hst ht t (c.refl t) ht
  | fail e => trivial
  | ask r k => exact fun t hst ht => h t hst ht t (c.refl t) ht

theorem safe_fail (e : ε) : Safe c Q (fail e : Dialog α ε β) s := trivial

theorem safe_pure {b : β} (h : ∀ t, c.later s t → c.inv t → Q b t) :
    Safe c Q (pure b : Dialog α ε β) s := h

theorem Safe.mono {Q' : β → σ → Prop} (h : Safe c Q d s) (hQ : ∀ b t, c.inv t → Q b t → Q' b t) :
    Safe c Q' d s := by
  induction d generalizing s with
  | done b => exact fun t hst ht => hQ b t ht (h t hst ht)
  | fail e => trivial
  | ask r k ih =>
    intro t hst ht
    obtain ⟨hallowed, hnext⟩ := h t hst ht
    exact ⟨hallowed, fun a u hu => ih a (hnext a u hu)⟩

theorem Safe.bind {f : β → Dialog α ε γ} {R : γ → σ → Prop}
    (h : Safe c (fun b t => Safe c R (f b) t) d s) : Safe c R (d >>= f) s := by
  induction d generalizing s with
  | done b => exact safe_of_later h
  | fail e => trivial
  | ask r k ih =>
    intro t hst ht
    obtain ⟨hallowed, hnext⟩ := h t hst ht
    exact ⟨hallowed, fun a u hu => ih a (hnext a u hu)⟩

/-- The rule for a request: it is allowed, and what is done with any answer is safe. -/
theorem safe_request_bind {r : ρ} {k : α r → Dialog α ε β}
    (h : ∀ t, c.later s t → c.inv t → c.allowed r t ∧
      ∀ a u, c.effect r t a u → c.inv u → Safe c Q (k a) u) :
    Safe c Q (request r >>= k) s := by
  intro t hst ht
  obtain ⟨hallowed, hnext⟩ := h t hst ht
  exact ⟨hallowed, fun a u hu => hnext a u hu (c.sound ht hallowed hu)⟩

/-- What holds in every later state holds after a request under a shared contract. -/
theorem safe_shared_bind {c : SharedContract α σ} {r : ρ} {k : α r → Dialog α ε β}
    (h : ∀ t, c.later s t → c.inv t → c.allowed r t ∧
      ∀ a u, c.effect r t a u → c.inv u → c.later t u → Safe c.toContract Q (k a) u) :
    Safe c.toContract Q (request r >>= k) s := by
  refine safe_request_bind fun t hst ht => ?_
  obtain ⟨hallowed, hnext⟩ := h t hst ht
  exact ⟨hallowed, fun a u hu hinv => hnext a u hu hinv (c.guarantee ht hallowed hu)⟩

theorem safe_ofExcept_bind {x : Except ε β} {k : β → Dialog α ε γ} {R : γ → σ → Prop}
    (h : ∀ b, x = .ok b → Safe c R (k b) s) : Safe c R (ofExcept x >>= k) s := by
  cases x with
  | ok b => exact h b rfl
  | error e => trivial

theorem Safe.ensuring {r : ρ} (h : Safe c Q d s) (hallowed : ∀ t, c.inv t → c.allowed r t)
    (hkeeps : ∀ b t a u, c.inv t → Q b t → c.effect r t a u → ∀ v, c.later u v → c.inv v → Q b v) :
    Safe c Q (d.ensuring r) s := by
  induction d generalizing s with
  | done b => exact fun t hst ht => ⟨hallowed t ht, fun a u hu => hkeeps b t a u ht (h t hst ht) hu⟩
  | fail e => exact fun t _ ht => ⟨hallowed t ht, fun _ _ _ => trivial⟩
  | ask r' k ih =>
    intro t hst ht
    obtain ⟨hasked, hnext⟩ := h t hst ht
    exact ⟨hasked, fun a u hu => ih a (hnext a u hu)⟩

/-! ### A program alone -/

variable (respond : (r : ρ) → σ → α r × σ)

/-- What a program leaves that nobody disturbs, answered by `respond` each time. -/
def alone : Dialog α ε β → σ → Except ε β × σ
  | done b, s => (.ok b, s)
  | fail e, s => (.error e, s)
  | ask r k, s => (k (respond r s).1).alone (respond r s).2

@[simp] theorem alone_fail (e : ε) : (fail e : Dialog α ε β).alone respond s = (.error e, s) := rfl

@[simp] theorem alone_ofExcept (x : Except ε β) : (ofExcept x : Dialog α ε β).alone respond s = (x, s) := by
  cases x <;> rfl

theorem alone_request_bind (r : ρ) (f : α r → Dialog α ε β) :
    (request r >>= f).alone respond s = (f (respond r s).1).alone respond (respond r s).2 := rfl

theorem alone_bind (d : Dialog α ε β) (f : β → Dialog α ε γ) (s : σ) :
    (d >>= f).alone respond s =
      match d.alone respond s with
      | (.ok b, t) => (f b).alone respond t
      | (.error e, t) => (.error e, t) := by
  induction d generalizing s with
  | done b => rfl
  | fail e => rfl
  | ask r k ih => exact ih (respond r s).1 (respond r s).2

theorem alone_ensuring (r : ρ) (d : Dialog α ε β) (s : σ) :
    (d.ensuring r).alone respond s = ((d.alone respond s).1, (respond r (d.alone respond s).2).2) := by
  induction d generalizing s with
  | done b => rfl
  | fail e => rfl
  | ask r' k ih => exact ih (respond r' s).1 (respond r' s).2

end Dialog

/-! ## Pools -/

structure Pool {ρ : Type} (α : ρ → Type) (ε β σ : Type) where
  shared : σ
  threads : List (Dialog α ε β)

inductive PoolEvent {ρ : Type} (α : ρ → Type) where
  | started
  | asked (r : ρ) (a : α r)
  | dropped
  | foreign

namespace Pool

open Dialog

variable {ρ σ : Type} {α : ρ → Type} {ε β : Type}

/-- A program is started, one is answered, one is dropped, or somebody else acts on the state. -/
inductive Step (effect : (r : ρ) → σ → α r → σ → Prop) (starts : Dialog α ε β → Prop)
    (foreign : σ → σ → Prop) : Pool α ε β σ → PoolEvent α → Pool α ε β σ → Prop
  | start (s : σ) (threads : List (Dialog α ε β)) (d : Dialog α ε β) (h : starts d) :
      Step effect starts foreign ⟨s, threads⟩ .started ⟨s, d :: threads⟩
  | answer {s t : σ} (before after : List (Dialog α ε β)) {r : ρ} (k : α r → Dialog α ε β)
      {a : α r} (h : effect r s a t) :
      Step effect starts foreign ⟨s, before ++ .ask r k :: after⟩ (.asked r a)
        ⟨t, before ++ k a :: after⟩
  | drop (s : σ) (before after : List (Dialog α ε β)) (d : Dialog α ε β) :
      Step effect starts foreign ⟨s, before ++ d :: after⟩ .dropped ⟨s, before ++ after⟩
  | other {s t : σ} (threads : List (Dialog α ε β)) (h : foreign s t) :
      Step effect starts foreign ⟨s, threads⟩ .foreign ⟨t, threads⟩

/-- The invariant holds and the programs are safe. -/
structure Sound (c : SharedContract α σ) (p : Pool α ε β σ) : Prop where
  inv : c.inv p.shared
  safe : ∀ d ∈ p.threads, Safe c.toContract (fun _ _ => True) d p.shared

variable {c : SharedContract α σ} {starts : Dialog α ε β → Prop} {foreign : σ → σ → Prop}
  {p q : Pool α ε β σ} {e : PoolEvent α}

theorem Sound.allowed (h : Sound c p) {r : ρ} {k : α r → Dialog α ε β}
    (hmem : .ask r k ∈ p.threads) : c.allowed r p.shared :=
  (h.safe _ hmem _ (c.refl _) h.inv).1

theorem Sound.move {s : σ} {threads : List (Dialog α ε β)} (h : Sound c ⟨s, threads⟩) {t : σ}
    (ht : c.inv t) (hst : c.later s t) : Sound c ⟨t, threads⟩ :=
  ⟨ht, fun d hd => (h.safe d hd).later hst⟩

theorem Sound.step
    (hstarts : ∀ d, starts d → ∀ s, c.inv s → Safe c.toContract (fun _ _ => True) d s)
    (hforeign : ∀ s t, c.inv s → foreign s t → c.inv t ∧ c.later s t) (h : Sound c p)
    (hs : Step c.effect starts foreign p e q) : Sound c q := by
  cases hs with
  | start s threads d hd =>
    exact ⟨h.inv, List.forall_mem_cons.2 ⟨hstarts d hd s h.inv, h.safe⟩⟩
  | @answer s t before after r k a he =>
    have hmem : Dialog.ask r k ∈ before ++ .ask r k :: after := by simp
    have hinv := c.sound h.inv (h.allowed hmem) he
    have hrest := h.move hinv (c.guarantee h.inv (h.allowed hmem) he)
    refine ⟨hinv, fun d hd => ?_⟩
    rcases List.mem_append.1 hd with hd | hd
    · exact hrest.safe d (List.mem_append_left _ hd)
    · rcases List.mem_cons.1 hd with rfl | hd
      · exact (h.safe _ hmem _ (c.refl _) h.inv).2 a t he
      · exact hrest.safe d (List.mem_append_right _ (List.mem_cons_of_mem _ hd))
  | drop s before after d =>
    refine ⟨h.inv, fun d' hd => h.safe d' ?_⟩
    rcases List.mem_append.1 hd with hd | hd
    · exact List.mem_append_left _ hd
    · exact List.mem_append_right _ (List.mem_cons_of_mem _ hd)
  | other threads hf =>
    obtain ⟨hinv, hlater⟩ := hforeign _ _ h.inv hf
    exact h.move hinv hlater

/-- In every run from a state with the invariant and no program the pool is sound. -/
theorem sound
    (hstarts : ∀ d, starts d → ∀ s, c.inv s → Safe c.toContract (fun _ _ => True) d s)
    (hforeign : ∀ s t, c.inv s → foreign s t → c.inv t ∧ c.later s t) {s : σ} (hs : c.inv s)
    {es : List (PoolEvent α)} (h : Run (Step c.effect starts foreign) ⟨s, []⟩ es p) : Sound c p :=
  h.invariant (fun _ _ _ hp hstep => hp.step hstarts hforeign hstep) ⟨hs, by simp⟩

/-! ## Computed runs -/

theorem run_starts {effect : (r : ρ) → σ → α r → σ → Prop} (s : σ) {ds : List (Dialog α ε β)}
    (h : ∀ d ∈ ds, starts d) : ∃ es, Run (Step effect starts foreign) ⟨s, []⟩ es ⟨s, ds⟩ := by
  induction ds with
  | nil => exact ⟨[], .nil _⟩
  | cons d ds ih =>
    rw [List.forall_mem_cons] at h
    obtain ⟨es, hrun⟩ := ih h.2
    exact ⟨_, hrun.snoc (.start s ds d h.1)⟩

def turn (respond : (r : ρ) → σ → Option (α r × σ)) (i : ℕ) (p : Pool α ε β σ) :
    Option (Pool α ε β σ) :=
  match p.threads[i]? with
  | some (.ask r k) => (respond r p.shared).map fun x => ⟨x.2, p.threads.set i (k x.1)⟩
  | _ => none

def turns {τ : Type} (respond : τ → (r : ρ) → σ → Option (α r × σ)) :
    List (ℕ × τ) → Pool α ε β σ → Option (Pool α ε β σ)
  | [], p => some p
  | (i, x) :: moves, p => (p.turn (respond x) i).bind (turns respond moves)

theorem step_turn {effect : (r : ρ) → σ → α r → σ → Prop}
    {respond : (r : ρ) → σ → Option (α r × σ)}
    (h : ∀ r s a t, respond r s = some (a, t) → effect r s a t) {i : ℕ}
    (ho : p.turn respond i = some q) : ∃ r a, Step effect starts foreign p (.asked r a) q := by
  unfold turn at ho
  split at ho
  · rename_i r k hi
    obtain ⟨⟨a, t⟩, hrespond, rfl⟩ := Option.map_eq_some_iff.1 ho
    obtain ⟨s, threads⟩ := p
    obtain ⟨hlt, hget⟩ := List.getElem?_eq_some_iff.1 hi
    refine ⟨r, a, ?_⟩
    have hsplit : threads = threads.take i ++ .ask r k :: threads.drop (i + 1) := by
      rw [← hget, List.getElem_cons_drop, List.take_append_drop]
    rw [List.set_eq_take_append_cons_drop, if_pos hlt]
    nth_rewrite 1 [hsplit]
    exact .answer _ _ k (h r s a t hrespond)
  · cases ho

theorem run_turns {τ : Type} {effect : (r : ρ) → σ → α r → σ → Prop}
    {respond : τ → (r : ρ) → σ → Option (α r × σ)}
    (h : ∀ x r s a t, respond x r s = some (a, t) → effect r s a t) {moves : List (ℕ × τ)}
    (ho : turns respond moves p = some q) : ∃ es, Run (Step effect starts foreign) p es q := by
  induction moves generalizing p with
  | nil =>
    cases ho
    exact ⟨[], .nil _⟩
  | cons move moves ih =>
    obtain ⟨i, x⟩ := move
    obtain ⟨p', hturn, hrest⟩ := Option.bind_eq_some_iff.1 ho
    obtain ⟨r, a, hstep⟩ : ∃ r a, Step effect starts foreign p (.asked r a) p' :=
      step_turn (h x) hturn
    obtain ⟨es, hrun⟩ := ih hrest
    exact ⟨_, .cons hstep hrun⟩

end Pool

end Wiii

/-!
## One program at a time

A `Solo` is a shared state with at most one program that runs on it, next to others who act on the state
between the requests of the program.  What the program relies on is kept by the others alone, so a
`Contract` is enough (`Solo.sound`), and what the program knows of the state may be changed by its own
requests.
-/

namespace Wiii

open Dialog

/-- A shared state and the program that runs on it, if one does. -/
structure Solo {ρ : Type} (α : ρ → Type) (ε β σ : Type) where
  shared : σ
  running : Option (Dialog α ε β)

namespace Solo

variable {ρ σ : Type} {α : ρ → Type} {ε β : Type}

/-- A program is started, answered, ended or dropped, or somebody else acts on the state. -/
inductive Step (effect : (r : ρ) → σ → α r → σ → Prop) (starts : Dialog α ε β → Prop)
    (foreign : σ → σ → Prop) : Solo α ε β σ → PoolEvent α → Solo α ε β σ → Prop
  | start (s : σ) (d : Dialog α ε β) (h : starts d) :
      Step effect starts foreign ⟨s, none⟩ .started ⟨s, some d⟩
  | answer {s t : σ} {r : ρ} (k : α r → Dialog α ε β) {a : α r} (h : effect r s a t) :
      Step effect starts foreign ⟨s, some (.ask r k)⟩ (.asked r a) ⟨t, some (k a)⟩
  | drop (s : σ) (d : Dialog α ε β) :
      Step effect starts foreign ⟨s, some d⟩ .dropped ⟨s, none⟩
  | other {s t : σ} (running : Option (Dialog α ε β)) (h : foreign s t) :
      Step effect starts foreign ⟨s, running⟩ .foreign ⟨t, running⟩

/-- The invariant holds and the program is safe. -/
structure Sound (c : Contract α σ) (p : Solo α ε β σ) : Prop where
  inv : c.inv p.shared
  safe : ∀ d, p.running = some d → Safe c (fun _ _ => True) d p.shared

variable {c : Contract α σ} {starts : Dialog α ε β → Prop} {foreign : σ → σ → Prop}
  {p q : Solo α ε β σ} {e : PoolEvent α}

theorem Sound.step
    (hstarts : ∀ d, starts d → ∀ s, c.inv s → Safe c (fun _ _ => True) d s)
    (hforeign : ∀ s t, c.inv s → foreign s t → c.inv t ∧ c.later s t) (h : Sound c p)
    (hs : Step c.effect starts foreign p e q) : Sound c q := by
  cases hs with
  | start s d hd =>
    refine ⟨h.inv, fun d' hd' => ?_⟩
    cases hd'
    exact hstarts d hd s h.inv
  | @answer s t r k a he =>
    obtain ⟨hallowed, hnext⟩ := h.safe _ rfl s (c.refl s) h.inv
    refine ⟨c.sound h.inv hallowed he, fun d hd => ?_⟩
    cases hd
    exact hnext a t he
  | drop s d => exact ⟨h.inv, by simp⟩
  | other running hf =>
    obtain ⟨hinv, hlater⟩ := hforeign _ _ h.inv hf
    exact ⟨hinv, fun d hd => (h.safe d hd).later hlater⟩

/-- In every run from a state with the invariant and no program, program and state are sound. -/
theorem sound
    (hstarts : ∀ d, starts d → ∀ s, c.inv s → Safe c (fun _ _ => True) d s)
    (hforeign : ∀ s t, c.inv s → foreign s t → c.inv t ∧ c.later s t) {s : σ} (hs : c.inv s)
    {es : List (PoolEvent α)} (h : Run (Step c.effect starts foreign) ⟨s, none⟩ es p) :
    Sound c p :=
  h.invariant (fun _ _ _ hp hstep => hp.step hstarts hforeign hstep) ⟨hs, by simp⟩

/-! ## Computed runs -/

/-- The program is answered for a while, each time as `respond` says. -/
def turns {τ : Type} (respond : τ → (r : ρ) → σ → Option (α r × σ)) :
    List τ → Dialog α ε β → σ → Option (Dialog α ε β × σ)
  | [], d, s => some (d, s)
  | x :: xs, .ask r k, s => (respond x r s).bind fun y => turns respond xs (k y.1) y.2
  | _ :: _, _, _ => none

theorem run_turns {τ : Type} {effect : (r : ρ) → σ → α r → σ → Prop}
    {respond : τ → (r : ρ) → σ → Option (α r × σ)}
    (h : ∀ x r s a t, respond x r s = some (a, t) → effect r s a t) {xs : List τ}
    {d d' : Dialog α ε β} {s s' : σ} (ho : turns respond xs d s = some (d', s')) :
    ∃ es, Run (Step effect starts foreign) ⟨s, some d⟩ es ⟨s', some d'⟩ := by
  induction xs generalizing d s with
  | nil =>
    cases ho
    exact ⟨[], .nil _⟩
  | cons x xs ih =>
    cases d with
    | ask r k =>
      obtain ⟨⟨a, t⟩, hrespond, hrest⟩ := Option.bind_eq_some_iff.1 ho
      obtain ⟨es, hrun⟩ := ih hrest
      exact ⟨_, .cons (.answer k (h x r s a t hrespond)) hrun⟩
    | done b => cases ho
    | fail e => cases ho

end Solo

end Wiii

/-!
## One program under two sets of answers

`Only p d` says that the program `d` asks no other requests than those of `p`; answers that agree on these lead it to
the same end (`Only.alone_congr`).  `Breaks` is the case where the answers matter: the program completes under the ones
and fails under the others.  Such a program is peeled apart with `Breaks.of_bind`.
-/

namespace Wiii.Dialog

variable {ρ ρ' σ : Type} {α : ρ → Type} {α' : ρ' → Type} {ε β γ : Type}

/-! ## The requests of a program -/

/-- The program asks such requests only. -/
def Only (p : ρ → Prop) : Dialog α ε β → Prop
  | done _ | fail _ => True
  | ask r k => p r ∧ ∀ a, Only p (k a)

section Only

variable {p : ρ → Prop} {d : Dialog α ε β}

theorem only_true (d : Dialog α ε β) : Only (fun _ => True) d := by
  induction d with
  | done b => trivial
  | fail e => trivial
  | ask r k ih => exact ⟨trivial, ih⟩

theorem only_pure (b : β) : Only p (pure b : Dialog α ε β) := trivial

theorem only_fail (e : ε) : Only p (fail e : Dialog α ε β) := trivial

theorem only_ofExcept (x : Except ε β) : Only p (ofExcept x : Dialog α ε β) := by
  cases x <;> trivial

theorem Only.bind {f : β → Dialog α ε γ} (hd : Only p d) (hf : ∀ b, Only p (f b)) : Only p (d >>= f) := by
  induction d with
  | done b => exact hf b
  | fail e => trivial
  | ask r k ih => exact ⟨hd.1, fun a => ih a (hd.2 a)⟩

theorem only_request_bind {r : ρ} {k : α r → Dialog α ε β} (hr : p r) (hk : ∀ a, Only p (k a)) :
    Only p (request r >>= k) :=
  ⟨hr, hk⟩

theorem Only.ensuring {r : ρ} (hd : Only p d) (hr : p r) : Only p (d.ensuring r) := by
  induction d with
  | done b => exact ⟨hr, fun _ => trivial⟩
  | fail e => exact ⟨hr, fun _ => trivial⟩
  | ask r' k ih => exact ⟨hd.1, fun a => ih a (hd.2 a)⟩

theorem Only.attempt {ε' : Type} (hd : Only p d) : Only p (d.attempt : Dialog α ε' (Except ε β)) := by
  induction d with
  | done b => trivial
  | fail e => trivial
  | ask r k ih => exact ⟨hd.1, fun a => ih a (hd.2 a)⟩

theorem Only.mono {q : ρ → Prop} (hd : Only p d) (hpq : ∀ r, p r → q r) : Only q d := by
  induction d with
  | done b => trivial
  | fail e => trivial
  | ask r k ih => exact ⟨hpq r hd.1, fun a => ih a (hd.2 a)⟩

theorem Only.alone_congr {respond respond' : (r : ρ) → σ → α r × σ} (hd : Only p d)
    (h : ∀ r, p r → respond r = respond' r) (s : σ) : d.alone respond s = d.alone respond' s := by
  induction d generalizing s with
  | done b => rfl
  | fail e => rfl
  | ask r k ih =>
    unfold alone
    rw [h r hd.1]
    exact ih _ (hd.2 _) _

theorem Only.alone_keeps {respond : (r : ρ) → σ → α r × σ} {I : σ → Prop} (hd : Only p d)
    (h : ∀ r s, p r → I s → I (respond r s).2) {s : σ} (hs : I s) : I (d.alone respond s).2 := by
  induction d generalizing s with
  | done b => exact hs
  | fail e => exact hs
  | ask r k ih => exact ih _ (hd.2 _) (h r s hd.1 hs)

theorem Only.alone_eq {respond : (r : ρ) → σ → α r × σ} {s t : σ} {x : Except ε β} (hd : Only p d)
    (h : ∀ r, p r → ∀ s, (respond r s).2 = s) (hrun : d.alone respond s = (x, t)) : t = s := by
  have hsame : (d.alone respond s).2 = s :=
    hd.alone_keeps (I := fun u => u = s) (fun r u hr hu => (h r hr u).trans hu) rfl
  rw [← hsame, hrun]

end Only

/-! ## A larger choice of requests -/

/-- The program among those that may ask more. -/
def inl : Dialog α ε β → Dialog (Sum.elim α α') ε β
  | done b => done b
  | fail e => fail e
  | ask r k => ask (.inl r) fun a => (k a).inl

/-- The answers to both kinds of requests. -/
def either (respond : (r : ρ) → σ → α r × σ) (respond' : (r : ρ') → σ → α' r × σ) :
    (r : ρ ⊕ ρ') → σ → Sum.elim α α' r × σ
  | .inl r, s => respond r s
  | .inr r, s => respond' r s

@[simp] theorem alone_inl (respond : (r : ρ) → σ → α r × σ) (respond' : (r : ρ') → σ → α' r × σ)
    (d : Dialog α ε β) (s : σ) : d.inl.alone (either respond respond') s = d.alone respond s := by
  induction d generalizing s with
  | done b => rfl
  | fail e => rfl
  | ask r k ih => exact ih _ _

theorem Only.inl {p : ρ ⊕ ρ' → Prop} {d : Dialog α ε β} (h : Only (fun r => p (.inl r)) d) :
    Only p (d.inl : Dialog (Sum.elim α α') ε β) := by
  induction d with
  | done b => trivial
  | fail e => trivial
  | ask r k ih => exact ⟨h.1, fun a => ih a (h.2 a)⟩

/-! ## A program that one answer breaks -/

variable {respond respond' : (r : ρ) → σ → α r × σ}

theorem alone_bind_ok_iff {d : Dialog α ε β} {f : β → Dialog α ε γ} {s u : σ} {c : γ} :
    (d >>= f).alone respond s = (.ok c, u) ↔
      ∃ b t, d.alone respond s = (.ok b, t) ∧ (f b).alone respond t = (.ok c, u) := by
  rw [alone_bind]
  rcases d.alone respond s with ⟨e | b, t⟩
  · constructor
    · intro h
      cases h
    · rintro ⟨b, t', h, -⟩
      cases h
  · constructor
    · exact fun h => ⟨b, t, rfl, h⟩
    · rintro ⟨b', t', h, h'⟩
      cases h
      exact h'

/-- The program completes under the ones, and fails under the others and leaves `s'`. -/
structure Breaks (respond respond' : (r : ρ) → σ → α r × σ) (e : ε) (d : Dialog α ε β) (s s' : σ) : Prop where
  completes : ∃ b t, d.alone respond s = (.ok b, t)
  fails : d.alone respond' s = (.error e, s')

namespace Breaks

variable {e : ε} {d : Dialog α ε β} {s s' : σ}

theorem not_of_eq (h : Breaks respond respond' e d s s') : d.alone respond s ≠ d.alone respond' s := by
  obtain ⟨⟨b, t, hok⟩, herror⟩ := h
  rw [hok, herror]
  intro h
  cases h

theorem not_of_fail {e' : ε} (h : Breaks respond respond' e (fail e' : Dialog α ε β) s s') : False :=
  h.not_of_eq rfl

theorem not_of_pure {b : β} (h : Breaks respond respond' e (pure b : Dialog α ε β) s s') : False :=
  h.not_of_eq rfl

theorem not_of_only {p : ρ → Prop} (h : Breaks respond respond' e d s s') (hd : Only p d)
    (hagree : ∀ r, p r → respond r = respond' r) : False :=
  h.not_of_eq (hd.alone_congr hagree s)

theorem of_bind {f : β → Dialog α ε γ} (h : Breaks respond respond' e (d >>= f) s s')
    (hagree : d.alone respond s = d.alone respond' s) :
    ∃ b t, d.alone respond s = (.ok b, t) ∧ Breaks respond respond' e (f b) t s' := by
  obtain ⟨⟨c, u, hok⟩, herror⟩ := h
  obtain ⟨b, t, hd, hf⟩ := alone_bind_ok_iff.1 hok
  rw [alone_bind, ← hagree, hd] at herror
  exact ⟨b, t, hd, ⟨c, u, hf⟩, herror⟩

theorem of_ensuring {r : ρ} (h : Breaks respond respond' e (d.ensuring r) s s')
    (hkeeps : ∀ s, (respond' r s).2 = s) : Breaks respond respond' e d s s' := by
  obtain ⟨⟨c, u, hok⟩, herror⟩ := h
  rw [alone_ensuring] at hok herror
  rw [hkeeps] at herror
  exact ⟨⟨c, _, Prod.ext (Prod.mk.inj hok).1 rfl⟩, herror⟩

end Breaks

end Wiii.Dialog
