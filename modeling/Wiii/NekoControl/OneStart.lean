import Wiii.NekoControl.Starts

/-!
# One start identity for a provider start

A start request of uncertain outcome may only be repeated under its own identity (`OneStart`).  Four steps go past the
table that keeps it: a call that has listed the durable sessions registers a new identity without another look, and a
start is given up after it was sent or sent after it was given up.  Runs without these steps have `OneStart`
(`one_start_of_run`); two preparations of one Codex account probe break it (`two_starts`).
-/

namespace Wiii.NekoControl

open Function (update update_self update_of_ne)

/-! ## The property -/

namespace ControlClient

variable {s t : ControlClient} {id : ℕ}

/-- Of the identities of one key that were sent, at most one has no certain outcome. -/
def OneStart (s : ControlClient) : Prop :=
  ∀ i ∈ s.sent, ∀ j ∈ s.sent, s.certain i = false → s.certain j = false →
    ∀ x y, s.identities i = some x → s.identities j = some y → x.startKey = y.startKey → i = j

def IsRegistered (id : ℕ) (s : ControlClient) : Prop :=
  ∃ identity, s.identities id = some identity ∧ s.IsCurrent identity.startKey id

/-- The identity is registered until certain, unless its listeners failed. -/
structure Kept (s : ControlClient) : Prop where
  fresh : ∀ id, s.identities id ≠ none → id < s.nextIdentity
  keyed : ∀ key entry, s.unresolvedStarts.find? key = some entry →
    ∃ identity, s.identities entry.identity = some identity ∧ identity.startKey = key
  sent : ∀ id ∈ s.sent, s.certain id = false → s.IsRegistered id
  unsent : ∀ id identity, s.identities id = some identity → s.certain id = false → ¬ s.IsRegistered id →
    identity.listenerSetup = some (some false)

theorem Kept.oneStart (h : s.Kept) : s.OneStart := by
  intro i hi j hj hi' hj' x y hx hy hkey
  obtain ⟨x', hx', hcurrent⟩ := h.sent i hi hi'
  obtain ⟨y', hy', hcurrent'⟩ := h.sent j hj hj'
  rw [hx] at hx'
  rw [hy] at hy'
  cases hx'
  cases hy'
  unfold IsCurrent at hcurrent hcurrent'
  rw [hkey, hcurrent'] at hcurrent
  cases hcurrent
  rfl

theorem IsRegistered.frame (h : s.IsRegistered id)
    (hframe : ∀ x, s.identities id = some x → ∃ y, t.identities id = some y ∧ y.startKey = x.startKey ∧
      t.unresolvedStarts.find? x.startKey = s.unresolvedStarts.find? x.startKey) : t.IsRegistered id := by
  obtain ⟨x, hx, hcurrent⟩ := h
  obtain ⟨y, hy, hkey, hfind⟩ := hframe x hx
  refine ⟨y, hy, ?_⟩
  show t.unresolvedStarts.find? y.startKey = _
  rw [hkey, hfind]
  exact hcurrent

theorem kept_empty : Kept {} where
  fresh := fun id h => absurd rfl h
  keyed := fun _ _ h => by cases h
  sent := fun id h => by cases h
  unsent := fun _ _ h => by cases h

/-! ## What the stretches do to the table -/

theorem Kept.register (h : s.Kept) {request : SpawnRequest}
    (hfree : s.unresolvedStarts.find? request.startKey = none) : (s.register request).2.Kept := by
  have hnew : s.identities s.nextIdentity = none := by
    by_contra hne
    exact absurd (h.fresh _ hne) (Nat.lt_irrefl _)
  have hold : ∀ j x, s.identities j = some x → (s.register request).2.identities j = some x := by
    intro j x hx
    have hne : j ≠ s.nextIdentity := fun heq => by simp [heq, hnew] at hx
    exact (update_of_ne hne _ _).trans hx
  have hframe : ∀ j, s.IsRegistered j → (s.register request).2.IsRegistered j := by
    intro j hj
    refine hj.frame fun x hx => ⟨x, hold j x hx, rfl, ?_⟩
    obtain ⟨x', hx', hcurrent⟩ := hj
    rw [hx] at hx'
    cases hx'
    have hne : x.startKey ≠ request.startKey := fun heq => by
      rw [IsCurrent, heq, hfree] at hcurrent
      cases hcurrent
    exact (Table.find?_upsert _ _ _).trans (if_neg hne)
  have hcurrent : (s.register request).2.IsRegistered s.nextIdentity :=
    ⟨_, update_self _ _ _, (Table.find?_upsert _ _ _).trans (if_pos rfl)⟩
  refine ⟨fun j hj => ?_, fun key entry hentry => ?_, fun j hj hcertain => hframe j (h.sent j hj hcertain),
    fun j x hx hcertain hj => ?_⟩
  · by_cases heq : j = s.nextIdentity
    · exact heq ▸ Nat.lt_succ_self _
    · exact Nat.lt_succ_of_lt (h.fresh j fun hnone => hj ((update_of_ne heq _ _).trans hnone))
  · have hentry : (s.unresolvedStarts.upsert ⟨request.startKey, s.nextIdentity⟩).find? key = some entry := hentry
    rw [Table.find?_upsert] at hentry
    split at hentry
    · rename_i heq
      cases hentry
      exact ⟨_, update_self _ _ _, heq.symm⟩
    · obtain ⟨x, hx, hkey⟩ := h.keyed key entry hentry
      exact ⟨x, hold _ x hx, hkey⟩
  · have hne : j ≠ s.nextIdentity := fun heq => hj (heq ▸ hcurrent)
    exact h.unsent j x ((update_of_ne hne _ _).symm.trans hx) hcertain fun hreg => hj (hframe j hreg)

theorem Kept.upsert (h : s.Kept) {key : StartKey} (hcurrent : s.IsCurrent key id) :
    Kept { s with unresolvedStarts := s.unresolvedStarts.upsert ⟨key, id⟩ } := by
  have hfind : ∀ key', (s.unresolvedStarts.upsert ⟨key, id⟩).find? key' = s.unresolvedStarts.find? key' := by
    intro key'
    rw [Table.find?_upsert]
    split
    · rename_i heq
      exact heq ▸ hcurrent.symm
    · rfl
  have hframe : ∀ j, s.IsRegistered j →
      IsRegistered j { s with unresolvedStarts := s.unresolvedStarts.upsert ⟨key, id⟩ } :=
    fun j hj => hj.frame fun x hx => ⟨x, hx, rfl, hfind _⟩
  exact ⟨h.fresh, fun key' entry hentry => h.keyed key' entry ((hfind key').symm.trans hentry),
    fun j hj hcertain => hframe j (h.sent j hj hcertain),
    fun j x hx hcertain hj => h.unsent j x hx hcertain fun hreg => hj (hframe j hreg)⟩

theorem identities_modify {f : StartIdentity → StartIdentity} {j : ℕ} {y : StartIdentity}
    (hy : (s.modify id f).identities j = some y) :
    ∃ x, s.identities j = some x ∧ y = if j = id then f x else x := by
  by_cases heq : j = id
  · subst heq
    have hy : update s.identities j ((s.identities j).map f) j = some y := hy
    rw [update_self] at hy
    obtain ⟨x, hx, rfl⟩ := Option.map_eq_some_iff.1 hy
    exact ⟨x, hx, (if_pos rfl).symm⟩
  · exact ⟨y, (update_of_ne heq _ _).symm.trans hy, (if_neg heq).symm⟩

theorem identities_modify_of {f : StartIdentity → StartIdentity} {j : ℕ} {x : StartIdentity}
    (hx : s.identities j = some x) : (s.modify id f).identities j = some (if j = id then f x else x) := by
  by_cases heq : j = id
  · subst heq
    rw [if_pos rfl]
    exact (update_self _ _ _).trans (by rw [hx]; rfl)
  · rw [if_neg heq]
    exact (update_of_ne heq _ _).trans hx

theorem Kept.modify (h : s.Kept) {f : StartIdentity → StartIdentity} (hkey : ∀ x, (f x).startKey = x.startKey)
    (hsetup : ∀ x, s.identities id = some x → x.listenerSetup = some (some false) →
      (f x).listenerSetup = some (some false)) : (s.modify id f).Kept := by
  have hkeys : ∀ j x, (if j = id then f x else x).startKey = x.startKey := by
    intro j x
    split
    · exact hkey x
    · rfl
  have hframe : ∀ j, s.IsRegistered j → (s.modify id f).IsRegistered j :=
    fun j hj => hj.frame fun x hx => ⟨_, identities_modify_of hx, hkeys j x, rfl⟩
  refine ⟨fun j hj => ?_, fun key entry hentry => ?_, fun j hj hcertain => hframe j (h.sent j hj hcertain),
    fun j y hy hcertain hj => ?_⟩
  · obtain ⟨y, hy⟩ := Option.ne_none_iff_exists'.1 hj
    obtain ⟨x, hx, -⟩ := identities_modify hy
    exact h.fresh j fun hnone => by simp [hnone] at hx
  · obtain ⟨x, hx, hkey'⟩ := h.keyed key entry hentry
    exact ⟨_, identities_modify_of hx, (hkeys _ x).trans hkey'⟩
  · obtain ⟨x, hx, rfl⟩ := identities_modify hy
    have hx' := h.unsent j x hx hcertain fun hreg => hj (hframe j hreg)
    split
    · rename_i heq
      exact hsetup x (heq ▸ hx) hx'
    · exact hx'

theorem Kept.send (h : s.Kept) (hid : s.certain id = false → s.IsRegistered id) : (s.send id).Kept := by
  refine ⟨h.fresh, h.keyed, fun j hj hcertain => ?_, h.unsent⟩
  rcases List.mem_append.1 hj with hj | hj
  · exact h.sent j hj hcertain
  · cases List.mem_singleton.1 hj
    exact hid hcertain

theorem Kept.settle (h : s.Kept) : (s.settle id).Kept := by
  have hcertain : ∀ j, (s.settle id).certain j = false → s.certain j = false := by
    intro j hj
    have hne : j ≠ id := fun heq => by simp [ControlClient.settle, heq] at hj
    exact (update_of_ne hne _ _).symm.trans hj
  exact ⟨h.fresh, h.keyed, fun j hj hj' => h.sent j hj (hcertain j hj'),
    fun j x hx hj => h.unsent j x hx (hcertain j hj)⟩

theorem certain_settle : (s.settle id).certain id = true := update_self _ _ _

theorem Kept.forget (h : s.Kept) {key : StartKey} (hid : s.certain id = false → id ∉ s.sent ∧
    ∀ x, s.identities id = some x → x.listenerSetup = some (some false)) : (s.forget key id).Kept := by
  unfold ControlClient.forget
  split
  · rename_i hcurrent
    have hframe : ∀ j, j ≠ id → s.IsRegistered j →
        IsRegistered j { s with unresolvedStarts := s.unresolvedStarts.delete key } := by
      intro j hne hj
      refine hj.frame fun x hx => ⟨x, hx, rfl, ?_⟩
      obtain ⟨x', hx', hcurrent'⟩ := hj
      rw [hx] at hx'
      cases hx'
      have hkey : x.startKey ≠ key := fun heq => by
        rw [IsCurrent, heq, hcurrent] at hcurrent'
        cases hcurrent'
        exact hne rfl
      exact (Table.find?_delete _ _ _).trans (if_neg hkey)
    refine ⟨h.fresh, fun key' entry hentry => ?_, fun j hj hcertain => ?_, fun j x hx hcertain hj => ?_⟩
    · have hentry : (s.unresolvedStarts.delete key).find? key' = some entry := hentry
      rw [Table.find?_delete] at hentry
      split at hentry
      · cases hentry
      · exact h.keyed key' entry hentry
    · have hne : j ≠ id := fun heq => (hid (heq ▸ hcertain)).1 (heq ▸ hj)
      exact hframe j hne (h.sent j hj hcertain)
    · by_cases heq : j = id
      · subst heq
        exact (hid hcertain).2 x hx
      · exact h.unsent j x hx hcertain fun hreg => hj (hframe j heq hreg)
  · exact h

theorem Kept.settle_forget (h : s.Kept) {key : StartKey} : ((s.settle id).forget key id).Kept :=
  h.settle.forget fun hcertain => by simp [certain_settle] at hcertain

end ControlClient

/-! ## Steady steps -/

namespace Ask

open ControlClient

/-- The four steps that go past the table of starts are not taken. -/
def Steady : (r : Ask) → r.Answer → ControlClient → Prop
  | bootstrapListing spawn, .ok _, s => s.unresolvedStarts.find? spawn.startKey = none
  | listeners _ id, false, s => s.certain id = false → id ∉ s.sent
  | startFailed _ id false (.text message), _, s => isUnknownStartOutcome message = true ∨ s.certain id = true
  | retainedListing id, .ok none, s => s.certain id = false → id ∈ s.sent ∨ s.IsRegistered id
  | _, _, _ => True

variable {s t : ControlClient}

theorem kept_enter {spawn : SpawnRequest} (h : s.Kept) : (afterEnter spawn s).2.Kept := by
  unfold afterEnter
  split
  · rename_i hfree
    split
    · exact h
    · exact h.register hfree
  · rename_i prior hprior
    split
    · exact h
    · have hcurrent : s.IsCurrent spawn.startKey prior.identity := by
        rw [IsCurrent, hprior]
        cases prior
        cases Table.key_of_find? hprior
        rfl
      exact h.upsert hcurrent

theorem kept_bootstrapListing {spawn : SpawnRequest} {reply : Except Failure (List NativeSession)} (h : s.Kept)
    (hsteady : Steady (bootstrapListing spawn) (afterBootstrapListing spawn reply s).1 s) :
    (afterBootstrapListing spawn reply s).2.Kept := by
  unfold afterBootstrapListing at hsteady ⊢
  split at hsteady
  · exact h
  · split at hsteady
    · rw [if_pos ‹_›]
      exact h
    · rw [if_neg ‹_›]
      exact h.register hsteady

theorem kept_imports {id : ℕ} {ok : Bool} (h : s.Kept) : (afterImports id ok s).2.Kept := by
  unfold afterImports
  split
  · refine h.modify (fun x => ?_) fun x _ hsetup => ?_
    · split <;> rfl
    · rw [if_neg (by simp [hsetup])]
      exact hsetup
  · exact h

theorem kept_listeners {key : StartKey} {id : ℕ} {ok : Bool} (h : s.Kept)
    (hpossible : possible (listeners key id) ok s = true) (hsteady : Steady (listeners key id) ok s) :
    (afterListeners key id ok s).2.Kept := by
  obtain ⟨x, hx, hsetup⟩ := (Option.any_eq_true _ _).1 hpossible
  have hsetup := of_decide_eq_true hsetup
  have hmodified : (s.modify id fun identity => { identity with listenerSetup := some (some ok) }).Kept := by
    refine h.modify (fun x => rfl) fun y hy hfailed => ?_
    rw [hx] at hy
    cases hy
    rw [hfailed] at hsetup
    rcases hsetup with hsetup | hsetup
    · cases hsetup
    · exact hsetup.symm
  unfold afterListeners
  cases ok with
  | true =>
    refine hmodified.send fun hcertain => ?_
    have hreg : s.IsRegistered id := by
      by_contra hreg
      rw [h.unsent id x hx hcertain hreg] at hsetup
      rcases hsetup with hsetup | hsetup <;> cases hsetup
    exact hreg.frame fun y hy => ⟨_, identities_modify_of hy, by rw [if_pos rfl]; rfl, rfl⟩
  | false =>
    refine hmodified.forget fun hcertain => ⟨hsteady hcertain, fun y hy => ?_⟩
    obtain ⟨z, -, rfl⟩ := identities_modify hy
    rw [if_pos rfl]

theorem kept_startReply {id : ℕ} {first : Bool} {reply : InvokeReply (Option StartResult)} (h : s.Kept)
    (hpossible : possible (startReply id first) reply s = true) : (afterStartReply id first reply s).2.Kept := by
  unfold afterStartReply
  dsimp only
  split
  · exact h.send (h.sent id (of_decide_eq_true hpossible))
  · exact h

theorem kept_started {key : StartKey} {id : ℕ} {result : Option StartResult} (h : s.Kept) :
    (afterStarted key id result s).2.Kept := by
  unfold afterStarted
  split
  · split
    · exact h
    · exact h.settle_forget
  · exact h

theorem kept_giveUp {key : StartKey} {id : ℕ} {cancelled : Bool} (h : s.Kept) :
    (if cancelled then (s.settle id).forget key id else s).Kept := by
  split
  · exact h.settle_forget
  · exact h

theorem kept_startFailed {key : StartKey} {id : ℕ} {rejected : Bool} {failure : Failure} (h : s.Kept)
    (hsteady : Steady (startFailed key id rejected failure) () s) :
    (afterStartFailed key id rejected failure s).Kept := by
  unfold afterStartFailed
  split
  · split
    · exact h
    · rename_i message hknown
      cases rejected with
      | true => exact h.settle_forget
      | false =>
        refine h.forget fun hcertain => ?_
        rcases hsteady with hunknown | hcertain'
        · exact absurd hunknown hknown
        · rw [hcertain'] at hcertain
          cases hcertain
  · exact h

theorem kept_retainedListing {id : ℕ} {reply : Except Failure (List NativeSession)} (h : s.Kept)
    (hsteady : Steady (retainedListing id) (afterRetainedListing id reply s).1 s) :
    (afterRetainedListing id reply s).2.Kept := by
  unfold afterRetainedListing at hsteady ⊢
  split at hsteady
  · exact h
  · split at hsteady
    · exact h
    · refine h.send fun hcertain => ?_
      rcases hsteady hcertain with hsent | hreg
      · exact h.sent id hsent hcertain
      · exact hreg

theorem Effect.kept {r : Ask} {a : r.Answer} (h : s.Kept) (he : Effect r s a t) (hsteady : r.Steady a s) :
    t.Kept := by
  obtain ⟨reply, hpossible, hstretch⟩ := he
  have ha : a = (r.stretch reply s).1 := by rw [hstretch]
  have ht : t = (r.stretch reply s).2 := by rw [hstretch]
  subst ha ht
  cases r with
  | enter spawn => exact kept_enter h
  | bootstrapListing spawn => exact kept_bootstrapListing h hsteady
  | imports id => exact kept_imports h
  | listeners key id => exact kept_listeners h hpossible hsteady
  | startReply id first => exact kept_startReply h hpossible
  | started key id result => exact kept_started h
  | startFailed key id rejected failure => exact kept_startFailed h hsteady
  | giveUp key id cancelled => exact kept_giveUp h
  | retainedListing id => exact kept_retainedListing h hsteady
  | forget key id => exact h.settle_forget
  | overflow id => exact h.modify (fun _ => rfl) fun _ _ hsetup => hsetup
  | overflowSettled id ok => exact h.modify (fun _ => rfl) fun _ _ hsetup => hsetup
  | replayed id result => exact h
  | overflowing id => exact h
  | overflowCancellation id => exact h
  | sessions => exact h
  | cancelReply id => exact h
  | retained clientSessionId => exact h
  | importCore => exact h

end Ask

/-! ## Runs -/

section Runs

variable {p q : Pool Ask.Answer Failure ℕ ControlClient} {e : PoolEvent Ask.Answer}
  {es : List (PoolEvent Ask.Answer)}

def Steady (p : Pool Ask.Answer Failure ℕ ControlClient) : PoolEvent Ask.Answer → Prop
  | .asked r a => r.Steady a p.shared
  | _ => True

theorem kept_step (h : p.shared.Kept) (hs : Guarded Step Steady p e q) : q.shared.Kept := by
  obtain ⟨hs, hsteady⟩ := hs
  cases hs with
  | start s threads d hd => exact h
  | answer before after k he => exact he.kept h hsteady
  | drop s before after d => exact h
  | other threads hf => exact hf.elim

theorem guarded_of_step (hs : Pool.Step (fun r s a t => Ask.Effect r s a t ∧ r.Steady a s) Starts
    (fun _ _ => False) p e q) : Guarded Step Steady p e q := by
  cases hs with
  | start s threads d hd => exact ⟨.start s threads d hd, trivial⟩
  | answer before after k he => exact ⟨.answer before after k he.1, he.2⟩
  | drop s before after d => exact ⟨.drop s before after d, trivial⟩
  | other threads hf => exact hf.elim

/-- In every state of a steady run each key has at most one sent identity of uncertain outcome. -/
theorem one_start_of_run (h : Run (Guarded Step Steady) ⟨{}, []⟩ es p) : p.shared.OneStart :=
  (h.invariant (I := fun p : Pool Ask.Answer Failure ℕ ControlClient => p.shared.Kept)
    (fun _ _ _ => kept_step) ControlClient.kept_empty).oneStart

end Runs

/-! ## Computed runs -/

/-- A native side that loses the replies to starts, and lists what is given. -/
def silent (listed : Option (List NativeSession)) : (r : Ask) → Option r.Reply
  | .enter _ => some ()
  | .bootstrapListing _ => listed.map .ok
  | .imports _ | .listeners _ _ => some true
  | .startReply _ _ => some .bridge
  | .startFailed _ _ true _ => some ()
  | _ => none

def respond (listed : Option (List NativeSession)) (r : Ask) (s : ControlClient) :
    Option (r.Answer × ControlClient) :=
  (silent listed r).bind fun reply => if r.possible reply s then some (r.stretch reply s) else none

variable {listed : Option (List NativeSession)} {r : Ask} {s t : ControlClient} {a : r.Answer}

theorem effect_respond (h : respond listed r s = some (a, t)) : Ask.Effect r s a t := by
  obtain ⟨reply, -, h⟩ := Option.bind_eq_some_iff.1 h
  split at h
  · exact ⟨reply, ‹_›, Option.some.inj h⟩
  · cases h

theorem run_respond {effect : (r : Ask) → ControlClient → r.Answer → ControlClient → Prop}
    (heffect : ∀ r s a t, respond listed r s = some (a, t) → effect r s a t) {spawns : List SpawnRequest}
    {moves : List ℕ} {p : Pool Ask.Answer Failure ℕ ControlClient}
    (h : Pool.turns (fun _ => respond listed) (moves.map fun i => (i, ())) ⟨{}, spawns.map spawnProvider⟩ =
      some p) : ∃ es, Run (Pool.Step effect Starts fun _ _ => False) ⟨{}, []⟩ es p := by
  have hspawns : ∀ d ∈ spawns.map spawnProvider, Starts d := by
    intro d hd
    obtain ⟨spawn, -, rfl⟩ := List.mem_map.1 hd
    exact .spawnProvider spawn
  have hstarts : ∃ es, Run (Pool.Step effect Starts fun _ _ => False) ⟨{}, []⟩ es
      ⟨{}, spawns.map spawnProvider⟩ := Pool.run_starts ({} : ControlClient) hspawns
  have hturns : ∃ es, Run (Pool.Step effect Starts fun _ _ => False) ⟨{}, spawns.map spawnProvider⟩ es p :=
    Pool.run_turns (fun _ => heffect) h
  obtain ⟨es, hstarts⟩ := hstarts
  obtain ⟨es', hturns⟩ := hturns
  exact ⟨_, hstarts.append hturns⟩

def probe : SpawnRequest :=
  { providerId := "codex", clientSessionId := "codex-account-bootstrap-1", workspacePath := "/work" }

/-- Both calls list the sessions before either registers its start. -/
theorem two_starts : ∃ es p, Run Step ⟨{}, []⟩ es p ∧ ¬ p.shared.OneStart := by
  have hrun : (Pool.turns (fun _ => respond (some [])) ([0, 1, 0, 1, 0, 0, 1, 1].map fun i => (i, ()))
      ⟨{}, [probe, probe].map spawnProvider⟩).any (fun p : Pool Ask.Answer Failure ℕ ControlClient =>
        decide (p.shared.sent = [0, 1] ∧ p.shared.certain 0 = false ∧ p.shared.certain 1 = false ∧
          (p.shared.identities 0).map StartIdentity.startKey = some probe.startKey ∧
          (p.shared.identities 1).map StartIdentity.startKey = some probe.startKey)) = true := by
    decide +kernel
  obtain ⟨p, hp, hends⟩ := (Option.any_eq_true _ _).1 hrun
  obtain ⟨hsent, hfirst, hsecond, hx, hy⟩ := of_decide_eq_true hends
  obtain ⟨x, hx, hkey⟩ := Option.map_eq_some_iff.1 hx
  obtain ⟨y, hy, hkey'⟩ := Option.map_eq_some_iff.1 hy
  obtain ⟨es, hrun⟩ := run_respond (fun _ _ _ _ => effect_respond) hp
  refine ⟨es, p, hrun, fun hone => ?_⟩
  have heq := hone 0 (by simp [hsent]) 1 (by simp [hsent]) hfirst hsecond x y hx hy (hkey.trans hkey'.symm)
  cases heq

def prompt : SpawnRequest := { providerId := "codex", clientSessionId := "session-1", workspacePath := "/work" }

theorem steady_respond (h : respond none r s = some (a, t)) : r.Steady a s := by
  obtain ⟨reply, hreply, h⟩ := Option.bind_eq_some_iff.1 h
  split at h
  · have ha : a = (r.stretch reply s).1 := by rw [Option.some.inj h]
    subst ha
    cases r with
    | bootstrapListing spawn => cases hreply
    | retainedListing id => cases hreply
    | listeners key id =>
      cases hreply
      trivial
    | startFailed key id rejected failure =>
      cases rejected with
      | true => trivial
      | false => cases hreply
    | _ => trivial
  · cases h

/-- Two calls that lose all their replies send one identity, four times. -/
theorem one_start_of_run_prompts : ∃ es p, Run (Guarded Step Steady) ⟨{}, []⟩ es p ∧
    p.shared.sent = [0, 0, 0, 0] ∧ p.shared.certain 0 = false ∧ p.shared.OneStart := by
  have hrun : (Pool.turns (fun _ => respond none) ([0, 1, 0, 1, 0, 0, 1, 1, 0, 1].map fun i => (i, ()))
      ⟨{}, [prompt, prompt].map spawnProvider⟩).any (fun p : Pool Ask.Answer Failure ℕ ControlClient =>
        decide (p.shared.sent = [0, 0, 0, 0] ∧ p.shared.certain 0 = false)) = true := by
    decide +kernel
  obtain ⟨p, hp, hends⟩ := (Option.any_eq_true _ _).1 hrun
  obtain ⟨hsent, hcertain⟩ := of_decide_eq_true hends
  have hsteady : ∃ es, Run (Pool.Step (fun r s a t => Ask.Effect r s a t ∧ r.Steady a s) Starts
      fun _ _ => False) ⟨{}, []⟩ es p :=
    run_respond (fun _ _ _ _ h => ⟨effect_respond h, steady_respond h⟩) hp
  obtain ⟨es, hrun⟩ := hsteady
  have hguarded : Run (Guarded Step Steady) ⟨{}, []⟩ es p := hrun.mono fun _ _ _ => guarded_of_step
  exact ⟨es, p, hguarded, hsent, hcertain, one_start_of_run hguarded⟩

end Wiii.NekoControl
