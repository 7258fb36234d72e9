import Wiii.NekoChill.Registry

/-!
# What the registry owns

`Session.Good` is what every step keeps: which calls are pending, that the generations they read are not ahead of the
present ones, that scopes are not shared, and that the scope of a provider that was bound is still bound or retained
while it has something to dispose (`Good.held`).
-/

namespace Wiii.NekoChill

open Function (update update_self update_of_ne)

namespace ReplacePhase

def isPending : ReplacePhase → Bool
  | creating => true
  | awaitingPrevious _ _ => true
  | disposing _ _ => true
  | disposed _ _ => true
  | _ => false

def isCommitted : ReplacePhase → Bool
  | committed _ => true
  | _ => false

def isWaiting : ReplacePhase → Bool
  | awaitingPrior _ => true
  | _ => false

def isOwning : ReplacePhase → Bool
  | awaitingPrevious _ _ => true
  | committed _ => true
  | _ => false

end ReplacePhase

namespace Session

def retainedScopes (σ : Session) : List ℕ := σ.retainedCleanupScopes.map Prod.fst

structure Good (generation : ℕ) (σ : Session) : Prop where
  sound : ∀ scope, (σ.scopes scope).Sound
  bare : ∀ scope, σ.nextScope ≤ scope → (σ.scopes scope).registered = 0
  fresh : ∀ id call, σ.calls id = some call → id < σ.nextCall ∧ ∀ scope ∈ call.scopes, scope < σ.nextScope
  apart : ∀ id id' call call' scope, σ.calls id = some call → σ.calls id' = some call' →
    scope ∈ call.scopes → scope ∈ call'.scopes → id = id'
  pending : ∀ id, id ∈ σ.pendingPreparations ↔ ∃ call, σ.calls id = some call ∧ call.phase.isPending = true
  generations : ∀ id call, σ.calls id = some call → call.phase.isPending = true →
    call.generation ≤ generation ∧ call.sessionGeneration ≤ σ.sessionGeneration
  prepared : ∀ id call, σ.calls id = some call → call.phase.isPending = true → call.preparation ≠ none
  owned : ∀ id call, σ.calls id = some call → call.phase.isOwning = true → call.ownedDriver ≠ none
  waiting : ∀ id call, σ.calls id = some call → call.phase.isWaiting = true → call.scopes = []
  bound : ∀ binding, σ.binding = some binding → ∃ call, σ.calls binding.provider = some call ∧
    call.phase.isCommitted = true ∧ call.preparation = some binding.scope
  held : ∀ id call scope, σ.calls id = some call → call.phase.isCommitted = true →
    call.preparation = some scope → (σ.scopes scope).disposers ≠ [] →
      (∃ binding, σ.binding = some binding ∧ binding.scope = scope) ∨ scope ∈ σ.retainedScopes

theorem good_new (generation : ℕ) : Good generation {} where
  sound _ := .new
  bare _ _ := rfl
  fresh _ _ h := by cases h
  apart _ _ _ _ _ h := by cases h
  pending id := by simp
  generations _ _ h := by cases h
  prepared _ _ h := by cases h
  owned _ _ h := by cases h
  waiting _ _ h := by cases h
  bound _ h := by cases h
  held _ _ _ h := by cases h

/-! ## Retaining -/

theorem mem_retain {retained : List CleanupAuthority} {authority : CleanupAuthority} {scope : ℕ} :
    scope ∈ (retain retained authority).map Prod.fst ↔
      scope ∈ retained.map Prod.fst ∨ scope = authority.1 := by
  unfold retain
  by_cases hmem : authority.1 ∈ retained.map Prod.fst
  · rw [if_pos hmem]
    have hkeys : (retained.map fun entry =>
        if entry.1 = authority.1 ∧ entry.2 = none ∧ authority.2 ≠ none then authority else entry).map Prod.fst =
          retained.map Prod.fst := by
      rw [List.map_map]
      apply List.map_congr_left
      intro entry _
      simp only [Function.comp]
      split_ifs with h
      · exact h.1.symm
      · rfl
    rw [hkeys]
    constructor
    · exact .inl
    · rintro (h | rfl)
      · exact h
      · exact hmem
  · rw [if_neg hmem]
    simp

theorem mem_foldl_retain {authorities retained : List CleanupAuthority} {scope : ℕ} :
    scope ∈ (authorities.foldl retain retained).map Prod.fst ↔
      scope ∈ retained.map Prod.fst ∨ scope ∈ authorities.map Prod.fst := by
  induction authorities generalizing retained with
  | nil => simp
  | cons authority authorities ih =>
    rw [List.foldl_cons, ih, mem_retain, List.map_cons, List.mem_cons]
    tauto

/-! ## Disposing scopes -/

theorem disposeScopes_frame {P : RuntimeScope → RuntimeScope → Prop} (refl : ∀ scope, P scope scope)
    (trans : ∀ a b c, P a b → P b c → P a c) (step : ∀ scope, P scope scope.dispose.1) (ids : List ℕ)
    (scopes : ℕ → RuntimeScope) (id : ℕ) : P (scopes id) ((disposeScopes ids scopes).1 id) := by
  induction ids generalizing scopes with
  | nil => exact refl _
  | cons first ids ih =>
    have hrest := ih (update scopes first (scopes first).dispose.1)
    by_cases hid : id = first
    · subst hid
      rw [update_self] at hrest
      exact trans _ _ _ (step _) hrest
    · rw [update_of_ne hid] at hrest
      exact hrest

theorem disposeScopes_disposers (ids : List ℕ) (scopes : ℕ → RuntimeScope) (id : ℕ) :
    ((disposeScopes ids scopes).1 id).disposers = (scopes id).disposers :=
  disposeScopes_frame (P := fun a b => b.disposers = a.disposers) (fun _ => rfl)
    (fun _ _ _ h h' => h'.trans h) RuntimeScope.dispose_disposers ids scopes id

theorem disposeScopes_registered (ids : List ℕ) (scopes : ℕ → RuntimeScope) (id : ℕ) :
    ((disposeScopes ids scopes).1 id).registered = (scopes id).registered :=
  disposeScopes_frame (P := fun a b => b.registered = a.registered) (fun _ => rfl)
    (fun _ _ _ h h' => h'.trans h) RuntimeScope.dispose_registered ids scopes id

theorem disposeScopes_sound {ids : List ℕ} {scopes : ℕ → RuntimeScope} {id : ℕ} (h : (scopes id).Sound) :
    ((disposeScopes ids scopes).1 id).Sound :=
  disposeScopes_frame (P := fun a b => a.Sound → b.Sound) (fun _ h => h)
    (fun _ _ _ h h' hs => h' (h hs)) (fun _ hs => hs.dispose) ids scopes id h

theorem disposeScopes_later (ids : List ℕ) (scopes : ℕ → RuntimeScope) (id : ℕ) :
    RuntimeScope.Later (scopes id) ((disposeScopes ids scopes).1 id) :=
  disposeScopes_frame RuntimeScope.Later.refl (fun _ _ _ => RuntimeScope.Later.trans)
    RuntimeScope.later_dispose ids scopes id

theorem disposeScopes_ids (ids : List ℕ) (scopes : ℕ → RuntimeScope) :
    (disposeScopes ids scopes).2.map Prod.fst = ids := by
  induction ids generalizing scopes with
  | nil => rfl
  | cons id ids ih =>
    show id :: _ = _
    rw [ih]

theorem setCall_setCall (id : ℕ) (call call' : ReplaceCall) (σ : Session) :
    (σ.setCall id call).setCall id call' = σ.setCall id call' :=
  congrArg (fun calls => { σ with calls := calls }) (Function.update_idem _ _ σ.calls)

theorem prepare_setCall (generation id : ℕ) (call call' : ReplaceCall) (σ : Session) :
    (σ.setCall id call).prepare generation id call' = σ.prepare generation id call' :=
  setCall_setCall id call _ { σ with
    pendingPreparations := σ.pendingPreparations ++ [id]
    scopes := update σ.scopes σ.nextScope {}
    nextScope := σ.nextScope + 1 }

/-! ## Changes that keep what holds -/

section Changes

variable {generation : ℕ} {σ : Session}

theorem Good.withJobs (h : Good generation σ) (jobs : ℕ → Option Job) (nextJob : ℕ) (inFlight : Option ℕ)
    (teardowns : ℕ → Option Teardown) (nextTeardown : ℕ) :
    Good generation { σ with
      jobs := jobs, nextJob := nextJob, inFlightDisposal := inFlight, teardowns := teardowns
      nextTeardown := nextTeardown } :=
  ⟨h.sound, h.bare, h.fresh, h.apart, h.pending, h.generations, h.prepared, h.owned, h.waiting, h.bound, h.held⟩

theorem Good.withGeneration (h : Good generation σ) (sessionGeneration : ℕ)
    (hle : ∀ id call, σ.calls id = some call → call.phase.isPending = true →
      σ.sessionGeneration ≤ sessionGeneration) :
    Good generation { σ with sessionGeneration := sessionGeneration } :=
  ⟨h.sound, h.bare, h.fresh, h.apart, h.pending,
    fun id call hc hp => ⟨(h.generations id call hc hp).1,
      Nat.le_trans (h.generations id call hc hp).2 (hle id call hc hp)⟩,
    h.prepared, h.owned, h.waiting, h.bound, h.held⟩

theorem Good.withScopes (h : Good generation σ) {scopes : ℕ → RuntimeScope} (hs : ∀ id, (scopes id).Sound)
    (hr : ∀ id, (scopes id).registered = (σ.scopes id).registered)
    (hd : ∀ id, (scopes id).disposers ≠ [] → (σ.scopes id).disposers ≠ []) :
    Good generation { σ with scopes := scopes } :=
  ⟨hs, fun id hle => (hr id).trans (h.bare id hle), h.fresh, h.apart, h.pending, h.generations, h.prepared,
    h.owned, h.waiting, h.bound,
    fun id call scope hc hp hprep hne => h.held id call scope hc hp hprep (hd scope hne)⟩

theorem Good.dispose (h : Good generation σ) (ids : List ℕ) :
    Good generation { σ with scopes := (disposeScopes ids σ.scopes).1 } :=
  h.withScopes (fun id => disposeScopes_sound (h.sound id))
    (fun id => disposeScopes_registered ids σ.scopes id)
    (fun id hne => disposeScopes_disposers ids σ.scopes id ▸ hne)

theorem Good.withRetained (h : Good generation σ) (retained : List CleanupAuthority)
    (hr : ∀ scope ∈ σ.retainedScopes, (σ.scopes scope).disposers ≠ [] → scope ∈ retained.map Prod.fst) :
    Good generation { σ with retainedCleanupScopes := retained } :=
  ⟨h.sound, h.bare, h.fresh, h.apart, h.pending, h.generations, h.prepared, h.owned, h.waiting, h.bound,
    fun id call scope hc hp hprep hne =>
      (h.held id call scope hc hp hprep hne).imp_right fun hmem => hr scope hmem hne⟩

theorem Good.unbind (h : Good generation σ) (retained : List CleanupAuthority)
    (hr : ∀ scope ∈ σ.retainedScopes, scope ∈ retained.map Prod.fst)
    (hb : ∀ binding, σ.binding = some binding → binding.scope ∈ retained.map Prod.fst) :
    Good generation { σ with binding := none, retainedCleanupScopes := retained } :=
  ⟨h.sound, h.bare, h.fresh, h.apart, h.pending, h.generations, h.prepared, h.owned, h.waiting,
    fun _ hnone => (nomatch hnone),
    fun id call scope hc hp hprep hne => by
      right
      rcases h.held id call scope hc hp hprep hne with ⟨binding, hbinding, rfl⟩ | hmem
      · exact hb binding hbinding
      · exact hr scope hmem⟩

theorem setCall_calls (id : ℕ) (call : ReplaceCall) (σ : Session) (other : ℕ) :
    (σ.setCall id call).calls other = if other = id then some call else σ.calls other :=
  Function.update_apply _ _ _ _

theorem forall_setCall {P : ℕ → ReplaceCall → Prop} {id : ℕ} {call : ReplaceCall} (hnew : P id call)
    (hold : ∀ other c, other ≠ id → σ.calls other = some c → P other c) :
    ∀ other c, (σ.setCall id call).calls other = some c → P other c := by
  intro other c hc
  rw [setCall_calls] at hc
  by_cases hid : other = id
  · rw [if_pos hid] at hc
    cases hc
    exact hid ▸ hnew
  · rw [if_neg hid] at hc
    exact hold other c hid hc

/-- A call and its new record: its scopes are the same, and its place among the calls. -/
structure SameCall (call call' : ReplaceCall) : Prop where
  scopes : call'.scopes = call.scopes
  preparation : call'.preparation = call.preparation
  generation : call'.generation = call.generation
  sessionGeneration : call'.sessionGeneration = call.sessionGeneration
  owned : call'.phase.isOwning = true → call'.ownedDriver ≠ none
  waiting : call'.phase.isWaiting = false

/-- What `Good` says of one call. -/
structure CallOk (generation : ℕ) (σ : Session) (id : ℕ) (call : ReplaceCall) : Prop where
  fresh : id < σ.nextCall ∧ ∀ scope ∈ call.scopes, scope < σ.nextScope
  generations : call.phase.isPending = true →
    call.generation ≤ generation ∧ call.sessionGeneration ≤ σ.sessionGeneration
  prepared : call.phase.isPending = true → call.preparation ≠ none
  owned : call.phase.isOwning = true → call.ownedDriver ≠ none
  waiting : call.phase.isWaiting = true → call.scopes = []
  held : ∀ scope, call.phase.isCommitted = true → call.preparation = some scope →
    (σ.scopes scope).disposers ≠ [] →
      (∃ binding, σ.binding = some binding ∧ binding.scope = scope) ∨ scope ∈ σ.retainedScopes

variable {id : ℕ} {call call' : ReplaceCall}

theorem Good.callOk (h : Good generation σ) (hcall : σ.calls id = some call) : CallOk generation σ id call :=
  ⟨h.fresh id call hcall, h.generations id call hcall, h.prepared id call hcall, h.owned id call hcall,
    h.waiting id call hcall, fun scope => h.held id call scope hcall⟩

theorem CallOk.frame {τ : Session} (h : CallOk generation σ id call) (hcalls : σ.nextCall ≤ τ.nextCall)
    (hscopes : σ.nextScope ≤ τ.nextScope)
    (hgeneration : call.phase.isPending = true → σ.sessionGeneration ≤ τ.sessionGeneration)
    (hsame : ∀ scope < σ.nextScope, τ.scopes scope = σ.scopes scope)
    (hbinding : ∀ binding, σ.binding = some binding → τ.binding = some binding)
    (hretained : τ.retainedScopes = σ.retainedScopes) : CallOk generation τ id call where
  fresh := ⟨Nat.lt_of_lt_of_le h.fresh.1 hcalls, fun scope hmem => Nat.lt_of_lt_of_le (h.fresh.2 scope hmem) hscopes⟩
  generations hp := ⟨(h.generations hp).1, Nat.le_trans (h.generations hp).2 (hgeneration hp)⟩
  prepared := h.prepared
  owned := h.owned
  waiting := h.waiting
  held scope hp hprep hne := by
    rw [hsame scope (h.fresh.2 scope (by simp [ReplaceCall.scopes, hprep]))] at hne
    rw [hretained]
    exact (h.held scope hp hprep hne).imp_left fun ⟨binding, hb, hscope⟩ => ⟨binding, hbinding binding hb, hscope⟩

theorem Good.setCall {τ : Session} (h : Good generation σ) (hcalls : τ.calls = σ.calls)
    (sound : ∀ scope, (τ.scopes scope).Sound)
    (bare : ∀ scope, τ.nextScope ≤ scope → (τ.scopes scope).registered = 0)
    (new : CallOk generation τ id call')
    (old : ∀ other c, other ≠ id → σ.calls other = some c → CallOk generation τ other c)
    (apart : ∀ scope ∈ call'.scopes,
      (∃ call, σ.calls id = some call ∧ scope ∈ call.scopes) ∨ σ.nextScope ≤ scope)
    (pending : ∀ other, other ∈ τ.pendingPreparations ↔
      if other = id then call'.phase.isPending = true else other ∈ σ.pendingPreparations)
    (bound : ∀ binding, τ.binding = some binding →
      binding.provider = id ∧ call'.phase.isCommitted = true ∧ call'.preparation = some binding.scope ∨
        binding.provider ≠ id ∧ σ.binding = some binding) :
    Good generation (τ.setCall id call') := by
  have hall : ∀ other c, (τ.setCall id call').calls other = some c → CallOk generation τ other c :=
    forall_setCall new fun other c hid hc => old other c hid (hcalls ▸ hc)
  have hold : ∀ i c, (τ.setCall id call').calls i = some c → ∀ scope ∈ c.scopes,
      (∃ call, σ.calls i = some call ∧ scope ∈ call.scopes) ∨ σ.nextScope ≤ scope ∧ i = id :=
    forall_setCall (fun scope hmem => (apart scope hmem).imp_right fun hle => ⟨hle, rfl⟩)
      fun other c _ hc scope hmem => .inl ⟨c, hcalls ▸ hc, hmem⟩
  refine ⟨sound, bare, fun i c hc => (hall i c hc).fresh, fun i j c c' scope hc hc' hmem hmem' => ?_,
    fun other => ?_, fun i c hc => (hall i c hc).generations, fun i c hc => (hall i c hc).prepared,
    fun i c hc => (hall i c hc).owned, fun i c hc => (hall i c hc).waiting, fun binding hb => ?_,
    fun i c scope hc => (hall i c hc).held scope⟩
  · have hlt : ∀ k call, σ.calls k = some call → scope ∈ call.scopes → ¬ σ.nextScope ≤ scope :=
      fun k call hk hs => Nat.not_le_of_lt ((h.fresh k call hk).2 scope hs)
    rcases hold i c hc scope hmem with ⟨old, hi, hs⟩ | ⟨hle, rfl⟩
    · rcases hold j c' hc' scope hmem' with ⟨old', hj, hs'⟩ | ⟨hle, -⟩
      · exact h.apart i j old old' scope hi hj hs hs'
      · exact absurd hle (hlt i old hi hs)
    · rcases hold j c' hc' scope hmem' with ⟨old', hj, hs'⟩ | ⟨-, rfl⟩
      · exact absurd hle (hlt j old' hj hs')
      · rfl
  · refine (pending other).trans ?_
    rw [setCall_calls]
    by_cases hid : other = id
    · rw [if_pos hid, if_pos hid]
      simp
    · rw [if_neg hid, if_neg hid, h.pending other, hcalls]
  · rw [setCall_calls]
    rcases bound binding hb with ⟨hid, hcommitted, hprep⟩ | ⟨hid, hσ⟩
    · rw [if_pos hid]
      exact ⟨call', rfl, hcommitted, hprep⟩
    · rw [if_neg hid, hcalls]
      exact h.bound binding hσ

/-- The binding is another call's, or that of a call that committed. -/
theorem Good.bound_cases (h : Good generation σ) (hcall : σ.calls id = some call) {binding : Binding}
    (hb : σ.binding = some binding) :
    binding.provider = id ∧ call.phase.isCommitted = true ∧ call.preparation = some binding.scope ∨
      binding.provider ≠ id ∧ σ.binding = some binding := by
  by_cases hid : binding.provider = id
  · obtain ⟨c, hc, hcommitted, hprep⟩ := h.bound binding hb
    rw [hid, hcall] at hc
    cases hc
    exact .inl ⟨hid, hcommitted, hprep⟩
  · exact .inr ⟨hid, hb⟩

theorem Good.bound_other (h : Good generation σ) (hcall : σ.calls id = some call)
    (hcommitted : call.phase.isCommitted = false) {binding : Binding} (hb : σ.binding = some binding) :
    binding.provider ≠ id ∧ σ.binding = some binding := by
  rcases h.bound_cases hcall hb with ⟨-, hp, -⟩ | hother
  · rw [hcommitted] at hp
    cases hp
  · exact hother

theorem Good.withCall (h : Good generation σ) (hcall : σ.calls id = some call) (hsame : SameCall call call')
    (hpending : call'.phase.isPending = call.phase.isPending)
    (hcommitted : call'.phase.isCommitted = call.phase.isCommitted) :
    Good generation (σ.setCall id call') := by
  have hok := h.callOk hcall
  refine h.setCall rfl h.sound h.bare ⟨⟨hok.fresh.1, ?_⟩, fun hp => ?_, fun hp => ?_, hsame.owned, fun hw => ?_, ?_⟩
    (fun other c _ hc => h.callOk hc) (fun scope hmem => .inl ⟨call, hcall, hsame.scopes ▸ hmem⟩)
    (fun other => ?_) fun binding hb => ?_
  · rw [hsame.scopes]
    exact hok.fresh.2
  · rw [hsame.generation, hsame.sessionGeneration]
    exact hok.generations (hpending ▸ hp)
  · rw [hsame.preparation]
    exact hok.prepared (hpending ▸ hp)
  · rw [hsame.waiting] at hw
    cases hw
  · intro scope hp hprep
    exact hok.held scope (hcommitted ▸ hp) (hsame.preparation ▸ hprep)
  · by_cases hid : other = id
    · subst hid
      rw [if_pos rfl, h.pending, hcall]
      simp [hpending]
    · rw [if_neg hid]
  · rw [hcommitted, hsame.preparation]
    exact h.bound_cases hcall hb

theorem Good.complete (h : Good generation σ) (hcall : σ.calls id = some call)
    (hpending : call.phase.isPending = true) (hsame : SameCall call call')
    (hdone : call'.phase.isPending = false) {binding : Option Binding}
    (hb : (call'.phase.isCommitted = false ∧ binding = σ.binding) ∨
      (call'.phase.isCommitted = true ∧ σ.binding = none ∧
        binding = call'.preparation.map fun scope => ⟨id, scope⟩)) :
    Good generation ({ σ with binding := binding }.complete id call') := by
  have hok := h.callOk hcall
  have huncommitted : call.phase.isCommitted = false := by
    cases hp : call.phase <;> rw [hp] at hpending <;> first | rfl | cases hpending
  have hpend : ∀ other, (other ∈ σ.pendingPreparations.filter fun other => decide (other ≠ id)) ↔
      if other = id then call'.phase.isPending = true else other ∈ σ.pendingPreparations := by
    intro other
    rw [hdone]
    by_cases hid : other = id <;> simp [hid]
  refine h.setCall rfl h.sound h.bare ⟨⟨hok.fresh.1, ?_⟩, fun hp => ?_, fun hp => ?_, hsame.owned, fun hw => ?_, ?_⟩
    (fun other c hid hc => (h.callOk hc).frame (Nat.le_refl _) (Nat.le_refl _) (fun hp => ?_) (fun _ _ => rfl) ?_ rfl)
    (fun scope hmem => .inl ⟨call, hcall, hsame.scopes ▸ hmem⟩) hpend fun b hbound => ?_
  · rw [hsame.scopes]
    exact hok.fresh.2
  · rw [hdone] at hp
    cases hp
  · rw [hdone] at hp
    cases hp
  · rw [hsame.waiting] at hw
    cases hw
  · intro scope hp hprep _
    left
    rcases hb with ⟨hnot, -⟩ | ⟨-, -, rfl⟩
    · rw [hnot] at hp
      cases hp
    · exact ⟨⟨id, scope⟩, by rw [hprep]; rfl, rfl⟩
  · have hmem := (hpend other).2 (by rw [if_neg hid]; exact (h.pending other).2 ⟨c, hc, hp⟩)
    show _ ≤ if _ then 0 else σ.sessionGeneration
    rw [if_neg (List.ne_nil_of_mem hmem)]
  · rcases hb with ⟨-, rfl⟩ | ⟨-, hfree, -⟩
    · exact fun _ hσ => hσ
    · rw [hfree]
      exact fun _ hσ => nomatch hσ
  · rcases hb with ⟨-, rfl⟩ | ⟨hcommitted, -, rfl⟩
    · exact .inr (h.bound_other hcall huncommitted hbound)
    · obtain ⟨scope, hscope, rfl⟩ := Option.map_eq_some_iff.1 hbound
      exact .inl ⟨rfl, hcommitted, hscope⟩

/-! ### New scopes -/

theorem Good.sound_update (h : Good generation σ) {scope : RuntimeScope} (hscope : scope.Sound) (id : ℕ) :
    (update σ.scopes σ.nextScope scope id).Sound := by
  by_cases hs : id = σ.nextScope
  · rw [hs, update_self]
    exact hscope
  · rw [update_of_ne hs]
    exact h.sound id

theorem Good.bare_update (h : Good generation σ) (scope : RuntimeScope) (id : ℕ) (hle : σ.nextScope + 1 ≤ id) :
    (update σ.scopes σ.nextScope scope id).registered = 0 := by
  rw [update_of_ne (Nat.ne_of_gt hle)]
  exact h.bare id (Nat.le_of_lt hle)

theorem CallOk.addScope (h : CallOk generation σ id call) (scope : RuntimeScope) (pending : List ℕ) :
    CallOk generation { σ with
      pendingPreparations := pending, scopes := update σ.scopes σ.nextScope scope
      nextScope := σ.nextScope + 1 } id call :=
  h.frame (Nat.le_refl _) (Nat.le_succ _) (fun _ => Nat.le_refl _)
    (fun _ hlt => update_of_ne (Nat.ne_of_lt hlt) _ _) (fun _ hb => hb) rfl

theorem Good.not_waiting (h : Good generation σ) {id : ℕ} {call : ReplaceCall}
    (hcall : σ.calls id = some call) (hprep : call.preparation ≠ none) : call.phase.isWaiting = false := by
  by_contra hw
  have hnone := h.waiting id call hcall (Bool.not_eq_false _ ▸ hw)
  unfold ReplaceCall.scopes at hnone
  rw [List.append_eq_nil_iff, Option.toList_eq_nil_iff] at hnone
  exact hprep hnone.1

theorem Good.ownApart (h : Good generation σ) {id : ℕ} {call : ReplaceCall} (hcall : σ.calls id = some call)
    (hwaiting : call.phase.isWaiting = false) :
    Good generation ((σ.ownApart call).1.setCall id (σ.ownApart call).2) := by
  have hscopes : ∀ scope, scope ∈ (σ.ownApart call).2.scopes ↔ scope ∈ call.scopes ∨ scope = σ.nextScope := by
    intro scope
    simp [Session.ownApart, ReplaceCall.scopes, or_assoc]
  have hok := (h.callOk hcall).addScope ((({} : RuntimeScope).add).getD {}) σ.pendingPreparations
  refine h.setCall rfl (h.sound_update (RuntimeScope.Sound.new.add rfl)) (h.bare_update _)
    ⟨⟨hok.fresh.1, fun scope hmem => ?_⟩, hok.generations, hok.prepared, hok.owned, fun hw => ?_, hok.held⟩
    (fun other c _ hc => (h.callOk hc).addScope _ _) (fun scope hmem => ?_) (fun other => ?_)
    fun binding hb => h.bound_cases hcall hb
  · rcases (hscopes scope).1 hmem with hold | rfl
    · exact hok.fresh.2 scope hold
    · exact Nat.lt_succ_self _
  · have hw' : call.phase.isWaiting = true := hw
    rw [hwaiting] at hw'
    cases hw'
  · rcases (hscopes scope).1 hmem with hold | rfl
    · exact .inl ⟨call, hcall, hold⟩
    · exact .inr (Nat.le_refl _)
  · by_cases hid : other = id
    · rw [if_pos hid]
      refine (h.pending other).trans ?_
      rw [hid, hcall]
      simp [Session.ownApart]
    · rw [if_neg hid]
      rfl

theorem Good.ownPrepared (h : Good generation σ) {id scope : ℕ} {call : ReplaceCall} {driver : Driver}
    {added : RuntimeScope} (hcall : σ.calls id = some call) (hnone : call.ownedDriver = none)
    (hprep : call.preparation = some scope) (hadd : (σ.scopes scope).add = some added) :
    Good generation ({ σ with scopes := update σ.scopes scope added }.setCall id
      { call with ownedDriver := some driver }) := by
  have hlt : scope < σ.nextScope := (h.fresh id call hcall).2 scope (by simp [ReplaceCall.scopes, hprep])
  have hscopes : Good generation { σ with scopes := update σ.scopes scope added } := by
    refine ⟨fun other => ?_, fun other hle => ?_, h.fresh, h.apart, h.pending, h.generations, h.prepared,
      h.owned, h.waiting, h.bound, fun other c prepared hc hp hprepared hne => ?_⟩
    · show (update σ.scopes scope added other).Sound
      by_cases hs : other = scope
      · subst hs
        rw [update_self]
        exact (h.sound other).add hadd
      · rw [update_of_ne hs]
        exact h.sound other
    · show (update σ.scopes scope added other).registered = 0
      rw [update_of_ne (Nat.ne_of_gt (Nat.lt_of_lt_of_le hlt hle))]
      exact h.bare other hle
    · -- the scope of another call is another one, and this call is not committed yet
      have hne' : prepared ≠ scope := by
        rintro rfl
        have hid := h.apart other id c call prepared hc hcall (by simp [ReplaceCall.scopes, hprepared])
          (by simp [ReplaceCall.scopes, hprep])
        subst hid
        have hc' : σ.calls other = some c := hc
        rw [hcall] at hc'
        have howning : call.phase.isOwning = true := by
          rw [← Option.some.inj hc'] at hp
          cases hphase : call.phase <;> rw [hphase] at hp <;> first | rfl | cases hp
        exact h.owned other call hcall howning hnone
      rw [show ({ σ with scopes := update σ.scopes scope added } : Session).scopes prepared = _ from
        update_of_ne hne' _ _] at hne
      exact h.held other c prepared hc hp hprepared hne
  have hwaiting := h.not_waiting hcall (by rw [hprep]; exact Option.some_ne_none _)
  exact hscopes.withCall hcall ⟨rfl, rfl, rfl, rfl, fun _ => Option.some_ne_none _, hwaiting⟩ rfl rfl

theorem Good.own (h : Good generation σ) {id : ℕ} {call : ReplaceCall} (hcall : σ.calls id = some call)
    (hwaiting : call.phase.isWaiting = false) (driver : Driver) : Good generation ((σ.own call driver).1.setCall id (σ.own call driver).2.1) := by
  unfold Session.own
  cases howned : call.ownedDriver with
  | some owned =>
    by_cases hne : owned ≠ driver
    · simp only [if_pos hne]
      exact h.ownApart hcall hwaiting
    · simp only [if_neg hne]
      exact h.withCall hcall ⟨rfl, rfl, rfl, rfl, h.owned id call hcall, hwaiting⟩ rfl rfl
  | none =>
    simp only
    cases hadd : (call.preparation.bind fun scope => (σ.scopes scope).add.map (Prod.mk scope)) with
    | some entry =>
      obtain ⟨scope, hprep, hscope⟩ := Option.bind_eq_some_iff.1 hadd
      obtain ⟨added, hadded, rfl⟩ := Option.map_eq_some_iff.1 hscope
      exact h.ownPrepared hcall howned hprep hadded
    | none =>
      have hcall' : ({ σ with calls := update σ.calls id (some { call with ownedDriver := some driver }) } :
          Session).calls id = some { call with ownedDriver := some driver } := update_self _ _ _
      have hsame : SameCall call { call with ownedDriver := some driver } :=
        ⟨rfl, rfl, rfl, rfl, fun _ => Option.some_ne_none _, hwaiting⟩
      have hset := h.withCall hcall hsame rfl rfl
      have hapart := hset.ownApart hcall' hwaiting
      have hset' := setCall_setCall id { call with ownedDriver := some driver }
        (σ.ownApart { call with ownedDriver := some driver }).2
        (σ.ownApart { call with ownedDriver := some driver }).1
      rw [← hset']
      exact hapart

end Changes

end Session

end Wiii.NekoChill
