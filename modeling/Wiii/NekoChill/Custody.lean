import Wiii.NekoChill.Teardown

/-!
# Where the disposers are

`Custody` follows the disposer of the driver of each call: while the factory works and nobody has torn the session down,
the scope of the preparation is fresh and takes the driver, so a call that commits has the one disposer of its driver in
it (`Custody.manned`).
-/

namespace Wiii.NekoChill.Session

open Function (update update_self update_of_ne)

/-- The call disposes its own scopes, and this is one of them. -/
def IsDisposing (σ : Session) (scope : ℕ) : Prop :=
  ∃ id call disposals failure, σ.calls id = some call ∧ call.phase = .disposing disposals failure ∧
    scope ∈ disposals.map Prod.fst

structure Custody (generation : ℕ) (σ : Session) : Prop where
  waiting : ∀ id call, σ.calls id = some call → call.phase.isWaiting = true → call.ownedDriver = none
  vacant : ∀ id call scope, σ.calls id = some call → call.preparation = some scope → call.ownedDriver = none →
    (σ.scopes scope).registered = 0
  ready : ∀ id call scope, σ.calls id = some call → call.phase = .creating → call.preparation = some scope →
    σ.isStale generation call = false →
      scope ∉ σ.retainedScopes ∧ (σ.scopes scope).disposalStarted = false ∧
        (call.ownedDriver ≠ none → (σ.scopes scope).registered = 1)
  manned : ∀ id call scope, σ.calls id = some call → call.phase.isOwning = true →
    call.preparation = some scope → (σ.scopes scope).registered = 1
  disposing : ∀ id call disposals failure, σ.calls id = some call → call.phase = .disposing disposals failure →
    ∀ scope ∈ disposals.map Prod.fst, scope ∈ call.scopes
  retained : ∀ scope ∈ σ.retainedScopes, scope < σ.nextScope
  touched : ∀ scope, (σ.scopes scope).disposalStarted = true →
    (σ.scopes scope).disposers = [] ∨ scope ∈ σ.retainedScopes ∨ σ.IsDisposing scope

theorem custody_new (generation : ℕ) : Custody generation {} where
  waiting _ _ h := by cases h
  vacant _ _ _ h := by cases h
  ready _ _ _ h := by cases h
  manned _ _ _ h := by cases h
  disposing _ _ _ _ h := by cases h
  retained _ h := by cases h
  touched _ h := by cases h

theorem mem_scopes {call : ReplaceCall} {scope : ℕ} (h : call.preparation = some scope) : scope ∈ call.scopes := by
  simp [ReplaceCall.scopes, h]

/-! ## Steps that leave the calls alone -/

section Changes

variable {generation : ℕ} {σ σ' : Session}

theorem IsDisposing.of_calls {scope : ℕ} (hcalls : σ'.calls = σ.calls) (h : σ.IsDisposing scope) :
    σ'.IsDisposing scope := by
  unfold IsDisposing
  rw [hcalls]
  exact h

theorem Custody.of_calls (h : Custody generation σ) {later : ℕ} (hcalls : σ'.calls = σ.calls)
    (hnext : σ'.nextScope = σ.nextScope)
    (hregistered : ∀ scope, (σ'.scopes scope).registered = (σ.scopes scope).registered)
    (hready : ∀ id call scope, σ.calls id = some call → call.phase = .creating → call.preparation = some scope →
      σ'.isStale later call = false → σ.isStale generation call = false ∧ scope ∉ σ'.retainedScopes ∧
        (σ'.scopes scope).disposalStarted = false)
    (hretained : ∀ scope ∈ σ'.retainedScopes, scope < σ.nextScope)
    (htouched : ∀ scope, (σ'.scopes scope).disposalStarted = true →
      (σ'.scopes scope).disposers = [] ∨ scope ∈ σ'.retainedScopes ∨ σ.IsDisposing scope) :
    Custody later σ' where
  waiting := by rw [hcalls]; exact h.waiting
  vacant id call scope hc hp hnone := by
    rw [hcalls] at hc
    rw [hregistered]
    exact h.vacant id call scope hc hp hnone
  ready id call scope hc hphase hp hfresh := by
    rw [hcalls] at hc
    obtain ⟨hwas, hnot, hstarted⟩ := hready id call scope hc hphase hp hfresh
    refine ⟨hnot, hstarted, fun howned => ?_⟩
    rw [hregistered]
    exact (h.ready id call scope hc hphase hp hwas).2.2 howned
  manned id call scope hc hphase hp := by
    rw [hcalls] at hc
    rw [hregistered]
    exact h.manned id call scope hc hphase hp
  disposing id call disposals failure hc := by
    rw [hcalls] at hc
    exact h.disposing id call disposals failure hc
  retained := by rw [hnext]; exact hretained
  touched scope hs := (htouched scope hs).imp_right (Or.imp_right (IsDisposing.of_calls hcalls))

theorem isStale_congr {call : ReplaceCall} (h : σ'.sessionGeneration = σ.sessionGeneration) :
    σ'.isStale generation call = σ.isStale generation call := by
  unfold isStale
  rw [h]

theorem Custody.frame (h : Custody generation σ) (hcalls : σ'.calls = σ.calls)
    (hscopes : σ'.scopes = σ.scopes) (hnext : σ'.nextScope = σ.nextScope)
    (hretained : σ'.retainedCleanupScopes = σ.retainedCleanupScopes)
    (hgeneration : ∀ id call, σ.calls id = some call → call.phase = .creating →
      σ'.sessionGeneration = σ.sessionGeneration) : Custody generation σ' := by
  have hsame : σ'.retainedScopes = σ.retainedScopes := congrArg (List.map Prod.fst) hretained
  refine h.of_calls hcalls hnext (fun scope => by rw [hscopes]) (fun id call scope hc hphase hp hfresh => ?_) ?_ ?_
  · rw [isStale_congr (hgeneration id call hc hphase)] at hfresh
    rw [hsame, hscopes]
    obtain ⟨hnot, hstarted, -⟩ := h.ready id call scope hc hphase hp hfresh
    exact ⟨hfresh, hnot, hstarted⟩
  · rw [hsame]
    exact h.retained
  · rw [hsame, hscopes]
    exact h.touched

theorem Custody.withRetained (h : Custody generation σ) (retained : List CleanupAuthority)
    (hkept : ∀ scope ∈ σ.retainedScopes, scope ∈ retained.map Prod.fst)
    (hlt : ∀ scope ∈ retained.map Prod.fst, scope < σ.nextScope)
    (hready : ∀ id call scope, σ.calls id = some call → call.phase = .creating → call.preparation = some scope →
      σ.isStale generation call = false → scope ∉ retained.map Prod.fst) :
    Custody generation { σ with retainedCleanupScopes := retained } :=
  h.of_calls rfl rfl (fun _ => rfl)
    (fun id call scope hc hphase hp hfresh => ⟨hfresh, hready id call scope hc hphase hp hfresh,
      (h.ready id call scope hc hphase hp hfresh).2.1⟩)
    hlt fun scope hs => (h.touched scope hs).imp_right (Or.imp_left (hkept scope))

/-! ## Steps of one call -/

/-- What `Custody` says of one call. -/
structure InCustody (generation : ℕ) (σ : Session) (call : ReplaceCall) : Prop where
  waiting : call.phase.isWaiting = true → call.ownedDriver = none
  vacant : ∀ scope, call.preparation = some scope → call.ownedDriver = none → (σ.scopes scope).registered = 0
  ready : ∀ scope, call.phase = .creating → call.preparation = some scope → σ.isStale generation call = false →
    scope ∉ σ.retainedScopes ∧ (σ.scopes scope).disposalStarted = false ∧
      (call.ownedDriver ≠ none → (σ.scopes scope).registered = 1)
  manned : ∀ scope, call.phase.isOwning = true → call.preparation = some scope → (σ.scopes scope).registered = 1
  disposing : ∀ disposals failure, call.phase = .disposing disposals failure →
    ∀ scope ∈ disposals.map Prod.fst, scope ∈ call.scopes

theorem Custody.call (h : Custody generation σ) {id : ℕ} {call : ReplaceCall} (hcall : σ.calls id = some call) :
    InCustody generation σ call where
  waiting := h.waiting id call hcall
  vacant scope := h.vacant id call scope hcall
  ready scope := h.ready id call scope hcall
  manned scope := h.manned id call scope hcall
  disposing disposals failure := h.disposing id call disposals failure hcall

theorem Custody.setCall {τ : Session} (h : Custody generation σ) {id : ℕ} {call' : ReplaceCall}
    (hcalls : τ.calls = σ.calls) (hretained : τ.retainedCleanupScopes = σ.retainedCleanupScopes)
    (hgeneration : τ.sessionGeneration = σ.sessionGeneration) (hnext : σ.nextScope ≤ τ.nextScope)
    (new : InCustody generation τ call')
    (old : ∀ other c scope, other ≠ id → σ.calls other = some c → c.preparation = some scope →
      τ.scopes scope = σ.scopes scope)
    (changed : ∀ scope, (τ.scopes scope).disposalStarted = true → τ.scopes scope = σ.scopes scope ∨
      ∃ disposals failure, call'.phase = .disposing disposals failure ∧ scope ∈ disposals.map Prod.fst)
    (kept : ∀ call disposals failure, σ.calls id = some call → call.phase = .disposing disposals failure →
      call'.phase = call.phase ∨
        ∀ scope ∈ disposals.map Prod.fst, (σ.scopes scope).disposers = [] ∨ scope ∈ σ.retainedScopes) :
    Custody generation (τ.setCall id call') := by
  have hscopes : τ.retainedScopes = σ.retainedScopes := congrArg (List.map Prod.fst) hretained
  have hall : ∀ other c, (τ.setCall id call').calls other = some c → InCustody generation τ c := by
    refine forall_setCall new fun other c hid hc => ?_
    rw [hcalls] at hc
    have hsame : ∀ scope, c.preparation = some scope → τ.scopes scope = σ.scopes scope := fun scope =>
      old other c scope hid hc
    refine ⟨h.waiting other c hc, fun scope hp => ?_, fun scope hphase hp hfresh => ?_, fun scope ho hp => ?_,
      fun disposals failure => h.disposing other c disposals failure hc⟩
    · rw [hsame scope hp]
      exact h.vacant other c scope hc hp
    · rw [isStale_congr hgeneration] at hfresh
      rw [hsame scope hp, hscopes]
      exact h.ready other c scope hc hphase hp hfresh
    · rw [hsame scope hp]
      exact h.manned other c scope hc ho hp
  refine ⟨fun other c hc => (hall other c hc).waiting, fun other c scope hc => (hall other c hc).vacant scope,
    fun other c scope hc => (hall other c hc).ready scope, fun other c scope hc => (hall other c hc).manned scope,
    fun other c _ _ hc => (hall other c hc).disposing _ _, fun scope hmem => ?_, fun scope hs => ?_⟩
  · exact Nat.lt_of_lt_of_le (h.retained scope (hscopes ▸ hmem)) hnext
  · show (τ.scopes scope).disposers = [] ∨ scope ∈ τ.retainedScopes ∨ _
    rw [hscopes]
    rcases changed scope hs with hsame | ⟨disposals, failure, hphase, hmem⟩
    · rw [show (τ.setCall id call').scopes = τ.scopes from rfl, hsame] at hs
      rw [hsame]
      rcases h.touched scope hs with hnil | hin | ⟨other, c, disposals, failure, hc, hphase, hmem⟩
      · exact .inl hnil
      · exact .inr (.inl hin)
      · by_cases hid : other = id
        · subst hid
          rcases kept c disposals failure hc hphase with hp | hdone
          · exact .inr (.inr ⟨other, call', disposals, failure, update_self _ _ _, hp.trans hphase, hmem⟩)
          · exact (hdone scope hmem).imp_right .inl
        · exact .inr (.inr ⟨other, c, disposals, failure, (update_of_ne hid _ _).trans (hcalls ▸ hc), hphase, hmem⟩)
    · exact .inr (.inr ⟨id, call', disposals, failure, update_self _ _ _, hphase, hmem⟩)

theorem Custody.withCall (h : Custody generation σ) {id : ℕ} {call call' : ReplaceCall}
    (hcall : σ.calls id = some call) (hprep : call'.preparation = call.preparation)
    (howned : call'.ownedDriver = call.ownedDriver) (hwaiting : call'.phase.isWaiting = false)
    (hcreating : call'.phase ≠ .creating)
    (howning : call'.phase.isOwning = true → ∀ scope, call.preparation = some scope → (σ.scopes scope).registered = 1)
    (hdisposing : ∀ disposals failure, call'.phase ≠ .disposing disposals failure)
    (htouched : ∀ disposals failure, call.phase = .disposing disposals failure →
      ∀ scope ∈ disposals.map Prod.fst, (σ.scopes scope).disposers = [] ∨ scope ∈ σ.retainedScopes) :
    Custody generation (σ.setCall id call') := by
  refine h.setCall rfl rfl rfl (Nat.le_refl _) ⟨fun hw => ?_, fun scope hp hnone => ?_, fun _ hp => absurd hp hcreating,
    fun scope ho hp => howning ho scope (hprep ▸ hp), fun _ _ hp => absurd hp (hdisposing _ _)⟩ (fun _ _ _ _ _ _ => rfl)
    (fun _ _ => .inl rfl) fun c disposals failure hc hp => ?_
  · rw [hwaiting] at hw
    cases hw
  · exact h.vacant id call scope hcall (hprep ▸ hp) (howned ▸ hnone)
  · rw [hcall] at hc
    cases hc
    exact .inr (htouched disposals failure hp)

theorem Custody.complete (h : Custody generation σ) (hgood : Good generation σ) {id : ℕ} {call : ReplaceCall}
    (hcall : σ.calls id = some call) (call' : ReplaceCall) (hprep : call'.preparation = call.preparation)
    (howned : call'.ownedDriver = call.ownedDriver) (hdone : call'.phase.isPending = false)
    (hwaiting : call'.phase.isWaiting = false)
    (howning : call'.phase.isOwning = true → ∀ scope, call.preparation = some scope → (σ.scopes scope).registered = 1)
    (hfrom : ∀ disposals failure, call.phase ≠ .disposing disposals failure) (binding : Option Binding) :
    Custody generation ({ σ with binding := binding }.complete id call') := by
  have hphase : ∀ phase : ReplacePhase, phase.isPending = true → call'.phase ≠ phase := by
    rintro phase hp rfl
    rw [hdone] at hp
    cases hp
  have hset := h.withCall hcall hprep howned hwaiting (hphase _ rfl) howning (fun _ _ => hphase _ rfl)
    fun disposals failure hp => absurd hp (hfrom disposals failure)
  refine hset.frame rfl rfl rfl rfl fun other c hc hcreating => ?_
  -- a preparation that is still in its factory keeps the session generation
  have hmem : other ∈ σ.pendingPreparations.filter fun other => decide (other ≠ id) := by
    rw [setCall_calls] at hc
    by_cases hid : other = id
    · rw [if_pos hid] at hc
      cases hc
      exact absurd hcreating (hphase _ rfl)
    · rw [if_neg hid] at hc
      exact List.mem_filter.2 ⟨(hgood.pending other).2 ⟨c, hc, by rw [hcreating]; rfl⟩, decide_eq_true hid⟩
  show (if _ then 0 else σ.sessionGeneration) = σ.sessionGeneration
  rw [if_neg (List.ne_nil_of_mem hmem)]

theorem disposeScopes_of_not_mem {ids : List ℕ} {scopes : ℕ → RuntimeScope} {scope : ℕ} (h : scope ∉ ids) :
    (disposeScopes ids scopes).1 scope = scopes scope := by
  induction ids generalizing scopes with
  | nil => rfl
  | cons id ids ih =>
    rw [List.mem_cons, not_or] at h
    exact (ih h.2).trans (update_of_ne h.1 _ _)

theorem Custody.disposePreparation (h : Custody generation σ) (hgood : Good generation σ) {id : ℕ}
    {call : ReplaceCall} (hcall : σ.calls id = some call)
    (hfrom : ∀ disposals failure, call.phase ≠ .disposing disposals failure) (failure : ReplaceFailure) :
    Custody generation (σ.disposePreparation id call failure) := by
  have hids : (disposeScopes call.scopes σ.scopes).2.map Prod.fst = call.scopes := disposeScopes_ids _ _
  refine h.setCall (τ := { σ with scopes := (disposeScopes call.scopes σ.scopes).1 }) rfl rfl rfl (Nat.le_refl _)
    ⟨fun hw => (nomatch hw), fun scope hp hnone => ?_, fun _ hp => (nomatch hp), fun _ ho => (nomatch ho),
      fun disposals _ hp => ?_⟩ (fun other c scope hid hc hp => ?_) (fun scope _ => ?_)
    fun c disposals reason hc hp => ?_
  · exact (disposeScopes_registered call.scopes σ.scopes scope).trans (h.vacant id call scope hcall hp hnone)
  · cases hp
    rw [hids]
    exact fun _ hmem => hmem
  · exact disposeScopes_of_not_mem fun hmem => hid (hgood.apart other id c call scope hc hcall (mem_scopes hp) hmem)
  · by_cases hmem : scope ∈ call.scopes
    · exact .inr ⟨_, failure, rfl, hids.symm ▸ hmem⟩
    · exact .inl (disposeScopes_of_not_mem hmem)
  · rw [hcall] at hc
    cases hc
    exact absurd hp (hfrom _ _)

theorem Custody.withScope (h : Custody generation σ) (hgood : Good generation σ) {id target nextScope : ℕ}
    {call call' : ReplaceCall} {new : RuntimeScope} (hcall : σ.calls id = some call)
    (hprep : call'.preparation = call.preparation) (hphase : call'.phase = call.phase)
    (hg : call'.generation = call.generation) (hs : call'.sessionGeneration = call.sessionGeneration)
    (hsub : ∀ scope ∈ call.scopes, scope ∈ call'.scopes) (hregistered : call.preparation ≠ none)
    (howned : call'.ownedDriver ≠ none) (hnew : new.disposalStarted = false) (hnext : σ.nextScope ≤ nextScope)
    (htarget : ∀ other c, other ≠ id → σ.calls other = some c → target ∉ c.scopes)
    (hready : ∀ scope, call.phase = .creating → call.preparation = some scope → σ.isStale generation call = false →
      (update σ.scopes target new scope).registered = 1)
    (hmanned : ∀ scope, call.phase.isOwning = true → call.preparation = some scope →
      (update σ.scopes target new scope).registered = 1) :
    Custody generation ({ σ with scopes := update σ.scopes target new, nextScope := nextScope }.setCall id call') := by
  let τ : Session := { σ with scopes := update σ.scopes target new, nextScope := nextScope }
  have hcases : ∀ scope, (τ.scopes scope).disposalStarted = true ∨ scope ≠ target → τ.scopes scope = σ.scopes scope := by
    refine fun scope hcase => update_of_ne (fun heq => ?_) _ _
    rcases hcase with hstarted | hne
    · rw [heq, show τ.scopes target = new from update_self _ _ _, hnew] at hstarted
      cases hstarted
    · exact hne heq
  have hstale : τ.isStale generation call' = σ.isStale generation call := by
    unfold isStale
    rw [hg, hs]
  refine h.setCall (τ := τ) rfl rfl rfl hnext ⟨fun hw => ?_, fun _ _ hnone => absurd hnone howned,
    fun scope hp hscope hfresh => ?_, fun scope ho hp => hmanned scope (hphase ▸ ho) (hprep ▸ hp),
    fun disposals failure hp scope hmem => ?_⟩ (fun other c scope hid hc hp => ?_)
    (fun scope hstarted => .inl (hcases scope (.inl hstarted))) fun c disposals failure hc _ => ?_
  · rw [hphase, hgood.not_waiting hcall hregistered] at hw
    cases hw
  · rw [hphase] at hp
    rw [hprep] at hscope
    rw [hstale] at hfresh
    obtain ⟨hnot, hstarted, -⟩ := h.ready id call scope hcall hp hscope hfresh
    refine ⟨hnot, Bool.eq_false_iff.2 fun hnow => ?_, fun _ => hready scope hp hscope hfresh⟩
    rw [hcases scope (.inl hnow), hstarted] at hnow
    cases hnow
  · exact hsub scope (h.disposing id call disposals failure hcall (hphase ▸ hp) scope hmem)
  · exact hcases scope (.inr fun heq => htarget other c hid hc (heq ▸ mem_scopes hp))
  · rw [hcall] at hc
    cases hc
    exact .inl hphase

end Changes

end Wiii.NekoChill.Session
