import Wiii.NekoChill.Keeping

/-!
# One driver at a time

`Session.Exclusive`: while a driver is the session's binding, every other driver that ever was has been disposed.  A
replacement commits without a look at what else is retained, so the property is kept exactly where none of the retained
scopes of earlier drivers has anything left to dispose (`Session.Quiet`).
-/

namespace Wiii.NekoChill

open Function (update update_self update_of_ne)

/-- The scope was handed disposers, and all of them succeeded. -/
def RuntimeScope.Disposed (scope : RuntimeScope) : Prop :=
  0 < scope.registered ∧ ∀ disposer < scope.registered, scope.Succeeded disposer

theorem RuntimeScope.Sound.disposed_iff {scope : RuntimeScope} (h : scope.Sound) (hone : scope.registered = 1) :
    scope.Disposed ↔ scope.disposers = [] := by
  constructor
  · rintro ⟨-, hall⟩
    by_contra hne
    -- the only disposer is the one that is left
    have hzero : ∀ disposer ∈ scope.disposers, disposer = 0 := by
      intro disposer hmem
      rw [h.disposers, hone] at hmem
      exact Nat.lt_one_iff.1 (mem_unsettled.1 hmem).1
    have hmem : 0 ∈ scope.disposers := by
      obtain ⟨disposer, rest, hcons⟩ := List.exists_cons_of_ne_nil hne
      have hin : disposer ∈ scope.disposers := hcons ▸ List.mem_cons_self
      exact hzero disposer hin ▸ hin
    rcases hall 0 (by rw [hone]; exact Nat.one_pos) with hended | ⟨a, ha, hresult⟩
    · rw [h.disposers] at hmem
      exact (mem_unsettled.1 hmem).2 hended
    · obtain ⟨hcalls, hqueue, -⟩ := h.attempt a ha
      obtain ⟨disposer, rest, hcons⟩ := List.exists_cons_of_ne_nil hqueue
      have hcalling : disposer = 0 := by
        refine hzero disposer ?_
        rw [← List.mem_reverse, ← hcalls, hcons]
        exact List.mem_append_right _ List.mem_cons_self
      have hsucceeded : scope.calling = some 0 := by
        unfold RuntimeScope.calling
        rw [ha, ← hcalling, Option.bind_some, hcons]
        rfl
      exact h.not_succeeded_of_calling hsucceeded (.inr ⟨a, ha, hresult⟩)
  · intro hnil
    refine ⟨by rw [hone]; exact Nat.one_pos, fun disposer hlt => ?_⟩
    rcases h.registered_or_succeeded hlt with hmem | hsucceeded
    · rw [hnil] at hmem
      cases hmem
    · exact hsucceeded

namespace ReplacePhase

theorem isOwning_of_isCommitted {phase : ReplacePhase} (h : phase.isCommitted = true) : phase.isOwning = true := by
  cases phase <;> first | rfl | cases h

end ReplacePhase

namespace Session

/-- Every driver that was published and is not the binding has been disposed. -/
def Exclusive (σ : Session) : Prop :=
  ∀ binding id call scope, σ.binding = some binding → σ.calls id = some call → call.phase.isCommitted = true →
    call.preparation = some scope → id ≠ binding.provider → (σ.scopes scope).Disposed

/-- No retained scope of a driver that was published has anything left to dispose. -/
def Quiet (σ : Session) : Prop :=
  ∀ id call scope, σ.calls id = some call → call.phase.isCommitted = true → call.preparation = some scope →
    scope ∈ σ.retainedScopes → (σ.scopes scope).disposers = []

variable {generation : ℕ} {adds commits : Prop} {σ σ' : Session}

/-- A driver that was published has one disposer, and it has succeeded or is left. -/
theorem Custody.disposed_iff (h : Custody generation σ) (hgood : Good generation σ) {id scope : ℕ}
    {call : ReplaceCall} (hcall : σ.calls id = some call) (hcommitted : call.phase.isCommitted = true)
    (hprep : call.preparation = some scope) : (σ.scopes scope).Disposed ↔ (σ.scopes scope).disposers = [] :=
  (hgood.sound scope).disposed_iff
    (h.manned id call scope hcall (ReplacePhase.isOwning_of_isCommitted hcommitted) hprep)

theorem Effect.committed_before (heffect : Effect generation adds commits σ σ') {id : ℕ} {call' : ReplaceCall}
    (hcall' : σ'.calls id = some call') (hcommitted : call'.phase.isCommitted = true) :
    (∃ call, σ.calls id = some call ∧ call.phase.isCommitted = true ∧ call'.preparation = call.preparation) ∨
      ∃ binding, σ'.binding = some binding ∧ binding.provider = id := by
  cases hcall : σ.calls id with
  | none =>
    have hnot := (heffect.added id call' hcall hcall').2
    rw [hcommitted] at hnot
    cases hnot
  | some call =>
    cases hwas : call.phase.isCommitted with
    | false => exact .inr (heffect.published id call call' hcall hcall' hwas hcommitted).2
    | true =>
      left
      refine ⟨call, rfl, hwas, ?_⟩
      obtain ⟨next, hnext, hhow⟩ := heffect.calls id call hcall
      rw [hcall'] at hnext
      cases hnext
      exact (hhow.of_isCommitted hwas).2

theorem Effect.exclusive (heffect : Effect generation adds commits σ σ') (hgood : Good generation σ)
    (h : Custody generation σ) {later : ℕ} (h' : Custody later σ') (hquiet : commits → Quiet σ)
    (hexclusive : Exclusive σ) : Exclusive σ' := by
  intro binding id call' scope hb' hcall' hcommitted' hprep' hne
  have hone := h'.manned id call' scope hcall' (ReplacePhase.isOwning_of_isCommitted hcommitted') hprep'
  -- what was disposed stays so
  have hkeep : (σ.scopes scope).Disposed → (σ'.scopes scope).Disposed := by
    intro hdisposed
    refine ⟨by rw [hone]; exact Nat.one_pos, fun disposer hlt => ?_⟩
    rw [hone, Nat.lt_one_iff] at hlt
    subst hlt
    exact (heffect.later scope).succeeded 0 (hdisposed.2 0 hdisposed.1)
  rcases heffect.committed_before hcall' hcommitted' with ⟨call, hcall, hcommitted, hsame⟩ | ⟨new, hnew, hid⟩
  · have hprep : call.preparation = some scope := hsame ▸ hprep'
    apply hkeep
    rcases heffect.binding with hb | hb | ⟨hcommits, hfree, -⟩
    · exact hexclusive binding id call scope (hb ▸ hb') hcall hcommitted hprep hne
    · rw [hb] at hb'
      cases hb'
    · refine (h.disposed_iff hgood hcall hcommitted hprep).2 ?_
      by_contra hleft
      rcases hgood.held id call scope hcall hcommitted hprep hleft with ⟨bound, hbound, -⟩ | hretained
      · rw [hfree] at hbound
        cases hbound
      · exact hleft (hquiet hcommits id call scope hcall hcommitted hprep hretained)
  · rw [hb'] at hnew
    cases hnew
    exact absurd hid.symm hne

/-! ## What a commit publishes -/

theorem own_scopes {call : ReplaceCall} {driver : Driver} (h : (σ.own call driver).2.2 = false) {scope : ℕ}
    (hscope : call.preparation ≠ some scope) : (σ.own call driver).1.scopes scope = σ.scopes scope := by
  unfold Session.own at h ⊢
  cases howned : call.ownedDriver with
  | some owned =>
    rw [howned] at h
    simp only at h ⊢
    split_ifs at h ⊢
    rfl
  | none =>
    rw [howned] at h
    simp only at h ⊢
    split at h
    · rename_i target added hadd
      obtain ⟨found, hfound, hmap⟩ := Option.bind_eq_some_iff.1 hadd
      obtain ⟨added', -, heq⟩ := Option.map_eq_some_iff.1 hmap
      cases heq
      refine update_of_ne ?_ _ _
      rintro rfl
      exact hscope hfound
    · cases h

/-- The driver of the call is published, and the scopes of the other calls are left alone. -/
structure Published (σ σ' : Session) (id : ℕ) (call : ReplaceCall) : Prop where
  pending : call.phase.isPending = true
  recorded : σ.calls id = some call
  binding : ∃ scope, σ'.binding = some ⟨id, scope⟩
  scopes : ∀ scope, call.preparation ≠ some scope → σ'.scopes scope = σ.scopes scope

theorem commit_binding (id : ℕ) {scope : ℕ} {call : ReplaceCall} (hfresh : σ.isStale generation call = false)
    (hfree : σ.binding = none) (hscope : call.preparation = some scope) (previous : Option ℕ) :
    (σ.commit generation id call previous).binding = some ⟨id, scope⟩ ∧
      (σ.commit generation id call previous).scopes = σ.scopes := by
  unfold Session.commit
  rw [if_neg (by rw [hfresh, hfree]; simp), hscope]
  exact ⟨rfl, rfl⟩

theorem published_of_commits (hgood : Good generation σ) {sessionId : String} {act : Act}
    (hcommits : Commits sessionId generation σ act) (hs : σ.step sessionId generation act = some σ') :
    ∃ id call, Published σ σ' id call := by
  cases act with
  | created id driver =>
    obtain ⟨hfree, call, hcall, hphase, hthrew, hfresh, hsession, hsnapshot⟩ := hcommits
    have hpending : call.phase.isPending = true := by rw [hphase]; rfl
    obtain ⟨scope, hscope⟩ := Option.ne_none_iff_exists'.1 (hgood.prepared id call hcall hpending)
    obtain ⟨other, hother, hs⟩ := Option.bind_eq_some_iff.1 hs
    rw [hcall] at hother
    cases hother
    rw [if_pos hphase] at hs
    cases hs
    obtain ⟨-, -, hprep, hprovider⟩ := own_call call driver σ
    obtain ⟨-, hb, -, hsg, hg, hcs, -⟩ := own_frame call driver σ
    let τ : Session := (σ.own call driver).1.setCall id (σ.own call driver).2.1
    have hfresh' : τ.isStale generation (σ.own call driver).2.1 = false := by
      unfold isStale at hfresh ⊢
      show (decide _ || decide ((σ.own call driver).2.1.sessionGeneration ≠ (σ.own call driver).1.sessionGeneration)) =
        false
      rw [hg, hcs, hsg]
      exact hfresh
    have hfree' : τ.binding = none := hb.trans hfree
    have hreceive : τ.receive sessionId generation id (σ.own call driver).2.1 driver (σ.own call driver).2.2 =
        τ.commit generation id (σ.own call driver).2.1 none := by
      unfold Session.receive Session.supersede
      rw [if_neg (by rw [hthrew]; exact Bool.false_ne_true), if_neg (by rw [hfresh']; exact Bool.false_ne_true),
        if_neg (fun hne => hne hsession), if_neg (by rw [hprovider, hsnapshot]; exact Bool.false_ne_true), hfree']
    obtain ⟨hbinding, hscopes⟩ := commit_binding id hfresh' hfree' (hprep.trans hscope) none
    refine ⟨id, call, hpending, hcall, ⟨scope, ?_⟩, fun other hne => ?_⟩
    · show (τ.receive sessionId generation id _ driver _).binding = _
      rw [hreceive]
      exact hbinding
    · show (τ.receive sessionId generation id _ driver _).scopes other = _
      rw [hreceive, hscopes]
      exact own_scopes hthrew hne
  | resumePrevious id =>
    obtain ⟨hfree, call, previous, cleanup, hcall, hphase, hok, hfresh⟩ := hcommits
    have hpending : call.phase.isPending = true := by rw [hphase]; rfl
    obtain ⟨scope, hscope⟩ := Option.ne_none_iff_exists'.1 (hgood.prepared id call hcall hpending)
    have hstep : σ.resumePrevious generation id = some (σ.commit generation id call (some previous)) := by
      unfold Session.resumePrevious
      rw [hcall, Option.bind_eq_bind, Option.bind_some, hphase]
      simp only
      rw [hok]
      rfl
    have hs' : σ.resumePrevious generation id = some σ' := hs
    rw [hstep] at hs'
    cases hs'
    obtain ⟨hbinding, hscopes⟩ := commit_binding id hfresh hfree hscope (some previous)
    exact ⟨id, call, hpending, hcall, ⟨scope, hbinding⟩, fun other _ => congrFun hscopes other⟩
  | replace _ | resumePrior _ | own _ _ | createFailed _ | preparationDisposed _ | resumeDisposed _ | detach
  | detachInstance _ | resumeTeardown _ | startJob _ | finishJob _ | settleJob _ | settleDisposer _ _
  | releaseScope _ => cases hcommits

/-- A commit leaves the property exactly where it finds the session quiet. -/
theorem exclusive_iff_quiet (hgood : Good generation σ) (h : Custody generation σ) {sessionId : String} {act : Act}
    (hcommits : Commits sessionId generation σ act) (hs : σ.step sessionId generation act = some σ') :
    Exclusive σ' ↔ Quiet σ := by
  have heffect := effect_step hgood hs
  have hgood' := hgood.step hs
  have h' := h.step hgood hs
  obtain ⟨id, call, hpublished⟩ := published_of_commits hgood hcommits hs
  constructor
  · intro hexclusive other old scope hold hcommitted hprep _
    have hne : other ≠ id := by
      rintro rfl
      rw [hpublished.recorded] at hold
      cases hold
      rw [ReplacePhase.isCommitted_of_isPending hpublished.pending] at hcommitted
      cases hcommitted
    obtain ⟨next, hnext, hhow⟩ := heffect.calls other old hold
    obtain ⟨hphase, hsame⟩ := hhow.of_isCommitted hcommitted
    have hcommitted' : next.phase.isCommitted = true := hphase ▸ hcommitted
    have hprep' : next.preparation = some scope := hsame.trans hprep
    obtain ⟨bound, hbinding⟩ := hpublished.binding
    have hdisposed := hexclusive ⟨id, bound⟩ other next scope hbinding hnext hcommitted' hprep' hne
    rw [h'.disposed_iff hgood' hnext hcommitted' hprep', hpublished.scopes scope] at hdisposed
    · exact hdisposed
    · intro hmine
      exact hne (hgood.apart other id old call scope hold hpublished.recorded (mem_scopes hprep) (mem_scopes hmine))
  · intro hquiet
    have hfree : σ.binding = none := by
      cases act with
      | created _ _ | resumePrevious _ => exact hcommits.1
      | replace _ | resumePrior _ | own _ _ | createFailed _ | preparationDisposed _ | resumeDisposed _ | detach
      | detachInstance _ | resumeTeardown _ | startJob _ | finishJob _ | settleJob _ | settleDisposer _ _
      | releaseScope _ => cases hcommits
    refine heffect.exclusive hgood h h' (fun _ => hquiet) fun binding _ _ _ hb => ?_
    rw [hfree] at hb
    cases hb

end Session

namespace RuntimeRegistry

open Session

/-- The condition on a step: a replacement commits only in a quiet session. -/
def CommitsQuietly (sessionId : String) (generation : ℕ) (σ : Session) (act : Act) : Prop :=
  Commits sessionId generation σ act → Quiet σ

/-- A replacement that finds the binding revoked by another, whose driver is not disposed yet. -/
def overlapping : List RegistryAct :=
  [.replace "neko", .created 0 ⟨0, "s1", []⟩, .replace "neko", .replace "neko", .created 1 ⟨1, "s1", []⟩,
    .created 2 ⟨2, "s1", []⟩].map (.session "s1")

end RuntimeRegistry

end Wiii.NekoChill
