import Wiii.NekoChill.Exclusive

/-!
# No disposer is lost

`Session.Accounted`: a disposer that was handed to a scope has succeeded, or is registered in a scope that the registry
holds.  The registry lets go of scopes in four ways: the snapshot of the capabilities throws, a driver was handed over
besides the one that is committed, to a preparation that disposes the others, or to a call that has ended.  Steps that
do none of these are `Careful`, and keep every disposer accounted for.
-/

namespace Wiii.NekoChill

open Function (update update_self update_of_ne)

namespace Session

/-- The scope is that of the binding, retained, or one of a pending preparation. -/
def Holds (σ : Session) (scope : ℕ) : Prop :=
  (∃ binding, σ.binding = some binding ∧ binding.scope = scope) ∨ scope ∈ σ.retainedScopes ∨
    ∃ id call, id ∈ σ.pendingPreparations ∧ σ.calls id = some call ∧ scope ∈ call.scopes

/-- Every disposer that was handed over is registered in a scope held, or has succeeded. -/
def Accounted (σ : Session) : Prop :=
  ∀ scope disposer, disposer < (σ.scopes scope).registered →
    disposer ∈ (σ.scopes scope).disposers ∧ σ.Holds scope ∨ (σ.scopes scope).Succeeded disposer

def Tidy (σ : Session) : Prop := ∀ scope, (σ.scopes scope).disposers ≠ [] → σ.Holds scope

/-- The act does not let go of a scope that has something to dispose. -/
def Careful (sessionId : String) (generation : ℕ) (σ : Session) : Act → Prop
  | .created id driver => ∀ call, σ.calls id = some call → call.phase = .creating →
      (σ.own call driver).2.2 = false → σ.isStale generation call = false → driver.sessionId = sessionId →
        snapshotThrows call.providerId driver = false ∧ (σ.binding = none → call.unownedScopes = [])
  | .resumePrevious id => Commits sessionId generation σ (.resumePrevious id) →
      ∀ call, σ.calls id = some call → call.unownedScopes = []
  | .resumeDisposed id => ∀ call failure, σ.calls id = some call → call.phase = .disposed failure false →
      ∀ scope ∈ call.scopes, (σ.scopes scope).disposers ≠ [] → scope ∈ σ.retainedScopes
  | .own id driver => ∀ call, σ.calls id = some call → call.phase.isPending = false →
      call.ownedDriver = some driver
  | _ => True

variable {generation : ℕ} {σ σ' : Session}

theorem accounted_of_tidy (hgood : Good generation σ) (h : Tidy σ) : Accounted σ := by
  intro scope disposer hlt
  rcases (hgood.sound scope).registered_or_succeeded hlt with hmem | hsucceeded
  · exact .inl ⟨hmem, h scope (List.ne_nil_of_mem hmem)⟩
  · exact .inr hsucceeded

/-! ## Holding on -/

theorem Tidy.of_holds (h : Tidy σ)
    (hdisposers : ∀ scope, (σ'.scopes scope).disposers ≠ [] → (σ.scopes scope).disposers ≠ [])
    (hholds : ∀ scope, (σ'.scopes scope).disposers ≠ [] → σ.Holds scope → σ'.Holds scope) : Tidy σ' :=
  fun scope hne => hholds scope hne (h scope (hdisposers scope hne))

theorem Tidy.of_calls (h : Tidy σ) (hcalls : σ'.calls = σ.calls)
    (hpending : σ'.pendingPreparations = σ.pendingPreparations)
    (hdisposers : ∀ scope, (σ'.scopes scope).disposers ≠ [] → (σ.scopes scope).disposers ≠ [])
    (hbinding : ∀ binding, σ.binding = some binding →
      σ'.binding = some binding ∨ binding.scope ∈ σ'.retainedScopes)
    (hretained : ∀ scope ∈ σ.retainedScopes, (σ'.scopes scope).disposers ≠ [] → scope ∈ σ'.retainedScopes) :
    Tidy σ' := by
  refine h.of_holds hdisposers fun scope hne => ?_
  rintro (⟨binding, hb, rfl⟩ | hmem | ⟨id, call, hid, hcall, hmem⟩)
  · rcases hbinding binding hb with hb' | hmem
    · exact .inl ⟨binding, hb', rfl⟩
    · exact .inr (.inl hmem)
  · exact .inr (.inl (hretained scope hmem hne))
  · exact .inr (.inr ⟨id, call, hpending ▸ hid, hcalls ▸ hcall, hmem⟩)

theorem disposers_of_new {nextScope scope : ℕ} {scopes : ℕ → RuntimeScope}
    (h : (update scopes nextScope {} scope).disposers ≠ []) : (scopes scope).disposers ≠ [] := by
  by_cases heq : scope = nextScope
  · subst heq
    rw [update_self] at h
    exact absurd rfl h
  · rwa [update_of_ne heq] at h

theorem Tidy.withCall (h : Tidy σ) {id : ℕ} {call call' : ReplaceCall} (hcall : σ.calls id = some call)
    (hscopes : ∀ scope ∈ call.scopes, scope ∈ call'.scopes) : Tidy (σ.setCall id call') := by
  refine h.of_holds (fun _ hne => hne) fun scope _ => ?_
  rintro (hb | hmem | ⟨other, c, hid, hc, hmem⟩)
  · exact .inl hb
  · exact .inr (.inl hmem)
  · by_cases heq : other = id
    · subst heq
      rw [hcall] at hc
      cases hc
      exact .inr (.inr ⟨other, call', hid, update_self _ _ _, hscopes scope hmem⟩)
    · exact .inr (.inr ⟨other, c, hid, (update_of_ne heq _ _).trans hc, hmem⟩)

theorem Tidy.complete (h : Tidy σ) {id : ℕ} {call call' : ReplaceCall} {binding : Option Binding}
    (hcall : σ.calls id = some call)
    (hbinding : ∀ b, σ.binding = some b → binding = some b)
    (hscopes : ∀ scope ∈ call.scopes, (σ.scopes scope).disposers ≠ [] →
      scope ∈ σ.retainedScopes ∨ ∃ b, binding = some b ∧ b.scope = scope) :
    Tidy ({ σ with binding := binding }.complete id call') := by
  refine h.of_holds (fun _ hne => hne) fun scope hne => ?_
  rintro (⟨b, hb, hscope⟩ | hmem | ⟨other, c, hid, hc, hmem⟩)
  · exact .inl ⟨b, hbinding b hb, hscope⟩
  · exact .inr (.inl hmem)
  · by_cases heq : other = id
    · subst heq
      rw [hcall] at hc
      cases hc
      rcases hscopes scope hmem hne with hin | hb
      · exact .inr (.inl hin)
      · exact .inl hb
    · exact .inr (.inr ⟨other, c, List.mem_filter.2 ⟨hid, decide_eq_true heq⟩,
        (update_of_ne heq _ _).trans hc, hmem⟩)

theorem Tidy.cleanupSession (h : Tidy σ) (authorities : List CleanupAuthority) (completions : List ℕ)
    (binding : Option Binding) (hbinding : ∀ b, σ.binding = some b →
      binding = some b ∨ b.scope ∈ authorities.map Prod.fst) :
    Tidy ({ σ with binding := binding }.cleanupSession authorities completions).1 := by
  obtain ⟨hcalls, hb, hp, -, hscopes⟩ := cleanupSession_frame authorities completions { σ with binding := binding }
  obtain ⟨hret, -⟩ := cleanupSession_retained authorities completions { σ with binding := binding }
  have hmem : ∀ scope, scope ∈ ({ σ with binding := binding }.cleanupSession authorities completions).1.retainedScopes ↔
      scope ∈ σ.retainedScopes ∨ scope ∈ authorities.map Prod.fst := by
    intro scope
    unfold retainedScopes
    rw [hret]
    exact mem_foldl_retain
  refine h.of_calls hcalls hp (fun scope hne => by rwa [hscopes] at hne) (fun b hσ => ?_)
    fun scope hin _ => (hmem scope).2 (.inl hin)
  rcases hbinding b hσ with heq | hin
  · exact .inl (hb.trans heq)
  · exact .inr ((hmem _).2 (.inr hin))

/-! ## The acts -/

theorem Tidy.own (h : Tidy σ) {id : ℕ} {call : ReplaceCall} (hcall : σ.calls id = some call)
    (hpending : id ∈ σ.pendingPreparations) (driver : Driver) :
    Tidy ((σ.own call driver).1.setCall id (σ.own call driver).2.1) := by
  have hnew : ∀ (target nextScope : ℕ) (new : RuntimeScope) (call' : ReplaceCall),
      (∀ scope ∈ call.scopes, scope ∈ call'.scopes) → target ∈ call'.scopes →
        Tidy ({ σ with scopes := update σ.scopes target new, nextScope := nextScope }.setCall id call') := by
    intro target nextScope new call' hsub htarget scope hne
    by_cases heq : scope = target
    · subst heq
      exact .inr (.inr ⟨id, call', hpending, update_self _ _ _, htarget⟩)
    · have hsame : (update σ.scopes target new scope) = σ.scopes scope := update_of_ne heq _ _
      have hne' : (update σ.scopes target new scope).disposers ≠ [] := hne
      rw [hsame] at hne'
      exact h.withCall hcall hsub scope hne'
  have happend : ∀ scope ∈ call.scopes,
      scope ∈ call.preparation.toList ++ (call.unownedScopes ++ [σ.nextScope]) := by
    intro scope hmem
    rw [← List.append_assoc]
    exact List.mem_append_left _ hmem
  have hlast : σ.nextScope ∈ call.preparation.toList ++ (call.unownedScopes ++ [σ.nextScope]) :=
    List.mem_append_right _ (List.mem_append_right _ (List.mem_singleton.2 rfl))
  unfold Session.own
  cases call.ownedDriver with
  | some owned =>
    simp only
    split_ifs
    · exact hnew _ _ _ _ happend hlast
    · rw [setCall_self hcall]
      exact h
  | none =>
    simp only
    split
    · rename_i target added hadd
      obtain ⟨scope, hscope, hmap⟩ := Option.bind_eq_some_iff.1 hadd
      obtain ⟨added', -, heq⟩ := Option.map_eq_some_iff.1 hmap
      cases heq
      exact hnew _ σ.nextScope _ { call with ownedDriver := some driver } (fun _ hmem => hmem) (mem_scopes hscope)
    · exact hnew _ _ _ _ happend hlast

theorem own_owned {call : ReplaceCall} {driver : Driver} (h : call.ownedDriver = some driver) :
    σ.own call driver = (σ, call, false) := by
  unfold Session.own
  rw [h]
  simp only
  rw [if_neg (fun hne => hne rfl)]

theorem own_unowned {call : ReplaceCall} {driver : Driver} (h : (σ.own call driver).2.2 = false) :
    (σ.own call driver).2.1.unownedScopes = call.unownedScopes := by
  unfold Session.own at h ⊢
  cases howned : call.ownedDriver with
  | some owned =>
    rw [howned] at h
    simp only at h ⊢
    split_ifs at h ⊢
    rfl
  | none =>
    rw [howned] at h
    simp only at h ⊢
    split at h
    · rfl
    · cases h

theorem Tidy.disposePreparation (h : Tidy σ) {id : ℕ} {call : ReplaceCall} (hcall : σ.calls id = some call)
    (failure : ReplaceFailure) : Tidy (σ.disposePreparation id call failure) := by
  have hdisposed : Tidy { σ with scopes := (disposeScopes call.scopes σ.scopes).1 } :=
    h.of_calls rfl rfl (fun scope hne => disposeScopes_disposers call.scopes σ.scopes scope ▸ hne)
      (fun _ hb => .inl hb) fun _ hmem _ => hmem
  exact hdisposed.withCall hcall fun _ hmem => hmem

theorem Tidy.commit (h : Tidy σ) {id : ℕ} {call : ReplaceCall} (hcall : σ.calls id = some call)
    (hunowned : σ.isStale generation call = false → σ.binding = none → call.unownedScopes = [])
    (previous : Option ℕ) : Tidy (σ.commit generation id call previous) := by
  unfold Session.commit
  split_ifs with hrefused
  · exact h.disposePreparation hcall _
  · rw [not_or, not_not] at hrefused
    have hempty := hunowned (Bool.not_eq_true _ ▸ hrefused.1) hrefused.2
    refine h.complete hcall (fun b hb => ?_) fun scope hmem _ => .inr ?_
    · rw [hrefused.2] at hb
      cases hb
    · unfold ReplaceCall.scopes at hmem
      rw [hempty, List.append_nil, Option.mem_toList] at hmem
      exact ⟨⟨id, scope⟩, by rw [hmem]; rfl, rfl⟩

theorem Tidy.supersede (h : Tidy σ) {id : ℕ} {call : ReplaceCall} (hcall : σ.calls id = some call)
    (hunowned : σ.binding = none → call.unownedScopes = []) : Tidy (σ.supersede generation id call) := by
  unfold Session.supersede
  cases hbinding : σ.binding with
  | none => exact h.commit hcall (fun _ => hunowned) none
  | some previous =>
    simp only
    have hclean := h.cleanupSession [(previous.scope, some previous.provider)] [] none fun b hb => by
      rw [hbinding] at hb
      cases hb
      exact .inr (List.mem_singleton.2 rfl)
    obtain ⟨hcalls, -⟩ := cleanupSession_frame [(previous.scope, some previous.provider)] [] { σ with binding := none }
    have hjob := cleanupSession_awaited (previous.scope, some previous.provider) { σ with binding := none }
    generalize { σ with binding := none }.cleanupSession [(previous.scope, some previous.provider)] [] = cleanup at *
    obtain ⟨job, hjob⟩ := Option.ne_none_iff_exists'.1 hjob
    have hcall' : cleanup.1.calls id = some call := by rw [hcalls]; exact hcall
    rw [hjob]
    exact hclean.withCall hcall' fun _ hmem => hmem

theorem Tidy.created (h : Tidy σ) (hgood : Good generation σ) {sessionId : String} {id : ℕ} {driver : Driver}
    {call : ReplaceCall} (hcall : σ.calls id = some call) (hphase : call.phase = .creating)
    (hcareful : Careful sessionId generation σ (.created id driver)) :
    Tidy (((σ.own call driver).1.setCall id (σ.own call driver).2.1).receive sessionId generation id
      (σ.own call driver).2.1 driver (σ.own call driver).2.2) := by
  have hpending := (hgood.pending id).2 ⟨call, hcall, by rw [hphase]; rfl⟩
  have hown := h.own hcall hpending driver
  have hset : ((σ.own call driver).1.setCall id (σ.own call driver).2.1).calls id = some (σ.own call driver).2.1 :=
    update_self _ _ _
  obtain ⟨-, -, -, hprovider⟩ := own_call call driver σ
  obtain ⟨-, hb, -, hsg, hg, hcs, -⟩ := own_frame call driver σ
  have hstale : ((σ.own call driver).1.setCall id (σ.own call driver).2.1).isStale generation (σ.own call driver).2.1 =
      σ.isStale generation call := by
    unfold isStale
    show (decide _ || decide (_ ≠ (σ.own call driver).1.sessionGeneration)) = _
    rw [hg, hcs, hsg]
  unfold Session.receive
  split_ifs with hthrew hstale' hsession hsnapshot
  · exact hown.disposePreparation hset _
  · exact hown.disposePreparation hset _
  · exact hown.disposePreparation hset _
  · have hsafe := (hcareful call hcall hphase (Bool.not_eq_true _ ▸ hthrew)
      (hstale ▸ (Bool.not_eq_true _ ▸ hstale')) (Decidable.of_not_not hsession)).1
    rw [hprovider, hsafe] at hsnapshot
    cases hsnapshot
  · refine hown.supersede hset fun hfree => ?_
    have hnone := (hcareful call hcall hphase (Bool.not_eq_true _ ▸ hthrew)
      (hstale ▸ (Bool.not_eq_true _ ▸ hstale')) (Decidable.of_not_not hsession)).2 (hb ▸ hfree)
    exact own_unowned (Bool.not_eq_true _ ▸ hthrew) ▸ hnone

theorem Tidy.replace (h : Tidy σ) (hgood : Good generation σ) (providerId : String) :
    Tidy (σ.replace generation providerId) := by
  have hclean : Tidy (σ.cleanupSession [] []).1 := h.cleanupSession [] [] σ.binding fun _ hb => .inl hb
  have hcleangood := hgood.cleanupSession [] []
  obtain ⟨hcalls, -, hp, -, -⟩ := cleanupSession_frame [] [] σ
  -- the new call is another one than those that are pending
  have hfresh : ∀ other ∈ σ.pendingPreparations, other ≠ σ.nextCall := by
    intro other hmem
    obtain ⟨call, hcall, -⟩ := (hgood.pending other).1 hmem
    exact Nat.ne_of_lt (hgood.fresh other call hcall).1
  unfold Session.replace
  simp only
  generalize σ.cleanupSession [] [] = cleanup at *
  cases cleanup.2 with
  | some job =>
    refine hclean.of_holds (fun _ hne => hne) fun scope _ => ?_
    rintro (hb | hmem | ⟨other, c, hid, hc, hmem⟩)
    · exact .inl hb
    · exact .inr (.inl hmem)
    · exact .inr (.inr ⟨other, c, hid, (update_of_ne (hfresh other (hp ▸ hid)) _ _).trans hc, hmem⟩)
  | none =>
    refine hclean.of_holds (fun scope hne => ?_) fun scope _ => ?_
    · exact disposers_of_new hne
    · rintro (hb | hmem | ⟨other, c, hid, hc, hmem⟩)
      · exact .inl hb
      · exact .inr (.inl hmem)
      · exact .inr (.inr ⟨other, c, List.mem_append_left _ hid,
          (update_of_ne (hfresh other (hp ▸ hid)) _ _).trans hc, hmem⟩)

/-! ## Teardowns, jobs and disposers -/

theorem Tidy.awaitCleanup {cleanup : Session × Option ℕ} (h : Tidy cleanup.1) (provider : Option ℕ)
    (dropsGeneration : Bool) : Tidy (Session.awaitCleanup provider dropsGeneration cleanup) := by
  obtain ⟨hcalls, hb, -, hscopes, -, hret⟩ := awaitCleanup_frame provider dropsGeneration cleanup
  have hpending : (Session.awaitCleanup provider dropsGeneration cleanup).pendingPreparations =
      cleanup.1.pendingPreparations := by
    unfold Session.awaitCleanup
    cases cleanup.2 with
    | some job => rfl
    | none =>
      cases dropsGeneration with
      | false => rfl
      | true =>
        simp only [if_true]
        unfold Session.dropGeneration
        split_ifs <;> rfl
  refine h.of_calls hcalls hpending (fun scope hne => by rwa [hscopes] at hne) (fun b hσ => .inl (hb.trans hσ))
    fun scope hin _ => ?_
  unfold retainedScopes
  rw [hret]
  exact hin

theorem Tidy.teardown (h : Tidy σ) (sessionGeneration : ℕ) (completions : List ℕ)
    {authorities : List CleanupAuthority} (hauthorities : ∀ scope ∈ σ.bound.map Prod.fst, scope ∈ authorities.map Prod.fst)
    (provider : Option ℕ) (dropsGeneration : Bool) :
    Tidy (Session.awaitCleanup provider dropsGeneration
      ({ σ with sessionGeneration := sessionGeneration, binding := none }.cleanupSession authorities completions)) := by
  have hgrown : Tidy { σ with sessionGeneration := sessionGeneration } := h
  exact (hgrown.cleanupSession authorities completions none fun b hb =>
    .inr (hauthorities _ (mem_bound hb))).awaitCleanup provider dropsGeneration

theorem Tidy.detach (h : Tidy σ) : Tidy σ.detach := by
  refine h.teardown _ _ (fun scope hmem => ?_) _ _
  rw [List.map_append]
  exact List.mem_append_right _ hmem

theorem Tidy.disposeAll (h : Tidy σ) : Tidy σ.disposeAll := by
  refine h.teardown σ.sessionGeneration _ (fun scope hmem => ?_) _ _
  rw [List.map_append]
  exact List.mem_append_left _ hmem

theorem Tidy.detachInstance (h : Tidy σ) (provider : ℕ) : Tidy (σ.detachInstance provider) := by
  unfold Session.detachInstance
  split
  · exact (h.cleanupSession [] [] σ.binding fun _ hb => .inl hb).awaitCleanup _ _
  · refine h.teardown _ _ (fun scope hmem => ?_) _ _
    rw [List.map_append]
    exact List.mem_append_left _ hmem

theorem Tidy.updateScope (h : Tidy σ) {id : ℕ} {new : RuntimeScope}
    (hdisposers : (σ.scopes id).disposers = [] → new.disposers = []) :
    Tidy { σ with scopes := update σ.scopes id new } := by
  refine h.of_calls rfl rfl (fun scope hne => ?_) (fun _ hb => .inl hb) fun _ hmem _ => hmem
  have hne' : (update σ.scopes id new scope).disposers ≠ [] := hne
  by_cases hid : scope = id
  · subst hid
    rw [update_self] at hne'
    exact fun hnil => hne' (hdisposers hnil)
  · rwa [update_of_ne hid] at hne'

theorem Tidy.step (h : Tidy σ) (hgood : Good generation σ) {sessionId : String} {act : Act}
    (hcareful : Careful sessionId generation σ act) (hs : σ.step sessionId generation act = some σ') : Tidy σ' := by
  have hsame : ∀ {τ : Session}, τ.calls = σ.calls → τ.pendingPreparations = σ.pendingPreparations →
      τ.scopes = σ.scopes → τ.binding = σ.binding → τ.retainedCleanupScopes = σ.retainedCleanupScopes → Tidy τ := by
    intro τ hcalls hp hscopes hb hret
    refine h.of_calls hcalls hp (fun scope hne => by rwa [hscopes] at hne) (fun b hσ => .inl (hb.trans hσ))
      fun scope hmem _ => ?_
    unfold retainedScopes
    rw [hret]
    exact hmem
  have hretained : ∀ {retained : List CleanupAuthority}, (∀ scope ∈ σ.retainedScopes, scope ∈ retained.map Prod.fst) →
      Tidy { σ with retainedCleanupScopes := retained } := fun hkept =>
    h.of_calls rfl rfl (fun _ hne => hne) (fun _ hb => .inl hb) fun scope hin _ => hkept scope hin
  cases step_moves hs with
  | replaced providerId => exact h.replace hgood providerId
  | @prepared id cleanup call hcall hphase =>
    refine h.of_holds (fun scope hne => disposers_of_new hne) fun scope _ => ?_
    rintro (hb | hmem | ⟨other, c, hother, hc, hmem⟩)
    · exact .inl hb
    · exact .inr (.inl hmem)
    · refine .inr (.inr ⟨other, c, List.mem_append_left _ hother, (update_of_ne ?_ _ _).trans hc, hmem⟩)
      rintro rfl
      obtain ⟨waiting, hwaiting, hpending⟩ := (hgood.pending other).1 hother
      rw [hcall] at hwaiting
      cases hwaiting
      rw [hphase] at hpending
      cases hpending
  | priorFailed hcall => exact h.withCall hcall fun _ hmem => hmem
  | @owned id call driver hcall =>
    cases hpending : call.phase.isPending with
    | true => exact h.own hcall ((hgood.pending id).2 ⟨call, hcall, hpending⟩) driver
    | false =>
      rw [own_owned (hcareful call hcall hpending), setCall_self hcall]
      exact h
  | created driver hcall hphase => exact h.created hgood hcall hphase hcareful
  | createFailed hcall => exact h.disposePreparation hcall _
  | @resumed id previous cleanup call hcall hphase hok =>
    exact h.commit hcall (fun hfresh hfree =>
      hcareful ⟨hfree, call, previous, cleanup, hcall, hphase, hok, hfresh⟩ call hcall) _
  | previousFailed hcall => exact h.disposePreparation hcall _
  | disposed hcall hphase hretains => exact (hretained hretains.kept).withCall hcall fun _ hmem => hmem
  | @rejected id call failure _ cleanupFailed _ hcall hphase hretains hdone =>
    refine (hretained hretains.kept).complete hcall (fun _ hb => hb) fun scope hmem hne => .inl ?_
    cases cleanupFailed with
    | true => exact hdone rfl scope hmem
    | false => exact hretains.kept scope (hcareful call failure hcall hphase scope hmem hne)
  | detached => exact h.detach
  | instanceDetached provider => exact h.detachInstance provider
  | tornDown dropsGeneration teardowns =>
    cases dropsGeneration with
    | false => exact hsame rfl rfl rfl rfl rfl
    | true =>
      simp only [if_true]
      unfold Session.dropGeneration
      split_ifs <;> exact hsame rfl rfl rfl rfl rfl
  | jobStarted jobs =>
    exact h.of_calls rfl rfl (fun scope hne => disposeScopes_disposers σ.retainedScopes σ.scopes scope ▸ hne)
      (fun _ hb => .inl hb) fun _ hmem _ => hmem
  | jobFinished disposals jobs hkept =>
    refine h.of_calls rfl rfl (fun _ hne => hne) (fun _ hb => .inl hb) fun scope hmem hne => ?_
    exact (hkept scope hmem).resolve_right fun hdone => hne (hgood.disposers_of_fulfilled hdone)
  | jobSettled inFlight jobs => exact hsame rfl rfl rfl rfl rfl
  | disposerSettled hscope => exact h.updateScope (RuntimeScope.settle_disposers (hgood.sound _) hscope)
  | released id => exact h.updateScope fun hnil => hnil

end Session

end Wiii.NekoChill
