import Wiii.NekoChill.Custody

/-!
# Every step keeps custody

The acts of a session, and `disposeAll`, keep `Session.Custody`; so it holds of every session over every
run of the registry (`RuntimeRegistry.custody_of_run`).
-/

namespace Wiii.NekoChill

open Function (update update_self update_of_ne)

theorem RuntimeScope.add_spec {scope added : RuntimeScope} (h : scope.add = some added) :
    scope.disposalStarted = false ∧ added.disposalStarted = false ∧ added.registered = scope.registered + 1 := by
  unfold RuntimeScope.add at h
  split_ifs at h with hstarted
  cases h
  exact ⟨Bool.not_eq_true _ ▸ hstarted, Bool.not_eq_true _ ▸ hstarted, rfl⟩

theorem RuntimeScope.add_of_not_started {scope : RuntimeScope} (h : scope.disposalStarted = false) :
    scope.add ≠ none := by
  unfold RuntimeScope.add
  rw [if_neg (by rw [h]; exact Bool.false_ne_true)]
  exact Option.some_ne_none _

theorem RuntimeScope.settle_disposalStarted {scope settled : RuntimeScope} {ok : Bool}
    (h : scope.settle ok = some settled) : settled.disposalStarted = scope.disposalStarted := by
  unfold RuntimeScope.settle at h
  split at h
  · simp only at h
    split_ifs at h <;> cases h <;> rfl
  · cases h

namespace Session

variable {generation : ℕ} {σ σ' : Session}

theorem setCall_self {id : ℕ} {call : ReplaceCall} (h : σ.calls id = some call) : σ.setCall id call = σ := by
  unfold Session.setCall
  rw [← h, Function.update_eq_self]

/-! ## Calls -/

theorem Custody.own (h : Custody generation σ) (hgood : Good generation σ) {id : ℕ} {call : ReplaceCall}
    (hcall : σ.calls id = some call) (hprep : call.preparation ≠ none) (driver : Driver) :
    Custody generation ((σ.own call driver).1.setCall id (σ.own call driver).2.1) := by
  have hlt : ∀ scope, call.preparation = some scope → scope ≠ σ.nextScope := fun scope hscope =>
    Nat.ne_of_lt ((hgood.fresh id call hcall).2 scope (mem_scopes hscope))
  have hfresh : ∀ other c, other ≠ id → σ.calls other = some c → σ.nextScope ∉ c.scopes := fun other c _ hc hmem =>
    Nat.lt_irrefl _ ((hgood.fresh other c hc).2 _ hmem)
  have happend : ∀ scope ∈ call.scopes,
      scope ∈ call.preparation.toList ++ (call.unownedScopes ++ [σ.nextScope]) := by
    intro scope hmem
    rw [← List.append_assoc]
    exact List.mem_append_left _ hmem
  unfold Session.own
  cases howned : call.ownedDriver with
  | some owned =>
    have hsome : call.ownedDriver ≠ none := by rw [howned]; exact Option.some_ne_none _
    simp only
    split_ifs
    · refine h.withScope hgood hcall rfl rfl rfl rfl happend hprep hsome rfl (Nat.le_succ _) hfresh
        (fun scope hphase hscope hnot => ?_) fun scope ho hscope => ?_
      · rw [update_of_ne (hlt scope hscope)]
        exact (h.ready id call scope hcall hphase hscope hnot).2.2 hsome
      · rw [update_of_ne (hlt scope hscope)]
        exact h.manned id call scope hcall ho hscope
    · rw [setCall_self hcall]
      exact h
  | none =>
    have hnot : ¬ call.phase.isOwning = true := fun ho => hgood.owned id call hcall ho howned
    simp only
    split
    · rename_i target added hadd
      obtain ⟨scope, hscope, hmap⟩ := Option.bind_eq_some_iff.1 hadd
      obtain ⟨added', hadded, heq⟩ := Option.map_eq_some_iff.1 hmap
      cases heq
      obtain ⟨-, hstarted, hregistered⟩ := RuntimeScope.add_spec hadded
      refine h.withScope hgood hcall rfl rfl rfl rfl (fun _ hmem => hmem) hprep (Option.some_ne_none _) hstarted
        (Nat.le_refl _) (fun other c hid hc hmem => ?_) (fun other _ hother _ => ?_) fun _ ho => absurd ho hnot
      · exact hid (hgood.apart other id c call _ hc hcall hmem (mem_scopes hscope))
      · rw [hscope] at hother
        cases hother
        rw [update_self, hregistered, h.vacant id call _ hcall hscope howned]
    · rename_i hadd
      refine h.withScope hgood hcall rfl rfl rfl rfl happend hprep (Option.some_ne_none _) rfl (Nat.le_succ _) hfresh
        (fun scope hphase hscope hnot => ?_) fun _ ho => absurd ho hnot
      -- a fresh preparation would have taken the driver
      have hstarted := (h.ready id call scope hcall hphase hscope hnot).2.1
      obtain ⟨added, hadded⟩ := Option.ne_none_iff_exists'.1 (RuntimeScope.add_of_not_started hstarted)
      rw [hscope, Option.bind_some, hadded] at hadd
      cases hadd

theorem Custody.addCall (h : Custody generation σ) (hgood : Good generation σ) (call : ReplaceCall)
    (hwaiting : call.phase.isWaiting = true) (hprep : call.preparation = none) (howned : call.ownedDriver = none) :
    Custody generation ({ σ with nextCall := σ.nextCall + 1 }.setCall σ.nextCall call) := by
  have hphase : ∀ phase : ReplacePhase, phase.isWaiting = false → call.phase ≠ phase := by
    rintro phase hp rfl
    rw [hp] at hwaiting
    cases hwaiting
  have hnone : ∀ scope, call.preparation ≠ some scope := fun scope hp => by
    rw [hprep] at hp
    cases hp
  exact h.setCall (τ := { σ with nextCall := σ.nextCall + 1 }) rfl rfl rfl (Nat.le_refl _)
    ⟨fun _ => howned, fun _ hp => absurd hp (hnone _), fun _ _ hp => absurd hp (hnone _),
      fun _ _ hp => absurd hp (hnone _), fun _ _ hp => absurd hp (hphase _ rfl)⟩ (fun _ _ _ _ _ _ => rfl)
    (fun _ _ => .inl rfl) fun c _ _ hc _ => absurd (hgood.fresh _ c hc).1 (Nat.lt_irrefl _)

theorem Custody.prepare (h : Custody generation σ) (hgood : Good generation σ) {id : ℕ} {call : ReplaceCall}
    (hcall : σ.calls id = some call) (hwaiting : call.phase.isWaiting = true) :
    Custody generation (σ.prepare generation id call) := by
  let τ : Session := { σ with
    pendingPreparations := σ.pendingPreparations ++ [id], scopes := update σ.scopes σ.nextScope {}
    nextScope := σ.nextScope + 1 }
  have hnew : τ.scopes σ.nextScope = {} := update_self _ _ _
  refine h.setCall (τ := τ) rfl rfl rfl (Nat.le_succ _) ⟨fun hw => (nomatch hw), fun scope hp _ => ?_,
    fun scope _ hp _ => ?_, fun _ ho => (nomatch ho), fun _ _ hp => (nomatch hp)⟩ (fun other c scope _ hc hp => ?_)
    (fun scope hstarted => .inl (update_of_ne (fun heq => ?_) _ _)) fun c disposals failure hc hp => ?_
  · rw [← Option.some.inj hp, hnew]
  · rw [← Option.some.inj hp, hnew]
    exact ⟨fun hmem => Nat.lt_irrefl _ (h.retained _ hmem), rfl, fun hne => absurd (h.waiting id call hcall hwaiting) hne⟩
  · exact update_of_ne (Nat.ne_of_lt ((hgood.fresh other c hc).2 scope (mem_scopes hp))) _ _
  · rw [heq, hnew] at hstarted
    cases hstarted
  · rw [hcall] at hc
    cases hc
    rw [hp] at hwaiting
    cases hwaiting

/-! ## Cleanup -/

theorem Custody.cleanupSession (h : Custody generation σ) (authorities : List CleanupAuthority)
    (completions : List ℕ) (hlt : ∀ scope ∈ authorities.map Prod.fst, scope < σ.nextScope)
    (hready : ∀ id call scope, σ.calls id = some call → call.phase = .creating → call.preparation = some scope →
      σ.isStale generation call = false → scope ∉ authorities.map Prod.fst) (binding : Option Binding) :
    Custody generation ({ σ with binding := binding }.cleanupSession authorities completions).1 := by
  have hretained := h.withRetained (authorities.foldl retain σ.retainedCleanupScopes)
    (fun scope hmem => mem_foldl_retain.2 (.inl hmem))
    (fun scope hmem => (mem_foldl_retain.1 hmem).elim (h.retained scope) (hlt scope))
    fun id call scope hc hphase hp hfresh hmem => (mem_foldl_retain.1 hmem).elim
      (h.ready id call scope hc hphase hp hfresh).1 (hready id call scope hc hphase hp hfresh)
  obtain ⟨hcalls, -, -, hs, hscopes⟩ := cleanupSession_frame authorities completions { σ with binding := binding }
  obtain ⟨hret, hnext⟩ := cleanupSession_retained authorities completions { σ with binding := binding }
  exact hretained.frame hcalls hscopes hnext hret fun _ _ _ _ => hs

theorem Custody.replace (h : Custody generation σ) (hgood : Good generation σ) (providerId : String) :
    Custody generation (σ.replace generation providerId) := by
  have hclean : Custody generation (σ.cleanupSession [] []).1 :=
    h.cleanupSession [] [] (fun _ hmem => by cases hmem) (fun _ _ _ _ _ _ _ hmem => by cases hmem) σ.binding
  have hcleangood := hgood.cleanupSession [] []
  have hnext : (σ.cleanupSession [] []).1.nextCall = σ.nextCall := by
    obtain ⟨jobs, nextJob, inFlight, heq⟩ := cleanupSession_fst [] [] σ
    rw [heq]
  unfold Session.replace
  simp only
  generalize σ.cleanupSession [] [] = cleanup at *
  rw [← hnext]
  cases cleanup.2 with
  | some job => exact hclean.addCall hcleangood _ rfl rfl rfl
  | none =>
    let call : ReplaceCall := ⟨providerId, σ.retainedProvider, .awaitingPrior 0, none, 0, 0, none, []⟩
    have hprepared := (hclean.addCall hcleangood call rfl rfl rfl).prepare (hcleangood.addCall call rfl rfl)
      (update_self _ _ _) rfl
    rw [prepare_setCall] at hprepared
    exact hprepared

/-! ## The end of a replacement -/

theorem Custody.commit (h : Custody generation σ) (hgood : Good generation σ) {id : ℕ} {call : ReplaceCall}
    (hcall : σ.calls id = some call) (hfrom : ∀ disposals failure, call.phase ≠ .disposing disposals failure)
    (hmanned : ∀ scope, call.preparation = some scope → σ.isStale generation call = false →
      (σ.scopes scope).registered = 1) (previous : Option ℕ) :
    Custody generation (σ.commit generation id call previous) := by
  unfold Session.commit
  split_ifs with hrefused
  · exact h.disposePreparation hgood hcall hfrom _
  · rw [not_or] at hrefused
    exact h.complete hgood hcall { call with phase := .committed (previous <|> call.recoveredProvider) } rfl rfl rfl rfl
      (fun _ scope hp => hmanned scope hp (Bool.not_eq_true _ ▸ hrefused.1)) hfrom _

theorem Custody.supersede (h : Custody generation σ) (hgood : Good generation σ) {id : ℕ} {call : ReplaceCall}
    (hcall : σ.calls id = some call) (hphase : call.phase = .creating) (howned : call.ownedDriver ≠ none)
    (hfresh : σ.isStale generation call = false) : Custody generation (σ.supersede generation id call) := by
  have hfrom : ∀ disposals failure, call.phase ≠ .disposing disposals failure := fun _ _ hp => by
    rw [hphase] at hp
    cases hp
  have hmanned : ∀ scope, call.preparation = some scope → (σ.scopes scope).registered = 1 := fun scope hp =>
    (h.ready id call scope hcall hphase hp hfresh).2.2 howned
  unfold Session.supersede
  cases hbinding : σ.binding with
  | none => exact h.commit hgood hcall hfrom (fun scope hp _ => hmanned scope hp) none
  | some previous =>
    simp only
    obtain ⟨old, hold, hcommitted, hscope⟩ := hgood.bound previous hbinding
    have hclean := h.cleanupSession [(previous.scope, some previous.provider)] []
      (fun scope hmem => by
        rw [List.mem_singleton.1 hmem]
        exact (hgood.fresh _ old hold).2 _ (mem_scopes hscope))
      (fun other c scope hc hp hscope' _ hmem => by
        rw [List.mem_singleton.1 hmem] at hscope'
        have hid := hgood.apart _ _ old c _ hold hc (mem_scopes hscope) (mem_scopes hscope')
        rw [hid, hc] at hold
        cases hold
        rw [hp] at hcommitted
        cases hcommitted) none
    have hrevoked := hgood.revoke [(previous.scope, some previous.provider)] [] fun binding hb => by
      rw [hbinding] at hb
      cases hb
      exact List.mem_singleton.2 rfl
    obtain ⟨hcalls, -, -, -, hscopes⟩ :=
      cleanupSession_frame [(previous.scope, some previous.provider)] [] { σ with binding := none }
    generalize { σ with binding := none }.cleanupSession [(previous.scope, some previous.provider)] [] = cleanup at *
    have hcall' : cleanup.1.calls id = some call := by rw [hcalls]; exact hcall
    have hmanned' : ∀ scope, call.preparation = some scope → (cleanup.1.scopes scope).registered = 1 := by
      rw [hscopes]
      exact hmanned
    cases cleanup.2 with
    | none => exact hclean.commit hrevoked hcall' hfrom (fun scope hp _ => hmanned' scope hp) _
    | some job =>
      exact hclean.withCall hcall' rfl rfl rfl (fun hp => (nomatch hp)) (fun _ => hmanned') (fun _ _ hp => (nomatch hp))
        fun disposals failure hp => absurd hp (hfrom disposals failure)

theorem Custody.receive (h : Custody generation σ) (hgood : Good generation σ) {id : ℕ} {call : ReplaceCall}
    (hcall : σ.calls id = some call) (hphase : call.phase = .creating) (howned : call.ownedDriver ≠ none)
    (sessionId : String) (driver : Driver) (threw : Bool) :
    Custody generation (σ.receive sessionId generation id call driver threw) := by
  have hfrom : ∀ disposals failure, call.phase ≠ .disposing disposals failure := fun _ _ hp => by
    rw [hphase] at hp
    cases hp
  unfold Session.receive
  split_ifs with hthrew hstale
  · exact h.disposePreparation hgood hcall hfrom _
  · exact h.disposePreparation hgood hcall hfrom _
  · exact h.disposePreparation hgood hcall hfrom _
  · exact h.complete hgood hcall { call with phase := .rejected .snapshot false } rfl rfl rfl rfl
      (fun hp => (nomatch hp)) hfrom σ.binding
  · exact h.supersede hgood hcall hphase howned (Bool.not_eq_true _ ▸ hstale)

theorem Custody.retains (h : Custody generation σ) (hgood : Good generation σ) {id : ℕ} {call : ReplaceCall}
    (hcall : σ.calls id = some call) (hphase : call.phase ≠ .creating) {retained : List CleanupAuthority}
    {scopes : List ℕ} (hretains : σ.Retains retained scopes) (hmine : ∀ scope ∈ scopes, scope ∈ call.scopes) :
    Custody generation { σ with retainedCleanupScopes := retained } := by
  refine h.withRetained retained hretains.kept (fun scope hin => ?_) fun other c scope hc hp hscope hfresh hin => ?_
  · exact (hretains.new scope hin).elim (h.retained scope) fun hd => (hgood.fresh id call hcall).2 scope (hmine scope hd)
  · refine (hretains.new scope hin).elim (h.ready other c scope hc hp hscope hfresh).1 fun hd => ?_
    have hid := hgood.apart other id c call scope hc hcall (mem_scopes hscope) (hmine scope hd)
    rw [hid, hcall] at hc
    cases hc
    exact hphase hp

/-! ## Teardowns -/

theorem mem_preparations {scope : ℕ} (hgood : Good generation σ) (h : scope ∈ σ.preparations.map Prod.fst) :
    scope < σ.nextScope := by
  obtain ⟨authority, hauthority, rfl⟩ := List.mem_map.1 h
  obtain ⟨id, -, hid⟩ := List.mem_filterMap.1 hauthority
  obtain ⟨scope, hscope, rfl⟩ := Option.map_eq_some_iff.1 hid
  obtain ⟨call, hcall, hp⟩ := Option.bind_eq_some_iff.1 hscope
  exact (hgood.fresh id call hcall).2 scope (mem_scopes hp)

theorem bound_lt {scope : ℕ} (hgood : Good generation σ) (h : scope ∈ σ.bound.map Prod.fst) :
    scope < σ.nextScope := by
  obtain ⟨authority, hauthority, rfl⟩ := List.mem_map.1 h
  obtain ⟨binding, hbinding, rfl⟩ := Option.map_eq_some_iff.1 (Option.mem_toList.1 hauthority)
  obtain ⟨call, hcall, -, hp⟩ := hgood.bound binding hbinding
  exact (hgood.fresh _ call hcall).2 _ (mem_scopes hp)

theorem Custody.tornDown (h : Custody generation σ) {later : ℕ}
    (htorn : TornDown later σ σ') {authorities : List CleanupAuthority} (hscopes : σ'.scopes = σ.scopes)
    (hnext : σ'.nextScope = σ.nextScope)
    (hretained : σ'.retainedCleanupScopes = authorities.foldl retain σ.retainedCleanupScopes)
    (hlt : ∀ scope ∈ authorities.map Prod.fst, scope < σ.nextScope) : Custody later σ' := by
  have hmem : ∀ scope, scope ∈ σ'.retainedScopes ↔ scope ∈ σ.retainedScopes ∨ scope ∈ authorities.map Prod.fst := by
    intro scope
    unfold retainedScopes
    rw [hretained]
    exact mem_foldl_retain
  refine h.of_calls htorn.calls hnext (fun scope => by rw [hscopes]) (fun id call scope hc hphase _ hfresh => ?_)
    (fun scope hin => ((hmem scope).1 hin).elim (h.retained scope) (hlt scope)) fun scope hs => ?_
  · exfalso
    unfold isStale at hfresh
    simp only [Bool.or_eq_false_iff, decide_eq_false_iff_not, not_not] at hfresh
    rcases htorn.stale id call hc (by rw [hphase]; rfl) with hlt' | hlt'
    · exact Nat.ne_of_lt hlt' hfresh.1
    · exact Nat.ne_of_lt hlt' hfresh.2
  · rw [hscopes] at hs ⊢
    exact (h.touched scope hs).imp_right (Or.imp_left fun hin => (hmem scope).2 (.inl hin))

theorem Custody.detach (h : Custody generation σ) (hgood : Good generation σ) : Custody generation σ.detach := by
  let τ : Session := { σ with sessionGeneration := σ.sessionGeneration + 1, binding := none }
  obtain ⟨-, -, -, -, hscopes⟩ := cleanupSession_frame (σ.preparations ++ σ.bound) σ.pendingPreparations τ
  obtain ⟨hret, hnext⟩ := cleanupSession_retained (σ.preparations ++ σ.bound) σ.pendingPreparations τ
  obtain ⟨-, -, -, hscopes', hnext', hret'⟩ := awaitCleanup_frame ((σ.binding.map Binding.provider) <|> σ.retainedProvider)
    true (τ.cleanupSession (σ.preparations ++ σ.bound) σ.pendingPreparations)
  refine h.tornDown (tornDown_detach hgood) (hscopes'.trans hscopes) (hnext'.trans hnext) (hret'.trans hret)
    fun scope hin => ?_
  rw [List.map_append, List.mem_append] at hin
  exact hin.elim (mem_preparations hgood) (bound_lt hgood)

theorem Custody.disposeAll (h : Custody generation σ) (hgood : Good generation σ) :
    Custody (generation + 1) σ.disposeAll := by
  let τ : Session := { σ with binding := none }
  obtain ⟨-, -, -, -, hscopes⟩ := cleanupSession_frame (σ.bound ++ σ.preparations) σ.pendingPreparations τ
  obtain ⟨hret, hnext⟩ := cleanupSession_retained (σ.bound ++ σ.preparations) σ.pendingPreparations τ
  obtain ⟨-, -, -, hscopes', hnext', hret'⟩ := awaitCleanup_frame ((σ.binding.map Binding.provider) <|> σ.retainedProvider)
    false (τ.cleanupSession (σ.bound ++ σ.preparations) σ.pendingPreparations)
  refine h.tornDown (tornDown_disposeAll hgood) (hscopes'.trans hscopes) (hnext'.trans hnext)
    (hret'.trans hret) fun scope hin => ?_
  rw [List.map_append, List.mem_append] at hin
  exact hin.elim (bound_lt hgood) (mem_preparations hgood)

theorem Custody.detachInstance (h : Custody generation σ) (hgood : Good generation σ) (provider : ℕ) :
    Custody generation (σ.detachInstance provider) := by
  rcases detachInstance_cases hgood provider with hsame | htorn
  · obtain ⟨hcalls, -, hp, hs, hscopes⟩ := cleanupSession_frame [] [] σ
    obtain ⟨hret, hnext⟩ := cleanupSession_retained [] [] σ
    obtain ⟨hcalls', -, hs', hscopes', hnext', hret'⟩ :=
      awaitCleanup_frame σ.retainedProvider false (σ.cleanupSession [] [])
    rw [hsame]
    refine h.frame (hcalls'.trans hcalls) (hscopes'.trans hscopes) (hnext'.trans hnext) (hret'.trans hret)
      fun id call hc hphase => ?_
    have hmem := (hgood.pending id).2 ⟨call, hc, by rw [hphase]; rfl⟩
    exact (hs' (hp ▸ List.ne_nil_of_mem hmem)).trans hs
  · exact h.tornDown htorn.1 htorn.2.1 htorn.2.2.1 htorn.2.2.2 fun scope hin => by
      rw [List.map_append, List.mem_append] at hin
      exact hin.elim (bound_lt hgood) (mem_preparations hgood)

theorem Custody.dropGeneration (h : Custody generation σ) (hgood : Good generation σ) :
    Custody generation σ.dropGeneration := by
  unfold Session.dropGeneration
  split_ifs with hempty
  · refine h.frame rfl rfl rfl rfl fun id call hc hphase => ?_
    have hmem := (hgood.pending id).2 ⟨call, hc, by rw [hphase]; rfl⟩
    rw [hempty] at hmem
    cases hmem
  · exact h

/-! ## Jobs and disposers -/

theorem Custody.updateScope (h : Custody generation σ) {id : ℕ} {new : RuntimeScope}
    (hregistered : new.registered = (σ.scopes id).registered)
    (hstarted : new.disposalStarted = (σ.scopes id).disposalStarted)
    (hdisposers : (σ.scopes id).disposers = [] → new.disposers = []) :
    Custody generation { σ with scopes := update σ.scopes id new } := by
  have hcases : ∀ scope, (update σ.scopes id new scope).registered = (σ.scopes scope).registered ∧
      (update σ.scopes id new scope).disposalStarted = (σ.scopes scope).disposalStarted ∧
      ((σ.scopes scope).disposers = [] → (update σ.scopes id new scope).disposers = []) := by
    intro scope
    by_cases hid : scope = id
    · subst hid
      rw [update_self]
      exact ⟨hregistered, hstarted, hdisposers⟩
    · rw [update_of_ne hid]
      exact ⟨rfl, rfl, fun hnil => hnil⟩
  refine h.of_calls rfl rfl (fun scope => (hcases scope).1) (fun id call scope hc hphase hp hfresh => ?_)
    h.retained fun scope hs => ?_
  · obtain ⟨hnot, hfree, -⟩ := h.ready id call scope hc hphase hp hfresh
    exact ⟨hfresh, hnot, (hcases scope).2.1.trans hfree⟩
  · have hs' : (σ.scopes scope).disposalStarted = true := (hcases scope).2.1.symm.trans hs
    exact (h.touched scope hs').imp_left (hcases scope).2.2

theorem Custody.step (h : Custody generation σ) (hgood : Good generation σ) {sessionId : String} {act : Act}
    (hs : σ.step sessionId generation act = some σ') : Custody generation σ' := by
  have hfrom : ∀ {call : ReplaceCall} {phase : ReplacePhase}, call.phase = phase →
      (∀ disposals failure, phase ≠ .disposing disposals failure) →
        ∀ disposals failure, call.phase ≠ .disposing disposals failure := fun hphase hne => hphase ▸ hne
  cases step_moves hs with
  | replaced providerId => exact h.replace hgood providerId
  | prepared hcall hphase => exact h.prepare hgood hcall (by rw [hphase]; rfl)
  | priorFailed hcall hphase =>
    exact h.withCall hcall rfl rfl rfl (fun hp => (nomatch hp)) (fun hp => (nomatch hp)) (fun _ _ hp => (nomatch hp))
      fun disposals failure hp => absurd hp (hfrom hphase (fun _ _ hp => (nomatch hp)) disposals failure)
  | owned driver hcall hprep => exact h.own hgood hcall hprep driver
  | @created id call driver hcall hphase =>
    obtain ⟨hsame, howned, -, -⟩ := own_call call driver σ
    have hown := h.own hgood hcall (hgood.prepared id call hcall (by rw [hphase]; rfl)) driver
    have howngood := hgood.own hcall (by rw [hphase]; rfl) driver
    exact hown.receive howngood (update_self _ _ _) (hsame.trans hphase) howned sessionId driver _
  | createFailed hcall hphase =>
    exact h.disposePreparation hgood hcall (hfrom hphase fun _ _ hp => (nomatch hp)) _
  | @resumed id previous cleanup call hcall hphase =>
    exact h.commit hgood hcall (hfrom hphase fun _ _ hp => (nomatch hp))
      (fun scope hp _ => h.manned id call scope hcall (by rw [hphase]; rfl) hp) _
  | previousFailed hcall hphase =>
    exact h.disposePreparation hgood hcall (hfrom hphase fun _ _ hp => (nomatch hp)) _
  | @disposed id call disposals failure cleanupFailed retained hcall hphase hretains hdone =>
    have hretained := h.retains hgood hcall (by rw [hphase]; exact fun hp => (nomatch hp)) hretains
      (h.disposing id call disposals failure hcall hphase)
    refine hretained.withCall hcall rfl rfl rfl (fun hp => (nomatch hp)) (fun hp => (nomatch hp))
      (fun _ _ hp => (nomatch hp)) fun disposals' failure' hp scope hd => ?_
    rw [hphase] at hp
    cases hp
    exact (hdone scope hd).imp_left hgood.disposers_of_fulfilled
  | @rejected id call failure reason cleanupFailed retained hcall hphase hretains =>
    have hretained := h.retains hgood hcall (by rw [hphase]; exact fun hp => (nomatch hp)) hretains fun _ hmem => hmem
    have hretainedgood := hgood.withRetained retained fun scope hin _ => hretains.kept scope hin
    exact hretained.complete hretainedgood hcall { call with phase := .rejected reason cleanupFailed } rfl rfl rfl rfl
      (fun hp => (nomatch hp)) (hfrom hphase fun _ _ hp => (nomatch hp)) σ.binding
  | detached => exact h.detach hgood
  | instanceDetached provider => exact h.detachInstance hgood provider
  | tornDown dropsGeneration teardowns =>
    cases dropsGeneration with
    | true => exact (h.dropGeneration hgood).frame rfl rfl rfl rfl fun _ _ _ _ => rfl
    | false => exact h.frame rfl rfl rfl rfl fun _ _ _ _ => rfl
  | jobStarted jobs =>
    refine h.of_calls rfl rfl (disposeScopes_registered σ.retainedScopes σ.scopes)
      (fun id call scope hc hphase hp hfresh => ?_) h.retained fun scope hstarted => ?_
    · obtain ⟨hnot, hfree, -⟩ := h.ready id call scope hc hphase hp hfresh
      refine ⟨hfresh, hnot, ?_⟩
      show ((disposeScopes σ.retainedScopes σ.scopes).1 scope).disposalStarted = false
      rw [disposeScopes_of_not_mem hnot]
      exact hfree
    · by_cases hmem : scope ∈ σ.retainedScopes
      · exact .inr (.inl hmem)
      · have hstarted' : ((disposeScopes σ.retainedScopes σ.scopes).1 scope).disposalStarted = true := hstarted
        show ((disposeScopes σ.retainedScopes σ.scopes).1 scope).disposers = [] ∨ _
        rw [disposeScopes_of_not_mem hmem] at hstarted' ⊢
        exact h.touched scope hstarted'
  | jobFinished disposals jobs hkept hold =>
    refine h.of_calls rfl rfl (fun _ => rfl) (fun id call scope hc hphase hp hfresh => ?_)
      (fun scope hin => h.retained scope (hold scope hin)) fun scope hstarted => ?_
    · obtain ⟨hnot, hfree, -⟩ := h.ready id call scope hc hphase hp hfresh
      exact ⟨hfresh, fun hin => hnot (hold scope hin), hfree⟩
    · rcases h.touched scope hstarted with hnil | hin | hdisp
      · exact .inl hnil
      · exact (hkept scope hin).elim (fun hmem => .inr (.inl hmem)) fun hdone => .inl (hgood.disposers_of_fulfilled hdone)
      · exact .inr (.inr hdisp)
  | jobSettled inFlight jobs => exact h.frame rfl rfl rfl rfl fun _ _ _ _ => rfl
  | disposerSettled hscope =>
    exact h.updateScope (RuntimeScope.settle_registered hscope) (RuntimeScope.settle_disposalStarted hscope)
      (RuntimeScope.settle_disposers (hgood.sound _) hscope)
  | released id => exact h.updateScope rfl rfl fun hnil => hnil

end Session

namespace RuntimeRegistry

variable {r r' : RuntimeRegistry}

theorem custody_of_run {acts : List RegistryAct} (hr : Run Step {} acts r) (sessionId : String) :
    (r.sessions sessionId).Custody r.generation :=
  sessions_of_free_run sessionId (I := Session.Custody) (fun _ _ _ _ hgood h hs => h.step hgood hs)
    (fun _ _ hgood h => h.disposeAll hgood) (fun _ => Session.good_new _) hr (Session.custody_new _)

end RuntimeRegistry

end Wiii.NekoChill
