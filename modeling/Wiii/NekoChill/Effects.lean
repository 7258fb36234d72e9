import Wiii.Lib.Run
import Wiii.NekoChill.Transitions

/-!
# What a step can do

`Effect` says what one step of a session can do to the calls of `replace` and to the binding: a call goes on as `Next`
allows, and the binding stays, is revoked, or is published by a call that commits (`Publishes`).  Only an act whose last
check passes commits a call (`Commits`).  Every act has such an effect (`effect_step`).
-/

namespace Wiii.NekoChill

open Function (update update_self update_of_ne)

namespace Session

inductive Next (generation sessionGeneration : ℕ) (call call' : ReplaceCall) : Prop
  | same : call'.phase = call.phase → call'.preparation = call.preparation →
      call'.generation = call.generation → call'.sessionGeneration = call.sessionGeneration →
      Next generation sessionGeneration call call'
  | prepared : call.phase.isWaiting = true → call'.phase.isCommitted = false →
      Next generation sessionGeneration call call'
  | moved : call.phase.isPending = true → call'.phase.isPending = true →
      call'.generation = call.generation → call'.sessionGeneration = call.sessionGeneration →
      Next generation sessionGeneration call call'
  | committed : call.phase.isPending = true → call'.phase.isCommitted = true →
      call.generation = generation → call.sessionGeneration = sessionGeneration →
      Next generation sessionGeneration call call'
  | rejected : call.phase.isPending = true → call'.phase.isPending = false →
      call'.phase.isCommitted = false → call'.phase.isWaiting = false →
      Next generation sessionGeneration call call'

theorem Next.refl (generation sessionGeneration : ℕ) (call : ReplaceCall) :
    Next generation sessionGeneration call call := .same rfl rfl rfl rfl

/-- A call that was pending commits, and its scope is the new binding. -/
def Publishes (σ σ' : Session) : Prop :=
  σ.binding = none ∧ ∃ binding call call', σ'.binding = some binding ∧
    σ.calls binding.provider = some call ∧ call.phase.isPending = true ∧
    σ'.calls binding.provider = some call' ∧ call'.phase.isCommitted = true

/-- The act is a call of `replace` that passes the last check before its commit. -/
def Commits (sessionId : String) (generation : ℕ) (σ : Session) : Act → Prop
  | .created id driver => σ.binding = none ∧ ∃ call, σ.calls id = some call ∧ call.phase = .creating ∧
      (σ.own call driver).2.2 = false ∧ σ.isStale generation call = false ∧ driver.sessionId = sessionId ∧
      snapshotThrows call.providerId driver = false
  | .resumePrevious id => σ.binding = none ∧ ∃ call previous cleanup, σ.calls id = some call ∧
      call.phase = .awaitingPrevious previous cleanup ∧ σ.jobOutcome cleanup = some true ∧
      σ.isStale generation call = false
  | _ => False

structure Effect (generation : ℕ) (adds commits : Prop) (σ σ' : Session) : Prop where
  calls : ∀ id call, σ.calls id = some call →
    ∃ call', σ'.calls id = some call' ∧ Next generation σ.sessionGeneration call call'
  added : ∀ id call', σ.calls id = none → σ'.calls id = some call' → adds ∧ call'.phase.isCommitted = false
  binding : σ'.binding = σ.binding ∨ σ'.binding = none ∨ commits ∧ Publishes σ σ'
  published : ∀ id call call', σ.calls id = some call → σ'.calls id = some call' →
    call.phase.isCommitted = false → call'.phase.isCommitted = true → σ.binding = none ∧
      ∃ binding, σ'.binding = some binding ∧ binding.provider = id
  generation : ∀ id ∈ σ.pendingPreparations, id ∈ σ'.pendingPreparations →
    σ.sessionGeneration ≤ σ'.sessionGeneration
  later : ∀ scope, (σ.scopes scope).Later (σ'.scopes scope)

variable {generation : ℕ} {adds commits : Prop} {σ τ σ' : Session}

/-! ## Kinds of effects -/

theorem Effect.of_calls (hcalls : σ'.calls = σ.calls) (hbinding : σ'.binding = σ.binding ∨ σ'.binding = none)
    (hgeneration : ∀ id ∈ σ.pendingPreparations, id ∈ σ'.pendingPreparations →
      σ.sessionGeneration ≤ σ'.sessionGeneration)
    (hlater : ∀ scope, (σ.scopes scope).Later (σ'.scopes scope)) : Effect generation adds commits σ σ' where
  calls id call hc := ⟨call, hcalls ▸ hc, .refl _ _ call⟩
  added id call' hnone hc := by
    rw [hcalls, hnone] at hc
    cases hc
  binding := hbinding.imp_right .inl
  published id call call' hc hc' hp hp' := by
    rw [hcalls, hc] at hc'
    cases hc'
    rw [hp] at hp'
    cases hp'
  generation := hgeneration
  later := hlater

theorem Effect.of_setCall {id : ℕ} {call call' : ReplaceCall} (hcall : σ.calls id = some call)
    (hcalls : σ'.calls = update σ.calls id (some call')) (hnext : Next generation σ.sessionGeneration call call')
    (hcommitted : call'.phase.isCommitted = true → call.phase.isCommitted = true)
    (hbinding : σ'.binding = σ.binding ∨ σ'.binding = none)
    (hgeneration : ∀ other ∈ σ.pendingPreparations, other ∈ σ'.pendingPreparations →
      σ.sessionGeneration ≤ σ'.sessionGeneration)
    (hlater : ∀ scope, (σ.scopes scope).Later (σ'.scopes scope)) : Effect generation adds commits σ σ' where
  calls other c hc := by
    rw [hcalls]
    by_cases hid : other = id
    · subst hid
      rw [hcall] at hc
      cases hc
      exact ⟨call', update_self _ _ _, hnext⟩
    · exact ⟨c, (update_of_ne hid _ _).trans hc, .refl _ _ c⟩
  added other c hnone hc := by
    rw [hcalls] at hc
    by_cases hid : other = id
    · subst hid
      rw [hcall] at hnone
      cases hnone
    · rw [update_of_ne hid, hnone] at hc
      cases hc
  binding := hbinding.imp_right .inl
  published other c c' hc hc' hp hp' := by
    rw [hcalls] at hc'
    by_cases hid : other = id
    · subst hid
      rw [hcall] at hc
      cases hc
      rw [update_self] at hc'
      cases hc'
      rw [hcommitted hp'] at hp
      cases hp
    · rw [update_of_ne hid, hc] at hc'
      cases hc'
      rw [hp] at hp'
      cases hp'
  generation := hgeneration
  later := hlater

theorem Effect.of_commit {id scope : ℕ} {call call' : ReplaceCall} (hcall : σ.calls id = some call)
    (hcalls : σ'.calls = update σ.calls id (some call')) (hpending : call.phase.isPending = true)
    (hcommitted : call'.phase.isCommitted = true) (hg : call.generation = generation)
    (hs : call.sessionGeneration = σ.sessionGeneration) (hfree : σ.binding = none)
    (hcommits : commits) (hbinding : σ'.binding = some ⟨id, scope⟩)
    (hgeneration : ∀ other ∈ σ.pendingPreparations, other ∈ σ'.pendingPreparations →
      σ.sessionGeneration ≤ σ'.sessionGeneration)
    (hlater : ∀ scope, (σ.scopes scope).Later (σ'.scopes scope)) : Effect generation adds commits σ σ' := by
  have hpublish : Publishes σ σ' :=
    ⟨hfree, ⟨id, scope⟩, call, call', hbinding, hcall, hpending, by rw [hcalls]; exact update_self _ _ _, hcommitted⟩
  refine ⟨fun other c hc => ?_, fun other c hnone hc => ?_, .inr (.inr ⟨hcommits, hpublish⟩),
    fun other c c' hc hc' hp hp' => ⟨hfree, ?_⟩, hgeneration, hlater⟩
  · rw [hcalls]
    by_cases hid : other = id
    · subst hid
      rw [hcall] at hc
      cases hc
      exact ⟨call', update_self _ _ _, .committed hpending hcommitted hg hs⟩
    · exact ⟨c, (update_of_ne hid _ _).trans hc, .refl _ _ c⟩
  · rw [hcalls] at hc
    by_cases hid : other = id
    · subst hid
      rw [hcall] at hnone
      cases hnone
    · rw [update_of_ne hid, hnone] at hc
      cases hc
  · rw [hcalls] at hc'
    by_cases hid : other = id
    · exact ⟨_, hbinding, hid.symm⟩
    · rw [update_of_ne hid, hc] at hc'
      cases hc'
      rw [hp] at hp'
      cases hp'

theorem Effect.after_own {id : ℕ} {call owned : ReplaceCall} (hcall : σ.calls id = some call)
    (hcalls : τ.calls = update σ.calls id (some owned)) (hphase : owned.phase = call.phase)
    (hprep : owned.preparation = call.preparation) (hg : owned.generation = call.generation)
    (hs : owned.sessionGeneration = call.sessionGeneration) (hbinding : τ.binding = σ.binding)
    (hpending : τ.pendingPreparations = σ.pendingPreparations)
    (hgeneration : τ.sessionGeneration = σ.sessionGeneration)
    (hlater : ∀ scope, (σ.scopes scope).Later (τ.scopes scope)) (h : Effect generation adds commits τ σ') :
    Effect generation adds commits σ σ' := by
  have hτ : ∀ other c, σ.calls other = some c → ∃ c', τ.calls other = some c' ∧ c'.phase = c.phase ∧
      c'.preparation = c.preparation ∧ c'.generation = c.generation ∧
      c'.sessionGeneration = c.sessionGeneration := by
    intro other c hc
    rw [hcalls]
    by_cases hid : other = id
    · subst hid
      rw [hcall] at hc
      cases hc
      exact ⟨owned, update_self _ _ _, hphase, hprep, hg, hs⟩
    · exact ⟨c, (update_of_ne hid _ _).trans hc, rfl, rfl, rfl, rfl⟩
  have hτ' : ∀ other c', τ.calls other = some c' → ∃ c, σ.calls other = some c ∧ c'.phase = c.phase := by
    intro other c' hc'
    rw [hcalls] at hc'
    by_cases hid : other = id
    · subst hid
      rw [update_self] at hc'
      cases hc'
      exact ⟨call, hcall, hphase⟩
    · rw [update_of_ne hid] at hc'
      exact ⟨c', hc', rfl⟩
  have hpublish : Publishes τ σ' → Publishes σ σ' := by
    rintro ⟨hfree, binding, c, c', hb, hc, hp, hc', hp'⟩
    obtain ⟨old, hold, hphase'⟩ := hτ' _ c hc
    exact ⟨hbinding ▸ hfree, binding, old, c', hb, hold, hphase' ▸ hp, hc', hp'⟩
  constructor
  · intro other c hc
    obtain ⟨c₁, hc₁, hp₁, hprep₁, hg₁, hs₁⟩ := hτ other c hc
    obtain ⟨c₂, hc₂, hnext⟩ := h.calls other c₁ hc₁
    rw [hgeneration] at hnext
    refine ⟨c₂, hc₂, ?_⟩
    cases hnext with
    | same hp hprep hg hs => exact .same (hp.trans hp₁) (hprep.trans hprep₁) (hg.trans hg₁) (hs.trans hs₁)
    | prepared hw hp => exact .prepared (hp₁ ▸ hw) hp
    | moved hp hp' hg hs => exact .moved (hp₁ ▸ hp) hp' (hg.trans hg₁) (hs.trans hs₁)
    | committed hp hp' hg hs => exact .committed (hp₁ ▸ hp) hp' (hg₁ ▸ hg) (hs₁ ▸ hs)
    | rejected hp hp' hc hw => exact .rejected (hp₁ ▸ hp) hp' hc hw
  · intro other c' hnone hc'
    refine h.added other c' ?_ hc'
    rw [hcalls]
    by_cases hid : other = id
    · subst hid
      rw [hcall] at hnone
      cases hnone
    · rw [update_of_ne hid]
      exact hnone
  · rcases h.binding with hb | hb | hb
    · exact .inl (hb.trans hbinding)
    · exact .inr (.inl hb)
    · exact .inr (.inr ⟨hb.1, hpublish hb.2⟩)
  · intro other c c' hc hc' hp hp'
    obtain ⟨c₁, hc₁, hp₁, -⟩ := hτ other c hc
    obtain ⟨hfree, hb⟩ := h.published other c₁ c' hc₁ hc' (hp₁ ▸ hp) hp'
    exact ⟨hbinding ▸ hfree, hb⟩
  · intro other hmem hmem'
    rw [← hgeneration]
    exact h.generation other (hpending ▸ hmem) hmem'
  · exact fun scope => (hlater scope).trans (h.later scope)

/-! ## The effects of the acts -/

theorem cleanupSession_frame (authorities : List CleanupAuthority) (completions : List ℕ) (σ : Session) :
    (σ.cleanupSession authorities completions).1.calls = σ.calls ∧
      (σ.cleanupSession authorities completions).1.binding = σ.binding ∧
      (σ.cleanupSession authorities completions).1.pendingPreparations = σ.pendingPreparations ∧
      (σ.cleanupSession authorities completions).1.sessionGeneration = σ.sessionGeneration ∧
      (σ.cleanupSession authorities completions).1.scopes = σ.scopes := by
  obtain ⟨jobs, nextJob, inFlight, heq⟩ := cleanupSession_fst authorities completions σ
  rw [heq]
  exact ⟨rfl, rfl, rfl, rfl, rfl⟩

theorem cleanupSession_awaited (authority : CleanupAuthority) (σ : Session) :
    (σ.cleanupSession [authority] []).2 ≠ none := by
  unfold Session.cleanupSession
  simp only
  rw [if_neg]
  · exact Option.some_ne_none _
  · rintro ⟨hempty, -⟩
    have hmem : authority.1 ∈ (List.foldl retain σ.retainedCleanupScopes [authority]).map Prod.fst :=
      mem_foldl_retain.2 (.inr (List.mem_singleton.2 rfl))
    rw [hempty] at hmem
    cases hmem

theorem complete_generation (id : ℕ) (call : ReplaceCall) (binding : Option Binding) (σ : Session) :
    ∀ other ∈ σ.pendingPreparations, other ∈ ({ σ with binding := binding }.complete id call).pendingPreparations →
      σ.sessionGeneration ≤ ({ σ with binding := binding }.complete id call).sessionGeneration := by
  intro other _ hmem
  have hne : (σ.pendingPreparations.filter fun other => decide (other ≠ id)) ≠ [] := List.ne_nil_of_mem hmem
  show σ.sessionGeneration ≤ if _ then 0 else σ.sessionGeneration
  exact Nat.le_of_eq (if_neg hne).symm

theorem effect_disposePreparation {id : ℕ} {call : ReplaceCall} (hcall : σ.calls id = some call)
    (hpending : call.phase.isPending = true) (failure : ReplaceFailure) :
    Effect generation adds commits σ (σ.disposePreparation id call failure) :=
  .of_setCall hcall rfl (.moved hpending rfl rfl rfl) (fun hp => (nomatch hp)) (.inl rfl)
    (fun _ _ _ => Nat.le_refl _) (disposeScopes_later call.scopes σ.scopes)

theorem effect_reject {id : ℕ} {call : ReplaceCall} (hcall : σ.calls id = some call)
    (hpending : call.phase.isPending = true) (failure : ReplaceFailure) (cleanupFailed : Bool) :
    Effect generation adds commits σ (σ.complete id { call with phase := .rejected failure cleanupFailed }) :=
  .of_setCall hcall rfl (.rejected hpending rfl rfl rfl) (fun hp => (nomatch hp)) (.inl rfl)
    (complete_generation id _ σ.binding σ) fun _ => .refl _

theorem not_stale {call : ReplaceCall} (h : ¬ σ.isStale generation call = true) :
    call.generation = generation ∧ call.sessionGeneration = σ.sessionGeneration := by
  unfold isStale at h
  simp only [Bool.or_eq_true, decide_eq_true_eq, not_or, not_not] at h
  exact h

theorem effect_commit (h : Good generation σ) {id : ℕ} {call : ReplaceCall} (hcall : σ.calls id = some call)
    (hpending : call.phase.isPending = true) (previous : Option ℕ)
    (hcommits : σ.isStale generation call = false → σ.binding = none → commits) :
    Effect generation adds commits σ (σ.commit generation id call previous) := by
  unfold Session.commit
  split_ifs with hrefused
  · exact effect_disposePreparation hcall hpending _
  · rw [not_or, not_not] at hrefused
    obtain ⟨hg, hs⟩ := not_stale hrefused.1
    obtain ⟨scope, hscope⟩ := Option.ne_none_iff_exists'.1 (h.prepared id call hcall hpending)
    have hbinding : (call.preparation.map fun scope => (⟨id, scope⟩ : Binding)) = some ⟨id, scope⟩ := by
      rw [hscope]
      rfl
    exact .of_commit hcall rfl hpending rfl hg hs hrefused.2
      (hcommits (Bool.not_eq_true _ ▸ hrefused.1) hrefused.2) hbinding (complete_generation id _ _ σ)
      fun _ => .refl _

theorem later_of_eq (h : σ'.scopes = σ.scopes) (scope : ℕ) : (σ.scopes scope).Later (σ'.scopes scope) := by
  rw [h]
  exact .refl _

theorem later_update {id : ℕ} {new : RuntimeScope} (h : (σ.scopes id).Later new) (scope : ℕ) :
    (σ.scopes scope).Later (update σ.scopes id new scope) := by
  by_cases hs : scope = id
  · subst hs
    rw [update_self]
    exact h
  · rw [update_of_ne hs]
    exact .refl _

theorem effect_supersede (h : Good generation σ) {id : ℕ} {call : ReplaceCall} (hcall : σ.calls id = some call)
    (hphase : call.phase = .creating)
    (hcommits : σ.isStale generation call = false → σ.binding = none → commits) :
    Effect generation adds commits σ (σ.supersede generation id call) := by
  have hpending : call.phase.isPending = true := by rw [hphase]; rfl
  unfold Session.supersede
  cases hbinding : σ.binding with
  | none => exact effect_commit h hcall hpending none hcommits
  | some previous =>
    simp only
    obtain ⟨hcalls, hb, hp, hs, hscopes⟩ :=
      cleanupSession_frame [(previous.scope, some previous.provider)] [] { σ with binding := none }
    have hjob := cleanupSession_awaited (previous.scope, some previous.provider) { σ with binding := none }
    generalize { σ with binding := none }.cleanupSession [(previous.scope, some previous.provider)] [] = cleanup at *
    obtain ⟨job, hjob⟩ := Option.ne_none_iff_exists'.1 hjob
    rw [hjob]
    exact .of_setCall hcall (congrArg (fun calls => update calls id _) hcalls)
      (.moved hpending rfl rfl rfl) (fun hp => (nomatch hp)) (.inr hb) (fun _ _ _ => Nat.le_of_eq hs.symm)
      (later_of_eq hscopes)

theorem effect_receive (h : Good generation σ) {id : ℕ} {call : ReplaceCall} (hcall : σ.calls id = some call)
    (hphase : call.phase = .creating) (sessionId : String) (driver : Driver) (threw : Bool)
    (hcommits : threw = false → σ.isStale generation call = false → driver.sessionId = sessionId →
      snapshotThrows call.providerId driver = false → σ.binding = none → commits) :
    Effect generation adds commits σ (σ.receive sessionId generation id call driver threw) := by
  have hpending : call.phase.isPending = true := by rw [hphase]; rfl
  unfold Session.receive
  split_ifs with hthrew hstale hsession hsnapshot
  · exact effect_disposePreparation hcall hpending _
  · exact effect_disposePreparation hcall hpending _
  · exact effect_disposePreparation hcall hpending _
  · exact effect_reject hcall hpending _ _
  · exact effect_supersede h hcall hphase fun hfresh => hcommits (Bool.not_eq_true _ ▸ hthrew) hfresh
      (Decidable.of_not_not hsession) (Bool.not_eq_true _ ▸ hsnapshot)

theorem own_frame (call : ReplaceCall) (driver : Driver) (σ : Session) :
    (σ.own call driver).1.calls = σ.calls ∧ (σ.own call driver).1.binding = σ.binding ∧
      (σ.own call driver).1.pendingPreparations = σ.pendingPreparations ∧
      (σ.own call driver).1.sessionGeneration = σ.sessionGeneration ∧
      (σ.own call driver).2.1.generation = call.generation ∧
      (σ.own call driver).2.1.sessionGeneration = call.sessionGeneration ∧
      (σ.own call driver).1.retainedCleanupScopes = σ.retainedCleanupScopes := by
  unfold Session.own
  cases call.ownedDriver with
  | some owned =>
    simp only
    split_ifs <;> exact ⟨rfl, rfl, rfl, rfl, rfl, rfl, rfl⟩
  | none =>
    simp only
    split <;> exact ⟨rfl, rfl, rfl, rfl, rfl, rfl, rfl⟩

/-- A new scope takes the place of one that was handed nothing. -/
theorem Good.later_new (h : Good generation σ) (new : RuntimeScope) (scope : ℕ) :
    (σ.scopes scope).Later (update σ.scopes σ.nextScope new scope) :=
  later_update (RuntimeScope.later_of_registered_eq_zero (h.sound _) (h.bare _ (Nat.le_refl _))) scope

theorem own_later (h : Good generation σ) (call : ReplaceCall) (driver : Driver) (scope : ℕ) :
    (σ.scopes scope).Later ((σ.own call driver).1.scopes scope) := by
  have hapart : ∀ call : ReplaceCall, (σ.scopes scope).Later ((σ.ownApart call).1.scopes scope) := fun call =>
    h.later_new _ scope
  unfold Session.own
  cases call.ownedDriver with
  | some owned =>
    simp only
    split_ifs
    · exact hapart call
    · exact .refl _
  | none =>
    simp only
    split
    · rename_i id added hadd
      obtain ⟨id', -, hmap⟩ := Option.bind_eq_some_iff.1 hadd
      obtain ⟨added', hadded, heq⟩ := Option.map_eq_some_iff.1 hmap
      cases heq
      exact later_update (RuntimeScope.later_add hadded) scope
    · exact hapart { call with ownedDriver := some driver }

theorem effect_replace (h : Good generation σ) (providerId : String) :
    Effect generation True commits σ (σ.replace generation providerId) := by
  obtain ⟨hcalls, hb, hp, hs, hscopes⟩ := cleanupSession_frame [] [] σ
  have hnew : σ.calls σ.nextCall = none := by
    by_contra hsome
    obtain ⟨call, hcall⟩ := Option.ne_none_iff_exists'.1 hsome
    exact Nat.lt_irrefl _ (h.fresh _ call hcall).1
  have hof : ∀ {τ : Session} {call : ReplaceCall}, τ.calls = update σ.calls σ.nextCall (some call) →
      call.phase.isCommitted = false → τ.binding = σ.binding →
        τ.sessionGeneration = σ.sessionGeneration → (∀ scope, (σ.scopes scope).Later (τ.scopes scope)) →
          Effect generation True commits σ τ := by
    intro τ call hτ hcommitted hbinding hgeneration hlater
    have hother : ∀ id c, σ.calls id = some c → τ.calls id = some c := by
      intro id c hc
      rw [hτ, update_of_ne]
      · exact hc
      · rintro rfl
        rw [hnew] at hc
        cases hc
    refine ⟨fun id c hc => ⟨c, hother id c hc, .refl _ _ c⟩, fun id c hnone hc => ?_, .inl hbinding,
      fun id c c' hc hc' hp hp' => ?_, fun _ _ _ => Nat.le_of_eq hgeneration.symm, hlater⟩
    · rw [hτ] at hc
      by_cases hid : id = σ.nextCall
      · subst hid
        rw [update_self] at hc
        cases hc
        exact ⟨trivial, hcommitted⟩
      · rw [update_of_ne hid, hnone] at hc
        cases hc
    · rw [hother id c hc] at hc'
      cases hc'
      rw [hp] at hp'
      cases hp'
  unfold Session.replace
  simp only
  have hclean := h.cleanupSession [] []
  generalize σ.cleanupSession [] [] = cleanup at *
  cases cleanup.2 with
  | some job => exact hof (congrArg (fun calls => update calls _ _) hcalls) rfl hb hs (later_of_eq hscopes)
  | none =>
    exact hof (congrArg (fun calls => update calls _ _) hcalls) rfl hb hs
      fun scope => hscopes ▸ hclean.later_new {} scope

theorem effect_awaitCleanup {cleanup : Session × Option ℕ} (provider : Option ℕ) (dropsGeneration : Bool)
    (hcalls : cleanup.1.calls = σ.calls) (hbinding : cleanup.1.binding = σ.binding ∨ cleanup.1.binding = none)
    (hpending : cleanup.1.pendingPreparations = σ.pendingPreparations)
    (hgeneration : σ.sessionGeneration ≤ cleanup.1.sessionGeneration) (hscopes : cleanup.1.scopes = σ.scopes) :
    Effect generation adds commits σ (Session.awaitCleanup provider dropsGeneration cleanup) := by
  unfold Session.awaitCleanup
  cases cleanup.2 with
  | some job => exact .of_calls hcalls hbinding (fun _ _ _ => hgeneration) (later_of_eq hscopes)
  | none =>
    cases dropsGeneration with
    | false => exact .of_calls hcalls hbinding (fun _ _ _ => hgeneration) (later_of_eq hscopes)
    | true =>
      simp only [if_true]
      unfold Session.dropGeneration
      split_ifs with hempty
      · refine .of_calls hcalls hbinding (fun other hmem _ => ?_) (later_of_eq hscopes)
        rw [← hpending, hempty] at hmem
        cases hmem
      · exact .of_calls hcalls hbinding (fun _ _ _ => hgeneration) (later_of_eq hscopes)

theorem effect_detach (σ : Session) : Effect generation adds commits σ σ.detach := by
  obtain ⟨hcalls, hb, hp, hs, hscopes⟩ := cleanupSession_frame (σ.preparations ++ σ.bound) σ.pendingPreparations
    { σ with sessionGeneration := σ.sessionGeneration + 1, binding := none }
  exact effect_awaitCleanup _ _ hcalls (.inr hb) hp (hs ▸ Nat.le_succ _) hscopes

theorem effect_detachInstance (provider : ℕ) (σ : Session) : Effect generation adds commits σ (σ.detachInstance provider) := by
  unfold Session.detachInstance
  split
  · obtain ⟨hcalls, hb, hp, hs, hscopes⟩ := cleanupSession_frame [] [] σ
    exact effect_awaitCleanup _ _ hcalls (.inl hb) hp (Nat.le_of_eq hs.symm) hscopes
  · obtain ⟨hcalls, hb, hp, hs, hscopes⟩ := cleanupSession_frame (σ.bound ++ σ.preparations) σ.pendingPreparations
      { σ with sessionGeneration := σ.sessionGeneration + 1, binding := none }
    exact effect_awaitCleanup _ _ hcalls (.inr hb) hp (hs ▸ Nat.le_succ _) hscopes

theorem effect_disposeAll (σ : Session) : Effect generation adds commits σ σ.disposeAll := by
  obtain ⟨hcalls, hb, hp, hs, hscopes⟩ := cleanupSession_frame (σ.bound ++ σ.preparations) σ.pendingPreparations
    { σ with binding := none }
  exact effect_awaitCleanup _ _ hcalls (.inr hb) hp (Nat.le_of_eq hs.symm) hscopes

theorem Effect.quiet (hcalls : σ'.calls = σ.calls) (hbinding : σ'.binding = σ.binding)
    (hgeneration : σ'.sessionGeneration = σ.sessionGeneration)
    (hlater : ∀ scope, (σ.scopes scope).Later (σ'.scopes scope)) : Effect generation adds commits σ σ' :=
  .of_calls hcalls (.inl hbinding) (fun _ _ _ => Nat.le_of_eq hgeneration.symm) hlater

theorem effect_step (h : Good generation σ) {sessionId : String} {act : Act}
    (hs : σ.step sessionId generation act = some σ') :
    Effect generation (∃ providerId, act = .replace providerId) (Commits sessionId generation σ act) σ σ' := by
  cases step_moves hs with
  | replaced providerId =>
    have heffect : Effect generation True (Commits sessionId generation σ (.replace providerId)) σ
        (σ.replace generation providerId) := effect_replace h providerId
    exact ⟨heffect.calls, fun id call hnone hc => ⟨⟨providerId, rfl⟩, (heffect.added id call hnone hc).2⟩,
      heffect.binding, heffect.published, heffect.generation, heffect.later⟩
  | prepared hcall hphase =>
    exact .of_setCall hcall rfl (.prepared (by rw [hphase]; rfl) rfl) (fun hp => (nomatch hp)) (.inl rfl)
      (fun _ _ _ => Nat.le_refl _) (h.later_new {})
  | priorFailed hcall hphase =>
    exact .of_setCall hcall rfl (.prepared (by rw [hphase]; rfl) rfl) (fun hp => (nomatch hp)) (.inl rfl)
      (fun _ _ _ => Nat.le_refl _) fun _ => .refl _
  | @owned id call driver hcall hprep =>
    obtain ⟨hsame, -, hprep, -⟩ := own_call call driver σ
    obtain ⟨hcalls, hb, -, hsg, hg, hcs, -⟩ := own_frame call driver σ
    exact .of_setCall hcall (congrArg (fun calls => update calls id _) hcalls) (.same hsame hprep hg hcs)
      (fun hp => hsame ▸ hp) (.inl hb) (fun _ _ _ => Nat.le_of_eq hsg.symm) (own_later h call driver)
  | @created id call driver hcall hphase =>
    obtain ⟨hsame, -, hprep, hprovider⟩ := own_call call driver σ
    obtain ⟨hcalls, hb, hp, hsg, hg, hcs, -⟩ := own_frame call driver σ
    have hown := h.own hcall (by rw [hphase]; rfl) driver
    let τ : Session := (σ.own call driver).1.setCall id (σ.own call driver).2.1
    have hreceive : Effect generation (∃ providerId, Act.created id driver = .replace providerId)
        (Commits sessionId generation σ (.created id driver)) τ
        (τ.receive sessionId generation id (σ.own call driver).2.1 driver (σ.own call driver).2.2) := by
      refine effect_receive hown (update_self _ _ _) (hsame.trans hphase) sessionId driver _
        fun hthrew hfresh hsession hsnapshot hfree => ?_
      refine ⟨hb ▸ hfree, call, hcall, hphase, hthrew, ?_, hsession, hprovider ▸ hsnapshot⟩
      unfold isStale at hfresh ⊢
      rw [← hg, ← hcs, ← hsg]
      exact hfresh
    have hset : τ.calls = update σ.calls id (some (σ.own call driver).2.1) := by
      rw [← hcalls]
      rfl
    exact hreceive.after_own hcall hset hsame hprep hg hcs hb hp hsg (own_later h call driver)
  | createFailed hcall hphase => exact effect_disposePreparation hcall (by rw [hphase]; rfl) _
  | @resumed id previous cleanup call hcall hphase hok =>
    exact effect_commit h hcall (by rw [hphase]; rfl) _ fun hfresh hfree =>
      ⟨hfree, call, previous, cleanup, hcall, hphase, hok, hfresh⟩
  | previousFailed hcall hphase => exact effect_disposePreparation hcall (by rw [hphase]; rfl) _
  | disposed hcall hphase =>
    exact .of_setCall hcall rfl (.moved (by rw [hphase]; rfl) rfl rfl rfl) (fun hp => (nomatch hp)) (.inl rfl)
      (fun _ _ _ => Nat.le_refl _) fun _ => .refl _
  | @rejected id call _ _ _ _ hcall hphase =>
    refine .of_setCall hcall rfl (.rejected (by rw [hphase]; rfl) rfl rfl rfl) (fun hp => (nomatch hp)) (.inl rfl)
      (fun other _ hmem => ?_) fun _ => .refl _
    exact complete_generation id call σ.binding σ other (List.mem_of_mem_filter hmem) hmem
  | detached => exact effect_detach σ
  | instanceDetached provider => exact effect_detachInstance provider σ
  | tornDown dropsGeneration teardowns =>
    cases dropsGeneration with
    | false => exact .quiet rfl rfl rfl fun _ => .refl _
    | true =>
      simp only [if_true]
      unfold Session.dropGeneration
      split_ifs with hempty
      · refine .of_calls rfl (.inl rfl) (fun other hmem _ => ?_) fun _ => .refl _
        rw [hempty] at hmem
        cases hmem
      · exact .quiet rfl rfl rfl fun _ => .refl _
  | jobStarted jobs => exact .quiet rfl rfl rfl (disposeScopes_later _ σ.scopes)
  | jobFinished disposals jobs => exact .quiet rfl rfl rfl fun _ => .refl _
  | jobSettled inFlight jobs => exact .quiet rfl rfl rfl fun _ => .refl _
  | disposerSettled hscope => exact .quiet rfl rfl rfl (later_update (RuntimeScope.later_settle hscope))
  | released id => exact .quiet rfl rfl rfl (later_update (RuntimeScope.later_release _))

end Session

end Wiii.NekoChill

/-!
## Runs of the registry

`RuntimeRegistry.Step` is the system.  A step of one session leaves the others alone, so what every step of a session
keeps, and `disposeAll` too, holds of each session over every run (`sessions_of_run`).  A condition on steps is one on
the acts of a session in the state they start from (`RegistryAct.Meets`).
-/

namespace Wiii.NekoChill

open Function (update update_self update_of_ne)

namespace RuntimeRegistry

def Step (r : RuntimeRegistry) (act : RegistryAct) (r' : RuntimeRegistry) : Prop := r.step act = some r'

def Good (r : RuntimeRegistry) : Prop := ∀ sessionId, (r.sessions sessionId).Good r.generation

end RuntimeRegistry

def RegistryAct.Meets (c : String → ℕ → Session → Act → Prop) (r : RuntimeRegistry) : RegistryAct → Prop
  | .session sessionId act => c sessionId r.generation (r.sessions sessionId) act
  | .disposeAll => True

namespace RuntimeRegistry

variable {r r' : RuntimeRegistry}

theorem step_session {sessionId : String} {act : Act} (h : Step r (.session sessionId act) r') :
    ∃ σ, (r.sessions sessionId).step sessionId r.generation act = some σ ∧
      r' = { r with sessions := update r.sessions sessionId σ } := by
  obtain ⟨σ, hσ, hr⟩ := Option.bind_eq_some_iff.1 h
  exact ⟨σ, hσ, (Option.some.inj hr).symm⟩

theorem exists_run_of_any (acts : List RegistryAct) {P : RuntimeRegistry → Bool}
    (h : (r.run acts).any P = true) : ∃ r', Run Step r acts r' ∧ P r' = true := by
  induction acts generalizing r with
  | nil => exact ⟨r, .nil r, h⟩
  | cons act acts ih =>
    have hrun : r.run (act :: acts) = (r.step act).bind (RuntimeRegistry.run acts) := rfl
    cases hs : r.step act with
    | none =>
      rw [hrun, hs] at h
      cases h
    | some next =>
      rw [hrun, hs] at h
      obtain ⟨r', hacts, hP⟩ := ih h
      exact ⟨r', .cons hs hacts, hP⟩

theorem sessions_of_step {c : String → ℕ → Session → Act → Prop} {I : ℕ → Session → Prop}
    {sessionId : String} {act : RegistryAct}
    (hstep : ∀ generation σ act σ', c sessionId generation σ act → I generation σ →
      σ.step sessionId generation act = some σ' → I generation σ')
    (hall : ∀ generation σ, I generation σ → I (generation + 1) σ.disposeAll) (h : Step r act r')
    (hc : act.Meets c r) (hI : I r.generation (r.sessions sessionId)) :
    I r'.generation (r'.sessions sessionId) := by
  cases act with
  | disposeAll =>
    cases Option.some.inj h
    exact hall _ _ hI
  | session other act =>
    obtain ⟨σ, hσ, rfl⟩ := step_session h
    show I r.generation (update r.sessions other σ sessionId)
    by_cases hs : sessionId = other
    · subst hs
      rw [update_self]
      exact hstep _ _ _ _ hc hI hσ
    · rw [update_of_ne hs]
      exact hI

theorem Good.step {act : RegistryAct} (h : r.Good) (hs : Step r act r') : r'.Good := fun sessionId =>
  sessions_of_step (c := fun _ _ _ _ => True) (fun _ _ _ _ _ hgood hact => hgood.step hact)
    (fun _ _ hgood => hgood.disposeAll) hs (by cases act <;> trivial) (h sessionId)

theorem good_of_run {acts : List RegistryAct} (h : Run Step {} acts r) : r.Good :=
  h.invariant (fun _ _ _ hgood hs => hgood.step hs) fun _ => Session.good_new _

theorem sessions_of_run (sessionId : String) {c : String → ℕ → Session → Act → Prop} {I : ℕ → Session → Prop}
    {acts : List RegistryAct}
    (hstep : ∀ generation σ act σ', c sessionId generation σ act → σ.Good generation → I generation σ →
      σ.step sessionId generation act = some σ' → I generation σ')
    (hall : ∀ generation σ, σ.Good generation → I generation σ → I (generation + 1) σ.disposeAll)
    (hgood : r.Good) (h : Run (Guarded Step fun r act => act.Meets c r) r acts r')
    (hI : I r.generation (r.sessions sessionId)) : I r'.generation (r'.sessions sessionId) := by
  have hboth := h.invariant (I := fun r => r.Good ∧ I r.generation (r.sessions sessionId))
    (fun r act r' hr hs => ⟨hr.1.step hs.1, ?_⟩) ⟨hgood, hI⟩
  · exact hboth.2
  · have hkeep := sessions_of_step (c := c) (I := fun generation σ => σ.Good generation ∧ I generation σ)
      (fun generation σ act σ' hc hσ hact => ⟨hσ.1.step hact, hstep _ _ _ _ hc hσ.1 hσ.2 hact⟩)
      (fun generation σ hσ => ⟨hσ.1.disposeAll, hall _ _ hσ.1 hσ.2⟩) hs.1 hs.2 ⟨hr.1 sessionId, hr.2⟩
    exact hkeep.2

/-- The same over all runs. -/
theorem sessions_of_free_run (sessionId : String) {I : ℕ → Session → Prop} {acts : List RegistryAct}
    (hstep : ∀ generation σ act σ', σ.Good generation → I generation σ →
      σ.step sessionId generation act = some σ' → I generation σ')
    (hall : ∀ generation σ, σ.Good generation → I generation σ → I (generation + 1) σ.disposeAll)
    (hgood : r.Good) (h : Run Step r acts r') (hI : I r.generation (r.sessions sessionId)) :
    I r'.generation (r'.sessions sessionId) :=
  sessions_of_run sessionId (c := fun _ _ _ _ => True) (fun _ _ _ _ _ => hstep _ _ _ _) hall hgood
    (h.mono fun _ act _ hs => ⟨hs, by cases act <;> trivial⟩) hI

end RuntimeRegistry

end Wiii.NekoChill
