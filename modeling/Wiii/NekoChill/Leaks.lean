import Wiii.NekoChill.Retention

/-!
# Every disposer is called until it succeeds

Over every run whose steps are careful, each disposer is accounted for.  Over every run at all, one that succeeded is
not called again, and a scope with one that failed is retained.
-/

namespace Wiii.NekoChill

open Function (update update_self update_of_ne)

namespace RuntimeScope

/-- Each attempt that ended called the disposers that had not succeeded before, the last one first. -/
def Orderly (scope : RuntimeScope) : Prop :=
  ∀ before results after, scope.ended = before ++ results :: after →
    results.map Prod.fst = (unsettled scope.registered before).reverse

/-- The attempt under way calls the disposers that are registered, the last one first. -/
def CallsAll (scope : RuntimeScope) (disposers : List ℕ) : Prop :=
  ∃ a, scope.attempt = some a ∧ a.results.map Prod.fst ++ a.queue = disposers.reverse

theorem dispose_keeps_attempt {scope : RuntimeScope} (h : scope.attempt ≠ none) : scope.dispose.1.attempt ≠ none := by
  unfold RuntimeScope.dispose
  rw [if_pos (Option.isSome_iff_ne_none.2 h)]
  exact h

theorem dispose_attempts {scope : RuntimeScope} (h : scope.disposers ≠ []) (hreleased : scope.held = false) :
    scope.dispose.1.attempt ≠ none := by
  cases hattempt : scope.attempt with
  | some a => exact dispose_keeps_attempt (by rw [hattempt]; exact Option.some_ne_none _)
  | none =>
    rw [dispose_calls scope h hattempt hreleased]
    exact Option.some_ne_none _

end RuntimeScope

namespace Session

variable {generation : ℕ} {σ σ' : Session}

theorem disposeScopes_attempts {ids : List ℕ} {scopes : ℕ → RuntimeScope} {scope : ℕ} (hmem : scope ∈ ids)
    (h : (scopes scope).disposers ≠ []) (hreleased : (scopes scope).held = false) :
    ((disposeScopes ids scopes).1 scope).attempt ≠ none := by
  induction ids generalizing scopes with
  | nil => cases hmem
  | cons id ids ih =>
    by_cases heq : scope = id
    · subst heq
      refine disposeScopes_frame (P := fun a b => a.attempt ≠ none → b.attempt ≠ none) (fun _ ha => ha)
        (fun _ _ _ hab hbc ha => hbc (hab ha)) (fun _ => RuntimeScope.dispose_keeps_attempt) ids _ scope ?_
      rw [update_self]
      exact RuntimeScope.dispose_attempts h hreleased
    · have hsame : update scopes id (scopes id).dispose.1 scope = scopes scope := update_of_ne heq _ _
      refine ih ((List.mem_cons.1 hmem).resolve_left heq) ?_ ?_
      · rw [hsame]
        exact h
      · rw [hsame]
        exact hreleased

theorem startJob_calls (hgood : Good generation σ) {job : ℕ} (hs : σ.startJob job = some σ') {scope : ℕ}
    (hmem : scope ∈ σ.retainedScopes) (h : (σ.scopes scope).disposers ≠ [])
    (hreleased : (σ.scopes scope).held = false) : (σ'.scopes scope).CallsAll (σ.scopes scope).disposers := by
  have hstep : σ.step "" generation (.startJob job) = some σ' := hs
  have hgood' := hgood.step hstep
  obtain ⟨found, -, hs⟩ := Option.bind_eq_some_iff.1 hs
  split_ifs at hs
  cases hs
  obtain ⟨a, ha⟩ := Option.ne_none_iff_exists'.1 (disposeScopes_attempts hmem h hreleased)
  obtain ⟨hcalls, -, -⟩ := (hgood'.sound scope).attempt a ha
  refine ⟨a, ha, hcalls.trans (congrArg List.reverse ?_)⟩
  exact disposeScopes_disposers σ.retainedScopes σ.scopes scope

theorem Custody.retained_of_failed (h : Custody generation σ) (hgood : Good generation σ) {scope : ℕ}
    (hended : (σ.scopes scope).ended ≠ []) (hleft : (σ.scopes scope).disposers ≠ []) :
    scope ∈ σ.retainedScopes ∨ σ.IsDisposing scope := by
  have hstarted : (σ.scopes scope).disposalStarted = true := by
    by_contra hfresh
    exact hended ((hgood.sound scope).fresh (Bool.not_eq_true _ ▸ hfresh)).1
  exact (h.touched scope hstarted).resolve_left hleft

end Session

namespace RuntimeRegistry

open Session

variable {r r' : RuntimeRegistry} {acts : List RegistryAct}

theorem later_of_run (hgood : r.Good) (h : Run Step r acts r') (sessionId : String) (scope : ℕ) :
    ((r.sessions sessionId).scopes scope).Later ((r'.sessions sessionId).scopes scope) :=
  sessions_of_free_run sessionId
    (I := fun _ σ => ((r.sessions sessionId).scopes scope).Later (σ.scopes scope))
    (fun _ _ _ _ hσ hI hs => hI.trans ((effect_step hσ hs).later scope))
    (fun generation σ _ hI => by
      have heffect : Effect generation False False σ σ.disposeAll := effect_disposeAll σ
      exact hI.trans (heffect.later scope))
    hgood h (.refl _)

theorem tidy_of_run (h : Run (Guarded Step fun r act => act.Meets Careful r) {} acts r) (sessionId : String) :
    (r.sessions sessionId).Tidy :=
  sessions_of_run sessionId (I := fun _ σ => Tidy σ) (fun _ _ _ _ hc hgood hI hs => hI.step hgood hc hs)
    (fun _ _ _ hI => hI.disposeAll) (fun _ => good_new _) h fun _ hne => absurd rfl hne

/-- How the disposers of a session are called, now and later. -/
structure CallsUntilDone (r : RuntimeRegistry) (sessionId : String) : Prop where
  once : ∀ acts later, Run Step r acts later → ∀ scope disposer,
    ((r.sessions sessionId).scopes scope).Succeeded disposer →
      ((later.sessions sessionId).scopes scope).calling ≠ some disposer
  orderly : ∀ scope, ((r.sessions sessionId).scopes scope).Orderly
  retained : ∀ scope, ((r.sessions sessionId).scopes scope).ended ≠ [] →
    ((r.sessions sessionId).scopes scope).disposers ≠ [] →
      scope ∈ (r.sessions sessionId).retainedScopes ∨ (r.sessions sessionId).IsDisposing scope
  retried : ∀ job next, Step r (.session sessionId (.startJob job)) next →
    ∀ scope ∈ (r.sessions sessionId).retainedScopes, ((r.sessions sessionId).scopes scope).disposers ≠ [] →
      ((r.sessions sessionId).scopes scope).held = false →
        ((next.sessions sessionId).scopes scope).CallsAll ((r.sessions sessionId).scopes scope).disposers

theorem callsUntilDone_of_run (h : Run Step {} acts r) (sessionId : String) : CallsUntilDone r sessionId := by
  have hgood := good_of_run h
  refine ⟨fun acts' later hrun scope disposer hsucceeded hcalling => ?_,
    fun scope => ((hgood sessionId).sound scope).ended,
    fun scope => (custody_of_run h sessionId).retained_of_failed (hgood sessionId),
    fun job next hs scope hmem hleft hreleased => ?_⟩
  · have hlast := good_of_run (h.append hrun)
    exact ((hlast sessionId).sound scope).not_succeeded_of_calling hcalling
      ((later_of_run hgood hrun sessionId scope).succeeded disposer hsucceeded)
  · obtain ⟨σ, hσ, rfl⟩ := step_session hs
    show ((update r.sessions sessionId σ sessionId).scopes scope).CallsAll _
    rw [update_self]
    exact startJob_calls (hgood sessionId) hσ hmem hleft hreleased

end RuntimeRegistry

end Wiii.NekoChill
