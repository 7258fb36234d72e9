import Wiii.NekoChill.Effects

/-!
# A teardown against the replacements under way

`detach` and `disposeAll` cancel the replacements they find by moving a generation on: a preparation that read an older
one is `Doomed` and never commits, whatever happens later (`doomed_of_run`).  A call that waits for a cleanup has not
read one yet (`doomed_of_teardown`).
-/

namespace Wiii.NekoChill

open Function (update update_self update_of_ne)

namespace ReplacePhase

variable {phase : ReplacePhase}

theorem isCommitted_of_isPending (h : phase.isPending = true) : phase.isCommitted = false := by
  cases phase <;> first | rfl | cases h

theorem isWaiting_of_isPending (h : phase.isPending = true) : phase.isWaiting = false := by
  cases phase <;> first | rfl | cases h

theorem isCommitted_of_isWaiting (h : phase.isWaiting = true) : phase.isCommitted = false := by
  cases phase <;> first | rfl | cases h

end ReplacePhase

namespace Session

theorem Next.of_isCommitted {generation sessionGeneration : ℕ} {call call' : ReplaceCall}
    (h : Next generation sessionGeneration call call') (hcommitted : call.phase.isCommitted = true) :
    call'.phase = call.phase ∧ call'.preparation = call.preparation := by
  cases h with
  | same hphase hprep => exact ⟨hphase, hprep⟩
  | prepared hw =>
    rw [ReplacePhase.isCommitted_of_isWaiting hw] at hcommitted
    cases hcommitted
  | moved hp | committed hp | rejected hp =>
    rw [ReplacePhase.isCommitted_of_isPending hp] at hcommitted
    cases hcommitted

/-- The call does not commit any more: if it is pending, a generation it read is past. -/
structure Doomed (generation : ℕ) (σ : Session) (call : ReplaceCall) : Prop where
  uncommitted : call.phase.isCommitted = false
  registered : call.phase.isWaiting = false
  stale : call.phase.isPending = true →
    call.generation < generation ∨ call.sessionGeneration < σ.sessionGeneration

/-- Every call of the session that was recorded by then and had not committed is doomed. -/
def Cancelled (ids : ℕ → Prop) (generation : ℕ) (σ : Session) : Prop :=
  ∀ id, ids id → ∃ call, σ.calls id = some call ∧ Doomed generation σ call

/-- Every call has committed or is doomed, and there is no binding. -/
structure Down (generation : ℕ) (σ : Session) : Prop where
  binding : σ.binding = none
  calls : ∀ id call, σ.calls id = some call → call.phase.isCommitted = true ∨ Doomed generation σ call

variable {generation : ℕ} {adds commits : Prop} {σ σ' : Session}

/-- The session generation does not fall while a preparation is pending. -/
theorem Effect.sessionGeneration_le (heffect : Effect generation adds commits σ σ') {id : ℕ}
    {call call' : ReplaceCall} (h : Good generation σ) {later : ℕ} (h' : Good later σ')
    (hcall : σ.calls id = some call) (hpending : call.phase.isPending = true)
    (hcall' : σ'.calls id = some call') (hpending' : call'.phase.isPending = true) :
    σ.sessionGeneration ≤ σ'.sessionGeneration :=
  heffect.generation id ((h.pending id).2 ⟨call, hcall, hpending⟩) ((h'.pending id).2 ⟨call', hcall', hpending'⟩)

theorem Effect.doomed (heffect : Effect generation adds commits σ σ') (h : Good generation σ) {later : ℕ}
    (hlater : generation ≤ later) (h' : Good later σ') {id : ℕ} {call : ReplaceCall}
    (hcall : σ.calls id = some call) (hdoomed : Doomed generation σ call) :
    ∃ call', σ'.calls id = some call' ∧ Doomed later σ' call' := by
  obtain ⟨call', hcall', hnext⟩ := heffect.calls id call hcall
  -- a pending call that goes on with the generations it had
  have hkeep : call.phase.isPending = true → call'.phase.isPending = true → call'.generation = call.generation →
      call'.sessionGeneration = call.sessionGeneration →
        call'.generation < later ∨ call'.sessionGeneration < σ'.sessionGeneration := by
    intro hp hp' hg hs
    have hle := heffect.sessionGeneration_le h h' hcall hp hcall' hp'
    rw [hg, hs]
    exact (hdoomed.stale hp).imp (fun hlt => Nat.lt_of_lt_of_le hlt hlater) fun hlt => Nat.lt_of_lt_of_le hlt hle
  refine ⟨call', hcall', ?_⟩
  cases hnext with
  | same hphase _ hg hs =>
    refine ⟨hphase ▸ hdoomed.uncommitted, hphase ▸ hdoomed.registered, fun hp' => ?_⟩
    exact hkeep (hphase ▸ hp') hp' hg hs
  | prepared hwaiting _ =>
    rw [hdoomed.registered] at hwaiting
    cases hwaiting
  | moved hp hp' hg hs =>
    exact ⟨ReplacePhase.isCommitted_of_isPending hp', ReplacePhase.isWaiting_of_isPending hp',
      fun _ => hkeep hp hp' hg hs⟩
  | committed hp _ hg hs =>
    rcases hdoomed.stale hp with hlt | hlt
    · exact absurd hg (Nat.ne_of_lt hlt)
    · exact absurd hs (Nat.ne_of_lt hlt)
  | rejected _ hp' hc hw =>
    refine ⟨hc, hw, fun hp => ?_⟩
    rw [hp'] at hp
    cases hp

theorem Effect.cancelled {ids : ℕ → Prop} (heffect : Effect generation adds commits σ σ')
    (h : Good generation σ) {later : ℕ} (hlater : generation ≤ later) (h' : Good later σ')
    (hcancelled : Cancelled ids generation σ) : Cancelled ids later σ' := by
  intro id hid
  obtain ⟨call, hcall, hdoomed⟩ := hcancelled id hid
  exact heffect.doomed h hlater h' hcall hdoomed

theorem Effect.down (heffect : Effect generation adds commits σ σ') (h : Good generation σ) {later : ℕ}
    (hlater : generation ≤ later) (h' : Good later σ') (hadds : ¬ adds) (hdown : Down generation σ) :
    Down later σ' := by
  have hcalls : ∀ id call', σ'.calls id = some call' → call'.phase.isCommitted = true ∨ Doomed later σ' call' := by
    intro id call' hcall'
    cases hcall : σ.calls id with
    | none => exact absurd (heffect.added id call' hcall hcall').1 hadds
    | some call =>
      rcases hdown.calls id call hcall with hcommitted | hdoomed
      · obtain ⟨next, hnext, hhow⟩ := heffect.calls id call hcall
        rw [hcall'] at hnext
        cases hnext
        exact .inl ((hhow.of_isCommitted hcommitted).1 ▸ hcommitted)
      · obtain ⟨next, hnext, hdoomed'⟩ := heffect.doomed h hlater h' hcall hdoomed
        rw [hcall'] at hnext
        cases hnext
        exact .inr hdoomed'
  refine ⟨?_, hcalls⟩
  rcases heffect.binding with hb | hb | ⟨-, -, binding, call, call', -, hcall, hpending, hcall', hcommitted⟩
  · exact hb.trans hdown.binding
  · exact hb
  · rcases hdown.calls _ call hcall with hwas | hdoomed
    · rw [ReplacePhase.isCommitted_of_isPending hpending] at hwas
      cases hwas
    · obtain ⟨next, hnext, hdoomed'⟩ := heffect.doomed h hlater h' hcall hdoomed
      rw [hcall'] at hnext
      cases hnext
      rw [hdoomed'.uncommitted] at hcommitted
      cases hcommitted

/-! ## The moment of a teardown -/

theorem awaitCleanup_frame (provider : Option ℕ) (dropsGeneration : Bool) (cleanup : Session × Option ℕ) :
    (Session.awaitCleanup provider dropsGeneration cleanup).calls = cleanup.1.calls ∧
      (Session.awaitCleanup provider dropsGeneration cleanup).binding = cleanup.1.binding ∧
      (cleanup.1.pendingPreparations ≠ [] →
        (Session.awaitCleanup provider dropsGeneration cleanup).sessionGeneration = cleanup.1.sessionGeneration) ∧
      (Session.awaitCleanup provider dropsGeneration cleanup).scopes = cleanup.1.scopes ∧
      (Session.awaitCleanup provider dropsGeneration cleanup).nextScope = cleanup.1.nextScope ∧
      (Session.awaitCleanup provider dropsGeneration cleanup).retainedCleanupScopes =
        cleanup.1.retainedCleanupScopes := by
  unfold Session.awaitCleanup
  cases cleanup.2 with
  | some job => exact ⟨rfl, rfl, fun _ => rfl, rfl, rfl, rfl⟩
  | none =>
    cases dropsGeneration with
    | false => exact ⟨rfl, rfl, fun _ => rfl, rfl, rfl, rfl⟩
    | true =>
      simp only [if_true]
      unfold Session.dropGeneration
      split_ifs with hempty
      · exact ⟨rfl, rfl, fun hne => absurd hempty hne, rfl, rfl, rfl⟩
      · exact ⟨rfl, rfl, fun _ => rfl, rfl, rfl, rfl⟩

theorem cleanupSession_retained (authorities : List CleanupAuthority) (completions : List ℕ) (σ : Session) :
    (σ.cleanupSession authorities completions).1.retainedCleanupScopes =
        authorities.foldl retain σ.retainedCleanupScopes ∧
      (σ.cleanupSession authorities completions).1.nextScope = σ.nextScope := by
  obtain ⟨jobs, nextJob, inFlight, heq⟩ := cleanupSession_fst authorities completions σ
  rw [heq]
  exact ⟨rfl, rfl⟩

/-- The calls, no binding, and generations that no pending call read. -/
structure TornDown (generation : ℕ) (σ σ' : Session) : Prop where
  calls : σ'.calls = σ.calls
  binding : σ'.binding = none
  stale : ∀ id call, σ.calls id = some call → call.phase.isPending = true →
    call.generation < generation ∨ call.sessionGeneration < σ'.sessionGeneration

theorem tornDown_detach (h : Good generation σ) : TornDown generation σ σ.detach := by
  obtain ⟨hcalls, hb, hp, hs, -⟩ := cleanupSession_frame (σ.preparations ++ σ.bound) σ.pendingPreparations
    { σ with sessionGeneration := σ.sessionGeneration + 1, binding := none }
  obtain ⟨hcalls', hb', hs', -⟩ := awaitCleanup_frame ((σ.binding.map Binding.provider) <|> σ.retainedProvider) true
    ({ σ with sessionGeneration := σ.sessionGeneration + 1, binding := none }.cleanupSession
      (σ.preparations ++ σ.bound) σ.pendingPreparations)
  refine ⟨hcalls'.trans hcalls, hb'.trans hb, fun id call hcall hpending => .inr ?_⟩
  have hne := List.ne_nil_of_mem ((h.pending id).2 ⟨call, hcall, hpending⟩)
  have hgeneration : σ.detach.sessionGeneration = σ.sessionGeneration + 1 := (hs' fun hnil => hne (hp.symm.trans hnil)).trans hs
  rw [hgeneration]
  exact Nat.lt_succ_of_le (h.generations id call hcall hpending).2

theorem tornDown_disposeAll (h : Good generation σ) : TornDown (generation + 1) σ σ.disposeAll := by
  obtain ⟨hcalls, hb, -, -, -⟩ := cleanupSession_frame (σ.bound ++ σ.preparations) σ.pendingPreparations
    { σ with binding := none }
  obtain ⟨hcalls', hb', -⟩ := awaitCleanup_frame ((σ.binding.map Binding.provider) <|> σ.retainedProvider) false
    ({ σ with binding := none }.cleanupSession (σ.bound ++ σ.preparations) σ.pendingPreparations)
  exact ⟨hcalls'.trans hcalls, hb'.trans hb, fun id call hcall hpending =>
    .inl (Nat.lt_succ_of_le (h.generations id call hcall hpending).1)⟩

theorem detachInstance_cases (h : Good generation σ) (provider : ℕ) :
    σ.detachInstance provider = Session.awaitCleanup σ.retainedProvider false (σ.cleanupSession [] []) ∨
      (TornDown generation σ (σ.detachInstance provider) ∧ (σ.detachInstance provider).scopes = σ.scopes ∧
        (σ.detachInstance provider).nextScope = σ.nextScope ∧
        (σ.detachInstance provider).retainedCleanupScopes =
          (σ.bound ++ σ.preparations).foldl retain σ.retainedCleanupScopes) := by
  unfold Session.detachInstance
  split
  · exact .inl rfl
  · right
    let τ : Session := { σ with sessionGeneration := σ.sessionGeneration + 1, binding := none }
    obtain ⟨hcalls, hb, hp, hs, hscopes⟩ := cleanupSession_frame (σ.bound ++ σ.preparations) σ.pendingPreparations τ
    obtain ⟨hret, hnext⟩ := cleanupSession_retained (σ.bound ++ σ.preparations) σ.pendingPreparations τ
    obtain ⟨hcalls', hb', hs', hscopes', hnext', hret'⟩ := awaitCleanup_frame (some provider) true
      (τ.cleanupSession (σ.bound ++ σ.preparations) σ.pendingPreparations)
    refine ⟨⟨hcalls'.trans hcalls, hb'.trans hb, fun id call hcall hpending => .inr ?_⟩, hscopes'.trans hscopes,
      hnext'.trans hnext, hret'.trans hret⟩
    have hne := List.ne_nil_of_mem ((h.pending id).2 ⟨call, hcall, hpending⟩)
    show call.sessionGeneration < (Session.awaitCleanup (some provider) true
      (τ.cleanupSession (σ.bound ++ σ.preparations) σ.pendingPreparations)).sessionGeneration
    rw [hs' fun hnil => hne (hp.symm.trans hnil), hs]
    exact Nat.lt_succ_of_le (h.generations id call hcall hpending).2

/-- No call of the session waits for a cleanup before it is registered. -/
def NoneWaiting (σ : Session) : Prop := ∀ id call, σ.calls id = some call → call.phase.isWaiting = false

theorem TornDown.doomed (h : TornDown generation σ σ') (hwaiting : NoneWaiting σ) {id : ℕ} {call : ReplaceCall}
    (hcall : σ.calls id = some call) (hcommitted : call.phase.isCommitted = false) : Doomed generation σ' call :=
  ⟨hcommitted, hwaiting id call hcall, h.stale id call hcall⟩

theorem TornDown.down (h : TornDown generation σ σ') (hwaiting : NoneWaiting σ) : Down generation σ' := by
  refine ⟨h.binding, fun id call hcall => ?_⟩
  rw [h.calls] at hcall
  cases hcommitted : call.phase.isCommitted with
  | true => exact .inl rfl
  | false => exact .inr (h.doomed hwaiting hcall hcommitted)

end Session

/-! ## Runs after a teardown -/

namespace RuntimeRegistry

open Session

variable {r r₁ r₂ : RuntimeRegistry} {sessionId : String}

/-- `detach` of the session, or `disposeAll`. -/
def IsTeardown (sessionId : String) (act : RegistryAct) : Prop :=
  act = .session sessionId .detach ∨ act = .disposeAll

theorem tornDown_of_step {act : RegistryAct} (hgood : r.Good) (hact : IsTeardown sessionId act)
    (hs : Step r act r₁) : TornDown r₁.generation (r.sessions sessionId) (r₁.sessions sessionId) := by
  rcases hact with rfl | rfl
  · obtain ⟨σ, hσ, rfl⟩ := step_session hs
    cases hσ
    show TornDown r.generation _ (update r.sessions sessionId _ sessionId)
    rw [update_self]
    exact tornDown_detach (hgood sessionId)
  · cases Option.some.inj hs
    exact tornDown_disposeAll (hgood sessionId)

theorem cancelled_of_run {ids : ℕ → Prop} {acts : List RegistryAct} (hgood : r₁.Good) (h : Run Step r₁ acts r₂)
    (hcancelled : Cancelled ids r₁.generation (r₁.sessions sessionId)) :
    Cancelled ids r₂.generation (r₂.sessions sessionId) :=
  sessions_of_free_run sessionId (I := Cancelled ids)
    (fun _ _ _ _ hσ hI hact => (effect_step hσ hact).cancelled hσ (Nat.le_refl _) (hσ.step hact) hI)
    (fun generation σ hσ hI => by
      have heffect : Effect generation False False σ σ.disposeAll := effect_disposeAll σ
      exact heffect.cancelled hσ (Nat.le_succ generation) hσ.disposeAll hI)
    hgood h hcancelled

theorem down_of_run {acts : List RegistryAct} (hgood : r₁.Good) (h : Run Step r₁ acts r₂)
    (hreplace : ∀ providerId, .session sessionId (.replace providerId) ∉ acts)
    (hdown : Down r₁.generation (r₁.sessions sessionId)) : Down r₂.generation (r₂.sessions sessionId) := by
  have hguarded := h.guard (P := fun act => ∀ providerId, act ≠ .session sessionId (.replace providerId))
    fun act hmem providerId heq => hreplace providerId (heq ▸ hmem)
  have hrun : Run (Guarded Step fun r act => act.Meets (fun other _ _ act => other = sessionId →
      ¬ ∃ providerId, act = .replace providerId) r) r₁ acts r₂ := by
    refine hguarded.mono fun r act r' hs => ⟨hs.1, ?_⟩
    cases act with
    | disposeAll => trivial
    | session other act =>
      rintro rfl ⟨providerId, rfl⟩
      exact hs.2 providerId rfl
  exact sessions_of_run sessionId (I := Down)
    (fun _ _ _ _ hc hσ hI hact => (effect_step hσ hact).down hσ (Nat.le_refl _) (hσ.step hact) (hc rfl) hI)
    (fun generation σ hσ hI => by
      have heffect : Effect generation False False σ σ.disposeAll := effect_disposeAll σ
      exact heffect.down hσ (Nat.le_succ generation) hσ.disposeAll id hI)
    hgood hrun hdown

/-- A teardown that finds no call waiting for a cleanup cancels every call that has not committed. -/
theorem teardown_cancels {acts acts' : List RegistryAct} {act : RegistryAct} (hr : Run Step {} acts r)
    (hact : IsTeardown sessionId act) (hwaiting : NoneWaiting (r.sessions sessionId)) (hs : Step r act r₁)
    (h : Run Step r₁ acts' r₂) :
    (∀ id call call', (r.sessions sessionId).calls id = some call → call.phase.isCommitted = false →
        (r₂.sessions sessionId).calls id = some call' → call'.phase.isCommitted = false) ∧
      ((∀ providerId, .session sessionId (.replace providerId) ∉ acts') →
        (r₂.sessions sessionId).binding = none) := by
  have hgood := good_of_run hr
  have htorn := tornDown_of_step hgood hact hs
  constructor
  · intro id call call' hcall hcommitted hcall'
    have hcancelled : Cancelled (fun other => other = id) r₁.generation (r₁.sessions sessionId) := by
      rintro _ rfl
      exact ⟨call, htorn.calls ▸ hcall, htorn.doomed hwaiting hcall hcommitted⟩
    obtain ⟨last, hlast, hdoomed⟩ := cancelled_of_run (hgood.step hs) h hcancelled id rfl
    rw [hcall'] at hlast
    cases hlast
    exact hdoomed.uncommitted
  · exact fun hreplace => (down_of_run (hgood.step hs) h hreplace (htorn.down hwaiting)).binding

/-- A preparation that the teardown finds in its factory. -/
theorem teardown_cancels_creating : ∃ r r₁ r₂ : RuntimeRegistry,
    Run Step r₁ [.session "s1" (.created 0 ⟨0, "s1", []⟩)] r₂ ∧
      (∃ call, (r.sessions "s1").calls 0 = some call ∧ call.phase = .creating) ∧
      ((∀ id call call', (r.sessions "s1").calls id = some call → call.phase.isCommitted = false →
          (r₂.sessions "s1").calls id = some call' → call'.phase.isCommitted = false) ∧
        ((∀ providerId, .session "s1" (.replace providerId) ∉
            [RegistryAct.session "s1" (.created 0 ⟨0, "s1", []⟩)]) →
          (r₂.sessions "s1").binding = none)) := by
  obtain ⟨r, hr, hP⟩ := exists_run_of_any [.session "s1" (.replace "neko")] (r := {})
    (P := fun r => decide (((r.sessions "s1").calls 0).map ReplaceCall.phase = some .creating ∧
      (r.sessions "s1").nextCall = 1) && (r.step (.session "s1" .detach)).any fun r₁ =>
        (r₁.run [.session "s1" (.created 0 ⟨0, "s1", []⟩)]).any fun _ => true) (by decide +kernel)
  obtain ⟨hphase, hnext⟩ := Bool.and_eq_true_iff.1 hP
  obtain ⟨hcreating, hone⟩ := of_decide_eq_true hphase
  obtain ⟨r₁, hs, hlast⟩ := (Option.any_eq_true _ _).1 hnext
  obtain ⟨r₂, h, -⟩ := exists_run_of_any _ hlast
  obtain ⟨call, hcall, hcallphase⟩ := Option.map_eq_some_iff.1 hcreating
  have hwaiting : NoneWaiting (r.sessions "s1") := by
    intro id other hother
    have hlt := ((good_of_run hr "s1").fresh id other hother).1
    rw [hone, Nat.lt_one_iff] at hlt
    rw [hlt, hcall] at hother
    cases hother
    rw [hcallphase]
    rfl
  exact ⟨r, r₁, r₂, h, ⟨call, hcall, hcallphase⟩, teardown_cancels hr (.inl rfl) hwaiting hs h⟩

/-- A second `detach` meets a replacement that waits for the cleanup of the first. -/
def overtaking : List RegistryAct :=
  [.startJob 0, .settleDisposer 0 true, .finishJob 0, .settleJob 0, .startJob 1, .finishJob 1, .settleJob 1,
    .resumePrior 1, .resumeTeardown 0, .startJob 2, .finishJob 2, .settleJob 2, .resumeTeardown 1,
    .created 1 ⟨1, "s1", []⟩].map (.session "s1")

/-- The replacement was called before the `detach`, which resolved, and commits afterwards. -/
theorem teardown_overtaken : ∃ r r₁ r₂ : RuntimeRegistry,
    Run Step {} ([.replace "neko", .created 0 ⟨0, "s1", []⟩, .detach, .replace "neko"].map (.session "s1")) r ∧
      ((r.sessions "s1").calls 1).map ReplaceCall.phase = some (.awaitingPrior 1) ∧
      Step r (.session "s1" .detach) r₁ ∧ Run Step r₁ overtaking r₂ ∧
      (∀ providerId, .session "s1" (.replace providerId) ∉ overtaking) ∧
      ((r₂.sessions "s1").teardowns 1).map Teardown.outcome = some (some true) ∧
      ((r₂.sessions "s1").calls 1).map (fun call => call.phase.isCommitted) = some true ∧
      (r₂.sessions "s1").binding = some ⟨1, 1⟩ := by
  obtain ⟨r, hr, hP⟩ := exists_run_of_any
    ([.replace "neko", .created 0 ⟨0, "s1", []⟩, .detach, .replace "neko"].map (.session "s1")) (r := {})
    (P := fun r => decide (((r.sessions "s1").calls 1).map ReplaceCall.phase = some (.awaitingPrior 1)) &&
      (r.step (.session "s1" .detach)).any fun r₁ => (r₁.run overtaking).any fun r₂ =>
        decide (((r₂.sessions "s1").teardowns 1).map Teardown.outcome = some (some true) ∧
          ((r₂.sessions "s1").calls 1).map (fun call => call.phase.isCommitted) = some true ∧
          (r₂.sessions "s1").binding = some ⟨1, 1⟩)) (by decide +kernel)
  obtain ⟨hphase, hnext⟩ := Bool.and_eq_true_iff.1 hP
  obtain ⟨r₁, hs, hlast⟩ := (Option.any_eq_true _ _).1 hnext
  obtain ⟨r₂, h, hends⟩ := exists_run_of_any _ hlast
  refine ⟨r, r₁, r₂, hr, of_decide_eq_true hphase, hs, h, fun providerId hmem => ?_, of_decide_eq_true hends⟩
  simp [overtaking] at hmem

end RuntimeRegistry

end Wiii.NekoChill
