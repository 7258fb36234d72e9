import Wiii.NekoChill.Ownership

/-!
# Every step keeps what the registry owns

Each act is put together of the changes of `Ownership`, so `Session.Good` is an invariant of the steps of
one session (`Good.step`), of `disposeAll` and of the registry (`good_of_run`).
-/

namespace Wiii.NekoChill.Session

open Function (update update_self update_of_ne)

variable {generation : ℕ} {σ σ' : Session}

/-! ## What an act does -/

/-- More is retained, and only of these scopes. -/
structure Retains (σ : Session) (retained : List CleanupAuthority) (scopes : List ℕ) : Prop where
  kept : ∀ scope ∈ σ.retainedScopes, scope ∈ retained.map Prod.fst
  new : ∀ scope ∈ retained.map Prod.fst, scope ∈ σ.retainedScopes ∨ scope ∈ scopes

section

variable (sessionId : String) (generation : ℕ) (σ : Session)

inductive Moves : Act → Session → Prop
  | replaced (providerId : String) : Moves (.replace providerId) (σ.replace generation providerId)
  | prepared {id cleanup : ℕ} {call : ReplaceCall} (hcall : σ.calls id = some call)
      (hphase : call.phase = .awaitingPrior cleanup) :
      Moves (.resumePrior id) (σ.prepare generation id call)
  | priorFailed {id cleanup : ℕ} {call : ReplaceCall} (hcall : σ.calls id = some call)
      (hphase : call.phase = .awaitingPrior cleanup) :
      Moves (.resumePrior id) (σ.setCall id { call with phase := .rejected .priorCleanup false })
  | owned {id : ℕ} {call : ReplaceCall} (driver : Driver) (hcall : σ.calls id = some call)
      (hprep : call.preparation ≠ none) :
      Moves (.own id driver) ((σ.own call driver).1.setCall id (σ.own call driver).2.1)
  | created {id : ℕ} {call : ReplaceCall} (driver : Driver) (hcall : σ.calls id = some call)
      (hphase : call.phase = .creating) :
      Moves (.created id driver) (((σ.own call driver).1.setCall id (σ.own call driver).2.1).receive
        sessionId generation id (σ.own call driver).2.1 driver (σ.own call driver).2.2)
  | createFailed {id : ℕ} {call : ReplaceCall} (hcall : σ.calls id = some call) (hphase : call.phase = .creating) :
      Moves (.createFailed id) (σ.disposePreparation id call .factory)
  | resumed {id previous cleanup : ℕ} {call : ReplaceCall} (hcall : σ.calls id = some call)
      (hphase : call.phase = .awaitingPrevious previous cleanup) (hok : σ.jobOutcome cleanup = some true) :
      Moves (.resumePrevious id) (σ.commit generation id call (some previous))
  | previousFailed {id previous cleanup : ℕ} {call : ReplaceCall} (hcall : σ.calls id = some call)
      (hphase : call.phase = .awaitingPrevious previous cleanup) :
      Moves (.resumePrevious id) (σ.disposePreparation id call .previousCleanup)
  | disposed {id : ℕ} {call : ReplaceCall} {disposals : Disposals} {failure : ReplaceFailure} {cleanupFailed : Bool}
      {retained : List CleanupAuthority} (hcall : σ.calls id = some call)
      (hphase : call.phase = .disposing disposals failure) (hretains : σ.Retains retained (disposals.map Prod.fst))
      (hdone : ∀ scope ∈ disposals.map Prod.fst, scope ∈ fulfilled σ.scopes disposals ∨ scope ∈ retained.map Prod.fst) :
      Moves (.preparationDisposed id) ({ σ with retainedCleanupScopes := retained }.setCall id
        { call with phase := .disposed failure cleanupFailed })
  | rejected {id : ℕ} {call : ReplaceCall} {failure reason : ReplaceFailure} {cleanupFailed : Bool}
      {retained : List CleanupAuthority} (hcall : σ.calls id = some call)
      (hphase : call.phase = .disposed failure cleanupFailed) (hretains : σ.Retains retained call.scopes)
      (hdone : cleanupFailed = true → ∀ scope ∈ call.scopes, scope ∈ retained.map Prod.fst) :
      Moves (.resumeDisposed id) ({ σ with retainedCleanupScopes := retained }.complete id
        { call with phase := .rejected reason cleanupFailed })
  | detached : Moves .detach σ.detach
  | instanceDetached (provider : ℕ) :
      Moves (.detachInstance provider) (σ.detachInstance provider)
  | tornDown {id : ℕ} (dropsGeneration : Bool) (teardowns : ℕ → Option Teardown) :
      Moves (.resumeTeardown id)
        { (if dropsGeneration then σ.dropGeneration else σ) with teardowns := teardowns }
  | jobStarted {id : ℕ} (jobs : ℕ → Option Job) : Moves (.startJob id)
      { σ with scopes := (disposeScopes σ.retainedScopes σ.scopes).1, jobs := jobs }
  | jobFinished {id : ℕ} (disposals : Disposals) {retained : List CleanupAuthority} (jobs : ℕ → Option Job)
      (hkept : ∀ scope ∈ σ.retainedScopes, scope ∈ retained.map Prod.fst ∨ scope ∈ fulfilled σ.scopes disposals)
      (hold : ∀ scope ∈ retained.map Prod.fst, scope ∈ σ.retainedScopes) :
      Moves (.finishJob id) { σ with retainedCleanupScopes := retained, jobs := jobs }
  | jobSettled {id : ℕ} (inFlight : Option ℕ) (jobs : ℕ → Option Job) : Moves (.settleJob id)
      { σ with inFlightDisposal := inFlight, jobs := jobs }
  | disposerSettled {id : ℕ} {ok : Bool} {scope : RuntimeScope} (hscope : (σ.scopes id).settle ok = some scope) :
      Moves (.settleDisposer id ok) { σ with scopes := update σ.scopes id scope }
  | released (id : ℕ) : Moves (.releaseScope id) (σ.releaseScope id)

end

theorem fulfilled_of_allSettled {scopes : ℕ → RuntimeScope} {disposals : Disposals}
    (h : outcomeOf scopes disposals = some true) {scope : ℕ} (hmem : scope ∈ disposals.map Prod.fst) :
    scope ∈ fulfilled scopes disposals := by
  obtain ⟨entry, hentry, rfl⟩ := List.mem_map.1 hmem
  unfold outcomeOf allSettled at h
  split_ifs at h
  have hall := List.all_eq_true.1 (Option.some.inj h) _ (List.mem_map.2 ⟨entry, hentry, rfl⟩)
  exact List.mem_map.2 ⟨entry, List.mem_filter.2 ⟨hentry, hall⟩, rfl⟩

theorem retains_foldl {α : Type} (items : List α) (scope : α → ℕ) (failed : Bool) :
    σ.Retains (if failed then (items.map fun item => (scope item, none)).foldl retain σ.retainedCleanupScopes
      else σ.retainedCleanupScopes) (items.map scope) ∧
    (failed = true → ∀ item ∈ items.map scope, item ∈ ((items.map fun item => (scope item, none)).foldl retain
      σ.retainedCleanupScopes).map Prod.fst) := by
  have hkeys : (items.map fun item => ((scope item, none) : CleanupAuthority)).map Prod.fst = items.map scope := by
    rw [List.map_map]
    rfl
  refine ⟨?_, fun _ item hitem => mem_foldl_retain.2 (.inr (hkeys ▸ hitem))⟩
  cases failed with
  | true => exact ⟨fun _ hmem => mem_foldl_retain.2 (.inl hmem), fun _ hmem => hkeys ▸ mem_foldl_retain.1 hmem⟩
  | false => exact ⟨fun _ hmem => hmem, fun _ hmem => .inl hmem⟩

theorem step_moves {sessionId : String} {act : Act} (hs : σ.step sessionId generation act = some σ') :
    Moves sessionId generation σ act σ' := by
  cases act with
  | replace providerId => cases hs; exact .replaced providerId
  | detach => cases hs; exact .detached
  | detachInstance provider => cases hs; exact .instanceDetached provider
  | releaseScope id => cases hs; exact .released id
  | resumePrior id =>
    obtain ⟨call, hcall, hs⟩ := Option.bind_eq_some_iff.1 hs
    split at hs
    · rename_i cleanup hphase
      obtain ⟨ok, -, hs⟩ := Option.bind_eq_some_iff.1 hs
      cases hs
      cases ok with
      | true => exact .prepared hcall hphase
      | false => exact .priorFailed hcall hphase
    · cases hs
  | own id driver =>
    obtain ⟨call, hcall, hs⟩ := Option.bind_eq_some_iff.1 hs
    split_ifs at hs with hprep
    cases hs
    exact .owned driver hcall hprep
  | created id driver =>
    obtain ⟨call, hcall, hs⟩ := Option.bind_eq_some_iff.1 hs
    split_ifs at hs with hphase
    cases hs
    exact .created driver hcall hphase
  | createFailed id =>
    obtain ⟨call, hcall, hs⟩ := Option.bind_eq_some_iff.1 hs
    split_ifs at hs with hphase
    cases hs
    exact .createFailed hcall hphase
  | resumePrevious id =>
    obtain ⟨call, hcall, hs⟩ := Option.bind_eq_some_iff.1 hs
    split at hs
    · rename_i previous cleanup hphase
      obtain ⟨ok, hok, hs⟩ := Option.bind_eq_some_iff.1 hs
      cases hs
      cases ok with
      | true => exact .resumed hcall hphase hok
      | false => exact .previousFailed hcall hphase
    · cases hs
  | preparationDisposed id =>
    obtain ⟨call, hcall, hs⟩ := Option.bind_eq_some_iff.1 hs
    split at hs
    · rename_i disposals failure hphase
      obtain ⟨ok, hok, hs⟩ := Option.bind_eq_some_iff.1 hs
      cases hs
      obtain ⟨hretains, hfailed⟩ := σ.retains_foldl disposals Prod.fst !ok
      cases ok with
      | true => exact .disposed hcall hphase hretains fun scope hmem => .inl (fulfilled_of_allSettled hok hmem)
      | false => exact .disposed hcall hphase hretains fun scope hmem => .inr (hfailed rfl scope hmem)
    · cases hs
  | resumeDisposed target =>
    obtain ⟨call, hcall, hs⟩ := Option.bind_eq_some_iff.1 hs
    split at hs
    · rename_i failure cleanupFailed hphase
      cases hs
      obtain ⟨hretains, hfailed⟩ := σ.retains_foldl call.scopes id cleanupFailed
      rw [List.map_id] at hretains hfailed
      refine .rejected hcall hphase hretains fun hcleanup => ?_
      rw [if_pos hcleanup]
      exact hfailed hcleanup
    · cases hs
  | resumeTeardown id =>
    obtain ⟨teardown, -, hs⟩ := Option.bind_eq_some_iff.1 hs
    obtain ⟨cleanup, -, hs⟩ := Option.bind_eq_some_iff.1 hs
    obtain ⟨ok, -, hs⟩ := Option.bind_eq_some_iff.1 hs
    cases hs
    exact .tornDown teardown.dropsGeneration _
  | startJob id =>
    obtain ⟨job, -, hs⟩ := Option.bind_eq_some_iff.1 hs
    split_ifs at hs
    cases hs
    exact .jobStarted _
  | finishJob id =>
    obtain ⟨job, -, hs⟩ := Option.bind_eq_some_iff.1 hs
    split at hs
    · rename_i disposals hphase
      obtain ⟨disposed, -, hs⟩ := Option.bind_eq_some_iff.1 hs
      obtain ⟨completed, -, hs⟩ := Option.bind_eq_some_iff.1 hs
      cases hs
      refine .jobFinished disposals _ (fun scope hmem => ?_) fun scope hmem => ?_
      · obtain ⟨entry, hentry, rfl⟩ := List.mem_map.1 hmem
        by_cases hdone : entry.1 ∈ fulfilled σ.scopes disposals
        · exact .inr hdone
        · exact .inl (List.mem_map.2 ⟨entry, List.mem_filter.2 ⟨hentry, decide_eq_true hdone⟩, rfl⟩)
      · obtain ⟨entry, hentry, rfl⟩ := List.mem_map.1 hmem
        exact List.mem_map.2 ⟨entry, List.mem_of_mem_filter hentry, rfl⟩
    · cases hs
  | settleJob id =>
    obtain ⟨job, -, hs⟩ := Option.bind_eq_some_iff.1 hs
    split at hs
    · cases hs
      exact .jobSettled _ _
    · cases hs
  | settleDisposer id ok =>
    obtain ⟨scope, hscope, hs⟩ := Option.bind_eq_some_iff.1 hs
    cases hs
    exact .disposerSettled hscope

/-! ## Calls that begin -/

theorem Good.addCall (h : Good generation σ) (call : ReplaceCall) (hwaiting : call.phase.isWaiting = true)
    (hscopes : call.scopes = []) :
    Good generation ({ σ with nextCall := σ.nextCall + 1 }.setCall σ.nextCall call) := by
  have hphase : call.phase.isPending = false ∧ call.phase.isCommitted = false ∧ call.phase.isOwning = false := by
    cases hp : call.phase <;> rw [hp] at hwaiting <;> first | exact ⟨rfl, rfl, rfl⟩ | cases hwaiting
  have hnone : ∀ {b : Bool} {p : Prop}, b = false → b = true → p := fun h h' => by rw [h] at h'; cases h'
  have hnew : ∀ id c, σ.calls id = some c → id ≠ σ.nextCall := fun id c hc =>
    Nat.ne_of_lt (h.fresh id c hc).1
  refine h.setCall rfl h.sound h.bare ⟨⟨Nat.lt_succ_self _, ?_⟩, hnone hphase.1, hnone hphase.1, hnone hphase.2.2,
      fun _ => hscopes, fun _ => hnone hphase.2.1⟩
    (fun other c _ hc => (h.callOk hc).frame (Nat.le_succ _) (Nat.le_refl _) (fun _ => Nat.le_refl _)
      (fun _ _ => rfl) (fun _ hb => hb) rfl) ?_ (fun other => ?_) fun binding hb => ?_
  · rw [hscopes]
    exact fun _ hmem => nomatch hmem
  · rw [hscopes]
    exact fun _ hmem => nomatch hmem
  · by_cases hid : other = σ.nextCall
    · rw [if_pos hid, hphase.1]
      refine iff_of_false (fun hmem => ?_) Bool.false_ne_true
      obtain ⟨c, hc, -⟩ := (h.pending other).1 hmem
      exact hnew other c hc hid
    · rw [if_neg hid]
  · obtain ⟨c, hc, -⟩ := h.bound binding hb
    exact .inr ⟨hnew _ c hc, hb⟩

theorem Good.prepare (h : Good generation σ) {id : ℕ} {call : ReplaceCall} (hcall : σ.calls id = some call)
    (hwaiting : call.phase.isWaiting = true) : Good generation (σ.prepare generation id call) := by
  have hcommitted : call.phase.isCommitted = false := by
    cases hp : call.phase <;> rw [hp] at hwaiting <;> first | rfl | cases hwaiting
  have hunowned : call.unownedScopes = [] := (List.append_eq_nil_iff.1 (h.waiting id call hcall hwaiting)).2
  have hscopes : ∀ scope ∈ (some σ.nextScope).toList ++ call.unownedScopes, scope = σ.nextScope := by
    intro scope hmem
    simpa [hunowned] using hmem
  refine h.setCall rfl (h.sound_update .new) (h.bare_update {})
    ⟨⟨(h.fresh id call hcall).1, fun scope hmem => ?_⟩, fun _ => ⟨Nat.le_refl _, Nat.le_refl _⟩,
      fun _ => Option.some_ne_none _, fun hp => (nomatch hp), fun hw => (nomatch hw), fun _ hp => (nomatch hp)⟩
    (fun other c _ hc => (h.callOk hc).addScope _ _) (fun scope hmem => .inr (Nat.le_of_eq (hscopes scope hmem).symm))
    (fun other => ?_) fun binding hb => .inr (h.bound_other hcall hcommitted hb)
  · rw [hscopes scope hmem]
    exact Nat.lt_succ_self _
  · show other ∈ σ.pendingPreparations ++ [id] ↔ _
    rw [List.mem_append, List.mem_singleton]
    by_cases hid : other = id
    · rw [if_pos hid]
      exact iff_of_true (.inr hid) rfl
    · rw [if_neg hid, or_iff_left hid]

/-! ## Cleanup -/

theorem cleanupSession_fst (authorities : List CleanupAuthority) (completions : List ℕ) (σ : Session) :
    ∃ jobs nextJob inFlight, (σ.cleanupSession authorities completions).1 = { σ with
      retainedCleanupScopes := authorities.foldl retain σ.retainedCleanupScopes
      jobs := jobs, nextJob := nextJob, inFlightDisposal := inFlight } := by
  unfold cleanupSession
  simp only
  split_ifs
  · exact ⟨σ.jobs, σ.nextJob, σ.inFlightDisposal, rfl⟩
  · exact ⟨_, _, _, rfl⟩

theorem Good.cleanupSession (h : Good generation σ) (authorities : List CleanupAuthority)
    (completions : List ℕ) : Good generation (σ.cleanupSession authorities completions).1 := by
  obtain ⟨jobs, nextJob, inFlight, heq⟩ := cleanupSession_fst authorities completions σ
  rw [heq]
  have hretained := h.withRetained (authorities.foldl retain σ.retainedCleanupScopes)
    fun scope hmem _ => mem_foldl_retain.2 (.inl hmem)
  exact hretained.withJobs jobs nextJob inFlight σ.teardowns σ.nextTeardown

theorem Good.revoke (h : Good generation σ) (authorities : List CleanupAuthority) (completions : List ℕ)
    (hbound : ∀ binding, σ.binding = some binding → binding.scope ∈ authorities.map Prod.fst) :
    Good generation ({ σ with binding := none }.cleanupSession authorities completions).1 := by
  obtain ⟨jobs, nextJob, inFlight, heq⟩ :=
    cleanupSession_fst authorities completions { σ with binding := none }
  rw [heq]
  have hunbound := h.unbind (authorities.foldl retain σ.retainedCleanupScopes)
    (fun scope hmem => mem_foldl_retain.2 (.inl hmem))
    (fun binding hb => mem_foldl_retain.2 (.inr (hbound binding hb)))
  exact hunbound.withJobs jobs nextJob inFlight σ.teardowns σ.nextTeardown

theorem mem_bound {binding : Binding} (h : σ.binding = some binding) : binding.scope ∈ σ.bound.map Prod.fst := by
  unfold Session.bound
  rw [h]
  exact List.mem_singleton.2 rfl

theorem Good.dropGeneration (h : Good generation σ) : Good generation σ.dropGeneration := by
  unfold Session.dropGeneration
  split_ifs with hempty
  · refine h.withGeneration 0 fun id call hc hp => ?_
    have hmem := (h.pending id).2 ⟨call, hc, hp⟩
    rw [hempty] at hmem
    cases hmem
  · exact h

theorem Good.awaitCleanup {cleanup : Session × Option ℕ} (h : Good generation cleanup.1)
    (provider : Option ℕ) (dropsGeneration : Bool) :
    Good generation (Session.awaitCleanup provider dropsGeneration cleanup) := by
  have hjobs : ∀ {τ : Session}, Good generation τ → ∀ teardown, Good generation (τ.addTeardown teardown) :=
    fun hτ teardown => hτ.withJobs _ _ _ _ _
  unfold Session.awaitCleanup
  cases cleanup.2 with
  | none =>
    cases dropsGeneration with
    | true => exact hjobs h.dropGeneration _
    | false => exact hjobs h _
  | some job => exact hjobs h _

/-! ## The acts -/

theorem Good.replace (h : Good generation σ) (providerId : String) :
    Good generation (σ.replace generation providerId) := by
  have hclean := h.cleanupSession [] []
  have hnext : (σ.cleanupSession [] []).1.nextCall = σ.nextCall := by
    obtain ⟨jobs, nextJob, inFlight, heq⟩ := cleanupSession_fst [] [] σ
    rw [heq]
  unfold Session.replace
  simp only
  generalize σ.cleanupSession [] [] = cleanup at *
  rw [← hnext]
  cases cleanup.2 with
  | some job => exact hclean.addCall _ rfl rfl
  | none =>
    let call : ReplaceCall := ⟨providerId, σ.retainedProvider, .awaitingPrior 0, none, 0, 0, none, []⟩
    have hprepared := (hclean.addCall call rfl rfl).prepare (update_self _ _ _) rfl
    rw [prepare_setCall] at hprepared
    exact hprepared

theorem Good.disposePreparation (h : Good generation σ) {id : ℕ} {call : ReplaceCall}
    (hcall : σ.calls id = some call) (hpending : call.phase.isPending = true) (failure : ReplaceFailure) :
    Good generation (σ.disposePreparation id call failure) := by
  have hcommitted : call.phase.isCommitted = false := by
    cases hp : call.phase <;> rw [hp] at hpending <;> first | rfl | cases hpending
  exact (h.dispose call.scopes).withCall hcall ⟨rfl, rfl, rfl, rfl, fun hp => (nomatch hp), rfl⟩
    hpending.symm hcommitted.symm

theorem Good.commit (h : Good generation σ) {id : ℕ} {call : ReplaceCall} (hcall : σ.calls id = some call)
    (hpending : call.phase.isPending = true) (howned : call.ownedDriver ≠ none) (previous : Option ℕ) :
    Good generation (σ.commit generation id call previous) := by
  unfold Session.commit
  split_ifs with hrefused
  · exact h.disposePreparation hcall hpending _
  · have hfree : σ.binding = none := by
      by_contra hbound
      exact hrefused (.inr hbound)
    have hsame : SameCall call { call with phase := .committed (previous <|> call.recoveredProvider) } :=
      ⟨rfl, rfl, rfl, rfl, fun _ => howned, rfl⟩
    exact h.complete hcall hpending hsame rfl (.inr ⟨rfl, hfree, rfl⟩)

theorem own_call (call : ReplaceCall) (driver : Driver) (σ : Session) :
    (σ.own call driver).2.1.phase = call.phase ∧ (σ.own call driver).2.1.ownedDriver ≠ none ∧
      (σ.own call driver).2.1.preparation = call.preparation ∧
      (σ.own call driver).2.1.providerId = call.providerId := by
  unfold Session.own
  cases howned : call.ownedDriver with
  | some owned =>
    simp only
    split_ifs <;> exact ⟨rfl, by simp [howned, Session.ownApart], rfl, rfl⟩
  | none =>
    simp only
    split <;> exact ⟨rfl, Option.some_ne_none _, rfl, rfl⟩

theorem Good.supersede (h : Good generation σ) {id : ℕ} {call : ReplaceCall} (hcall : σ.calls id = some call)
    (hphase : call.phase = .creating) (howned : call.ownedDriver ≠ none) :
    Good generation (σ.supersede generation id call) := by
  unfold Session.supersede
  cases hbinding : σ.binding with
  | none => exact h.commit hcall (by rw [hphase]; rfl) howned none
  | some previous =>
    simp only
    have hrevoked := h.revoke [(previous.scope, some previous.provider)] []
      fun binding hb => by
        rw [hbinding] at hb
        cases hb
        exact List.mem_singleton.2 rfl
    have hcalls : ({ σ with binding := none }.cleanupSession [(previous.scope, some previous.provider)] []).1.calls =
        σ.calls := by
      obtain ⟨jobs, nextJob, inFlight, heq⟩ :=
        cleanupSession_fst [(previous.scope, some previous.provider)] [] { σ with binding := none }
      rw [heq]
    generalize { σ with binding := none }.cleanupSession [(previous.scope, some previous.provider)] [] = cleanup at *
    have hcall' : cleanup.1.calls id = some call := by rw [hcalls]; exact hcall
    cases cleanup.2 with
    | none => exact hrevoked.commit hcall' (by rw [hphase]; rfl) howned _
    | some job =>
      exact hrevoked.withCall hcall' ⟨rfl, rfl, rfl, rfl, fun _ => howned, rfl⟩ (by rw [hphase]; rfl)
        (by rw [hphase]; rfl)

theorem Good.receive (h : Good generation σ) {id : ℕ} {call : ReplaceCall} (hcall : σ.calls id = some call)
    (hphase : call.phase = .creating) (howned : call.ownedDriver ≠ none) (sessionId : String)
    (driver : Driver) (threw : Bool) : Good generation (σ.receive sessionId generation id call driver threw) := by
  have hpending : call.phase.isPending = true := by rw [hphase]; rfl
  have hsame : SameCall call { call with phase := .rejected .snapshot false } :=
    ⟨rfl, rfl, rfl, rfl, fun hp => (nomatch hp), rfl⟩
  unfold Session.receive
  split_ifs
  · exact h.disposePreparation hcall hpending _
  · exact h.disposePreparation hcall hpending _
  · exact h.disposePreparation hcall hpending _
  · exact h.complete hcall hpending hsame rfl (.inl ⟨rfl, rfl⟩)
  · exact h.supersede hcall hphase howned

theorem Good.detach (h : Good generation σ) : Good generation σ.detach := by
  have hgrown := h.withGeneration (σ.sessionGeneration + 1) fun _ _ _ _ => Nat.le_succ _
  refine Good.awaitCleanup (hgrown.revoke _ _ fun binding hb => ?_) _ _
  rw [List.map_append]
  exact List.mem_append_right _ (mem_bound hb)

theorem Good.detachInstance (h : Good generation σ) (provider : ℕ) :
    Good generation (σ.detachInstance provider) := by
  unfold Session.detachInstance
  split
  · exact Good.awaitCleanup (h.cleanupSession [] []) _ _
  · have hgrown := h.withGeneration (σ.sessionGeneration + 1) fun _ _ _ _ => Nat.le_succ _
    refine Good.awaitCleanup (hgrown.revoke _ _ fun binding hb => ?_) _ _
    rw [List.map_append]
    exact List.mem_append_left _ (mem_bound hb)

theorem Good.disposeAll (h : Good generation σ) : Good (generation + 1) σ.disposeAll := by
  have hgrown : Good (generation + 1) σ :=
    ⟨h.sound, h.bare, h.fresh, h.apart, h.pending,
      fun id call hc hp => ⟨Nat.le_succ_of_le (h.generations id call hc hp).1, (h.generations id call hc hp).2⟩,
      h.prepared, h.owned, h.waiting, h.bound, h.held⟩
  refine Good.awaitCleanup (hgrown.revoke _ _ fun binding hb => ?_) _ _
  rw [List.map_append]
  exact List.mem_append_left _ (mem_bound hb)

theorem Good.disposers_of_fulfilled (h : Good generation σ) {disposals : Disposals} {scope : ℕ}
    (hmem : scope ∈ fulfilled σ.scopes disposals) : (σ.scopes scope).disposers = [] := by
  obtain ⟨entry, hentry, rfl⟩ := List.mem_map.1 hmem
  exact (h.sound entry.1).disposers_of_outcome (of_decide_eq_true (List.mem_filter.1 hentry).2)

theorem Good.updateScope (h : Good generation σ) {id : ℕ} {scope : RuntimeScope} (hsound : scope.Sound)
    (hregistered : scope.registered = (σ.scopes id).registered)
    (hdisposers : (σ.scopes id).disposers = [] → scope.disposers = []) :
    Good generation { σ with scopes := update σ.scopes id scope } := by
  have hcases : ∀ other, (update σ.scopes id scope other).Sound ∧
      (update σ.scopes id scope other).registered = (σ.scopes other).registered ∧
      ((update σ.scopes id scope other).disposers ≠ [] → (σ.scopes other).disposers ≠ []) := by
    intro other
    by_cases hid : other = id
    · subst hid
      rw [update_self]
      exact ⟨hsound, hregistered, fun hne hnil => hne (hdisposers hnil)⟩
    · rw [update_of_ne hid]
      exact ⟨h.sound other, rfl, fun hne => hne⟩
  exact h.withScopes (fun other => (hcases other).1) (fun other => (hcases other).2.1) fun other => (hcases other).2.2

theorem Good.step (h : Good generation σ) {sessionId : String} {act : Act}
    (hs : σ.step sessionId generation act = some σ') : Good generation σ' := by
  have hsame : ∀ {call : ReplaceCall} {phase : ReplacePhase}, phase.isOwning = false → phase.isWaiting = false →
      SameCall call { call with phase := phase } := fun hphase hwaiting =>
    ⟨rfl, rfl, rfl, rfl, fun ho => absurd (hphase.symm.trans ho) Bool.false_ne_true, hwaiting⟩
  cases step_moves hs with
  | replaced providerId => exact h.replace providerId
  | prepared hcall hphase => exact h.prepare hcall (by rw [hphase]; rfl)
  | priorFailed hcall hphase => exact h.withCall hcall (hsame rfl rfl) (by rw [hphase]; rfl) (by rw [hphase]; rfl)
  | owned driver hcall hprep => exact h.own hcall (h.not_waiting hcall hprep) driver
  | @created id call driver hcall hphase =>
    obtain ⟨hsame, howned, -, -⟩ := own_call call driver σ
    have hown := h.own hcall (by rw [hphase]; rfl) driver
    exact hown.receive (update_self _ _ _) (hsame.trans hphase) howned sessionId driver _
  | createFailed hcall hphase => exact h.disposePreparation hcall (by rw [hphase]; rfl) _
  | resumed hcall hphase =>
    exact h.commit hcall (by rw [hphase]; rfl) (h.owned _ _ hcall (by rw [hphase]; rfl)) _
  | previousFailed hcall hphase => exact h.disposePreparation hcall (by rw [hphase]; rfl) _
  | disposed hcall hphase hretains =>
    have hretained := h.withRetained _ fun scope hmem _ => hretains.kept scope hmem
    exact hretained.withCall hcall (hsame rfl rfl) (by rw [hphase]; rfl) (by rw [hphase]; rfl)
  | rejected hcall hphase hretains =>
    have hretained := h.withRetained _ fun scope hmem _ => hretains.kept scope hmem
    exact hretained.complete hcall (by rw [hphase]; rfl) (hsame rfl rfl) rfl (.inl ⟨rfl, rfl⟩)
  | detached => exact h.detach
  | instanceDetached provider => exact h.detachInstance provider
  | tornDown dropsGeneration teardowns =>
    cases dropsGeneration with
    | true => exact h.dropGeneration.withJobs _ _ _ _ _
    | false => exact h.withJobs _ _ _ _ _
  | jobStarted jobs => exact (h.dispose σ.retainedScopes).withJobs _ _ _ _ _
  | jobFinished disposals jobs hkept =>
    have hretained := h.withRetained _ fun scope hmem hne => (hkept scope hmem).resolve_right fun hdone =>
      hne (h.disposers_of_fulfilled hdone)
    exact hretained.withJobs _ _ _ _ _
  | jobSettled inFlight jobs => exact h.withJobs _ _ _ _ _
  | disposerSettled hscope =>
    exact h.updateScope ((h.sound _).settle hscope) (RuntimeScope.settle_registered hscope)
      (RuntimeScope.settle_disposers (h.sound _) hscope)
  | released id => exact h.updateScope (h.sound id).release rfl fun hnil => hnil

end Wiii.NekoChill.Session
