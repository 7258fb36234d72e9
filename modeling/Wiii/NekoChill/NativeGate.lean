import Wiii.NekoChill.NativeRuns

/-!
# Starting a driver for a session

A prompt is sent to the runtime that is bound, or starts another one, unless the session's events block it.  `Lawful`
says that no driver is started while an agent session is uncertain, and that a session whose agent sessions are all
known to be over is let through.
-/

namespace Wiii.NekoChill

/-- A runtime that this process made; a preparation that failed has no agent session. -/
structure NativeRuntime where
  number : ℕ
  agentSessionId : Option String
  deriving DecidableEq

inductive StartPhase where
  | checked
  | cleaning
  | ready
  | creating
  | committed
  deriving DecidableEq

structure StartAttempt where
  phase : StartPhase
  /-- A retained runtime that the replacement recovers. -/
  previous : Option NativeRuntime
  deriving DecidableEq

structure NativeSession where
  events : List SessionFact := []
  disk : List SessionFact := []
  bound : Option NativeRuntime := none
  retained : List NativeRuntime := []
  attempt : Option StartAttempt := none
  instances : ℕ := 0
  /-- The drivers that were started. -/
  starts : ℕ := 0
  /-- The runtimes of this process, and those whose cleanup succeeded. -/
  owned : List NativeRuntime := []
  cleaned : List NativeRuntime := []
  deriving DecidableEq

inductive NativeAct where
  | send
  | replace
  /-- A cleanup of all that is retained, for the start that is under way or for another operation. -/
  | retry (failed : List ℕ) (forStart : Bool)
  | create
  | createFails (cleanupFails : Bool)
  | commit (agentSessionId : String)
  | attach
  | admissionFails
  | detach
  | recordUncertain (runtime : NativeRuntime)
  | recordResolved (runtime : NativeRuntime)
  | emitOther
  | save
  | restart (natives : List NativeReplay)

namespace NativeSession

def record (s : NativeSession) (fact : SessionFact) : NativeSession := { s with events := s.events ++ [fact] }

/-- `sendPromptToSession`, up to where it starts a driver. -/
def send (s : NativeSession) : NativeSession :=
  if s.attempt.isSome || s.bound.isSome then s
  else if s.retained.isEmpty && nativeRunBlocksRespawn s.events then s
  else { s with attempt := some ⟨.checked, none⟩ }

/-- `RuntimeRegistry.replace`, up to where it waits for the cleanup before it. -/
def replace (s : NativeSession) : NativeSession :=
  match s.attempt with
  | some ⟨.checked, _⟩ =>
    let previous := s.retained.find? fun runtime => runtime.agentSessionId.isSome
    { s with attempt := some ⟨if s.retained.isEmpty then .ready else .cleaning, previous⟩ }
  | _ => s

def retry (failed : List ℕ) (forStart : Bool) (s : NativeSession) : NativeSession :=
  let kept := s.retained.filter fun runtime => decide (runtime.number ∈ failed)
  { s with
    retained := kept
    cleaned := s.cleaned ++ s.retained.filter fun runtime => decide (runtime.number ∉ failed)
    attempt := match s.attempt with
      | some ⟨.cleaning, previous⟩ =>
        if !forStart then some ⟨.cleaning, previous⟩ else if kept.isEmpty then some ⟨.ready, previous⟩ else none
      | attempt => attempt }

def create (s : NativeSession) : NativeSession :=
  match s.attempt with
  | some ⟨.ready, previous⟩ => { s with attempt := some ⟨.creating, previous⟩, starts := s.starts + 1 }
  | _ => s

def createFails (cleanupFails : Bool) (s : NativeSession) : NativeSession :=
  match s.attempt with
  | some ⟨.creating, _⟩ =>
    if cleanupFails then { s with
      attempt := none
      instances := s.instances + 1
      owned := s.owned ++ [⟨s.instances, none⟩]
      retained := s.retained ++ [⟨s.instances, none⟩] }
    else { s with attempt := none }
  | _ => s

def commit (agentSessionId : String) (s : NativeSession) : NativeSession :=
  match s.attempt with
  | some ⟨.creating, previous⟩ => { s with
      attempt := some ⟨.committed, previous⟩
      instances := s.instances + 1
      owned := s.owned ++ [⟨s.instances, some agentSessionId⟩]
      bound := some ⟨s.instances, some agentSessionId⟩ }
  | _ => s

def attach (s : NativeSession) : NativeSession :=
  match s.attempt with
  | some ⟨.committed, previous⟩ => { s with
      attempt := none
      events := s.events ++ ((previous.bind NativeRuntime.agentSessionId).map SessionFact.cleanupResolved).toList ++
        [.attached] }
  | _ => s

def detach (s : NativeSession) : NativeSession :=
  match s.bound with
  | some runtime => { s with bound := none, retained := s.retained ++ [runtime] }
  | none => s

/-- The runtime was not admitted: it is detached again. -/
def admissionFails (s : NativeSession) : NativeSession :=
  match s.attempt with
  | some ⟨.committed, _⟩ => { s.detach with attempt := none }
  | _ => s

/-- The outcome of a cleanup may be recorded long after it. -/
def recordUncertain (runtime : NativeRuntime) (s : NativeSession) : NativeSession :=
  match runtime.agentSessionId with
  | some agentSessionId => if runtime ∈ s.owned then s.record (.cleanupUncertain agentSessionId) else s
  | none => s

def recordResolved (runtime : NativeRuntime) (s : NativeSession) : NativeSession :=
  match runtime.agentSessionId with
  | some agentSessionId => if runtime ∈ s.cleaned then s.record (.cleanupResolved agentSessionId) else s
  | none => s

/-- The process ends, and the next one reconciles what was saved with the native journal. -/
def restart (natives : List NativeReplay) (s : NativeSession) : NativeSession :=
  { events := reconcileSession s.disk natives, disk := reconcileSession s.disk natives, starts := s.starts }

def step (s : NativeSession) : NativeAct → NativeSession
  | .send => s.send
  | .replace => s.replace
  | .retry failed forStart => s.retry failed forStart
  | .create => s.create
  | .createFails cleanupFails => s.createFails cleanupFails
  | .commit agentSessionId => s.commit agentSessionId
  | .attach => s.attach
  | .admissionFails => s.admissionFails
  | .detach => s.detach
  | .recordUncertain runtime => s.recordUncertain runtime
  | .recordResolved runtime => s.recordResolved runtime
  | .emitOther => s.record .other
  | .save => { s with disk := s.events }
  | .restart natives => s.restart natives

def run (acts : List NativeAct) : NativeSession := acts.foldl step {}

/-! ## What a run keeps -/

variable {s : NativeSession} {act : NativeAct}

/-- Unsafe agent sessions were run by this process, or it has run none and starts none. -/
def Accounted (s : NativeSession) : Prop :=
  (∀ agentSessionId fact, latestFact s.events agentSessionId = some fact → fact.isUnsafe = true →
    ∃ runtime ∈ s.owned, runtime.agentSessionId = some agentSessionId) ∨ s.owned = [] ∧ s.attempt = none

structure Kept (s : NativeSession) : Prop where
  unbound : ∀ attempt, s.attempt = some attempt → attempt.phase ≠ .committed → s.bound = none
  clean : ∀ attempt, s.attempt = some attempt → attempt.phase = .ready ∨ attempt.phase = .creating → s.retained = []
  owned : ∀ runtime ∈ s.owned, runtime ∈ s.retained ∨ runtime ∈ s.cleaned ∨ s.bound = some runtime
  retained : ∀ runtime ∈ s.retained, runtime ∈ s.owned
  bound : ∀ runtime, s.bound = some runtime → runtime ∈ s.owned
  accounted : s.Accounted

theorem Accounted.of_safe {fact : SessionFact} (h : s.Accounted) (hattached : fact.isAttached = false)
    (hfact : fact.isUnsafe = true → ∃ runtime ∈ s.owned, runtime.agentSessionId = fact.agentSessionId) :
    (s.record fact).Accounted := by
  rcases h with h | h
  · refine .inl fun agentSessionId latest hlatest hopen => ?_
    have hlatest : latestFact (s.events ++ [fact]) agentSessionId = some latest := hlatest
    rw [latestFact_append hattached] at hlatest
    split at hlatest
    · rename_i heq
      cases hlatest
      rw [← heq]
      exact hfact hopen
    · exact h agentSessionId latest hlatest hopen
  · exact .inr h

theorem Kept.record {fact : SessionFact} (h : s.Kept) (hattached : fact.isAttached = false)
    (hfact : fact.isUnsafe = true → ∃ runtime ∈ s.owned, runtime.agentSessionId = fact.agentSessionId) :
    (s.record fact).Kept :=
  ⟨h.unbound, h.clean, h.owned, h.retained, h.bound, h.accounted.of_safe hattached hfact⟩

theorem Kept.send (h : s.Kept) : s.send.Kept := by
  unfold NativeSession.send
  split
  · exact h
  · rename_i hidle
    simp only [Bool.or_eq_true, not_or, Bool.not_eq_true, Option.isSome_eq_false_iff, Option.isNone_iff_eq_none]
      at hidle
    split
    · exact h
    · rename_i hgate
      refine ⟨fun _ _ _ => hidle.2, fun attempt hattempt hphase => ?_, h.owned, h.retained, h.bound, .inl ?_⟩
      · cases hattempt
        rcases hphase with hphase | hphase <;> cases hphase
      · rcases h.accounted with hall | ⟨howned, -⟩
        · exact hall
        · -- nothing was retained, so the events were asked
          have hretained : s.retained.isEmpty = true := by
            rw [List.isEmpty_iff, List.eq_nil_iff_forall_not_mem]
            intro runtime hmem
            have hmem := h.retained runtime hmem
            rw [howned] at hmem
            cases hmem
          rw [hretained, Bool.true_and] at hgate
          intro agentSessionId fact hlatest hopen
          exact absurd ((blocks_iff s.events).2 ⟨agentSessionId, fact, hlatest, hopen⟩) hgate

theorem Kept.replace (h : s.Kept) : s.replace.Kept := by
  unfold NativeSession.replace
  split
  · rename_i previous hattempt
    refine ⟨fun _ _ _ => h.unbound _ hattempt (fun heq => nomatch heq), fun attempt hnext hphase => ?_, h.owned,
      h.retained, h.bound, ?_⟩
    · cases hnext
      cases hempty : s.retained.isEmpty with
      | true => exact List.isEmpty_iff.1 hempty
      | false =>
        dsimp only at hphase
        rw [hempty] at hphase
        rcases hphase with hphase | hphase <;> cases hphase
    · rcases h.accounted with hall | ⟨-, hnone⟩
      · exact .inl hall
      · rw [hattempt] at hnone
        cases hnone
  · exact h

theorem Kept.retry (h : s.Kept) (failed : List ℕ) (forStart : Bool) : (s.retry failed forStart).Kept := by
  have hsplit : ∀ runtime ∈ s.retained, runtime ∈ (s.retry failed forStart).retained ∨
      runtime ∈ (s.retry failed forStart).cleaned := by
    intro runtime hmem
    by_cases hfailed : runtime.number ∈ failed
    · exact .inl (List.mem_filter.2 ⟨hmem, decide_eq_true hfailed⟩)
    · exact .inr (List.mem_append_right _ (List.mem_filter.2 ⟨hmem, decide_eq_true hfailed⟩))
  have hattempt : ∀ attempt, (s.retry failed forStart).attempt = some attempt →
      s.attempt = some attempt ∨ ∃ previous, s.attempt = some ⟨.cleaning, previous⟩ ∧
        attempt = ⟨.ready, previous⟩ ∧ (s.retry failed forStart).retained = [] := by
    intro attempt hnext
    unfold NativeSession.retry at hnext
    dsimp only at hnext
    split at hnext
    · rename_i previous hcleaning
      split at hnext
      · exact .inl (hcleaning.trans hnext)
      · split at hnext
        · rename_i hempty
          cases hnext
          exact .inr ⟨previous, hcleaning, rfl, List.isEmpty_iff.1 hempty⟩
        · cases hnext
    · exact .inl hnext
  refine ⟨fun attempt hnext hphase => ?_, fun attempt hnext hphase => ?_, fun runtime hmem => ?_,
    fun runtime hmem => h.retained runtime (List.mem_filter.1 hmem).1, h.bound, ?_⟩
  · rcases hattempt attempt hnext with hold | ⟨previous, hold, -, -⟩
    · exact h.unbound attempt hold hphase
    · exact h.unbound _ hold (fun heq => nomatch heq)
  · rcases hattempt attempt hnext with hold | ⟨_, _, _, hempty⟩
    · show s.retained.filter _ = []
      rw [h.clean attempt hold hphase]
      rfl
    · exact hempty
  · rcases h.owned runtime hmem with hretained | hcleaned | hbound
    · rcases hsplit runtime hretained with hkept | hcleaned
      · exact .inl hkept
      · exact .inr (.inl hcleaned)
    · exact .inr (.inl (List.mem_append_left _ hcleaned))
    · exact .inr (.inr hbound)
  · rcases h.accounted with hall | ⟨howned, hnone⟩
    · exact .inl hall
    · refine .inr ⟨howned, ?_⟩
      unfold NativeSession.retry
      dsimp only
      rw [hnone]

theorem Kept.create (h : s.Kept) : s.create.Kept := by
  unfold NativeSession.create
  split
  · rename_i previous hattempt
    refine ⟨fun _ _ _ => h.unbound _ hattempt (fun heq => nomatch heq), fun _ _ _ => h.clean _ hattempt (.inl rfl),
      h.owned, h.retained, h.bound, ?_⟩
    rcases h.accounted with hall | ⟨-, hnone⟩
    · exact .inl hall
    · rw [hattempt] at hnone
      cases hnone
  · exact h

theorem Accounted.mono {t : NativeSession} (h : s.Accounted) (hattempt : s.attempt.isSome = true)
    (hevents : t.events = s.events) (howned : ∀ runtime ∈ s.owned, runtime ∈ t.owned) : t.Accounted := by
  rcases h with hall | ⟨-, hnone⟩
  · refine .inl fun agentSessionId fact hlatest hopen => ?_
    rw [hevents] at hlatest
    obtain ⟨runtime, hmem, hagent⟩ := hall agentSessionId fact hlatest hopen
    exact ⟨runtime, howned runtime hmem, hagent⟩
  · rw [hnone] at hattempt
    cases hattempt

theorem Kept.createFails (h : s.Kept) (cleanupFails : Bool) : (s.createFails cleanupFails).Kept := by
  unfold NativeSession.createFails
  split
  · rename_i previous hattempt
    have hsome : s.attempt.isSome = true := by
      rw [hattempt]
      rfl
    split
    · refine ⟨fun _ hnext => (nomatch hnext), fun _ hnext => (nomatch hnext), fun runtime hmem => ?_,
        fun runtime hmem => ?_, fun runtime hbound => List.mem_append_left _ (h.bound runtime hbound),
        h.accounted.mono hsome rfl fun runtime hmem => List.mem_append_left _ hmem⟩
      · rcases List.mem_append.1 hmem with hmem | hmem
        · rcases h.owned runtime hmem with hretained | hrest
          · exact .inl (List.mem_append_left _ hretained)
          · exact .inr hrest
        · exact .inl (List.mem_append_right _ hmem)
      · rcases List.mem_append.1 hmem with hmem | hmem
        · exact List.mem_append_left _ (h.retained runtime hmem)
        · exact List.mem_append_right _ hmem
    · exact ⟨fun _ hnext => (nomatch hnext), fun _ hnext => (nomatch hnext), h.owned, h.retained, h.bound,
        h.accounted.mono hsome rfl fun _ hmem => hmem⟩
  · exact h

theorem Kept.commit (h : s.Kept) (agentSessionId : String) : (s.commit agentSessionId).Kept := by
  unfold NativeSession.commit
  split
  · rename_i previous hattempt
    have hsome : s.attempt.isSome = true := by
      rw [hattempt]
      rfl
    have hunbound : s.bound = none := h.unbound _ hattempt (fun heq => nomatch heq)
    refine ⟨fun attempt hnext hphase => ?_, fun attempt hnext hphase => ?_, fun runtime hmem => ?_,
      fun runtime hmem => List.mem_append_left _ (h.retained runtime hmem), fun runtime hbound => ?_,
      h.accounted.mono hsome rfl fun runtime hmem => List.mem_append_left _ hmem⟩
    · cases hnext
      exact absurd rfl hphase
    · cases hnext
      rcases hphase with hphase | hphase <;> cases hphase
    · rcases List.mem_append.1 hmem with hmem | hmem
      · rcases h.owned runtime hmem with hretained | hcleaned | hbound
        · exact .inl hretained
        · exact .inr (.inl hcleaned)
        · rw [hunbound] at hbound
          cases hbound
      · rw [List.mem_singleton.1 hmem]
        exact .inr (.inr rfl)
    · cases hbound
      exact List.mem_append_right _ (List.mem_singleton_self _)
  · exact h

theorem Kept.attach (h : s.Kept) : s.attach.Kept := by
  unfold NativeSession.attach
  split
  · refine ⟨fun _ hnext => (nomatch hnext), fun _ hnext => (nomatch hnext), h.owned, h.retained, h.bound,
      .inl fun agentSessionId fact hlatest => ?_⟩
    dsimp only at hlatest
    rw [latestFact_attached] at hlatest
    cases hlatest
  · exact h

theorem Accounted.detach (h : s.Accounted) : s.detach.Accounted := by
  unfold NativeSession.detach
  split
  · exact h
  · exact h

theorem Kept.detach (h : s.Kept) : s.detach.Kept := by
  refine ⟨?_, ?_, ?_, ?_, ?_, h.accounted.detach⟩ <;> unfold NativeSession.detach <;> split
  · exact fun _ _ _ => rfl
  · exact h.unbound
  · rename_i runtime hbound
    intro attempt hattempt hphase
    have hunbound : s.bound = none := by
      apply h.unbound attempt hattempt
      intro heq
      rw [heq] at hphase
      rcases hphase with hphase | hphase <;> cases hphase
    rw [hunbound] at hbound
    cases hbound
  · exact h.clean
  · rename_i runtime hbound
    intro other hmem
    rcases h.owned other hmem with hretained | hcleaned | hother
    · exact .inl (List.mem_append_left _ hretained)
    · exact .inr (.inl hcleaned)
    · rw [hbound] at hother
      cases hother
      exact .inl (List.mem_append_right _ (List.mem_singleton_self _))
  · exact h.owned
  · rename_i runtime hbound
    intro other hmem
    rcases List.mem_append.1 hmem with hmem | hmem
    · exact h.retained other hmem
    · rw [List.mem_singleton.1 hmem]
      exact h.bound runtime hbound
  · exact h.retained
  · exact fun _ hbound => (nomatch hbound)
  · exact h.bound

theorem Kept.admissionFails (h : s.Kept) : s.admissionFails.Kept := by
  unfold NativeSession.admissionFails
  split
  · rename_i previous hattempt
    refine ⟨fun _ hnext => (nomatch hnext), fun _ hnext => (nomatch hnext), h.detach.owned, h.detach.retained,
      h.detach.bound, ?_⟩
    rcases h.accounted.detach with hall | ⟨howned, -⟩
    · exact .inl hall
    · exact .inr ⟨howned, rfl⟩
  · exact h

theorem Kept.recordUncertain (h : s.Kept) (runtime : NativeRuntime) : (s.recordUncertain runtime).Kept := by
  unfold NativeSession.recordUncertain
  split
  · rename_i agentSessionId hagent
    split
    · rename_i hmem
      exact h.record rfl fun _ => ⟨runtime, hmem, hagent⟩
    · exact h
  · exact h

theorem Kept.recordResolved (h : s.Kept) (runtime : NativeRuntime) : (s.recordResolved runtime).Kept := by
  unfold NativeSession.recordResolved
  split
  · split
    · exact h.record rfl fun hopen => nomatch hopen
    · exact h
  · exact h

theorem kept_initial : Kept {} :=
  ⟨fun _ hnext => (nomatch hnext), fun _ hnext => (nomatch hnext), fun _ hmem => (nomatch hmem),
    fun _ hmem => (nomatch hmem), fun _ hbound => (nomatch hbound), .inr ⟨rfl, rfl⟩⟩

theorem Kept.restart (natives : List NativeReplay) (s : NativeSession) : (s.restart natives).Kept :=
  ⟨kept_initial.unbound, kept_initial.clean, kept_initial.owned, kept_initial.retained, kept_initial.bound,
    .inr ⟨rfl, rfl⟩⟩

theorem Kept.step (h : s.Kept) (act : NativeAct) : (s.step act).Kept := by
  cases act with
  | send => exact h.send
  | replace => exact h.replace
  | retry failed forStart => exact h.retry failed forStart
  | create => exact h.create
  | createFails cleanupFails => exact h.createFails cleanupFails
  | commit agentSessionId => exact h.commit agentSessionId
  | attach => exact h.attach
  | admissionFails => exact h.admissionFails
  | detach => exact h.detach
  | recordUncertain runtime => exact h.recordUncertain runtime
  | recordResolved runtime => exact h.recordResolved runtime
  | emitOther => exact h.record rfl fun hopen => nomatch hopen
  | save => exact ⟨h.unbound, h.clean, h.owned, h.retained, h.bound, h.accounted⟩
  | restart natives => exact Kept.restart natives s

theorem kept_run (acts : List NativeAct) : (run acts).Kept := by
  unfold run
  rw [← List.foldr_reverse]
  induction acts.reverse with
  | nil => exact kept_initial
  | cons act rest ih => exact ih.step act

/-! ## Starts -/

def Uncertain (s : NativeSession) : Prop :=
  ∃ agentSessionId fact, latestFact s.events agentSessionId = some fact ∧ fact.isUnsafe = true

structure Lawful (s : NativeSession) : Prop where
  /-- An agent session that is uncertain was run by this process, and the cleanup of its runtimes succeeded. -/
  starts : ∀ act, (s.step act).starts ≠ s.starts → ∀ agentSessionId fact,
    latestFact s.events agentSessionId = some fact → fact.isUnsafe = true →
      (∃ runtime ∈ s.owned, runtime.agentSessionId = some agentSessionId) ∧
        ∀ runtime ∈ s.owned, runtime.agentSessionId = some agentSessionId → runtime ∈ s.cleaned
  /-- A prompt starts nothing over an uncertain agent session that no cleanup can still resolve. -/
  refused : s.bound = none → s.retained = [] → s.Uncertain → s.send = s
  /-- A session whose agent sessions are all known to be over is let through. -/
  admitted : s.attempt = none → s.bound = none → ¬ s.Uncertain → s.send.attempt = some ⟨.checked, none⟩

theorem starts_eq_of_not_create (s : NativeSession) (hact : act ≠ .create) : (s.step act).starts = s.starts := by
  cases act with
  | create => exact absurd rfl hact
  | send =>
    show s.send.starts = s.starts
    unfold NativeSession.send
    split
    · rfl
    · split <;> rfl
  | replace =>
    show s.replace.starts = s.starts
    unfold NativeSession.replace
    split <;> rfl
  | createFails cleanupFails =>
    show (s.createFails cleanupFails).starts = s.starts
    unfold NativeSession.createFails
    split
    · split <;> rfl
    · rfl
  | commit agentSessionId =>
    show (s.commit agentSessionId).starts = s.starts
    unfold NativeSession.commit
    split <;> rfl
  | attach =>
    show s.attach.starts = s.starts
    unfold NativeSession.attach
    split <;> rfl
  | admissionFails =>
    show s.admissionFails.starts = s.starts
    unfold NativeSession.admissionFails NativeSession.detach
    split
    · dsimp only
      split <;> rfl
    · rfl
  | detach =>
    show s.detach.starts = s.starts
    unfold NativeSession.detach
    split <;> rfl
  | recordUncertain runtime =>
    show (s.recordUncertain runtime).starts = s.starts
    unfold NativeSession.recordUncertain
    split
    · split <;> rfl
    · rfl
  | recordResolved runtime =>
    show (s.recordResolved runtime).starts = s.starts
    unfold NativeSession.recordResolved
    split
    · split <;> rfl
    · rfl
  | _ => rfl

theorem create_starts (h : s.create.starts ≠ s.starts) : ∃ previous, s.attempt = some ⟨.ready, previous⟩ := by
  unfold NativeSession.create at h
  split at h
  · rename_i previous hattempt
    exact ⟨previous, hattempt⟩
  · exact absurd rfl h

theorem Kept.starts (h : s.Kept) (hstarts : (s.step act).starts ≠ s.starts) {agentSessionId : String}
    {fact : SessionFact} (hlatest : latestFact s.events agentSessionId = some fact) (hopen : fact.isUnsafe = true) :
    (∃ runtime ∈ s.owned, runtime.agentSessionId = some agentSessionId) ∧
      ∀ runtime ∈ s.owned, runtime.agentSessionId = some agentSessionId → runtime ∈ s.cleaned := by
  by_cases hact : act = .create
  · subst hact
    obtain ⟨previous, hattempt⟩ := create_starts hstarts
    constructor
    · rcases h.accounted with hall | ⟨-, hnone⟩
      · exact hall agentSessionId fact hlatest hopen
      · rw [hattempt] at hnone
        cases hnone
    · intro runtime hmem _
      rcases h.owned runtime hmem with hretained | hcleaned | hbound
      · rw [h.clean _ hattempt (.inl rfl)] at hretained
        cases hretained
      · exact hcleaned
      · rw [h.unbound _ hattempt (fun heq => nomatch heq)] at hbound
        cases hbound
  · exact absurd (starts_eq_of_not_create s hact) hstarts

/-- No driver is started over an uncertain native run, in whatever order the session's steps come. -/
theorem lawful_run (acts : List NativeAct) : (run acts).Lawful := by
  refine ⟨fun act hstarts agentSessionId fact hlatest hopen =>
    (kept_run acts).starts hstarts hlatest hopen, fun hbound hretained huncertain => ?_,
    fun hidle hbound hcertain => ?_⟩
  · have hblocks := (blocks_iff (run acts).events).2 huncertain
    unfold NativeSession.send
    rw [hretained, hblocks]
    split <;> rfl
  · have hblocks : nativeRunBlocksRespawn (run acts).events = false :=
      Bool.eq_false_iff.2 fun h => hcertain ((blocks_iff (run acts).events).1 h)
    unfold NativeSession.send
    rw [hidle, hbound, hblocks, Bool.and_false]
    rfl

end NativeSession

end Wiii.NekoChill
