import Mathlib.Tactic.Common

/-!
# Sending a prompt to a session

`sendPromptToSession` sets the status of a session before most of its awaits, so each of its exits has to leave a status
that the session can go on from.  The call is cut at its awaits; where it gives way, the session may be closed or
deleted, its runtime revoked, swept, or exit.  More interleavings are possible than in the source.
-/

namespace Wiii.NekoChill

inductive NekoSessionStatus where
  | connecting
  | stopping
  | dispatching
  | idle
  | streaming
  | exited
  | error
  deriving DecidableEq

/-- What is looked at of the task of a session. -/
inductive ScopeState where
  | invalid
  | pendingNew
  | pendingLoad
  | bound
  | recoveryRequired
  deriving DecidableEq

/-- `retainTaskAdmissionFailure`: a task that is known needs recovery. -/
def ScopeState.retained : ScopeState → ScopeState
  | invalid => invalid
  | _ => recoveryRequired

/-- How far a close, or the end of the mode, has got. -/
inductive Closing where
  | none
  | running
  | ended
  deriving DecidableEq

inductive SendPhase where
  | settled
  /-- For the intent to load the task to be saved. -/
  | persistingIntent
  | detecting
  | replacing
  | admitting (instanceId : ℕ)
  /-- For a runtime that is not admitted to be detached. -/
  | detaching
  /-- For the failed start to be saved. -/
  | reporting
  /-- For knowledge. -/
  | retrieving (instanceId : ℕ)
  | persisting (instanceId : ℕ)
  /-- For the marker of the invocation to be saved. -/
  | marking (instanceId : ℕ)
  /-- For the runtime that is revoked as the marker was not saved; whether there is one. -/
  | revoking (found : Bool)
  | savingRevocation
  | invoking (instanceId : ℕ)
  | rollingBack
  deriving DecidableEq

structure SendingSession where
  present : Bool := true
  status : NekoSessionStatus := .idle
  /-- A control, a permission request or its answer is pending. -/
  locked : Bool := false
  closing : Closing := .none
  deletePending : Bool := false
  workspace : Bool := true
  taskScope : Option ScopeState := none
  /-- The instance that the registry has for the session. -/
  runtime : Option ℕ := none
  /-- Another operation revokes the runtime, or the sweep of idle sessions detaches it. -/
  revoking : Bool := false
  sweeping : Bool := false
  call : SendPhase := .settled
  deriving DecidableEq

inductive RuntimeEvent where
  | turnStarted
  | turnFinished
  | fatalError
  | processExited
  deriving DecidableEq

inductive SendAct where
  /-- The call; `blocked` says that an earlier native run blocks a new one. -/
  | send (blocked : Bool)
  | intentPersisted (ok : Bool)
  | detected (available : Bool)
  | prepared (instanceId : ℕ)
  | preparationFailed
  /-- The admission is confirmed or not; then the events that came before are handled. -/
  | admitted (ok : Bool) (events : List RuntimeEvent)
  | detached
  | reported
  /-- `stillAuthorized` is absent or returns true, or it returns false. -/
  | retrieved (authorized : Bool)
  /-- The prompt is saved or not; the runtime can prompt; `onAccepted` returns. -/
  | persisted (ok capable accepted : Bool)
  | marked (ok found : Bool)
  | revoked (cleanupFailed : Bool)
  | revocationSaved (ok : Bool)
  | invocationSettled (ok : Bool)
  | rolledBack (ok : Bool)
  | closeSession
  /-- A close that an earlier native run blocks. -/
  | blockClose
  | exitMode
  | closeDetached
  | endClose (failed : Bool)
  | releaseClose
  | deleteSession
  | deleteDetached
  | failDelete
  | endDelete
  | beginRevocation
  | endRevocation (cleanupFailed : Bool)
  | beginSweep
  | endSweep (cleanupFailed : Bool)
  | event (event : RuntimeEvent)
  | lock (locked : Bool)
  | scope (state : ScopeState)
  /-- Another operation could not save the session. -/
  | saveFailed
  deriving DecidableEq

namespace SendingSession

/-! ## Parts of the steps -/

def scopeFailed (s : SendingSession) : Bool :=
  decide (s.taskScope = some .invalid) || decide (s.taskScope = some .recoveryRequired)

/-- `persistSessionNowOrReport`, up to where it waits. -/
def report (s : SendingSession) : SendingSession := if s.scopeFailed then { s with status := .error } else s

/-- What a failed write of an operation does that must not fail. -/
def failFatally (s : SendingSession) : SendingSession :=
  if decide (s.status = .stopping) || decide (s.status = .exited) then s else { s with status := .error }

def detach (s : SendingSession) : SendingSession := { s with runtime := none }

def handleEvent (s : SendingSession) : RuntimeEvent → SendingSession
  | .turnStarted => { s with status := .streaming }
  | .turnFinished => { s with status := .idle }
  | .fatalError => { s with status := .error }
  | .processExited => { s with status := .exited, runtime := none }

def cleanedUp (cleanupFailed : Bool) : NekoSessionStatus := if cleanupFailed then .error else .exited

/-- From one status to another, and from no other. -/
def exchange (old new : NekoSessionStatus) (s : SendingSession) : SendingSession :=
  if s.status = old then { s with status := new } else s

def settle (s : SendingSession) : SendingSession := { s with call := .settled }

def attachFailed (s : SendingSession) : SendingSession :=
  let s := { s with taskScope := s.taskScope.map ScopeState.retained }
  { (s.exchange .connecting .error).report with call := .reporting }

/-! ## Steps of the call -/

def refuses (s : SendingSession) : Bool :=
  !s.present || (decide (s.status ≠ .idle) && decide (s.status ≠ .exited)) || s.locked ||
    decide (s.closing ≠ .none) || s.deletePending

def scopeUnsafe (s : SendingSession) : Bool :=
  match s.taskScope with
  | none => false
  | some state => decide (state = .invalid) || decide (state = .recoveryRequired) || decide (state = .pendingNew) ||
      (s.runtime.isSome && decide (state ≠ .bound))

def send (blocked : Bool) (s : SendingSession) : SendingSession :=
  if s.refuses then s
  else if s.scopeUnsafe then { s with status := .error }
  else if s.runtime.isNone && blocked then { s with status := .error }
  else if !s.workspace then s
  else match s.runtime, s.taskScope with
    | some instanceId, _ => { s with status := .dispatching, call := .retrieving instanceId }
    | none, some _ => { s with taskScope := some .pendingLoad, status := .connecting, call := .persistingIntent }
    | none, none => { s with status := .connecting, call := .detecting }

def intentPersisted (ok : Bool) (s : SendingSession) : SendingSession :=
  if !ok then
    { s with
      taskScope := s.taskScope.map ScopeState.retained
      status := .error }.settle
  else if decide (s.closing ≠ .none) || s.deletePending || decide (s.status ≠ .connecting) then s.settle
  else { s with call := .detecting }

def detected (available : Bool) (s : SendingSession) : SendingSession :=
  if !available then (s.exchange .connecting .error).settle
  else if s.status ≠ .connecting then s.settle
  else { s with call := .replacing }

def admitted (instanceId : ℕ) (ok : Bool) (events : List RuntimeEvent) (s : SendingSession) : SendingSession :=
  if ok || s.taskScope.isNone then
    let replayed := events.foldl (fun t event => if t.runtime = some instanceId then t.handleEvent event else t)
      { s with status := .idle }
    { replayed with status := .dispatching, call := .retrieving instanceId }
  else { if s.runtime = some instanceId then s.detach else s with call := .detaching }

/-- The check of the authority leaves the status that the call has set. -/
def retrieved (instanceId : ℕ) (authorized : Bool) (s : SendingSession) : SendingSession :=
  if !authorized then s.settle
  else { s with status := .dispatching, call := .persisting instanceId }

def persisted (instanceId : ℕ) (ok capable accepted : Bool) (s : SendingSession) : SendingSession :=
  if !ok then (s.exchange .dispatching .idle).settle
  else if decide (s.runtime ≠ some instanceId) || !capable then
    { (s.exchange .dispatching .idle).report with call := .rollingBack }
  else if !accepted then (s.exchange .dispatching .error).settle
  else { s.report with call := .marking instanceId }

def marked (instanceId : ℕ) (ok found : Bool) (s : SendingSession) : SendingSession :=
  if ok then { s with call := .invoking instanceId }
  else if s.runtime = some instanceId then { s.detach with call := .revoking true }
  else { s with call := .revoking found }

def revoked (found cleanupFailed : Bool) (s : SendingSession) : SendingSession :=
  let s := if found && decide (s.status ≠ .stopping) then { s with status := cleanedUp cleanupFailed } else s
  { s.report with call := .savingRevocation }

/-- A step of the call; one that the call does not wait for leaves everything as it is. -/
def callStep (s : SendingSession) : SendAct → SendingSession
  | .send blocked => if s.call = .settled then s.send blocked else s
  | .intentPersisted ok => if s.call = .persistingIntent then s.intentPersisted ok else s
  | .detected available => if s.call = .detecting then s.detected available else s
  | .prepared instanceId =>
    if s.call = .replacing then { s with runtime := some instanceId, call := .admitting instanceId } else s
  | .preparationFailed => if s.call = .replacing then s.attachFailed else s
  | .admitted ok events => match s.call with
    | .admitting instanceId => s.admitted instanceId ok events
    | _ => s
  | .detached => if s.call = .detaching then s.attachFailed else s
  | .reported => if s.call = .reporting then s.settle else s
  | .retrieved authorized => match s.call with
    | .retrieving instanceId => s.retrieved instanceId authorized
    | _ => s
  | .persisted ok capable accepted => match s.call with
    | .persisting instanceId => s.persisted instanceId ok capable accepted
    | _ => s
  | .marked ok found => match s.call with
    | .marking instanceId => s.marked instanceId ok found
    | _ => s
  | .revoked cleanupFailed => match s.call with
    | .revoking found => s.revoked found cleanupFailed
    | _ => s
  | .revocationSaved ok =>
    if s.call = .savingRevocation then (if ok then s else s.failFatally).settle else s
  | .invocationSettled ok => match s.call with
    | .invoking _ => (s.exchange .dispatching (if ok then .idle else .error)).settle
    | _ => s
  | .rolledBack ok => if s.call = .rollingBack then (if ok then s else s.failFatally).settle else s
  | _ => s

/-! ## Steps of other operations -/

/-- Events of a runtime are kept back until it is admitted. -/
def eventsFlow (s : SendingSession) : Bool :=
  s.runtime.isSome && match s.call with
    | .admitting _ => false
    | _ => true

def otherStep (s : SendingSession) : SendAct → SendingSession
  | .closeSession =>
    if s.deletePending || decide (s.closing ≠ .none) then s else { s with closing := .running, status := .stopping }
  | .blockClose => if s.runtime.isNone && !s.deletePending then { s with status := .error } else s
  | .exitMode => if s.deletePending then s else { s with closing := .running, status := .stopping }
  | .closeDetached => if s.closing = .running then s.detach else s
  -- a close waits for the operations of the session before it sets the status
  | .endClose failed =>
    if s.closing = .running ∧ s.call = .settled then { s with closing := .ended, status := cleanedUp failed } else s
  | .releaseClose => if s.closing = .ended then { s with closing := .none } else s
  | .deleteSession => if s.deletePending then s else { s with deletePending := true, status := .stopping }
  | .deleteDetached => if s.deletePending then s.detach else s
  | .failDelete => if s.deletePending then { s with deletePending := false, status := .error } else s
  | .endDelete => if s.deletePending ∧ s.call = .settled then { s with present := false } else s
  | .beginRevocation => if s.runtime.isSome && !s.revoking then { s.detach with revoking := true } else s
  | .endRevocation cleanupFailed =>
    if !s.revoking then s
    else if s.status = .stopping then { s with revoking := false }
    else { s with revoking := false, status := cleanedUp cleanupFailed }
  | .beginSweep =>
    if s.runtime.isSome && !s.sweeping && decide (s.status = .idle) then
      { s.detach with sweeping := true, status := .connecting }
    else s
  | .endSweep cleanupFailed =>
    if s.sweeping then { s.exchange .connecting (cleanedUp cleanupFailed) with sweeping := false } else s
  | .event event => if s.eventsFlow then s.handleEvent event else s
  | .lock locked => { s with locked := locked }
  | .scope state => if s.taskScope.isSome then { s with taskScope := some state } else s
  | .saveFailed => s.failFatally
  | _ => s

def step (s : SendingSession) (act : SendAct) : SendingSession := (s.callStep act).otherStep act

def run (s : SendingSession) (acts : List SendAct) : SendingSession := acts.foldl step s

/-! ## Who settles a status -/

/-- A close, a deletion or a revocation runs. -/
def Busy (s : SendingSession) : Prop := s.closing = .running ∨ s.deletePending = true ∨ s.revoking = true

/-- If the status is one of those, another operation is in progress that sets it. -/
def OthersSettle (s : SendingSession) : Prop :=
  (s.status = .connecting → s.sweeping = true ∨ s.Busy) ∧ (s.status = .dispatching → s.Busy)

def Connects (s : SendingSession) : Prop :=
  match s.call with
  | .persistingIntent | .detecting | .replacing | .admitting _ | .detaching => True
  | _ => False

/-- The call waits in its turn, and will set the status. -/
def Dispatches (s : SendingSession) : Prop :=
  match s.call with
  | .retrieving _ | .persisting _ | .invoking _ | .revoking true => True
  | .marking instanceId => s.runtime = some instanceId
  | _ => False

/-- If the status is one of those, the call or another operation will set it. -/
structure Ok (s : SendingSession) : Prop where
  connecting : s.status = .connecting → s.Connects ∨ s.sweeping = true ∨ s.Busy
  dispatching : s.status = .dispatching → s.Dispatches ∨ s.Busy
  ended : s.closing = .ended → s.call = .settled

theorem ok_of_status {s : SendingSession} (status : NekoSessionStatus) (hs : s.status = status)
    (hne : status ≠ .connecting ∧ status ≠ .dispatching) (hended : s.closing = .ended → s.call = .settled) : s.Ok := by
  subst hs
  exact ⟨fun hstatus => absurd hstatus hne.1, fun hstatus => absurd hstatus hne.2, hended⟩

theorem cleanedUp_ne (cleanupFailed : Bool) :
    cleanedUp cleanupFailed ≠ .connecting ∧ cleanedUp cleanupFailed ≠ .dispatching := by
  cases cleanupFailed <;> decide

namespace Ok

variable {s : SendingSession}

theorem othersSettle (h : s.Ok) (hcall : s.call = .settled) : s.OthersSettle := by
  refine ⟨fun hstatus => ?_, fun hstatus => ?_⟩
  · rcases h.connecting hstatus with hconnects | hothers
    · simp [Connects, hcall] at hconnects
    · exact hothers
  · rcases h.dispatching hstatus with hdispatches | hbusy
    · simp [Dispatches, hcall] at hdispatches
    · exact hbusy

end Ok

/-! ## What others settle -/

section

variable {s : SendingSession}

theorem othersSettle_of_status (status : NekoSessionStatus) (hs : s.status = status)
    (hne : status ≠ .connecting ∧ status ≠ .dispatching) : s.OthersSettle := by
  subst hs
  exact ⟨fun hstatus => absurd hstatus hne.1, fun hstatus => absurd hstatus hne.2⟩

theorem OthersSettle.report (h : s.OthersSettle) : s.report.OthersSettle := by
  unfold SendingSession.report
  split
  · exact othersSettle_of_status .error rfl (by decide)
  · exact h

theorem OthersSettle.failFatally (h : s.OthersSettle) : s.failFatally.OthersSettle := by
  unfold SendingSession.failFatally
  split
  · exact h
  · exact othersSettle_of_status .error rfl (by decide)

theorem OthersSettle.ok (h : s.OthersSettle) (call : SendPhase) (hended : s.closing = .ended → call = .settled) :
    Ok { s with call } :=
  ⟨fun hstatus => .inr (h.1 hstatus), fun hstatus => .inr (h.2 hstatus), hended⟩

theorem Ok.exchange_connecting (h : s.Ok) (hnot : ¬ s.Dispatches) : (s.exchange .connecting .error).OthersSettle := by
  unfold exchange
  split
  · exact othersSettle_of_status .error rfl (by decide)
  next hne => exact ⟨fun hstatus => absurd hstatus hne, fun hstatus => (h.dispatching hstatus).resolve_left hnot⟩

theorem Ok.exchange_dispatching (h : s.Ok) (hnot : ¬ s.Connects) (status : NekoSessionStatus)
    (hne : status ≠ .connecting ∧ status ≠ .dispatching) : (s.exchange .dispatching status).OthersSettle := by
  unfold exchange
  split
  · exact othersSettle_of_status status rfl hne
  next hstatus => exact ⟨fun hs => (h.connecting hs).resolve_left hnot, fun hs => absurd hs hstatus⟩

theorem Ok.not_ended (h : s.Ok) (hcall : s.call ≠ .settled) : s.closing ≠ .ended := fun hended => hcall (h.ended hended)

theorem closing_exchange (old new : NekoSessionStatus) : (s.exchange old new).closing = s.closing := by
  unfold exchange
  split <;> rfl

theorem closing_report : s.report.closing = s.closing := by
  unfold report
  split <;> rfl

end

/-! ## Steps of the call -/

namespace Ok

variable {s : SendingSession}

theorem send (h : s.Ok) (hcall : s.call = .settled) (blocked : Bool) : (s.send blocked).Ok := by
  unfold SendingSession.send
  split
  · exact h
  next hrefuses =>
    have hended : s.closing ≠ .ended := by
      simp only [refuses, Bool.or_eq_true, not_or, decide_eq_true_eq, not_not] at hrefuses
      rw [hrefuses.1.2]
      decide
    split
    · exact ok_of_status .error rfl (by decide) fun _ => hcall
    · split
      · exact ok_of_status .error rfl (by decide) fun _ => hcall
      · split
        · exact h
        · split
          · exact ⟨fun hstatus => (nomatch hstatus), fun _ => .inl trivial, fun hend => absurd hend hended⟩
          · exact ⟨fun _ => .inl trivial, fun hstatus => (nomatch hstatus), fun hend => absurd hend hended⟩
          · exact ⟨fun _ => .inl trivial, fun hstatus => (nomatch hstatus), fun hend => absurd hend hended⟩

theorem intentPersisted (h : s.Ok) (hcall : s.call = .persistingIntent) (ok : Bool) : (s.intentPersisted ok).Ok := by
  have hended := h.not_ended (by rw [hcall]; decide)
  have hnot : ¬ s.Dispatches := by simp [Dispatches, hcall]
  unfold SendingSession.intentPersisted
  split
  · exact ok_of_status .error rfl (by decide) fun _ => rfl
  · split
    next hleaves =>
      -- the session is closed or deleted, or its status is another operation's
      have hothers : s.OthersSettle := by
        refine ⟨fun hstatus => .inr ?_, fun hstatus => (h.dispatching hstatus).resolve_left hnot⟩
        simp only [hstatus, ne_eq, not_true, decide_false, Bool.or_false, Bool.or_eq_true, decide_eq_true_eq]
          at hleaves
        rcases hleaves with hclosing | hdelete
        · cases hrunning : s.closing with
          | none => exact absurd hrunning hclosing
          | running => exact .inl hrunning
          | ended => exact absurd hrunning hended
        · exact .inr (.inl hdelete)
      exact hothers.ok .settled fun _ => rfl
    · exact ⟨fun _ => .inl trivial, fun hstatus => .inr ((h.dispatching hstatus).resolve_left hnot),
        fun hend => absurd hend hended⟩

theorem detected (h : s.Ok) (hcall : s.call = .detecting) (available : Bool) : (s.detected available).Ok := by
  have hended := h.not_ended (by rw [hcall]; decide)
  have hnot : ¬ s.Dispatches := by simp [Dispatches, hcall]
  unfold SendingSession.detected
  split
  · exact (h.exchange_connecting hnot).ok .settled fun _ => rfl
  · split
    next hne =>
      have hothers : s.OthersSettle :=
        ⟨fun hstatus => absurd hstatus hne, fun hstatus => (h.dispatching hstatus).resolve_left hnot⟩
      exact hothers.ok .settled fun _ => rfl
    · exact ⟨fun _ => .inl trivial, fun hstatus => .inr ((h.dispatching hstatus).resolve_left hnot),
        fun hend => absurd hend hended⟩

theorem attachFailed (h : s.Ok) (hnot : ¬ s.Dispatches) (hcall : s.call ≠ .settled) : s.attachFailed.Ok := by
  have hended := h.not_ended hcall
  have hscope : Ok { s with taskScope := s.taskScope.map ScopeState.retained } :=
    ⟨h.connecting, h.dispatching, h.ended⟩
  unfold SendingSession.attachFailed
  refine (hscope.exchange_connecting hnot).report.ok .reporting fun hend => ?_
  rw [closing_report, closing_exchange] at hend
  exact absurd hend hended

theorem admitted (h : s.Ok) {instanceId : ℕ} (hcall : s.call = .admitting instanceId) (ok : Bool)
    (events : List RuntimeEvent) : (s.admitted instanceId ok events).Ok := by
  have hended := h.not_ended (by rw [hcall]; exact fun heq => (nomatch heq))
  have hnot : ¬ s.Dispatches := by simp [Dispatches, hcall]
  unfold SendingSession.admitted
  split
  · refine ⟨fun hstatus => (nomatch hstatus), fun _ => .inl trivial, fun hend => ?_⟩
    have hclosing : ∀ (events : List RuntimeEvent) (t : SendingSession),
        (events.foldl (fun t event => if t.runtime = some instanceId then t.handleEvent event else t) t).closing =
          t.closing := by
      intro events
      induction events with
      | nil => exact fun t => rfl
      | cons event events ih =>
        intro t
        rw [List.foldl_cons, ih]
        split
        · cases event <;> rfl
        · rfl
    exact absurd ((hclosing events { s with status := .idle }).symm.trans hend) hended
  · split
    · exact ⟨fun _ => .inl trivial, fun hstatus => .inr ((h.dispatching hstatus).resolve_left hnot),
        fun hend => absurd hend hended⟩
    · exact ⟨fun _ => .inl trivial, fun hstatus => .inr ((h.dispatching hstatus).resolve_left hnot),
        fun hend => absurd hend hended⟩

theorem retrieved (h : s.Ok) {instanceId : ℕ} (hcall : s.call = .retrieving instanceId) :
    (s.retrieved instanceId true).Ok := by
  have hended := h.not_ended (by rw [hcall]; exact fun heq => (nomatch heq))
  exact ⟨fun hstatus => (nomatch hstatus), fun _ => .inl trivial, fun hend => absurd hend hended⟩

theorem persisted (h : s.Ok) {instanceId : ℕ} (hcall : s.call = .persisting instanceId) (ok capable accepted : Bool) :
    (s.persisted instanceId ok capable accepted).Ok := by
  have hended := h.not_ended (by rw [hcall]; exact fun heq => (nomatch heq))
  have hnot : ¬ s.Connects := by simp [Connects, hcall]
  unfold SendingSession.persisted
  split
  · exact (h.exchange_dispatching hnot .idle (by decide)).ok .settled fun _ => rfl
  · split
    · refine (h.exchange_dispatching hnot .idle (by decide)).report.ok .rollingBack fun hend => ?_
      rw [closing_report, closing_exchange] at hend
      exact absurd hend hended
    next hruntime =>
      split
      · exact (h.exchange_dispatching hnot .error (by decide)).ok .settled fun _ => rfl
      · have hruntime' : s.runtime = some instanceId := by
          simp only [Bool.or_eq_true, not_or, decide_eq_true_eq, not_not] at hruntime
          exact hruntime.1
        unfold report
        split
        · exact ok_of_status .error rfl (by decide) fun hend => absurd hend hended
        · exact ⟨fun hstatus => .inr ((h.connecting hstatus).resolve_left hnot), fun _ => .inl hruntime',
            fun hend => absurd hend hended⟩

theorem marked (h : s.Ok) {instanceId : ℕ} (hcall : s.call = .marking instanceId) (ok found : Bool) :
    (s.marked instanceId ok found).Ok := by
  have hended := h.not_ended (by rw [hcall]; exact fun heq => (nomatch heq))
  have hnot : ¬ s.Connects := by simp [Connects, hcall]
  have hconnecting : s.status = .connecting → s.sweeping = true ∨ s.Busy :=
    fun hstatus => (h.connecting hstatus).resolve_left hnot
  unfold SendingSession.marked
  split
  · exact ⟨fun hstatus => .inr (hconnecting hstatus), fun _ => .inl trivial, fun hend => absurd hend hended⟩
  · split
    · exact ⟨fun hstatus => .inr (hconnecting hstatus), fun _ => .inl trivial, fun hend => absurd hend hended⟩
    next hruntime =>
      -- the runtime is another one by now, so the status is settled elsewhere
      have hothers : s.OthersSettle := by
        refine ⟨hconnecting, fun hstatus => (h.dispatching hstatus).resolve_left ?_⟩
        simpa [Dispatches, hcall] using hruntime
      exact hothers.ok (.revoking found) fun hend => absurd hend hended

theorem revoked (h : s.Ok) {found : Bool} (hcall : s.call = .revoking found) (cleanupFailed : Bool) :
    (s.revoked found cleanupFailed).Ok := by
  have hended := h.not_ended (by rw [hcall]; exact fun heq => (nomatch heq))
  have hnot : ¬ s.Connects := by simp [Connects, hcall]
  have hothers : ∀ t : SendingSession, t.OthersSettle → t.closing = s.closing →
      Ok { t.report with call := .savingRevocation } := by
    intro t ht hclosing
    refine ht.report.ok .savingRevocation fun hend => ?_
    rw [closing_report, hclosing] at hend
    exact absurd hend hended
  unfold SendingSession.revoked
  split
  · exact hothers _ (othersSettle_of_status (cleanedUp cleanupFailed) rfl (cleanedUp_ne cleanupFailed)) rfl
  next hkept =>
    refine hothers s ⟨fun hstatus => (h.connecting hstatus).resolve_left hnot, fun hstatus => ?_⟩ rfl
    cases found with
    | false => exact (h.dispatching hstatus).resolve_left (by simp [Dispatches, hcall])
    | true =>
      rw [hstatus] at hkept
      exact absurd rfl hkept

theorem finish (h : s.Ok) (hnotConnects : ¬ s.Connects) (hnotDispatches : ¬ s.Dispatches) (ok : Bool) :
    (if ok then s else s.failFatally).settle.Ok := by
  have hothers : s.OthersSettle :=
    ⟨fun hstatus => (h.connecting hstatus).resolve_left hnotConnects,
      fun hstatus => (h.dispatching hstatus).resolve_left hnotDispatches⟩
  split
  · exact hothers.ok .settled fun _ => rfl
  · exact hothers.failFatally.ok .settled fun _ => rfl

theorem callStep (h : s.Ok) (act : SendAct) (hauthorized : act ≠ .retrieved false) : (s.callStep act).Ok := by
  cases act with
  | send blocked =>
    rw [SendingSession.callStep]
    split
    next hcall => exact h.send hcall blocked
    · exact h
  | intentPersisted ok =>
    rw [SendingSession.callStep]
    split
    next hcall => exact h.intentPersisted hcall ok
    · exact h
  | detected available =>
    rw [SendingSession.callStep]
    split
    next hcall => exact h.detected hcall available
    · exact h
  | prepared instanceId =>
    rw [SendingSession.callStep]
    split
    next hcall =>
      have hnot : ¬ s.Dispatches := by simp [Dispatches, hcall]
      exact ⟨fun _ => .inl trivial, fun hstatus => .inr ((h.dispatching hstatus).resolve_left hnot),
        fun hend => absurd hend (h.not_ended (by rw [hcall]; decide))⟩
    · exact h
  | preparationFailed =>
    rw [SendingSession.callStep]
    split
    next hcall => exact h.attachFailed (by simp [Dispatches, hcall]) (by rw [hcall]; decide)
    · exact h
  | admitted ok events =>
    rw [SendingSession.callStep]
    split
    next hcall => exact h.admitted hcall ok events
    · exact h
  | detached =>
    rw [SendingSession.callStep]
    split
    next hcall => exact h.attachFailed (by simp [Dispatches, hcall]) (by rw [hcall]; decide)
    · exact h
  | reported =>
    rw [SendingSession.callStep]
    split
    next hcall => exact h.finish (by simp [Connects, hcall]) (by simp [Dispatches, hcall]) true
    · exact h
  | retrieved authorized =>
    rw [SendingSession.callStep]
    split
    next hcall =>
      cases authorized with
      | false => exact absurd rfl hauthorized
      | true => exact h.retrieved hcall
    · exact h
  | persisted ok capable accepted =>
    rw [SendingSession.callStep]
    split
    next hcall => exact h.persisted hcall ok capable accepted
    · exact h
  | marked ok found =>
    rw [SendingSession.callStep]
    split
    next hcall => exact h.marked hcall ok found
    · exact h
  | revoked cleanupFailed =>
    rw [SendingSession.callStep]
    split
    next hcall => exact h.revoked hcall cleanupFailed
    · exact h
  | revocationSaved ok =>
    rw [SendingSession.callStep]
    split
    next hcall => exact h.finish (by simp [Connects, hcall]) (by simp [Dispatches, hcall]) ok
    · exact h
  | invocationSettled ok =>
    rw [SendingSession.callStep]
    split
    next hcall =>
      refine (h.exchange_dispatching (by simp [Connects, hcall]) _ ?_).ok .settled fun _ => rfl
      cases ok <;> decide
    · exact h
  | rolledBack ok =>
    rw [SendingSession.callStep]
    split
    next hcall => exact h.finish (by simp [Connects, hcall]) (by simp [Dispatches, hcall]) ok
    · exact h
  | _ => exact h

/-! ## Steps of other operations -/

theorem detach_of_busy (h : s.Ok) {t : SendingSession} (hcall : t.call = s.call) (hclosing : t.closing = s.closing)
    (hbusy : t.Busy) : t.Ok := by
  refine ⟨fun _ => .inr (.inr hbusy), fun _ => .inr hbusy, fun hend => ?_⟩
  rw [hcall]
  exact h.ended (hclosing ▸ hend)

theorem handleEvent (h : s.Ok) (event : RuntimeEvent) : (s.handleEvent event).Ok := by
  cases event with
  | turnStarted => exact ok_of_status .streaming rfl (by decide) h.ended
  | turnFinished => exact ok_of_status .idle rfl (by decide) h.ended
  | fatalError => exact ok_of_status .error rfl (by decide) h.ended
  | processExited => exact ok_of_status .exited rfl (by decide) h.ended

theorem otherStep (h : s.Ok) (act : SendAct) : (s.otherStep act).Ok := by
  cases act with
  | closeSession =>
    rw [SendingSession.otherStep]
    split
    · exact h
    · exact ok_of_status .stopping rfl (by decide) fun hend => (nomatch hend)
  | blockClose =>
    rw [SendingSession.otherStep]
    split
    · exact ok_of_status .error rfl (by decide) h.ended
    · exact h
  | exitMode =>
    rw [SendingSession.otherStep]
    split
    · exact h
    · exact ok_of_status .stopping rfl (by decide) fun hend => (nomatch hend)
  | closeDetached =>
    rw [SendingSession.otherStep]
    split
    next hrunning => exact h.detach_of_busy rfl rfl (.inl hrunning)
    · exact h
  | endClose failed =>
    rw [SendingSession.otherStep]
    split
    next hguard => exact ok_of_status (cleanedUp failed) rfl (cleanedUp_ne failed) fun _ => hguard.2
    · exact h
  | releaseClose =>
    rw [SendingSession.otherStep]
    split
    next hend =>
      have hnot : ∀ {P : Prop}, (s.closing = .running ∨ P) → P := fun hor =>
        hor.resolve_left fun hrunning => (nomatch hend.symm.trans hrunning)
      exact ⟨fun hstatus => (h.connecting hstatus).imp id fun hothers => hothers.imp id fun hbusy => .inr (hnot hbusy),
        fun hstatus => (h.dispatching hstatus).imp id fun hbusy => .inr (hnot hbusy), fun hend => (nomatch hend)⟩
    · exact h
  | deleteSession =>
    rw [SendingSession.otherStep]
    split
    · exact h
    · exact ok_of_status .stopping rfl (by decide) h.ended
  | deleteDetached =>
    rw [SendingSession.otherStep]
    split
    next hdelete => exact h.detach_of_busy rfl rfl (.inr (.inl hdelete))
    · exact h
  | failDelete =>
    rw [SendingSession.otherStep]
    split
    · exact ok_of_status .error rfl (by decide) h.ended
    · exact h
  | endDelete =>
    rw [SendingSession.otherStep]
    split
    next hguard => exact h.detach_of_busy rfl rfl (.inr (.inl hguard.1))
    · exact h
  | beginRevocation =>
    rw [SendingSession.otherStep]
    split
    · exact h.detach_of_busy rfl rfl (.inr (.inr rfl))
    · exact h
  | endRevocation cleanupFailed =>
    rw [SendingSession.otherStep]
    split
    · exact h
    · split
      next hstopping => exact ok_of_status .stopping hstopping (by decide) h.ended
      · exact ok_of_status (cleanedUp cleanupFailed) rfl (cleanedUp_ne cleanupFailed) h.ended
  | beginSweep =>
    rw [SendingSession.otherStep]
    split
    · exact ⟨fun _ => .inr (.inl rfl), fun hstatus => (nomatch hstatus), h.ended⟩
    · exact h
  | endSweep cleanupFailed =>
    rw [SendingSession.otherStep]
    split
    · unfold exchange
      split
      · exact ok_of_status (cleanedUp cleanupFailed) rfl (cleanedUp_ne cleanupFailed) h.ended
      next hne => exact ⟨fun hstatus => absurd hstatus hne, h.dispatching, h.ended⟩
    · exact h
  | event event =>
    rw [SendingSession.otherStep]
    split
    · exact h.handleEvent event
    · exact h
  | lock locked => exact ⟨h.connecting, h.dispatching, h.ended⟩
  | scope state =>
    rw [SendingSession.otherStep]
    split
    · exact ⟨h.connecting, h.dispatching, h.ended⟩
    · exact h
  | saveFailed =>
    rw [SendingSession.otherStep]
    unfold failFatally
    split
    · exact h
    · exact ok_of_status .error rfl (by decide) h.ended
  | _ => exact h

theorem run (h : s.Ok) {acts : List SendAct} (hauthorized : SendAct.retrieved false ∉ acts) : (s.run acts).Ok := by
  induction acts generalizing s with
  | nil => exact h
  | cons act acts ih =>
    rw [List.mem_cons, not_or] at hauthorized
    exact ih ((h.callStep act fun heq => hauthorized.1 heq.symm).otherStep act) hauthorized.2

end Ok

/-! ## What a call leaves -/

/-- None is on its way, and a status to get stuck in is another operation's. -/
structure Startable (s : SendingSession) : Prop where
  settled : s.call = .settled
  others : s.OthersSettle

/-- Where the authority of a call never lapses, a settled call leaves no status that the session cannot go on from. -/
theorem settled_of_authorized {s : SendingSession} (hs : s.Startable) {acts : List SendAct}
    (hauthorized : SendAct.retrieved false ∉ acts) (hcall : (s.run acts).call = .settled) :
    (s.run acts).OthersSettle := by
  have hok : s.Ok := hs.others.ok s.call fun _ => hs.settled
  exact (hok.run hauthorized).othersSettle hcall

theorem prompt_settled :
    (run { runtime := some 0 } [.send false, .retrieved true, .persisted true true true, .marked true true,
      .event .turnStarted, .event .turnFinished, .invocationSettled true]).OthersSettle :=
  settled_of_authorized ⟨rfl, fun h => absurd h (by decide), fun h => absurd h (by decide)⟩ (by decide) (by decide)

/-- A queued prompt whose model or task changed while knowledge was retrieved. -/
theorem dispatching_for_ever :
    let s := run { runtime := some 0 } [.send false, .retrieved false]
    s.call = .settled ∧ s.status = .dispatching ∧ s.closing = .none ∧ s.deletePending = false ∧ s.revoking = false ∧
      s.sweeping = false := by
  decide

end SendingSession

end Wiii.NekoChill
