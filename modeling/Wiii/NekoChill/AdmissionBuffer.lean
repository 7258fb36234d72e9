import Wiii.NekoChill.AcpDriver

/-!
# Updates that come before the session is admitted

While its session is opened, a driver keeps the updates it is sent, in a buffer with two bounds.  When the session is
admitted, the kept updates go through the same checks as later ones; when the admission fails, they are dropped, and an
update that does not fit makes it fail.
-/

namespace Wiii.NekoChill

/-- What is kept of a `session/update`: it names a session, and its update has a kind. -/
structure SessionUpdate where
  sessionId : JsText
  update : JsValue
  /-- The receipt of the envelope, or `undefined`. -/
  envelopeMeta : JsValue
  named : sessionId.isEmpty = false
  typed : ∃ kind, update.own "sessionUpdate" = .string kind

namespace SessionUpdate

def isTyped (update : JsValue) : Bool :=
  match update.own "sessionUpdate" with
  | .string _ => true
  | _ => false

theorem isTyped_iff {update : JsValue} : isTyped update = true ↔ ∃ kind, update.own "sessionUpdate" = .string kind := by
  unfold isTyped
  constructor
  · intro h
    split at h
    next kind hkind => exact ⟨kind, hkind⟩
    · cases h
  · rintro ⟨kind, hkind⟩
    rw [hkind]

/-- What `handleNotification` checks of the parameters before it looks at the driver. -/
def read (params : JsValue) : Option SessionUpdate :=
  match params.own "sessionId" with
  | .string sessionId =>
    if h : sessionId.isEmpty = false ∧ isTyped (params.own "update") = true then
      some ⟨sessionId, params.own "update", params.own "_meta", h.1, isTyped_iff.1 h.2⟩
    else none
  | _ => none

def params (u : SessionUpdate) : JsValue :=
  .object ([("sessionId", .string u.sessionId), ("update", u.update)] ++
    if u.envelopeMeta.isUndefined then [] else [("_meta", u.envelopeMeta)])

theorem params_sessionId (u : SessionUpdate) : u.params.own "sessionId" = .string u.sessionId := by
  simp [params, JsValue.own]

theorem params_update (u : SessionUpdate) : u.params.own "update" = u.update := by
  simp [params, JsValue.own, List.lookup_cons]

theorem params_meta (u : SessionUpdate) : u.params.own "_meta" = u.envelopeMeta := by
  unfold params
  split
  next h =>
    unfold JsValue.isUndefined at h
    split at h
    next heq =>
      rw [heq]
      simp [JsValue.own, List.lookup_cons]
    · cases h
  · simp [JsValue.own, List.lookup_cons]

theorem read_params (u : SessionUpdate) : read u.params = some u := by
  have htyped := isTyped_iff.2 u.typed
  unfold read
  rw [params_sessionId]
  simp only [params_update, params_meta]
  rw [dif_pos ⟨u.named, htyped⟩]

theorem read_eq_some {value : JsValue} {u : SessionUpdate} (h : read value = some u) :
    value.own "sessionId" = .string u.sessionId ∧ value.own "update" = u.update ∧
      value.own "_meta" = u.envelopeMeta := by
  unfold read at h
  split at h
  next sessionId hid =>
    split at h
    · cases h
      exact ⟨hid, rfl, rfl⟩
    · cases h
  · cases h

theorem binding_params (lower : JsText → JsText) {value : JsValue} {u : SessionUpdate} (h : read value = some u)
    (sessionId : JsText) (receipt : NekoTaskReceipt) :
    assertNekoTaskEventBinding lower u.params sessionId receipt =
      assertNekoTaskEventBinding lower value sessionId receipt := by
  obtain ⟨hid, -, hmeta⟩ := read_eq_some h
  unfold assertNekoTaskEventBinding assertNekoTaskCurrentReceipt parseNekoTaskReceipt sessionIdFrom
  rw [params_meta, params_sessionId, hid, hmeta]

end SessionUpdate

structure AdmittedSession where
  sessionId : JsText
  receipt : Option NekoTaskReceipt

structure AdmissionConfig where
  driver : AcpConfig
  resumeSessionId : Option JsText
  /-- The bytes of the record as JSON. -/
  byteLength : SessionUpdate → ℕ

def acpAdmissionMaxUpdates : ℕ := 256

def acpAdmissionMaxBytes : ℕ := 8 * 1024 * 1024

namespace AdmissionConfig

variable (c : AdmissionConfig)

/-- Whether this can be the session: one that is resumed is known by its id. -/
def admits (sessionId : JsText) : Bool :=
  match c.resumeSessionId with
  | none => true
  | some resumed => resumed.isEmpty || decide (sessionId = resumed)

def totalBytes (updates : List SessionUpdate) : ℕ := (updates.map c.byteLength).sum

/-- The update names the session and, with a task scope, carries its task's receipt. -/
def belongs (session : AdmittedSession) (u : SessionUpdate) : Bool :=
  decide (u.sessionId = session.sessionId) && (!c.driver.taskScope ||
    match session.receipt with
    | none => false
    | some receipt => (assertNekoTaskEventBinding c.driver.toLowerCase u.params session.sessionId receipt).isOk)

def kept (updates : List SessionUpdate) : List SessionUpdate := updates.filter fun u => c.admits u.sessionId

/-- Some update does not fit behind those before it. -/
def Exceeds (updates : List SessionUpdate) : Prop :=
  acpAdmissionMaxUpdates < (c.kept updates).length ∨ acpAdmissionMaxBytes < c.totalBytes (c.kept updates)

end AdmissionConfig

structure BufferedDriver where
  driver : AcpDriver := {}
  admissionUpdates : List SessionUpdate := []
  admissionBytes : ℕ := 0
  /-- The updates whose events were emitted. -/
  projected : List SessionUpdate := []
  session : Option AdmittedSession := none
  /-- The updates that came while the session was opened, and those that came since. -/
  waited : List SessionUpdate := []
  live : List SessionUpdate := []

inductive AdmissionAct where
  /-- `startSession` gets to where it admits the session. -/
  | openSession (sessionId : JsText) (receipt : Option NekoTaskReceipt)
  | notify (method : String) (params : JsValue)
  /-- The other acts of the driver. -/
  | driver (act : AcpAct)

namespace BufferedDriver

def clearAdmissionUpdates (s : BufferedDriver) : BufferedDriver := { s with admissionUpdates := [], admissionBytes := 0 }

def buffer (c : AdmissionConfig) (u : SessionUpdate) (s : BufferedDriver) : BufferedDriver :=
  if !c.admits u.sessionId then s
  else if decide (acpAdmissionMaxUpdates ≤ s.admissionUpdates.length) ||
      decide (acpAdmissionMaxBytes < s.admissionBytes + c.byteLength u) then
    { s.clearAdmissionUpdates with driver := s.driver.admissionOverflow }
  else { s with
    admissionUpdates := s.admissionUpdates ++ [u]
    admissionBytes := s.admissionBytes + c.byteLength u }

/-- `assertNekoTaskEventBinding` for the receipt of the driver. -/
def isBound (c : AdmissionConfig) (params : JsValue) (acpSessionId : JsText) (s : BufferedDriver) : Bool :=
  match s.driver.taskReceipt with
  | none => false
  | some receipt => (assertNekoTaskEventBinding c.driver.toLowerCase params acpSessionId receipt).isOk

def deliver (c : AdmissionConfig) (params : JsValue) (u : SessionUpdate) (s : BufferedDriver) : BufferedDriver :=
  match s.driver.acpSessionId with
  | none => s
  | some acpSessionId =>
    if decide (s.driver.admission ≠ .admitted) || decide (u.sessionId ≠ acpSessionId) then s
    else if c.driver.taskScope && !s.isBound c params acpSessionId then s
    else { s with projected := s.projected ++ [u] }

def arrival (method : String) (params : JsValue) (s : BufferedDriver) : Option SessionUpdate :=
  if decide (method ≠ "session/update") || s.driver.disposed then none else SessionUpdate.read params

def handleNotification (c : AdmissionConfig) (method : String) (params : JsValue) (s : BufferedDriver) :
    BufferedDriver :=
  match s.arrival method params with
  | none => s
  | some u => if s.driver.admission = .starting then s.buffer c u else s.deliver c params u

def notify (c : AdmissionConfig) (method : String) (params : JsValue) (s : BufferedDriver) : BufferedDriver :=
  { s.handleNotification c method params with
    waited := s.waited ++ if s.driver.admission = .starting then (s.arrival method params).toList else []
    live := s.live ++ if s.driver.admission = .admitted then (s.arrival method params).toList else [] }

/-- The session is admitted, and the buffered updates are handled again. -/
def openSession (c : AdmissionConfig) (sessionId : JsText) (receipt : Option NekoTaskReceipt) (s : BufferedDriver) :
    BufferedDriver :=
  let driver := s.driver.admitSession c.driver sessionId receipt
  if !c.admits sessionId || decide (s.driver.admission ≠ .starting) || decide (driver.admission ≠ .admitted) then s
  else s.admissionUpdates.foldl (fun t u => t.handleNotification c "session/update" u.params)
    { s.clearAdmissionUpdates with driver, session := some ⟨sessionId, receipt⟩ }

/-- The other acts: `openSession` alone admits, and only an update exceeds the bounds. -/
def act (c : AdmissionConfig) (s : BufferedDriver) : AcpAct → BufferedDriver
  | .admitSession _ _ => s
  | .admissionOverflow => s
  | .exit => { s.clearAdmissionUpdates with driver := s.driver.exit }
  | .dispose => { s.clearAdmissionUpdates with driver := s.driver.dispose }
  | .endStart =>
    if s.driver.startPending && !s.driver.isAdmitted then { s.clearAdmissionUpdates with driver := s.driver.endStart }
    else { s with driver := s.driver.endStart }
  | act => { s with driver := s.driver.step c.driver act }

def step (c : AdmissionConfig) (s : BufferedDriver) : AdmissionAct → BufferedDriver
  | .openSession sessionId receipt => s.openSession c sessionId receipt
  | .notify method params => s.notify c method params
  | .driver act => s.act c act

def run (c : AdmissionConfig) (acts : List AdmissionAct) : BufferedDriver := acts.foldl (step c) {}

end BufferedDriver

/-! ## Steps of the driver -/

namespace AcpDriver

def SameAdmission (s t : AcpDriver) : Prop :=
  t.admission = s.admission ∧ t.acpSessionId = s.acpSessionId ∧ t.taskReceipt = s.taskReceipt

theorem admission_step (c : AcpConfig) (s : AcpDriver) (act : AcpAct) (hstart : act ≠ .start)
    (hacts : ∀ sessionId receipt, act ≠ .admitSession sessionId receipt) :
    s.SameAdmission (s.step c act) ∨ (s.step c act).admission = .failed := by
  cases act with
  | start => exact absurd rfl hstart
  | admitSession sessionId receipt => exact absurd rfl (hacts sessionId receipt)
  | admissionOverflow =>
    change s.SameAdmission s.admissionOverflow ∨ s.admissionOverflow.admission = .failed
    unfold admissionOverflow
    split
    · exact .inl ⟨rfl, rfl, rfl⟩
    · exact .inr rfl
  | endStart =>
    change s.SameAdmission s.endStart ∨ s.endStart.admission = .failed
    unfold endStart
    split
    · exact .inl ⟨rfl, rfl, rfl⟩
    · split
      · exact .inl ⟨rfl, rfl, rfl⟩
      · exact .inr rfl
  | prompt text promptEventId =>
    refine .inl ?_
    change s.SameAdmission (s.prompt c text promptEventId)
    unfold prompt
    split <;> exact ⟨rfl, rfl, rfl⟩
  | wake =>
    refine .inl ?_
    change s.SameAdmission (s.wake c)
    unfold wake failPrompt endPrompt revokeComputer emit
    split
    · split
      · split
        · exact ⟨rfl, rfl, rfl⟩
        · split <;> exact ⟨rfl, rfl, rfl⟩
      · exact ⟨rfl, rfl, rfl⟩
    · exact ⟨rfl, rfl, rfl⟩
  | answer result =>
    change s.SameAdmission (s.answer c result) ∨ (s.answer c result).admission = .failed
    unfold answer
    split
    · split
      · exact .inl ⟨rfl, rfl, rfl⟩
      · split
        · exact .inl ⟨rfl, rfl, rfl⟩
        · exact .inr rfl
      · exact .inl ⟨rfl, rfl, rfl⟩
    · exact .inl ⟨rfl, rfl, rfl⟩
  | finish =>
    refine .inl ?_
    change s.SameAdmission (s.finish c)
    unfold finish emit
    split
    · split
      · split
        · exact ⟨rfl, rfl, rfl⟩
        · exact ⟨rfl, rfl, rfl⟩
        · split <;> exact ⟨rfl, rfl, rfl⟩
      · exact ⟨rfl, rfl, rfl⟩
    · exact ⟨rfl, rfl, rfl⟩
  | cancel =>
    refine .inl ?_
    change s.SameAdmission s.cancel
    unfold cancel revokeComputer
    split <;> exact ⟨rfl, rfl, rfl⟩
  | exit =>
    change s.SameAdmission s.exit ∨ s.exit.admission = .failed
    unfold exit abortAdmission revokeComputer emit
    dsimp only
    split
    · exact .inr rfl
    · exact .inl ⟨rfl, rfl, rfl⟩
  | dispose =>
    change s.SameAdmission s.dispose ∨ s.dispose.admission = .failed
    unfold dispose abortAdmission refusePermissions revokeComputer
    dsimp only
    split
    · exact .inr rfl
    · exact .inl ⟨rfl, rfl, rfl⟩
  | computerRequest method =>
    refine .inl ?_
    change s.SameAdmission (s.computerRequest c method)
    unfold computerRequest
    split <;> exact ⟨rfl, rfl, rfl⟩
  | settleRequest request => exact .inl ⟨rfl, rfl, rfl⟩
  | settleCleanup ok =>
    refine .inl ?_
    change s.SameAdmission (s.settleCleanup c ok)
    unfold settleCleanup
    split
    · exact ⟨rfl, rfl, rfl⟩
    · split <;> exact ⟨rfl, rfl, rfl⟩
  | requestPermission params =>
    refine .inl ?_
    change s.SameAdmission (s.requestPermission c params)
    unfold requestPermission
    split
    · exact ⟨rfl, rfl, rfl⟩
    · split <;> exact ⟨rfl, rfl, rfl⟩
  | resolvePermission requestId optionId =>
    refine .inl ?_
    change s.SameAdmission (s.resolvePermission c requestId optionId)
    unfold resolvePermission
    split <;> exact ⟨rfl, rfl, rfl⟩

theorem admitSession_eq {c : AcpConfig} {s : AcpDriver} {sessionId : JsText} {receipt : Option NekoTaskReceipt}
    (hstarting : s.admission = .starting) (hadmitted : (s.admitSession c sessionId receipt).admission = .admitted) :
    s.disposed = false ∧ s.admitSession c sessionId receipt =
      { s with admission := .admitted, acpSessionId := some sessionId, taskReceipt := receipt } := by
  unfold admitSession at hadmitted ⊢
  split at hadmitted
  · rw [hstarting] at hadmitted
    cases hadmitted
  next hguard =>
    simp only [Bool.or_eq_true, not_or, Bool.not_eq_true] at hguard
    refine ⟨hguard.1.1.1.2, ?_⟩
    rw [if_neg]
    simp only [Bool.or_eq_true, not_or, Bool.not_eq_true]
    exact hguard

end AcpDriver

namespace AdmissionConfig

variable {c : AdmissionConfig}

theorem admits_of_belongs {session : AdmittedSession} {u : SessionUpdate} (hadmits : c.admits session.sessionId = true)
    (h : c.belongs session u = true) : c.admits u.sessionId = true := by
  unfold belongs at h
  rw [Bool.and_eq_true, decide_eq_true_eq] at h
  rw [h.1]
  exact hadmits

theorem filter_kept {session : AdmittedSession} (hadmits : c.admits session.sessionId = true)
    (updates : List SessionUpdate) :
    (c.kept updates).filter (c.belongs session) = updates.filter (c.belongs session) := by
  unfold kept
  rw [List.filter_filter]
  apply List.filter_congr
  intro u _
  cases h : c.belongs session u with
  | false => rfl
  | true => rw [admits_of_belongs hadmits h, Bool.and_self]

theorem kept_snoc (updates : List SessionUpdate) (u : SessionUpdate) :
    c.kept (updates ++ [u]) = c.kept updates ++ if c.admits u.sessionId then [u] else [] := by
  unfold kept
  rw [List.filter_append, List.filter_cons, List.filter_nil]

theorem totalBytes_snoc (updates : List SessionUpdate) (u : SessionUpdate) :
    c.totalBytes (updates ++ [u]) = c.totalBytes updates + c.byteLength u := by
  simp [totalBytes]

end AdmissionConfig

namespace BufferedDriver

variable {c : AdmissionConfig} {s : BufferedDriver}

/-- The driver has this session, and is ready for its updates. -/
structure Serves (s : BufferedDriver) (session : AdmittedSession) : Prop where
  admitted : s.driver.admission = .admitted
  acpSessionId : s.driver.acpSessionId = some session.sessionId
  taskReceipt : s.driver.taskReceipt = session.receipt

theorem Serves.deliver {session : AdmittedSession} (h : s.Serves session) {params : JsValue} {u : SessionUpdate}
    (hread : SessionUpdate.read params = some u) :
    s.deliver c params u = { s with projected := s.projected ++ [u].filter (c.belongs session) } := by
  unfold BufferedDriver.deliver isBound
  rw [h.acpSessionId, h.taskReceipt]
  simp only [h.admitted, ne_eq, not_true, decide_false, Bool.false_or]
  rw [List.filter_cons, List.filter_nil]
  unfold AdmissionConfig.belongs
  by_cases hid : u.sessionId = session.sessionId
  · simp only [hid, not_true, decide_false, decide_true, Bool.true_and, Bool.false_eq_true, if_false]
    cases hscope : c.driver.taskScope with
    | false => simp
    | true =>
      cases hreceipt : session.receipt with
      | none => simp
      | some receipt =>
        simp only [SessionUpdate.binding_params c.driver.toLowerCase hread, Bool.true_and, Bool.not_true,
          Bool.false_or]
        cases (assertNekoTaskEventBinding c.driver.toLowerCase params session.sessionId receipt).isOk <;> simp
  · simp [hid]

theorem Serves.replay {session : AdmittedSession} (h : s.Serves session) (hdisposed : s.driver.disposed = false)
    (updates : List SessionUpdate) :
    updates.foldl (fun t u => t.handleNotification c "session/update" u.params) s =
      { s with projected := s.projected ++ updates.filter (c.belongs session) } := by
  induction updates generalizing s with
  | nil => simp
  | cons u updates ih =>
    have harrival : s.arrival "session/update" u.params = some u := by
      unfold arrival
      rw [hdisposed]
      exact SessionUpdate.read_params u
    have hstep : s.handleNotification c "session/update" u.params =
        { s with projected := s.projected ++ [u].filter (c.belongs session) } := by
      unfold handleNotification
      rw [harrival]
      simp only [h.admitted]
      exact h.deliver (SessionUpdate.read_params u)
    have hrest := @ih { s with projected := s.projected ++ [u].filter (c.belongs session) }
      ⟨h.admitted, h.acpSessionId, h.taskReceipt⟩ hdisposed
    have hcons : (u :: updates).filter (c.belongs session) =
        [u].filter (c.belongs session) ++ updates.filter (c.belongs session) := List.filter_append [u] updates
    rw [List.foldl_cons, hstep, hrest, hcons, ← List.append_assoc]

structure Ok (c : AdmissionConfig) (s : BufferedDriver) : Prop where
  unstarted : s.driver.admission = .unstarted →
    s.admissionUpdates = [] ∧ s.admissionBytes = 0 ∧ s.waited = [] ∧ s.session = none
  starting : s.driver.admission = .starting → s.session = none ∧ s.admissionUpdates = c.kept s.waited ∧
    s.admissionBytes = c.totalBytes (c.kept s.waited) ∧ ¬ c.Exceeds s.waited
  unopened : s.session = none → s.live = [] ∧ s.projected = [] ∧ s.driver.admission ≠ .admitted
  opened : ∀ session, s.session = some session →
    s.projected = (s.waited ++ s.live).filter (c.belongs session) ∧ ¬ c.Exceeds s.waited
  serves : ∀ session, s.session = some session → s.driver.admission = .admitted → s.Serves session

namespace Ok

theorem initial : Ok c {} :=
  ⟨fun _ => ⟨rfl, rfl, rfl, rfl⟩, fun h => (nomatch h), fun _ => ⟨rfl, rfl, fun h => (nomatch h)⟩,
    fun _ h => (nomatch h), fun _ h => (nomatch h)⟩

theorem failed (h : s.Ok c) {t : BufferedDriver} (hfailed : t.driver.admission = .failed)
    (hprojected : t.projected = s.projected) (hsession : t.session = s.session) (hwaited : t.waited = s.waited)
    (hlive : t.live = s.live) : t.Ok c := by
  refine ⟨fun hadm => ?_, fun hadm => ?_, fun hnone => ?_, fun session hsome => ?_, fun session _ hadm => ?_⟩
  · rw [hfailed] at hadm
    cases hadm
  · rw [hfailed] at hadm
    cases hadm
  · have hunopened := h.unopened (hsession ▸ hnone)
    refine ⟨hlive.trans hunopened.1, hprojected.trans hunopened.2.1, ?_⟩
    rw [hfailed]
    exact fun hadm => (nomatch hadm)
  · rw [hprojected, hwaited, hlive]
    exact h.opened session (hsession ▸ hsome)
  · rw [hfailed] at hadm
    cases hadm

theorem same (h : s.Ok c) {driver : AcpDriver} (hsame : s.driver.SameAdmission driver) :
    Ok c { s with driver } := by
  obtain ⟨hadmission, hid, hreceipt⟩ := hsame
  refine ⟨fun hadm => h.unstarted (hadmission ▸ hadm), fun hadm => h.starting (hadmission ▸ hadm), fun hnone => ?_,
    h.opened, fun session hsome hadm => ?_⟩
  · obtain ⟨hlive, hprojected, hadm⟩ := h.unopened hnone
    refine ⟨hlive, hprojected, ?_⟩
    change driver.admission ≠ .admitted
    rw [hadmission]
    exact hadm
  · have hserves := h.serves session hsome (hadmission ▸ hadm)
    exact ⟨hadm, hid.trans hserves.acpSessionId, hreceipt.trans hserves.taskReceipt⟩

theorem driverStep (h : s.Ok c) (act : AcpAct) (hstart : act ≠ .start)
    (hacts : ∀ sessionId receipt, act ≠ .admitSession sessionId receipt) :
    Ok c { s with driver := s.driver.step c.driver act } := by
  rcases s.driver.admission_step c.driver act hstart hacts with hsame | hfailed
  · exact h.same hsame
  · exact h.failed hfailed rfl rfl rfl rfl

theorem start (h : s.Ok c) : Ok c { s with driver := s.driver.start } := by
  unfold AcpDriver.start
  split
  · exact h
  next hguard =>
    have hunstarted : s.driver.admission = .unstarted := by
      simp only [Bool.or_eq_true, not_or, decide_eq_true_eq, not_not] at hguard
      exact hguard.2
    obtain ⟨hupdates, hbytes, hwaited, hsession⟩ := h.unstarted hunstarted
    obtain ⟨hlive, hprojected, -⟩ := h.unopened hsession
    refine ⟨fun hadm => (nomatch hadm), fun _ => ⟨hsession, ?_, ?_, ?_⟩, fun _ => ⟨hlive, hprojected, ?_⟩,
      fun session hsome => ?_, fun session hsome => ?_⟩
    · change s.admissionUpdates = c.kept s.waited
      rw [hupdates, hwaited]
      rfl
    · change s.admissionBytes = c.totalBytes (c.kept s.waited)
      rw [hbytes, hwaited]
      rfl
    · change ¬ c.Exceeds s.waited
      rw [hwaited]
      simp [AdmissionConfig.Exceeds, AdmissionConfig.kept, AdmissionConfig.totalBytes]
    · exact fun hadm => (nomatch hadm)
    · rw [show s.session = some session from hsome] at hsession
      cases hsession
    · rw [show s.session = some session from hsome] at hsession
      cases hsession

theorem ended (h : s.Ok c) (act : AcpAct) (hstart : act ≠ .start)
    (hacts : ∀ sessionId receipt, act ≠ .admitSession sessionId receipt)
    (hnot : (s.driver.step c.driver act).admission ≠ .starting) :
    Ok c { s.clearAdmissionUpdates with driver := s.driver.step c.driver act } := by
  have hstep := h.driverStep act hstart hacts
  refine ⟨fun hadm => ?_, fun hadm => absurd hadm hnot, hstep.unopened, hstep.opened, fun session hsome hadm => ?_⟩
  · obtain ⟨-, -, hwaited, hsession⟩ := hstep.unstarted hadm
    exact ⟨rfl, rfl, hwaited, hsession⟩
  · have hserves := hstep.serves session hsome hadm
    exact ⟨hserves.admitted, hserves.acpSessionId, hserves.taskReceipt⟩

theorem act (h : s.Ok c) (act : AcpAct) : (s.act c act).Ok c := by
  cases act with
  | start => exact h.start
  | admitSession sessionId receipt => exact h
  | admissionOverflow => exact h
  | exit =>
    refine h.ended .exit (fun heq => (nomatch heq)) (fun _ _ heq => (nomatch heq)) ?_
    change s.driver.exit.admission ≠ .starting
    unfold AcpDriver.exit AcpDriver.abortAdmission AcpDriver.revokeComputer AcpDriver.emit
    dsimp only
    split
    · exact fun hadm => (nomatch hadm)
    · assumption
  | dispose =>
    refine h.ended .dispose (fun heq => (nomatch heq)) (fun _ _ heq => (nomatch heq)) ?_
    change s.driver.dispose.admission ≠ .starting
    unfold AcpDriver.dispose AcpDriver.abortAdmission AcpDriver.revokeComputer AcpDriver.refusePermissions
    dsimp only
    split
    · exact fun hadm => (nomatch hadm)
    · assumption
  | endStart =>
    unfold BufferedDriver.act
    dsimp only
    split
    next hguard =>
      rw [Bool.and_eq_true, Bool.not_eq_true'] at hguard
      refine h.failed ?_ rfl rfl rfl rfl
      change s.driver.endStart.admission = .failed
      unfold AcpDriver.endStart
      rw [if_neg (by rw [hguard.1]; decide), if_neg (by rw [hguard.2]; decide)]
    · exact h.driverStep .endStart (fun heq => (nomatch heq)) fun _ _ heq => (nomatch heq)
  | _ => exact h.driverStep _ (fun heq => (nomatch heq)) fun _ _ heq => (nomatch heq)

theorem without_session (hsession : s.session = none) (hlive : s.live = []) (hprojected : s.projected = [])
    (hnot : s.driver.admission = .failed ∨ s.driver.admission = .starting ∧ s.admissionUpdates = c.kept s.waited ∧
      s.admissionBytes = c.totalBytes (c.kept s.waited) ∧ ¬ c.Exceeds s.waited) : s.Ok c := by
  refine ⟨fun hadm => ?_, fun hadm => ⟨hsession, ?_⟩, fun _ => ⟨hlive, hprojected, fun hadm => ?_⟩,
    fun session hsome => ?_, fun session hsome => ?_⟩
  · simp [hadm] at hnot
  · rcases hnot with hfailed | hstarting
    · rw [hfailed] at hadm
      cases hadm
    · exact hstarting.2
  · simp [hadm] at hnot
  · rw [hsession] at hsome
    cases hsome
  · rw [hsession] at hsome
    cases hsome

theorem buffer (h : s.Ok c) (hstarting : s.driver.admission = .starting) (hdisposed : s.driver.disposed = false)
    (u : SessionUpdate) : Ok c { s.buffer c u with waited := s.waited ++ [u], live := s.live ++ [] } := by
  obtain ⟨hsession, hupdates, hbytes, hfits⟩ := h.starting hstarting
  obtain ⟨hlive, hprojected, -⟩ := h.unopened hsession
  rw [hlive]
  unfold BufferedDriver.buffer
  split
  next hadmits =>
    rw [Bool.not_eq_true'] at hadmits
    have hkept : c.kept (s.waited ++ [u]) = c.kept s.waited := by
      rw [AdmissionConfig.kept_snoc, hadmits]
      exact List.append_nil _
    refine without_session hsession rfl hprojected (.inr ⟨hstarting, ?_⟩)
    unfold AdmissionConfig.Exceeds
    dsimp only
    rw [hkept]
    exact ⟨hupdates, hbytes, hfits⟩
  next hadmits =>
    rw [Bool.not_eq_true', Bool.not_eq_false] at hadmits
    have hkept : c.kept (s.waited ++ [u]) = c.kept s.waited ++ [u] := by
      rw [AdmissionConfig.kept_snoc, hadmits]
      rfl
    split
    · refine without_session hsession rfl hprojected (.inl ?_)
      change s.driver.admissionOverflow.admission = .failed
      unfold AcpDriver.admissionOverflow
      rw [hdisposed, hstarting]
      rfl
    next hroom =>
      simp only [Bool.or_eq_true, decide_eq_true_eq, not_or] at hroom
      rw [hupdates, hbytes] at hroom
      refine without_session hsession rfl hprojected (.inr ⟨hstarting, ?_⟩)
      unfold AdmissionConfig.Exceeds
      dsimp only
      rw [hkept, AdmissionConfig.totalBytes_snoc, hupdates, hbytes, List.length_append, List.length_singleton]
      refine ⟨rfl, rfl, ?_⟩
      omega

theorem deliver (h : s.Ok c) (hadmitted : s.driver.admission = .admitted) {params : JsValue} {u : SessionUpdate}
    (hread : SessionUpdate.read params = some u) :
    Ok c { s.deliver c params u with waited := s.waited ++ [], live := s.live ++ [u] } := by
  cases hsession : s.session with
  | none => exact absurd hadmitted (h.unopened hsession).2.2
  | some session =>
    have hserves := h.serves session hsession hadmitted
    obtain ⟨hprojected, hfits⟩ := h.opened session hsession
    rw [hserves.deliver hread, List.append_nil]
    refine ⟨fun hadm => ?_, fun hadm => ?_, fun hnone => ?_, fun other hsome => ?_, fun other hsome _ => ?_⟩
    · rw [show s.driver.admission = .unstarted from hadm] at hadmitted
      cases hadmitted
    · rw [show s.driver.admission = .starting from hadm] at hadmitted
      cases hadmitted
    · rw [show s.session = none from hnone] at hsession
      cases hsession
    · rw [show s.session = some other from hsome] at hsession
      cases hsession
      refine ⟨?_, hfits⟩
      change s.projected ++ [u].filter (c.belongs session) = (s.waited ++ (s.live ++ [u])).filter (c.belongs session)
      rw [hprojected, ← List.append_assoc, List.filter_append (s.waited ++ s.live)]
    · rw [show s.session = some other from hsome] at hsession
      cases hsession
      exact ⟨hserves.admitted, hserves.acpSessionId, hserves.taskReceipt⟩

theorem deliver_eq_self (hnot : s.driver.admission ≠ .admitted) (params : JsValue) (u : SessionUpdate) :
    s.deliver c params u = s := by
  unfold BufferedDriver.deliver
  split
  · rfl
  · exact if_pos (by simp [hnot])

theorem notify (h : s.Ok c) (method : String) (params : JsValue) : (s.notify c method params).Ok c := by
  unfold BufferedDriver.notify handleNotification
  cases harrival : s.arrival method params with
  | none =>
    dsimp only
    rw [Option.toList_none, ite_self, ite_self, List.append_nil, List.append_nil]
    exact h
  | some u =>
    have hdisposed : s.driver.disposed = false := by
      unfold arrival at harrival
      cases hd : s.driver.disposed with
      | false => rfl
      | true =>
        rw [hd, Bool.or_true] at harrival
        cases harrival
    have hread : SessionUpdate.read params = some u := by
      unfold arrival at harrival
      split at harrival
      · cases harrival
      · exact harrival
    cases hadmission : s.driver.admission with
    | starting => exact h.buffer hadmission hdisposed u
    | admitted => exact h.deliver hadmission hread
    | unstarted =>
      have hself := @deliver_eq_self c s (by rw [hadmission]; decide) params u
      simp only [hself, reduceCtorEq, if_false, List.append_nil]
      exact h
    | failed =>
      have hself := @deliver_eq_self c s (by rw [hadmission]; decide) params u
      simp only [hself, reduceCtorEq, if_false, List.append_nil]
      exact h

theorem openSession (h : s.Ok c) (sessionId : JsText) (receipt : Option NekoTaskReceipt) :
    (s.openSession c sessionId receipt).Ok c := by
  unfold BufferedDriver.openSession
  dsimp only
  split
  · exact h
  next hguard =>
    simp only [Bool.or_eq_true, Bool.not_eq_true', decide_eq_true_eq, not_or, Bool.not_eq_false, not_not] at hguard
    obtain ⟨⟨hadmits, hstarting⟩, hadmitted⟩ := hguard
    obtain ⟨hdisposed, hdriver⟩ := AcpDriver.admitSession_eq hstarting hadmitted
    obtain ⟨hsession, hupdates, hbytes, hfits⟩ := h.starting hstarting
    obtain ⟨hlive, hprojected, -⟩ := h.unopened hsession
    rw [hdriver]
    have hserves : ∀ updates, Serves { s.clearAdmissionUpdates with
        driver := { s.driver with admission := .admitted, acpSessionId := some sessionId, taskReceipt := receipt }
        session := some ⟨sessionId, receipt⟩
        projected := updates } ⟨sessionId, receipt⟩ := fun _ => ⟨rfl, rfl, rfl⟩
    have hreplay := (hserves s.projected).replay (c := c) hdisposed s.admissionUpdates
    refine (congrArg (Ok c) hreplay).mpr ?_
    refine ⟨fun hadm => (nomatch hadm), fun hadm => (nomatch hadm), fun hnone => (nomatch hnone),
      fun session hsome => ?_, fun session hsome _ => ?_⟩
    · cases hsome
      refine ⟨?_, hfits⟩
      change s.projected ++ s.admissionUpdates.filter _ = (s.waited ++ s.live).filter _
      rw [hprojected, hlive, hupdates, List.nil_append, List.append_nil, AdmissionConfig.filter_kept hadmits]
    · cases hsome
      exact hserves _

theorem step (h : s.Ok c) (act : AdmissionAct) : (s.step c act).Ok c := by
  cases act with
  | openSession sessionId receipt => exact h.openSession sessionId receipt
  | notify method params => exact h.notify method params
  | driver act => exact h.act act

theorem run (c : AdmissionConfig) (acts : List AdmissionAct) : (BufferedDriver.run c acts).Ok c := by
  have hfold : ∀ (acts : List AdmissionAct) (s : BufferedDriver), s.Ok c → (acts.foldl (BufferedDriver.step c) s).Ok c := by
    intro acts
    induction acts with
    | nil => exact fun s h => h
    | cons act acts ih => exact fun s h => ih _ (h.step act)
  exact hfold acts {} initial

end Ok

/-! ## The driver in it -/

theorem handleNotification_driver (c : AdmissionConfig) (method : String) (params : JsValue) (s : BufferedDriver) :
    (s.handleNotification c method params).driver = s.driver ∨
      (s.handleNotification c method params).driver = s.driver.admissionOverflow := by
  unfold handleNotification
  split
  · exact .inl rfl
  · split
    · unfold buffer
      split
      · exact .inl rfl
      · split
        · exact .inr rfl
        · exact .inl rfl
    · unfold deliver
      split
      · exact .inl rfl
      · split
        · exact .inl rfl
        · split <;> exact .inl rfl

theorem act_driver (c : AdmissionConfig) (s : BufferedDriver) (act : AcpAct) :
    (s.act c act).driver = s.driver ∨ (s.act c act).driver = s.driver.step c.driver act := by
  cases act with
  | admitSession sessionId receipt => exact .inl rfl
  | admissionOverflow => exact .inl rfl
  | endStart =>
    refine .inr ?_
    unfold BufferedDriver.act
    dsimp only
    split <;> rfl
  | _ => exact .inr rfl

theorem driver_step (c : AdmissionConfig) (s : BufferedDriver) (act : AdmissionAct) :
    (s.step c act).driver = s.driver ∨ ∃ act', (s.step c act).driver = s.driver.step c.driver act' := by
  cases act with
  | notify method params =>
    rcases handleNotification_driver c method params s with hsame | hoverflow
    · exact .inl hsame
    · exact .inr ⟨.admissionOverflow, hoverflow⟩
  | openSession sessionId receipt =>
    change (s.openSession c sessionId receipt).driver = _ ∨ ∃ act', (s.openSession c sessionId receipt).driver = _
    unfold openSession
    dsimp only
    split
    · exact .inl rfl
    next hguard =>
      simp only [Bool.or_eq_true, Bool.not_eq_true', decide_eq_true_eq, not_or, Bool.not_eq_false, not_not] at hguard
      obtain ⟨⟨-, hstarting⟩, hadmitted⟩ := hguard
      obtain ⟨hdisposed, hdriver⟩ := AcpDriver.admitSession_eq hstarting hadmitted
      refine .inr ⟨.admitSession sessionId receipt, ?_⟩
      change _ = s.driver.admitSession c.driver sessionId receipt
      rw [hdriver]
      have hserves : Serves { s.clearAdmissionUpdates with
          driver := { s.driver with admission := .admitted, acpSessionId := some sessionId, taskReceipt := receipt }
          session := some ⟨sessionId, receipt⟩ } ⟨sessionId, receipt⟩ := ⟨rfl, rfl, rfl⟩
      exact congrArg BufferedDriver.driver (hserves.replay (c := c) hdisposed s.admissionUpdates)
  | driver act =>
    rcases act_driver c s act with hsame | hstep
    · exact .inl hsame
    · exact .inr ⟨act, hstep⟩

theorem driver_run (c : AdmissionConfig) (acts : List AdmissionAct) :
    ∃ acts', (run c acts).driver = AcpDriver.run c.driver acts' := by
  have hfold : ∀ (acts : List AdmissionAct) (s : BufferedDriver) (before : List AcpAct),
      s.driver = AcpDriver.run c.driver before →
      ∃ acts', (acts.foldl (step c) s).driver = AcpDriver.run c.driver acts' := by
    intro acts
    induction acts with
    | nil => exact fun s before hs => ⟨before, hs⟩
    | cons act acts ih =>
      intro s before hbefore
      rcases driver_step c s act with hsame | ⟨act', hstep⟩
      · exact ih _ before (hsame.trans hbefore)
      · refine ih _ (before ++ [act']) (hstep.trans ?_)
        rw [AcpDriver.run, List.foldl_append, hbefore]
        rfl
  exact hfold acts {} [] rfl

/-- What holds of the projected updates of every run. -/
structure Projects (c : AdmissionConfig) (s : BufferedDriver) : Prop where
  /-- The updates that belong to the session are projected once each and in their order, those of the buffer first. -/
  projected : ∀ session, s.session = some session →
    s.projected = (s.waited ++ s.live).filter (c.belongs session)
  /-- The session is the one that the driver has as long as it is ready. -/
  serves : ∀ session, s.session = some session → s.driver.isAdmitted = true → s.Serves session
  unopened : s.session = none → s.projected = [] ∧ s.driver.isAdmitted = false
  bounded : c.Exceeds s.waited → s.session = none

/-- What a session is sent before it is admitted is projected when it is, and nothing of it if it is not. -/
theorem projects_of_run (c : AdmissionConfig) (acts : List AdmissionAct) : (run c acts).Projects c := by
  have h := Ok.run c acts
  refine ⟨fun session hsome => (h.opened session hsome).1, fun session hsome hready => ?_, fun hnone => ?_,
    fun hexceeds => ?_⟩
  · unfold AcpDriver.isAdmitted at hready
    rw [Bool.and_eq_true, decide_eq_true_eq] at hready
    exact h.serves session hsome hready.2
  · obtain ⟨-, hprojected, hadm⟩ := h.unopened hnone
    refine ⟨hprojected, ?_⟩
    unfold AcpDriver.isAdmitted
    rw [decide_eq_false hadm, Bool.and_false]
  · cases hsession : (run c acts).session with
    | none => rfl
    | some session => exact absurd hexceeds (h.opened session hsession).2

def planUpdate (sessionId : String) : JsValue :=
  .object [("sessionId", .string (js sessionId)), ("update", .object [("sessionUpdate", .string (js "plan"))])]

def twoSessions : List AdmissionAct :=
  [.driver .start, .notify "session/update" (planUpdate "other"), .notify "session/update" (planUpdate "mine"),
    .openSession (js "mine") none, .driver .endStart, .notify "session/update" (planUpdate "mine")]

example : (run ⟨⟨false, false, id⟩, none, fun _ => 80⟩ twoSessions).projected.map SessionUpdate.sessionId =
    [js "mine", js "mine"] := by decide +kernel

/-- With a task scope, an update of the session that carries no receipt is not projected. -/
theorem unbound_update_dropped :
    let receipt : NekoTaskReceipt := ⟨js "task", js "Work", js "/work", 1, js "activation"⟩
    let s := run ⟨⟨true, false, id⟩, none, fun _ => 80⟩ [.driver .start,
      .notify "session/update" (planUpdate "mine"), .openSession (js "mine") (some receipt), .driver .endStart]
    s.driver.isAdmitted = true ∧ s.driver.acpSessionId = some (js "mine") ∧
      s.waited.map SessionUpdate.sessionId = [js "mine"] ∧ s.projected.length = 0 := by
  decide +kernel

end BufferedDriver

end Wiii.NekoChill
