import Wiii.Neko.Computer.Revoking

/-!
# Repeating a call on a seat or the revocation of a project

An acquisition and a release mark their effect before they revoke an input.  A request whose effect was started is not
begun again, and a release, which goes on all the same, cannot mark its effect a second time.
-/

namespace Wiii.Neko.Computer

open Dialog ComputerJournal

variable {world : World} {environmentId error : String} {db db' : ComputerJournal}

/-! ## Calls on a seat -/

namespace Service

variable (L : Libraries)

/-- What a release does once its effect is marked and the input revoked. -/
def releaseRevoked (call : SeatReleaseRequest) : Service DisplaySeat := do
  match ← await (.journal (.releaseSeat call.environmentId call.leaseId)) with
  | .error error => recordLocalRejection call.requestId "seat_release_rejected" error
  | .ok (.seat seat) =>
    let _ ← orUncertain call.requestId call.environmentId
      (← await (.journal (.completeRequest call.requestId (L.seatToValue seat))))
    pure seat
  | .ok _ => fail ""

def releaseBegun (call : SeatReleaseRequest) (environment : ComputerEnvironment) : Service DisplaySeat :=
  if environment.seat.leaseId ≠ some call.leaseId then
    recordLocalRejection call.requestId "seat_release_rejected" "Computer display lease is no longer current"
  else do
    let _ ← write (.markSideEffectStarted call.requestId)
    revokeActiveInput call.environmentId
    releaseRevoked L call

/-- What an acquisition does once its effect is marked and the input revoked. -/
def acquireRevoked (call : SeatAcquireRequest) : Service DisplaySeat := do
  match ← await (.journal (.acquireSeat call.environmentId call.ownerId call.userControlled)) with
  | .error error => recordLocalRejection call.requestId "seat_acquire_rejected" error
  | .ok (.seat seat) =>
    if !call.userControlled then
      match seat.leaseId with
      | none => fail "Computer lease is missing"
      | some leaseId => do
        orUncertain call.requestId call.environmentId (← await (.activateInput call.environmentId leaseId))
    let _ ← orUncertain call.requestId call.environmentId
      (← await (.journal (.completeRequest call.requestId (L.seatToValue seat))))
    pure seat
  | .ok _ => fail ""

end Service

section Seats

variable {L : Libraries}

theorem quiet_releaseRevoked (call : SeatReleaseRequest) : Only Request.quiet (Service.releaseRevoked L call) := by
  refine only_request_bind trivial fun answer => ?_
  split
  · exact only_recordLocalRejection trivial
  · exact only_request_bind trivial fun _ => (only_orUncertain trivial _).bind fun _ => only_pure _
  · exact only_fail _

theorem quiet_acquireRevoked (call : SeatAcquireRequest) : Only Request.quiet (Service.acquireRevoked L call) := by
  have completes : ∀ seat : DisplaySeat, Only Request.quiet (do
      let _ ← Service.orUncertain call.requestId call.environmentId
        (← Service.await (.journal (.completeRequest call.requestId (L.seatToValue seat))))
      pure seat : Service DisplaySeat) := fun seat =>
    only_request_bind trivial fun _ => (only_orUncertain trivial _).bind fun _ => only_pure _
  refine only_request_bind trivial fun answer => ?_
  split
  · exact only_recordLocalRejection trivial
  · rename_i seat
    split_ifs
    · cases seat.leaseId with
      | none => exact only_fail _
      | some leaseId =>
        exact only_request_bind trivial fun _ => (only_orUncertain trivial _).bind fun _ => completes seat
    · exact completes seat
  · exact only_fail _

theorem recorded_of_write_mark {requestId method targetId : String} {phases : List RequestPhase}
    {answer : Answer} (hrecorded : Recorded requestId method targetId phases db)
    (h : (Service.write (.markSideEffectStarted requestId)).alone (respond world) db = (.ok answer, db')) :
    Recorded requestId method targetId [.sideEffectStarted] db' := by
  obtain ⟨⟨x, db₁⟩, hmark, heq⟩ := map_ok_iff.1 (alone_write_ok h)
  cases heq
  exact (recorded_of_markSideEffectStarted hrecorded hmark).2

theorem Revoking.releaseSeat {call : SeatReleaseRequest}
    (h : Revoking world environmentId error (Service.releaseSeat L call) db db') :
    Recorded call.requestId "computer/seat/release" call.environmentId [.sideEffectStarted] db' ∧
      HeldByAgent environmentId db' := by
  obtain ⟨environment, t, -, h⟩ := h.of_withGuard.of_bind (only_requireEnvironment quiet_of_looks _)
  obtain ⟨decision, u, hbegin, h⟩ := h.of_bind (only_beginRequest trivial)
  rw [alone_beginRequest_ok_iff] at hbegin
  suffices hbegun : decision = .execute ∨ decision = .unknownOutcome →
      Revoking world environmentId error (Service.releaseBegun L call environment) u db' →
      Recorded call.requestId "computer/seat/release" call.environmentId [.sideEffectStarted] db' ∧
        HeldByAgent environmentId db' by
    cases decision with
    | replay value => exact (h.not_of_quiet (only_ofExcept _)).elim
    | recordedError code => exact h.not_of_fail.elim
    | unknownOutcome => exact hbegun (.inr rfl) h
    | execute => exact hbegun (.inl rfl) h
  intro hopen h
  obtain ⟨-, hrecorded, -⟩ := recorded_of_beginRequest hbegin hopen
  unfold Service.releaseBegun at h
  split_ifs at h
  · exact (h.not_of_quiet (only_recordLocalRejection trivial)).elim
  · obtain ⟨answer, v, hmark, h⟩ := h.of_bind (only_write trivial)
    obtain ⟨-, rfl, hheld⟩ := h.of_revoke (quiet_releaseRevoked call)
    exact ⟨recorded_of_write_mark hrecorded hmark, hheld⟩

theorem Revoking.acquireSeat {call : SeatAcquireRequest}
    (h : Revoking world environmentId error (Service.acquireSeat L call) db db') :
    Recorded call.requestId "computer/seat/acquire" call.environmentId [.sideEffectStarted] db' ∧
      HeldByAgent environmentId db' := by
  obtain ⟨environment, t, -, h⟩ := h.of_withGuard.of_bind (only_requireEnvironment quiet_of_looks _)
  by_cases hready : environment.state ≠ .ready
  · rw [if_pos hready] at h
    exact h.not_of_fail.elim
  · rw [if_neg hready] at h
    obtain ⟨decision, u, hbegin, h⟩ := h.of_bind (only_beginRequest trivial)
    rw [alone_beginRequest_ok_iff] at hbegin
    cases decision with
    | replay value => exact (h.not_of_quiet (only_ofExcept _)).elim
    | recordedError code => exact h.not_of_fail.elim
    | unknownOutcome => exact h.not_of_fail.elim
    | execute =>
      obtain ⟨-, hrecorded, -⟩ := recorded_of_beginRequest hbegin (.inl rfl)
      obtain ⟨answer, v, hmark, h⟩ := h.of_bind (only_write trivial)
      by_cases huser : call.userControlled = true
      · replace h : Revoking world environmentId error
            (Service.revokeActiveInput call.environmentId >>= fun _ => Service.acquireRevoked L call) v db' := by
          rw [if_pos huser] at h
          exact h
        obtain ⟨-, rfl, hheld⟩ := h.of_revoke (quiet_acquireRevoked call)
        exact ⟨recorded_of_write_mark hrecorded hmark, hheld⟩
      · replace h : Revoking world environmentId error (Service.acquireRevoked L call) v db' := by
          rw [if_neg huser] at h
          exact h
        exact (h.not_of_quiet (quiet_acquireRevoked call)).elim

/-! ### The same call again -/

theorem not_releaseSeat {call : SeatReleaseRequest}
    (hrecorded : Recorded call.requestId "computer/seat/release" call.environmentId [.sideEffectStarted] db)
    {seat : DisplaySeat} : (Service.releaseSeat L call).alone (respond world) db ≠ (.ok seat, db') := by
  intro hrun
  rw [Service.releaseSeat, alone_withGuard] at hrun
  obtain ⟨environment, t, henv, hbegins⟩ := alone_bind_ok_iff.1 hrun
  obtain ⟨decision, u, hbegin, hbegun⟩ := alone_bind_ok_iff.1 hbegins
  rw [alone_requireEnvironment] at henv
  rw [alone_beginRequest_ok_iff] at hbegin
  obtain ⟨-, rfl⟩ := Prod.mk.inj henv
  obtain ⟨rfl, rfl⟩ := beginRequest_of_recorded (hrecorded.mono (by simp)) hbegin
  replace hbegun : (Service.releaseBegun L call environment).alone (respond world) u = (.ok seat, db') := hbegun
  unfold Service.releaseBegun at hbegun
  split_ifs at hbegun
  · exact not_recordLocalRejection hbegun
  · obtain ⟨answer, v, hmarks, -⟩ := alone_bind_ok_iff.1 hbegun
    obtain ⟨⟨x, w⟩, hmark, -⟩ := map_ok_iff.1 (alone_write_ok hmarks)
    exact not_markSideEffectStarted hrecorded hmark

theorem not_acquireSeat {call : SeatAcquireRequest}
    (hrecorded : Recorded call.requestId "computer/seat/acquire" call.environmentId [.sideEffectStarted] db)
    {seat : DisplaySeat} : (Service.acquireSeat L call).alone (respond world) db ≠ (.ok seat, db') := by
  intro hrun
  rw [Service.acquireSeat, alone_withGuard] at hrun
  obtain ⟨environment, t, henv, hbegins⟩ := alone_bind_ok_iff.1 hrun
  rw [alone_requireEnvironment] at henv
  obtain ⟨-, rfl⟩ := Prod.mk.inj henv
  by_cases hready : environment.state ≠ .ready
  · rw [if_pos hready, alone_fail] at hbegins
    cases (Prod.mk.inj hbegins).1
  · rw [if_neg hready] at hbegins
    obtain ⟨decision, u, hbegin, hbegun⟩ := alone_bind_ok_iff.1 hbegins
    rw [alone_beginRequest_ok_iff] at hbegin
    obtain ⟨rfl, -⟩ := beginRequest_of_recorded (hrecorded.mono (by simp)) hbegin
    cases (Prod.mk.inj hbegun).1

end Seats

/-! ## The revocation of a project -/

theorem HeldByAgent.not_available (h : HeldByAgent environmentId db) : ¬ SeatAvailable db environmentId := by
  obtain ⟨seat, hseat, hstate⟩ := h
  rintro ⟨other, hother, havailable⟩
  rw [hseat] at hother
  cases hother
  rw [hstate] at havailable
  cases havailable

namespace Service

/-- What the revocation of a project does once its environment is detached. -/
def revokeProjectDetached (call : ComputerProjectRevokeRequest) (activeEnvironment : Option String) :
    Service Unit := do
  match ← await (.journal (.revokeProject call.coworkerId call.projectId)) with
  | .error error =>
    match activeEnvironment with
    | some environmentId => uncertain call.requestId environmentId error
    | none => fail error
  | .ok _ =>
    let _ ← write (.completeRequest call.requestId
      (.object [("revoked", .bool true), ("projectId", .string call.projectId)]))
    pure ()

/-- What the revocation of a project does once it is begun. -/
def revokeProjectBegun (call : ComputerProjectRevokeRequest) (activeEnvironment : Option String) :
    Service Unit := do
  match activeEnvironment with
  | some environmentId =>
    let _ ← write (.markSideEffectStarted call.requestId)
    orUncertain call.requestId environmentId (← await (.detach environmentId))
  | none => pure ()
  revokeProjectDetached call activeEnvironment

/-- What the revocation of a project does once the input is revoked. -/
def revokeProjectRevoked (L : Libraries) (call : ComputerProjectRevokeRequest) : Service Unit :=
  withGuard .operations do
    match ← beginRequest call.requestId "computer/project/revoke"
        (projectOperationTarget L call.coworkerId call.projectId) with
    | .replay _ => pure ()
    | .recordedError code => fail code
    | .unknownOutcome => fail "unknown_outcome: project revocation needs inspection"
    | .execute =>
      let activeEnvironment := activeOn call.projectId (← ofExcept (← await (.coworkerBinding call.coworkerId)))
      revokeProjectBegun call activeEnvironment

theorem activeOn_eq_some_iff {projectId : String} {found : Option CoworkerBinding} :
    activeOn projectId found = some environmentId ↔
      ∃ binding, found = some binding ∧ binding.activeProjectId = some projectId ∧
        binding.environmentId = environmentId := by
  unfold activeOn
  rw [Option.map_eq_some_iff]
  simp only [Option.filter_eq_some_iff, decide_eq_true_eq, and_assoc]

end Service

section Projects

variable {L : Libraries} {call : ComputerProjectRevokeRequest}

theorem quiet_revokeProjectDetached (active : Option String) :
    Only Request.quiet (Service.revokeProjectDetached call active) := by
  refine only_request_bind trivial fun answer => ?_
  cases answer with
  | error error =>
    cases active with
    | none => exact only_fail _
    | some environmentId => exact only_request_bind trivial fun _ => only_fail _
  | ok answer => exact (only_write trivial).bind fun _ => only_pure _

theorem quiet_revokeProjectRevoked : Only Request.quiet (Service.revokeProjectRevoked L call) := by
  refine only_withGuard quiet_of_looks _ ((only_beginRequest trivial).bind fun decision => ?_)
  cases decision with
  | replay value => exact only_pure _
  | recordedError code => exact only_fail _
  | unknownOutcome => exact only_fail _
  | execute =>
    refine only_request_bind trivial fun answer => (only_ofExcept _).bind fun binding => ?_
    cases Service.activeOn call.projectId binding with
    | none => exact quiet_revokeProjectDetached none
    | some environmentId =>
      exact (only_write trivial).bind fun _ => only_request_bind trivial fun _ =>
        (only_orUncertain trivial _).bind fun _ => quiet_revokeProjectDetached (some environmentId)

theorem alone_coworkerBinding_bind {β : Type} {coworkerId : String} {found : Option CoworkerBinding}
    {f : Option CoworkerBinding → Service β} (hfound : db.coworkerBinding coworkerId = .ok found) :
    (Service.await (.coworkerBinding coworkerId) >>= fun answer => ofExcept answer >>= f).alone
      (respond world) db = (f found).alone (respond world) db := by
  rw [Service.await, alone_request_bind]
  change Dialog.alone (respond world) (ofExcept (db.coworkerBinding coworkerId) >>= f) db = _
  rw [hfound]
  rfl

theorem activeOn_binding {binding : CoworkerBinding} (hactive : binding.activeProjectId = some call.projectId) :
    Service.activeOn call.projectId (some binding) = some binding.environmentId :=
  Service.activeOn_eq_some_iff.2 ⟨binding, rfl, hactive, rfl⟩

/-- The revocation of a project whose environment is active revokes its input first. -/
theorem alone_revokeProject {binding : CoworkerBinding}
    (hbinding : db.coworkerBinding call.coworkerId = .ok (some binding))
    (hactive : binding.activeProjectId = some call.projectId) :
    (Service.revokeProject L call).alone (respond world) db =
      (Service.revokeActiveInput binding.environmentId >>= fun _ =>
        Service.revokeProjectRevoked L call).alone (respond world) db := by
  rw [Service.revokeProject, alone_withGuard]
  refine (alone_coworkerBinding_bind hbinding).trans ?_
  rw [activeOn_binding hactive]
  rfl

theorem revokeProjectBegun_some (environmentId : String) :
    Service.revokeProjectBegun call (some environmentId) = (do
      let _ ← Service.write (.markSideEffectStarted call.requestId)
      Service.orUncertain call.requestId environmentId (← Service.await (.detach environmentId))
      Service.revokeProjectDetached call (some environmentId)) := rfl

theorem Revoking.revokeProject
    (h : Revoking world environmentId error (Service.revokeProject L call) db db') :
    db' = db ∧ HeldByAgent environmentId db ∧ ∃ binding, db.coworkerBinding call.coworkerId = .ok (some binding) ∧
      binding.activeProjectId = some call.projectId ∧ binding.environmentId = environmentId := by
  obtain ⟨answer, t, hanswer, h⟩ := Breaks.of_bind h.of_withGuard rfl
  cases hanswer
  obtain ⟨found, u, hfound, h⟩ := Revoking.of_bind h (only_ofExcept _)
  rw [alone_ofExcept] at hfound
  obtain ⟨hread, rfl⟩ := Prod.mk.inj hfound
  cases hactive : Service.activeOn call.projectId found with
  | none =>
    replace h : Revoking world environmentId error (Service.revokeProjectRevoked L call) db db' := by
      rw [hactive] at h
      exact h
    exact (h.not_of_quiet quiet_revokeProjectRevoked).elim
  | some other =>
    replace h : Revoking world environmentId error
        (Service.revokeActiveInput other >>= fun _ => Service.revokeProjectRevoked L call) db db' := by
      rw [hactive] at h
      exact h
    obtain ⟨rfl, rfl, hheld⟩ := h.of_revoke quiet_revokeProjectRevoked
    obtain ⟨binding, rfl, hproject, henv⟩ := Service.activeOn_eq_some_iff.1 hactive
    exact ⟨rfl, hheld, binding, hread, hproject, henv⟩

def revokedPayload (coworkerId projectId : String) : Value :=
  .object [("coworkerId", .string coworkerId), ("projectId", .string projectId)]

variable {newV4 : ℕ → String} {now : Timestamp} {coworkerId projectId : String} {binding : CoworkerBinding}

/-- What the journal checks before it revokes the active project of a coworker. -/
structure Revocable (coworkerId projectId : String) (db : ComputerJournal) (binding : CoworkerBinding) : Prop where
  coworker : validateIdentifier coworkerId "coworker" = .ok ()
  project : validateIdentifier projectId "Project ID" = .ok ()
  size : (revokedPayload coworkerId projectId).encodedLength ≤ maxEventPayloadBytes
  bound : db.bindings.find? coworkerId = some binding
  active : binding.activeProjectId = some projectId
  environment : (db.environments.find? binding.environmentId).isSome

theorem Revocable.congr (h : Revocable coworkerId projectId db binding) (hbindings : db'.bindings = db.bindings)
    (henvironments : db'.environments = db.environments) : Revocable coworkerId projectId db' binding :=
  { h with bound := by rw [hbindings, h.bound], environment := by rw [henvironments]; exact h.environment }

theorem revocable_of_revokeProject {x : Option String × ComputerJournal}
    (hbinding : db.bindings.find? coworkerId = some binding) (hactive : binding.activeProjectId = some projectId)
    (h : revokeProject newV4 coworkerId projectId now db = .ok x) : Revocable coworkerId projectId db binding := by
  obtain ⟨hcoworker, h⟩ := bind_unit_ok_iff.1 h
  obtain ⟨hproject, h⟩ := bind_unit_ok_iff.1 h
  have hfilter : (db.bindings.find? coworkerId).filter
      (fun binding => decide (binding.activeProjectId = some projectId)) = some binding :=
    Option.filter_eq_some_iff.2 ⟨hbinding, decide_eq_true hactive⟩
  dsimp only at h
  rw [hfilter] at h
  obtain ⟨⟨released, db₁⟩, hmake, h⟩ := bind_ok_iff.1 h
  obtain ⟨db₂, happend, -⟩ := bind_ok_iff.1 h
  obtain ⟨events, tail, drawn, -, -, rfl⟩ := makeSeatAvailableTx_ok hmake
  obtain ⟨hsize, henv, -⟩ := appendEventTx_ok_iff.1 happend
  refine ⟨hcoworker, hproject, hsize, hbinding, hactive, ?_⟩
  simpa [updateEnvironment, updateBindingWhere, updateSeatWhere, Table.find?_update] using henv

theorem exists_makeSeatAvailableTx (newV4 : ℕ → String) (now : Timestamp) (db : ComputerJournal)
    (eventType : String) {payload : Value} (hsize : payload.encodedLength ≤ maxEventPayloadBytes)
    (henv : (db.environments.find? environmentId).isSome) :
    ∃ x, makeSeatAvailableTx newV4 now environmentId eventType payload db = .ok x := by
  unfold makeSeatAvailableTx
  dsimp only
  split_ifs
  · have hreleased : ((db.updateSeatWhere (held environmentId) (SeatRow.release now)).environments.find?
        environmentId).isSome := henv
    obtain ⟨db₁, happend⟩ := exists_appendEventTx newV4 now hsize hreleased eventType
    exact ⟨(true, db₁), bind_ok_iff.2 ⟨db₁, happend, rfl⟩⟩
  · exact ⟨_, rfl⟩

/-- A project that can be revoked is revoked, and its seat is available then. -/
theorem Revocable.revokeProject (h : Revocable coworkerId projectId db binding) (newV4 : ℕ → String)
    (now : Timestamp) (hseat : (db.seats.find? binding.environmentId).isSome) :
    ∃ db', ComputerJournal.revokeProject newV4 coworkerId projectId now db = .ok (some binding.environmentId, db') ∧
      db'.requests = db.requests ∧ SeatAvailable db' binding.environmentId := by
  suffices hok : ∃ db', ComputerJournal.revokeProject newV4 coworkerId projectId now db =
      .ok (some binding.environmentId, db') by
    obtain ⟨db', hok⟩ := hok
    refine ⟨db', hok, ?_⟩
    rcases revokeProject_ok hok with ⟨hnone, -⟩ | ⟨binding', hbinding', -, -, _, _, _, -, -, rfl⟩
    · cases hnone
    · obtain rfl := Option.some.inj (h.bound.symm.trans hbinding')
      exact ⟨rfl, seatAvailable_of_release rfl hseat⟩
  have hfilter : (db.bindings.find? coworkerId).filter
      (fun binding => decide (binding.activeProjectId = some projectId)) = some binding :=
    Option.filter_eq_some_iff.2 ⟨h.bound, decide_eq_true h.active⟩
  obtain ⟨⟨released, db₁⟩, hmake⟩ := exists_makeSeatAvailableTx newV4 now
    { db with grants := ungranted coworkerId projectId db } "seat.project_revoked" h.size h.environment
  have hsame : db₁.environments = db.environments := by
    obtain ⟨events, tail, drawn, -, -, rfl⟩ := makeSeatAvailableTx_ok hmake
    rfl
  have henv : (((db₁.updateBindingWhere (fun other => decide (other.coworkerId = coworkerId))
      (detached now)).updateEnvironment binding.environmentId fun row =>
        { row with state := .suspended, updatedAt := now }).environments.find? binding.environmentId).isSome := by
    simpa [updateEnvironment, updateBindingWhere, Table.find?_update, hsame] using h.environment
  obtain ⟨db₂, happend⟩ := exists_appendEventTx newV4 now h.size henv "computer.project_revoked"
  refine ⟨db₂, bind_unit_ok_iff.2 ⟨h.coworker, bind_unit_ok_iff.2 ⟨h.project, ?_⟩⟩⟩
  dsimp only
  rw [hfilter]
  exact bind_ok_iff.2 ⟨_, hmake, bind_ok_iff.2 ⟨db₂, happend, rfl⟩⟩

theorem alone_orUncertain_ok {β : Type} {requestId other : String} {answer : Except String β} {b : β}
    (h : (Service.orUncertain requestId other answer).alone (respond world) db = (.ok b, db')) :
    answer = .ok b ∧ db' = db := by
  cases answer with
  | ok b' =>
    cases h
    exact ⟨rfl, rfl⟩
  | error e =>
    have herror : (Service.orUncertain requestId other (.error e) : Service β).alone (respond world) db =
        (.error s!"unknown_outcome: {e}", (respond world (.journal (.markUnknownOutcome requestId other)) db).2) :=
      rfl
    rw [herror] at h
    cases h

theorem revokeProject_of_detached {active : Option String}
    (h : (Service.revokeProjectDetached call active).alone (respond world) db = (.ok (), db')) :
    ∃ x, ComputerJournal.revokeProject world.newV4 call.coworkerId call.projectId
      (world.clock (.revokeProject call.coworkerId call.projectId)) db = .ok x := by
  rw [Service.revokeProjectDetached, Service.await, alone_request_bind] at h
  dsimp only [respond] at h
  rw [perform, Op.apply] at h
  cases hrevoke : ComputerJournal.revokeProject world.newV4 call.coworkerId call.projectId
      (world.clock (.revokeProject call.coworkerId call.projectId)) db with
  | ok x => exact ⟨x, rfl⟩
  | error e =>
    rw [hrevoke] at h
    cases active with
    | none => cases (Prod.mk.inj h).1
    | some environmentId => cases (Prod.mk.inj h).1

theorem revocable_of_completes (hbinding : db.coworkerBinding call.coworkerId = .ok (some binding))
    (hactive : binding.activeProjectId = some call.projectId)
    (hnew : db.requests.find? call.requestId = none)
    (h : (Service.revokeProjectRevoked L call).alone (respond world) db = (.ok (), db')) :
    validateIdentifier call.requestId "request ID" = .ok () ∧
      Revocable call.coworkerId call.projectId db binding := by
  rw [Service.revokeProjectRevoked, alone_withGuard] at h
  obtain ⟨decision, u, hbegin, h⟩ := alone_bind_ok_iff.1 h
  rw [alone_beginRequest_ok_iff] at hbegin
  obtain ⟨hvalid, ⟨stored, hstored, -⟩ | ⟨requests, -, rfl, rfl⟩⟩ := beginRequest_ok_iff.1 hbegin
  · rw [hnew] at hstored
    cases hstored
  refine ⟨hvalid, ?_⟩
  obtain ⟨-, hfound⟩ := bind_unit_ok_iff.1 hbinding
  have hread : ({ db with requests := requests } : ComputerJournal).coworkerBinding call.coworkerId =
      .ok (some binding) := hbinding
  have hbegun : (Service.revokeProjectBegun call (Service.activeOn call.projectId (some binding))).alone
      (respond world) { db with requests := requests } = (.ok (), db') :=
    (alone_coworkerBinding_bind hread).symm.trans h
  rw [activeOn_binding hactive, revokeProjectBegun_some] at hbegun
  obtain ⟨answer, v, hmarks, hmarked⟩ := alone_bind_ok_iff.1 hbegun
  obtain ⟨⟨x, w⟩, hmark, heq⟩ := map_ok_iff.1 (alone_write_ok hmarks)
  cases heq
  obtain ⟨-, rfl⟩ := advanceRequest_ok_iff.1 hmark
  rw [Service.await, alone_request_bind] at hmarked
  obtain ⟨⟨⟩, v, hdetach, hdetached⟩ := alone_bind_ok_iff.1 hmarked
  obtain ⟨-, rfl⟩ := alone_orUncertain_ok hdetach
  obtain ⟨y, hrevoked⟩ := revokeProject_of_detached hdetached
  have hrevocable := (fun hbound => revocable_of_revokeProject hbound hactive hrevoked) (Except.ok.inj hfound)
  exact hrevocable.congr rfl rfl

theorem alone_write_of_apply {op : Op} {answer : Answer}
    (h : op.apply world.newV4 (world.clock op) db = .ok (answer, db')) :
    (Service.write op).alone (respond world) db = (.ok answer, db') := by
  rw [alone_write, perform, h]

theorem advanceRequest_of_recorded {requestId method targetId refused : String} {phases : List RequestPhase}
    {f : StoredRequest → StoredRequest} {hf : ∀ r, (f r).requestId = r.requestId}
    (h : Recorded requestId method targetId phases db) :
    advanceRequest requestId phases refused f hf db =
      .ok ((), db.updateRequestWhere (due requestId phases) f hf) := by
  obtain ⟨row, hfind, -, -, hphase⟩ := h
  obtain ⟨hmem, hid⟩ := Table.find?_eq_some_iff.1 hfind
  refine advanceRequest_ok_iff.2 ⟨List.any_eq_true.2 ⟨row, hmem, ?_⟩, rfl⟩
  rw [due, decide_eq_true hid, decide_eq_true hphase]
  rfl

/-- The provider takes revocations and detachments. -/
structure World.Works (world : World) : Prop where
  revokeInput : ∀ environmentId leaseId, world.provider (.revokeInput environmentId leaseId) = .ok ()
  detach : ∀ environmentId, world.provider (.detach environmentId) = .ok ()

theorem completes_revokeProjectRevoked (hworks : world.Works)
    (hbinding : db.coworkerBinding call.coworkerId = .ok (some binding))
    (hvalid : validateIdentifier call.requestId "request ID" = .ok ())
    (hrevocable : Revocable call.coworkerId call.projectId db binding)
    (hseat : (db.seats.find? binding.environmentId).isSome)
    (hnew : db.requests.find? call.requestId = none) :
    ∃ db', (Service.revokeProjectRevoked L call).alone (respond world) db = (.ok (), db') ∧
      SeatAvailable db' binding.environmentId := by
  let target := Service.projectOperationTarget L call.coworkerId call.projectId
  let row := newRequest call.requestId "computer/project/revoke" target
    (world.clock (.beginRequest call.requestId "computer/project/revoke" target))
  obtain ⟨requests, hinsert⟩ : ∃ requests, db.requests.insert? row = some requests := by
    cases hinsert : db.requests.insert? row with
    | none => exact absurd hnew (Table.insert?_eq_none_iff.1 hinsert)
    | some requests => exact ⟨requests, rfl⟩
  have hbegin : beginRequest call.requestId "computer/project/revoke" target
      (world.clock (.beginRequest call.requestId "computer/project/revoke" target)) db =
        .ok (.execute, { db with requests := requests }) :=
    beginRequest_ok_iff.2 ⟨hvalid, .inr ⟨requests, hinsert, rfl, rfl⟩⟩
  have haccepted := (recorded_of_beginRequest hbegin (.inl rfl)).2.2 rfl
  obtain ⟨marked, hmark⟩ : ∃ marked, markSideEffectStarted call.requestId
      (world.clock (.markSideEffectStarted call.requestId)) { db with requests := requests } = .ok ((), marked) :=
    ⟨_, advanceRequest_of_recorded haccepted⟩
  obtain ⟨⟨requests', rfl⟩, hstarted⟩ := recorded_of_markSideEffectStarted haccepted hmark
  have hmarked : Revocable call.coworkerId call.projectId { db with requests := requests' } binding :=
    hrevocable.congr rfl rfl
  obtain ⟨revoked, hrevoke, hrequests, hseats⟩ := hmarked.revokeProject world.newV4
    (world.clock (.revokeProject call.coworkerId call.projectId)) hseat
  obtain ⟨completed, hcomplete⟩ : ∃ completed, completeRequest call.requestId
      (.object [("revoked", .bool true), ("projectId", .string call.projectId)])
      (world.clock (.completeRequest call.requestId
        (.object [("revoked", .bool true), ("projectId", .string call.projectId)]))) revoked =
      .ok ((), completed) := by
    obtain ⟨started, hfind, hmethod, htarget, hphase⟩ := hstarted
    have hdue : Recorded call.requestId "computer/project/revoke" target [.accepted, .sideEffectStarted] revoked :=
      ⟨started, hrequests ▸ hfind, hmethod, htarget, List.mem_cons_of_mem _ hphase⟩
    exact ⟨_, advanceRequest_of_recorded hdue⟩
  have hread : ({ db with requests := requests } : ComputerJournal).coworkerBinding call.coworkerId =
      .ok (some binding) := hbinding
  refine ⟨completed, ?_, ?_⟩
  · rw [Service.revokeProjectRevoked, alone_withGuard]
    refine alone_bind_ok_iff.2 ⟨.execute, _, alone_beginRequest_ok_iff.2 hbegin, ?_⟩
    refine (alone_coworkerBinding_bind hread).trans ?_
    rw [activeOn_binding hrevocable.active, revokeProjectBegun_some]
    refine alone_bind_ok_iff.2 ⟨.done, _, alone_write_of_apply (map_ok_iff.2 ⟨_, hmark, rfl⟩), ?_⟩
    rw [Service.await, alone_request_bind]
    dsimp only [respond]
    rw [hworks.detach]
    change (Service.revokeProjectDetached call (some binding.environmentId)).alone (respond world) _ = _
    rw [Service.revokeProjectDetached, Service.await, alone_request_bind]
    dsimp only [respond]
    rw [perform, Op.apply, hrevoke]
    exact alone_bind_ok_iff.2 ⟨.done, completed, alone_write_of_apply (map_ok_iff.2 ⟨_, hcomplete, rfl⟩), rfl⟩
  · obtain ⟨-, rfl⟩ := advanceRequest_ok_iff.1 hcomplete
    exact hseats

theorem revocation_works {later : World} (hworks : later.Works) {environment : ComputerEnvironment}
    (h : revocation world environmentId environment = .ok ()) :
    revocation later environmentId environment = .ok () := by
  unfold revocation at h ⊢
  split_ifs at h ⊢
  · cases hlease : environment.seat.leaseId with
    | none =>
      rw [hlease] at h
      cases h
    | some leaseId => exact hworks.revokeInput environmentId leaseId
  · rfl

theorem alone_revokeActiveInput_ok
    (h : (Service.revokeActiveInput environmentId).alone (respond world) db = (.ok (), db')) :
    db' = db ∧ ∀ later : World, later.Works →
      (Service.revokeActiveInput environmentId).alone (respond later) db = (.ok (), db) := by
  rw [alone_revokeActiveInput] at h
  cases hread : requireEnvironment environmentId db with
  | error e =>
    rw [hread] at h
    cases h
  | ok environment =>
    rw [hread] at h
    obtain ⟨hok, rfl⟩ := Prod.mk.inj h
    refine ⟨rfl, fun later hworks => ?_⟩
    rw [alone_revokeActiveInput, hread]
    exact Prod.ext (revocation_works hworks hok) rfl

theorem revokeProject_again_iff {later : World} (hworks : later.Works)
    (h : Revoking world environmentId error (Service.revokeProject L call) db db') :
    (∃ db₂, (Service.revokeProject L call).alone (respond later) db' = (.ok (), db₂) ∧
      SeatAvailable db₂ environmentId) ↔ db.requests.find? call.requestId = none := by
  obtain ⟨rfl, hheld, binding, hbinding, hactive, rfl⟩ := h.revokeProject
  rw [alone_revokeProject hbinding hactive]
  constructor
  · rintro ⟨db₂, hrun, havailable⟩
    obtain ⟨⟨⟩, t, hrevoke, hrest⟩ := alone_bind_ok_iff.1 hrun
    obtain ⟨rfl, -⟩ := alone_revokeActiveInput_ok hrevoke
    rw [Service.revokeProjectRevoked, alone_withGuard] at hrest
    obtain ⟨decision, u, hbegin, hbegun⟩ := alone_bind_ok_iff.1 hrest
    rw [alone_beginRequest_ok_iff] at hbegin
    obtain ⟨-, ⟨stored, -, hdecision, rfl⟩ | ⟨requests, hinsert, -⟩⟩ := beginRequest_ok_iff.1 hbegin
    · cases decision with
      | replay value =>
        cases hbegun
        exact absurd havailable hheld.not_available
      | recordedError code => cases (Prod.mk.inj hbegun).1
      | unknownOutcome => cases (Prod.mk.inj hbegun).1
      | execute => exact absurd rfl (requestDecision_ok hdecision).2.2.1
    · exact (Table.insert?_eq_some_iff.1 hinsert).1
  · intro hnew
    obtain ⟨⟨⟩, t, hcompletes⟩ := h.completes
    rw [alone_revokeProject hbinding hactive] at hcompletes
    obtain ⟨⟨⟩, u, hrevoke, hrest⟩ := alone_bind_ok_iff.1 hcompletes
    obtain ⟨rfl, hagain⟩ := alone_revokeActiveInput_ok hrevoke
    obtain ⟨hvalid, hrevocable⟩ := revocable_of_completes hbinding hactive hnew hrest
    obtain ⟨seat, hseat, -⟩ := hheld
    obtain ⟨db₂, hrun, havailable⟩ := completes_revokeProjectRevoked (L := L) hworks hbinding hvalid hrevocable
      (Option.isSome_of_eq_some hseat) hnew
    exact ⟨db₂, alone_bind_ok_iff.2 ⟨(), _, hagain later hworks, hrun⟩, havailable⟩

end Projects

end Wiii.Neko.Computer
