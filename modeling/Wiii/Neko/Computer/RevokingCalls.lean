import Wiii.Neko.Computer.Retry

/-!
# The calls that revoke an input

Seven calls of the service revoke the input of the agent before they go on.  Where the provider does not take the
revocation the call ends.  Those that mark their effect or record the request first are answered that the outcome is not
known from then on; a suspension and a reset go on when repeated, but they leave the seat with the agent.
-/

namespace Wiii.Neko.Computer

open Dialog ComputerJournal

variable {world later : LifecycleWorld} {environmentId error : String} {db db' : ComputerJournal}

/-! ## What leaves the seats alone -/

/-- The operation writes nothing of a seat. -/
def Op.keepsSeats : Op → Prop
  | .beginRequest .. | .markSideEffectStarted _ | .completeRequest .. | .failRequest ..
  | .markUnknownOutcome .. | .setEnvironmentState .. => True
  | _ => False

theorem seats_of_apply {newV4 : ℕ → String} {now : Timestamp} {op : Op} {answer : Answer} (hop : op.keepsSeats)
    (h : op.apply newV4 now db = .ok (answer, db')) : db'.seats = db.seats := by
  cases op
  case beginRequest =>
    obtain ⟨⟨x, db₁⟩, hbegin, heq⟩ := map_ok_iff.1 h
    cases heq
    rcases (beginRequest_ok_iff.1 hbegin).2 with ⟨_, _, _, rfl⟩ | ⟨_, _, _, rfl⟩ <;> rfl
  case markSideEffectStarted | completeRequest | failRequest =>
    obtain ⟨⟨x, db₁⟩, hadvance, heq⟩ := map_ok_iff.1 h
    cases heq
    obtain ⟨-, rfl⟩ := advanceRequest_ok_iff.1 hadvance
    rfl
  case markUnknownOutcome =>
    obtain ⟨⟨x, db₁⟩, hmark, heq⟩ := map_ok_iff.1 h
    cases heq
    obtain ⟨-, _, _, _, -, -, rfl⟩ := markUnknownOutcome_ok hmark
    rfl
  case setEnvironmentState =>
    obtain ⟨⟨x, db₁⟩, hset, heq⟩ := map_ok_iff.1 h
    cases heq
    obtain ⟨_, _, _, -, -, rfl⟩ := setEnvironmentState_ok hset
    rfl
  all_goals exact hop.elim

theorem seats_perform (newV4 : ℕ → String) {op : Op} (hop : op.keepsSeats) (now : Timestamp) (db : ComputerJournal) :
    (perform newV4 op now db).2.seats = db.seats := by
  unfold perform
  split
  case h_1 => rfl
  case h_2 happly => exact seats_of_apply hop happly

/-- The request writes nothing of a seat. -/
def Request.keepsSeats : Request → Prop
  | .journal op => op.keepsSeats
  | _ => True

theorem keepsSeats_of_looks (r : Request) (hr : r.looks) : r.keepsSeats := by
  cases r <;> trivial

abbrev keepsSeatsAll : Request ⊕ LifecycleRequest → Prop := Sum.elim Request.keepsSeats fun _ => True

theorem HeldByAgent.respondAll (r : Request ⊕ LifecycleRequest) (db : ComputerJournal) (hr : keepsSeatsAll r)
    (h : HeldByAgent environmentId db) : HeldByAgent environmentId (respondAll later r db).2 := by
  obtain ⟨seat, hseat, hstate⟩ := h
  rcases r with r | r
  · cases r
    case journal op =>
      refine ⟨seat, ?_, hstate⟩
      change (perform _ op _ db).2.seats.find? environmentId = _
      rw [seats_perform _ hr, hseat]
    all_goals exact ⟨seat, hseat, hstate⟩
  · cases r <;> exact ⟨seat, hseat, hstate⟩

theorem HeldByAgent.alone {β : Type} {d : Lifecycle β} (hd : Only keepsSeatsAll d)
    (h : HeldByAgent environmentId db) : HeldByAgent environmentId (d.alone (Computer.respondAll later) db).2 :=
  hd.alone_keeps (fun r db hr h => HeldByAgent.respondAll r db hr h) h

theorem alone_of_looks {β : Type} {world : World} {d : Service β} {b : β} (hd : Only (fun r => r.looks) d)
    (h : d.alone (respond world) db = (.ok b, db')) : db' = db :=
  hd.alone_eq (fun r hr s => (answers_respond world r s).of_looks hr) h

section Only

theorem keepsSeats_revokeActiveInput (environmentId : String) :
    Only Request.keepsSeats (Service.revokeActiveInput environmentId) := by
  refine (only_requireEnvironment keepsSeats_of_looks _).bind fun environment => ?_
  split_ifs
  · cases environment.seat.leaseId with
    | none => exact only_fail _
    | some leaseId => exact only_request_bind trivial fun _ => only_ofExcept _
  · exact only_pure _

variable {p : Request ⊕ LifecycleRequest → Prop} {β : Type}

theorem only_query_bind {r : LifecycleRequest} {k : LifecycleResponse r → Lifecycle β} (hr : p (.inr r))
    (hk : ∀ a, Only p (k a)) : Only p (Lifecycle.query r >>= k) :=
  only_request_bind hr hk

theorem only_await_bind {r : Request} {k : Response r → Lifecycle β} (hr : p (.inl r))
    (hk : ∀ a, Only p (k a)) : Only p (Lifecycle.await r >>= k) :=
  only_request_bind hr hk

theorem only_sure {requestId environmentId : String} (hop : p (.inl (.journal (.markUnknownOutcome requestId environmentId))))
    (answer : Except String β) : Only p (Lifecycle.sure requestId environmentId answer) :=
  (only_orUncertain (p := fun r => p (.inl r)) hop answer).inl

theorem only_lifecycleWrite {op : Op} (hop : p (.inl (.journal op))) : Only p (Lifecycle.write op) :=
  Only.inl (only_write (p := fun r => p (.inl r)) hop)

theorem only_lifecycleGuard (hp : ∀ r : Request, r.looks → p (.inl r)) (guard : Guard) {body : Lifecycle β}
    (hbody : Only p body) : Only p (Lifecycle.withGuard guard body) :=
  only_await_bind (hp _ rfl) fun _ => hbody.ensuring (hp _ rfl)

end Only

/-- The requests of a call that neither revoke an input nor write a seat are allowed. -/
structure Permits (p : Request ⊕ LifecycleRequest → Prop) : Prop where
  looks : ∀ r : Request, r.looks → p (.inl r)
  writes : ∀ op : Op, op.keepsSeats → p (.inl (.journal op))
  queries : ∀ r : LifecycleRequest, p (.inr r)

theorem permits_quietAll : Permits quietAll := ⟨quiet_of_looks, fun _ _ => trivial, fun _ => trivial⟩

theorem permits_keepsSeatsAll : Permits keepsSeatsAll := ⟨keepsSeats_of_looks, fun _ hop => hop, fun _ => trivial⟩

/-! ## Suspension and reset -/

namespace Lifecycle

/-- What a suspension does once the input is revoked. -/
def suspendRevoked (call : ComputerLifecycleRequest) : Lifecycle ComputerEnvironment := withGuard .operations do
  let environment ← (Service.requireEnvironment call.environmentId).inl
  match ← (Service.beginRequest call.requestId "computer/suspend" call.environmentId).inl with
  | .replay _ => (Service.requireEnvironment call.environmentId).inl
  | .recordedError code => fail code
  | .unknownOutcome => fail (Service.unknownOutcome call.environmentId)
  | .execute =>
    let _ ← write (.markSideEffectStarted call.requestId)
    sure call.requestId call.environmentId (← query (.suspend call.environmentId))
    let _ ← sure call.requestId call.environmentId
      (← await (.journal (.setEnvironmentState call.environmentId .suspended "computer.suspended")))
    let _ ← sure call.requestId call.environmentId
      (← await (.journal (.completeRequest call.requestId (readyResult call.environmentId))))
    pure { environment with state := .suspended }

def resetRevoked (call : ComputerConfirmedRequest) (environment : ComputerEnvironment) :
    Lifecycle ComputerEnvironment := withGuard .operations do
  match ← (Service.beginRequest call.requestId "computer/reset" call.environmentId).inl with
  | .replay _ => (Service.requireLiveEnvironment call.environmentId).inl
  | .recordedError code => fail code
  | .unknownOutcome => fail (Service.unknownOutcome call.environmentId)
  | .execute =>
    let _ ← write (.setEnvironmentState call.environmentId .preparing "computer.reset_started")
    let _ ← write (.markSideEffectStarted call.requestId)
    let provider ← sure call.requestId call.environmentId
      (← query (.reset call.environmentId environment.projectPath environment.resources))
    let _ ← sure call.requestId call.environmentId
      (← await (.journal (.setEnvironmentState call.environmentId .ready "computer.reset_completed")))
    let _ ← sure call.requestId call.environmentId
      (← await (.journal (.completeRequest call.requestId (readyResult call.environmentId))))
    let environment ← (Service.requireEnvironment call.environmentId).inl
    pure { environment with state := provider.state }

end Lifecycle

section Permits

open Lifecycle

variable {p : Request ⊕ LifecycleRequest → Prop} (hp : Permits p)
include hp

theorem only_environment (environmentId : String) :
    Only p ((Service.requireEnvironment environmentId).inl : Lifecycle ComputerEnvironment) :=
  Only.inl (only_requireEnvironment (p := fun r => p (.inl r)) hp.looks environmentId)

theorem only_begin (requestId method targetId : String) :
    Only p ((Service.beginRequest requestId method targetId).inl : Lifecycle RequestDecision) :=
  Only.inl (only_beginRequest (p := fun r => p (.inl r)) (hp.writes _ (by trivial)))

theorem only_mark {β : Type} (requestId : String) {k : Answer → Lifecycle β} (hk : ∀ a, Only p (k a)) :
    Only p (Lifecycle.write (.markSideEffectStarted requestId) >>= k) :=
  (only_lifecycleWrite (hp.writes _ (by trivial))).bind hk

theorem only_write_sure {γ : Type} {op : Op} {requestId environmentId : String} {k : Answer → Lifecycle γ}
    (hop : op.keepsSeats) (hk : ∀ b, Only p (k b)) :
    Only p (Lifecycle.await (.journal op) >>= fun answer => sure requestId environmentId answer >>= k) :=
  only_await_bind (hp.writes _ hop) fun answer => (only_sure (hp.writes _ (by trivial)) answer).bind hk

theorem only_suspendRevoked (call : ComputerLifecycleRequest) : Only p (suspendRevoked call) := by
  refine only_lifecycleGuard hp.looks _ ((only_environment hp _).bind fun environment => ?_)
  refine (only_begin hp _ _ _).bind fun decision => ?_
  cases decision with
  | replay value => exact only_environment hp _
  | recordedError code => exact only_fail _
  | unknownOutcome => exact only_fail _
  | execute =>
    refine only_mark hp _ fun _ => only_query_bind (hp.queries _) fun answer => ?_
    refine (only_sure (hp.writes _ (by trivial)) answer).bind fun _ => ?_
    exact only_write_sure hp (by trivial) fun _ => only_write_sure hp (by trivial) fun _ => only_pure _

theorem only_resetRevoked (call : ComputerConfirmedRequest) (environment : ComputerEnvironment) :
    Only p (resetRevoked call environment) := by
  refine only_lifecycleGuard hp.looks _ ((only_begin hp _ _ _).bind fun decision => ?_)
  cases decision with
  | replay value => exact Only.inl (only_requireLiveEnvironment (p := fun r => p (.inl r)) hp.looks _)
  | recordedError code => exact only_fail _
  | unknownOutcome => exact only_fail _
  | execute =>
    refine (only_lifecycleWrite (hp.writes _ (by trivial))).bind fun _ => only_mark hp _ fun _ => ?_
    refine only_query_bind (hp.queries _) fun answer => ?_
    refine (only_sure (hp.writes _ (by trivial)) answer).bind fun _ => only_write_sure hp (by trivial) fun _ => ?_
    exact only_write_sure hp (by trivial) fun _ => (only_environment hp _).bind fun _ => only_pure _

end Permits

section Held

open Lifecycle

variable {Lf : LifecycleLibraries}

theorem keepsSeats_suspend (call : ComputerLifecycleRequest) : Only keepsSeatsAll (suspend call) :=
  only_lifecycleGuard keepsSeats_of_looks _
    ((Only.inl (keepsSeats_revokeActiveInput _)).bind fun _ => only_suspendRevoked permits_keepsSeatsAll call)

theorem keepsSeats_reset (call : ComputerConfirmedRequest) : Only keepsSeatsAll (reset Lf call) := by
  refine only_lifecycleGuard keepsSeats_of_looks _ ?_
  refine Only.bind (Only.inl (only_requireGrantedEnvironment keepsSeats_of_looks _)) fun environment => ?_
  refine only_await_bind trivial fun answer => (only_ofExcept _).bind fun binding => ?_
  dsimp only
  split_ifs
  · exact only_fail _
  · exact Only.bind (Only.inl (keepsSeats_revokeActiveInput _))
      fun _ => only_resetRevoked permits_keepsSeatsAll call environment

theorem Interrupted.suspend {call : ComputerLifecycleRequest}
    (h : Interrupted world environmentId error (suspend call) db db') : db' = db ∧ HeldByAgent environmentId db :=
  (h.of_withGuard.of_revoke (only_suspendRevoked permits_quietAll call)).2

theorem Interrupted.reset {call : ComputerConfirmedRequest}
    (h : Interrupted world environmentId error (reset Lf call) db db') :
    db' = db ∧ HeldByAgent environmentId db := by
  obtain ⟨environment, t, henv, hgranted⟩ :=
    h.of_withGuard.of_inl_bind (only_requireGrantedEnvironment quiet_of_looks _)
  obtain rfl := alone_of_looks (only_requireGrantedEnvironment (fun _ hr => hr) _) henv
  obtain ⟨binding, -, hbound⟩ := (hgranted.of_await trivial).of_ofExcept
  dsimp only at hbound
  split_ifs at hbound
  · exact hbound.not_of_fail.elim
  · exact (hbound.of_revoke (only_resetRevoked permits_quietAll call environment)).2

end Held

/-! ## Preparation and removal -/

section Recorded

open Lifecycle

variable {Lf : LifecycleLibraries}

/-- The request writes nothing and has no effect on the seats. -/
abbrev looksAll : Request ⊕ LifecycleRequest → Prop := Sum.elim (fun r => r.looks) fun _ => True

theorem looks_environmentFor (coworkerId projectPath : String) :
    Only looksAll (environmentFor Lf coworkerId projectPath) := by
  refine only_await_bind rfl fun answer => (only_ofExcept _).bind fun binding => ?_
  cases binding with
  | some binding => exact only_pure _
  | none =>
    refine only_query_bind trivial fun answer => (only_ofExcept _).bind fun legacy => ?_
    cases legacy <;> exact only_pure _

theorem quiet_ensureRevoked (call : ComputerEnsureRequest) (environmentId projectPath : String) :
    Only quietAll (ensureRevoked Lf call environmentId projectPath) := by
  have hp := permits_quietAll
  refine only_lifecycleGuard hp.looks _ (only_query_bind trivial fun doctor => ?_)
  refine only_await_bind trivial fun answer => (only_ofExcept _).bind fun existing => ?_
  refine only_await_bind trivial fun answer => ?_
  cases answer with
  | error error => exact only_await_bind trivial fun _ => only_fail _
  | ok answer =>
    dsimp only
    by_cases hmissing : (!doctor.supported) = true
    · rw [if_pos hmissing]
      exact only_await_bind trivial fun _ => only_await_bind trivial fun _ => only_fail _
    · rw [if_neg hmissing]
      refine only_mark hp _ fun _ => only_query_bind trivial fun answer => ?_
      refine (only_sure trivial answer).bind fun provider => only_await_bind trivial fun answer => ?_
      refine (only_sure trivial answer).bind fun _ => only_write_sure hp (by trivial) fun _ => ?_
      exact (only_environment hp _).bind fun _ => only_pure _

theorem quiet_removeRevoked (call : ComputerConfirmedRequest) : Only quietAll (removeRevoked call) := by
  have hp := permits_quietAll
  refine only_lifecycleGuard hp.looks _ (only_mark hp _ fun _ => only_query_bind trivial fun answer => ?_)
  refine (only_sure trivial answer).bind fun _ => only_await_bind trivial fun answer => ?_
  refine (only_sure trivial answer).bind fun _ => only_query_bind trivial fun _ => ?_
  exact (only_lifecycleWrite trivial).bind fun _ => only_pure _

theorem Interrupted.ensure {call : ComputerEnsureRequest}
    (h : Interrupted world environmentId error (Lifecycle.ensure Lf call) db db') :
    ∃ target, Recorded call.requestId "computer/ensure" target [.accepted] db' := by
  obtain ⟨projectPath, -, hpath⟩ := h.of_withGuard.of_query.of_ofExcept
  obtain ⟨granted, -, hgranted⟩ := hpath.of_query.of_ofExcept
  by_cases hdenied : (!granted) = true
  · rw [if_pos hdenied] at hgranted
    exact hgranted.not_of_fail.elim
  rw [if_neg hdenied] at hgranted
  obtain ⟨target, t, -, htarget⟩ := hgranted.of_bind
    ((looks_environmentFor _ _).mono (Sum.rec quiet_of_looks fun _ _ => trivial))
  obtain ⟨decision, u, hbegin, hbegun⟩ := htarget.of_inl_bind (only_beginRequest trivial)
  rw [alone_beginRequest_ok_iff] at hbegin
  cases decision with
  | replay value =>
    exact (hbegun.not_of_quiet (Only.inl (only_requireLiveEnvironment quiet_of_looks _))).elim
  | recordedError code => exact hbegun.not_of_fail.elim
  | unknownOutcome => exact hbegun.not_of_fail.elim
  | execute =>
    obtain ⟨existing, -, hexisting⟩ := (hbegun.of_await trivial).of_ofExcept
    have hrecorded := (recorded_of_beginRequest hbegin (.inl rfl)).2.2 rfl
    by_cases hthere : existing.isSome = true
    · replace hexisting : Interrupted world environmentId error
          ((Service.revokeActiveInput target).inl >>= fun _ => ensureRevoked Lf call target projectPath) u db' := by
        rw [if_pos hthere] at hexisting
        exact hexisting
      obtain ⟨-, rfl, -⟩ := hexisting.of_revoke (quiet_ensureRevoked _ _ _)
      exact ⟨target, hrecorded⟩
    · replace hexisting : Interrupted world environmentId error (ensureRevoked Lf call target projectPath) u db' := by
        rw [if_neg hthere] at hexisting
        exact hexisting
      exact (hexisting.not_of_quiet (quiet_ensureRevoked _ _ _)).elim

theorem Interrupted.remove {call : ComputerConfirmedRequest}
    (h : Interrupted world environmentId error (remove call) db db') :
    Recorded call.requestId "computer/remove" call.environmentId [.accepted] db' := by
  obtain ⟨decision, t, hbegin, hbegun⟩ := h.of_withGuard.of_inl_bind (only_beginRequest trivial)
  rw [alone_beginRequest_ok_iff] at hbegin
  cases decision with
  | replay value => exact hbegun.not_of_pure.elim
  | recordedError code => exact hbegun.not_of_fail.elim
  | unknownOutcome => exact hbegun.not_of_fail.elim
  | execute =>
    have hrecorded := (recorded_of_beginRequest hbegin (.inl rfl)).2.2 rfl
    have hlooks : Only (fun r => r.looks) (Service.requireEnvironment call.environmentId) :=
      only_requireEnvironment (fun _ hr => hr) _
    obtain ⟨found, u, hfound, hexists⟩ := hbegun.of_inl_bind
      (d := (Service.requireEnvironment call.environmentId).attempt) (hlooks.attempt.mono quiet_of_looks)
    obtain rfl := alone_of_looks hlooks.attempt hfound
    cases found with
    | error e =>
      exact (hexists.not_of_quiet ((only_lifecycleWrite trivial).bind fun _ => only_fail _)).elim
    | ok environment =>
      obtain ⟨binding, -, hbound⟩ := (hexists.of_await trivial).of_ofExcept
      dsimp only at hbound
      split_ifs at hbound
      · exact (hbound.not_of_quiet ((only_lifecycleWrite trivial).bind fun _ => only_fail _)).elim
      · obtain ⟨-, rfl, -⟩ := hbound.of_revoke (quiet_removeRevoked call)
        exact hrecorded

/-! ### The same call again -/

theorem alone_lifecycleGuard {β : Type} (guard : Guard) (d : Lifecycle β) :
    (Lifecycle.withGuard guard d).alone (respondAll later) db = d.alone (respondAll later) db := by
  change (d.ensuring (.inl (.unlock guard))).alone (respondAll later) db = _
  rw [alone_ensuring]
  rfl

theorem alone_query_bind {β : Type} (r : LifecycleRequest) (k : LifecycleResponse r → Lifecycle β) :
    (Lifecycle.query r >>= k).alone (respondAll later) db =
      (k (respondLifecycle later r db).1).alone (respondAll later) (respondLifecycle later r db).2 := rfl

theorem alone_of_looksAll {β : Type} {d : Lifecycle β} {b : β} (hd : Only looksAll d)
    (h : d.alone (respondAll later) db = (.ok b, db')) : db' = db := by
  refine hd.alone_eq (fun r hr s => ?_) h
  rcases r with r | r
  · exact (answers_respond later.toWorld r s).of_looks hr
  · cases r <;> rfl

theorem not_begun {β : Type} {requestId method targetId method' targetId' : String}
    (hrecorded : Recorded requestId method targetId [.accepted] db) {k : RequestDecision → Lifecycle β}
    (hk : ∃ detail, k .unknownOutcome = fail detail) {b : β} :
    ((Service.beginRequest requestId method' targetId').inl >>= k).alone (respondAll later) db ≠ (.ok b, db') := by
  intro hrun
  obtain ⟨decision, t, hbegin, hbegun⟩ := alone_bind_ok_iff.1 hrun
  rw [respondAll, alone_inl, alone_beginRequest_ok_iff] at hbegin
  obtain ⟨rfl, -⟩ := beginRequest_of_recorded (hrecorded.mono (by simp)) hbegin
  obtain ⟨detail, hk⟩ := hk
  rw [hk, alone_fail] at hbegun
  cases hbegun

theorem not_remove {call : ComputerConfirmedRequest}
    (hrecorded : Recorded call.requestId "computer/remove" call.environmentId [.accepted] db) {b : Unit} :
    (remove call).alone (respondAll later) db ≠ (.ok b, db') := by
  rw [remove, alone_lifecycleGuard]
  exact not_begun hrecorded ⟨_, rfl⟩

theorem not_ensure {call : ComputerEnsureRequest} {target : String}
    (hrecorded : Recorded call.requestId "computer/ensure" target [.accepted] db) {b : ComputerEnvironment} :
    (Lifecycle.ensure Lf call).alone (respondAll later) db ≠ (.ok b, db') := by
  rw [Lifecycle.ensure, alone_lifecycleGuard]
  intro hrun
  obtain ⟨projectPath, t, hpath, hgrants⟩ := alone_bind_ok_iff.1 ((alone_query_bind _ _).symm.trans hrun)
  rw [alone_ofExcept] at hpath
  obtain ⟨-, rfl⟩ := Prod.mk.inj hpath
  obtain ⟨granted, t, hgranted, hopens⟩ := alone_bind_ok_iff.1 ((alone_query_bind _ _).symm.trans hgrants)
  rw [alone_ofExcept] at hgranted
  obtain ⟨-, rfl⟩ := Prod.mk.inj hgranted
  split_ifs at hopens
  · cases hopens
  · obtain ⟨target', t, htarget, hbegins⟩ := alone_bind_ok_iff.1 hopens
    obtain rfl := alone_of_looksAll (looks_environmentFor _ _) htarget
    exact not_begun hrecorded ⟨_, rfl⟩ hbegins

end Recorded

/-! ## Every call that revokes an input -/

inductive RevokingCall where
  | acquireSeat (call : SeatAcquireRequest)
  | releaseSeat (call : SeatReleaseRequest)
  | revokeProject (call : ComputerProjectRevokeRequest)
  | ensure (call : ComputerEnsureRequest)
  | remove (call : ComputerConfirmedRequest)
  | suspend (call : ComputerLifecycleRequest)
  | reset (call : ComputerConfirmedRequest)

namespace RevokingCall

abbrev Result : RevokingCall → Type
  | acquireSeat _ | releaseSeat _ => DisplaySeat
  | revokeProject _ | remove _ => Unit
  | ensure _ | suspend _ | reset _ => ComputerEnvironment

variable (L : Libraries) (Lf : LifecycleLibraries)

def program : (call : RevokingCall) → Lifecycle call.Result
  | acquireSeat call => (Service.acquireSeat L call).inl
  | releaseSeat call => (Service.releaseSeat L call).inl
  | revokeProject call => (Service.revokeProject L call).inl
  | ensure call => Lifecycle.ensure Lf call
  | remove call => Lifecycle.remove call
  | suspend call => Lifecycle.suspend call
  | reset call => Lifecycle.reset Lf call

end RevokingCall

section Main

variable {L : Libraries} {Lf : LifecycleLibraries}

/-- The call completes and the seat of the environment is available then. -/
def Completes (L : Libraries) (Lf : LifecycleLibraries) (later : LifecycleWorld) (call : RevokingCall)
    (environmentId : String) (db : ComputerJournal) : Prop :=
  ∃ result db', (call.program L Lf).alone (respondAll later) db = (.ok result, db') ∧
    SeatAvailable db' environmentId

theorem not_completes_of_held {call : RevokingCall} (hkeeps : Only keepsSeatsAll (call.program L Lf))
    (hheld : HeldByAgent environmentId db) : ¬ Completes L Lf later call environmentId db := by
  rintro ⟨result, db', hrun, havailable⟩
  have hheld' : HeldByAgent environmentId ((call.program L Lf).alone (respondAll later) db).2 :=
    hheld.alone hkeeps
  rw [hrun] at hheld'
  exact hheld'.not_available havailable

theorem not_completes_releaseSeat {call : SeatReleaseRequest}
    (hrecorded : Recorded call.requestId "computer/seat/release" call.environmentId [.sideEffectStarted] db) :
    ¬ Completes L Lf later (.releaseSeat call) environmentId db := by
  rintro ⟨result, db', hrun, -⟩
  rw [RevokingCall.program, respondAll, alone_inl] at hrun
  exact not_releaseSeat hrecorded hrun

/-- A call that failed at the revocation of an input completes when it is repeated, unless it revokes a project whose
request was recorded. -/
theorem retry_completes_iff {call : RevokingCall} (hworks : later.toWorld.Works)
    (h : Interrupted world environmentId error (call.program L Lf) db db') :
    Completes L Lf later call environmentId db' ↔
      ∃ revocation, call = .revokeProject revocation ∧ db.requests.find? revocation.requestId = none := by
  cases call with
  | revokeProject revocation =>
    have hiff := revokeProject_again_iff hworks h.of_inl
    constructor
    · rintro ⟨result, db₂, hrun, havailable⟩
      rw [RevokingCall.program, respondAll, alone_inl] at hrun
      exact ⟨revocation, rfl, hiff.1 ⟨db₂, hrun, havailable⟩⟩
    · rintro ⟨_, heq, hnew⟩
      cases heq
      obtain ⟨db₂, hrun, havailable⟩ := hiff.2 hnew
      refine ⟨(), db₂, ?_, havailable⟩
      rw [RevokingCall.program, respondAll, alone_inl]
      exact hrun
  | acquireSeat call =>
    refine iff_of_false ?_ (by simp)
    rintro ⟨result, db₂, hrun, -⟩
    rw [RevokingCall.program, respondAll, alone_inl] at hrun
    exact not_acquireSeat h.of_inl.acquireSeat.1 hrun
  | releaseSeat call =>
    exact iff_of_false (not_completes_releaseSeat h.of_inl.releaseSeat.1) (by simp)
  | ensure call =>
    refine iff_of_false ?_ (by simp)
    rintro ⟨result, db₂, hrun, -⟩
    obtain ⟨target, hrecorded⟩ := Interrupted.ensure h
    exact not_ensure hrecorded hrun
  | remove call =>
    refine iff_of_false ?_ (by simp)
    rintro ⟨result, db₂, hrun, -⟩
    exact not_remove (Interrupted.remove h) hrun
  | suspend call =>
    obtain ⟨rfl, hheld⟩ := Interrupted.suspend h
    exact iff_of_false (not_completes_of_held (keepsSeats_suspend call) hheld) (by simp)
  | reset call =>
    obtain ⟨rfl, hheld⟩ := Interrupted.reset h
    exact iff_of_false (not_completes_of_held (keepsSeats_reset call) hheld) (by simp)

end Main

theorem Reachable.answers {newV4 : ℕ → String} {r : Request} {answer : Response r} (h : Reachable newV4 db)
    (hanswer : Answers newV4 r db answer db') : Reachable newV4 db' := by
  cases r
  case journal => exact h.trans (.single hanswer)
  case environment | coworkerBindingForEnvironment | coworkerBinding | projectGrants | existingRequestDecision =>
    rwa [hanswer.2]
  all_goals rwa [hanswer]

theorem Reachable.respondAll_alone {β : Type} (h : Reachable world.newV4 db) (d : Lifecycle β) :
    Reachable world.newV4 (d.alone (respondAll world) db).2 := by
  refine (only_true d).alone_keeps (fun r s _ hs => ?_) h
  rcases r with r | r
  · exact Reachable.answers hs (answers_respond world.toWorld r s)
  · cases r <;> exact hs

section Example

def exampleLibraries : Libraries where
  seatToValue := fun seat => .object [("ownerId", .ofOption seat.ownerId), ("leaseId", .ofOption seat.leaseId)]
  seatFromValue := fun _ => .error "decode display seat failed"
  actionToValue := fun _ => .null
  actionFromValue := fun _ => .error "decode semantic result failed"
  digest := fun _ => ""
  projectDigest := fun _ => "0e3ffbf31db2"

def exampleLifecycleLibraries : LifecycleLibraries where
  fileName := some
  coworkerDigest := id
  debug := id

/-- A provider that takes what concerns the input, and nothing else. -/
def exampleWorld : LifecycleWorld where
  newV4 := exampleId
  clock := fun _ => 5
  provider := fun
    | .lock _ | .unlock _ => ()
    | .detach _ | .activateInput _ _ | .revokeInput _ _ => .ok ()
    | .environment _ | .coworkerBindingForEnvironment _ | .coworkerBinding _ | .projectGrants _
    | .existingRequestDecision _ _ _ | .journal _ | .resolve _ _ | .terminalExec _ _ | .browserNavigate _ _
    | .semanticAct _ | .workPlaneExecute _ => .error "Computer provider is unavailable"
  lifecycle := fun
    | .doctor => ⟨false, .balanced, "Computer provider is unavailable"⟩
    | .canonicalProject _ | .hasProjectGrant _ _ | .environmentByProjectPath _ | .ensure _ _ _ | .suspend _
    | .reset _ _ _ | .destroy _ | .deleteHistory _ => .error "Computer provider is unavailable"

theorem exampleWorld_works : exampleWorld.toWorld.Works := ⟨fun _ _ => rfl, fun _ => rfl⟩

/-- The agent has the seat of a computer on which a project is active. -/
def heldJournal : ComputerJournal :=
  execute exampleId (opens "project-a" "/work/site" ++ [(.acquireSeat "computer-neko" "neko" false, 3)]) ∅

/-- What the call ends in when the provider does not take the revocation. -/
def interruptedBy (call : RevokingCall) : Except String call.Result × ComputerJournal :=
  (call.program exampleLibraries exampleLifecycleLibraries).alone
    (respondAll (exampleWorld.refusing "computer-neko" "input gateway is unavailable")) heldJournal

def exampleRevocation : RevokingCall := .revokeProject ⟨"request-a", "neko", "project-a"⟩

theorem interrupted_exampleRevocation :
    Interrupted exampleWorld "computer-neko" "input gateway is unavailable"
      (exampleRevocation.program exampleLibraries exampleLifecycleLibraries) heldJournal
      (interruptedBy exampleRevocation).2 :=
  ⟨⟨(), _, rfl⟩, rfl⟩

theorem retry_completes_revocation :
    Completes exampleLibraries exampleLifecycleLibraries exampleWorld exampleRevocation "computer-neko"
      (interruptedBy exampleRevocation).2 :=
  (retry_completes_iff exampleWorld_works interrupted_exampleRevocation).2 ⟨_, rfl, by decide⟩

def exampleRelease : RevokingCall := .releaseSeat ⟨"request-a", "computer-neko", "lease-i"⟩

theorem interrupted_exampleRelease :
    Interrupted exampleWorld "computer-neko" "input gateway is unavailable"
      (exampleRelease.program exampleLibraries exampleLifecycleLibraries) heldJournal
      (interruptedBy exampleRelease).2 :=
  ⟨⟨_, _, rfl⟩, rfl⟩

/-- A release whose revocation failed is refused from then on, and the agent keeps the seat. -/
theorem release_not_retried :
    let after := (interruptedBy exampleRelease).2
    let retry := (exampleRelease.program exampleLibraries exampleLifecycleLibraries).alone
      (respondAll exampleWorld) after
    Reachable exampleId heldJournal ∧ Reachable exampleId after ∧ HeldByAgent "computer-neko" after ∧
      Interrupted exampleWorld "computer-neko" "input gateway is unavailable"
        (exampleRelease.program exampleLibraries exampleLifecycleLibraries) heldJournal after ∧
      retry = (.error "Computer request is not eligible for its side effect", after) ∧
      ∀ later : LifecycleWorld,
        ¬ Completes exampleLibraries exampleLifecycleLibraries later exampleRelease "computer-neko" after := by
  obtain ⟨hrecorded, hheld⟩ := interrupted_exampleRelease.of_inl.releaseSeat
  let refusing := exampleWorld.refusing "computer-neko" "input gateway is unavailable"
  have hreachable : Reachable refusing.newV4 heldJournal := reachable_execute _ _
  have hafter : Reachable exampleId (interruptedBy exampleRelease).2 := Reachable.respondAll_alone hreachable _
  exact ⟨hreachable, hafter, hheld, interrupted_exampleRelease, rfl, fun _ => not_completes_releaseSeat hrecorded⟩

end Example

end Wiii.Neko.Computer
