import Wiii.Neko.Computer.Lifecycle
import Wiii.Neko.Computer.Seats

/-!
# Calls that a revocation ends

`World.refusing` is a world whose provider does not take the revocation of an input, and `Revoking` says of a call that
it would have completed but for it.  Such a call comes to its revocation, and the seat is with the agent there
(`Revoking.of_revoke`).  `Interrupted` is the same of the calls on the life of a computer.
-/

namespace Wiii.Neko.Computer

open Dialog ComputerJournal

/-! ## The worlds of a call -/

def ComputerJournal.environmentByProjectPath (projectPath : String) (db : ComputerJournal) : Option String :=
  (db.environments.rows.find? fun row => decide (row.projectPath = projectPath)).map EnvironmentRow.environmentId

/-- What the requests of a call that runs alone depend on. -/
structure LifecycleWorld extends World where
  lifecycle : (r : LifecycleRequest) → LifecycleResponse r

def respondLifecycle (world : LifecycleWorld) :
    (r : LifecycleRequest) → ComputerJournal → LifecycleResponse r × ComputerJournal
  | .hasProjectGrant coworkerId projectId, db => (db.hasProjectGrant coworkerId projectId, db)
  | .environmentByProjectPath projectPath, db => (.ok (db.environmentByProjectPath projectPath), db)
  | r, db => (world.lifecycle r, db)

/-- The answers to a call that runs alone. -/
def respondAll (world : LifecycleWorld) :=
  either (respond world.toWorld) (respondLifecycle world)

/-- The same world, but the provider does not revoke the input of the environment. -/
def World.refusing (world : World) (environmentId error : String) : World :=
  { world with provider := fun
      | .revokeInput other leaseId =>
        if other = environmentId then .error error else world.provider (.revokeInput other leaseId)
      | r => world.provider r }

def LifecycleWorld.refusing (world : LifecycleWorld) (environmentId error : String) : LifecycleWorld :=
  { world with toWorld := world.toWorld.refusing environmentId error }

@[simp] theorem toWorld_refusing (world : LifecycleWorld) (environmentId error : String) :
    (world.refusing environmentId error).toWorld = world.toWorld.refusing environmentId error := rfl

def Request.quiet : Request → Prop
  | .revokeInput _ _ => False
  | _ => True

/-- The answers to all requests but revocations are the same. -/
theorem respond_refusing (world : World) (environmentId error : String) (r : Request) (hr : r.quiet) :
    respond world r = respond (world.refusing environmentId error) r := by
  cases r <;> first | rfl | exact hr.elim

theorem respondAll_refusing (world : LifecycleWorld) (environmentId error : String)
    (r : Request ⊕ LifecycleRequest) (hr : Sum.elim Request.quiet (fun _ => True) r) :
    respondAll world r = respondAll (world.refusing environmentId error) r := by
  rcases r with r | r
  · exact respond_refusing world.toWorld environmentId error r hr
  · cases r <;> rfl

/-! ## Steps of a call alone -/

section Alone

variable {world : World} {db db' : ComputerJournal}

@[simp] theorem alone_requireEnvironment (environmentId : String) :
    (Service.requireEnvironment environmentId).alone (respond world) db =
      (requireEnvironment environmentId db, db) := by
  unfold Service.requireEnvironment requireEnvironment
  rw [Service.await, alone_request_bind]
  change Dialog.alone (respond world) (ofExcept (Except.ok (db.environment environmentId)) >>= _) db = _
  rw [alone_bind, alone_ofExcept]
  dsimp only
  cases db.environment environmentId with
  | none => rfl
  | some environment =>
    dsimp only
    rw [Service.await, alone_request_bind]
    change Dialog.alone (respond world)
      (ofExcept (Except.ok (db.coworkerBindingForEnvironment environmentId)) >>= _) db = _
    rw [alone_bind, alone_ofExcept]
    dsimp only
    cases db.coworkerBindingForEnvironment environmentId <;> rfl

@[simp] theorem alone_write (op : Op) : (Service.write op).alone (respond world) db =
    ((perform world.newV4 op (world.clock op) db).1.answer, (perform world.newV4 op (world.clock op) db).2) := by
  rw [Service.write, Service.await, alone_request_bind, alone_ofExcept]
  rfl

theorem alone_beginRequest_ok_iff {requestId method targetId : String} {decision : RequestDecision} :
    (Service.beginRequest requestId method targetId).alone (respond world) db = (.ok decision, db') ↔
      beginRequest requestId method targetId (world.clock (.beginRequest requestId method targetId)) db =
        .ok (decision, db') := by
  unfold Service.beginRequest
  rw [alone_bind, alone_write, perform, Op.apply]
  cases beginRequest requestId method targetId (world.clock (.beginRequest requestId method targetId)) db with
  | error error =>
    constructor <;> intro h <;> cases h
  | ok result =>
    constructor <;> intro h <;> cases h <;> rfl

theorem alone_write_ok {op : Op} {answer : Answer}
    (h : (Service.write op).alone (respond world) db = (.ok answer, db')) :
    op.apply world.newV4 (world.clock op) db = .ok (answer, db') := by
  rw [alone_write, perform] at h
  cases happly : op.apply world.newV4 (world.clock op) db with
  | error error =>
    rw [happly] at h
    cases h
  | ok result =>
    rw [happly] at h
    cases h
    rfl

def revocation (world : World) (environmentId : String) (environment : ComputerEnvironment) :
    Except String Unit :=
  if environment.seat.state = .agentControlled then
    match environment.seat.leaseId with
    | none => .error "Computer lease is missing"
    | some leaseId => world.provider (.revokeInput environmentId leaseId)
  else .ok ()

theorem alone_revokeActiveInput (environmentId : String) :
    (Service.revokeActiveInput environmentId).alone (respond world) db =
      match requireEnvironment environmentId db with
      | .error error => (.error error, db)
      | .ok environment => (revocation world environmentId environment, db) := by
  unfold Service.revokeActiveInput revocation
  rw [alone_bind, alone_requireEnvironment]
  cases requireEnvironment environmentId db with
  | error error => rfl
  | ok environment =>
    dsimp only
    split_ifs with hagent
    · cases environment.seat.leaseId with
      | none => rfl
      | some leaseId =>
        dsimp only
        rw [Service.await, alone_request_bind, alone_ofExcept]
        rfl
    · rfl

@[simp] theorem alone_withGuard {β : Type} (guard : Guard) (d : Service β) :
    (Service.withGuard guard d).alone (respond world) db = d.alone (respond world) db := by
  rw [Service.withGuard, Service.await, alone_request_bind, alone_ensuring]
  rfl

theorem not_recordLocalRejection {β : Type} {requestId code detail : String} {b : β} :
    (Service.recordLocalRejection requestId code detail : Service β).alone (respond world) db ≠ (.ok b, db') := by
  rw [Service.recordLocalRejection, Service.await, alone_request_bind]
  split <;> exact fun h => nomatch h

end Alone

/-! ## What the steps ask -/

section Only

variable {p : Request → Prop} {β : Type}

theorem only_requireEnvironment (hp : ∀ r : Request, r.looks → p r) (environmentId : String) :
    Only p (Service.requireEnvironment environmentId) := by
  refine only_request_bind (hp _ rfl) fun found => (only_ofExcept _).bind fun environment => ?_
  cases environment with
  | none => exact only_fail _
  | some environment =>
    refine only_request_bind (hp _ rfl) fun found => (only_ofExcept _).bind fun binding => ?_
    cases binding <;> exact only_pure _

theorem only_requireGrantedEnvironment (hp : ∀ r : Request, r.looks → p r) (environmentId : String) :
    Only p (Service.requireGrantedEnvironment environmentId) := by
  refine (only_requireEnvironment hp environmentId).bind fun environment => ?_
  refine only_request_bind (hp _ rfl) fun found => (only_ofExcept _).bind fun binding => ?_
  split
  · exact only_fail _
  · split
    · exact only_fail _
    · refine only_request_bind (hp _ rfl) fun found => (only_ofExcept _).bind fun grants => ?_
      split_ifs
      · exact only_fail _
      · exact only_pure _

theorem only_requireLiveEnvironment (hp : ∀ r : Request, r.looks → p r) (environmentId : String) :
    Only p (Service.requireLiveEnvironment environmentId) := by
  refine (only_requireEnvironment hp environmentId).bind fun environment => ?_
  refine only_request_bind (hp _ rfl) fun found => (only_ofExcept _).bind fun provider => ?_
  cases provider <;> exact only_pure _

theorem only_write {op : Op} (hop : p (.journal op)) : Only p (Service.write op) :=
  only_request_bind hop fun _ => only_ofExcept _

theorem only_beginRequest {requestId method targetId : String}
    (hop : p (.journal (.beginRequest requestId method targetId))) :
    Only p (Service.beginRequest requestId method targetId) := by
  refine (only_write hop).bind fun answer => ?_
  split
  · exact only_pure _
  · exact only_fail _

theorem only_orUncertain {requestId environmentId : String}
    (hop : p (.journal (.markUnknownOutcome requestId environmentId))) (answer : Except String β) :
    Only p (Service.orUncertain requestId environmentId answer) := by
  cases answer with
  | ok b => trivial
  | error error => exact only_request_bind hop fun _ => only_fail _

theorem only_recordLocalRejection {requestId code detail : String}
    (hop : p (.journal (.failRequest requestId code))) :
    Only p (Service.recordLocalRejection requestId code detail : Service β) := by
  refine only_request_bind hop fun answer => ?_
  cases answer <;> exact only_fail _

theorem only_withGuard (hp : ∀ r : Request, r.looks → p r) (guard : Guard) {body : Service β}
    (hbody : Only p body) : Only p (Service.withGuard guard body) :=
  only_request_bind (hp _ rfl) fun _ => hbody.ensuring (hp _ rfl)

end Only

theorem quiet_of_looks (r : Request) (hr : r.looks) : r.quiet := by
  cases r <;> trivial

/-! ## The row of a request -/

def Recorded (requestId method targetId : String) (phases : List RequestPhase) (db : ComputerJournal) : Prop :=
  ∃ row, db.requests.find? requestId = some row ∧ row.method = method ∧ row.targetId = targetId ∧
    row.phase ∈ phases

section Recorded

variable {requestId method targetId : String} {now : Timestamp} {db db' : ComputerJournal}

theorem requestDecision_ok {stored : StoredRequest} {decision : RequestDecision}
    (h : requestDecision stored method targetId = .ok decision) :
    stored.method = method ∧ stored.targetId = targetId ∧ decision ≠ .execute ∧
      (decision = .unknownOutcome →
        stored.phase ∈ [RequestPhase.accepted, .sideEffectStarted, .unknownOutcome]) := by
  unfold requestDecision at h
  obtain ⟨hsame, h⟩ := ite_error_ok_iff.1 h
  rw [not_or, not_not, not_not] at hsame
  refine ⟨hsame.1, hsame.2, ?_⟩
  cases hphase : stored.phase <;> rw [hphase] at h
  case completed =>
    dsimp only at h
    split at h <;> cases h
    exact ⟨by simp, by simp⟩
  case failed =>
    cases h
    exact ⟨by simp, by simp⟩
  all_goals
    cases h
    exact ⟨by simp, by simp⟩

theorem recorded_of_beginRequest {decision : RequestDecision}
    (h : beginRequest requestId method targetId now db = .ok (decision, db'))
    (hopen : decision = .execute ∨ decision = .unknownOutcome) :
    (∃ requests, db' = { db with requests := requests }) ∧
      Recorded requestId method targetId [.accepted, .sideEffectStarted, .unknownOutcome] db' ∧
      (decision = .execute → Recorded requestId method targetId [.accepted] db') := by
  obtain ⟨-, ⟨stored, hfind, hdecision, rfl⟩ | ⟨requests, hinsert, rfl, rfl⟩⟩ := beginRequest_ok_iff.1 h
  · obtain ⟨hmethod, htarget, hexecute, hunknown⟩ := requestDecision_ok hdecision
    exact ⟨⟨_, rfl⟩, ⟨stored, hfind, hmethod, htarget, hunknown (hopen.resolve_left hexecute)⟩,
      fun he => absurd he hexecute⟩
  · have hfind : requests.find? requestId = some (newRequest requestId method targetId now) := by
      rw [Table.find?_insert? hinsert]
      exact if_pos rfl
    exact ⟨⟨_, rfl⟩, ⟨_, hfind, rfl, rfl, by simp [newRequest]⟩, fun _ => ⟨_, hfind, rfl, rfl, by simp [newRequest]⟩⟩

theorem beginRequest_of_recorded {method' targetId' : String} {decision : RequestDecision}
    (hrecorded : Recorded requestId method targetId [.accepted, .sideEffectStarted] db)
    (h : beginRequest requestId method' targetId' now db = .ok (decision, db')) :
    decision = .unknownOutcome ∧ db' = db := by
  obtain ⟨row, hfind, -, -, hphase⟩ := hrecorded
  obtain ⟨-, ⟨stored, hstored, hdecision, rfl⟩ | ⟨requests, hinsert, -⟩⟩ := beginRequest_ok_iff.1 h
  · rw [hfind] at hstored
    cases hstored
    refine ⟨?_, rfl⟩
    unfold requestDecision at hdecision
    obtain ⟨-, hdecision⟩ := ite_error_ok_iff.1 hdecision
    rcases List.mem_pair.1 hphase with hphase | hphase <;> rw [hphase] at hdecision <;> cases hdecision <;> rfl
  · have hnone := (Table.insert?_eq_some_iff.1 hinsert).1
    rw [newRequest, hfind] at hnone
    cases hnone

theorem Recorded.mono {phases phases' : List RequestPhase} (h : Recorded requestId method targetId phases db)
    (hphases : ∀ phase ∈ phases, phase ∈ phases') : Recorded requestId method targetId phases' db := by
  obtain ⟨row, hfind, hmethod, htarget, hphase⟩ := h
  exact ⟨row, hfind, hmethod, htarget, hphases _ hphase⟩

theorem recorded_of_markSideEffectStarted {phases : List RequestPhase}
    (hrecorded : Recorded requestId method targetId phases db)
    (h : markSideEffectStarted requestId now db = .ok ((), db')) :
    (∃ requests, db' = { db with requests := requests }) ∧
      Recorded requestId method targetId [.sideEffectStarted] db' := by
  obtain ⟨row, hfind, hmethod, htarget, -⟩ := hrecorded
  obtain ⟨hany, rfl⟩ := advanceRequest_ok_iff.1 h
  refine ⟨⟨_, rfl⟩, ?_⟩
  have hdue : due requestId [.accepted] row = true := by
    obtain ⟨other, hother, hdue⟩ := List.any_eq_true.1 hany
    have hid : other.requestId = requestId := by
      rw [due, Bool.and_eq_true, decide_eq_true_eq] at hdue
      exact hdue.1
    have hsame := Table.find?_of_mem (t := db.requests) hother
    rw [hid, hfind] at hsame
    cases hsame
    exact hdue
  refine ⟨{ row with phase := .sideEffectStarted, updatedAt := now }, ?_, hmethod, htarget, by simp⟩
  simp only [updateRequestWhere, Table.find?_updateWhere, hfind, Option.map_some, if_pos hdue]

theorem not_markSideEffectStarted
    (hrecorded : Recorded requestId method targetId [.sideEffectStarted] db) :
    markSideEffectStarted requestId now db ≠ .ok ((), db') := by
  intro h
  obtain ⟨row, hfind, -, -, hphase⟩ := hrecorded
  obtain ⟨hany, -⟩ := advanceRequest_ok_iff.1 h
  obtain ⟨other, hother, hdue⟩ := List.any_eq_true.1 hany
  rw [due, Bool.and_eq_true, decide_eq_true_eq, decide_eq_true_eq] at hdue
  have hsame := Table.find?_of_mem (t := db.requests) hother
  rw [hdue.1, hfind] at hsame
  cases hsame
  rw [List.mem_singleton.1 hphase] at hdue
  exact absurd hdue.2 (by decide)

end Recorded

/-! ## Where a call breaks -/

theorem seat_of_requireEnvironment {environmentId : String} {environment : ComputerEnvironment}
    {db : ComputerJournal} (h : requireEnvironment environmentId db = .ok environment) :
    ∃ seat, db.seats.find? environmentId = some seat ∧ environment.seat = seat.display := by
  unfold requireEnvironment at h
  cases hread : db.environment environmentId with
  | none =>
    rw [hread] at h
    cases h
  | some found =>
    obtain ⟨row, -, hread'⟩ := Option.bind_eq_some_iff.1 hread
    obtain ⟨seat, hseat, hread'⟩ := Option.bind_eq_some_iff.1 hread'
    cases hread'
    rw [hread] at h
    dsimp only at h
    split at h
    · cases h
      exact ⟨seat, hseat, rfl⟩
    · cases h
      exact ⟨seat, hseat, ComputerEnvironment.seat_boundTo _ _⟩

def HeldByAgent (environmentId : String) (db : ComputerJournal) : Prop :=
  ∃ seat, db.seats.find? environmentId = some seat ∧ seat.state = .agentControlled

theorem revokeActiveInput_differs {world : World} {environmentId error other : String} {db : ComputerJournal}
    (h : (Service.revokeActiveInput other).alone (respond world) db ≠
      (Service.revokeActiveInput other).alone (respond (world.refusing environmentId error)) db) :
    other = environmentId ∧ HeldByAgent environmentId db ∧
      (Service.revokeActiveInput other).alone (respond (world.refusing environmentId error)) db =
        (.error error, db) := by
  rw [alone_revokeActiveInput, alone_revokeActiveInput] at h
  rw [alone_revokeActiveInput]
  cases hread : requireEnvironment other db with
  | error e =>
    rw [hread] at h
    exact absurd rfl h
  | ok environment =>
    simp only [hread, ne_eq, Prod.mk.injEq, and_true] at h ⊢
    unfold revocation at h ⊢
    split_ifs at h ⊢ with hagent
    · cases hlease : environment.seat.leaseId with
      | none =>
        rw [hlease] at h
        exact absurd rfl h
      | some leaseId =>
        rw [hlease] at h
        dsimp only [World.refusing] at h ⊢
        split_ifs at h ⊢ with hsame
        · obtain ⟨seat, hseat, heq⟩ := seat_of_requireEnvironment hread
          rw [heq] at hagent
          exact ⟨hsame, ⟨seat, hsame ▸ hseat, hagent⟩, rfl⟩
        · exact absurd rfl h
    · exact absurd rfl h

/-- A call under a provider that takes revocations and under one that does not. -/
abbrev Revoking (world : World) (environmentId error : String) {β : Type} (d : Service β)
    (db db' : ComputerJournal) : Prop :=
  Breaks (respond world) (respond (world.refusing environmentId error)) error d db db'

namespace Revoking

variable {world : World} {environmentId error : String} {β γ : Type} {db db' : ComputerJournal}

theorem of_bind {d : Service β} {f : β → Service γ}
    (h : Revoking world environmentId error (d >>= f) db db') (hd : Only Request.quiet d) :
    ∃ b t, d.alone (respond world) db = (.ok b, t) ∧ Revoking world environmentId error (f b) t db' :=
  Breaks.of_bind h (hd.alone_congr (respond_refusing world environmentId error) db)

theorem not_of_quiet {d : Service β} (h : Revoking world environmentId error d db db')
    (hd : Only Request.quiet d) : False :=
  Breaks.not_of_only h hd (respond_refusing world environmentId error)

theorem of_withGuard {guard : Guard} {d : Service β}
    (h : Revoking world environmentId error (Service.withGuard guard d) db db') :
    Revoking world environmentId error d db db' := by
  obtain ⟨_, t, hlock, h⟩ := Breaks.of_bind h rfl
  cases hlock
  exact h.of_ensuring fun _ => rfl

theorem of_revoke {other : String} {f : Unit → Service β}
    (h : Revoking world environmentId error (Service.revokeActiveInput other >>= f) db db')
    (hf : Only Request.quiet (f ())) : other = environmentId ∧ db' = db ∧ HeldByAgent environmentId db := by
  obtain ⟨hsame, hheld, hrevoke⟩ := revokeActiveInput_differs fun hagree => by
    obtain ⟨⟨⟩, t, -, h⟩ := Breaks.of_bind h hagree
    exact not_of_quiet h hf
  have hfails := h.fails
  rw [alone_bind, hrevoke] at hfails
  cases hfails
  exact ⟨hsame, rfl, hheld⟩

end Revoking

/-! ## Calls on the life of a computer -/

abbrev quietAll : Request ⊕ LifecycleRequest → Prop := Sum.elim Request.quiet fun _ => True

/-- A call under a provider that takes revocations and under one that does not. -/
abbrev Interrupted (world : LifecycleWorld) (environmentId error : String) {β : Type} (d : Lifecycle β)
    (db db' : ComputerJournal) : Prop :=
  Breaks (respondAll world) (respondAll (world.refusing environmentId error)) error d db db'

namespace Interrupted

variable {world : LifecycleWorld} {environmentId error : String} {β γ : Type} {db db' : ComputerJournal}

theorem of_inl {d : Service β} (h : Interrupted world environmentId error d.inl db db') :
    Revoking world.toWorld environmentId error d db db' := by
  obtain ⟨hcompletes, hfails⟩ := h
  simp only [respondAll, alone_inl] at hcompletes hfails
  exact ⟨hcompletes, hfails⟩

theorem of_bind {d : Lifecycle β} {f : β → Lifecycle γ}
    (h : Interrupted world environmentId error (d >>= f) db db') (hd : Only quietAll d) :
    ∃ b t, d.alone (respondAll world) db = (.ok b, t) ∧ Interrupted world environmentId error (f b) t db' :=
  Breaks.of_bind h (hd.alone_congr (respondAll_refusing world environmentId error) db)

theorem of_inl_bind {d : Service β} {f : β → Lifecycle γ}
    (h : Interrupted world environmentId error (d.inl >>= f) db db') (hd : Only Request.quiet d) :
    ∃ b t, d.alone (respond world.toWorld) db = (.ok b, t) ∧
      Interrupted world environmentId error (f b) t db' := by
  obtain ⟨b, t, halone, h⟩ := h.of_bind (Only.inl hd)
  rw [respondAll, alone_inl] at halone
  exact ⟨b, t, halone, h⟩

theorem of_await {r : Request} {k : Response r → Lifecycle γ}
    (h : Interrupted world environmentId error (Lifecycle.await r >>= k) db db') (hr : r.quiet) :
    Interrupted world environmentId error (k (respond world.toWorld r db).1) (respond world.toWorld r db).2 db' := by
  obtain ⟨b, t, hanswer, h⟩ := h.of_bind (d := Lifecycle.await r) ⟨hr, fun _ => trivial⟩
  cases hanswer
  exact h

theorem of_query {r : LifecycleRequest} {k : LifecycleResponse r → Lifecycle γ}
    (h : Interrupted world environmentId error (Lifecycle.query r >>= k) db db') :
    Interrupted world environmentId error (k (respondLifecycle world r db).1) (respondLifecycle world r db).2 db' := by
  obtain ⟨b, t, hanswer, h⟩ := h.of_bind (d := Lifecycle.query r) ⟨trivial, fun _ => trivial⟩
  cases hanswer
  exact h

theorem of_ofExcept {x : Except String β} {f : β → Lifecycle γ}
    (h : Interrupted world environmentId error (ofExcept x >>= f) db db') :
    ∃ b, x = .ok b ∧ Interrupted world environmentId error (f b) db db' := by
  obtain ⟨b, t, hx, h⟩ := h.of_bind (only_ofExcept x)
  rw [alone_ofExcept] at hx
  obtain ⟨hok, rfl⟩ := Prod.mk.inj hx
  exact ⟨b, hok, h⟩

theorem not_of_quiet {d : Lifecycle β} (h : Interrupted world environmentId error d db db')
    (hd : Only quietAll d) : False :=
  Breaks.not_of_only h hd (respondAll_refusing world environmentId error)

theorem of_withGuard {guard : Guard} {d : Lifecycle β}
    (h : Interrupted world environmentId error (Lifecycle.withGuard guard d) db db') :
    Interrupted world environmentId error d db db' := by
  obtain ⟨_, t, hlock, h⟩ := Breaks.of_bind h rfl
  cases hlock
  exact h.of_ensuring fun _ => rfl

theorem of_revoke {other : String} {f : Unit → Lifecycle β}
    (h : Interrupted world environmentId error ((Service.revokeActiveInput other).inl >>= f) db db')
    (hf : Only quietAll (f ())) : other = environmentId ∧ db' = db ∧ HeldByAgent environmentId db := by
  have hdiffers : (Service.revokeActiveInput other).alone (respond world.toWorld) db ≠
      (Service.revokeActiveInput other).alone (respond (world.toWorld.refusing environmentId error)) db := by
    intro hagree
    obtain ⟨⟨⟩, t, -, h⟩ := Breaks.of_bind h
      (by simpa only [respondAll, alone_inl, toWorld_refusing] using hagree)
    exact not_of_quiet h hf
  obtain ⟨hsame, hheld, hrevoke⟩ := revokeActiveInput_differs hdiffers
  have hfails := h.fails
  rw [alone_bind, respondAll, alone_inl, toWorld_refusing] at hfails
  rw [hrevoke] at hfails
  cases hfails
  exact ⟨hsame, rfl, hheld⟩

end Interrupted

end Wiii.Neko.Computer
