import Wiii.Lib.Dialog
import Wiii.Neko.Computer.Calls
import Wiii.Neko.Computer.System

/-!
# The calls of the computer service

The calls that take or use a computer, as programs that ask the journal, the provider and the two guards of the service
one request after the other.  A guard is given back however the call ends.
-/

namespace Wiii.Neko.Computer

/-- The two mutexes of the service. -/
inductive Guard where
  | seats
  | operations
  deriving DecidableEq

structure ProviderEnvironment where
  state : ComputerState
  deriving DecidableEq

inductive Request where
  | lock (guard : Guard)
  | unlock (guard : Guard)
  | environment (environmentId : String)
  | coworkerBindingForEnvironment (environmentId : String)
  | coworkerBinding (coworkerId : String)
  | projectGrants (coworkerId : String)
  | existingRequestDecision (requestId method targetId : String)
  | journal (op : Op)
  | resolve (environmentId projectPath : String)
  | detach (environmentId : String)
  | activateInput (environmentId leaseId : String)
  | revokeInput (environmentId leaseId : String)
  | terminalExec (environmentId command : String)
  | browserNavigate (environmentId url : String)
  | semanticAct (request : SemanticActRequest)
  | workPlaneExecute (request : WorkPlaneTransactionRequest)

abbrev Response : Request → Type
  | .lock _ | .unlock _ => Unit
  | .environment _ => Except String (Option ComputerEnvironment)
  | .coworkerBindingForEnvironment _ | .coworkerBinding _ => Except String (Option CoworkerBinding)
  | .projectGrants _ => Except String (List ComputerProjectGrant)
  | .existingRequestDecision _ _ _ => Except String (Option RequestDecision)
  | .journal _ => Except String Answer
  | .resolve _ _ => Except String (Option ProviderEnvironment)
  | .detach _ | .activateInput _ _ | .revokeInput _ _ | .browserNavigate _ _ => Except String Unit
  | .terminalExec _ _ => Except String ProviderTerminalResult
  | .semanticAct _ => Except String SemanticActResult
  | .workPlaneExecute _ => Except String WorkPlaneTransactionResult

/-- The documents of seats and results, and the hashes of a text and of a project id. -/
structure Libraries where
  seatToValue : DisplaySeat → Value
  seatFromValue : Value → Except String DisplaySeat
  actionToValue : SemanticActResult → Value
  actionFromValue : Value → Except String SemanticActResult
  digest : Value → String
  projectDigest : String → String

abbrev Service (β : Type) := Dialog Response String β

namespace Service

open Dialog

def await (r : Request) : Service (Response r) := request r

/-- The guard is held for the body and given back. -/
def withGuard {β : Type} (guard : Guard) (body : Service β) : Service β := do
  await (.lock guard)
  body.ensuring (.unlock guard)

/-! ## Checks -/

def requireEnvironment (environmentId : String) : Service ComputerEnvironment := do
  match ← ofExcept (← await (.environment environmentId)) with
  | none => fail "Computer environment does not exist"
  | some environment =>
    match ← ofExcept (← await (.coworkerBindingForEnvironment environmentId)) with
    | none => pure environment
    | some binding => pure (environment.boundTo binding)

def requireGrantedEnvironment (environmentId : String) : Service ComputerEnvironment := do
  let environment ← requireEnvironment environmentId
  match ← ofExcept (← await (.coworkerBindingForEnvironment environmentId)) with
  | none => fail projectAccessDenied
  | some binding =>
    match binding.activeProjectId with
    | none => fail projectAccessDenied
    | some projectId =>
      let grants ← ofExcept (← await (.projectGrants binding.coworkerId))
      if (¬ grants.any fun grant => decide (grant.projectId = some projectId) &&
          decide (grant.projectPath = environment.projectPath)) ∨
          binding.activeProjectPath ≠ some environment.projectPath then fail projectAccessDenied
      else pure environment

def requireLiveEnvironment (environmentId : String) : Service ComputerEnvironment := do
  let environment ← requireEnvironment environmentId
  match ← ofExcept (← await (.resolve environmentId environment.projectPath)) with
  | none => pure environment
  | some provider => pure { environment with state := provider.state }

/-! ## The journal of a call -/

/-- A write of the journal whose error ends the call. -/
def write (op : Op) : Service Answer := do
  ofExcept (← await (.journal op))

def beginRequest (requestId method targetId : String) : Service RequestDecision := do
  match ← write (.beginRequest requestId method targetId) with
  | .decision decision => pure decision
  | _ => fail ""

/-- The effect is marked uncertain, whether or not the journal takes it. -/
def uncertain {β : Type} (requestId environmentId detail : String) : Service β := do
  let _ ← await (.journal (.markUnknownOutcome requestId environmentId))
  fail s!"unknown_outcome: {detail}"

/-- The error of an effect makes it uncertain. -/
def orUncertain {β : Type} (requestId environmentId : String) : Except String β → Service β
  | .ok b => pure b
  | .error error => uncertain requestId environmentId error

def recordLocalRejection {β : Type} (requestId code detail : String) : Service β := do
  match ← await (.journal (.failRequest requestId code)) with
  | .ok _ => fail detail
  | .error error => fail s!"computer_request_journal_failed: {error}; {detail}"

def unknownOutcome (environmentId : String) : String :=
  s!"unknown_outcome: computer operation for {environmentId} cannot be replayed safely"

/-! ## Seats -/

def revokeActiveInput (environmentId : String) : Service Unit := do
  let environment ← requireEnvironment environmentId
  if environment.seat.state = .agentControlled then
    match environment.seat.leaseId with
    | none => fail "Computer lease is missing"
    | some leaseId => do ofExcept (← await (.revokeInput environmentId leaseId))
  else pure ()

variable (L : Libraries)

def acquireSeat (call : SeatAcquireRequest) : Service DisplaySeat := withGuard .seats do
  let environment ← requireEnvironment call.environmentId
  if environment.state ≠ .ready then fail "Computer must be ready before acquiring control"
  else
    match ← beginRequest call.requestId "computer/seat/acquire" call.environmentId with
    | .replay value => ofExcept (L.seatFromValue value)
    | .recordedError code => fail code
    | .unknownOutcome => fail (unknownOutcome call.environmentId)
    | .execute =>
      let _ ← write (.markSideEffectStarted call.requestId)
      if call.userControlled then revokeActiveInput call.environmentId
      match ← await (.journal (.acquireSeat call.environmentId call.ownerId call.userControlled)) with
      | .error error => recordLocalRejection call.requestId "seat_acquire_rejected" error
      | .ok (.seat seat) =>
        if !call.userControlled then
          match seat.leaseId with
          | none => fail "Computer lease is missing"
          | some leaseId => do
            orUncertain call.requestId call.environmentId (← await (.activateInput call.environmentId leaseId))
        let _ ← orUncertain call.requestId call.environmentId
          (← await (.journal (.completeRequest call.requestId (L.seatToValue seat))))
        pure seat
      | .ok _ => fail ""

def releaseSeat (call : SeatReleaseRequest) : Service DisplaySeat := withGuard .seats do
  let environment ← requireEnvironment call.environmentId
  match ← beginRequest call.requestId "computer/seat/release" call.environmentId with
  | .replay value => ofExcept (L.seatFromValue value)
  | .recordedError code => fail code
  -- A release whose outcome is not known is done again.
  | .unknownOutcome | .execute =>
    if environment.seat.leaseId ≠ some call.leaseId then
      recordLocalRejection call.requestId "seat_release_rejected" "Computer display lease is no longer current"
    else
      let _ ← write (.markSideEffectStarted call.requestId)
      revokeActiveInput call.environmentId
      match ← await (.journal (.releaseSeat call.environmentId call.leaseId)) with
      | .error error => recordLocalRejection call.requestId "seat_release_rejected" error
      | .ok (.seat seat) =>
        let _ ← orUncertain call.requestId call.environmentId
          (← await (.journal (.completeRequest call.requestId (L.seatToValue seat))))
        pure seat
      | .ok _ => fail ""

/-! ## Effects on an environment -/

def replayableSemanticResult (result : SemanticActResult) : SemanticActResult :=
  { result with visualPatch := none, observation := none }

def SemanticActResult.eventPayload (result : SemanticActResult) : Value :=
  .object [("action", .string result.action.asStr), ("targetRef", .string result.targetRef),
    ("beforeStateVersion", .string result.beforeStateVersion),
    ("afterStateVersion", .string result.afterStateVersion), ("verified", .bool result.verified),
    ("code", .ofOption result.code), ("contentPersisted", .bool false)]

def semanticAct (call : SemanticActRequest) : Service SemanticActResult := do
  ofExcept (validateSemanticAction call)
  withGuard .operations do
    let environment ← requireLiveEnvironment call.environmentId
    if environment.state ≠ .ready then fail "Computer must be running before a semantic action"
    else if environment.seat.state ≠ .agentControlled ∨ environment.seat.leaseId ≠ some call.leaseId then
      fail "Computer semantic actions require the current agent-controlled display lease"
    else
      match ← beginRequest call.requestId "computer/semantic/act" call.environmentId with
      | .replay value => ofExcept (L.actionFromValue value)
      | .recordedError code => fail code
      | .unknownOutcome => fail (unknownOutcome call.environmentId)
      | .execute =>
        let _ ← write (.markSideEffectStarted call.requestId)
        let result ← orUncertain call.requestId call.environmentId (← await (.semanticAct call))
        let eventType := if result.outcome = .completed then "semantic.action_completed"
          else "semantic.action_rejected"
        let _ ← orUncertain call.requestId call.environmentId
          (← await (.journal (.appendEvent call.environmentId eventType (SemanticActResult.eventPayload result))))
        let _ ← orUncertain call.requestId call.environmentId
          (← await (.journal (.completeRequest call.requestId (L.actionToValue (replayableSemanticResult result)))))
        pure result

/-! ## Revocation -/

def projectOperationTarget (coworkerId projectId : String) : String :=
  s!"{coworkerId}:project:{L.projectDigest projectId}"

def activeOn (projectId : String) (binding : Option CoworkerBinding) : Option String :=
  (binding.filter fun binding => decide (binding.activeProjectId = some projectId)).map CoworkerBinding.environmentId

def revokeProject (call : ComputerProjectRevokeRequest) : Service Unit := withGuard .seats do
  match activeOn call.projectId (← ofExcept (← await (.coworkerBinding call.coworkerId))) with
  | some environmentId => revokeActiveInput environmentId
  | none => pure ()
  withGuard .operations do
    match ← beginRequest call.requestId "computer/project/revoke"
        (projectOperationTarget L call.coworkerId call.projectId) with
    | .replay _ => pure ()
    | .recordedError code => fail code
    | .unknownOutcome => fail "unknown_outcome: project revocation needs inspection"
    | .execute =>
      let activeEnvironment := activeOn call.projectId (← ofExcept (← await (.coworkerBinding call.coworkerId)))
      match activeEnvironment with
      | some environmentId =>
        let _ ← write (.markSideEffectStarted call.requestId)
        orUncertain call.requestId environmentId (← await (.detach environmentId))
      | none => pure ()
      match ← await (.journal (.revokeProject call.coworkerId call.projectId)) with
      | .error error =>
        match activeEnvironment with
        | some environmentId => uncertain call.requestId environmentId error
        | none => fail error
      | .ok _ =>
        let _ ← write (.completeRequest call.requestId
          (.object [("revoked", .bool true), ("projectId", .string call.projectId)]))
        pure ()

end Service

end Wiii.Neko.Computer

/-!
## What the calls of the service are answered

`Answers` says what a request of a call does to the journal and what it may be answered, whoever else acts on
the journal meanwhile.  `respond` answers the requests of a call that runs alone on a storage that does not
fail, and what the steps of a call leave then is said by the lemmas below.
-/

namespace Wiii.Neko.Computer

open ComputerJournal

/-- A read of the journal gives what is there, or fails. -/
def Reads {β : Type} (answer there : Except String β) : Prop := answer = there ∨ ∃ error, answer = .error error

/-- What a request does to the journal, and what it may be answered. -/
def Answers (newV4 : ℕ → String) : (r : Request) → ComputerJournal → Response r → ComputerJournal → Prop
  | .environment environmentId, db, answer, db' => Reads answer (.ok (db.environment environmentId)) ∧ db' = db
  | .coworkerBindingForEnvironment environmentId, db, answer, db' =>
    Reads answer (.ok (db.coworkerBindingForEnvironment environmentId)) ∧ db' = db
  | .coworkerBinding coworkerId, db, answer, db' => Reads answer (db.coworkerBinding coworkerId) ∧ db' = db
  | .projectGrants coworkerId, db, answer, db' => Reads answer (db.projectGrants coworkerId) ∧ db' = db
  | .existingRequestDecision requestId method targetId, db, answer, db' =>
    Reads answer (db.existingRequestDecision requestId method targetId) ∧ db' = db
  | .journal op, db, answer, db' => Step newV4 db ⟨op, answer⟩ db'
  | _, db, _, db' => db' = db

/-- The random ids, the clock at each write of the journal, and the provider. -/
structure World where
  newV4 : ℕ → String
  clock : Op → Timestamp
  provider : (r : Request) → Response r

/-- The answers to a call that runs alone. -/
def respond (world : World) : (r : Request) → ComputerJournal → Response r × ComputerJournal
  | .environment environmentId, db => (.ok (db.environment environmentId), db)
  | .coworkerBindingForEnvironment environmentId, db => (.ok (db.coworkerBindingForEnvironment environmentId), db)
  | .coworkerBinding coworkerId, db => (db.coworkerBinding coworkerId, db)
  | .projectGrants coworkerId, db => (db.projectGrants coworkerId, db)
  | .existingRequestDecision requestId method targetId, db =>
    (db.existingRequestDecision requestId method targetId, db)
  | .journal op, db =>
    ((perform world.newV4 op (world.clock op) db).1.answer, (perform world.newV4 op (world.clock op) db).2)
  | r, db => (world.provider r, db)

theorem perform_op (newV4 : ℕ → String) (op : Op) (now : Timestamp) (db : ComputerJournal) :
    (perform newV4 op now db).1.op = op := by
  unfold perform
  split <;> rfl

theorem answers_respond (world : World) (r : Request) (db : ComputerJournal) :
    Answers world.newV4 r db (respond world r db).1 (respond world r db).2 := by
  cases r
  case journal op =>
    have hstep := step_perform world.newV4 op (world.clock op) db
    have hcall : (perform world.newV4 op (world.clock op) db).1 =
        ⟨op, (perform world.newV4 op (world.clock op) db).1.answer⟩ :=
      congrArg (fun op' => (⟨op', _⟩ : Call)) (perform_op world.newV4 op (world.clock op) db)
    rw [hcall] at hstep
    exact hstep
  case environment | coworkerBindingForEnvironment | coworkerBinding | projectGrants | existingRequestDecision =>
    exact ⟨.inl rfl, rfl⟩
  all_goals exact rfl

/-! ## A call under an invariant -/

/-- The requests that are allowed keep `I`, whatever the others do, who keep it too. -/
def keeping (newV4 : ℕ → String) (I : ComputerJournal → Prop) (allowed : Request → Prop)
    (hkeeps : ∀ {r db answer db'}, I db → allowed r → Answers newV4 r db answer db' → I db') :
    Contract Response ComputerJournal where
  effect := Answers newV4
  inv := I
  later := fun _ _ => True
  allowed := fun r _ => allowed r
  refl := fun _ => trivial
  trans := fun _ _ => trivial
  sound := hkeeps

/-- The request is one for an effect: of the provider, or on a seat. -/
def Request.executes : Request → Bool
  | .detach _ | .activateInput _ _ | .revokeInput _ _ | .terminalExec _ _ | .browserNavigate _ _
  | .semanticAct _ | .workPlaneExecute _ => true
  | .journal (.acquireSeat _ _ _) | .journal (.releaseSeat _ _) => true
  | _ => false

def Request.looks : Request → Bool
  | .journal _ => false
  | r => !r.executes

theorem Answers.of_looks {newV4 : ℕ → String} {r : Request} {db db' : ComputerJournal} {answer : Response r}
    (h : Answers newV4 r db answer db') (hr : r.looks) : db' = db := by
  cases r
  case journal => cases hr
  case environment | coworkerBindingForEnvironment | coworkerBinding | projectGrants | existingRequestDecision =>
    exact h.2
  all_goals exact h

section Rules

open Dialog

variable {newV4 : ℕ → String} {I : ComputerJournal → Prop} {allowed : Request → Prop}
  (hkeeps : ∀ {r db answer db'}, I db → allowed r → Answers newV4 r db answer db' → I db')
  {β γ : Type} {db : ComputerJournal}

theorem safe_await_bind {Q : β → ComputerJournal → Prop} {r : Request} {k : Response r → Service β}
    (hallowed : allowed r)
    (h : ∀ t answer u, I t → Answers newV4 r t answer u → Safe (keeping newV4 I allowed hkeeps) Q (k answer) u) :
    Safe (keeping newV4 I allowed hkeeps) Q (Service.await r >>= k) db :=
  safe_request_bind fun t _ ht => ⟨hallowed, fun answer u hu _ => h t answer u ht hu⟩

theorem safe_withGuard {P : β → Prop} (hlooks : ∀ r : Request, r.looks → allowed r) (guard : Guard)
    {body : Service β} (h : ∀ t, Safe (keeping newV4 I allowed hkeeps) (fun b _ => P b) body t) :
    Safe (keeping newV4 I allowed hkeeps) (fun b _ => P b) (Service.withGuard guard body) db :=
  safe_await_bind hkeeps (hlooks _ rfl) fun _ _ u _ _ =>
    (h u).ensuring (fun _ _ => hlooks _ rfl) fun _ _ _ _ _ hP _ _ _ _ => hP

theorem safe_requireEnvironment {P : ComputerEnvironment → Prop} (hlooks : ∀ r : Request, r.looks → allowed r)
    {environmentId : String}
    (hread : ∀ t environment, I t → t.environment environmentId = some environment →
      P environment ∧ ∀ binding, P (environment.boundTo binding)) :
    Safe (keeping newV4 I allowed hkeeps) (fun environment _ => P environment)
      (Service.requireEnvironment environmentId) db := by
  refine safe_await_bind hkeeps (hlooks _ rfl) fun t answer u ht hanswer => ?_
  refine safe_ofExcept_bind fun found hfound => ?_
  rcases hanswer.1 with rfl | ⟨error, rfl⟩
  · cases hfound
    cases hthere : t.environment environmentId with
    | none => exact safe_fail _
    | some environment =>
      refine safe_await_bind hkeeps (hlooks _ rfl) fun _ answer _ _ _ => ?_
      refine safe_ofExcept_bind fun binding _ => ?_
      cases binding with
      | none => exact safe_pure fun _ _ _ => (hread t environment ht hthere).1
      | some binding => exact safe_pure fun _ _ _ => (hread t environment ht hthere).2 binding
  · cases hfound

end Rules

end Wiii.Neko.Computer
