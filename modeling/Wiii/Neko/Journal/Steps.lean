import Wiii.Neko.Journal.Specs

/-!
# The journal as a system of transactions

A `Step` is one call of a transaction of `Op`: it is refused or failed by the storage and leaves the database as it was,
or it commits.  A crash between two transactions is a run that stops and a later run that starts from the same database
(`evolves_openJournal`).
-/

namespace Wiii.Neko

open Journal

inductive Op where
  | beginRequest (requestId method targetId : String)
  | beginStartRequest (requestId targetId : String) (session : NewSession) (acceptingNew : Bool)
      (eventType : String) (payload : Value)
  | setRequestPhase (requestId : String) (next : OperationPhase)
  | completeRequest (requestId : String) (result : Value)
  | failRequest (requestId errorCode : String)
  | markRequestUnknown (requestId : String)
  | retainTerminalFact (agentSessionId : String) (requestId : Option String) (fact : Value)
  | removeTerminalFact (agentSessionId : String)
  | reconcileTerminalRequest (agentSessionId requestId : String) (result : Value)
  | reconcileTerminalRequestFailure (agentSessionId requestId errorCode : String)
  | setSessionPhase (agentSessionId : String) (phase : OperationPhase)
  | updateSessionWithEvent (c : SessionCommit)
  | completeRequestWithSessionEvent (c : SessionCommit) (requestId : String) (result : Value)
  | failRequestWithSessionEvent (c : SessionCommit) (requestId errorCode : String)
  | appendEvent (streamId eventType runId : String) (agentSessionId : Option String)
      (payload : Value)
  | recoverSafeRequests
  | recoverUncertainRequests
  | startupMaintenance (terminalNow requestNow : Timestamp)

inductive Answer where
  | done
  | request (decision : RequestDecision)
  | start (decision : StartRequestDecision)
  | event (event : ControlEvent)

def Op.apply (op : Op) (tick : Tick) (db : Database) : Except String (Answer × Database) :=
  match op with
  | beginRequest r method target => (Journal.beginRequest r method target tick db).map fun x =>
      (.request x.1, x.2)
  | beginStartRequest r target session acceptingNew eventType payload =>
    (Journal.beginStartRequest r target session acceptingNew eventType payload tick db).map fun x =>
      (.start x.1, x.2)
  | setRequestPhase r next => (Journal.setRequestPhase r next tick db).map fun x => (.done, x.2)
  | completeRequest r result => (Journal.completeRequest r result tick db).map fun x => (.done, x.2)
  | failRequest r errorCode => (Journal.failRequest r errorCode tick db).map fun x => (.done, x.2)
  | markRequestUnknown r => (Journal.markRequestUnknown r tick db).map fun x => (.done, x.2)
  | retainTerminalFact s r fact => (Journal.retainTerminalFact s r fact tick db).map fun x =>
      (.done, x.2)
  | removeTerminalFact s => (Journal.removeTerminalFact s tick db).map fun x => (.done, x.2)
  | reconcileTerminalRequest s r result =>
    (Journal.reconcileTerminalRequest s r result tick db).map fun x => (.done, x.2)
  | reconcileTerminalRequestFailure s r errorCode =>
    (Journal.reconcileTerminalRequestFailure s r errorCode tick db).map fun x => (.done, x.2)
  | setSessionPhase s phase => (Journal.setSessionPhase s phase tick db).map fun x => (.done, x.2)
  | updateSessionWithEvent c => (Journal.updateSessionWithEvent c tick db).map fun x =>
      (.event x.1, x.2)
  | completeRequestWithSessionEvent c r result =>
    (Journal.completeRequestWithSessionEvent c r result tick db).map fun x => (.event x.1, x.2)
  | failRequestWithSessionEvent c r errorCode =>
    (Journal.failRequestWithSessionEvent c r errorCode tick db).map fun x => (.event x.1, x.2)
  | appendEvent stream eventType run s payload =>
    (Journal.appendEvent stream eventType run s payload tick db).map fun x => (.event x.1, x.2)
  | recoverSafeRequests => (Journal.recoverSafeRequests tick db).map fun x => (.done, x.2)
  | recoverUncertainRequests => (Journal.recoverUncertainRequests tick db).map fun x => (.done, x.2)
  | startupMaintenance terminalNow requestNow =>
    (Journal.startupMaintenance terminalNow requestNow tick db).map fun x => (.done, x.2)

/-- One call of a transaction: the operation, its tick and its answer. -/
structure Call where
  op : Op
  tick : Tick
  answer : Except String Answer

/-- The system of the journal's transactions. -/
def Step (db : Database) (call : Call) (db' : Database) : Prop :=
  Program.transact call.op.apply call.tick db = (call.answer, db')

/-- The databases that some run of transactions reaches from the empty journal. -/
def Reachable (db : Database) : Prop := Reaches Step ∅ db

theorem Step.cases {db db' : Database} {call : Call} (h : Step db call db') :
    (db' = db ∧ ∃ error, call.answer = .error error) ∨
      ∃ answer, call.answer = .ok answer ∧ call.op.apply call.tick db = .ok (answer, db') := by
  unfold Step at h
  cases ha : call.answer with
  | error error =>
    rw [ha] at h
    exact .inl ⟨(Program.transact_error h).1, error, rfl⟩
  | ok answer =>
    rw [ha] at h
    exact .inr ⟨answer, rfl, (Program.transact_ok_iff.1 h).2⟩

theorem Step.of_apply {op : Op} {tick : Tick} {db db' : Database} {answer : Answer}
    (hf : tick.fault = none) (h : op.apply tick db = .ok (answer, db')) :
    Step db ⟨op, tick, .ok answer⟩ db' :=
  Program.transact_of_ok hf h

/-- The database after a list of calls, refused ones included. -/
def perform (db : Database) : List (Op × Tick) → Database
  | [] => db
  | (op, tick) :: calls => perform (Program.transact op.apply tick db).2 calls

def trace (db : Database) : List (Op × Tick) → List Call
  | [] => []
  | (op, tick) :: calls =>
    ⟨op, tick, (Program.transact op.apply tick db).1⟩ ::
      trace (Program.transact op.apply tick db).2 calls

theorem run_perform (db : Database) (calls : List (Op × Tick)) :
    Run Step db (trace db calls) (perform db calls) := by
  induction calls generalizing db with
  | nil => exact .nil db
  | cons call calls ih => exact .cons rfl (ih _)

theorem reachable_perform (calls : List (Op × Tick)) : Reachable (perform ∅ calls) :=
  ⟨_, run_perform ∅ calls⟩

theorem Reachable.invariant {I : Database → Prop} (empty : I ∅)
    (step : ∀ db db' call, I db → Step db call db' → I db') {db : Database} (h : Reachable db) :
    I db := by
  obtain ⟨calls, hr⟩ := h
  exact hr.invariant (fun db call db' hi hs => step db db' call hi hs) empty

theorem map_ok_iff {α β : Type} {m : Except String α} {f : α → β} {b : β} :
    m.map f = .ok b ↔ ∃ a, m = .ok a ∧ f a = b := by
  cases m <;> simp [Except.map]

/-! ## Startup only takes these steps -/

section Startup

open Program

variable {μ : Type}

theorem evolves_op {α : Type} (op : Op) (answer : α → Answer)
    {m : Tick → Database → Except String (α × Database)} (h : ∀ t d, op.apply t d = (m t d).map fun x => (answer x.1, x.2)) :
    Evolves Step (call m : Program Database μ (Except String α)) :=
  evolves_call fun t d a d' hf hm =>
    .single (Step.of_apply hf (by rw [h, hm]; rfl))

theorem evolves_read {α : Type} (f : Database → α) :
    Evolves Step (call (fun _ db => .ok (f db, db)) : Program Database μ (Except String α)) := by
  refine evolves_call fun t d a d' _ h => ?_
  obtain ⟨-, rfl⟩ : f d = a ∧ d = d' := by simpa using h
  exact .refl d

theorem evolves_recoverSession (session : SessionRecord) :
    Evolves Step (recoverSession session : Program Database μ (Except String Unit)) := by
  unfold recoverSession
  split
  · exact evolves_pure _
  · refine (evolves_read _).andThen fun pending => ?_
    split
    · exact evolves_pure _
    · refine (evolves_op (.updateSessionWithEvent _) .event fun _ _ => rfl).andThen ?_
      exact fun _ => evolves_pure _

/-- Recovery changes the journal by lifecycle transactions and its two updates only. -/
theorem evolves_recoverIncomplete :
    Evolves Step (recoverIncomplete : Program Database μ (Except String Unit)) := by
  refine (evolves_read _).andThen fun sessions => ?_
  refine (evolves_tryEach evolves_recoverSession sessions).andThen fun _ => ?_
  refine (evolves_op .recoverSafeRequests (fun _ => .done) fun _ _ => rfl).andThen ?_
  exact fun _ => evolves_op .recoverUncertainRequests (fun _ => .done) fun _ _ => rfl

end Startup

end Wiii.Neko
