import Wiii.Lib.Except
import Wiii.Neko.Journal.Operations
import Wiii.Neko.Journal.Statements

/-!
# When an operation succeeds and what it leaves

One lemma for each body of an operation: the conditions under which it succeeds and the database it
leaves.  The proofs about the journal use these and never unfold an operation.
-/

namespace Wiii.Neko.Journal

open Database

variable {db db' : Database} {tick : Tick}

theorem ensure_ok_iff {condition : Bool} {error : String} :
    ensure condition error = .ok () ↔ condition := by
  cases condition <;> simp [ensure]

theorem recordedDecision_ne_execute (row : ControlRequest) :
    recordedDecision row ≠ .execute := by
  unfold recordedDecision
  cases row.phase <;> simp

theorem recordedStartDecision_ne_execute (row : ControlRequest) (event : ControlEvent) :
    recordedStartDecision row ≠ .execute event := by
  unfold recordedStartDecision
  cases row.phase <;> simp

theorem beginRequest_ok_iff {r method target : String} {d : RequestDecision} :
    beginRequest r method target tick db = .ok (d, db') ↔
      (∃ row, db.request r = some row ∧ row.method = method ∧ row.targetId = target ∧
        d = recordedDecision row ∧ db' = db) ∨
      (db.request r = none ∧ d = .execute ∧
        db.insertRequest (acceptedRequest r method target tick.now) = .ok db') := by
  unfold beginRequest
  cases h : db.request r with
  | some row =>
    by_cases hne : row.method ≠ method ∨ row.targetId ≠ target
    · simp only [if_pos hne, reduceCtorEq, Option.some.injEq, exists_eq_left', false_and, or_false,
        false_iff]
      rintro ⟨hm, ht, -⟩
      exact hne.elim (fun h => h hm) fun h => h ht
    · simp only [if_neg hne, Except.ok.injEq, Prod.mk.injEq, Option.some.injEq, exists_eq_left',
        reduceCtorEq, false_and, or_false]
      simp only [ne_eq, not_or, not_not] at hne
      rw [and_iff_right hne.1, and_iff_right hne.2, eq_comm, @eq_comm _ db]
  | none =>
    simp only [bind_ok_iff, pure, Except.pure, Except.ok.injEq, Prod.mk.injEq, reduceCtorEq,
      false_and, exists_false, false_or, true_and]
    constructor
    · rintro ⟨_, hi, rfl, rfl⟩
      exact ⟨rfl, hi⟩
    · rintro ⟨rfl, hi⟩
      exact ⟨db', hi, rfl, rfl⟩

structure Admits (r target : String) (session : NewSession) (eventType : String) (payload : Value)
    (tick : Tick) (db : Database) (event : ControlEvent) (db' : Database) : Prop where
  fresh_request : db.request r = none
  fresh_session : db.session session.agentSessionId = none
  event_eq : event = nextEvent db session.runId eventType session.runId session.agentSessionId
    payload tick
  requests : db.requests.insert? (acceptedRequest r "session/start" target tick.now) =
    some db'.requests
  sessions : db.sessions.insert? (startingSession session tick.now) = some db'.sessions
  events : db'.events.rows = db.events.rows ++ [event]
  pending : db'.pending = db.pending

theorem Admits.request {r target eventType : String} {session : NewSession} {payload : Value}
    {event : ControlEvent} (h : Admits r target session eventType payload tick db event db')
    (r' : String) : db'.request r' =
      if r' = r then some (acceptedRequest r "session/start" target tick.now) else db.request r' :=
  Table.find?_insert? h.requests r'

theorem Admits.session_eq {r target eventType : String} {session : NewSession} {payload : Value}
    {event : ControlEvent} (h : Admits r target session eventType payload tick db event db')
    (s' : String) : db'.session s' =
      if s' = session.agentSessionId then some (startingSession session tick.now)
      else db.session s' :=
  Table.find?_insert? h.sessions s'

theorem beginStartRequest_ok {r target eventType : String} {session : NewSession}
    {acceptingNew : Bool} {payload : Value} {d : StartRequestDecision}
    (h : beginStartRequest r target session acceptingNew eventType payload tick db = .ok (d, db')) :
    (∃ row, db.request r = some row ∧ row.method = "session/start" ∧ row.targetId = target ∧
      d = recordedStartDecision row ∧ db' = db) ∨
    (db.request r = none ∧ d = .admissionClosed ∧ acceptingNew = false ∧ db' = db) ∨
    ∃ event, acceptingNew = true ∧ d = .execute event ∧
      Admits r target session eventType payload tick db event db' := by
  unfold beginStartRequest at h
  obtain ⟨-, h⟩ := bind_unit_ok_iff.1 h
  cases hr : db.request r with
  | some row =>
    rw [hr] at h
    by_cases hne : row.method ≠ "session/start" ∨ row.targetId ≠ target
    · simp [hne] at h
    · simp only [if_neg hne, Except.ok.injEq, Prod.mk.injEq] at h
      simp only [ne_eq, not_or, not_not] at hne
      exact .inl ⟨row, rfl, hne.1, hne.2, h.1.symm, h.2.symm⟩
  | none =>
    rw [hr] at h
    cases acceptingNew with
    | false =>
      simp only [Bool.not_false, if_true, Except.ok.injEq, Prod.mk.injEq] at h
      exact .inr (.inl ⟨rfl, h.1.symm, rfl, h.2.symm⟩)
    | true =>
      simp only [Bool.not_true, Bool.false_eq_true, if_false] at h
      obtain ⟨db₁, h₁, h⟩ := bind_ok_iff.1 h
      obtain ⟨db₂, h₂, h⟩ := bind_ok_iff.1 h
      obtain ⟨db₃, h₃, h⟩ := bind_ok_iff.1 h
      obtain ⟨requests, hq, rfl⟩ := insertRequest_ok_iff.1 h₁
      obtain ⟨sessions, hs, rfl⟩ := insertSession_ok_iff.1 h₂
      obtain ⟨-, happ⟩ := (insertEvent_ok_iff (by rfl)).1 h₃
      simp only [pure, Except.pure, Except.ok.injEq, Prod.mk.injEq] at h
      obtain ⟨rfl, rfl⟩ := h
      refine .inr (.inr ⟨_, rfl, rfl, ?_⟩)
      constructor
      · exact hr
      · exact (Table.insert?_eq_some_iff.1 hs).1
      · rfl
      · rw [happ.requests]
        exact hq
      · rw [happ.sessions]
        exact hs
      · exact happ.events
      · exact happ.pending

theorem advanceRequest_ok_iff {r : String} {next : OperationPhase}
    {write : ControlRequest → ControlRequest} {hw : ∀ q, (write q).requestId = q.requestId}
    {u : Unit} :
    advanceRequest r next write tick db hw = .ok (u, db') ↔
      ∃ row, db.request r = some row ∧ canAdvanceOperation row.phase next ∧
        db' = db.updateRequest r
          (fun row => { write row with phase := next, updatedAt := tick.now }) hw := by
  unfold advanceRequest
  cases db.request r with
  | none => simp
  | some row =>
    simp only [Option.some.injEq, exists_eq_left']
    by_cases h : canAdvanceOperation row.phase next = true
    · simp only [h, if_true, Except.ok.injEq, Prod.mk.injEq, true_and]
      exact eq_comm
    · simp [h]

theorem completeRequest_ok_iff {r : String} {result : Value} {u : Unit} :
    completeRequest r result tick db = .ok (u, db') ↔
      result.encodedLength ≤ maxEventPayloadBytes ∧
        ∃ row, db.request r = some row ∧ canAdvanceOperation row.phase .completed ∧
          db' = db.updateRequest r fun row => { row with
            phase := .completed, result := some result, errorCode := none
            updatedAt := tick.now } := by
  unfold completeRequest
  by_cases h : result.encodedLength > maxEventPayloadBytes
  · simp [h, Nat.not_le.2 h]
  · rw [if_neg h, advanceRequest_ok_iff, and_iff_right (Nat.le_of_not_gt h)]

theorem retainTerminalFact_ok_iff {s : String} {link : Option String} {fact : Value} {u : Unit} :
    retainTerminalFact s link fact tick db = .ok (u, db') ↔
      fact.encodedLength ≤ maxEventPayloadBytes * 2 ∧ (db.session s).isSome ∧
        (∀ r, link = some r → (db.request r).isSome) ∧
          db' = { db with pending := db.pending.upsert ⟨s, link, fact, tick.now⟩ } := by
  unfold retainTerminalFact
  by_cases h : fact.encodedLength > maxEventPayloadBytes * 2
  · simp [h, Nat.not_le.2 h]
  · rw [if_neg h, bind_ok_iff, and_iff_right (Nat.le_of_not_gt h)]
    simp only [upsertPending_ok_iff, pure, Except.pure, Except.ok.injEq, Prod.mk.injEq, true_and]
    constructor
    · rintro ⟨_, ⟨hs, hr, rfl⟩, rfl⟩
      exact ⟨hs, hr, rfl⟩
    · rintro ⟨hs, hr, rfl⟩
      exact ⟨_, ⟨hs, hr, rfl⟩, rfl⟩

theorem reconcileRequest_ok_iff {s r reading refused : String} {settled : ControlRequest → Bool}
    {write : ControlRequest → ControlRequest} {hw : ∀ q, (write q).requestId = q.requestId}
    {u : Unit} :
    reconcileRequest s r reading refused settled write tick db hw = .ok (u, db') ↔
      ∃ row, db.request r = some row ∧
        ((row.phase = .sideEffectStarted ∨ row.phase = .committed) ∧
            db' = (db.updateRequest r
              (fun row => { write row with updatedAt := tick.now }) hw).deletePending s ∨
          ¬(row.phase = .sideEffectStarted ∨ row.phase = .committed) ∧ settled row ∧
            db' = db.deletePending s) := by
  unfold reconcileRequest
  cases db.request r with
  | none => simp
  | some row =>
    simp only [Option.some.injEq, exists_eq_left']
    by_cases h : row.phase = .sideEffectStarted ∨ row.phase = .committed
    · simp only [h, if_true, Except.ok.injEq, Prod.mk.injEq, true_and, not_true_eq_false, false_and,
        or_false]
      exact eq_comm
    · by_cases hs : settled row = true
      · simp only [h, hs, if_true, if_false, Except.ok.injEq, Prod.mk.injEq, true_and, false_and,
          false_or, not_false_eq_true]
        exact eq_comm
      · simp [h, hs]

theorem setSessionPhase_ok_iff {s : String} {phase : OperationPhase} {u : Unit} :
    setSessionPhase s phase tick db = .ok (u, db') ↔
      ∃ row, db.session s = some row ∧ canAdvanceOperation row.operationPhase phase ∧
        db' = db.updateSession s fun row =>
          { row with operationPhase := phase, updatedAt := tick.now } := by
  unfold setSessionPhase
  cases db.session s with
  | none => simp
  | some row =>
    simp only [Option.some.injEq, exists_eq_left']
    by_cases h : canAdvanceOperation row.operationPhase phase = true
    · simp only [h, if_true, Except.ok.injEq, Prod.mk.injEq, true_and]
      exact eq_comm
    · simp [h]

theorem appendEvent_ok_iff {stream eventType run : String} {s : Option String} {payload : Value}
    {event : ControlEvent} :
    appendEvent stream eventType run s payload tick db = .ok (event, db') ↔
      PayloadValid payload ∧ (∀ s', s = some s' → (db.session s').isSome) ∧
        event = nextEvent db stream eventType run s payload tick ∧ Appends db event db' := by
  unfold appendEvent
  rw [bind_unit_ok_iff, bind_ok_iff]
  constructor
  · rintro ⟨hp, db₁, hi, h⟩
    obtain ⟨hs, happ⟩ := (insertEvent_ok_iff (by rfl)).1 hi
    simp only [pure, Except.pure, Except.ok.injEq, Prod.mk.injEq] at h
    obtain ⟨rfl, rfl⟩ := h
    exact ⟨hp, hs, rfl, happ⟩
  · rintro ⟨hp, hs, rfl, happ⟩
    exact ⟨hp, db', (insertEvent_ok_iff (by rfl)).2 ⟨hs, happ⟩, rfl⟩

/-! ## The lifecycle transaction -/

/-- The conditions of a lifecycle transaction on the session row `row`. -/
structure Committable (c : SessionCommit) (completion : Option (String × Value))
    (failure : Option (String × String)) (db : Database) (row : SessionRecord) : Prop where
  single : completion = none ∨ failure = none
  payload : PayloadValid c.payload
  result : ∀ r v, completion = some (r, v) → v.encodedLength ≤ maxEventPayloadBytes
  session : db.session c.agentSessionId = some row
  state : canTransition row.state c.nextState
  phase : canAdvanceOperation row.operationPhase c.phase
  completes : ∀ r v, completion = some (r, v) → ∃ q, db.request r = some q ∧ canComplete q.phase
  fails : ∀ r e, failure = some (r, e) →
    ∃ q, db.request r = some q ∧ canAdvanceOperation q.phase .failed

def lifecycleEvent (c : SessionCommit) (row : SessionRecord) (tick : Tick) (db : Database) :
    ControlEvent :=
  nextEvent db row.runId c.eventType row.runId c.agentSessionId c.payload tick

structure Commits (c : SessionCommit) (completion : Option (String × Value))
    (failure : Option (String × String)) (tick : Tick) (db : Database) (row : SessionRecord)
    (db' : Database) : Prop where
  sessions : db'.sessions = (db.updateSession c.agentSessionId
    (committedSession c tick.now) (agentSessionId_committedSession c tick.now)).sessions
  requests : db'.requests =
    (writeFailure (writeCompletion db tick.now completion) tick.now failure).requests
  events : db'.events.rows = db.events.rows ++ [lifecycleEvent c row tick db]
  pending : db'.pending = (db.deletePending c.agentSessionId).pending

theorem Commits.unique {c : SessionCommit} {completion : Option (String × Value)}
    {failure : Option (String × String)} {row : SessionRecord} {db₁ db₂ : Database}
    (h₁ : Commits c completion failure tick db row db₁)
    (h₂ : Commits c completion failure tick db row db₂) : db₁ = db₂ := by
  cases db₁
  cases db₂
  obtain ⟨hs, hr, he, hp⟩ := h₁
  obtain ⟨hs', hr', he', hp'⟩ := h₂
  congr 1
  · exact hs.trans hs'.symm
  · exact hr.trans hr'.symm
  · exact Table.ext (he.trans he'.symm)
  · exact hp.trans hp'.symm

theorem checkCompletion_ok_iff {completion : Option (String × Value)} :
    checkCompletion db completion = .ok () ↔
      ∀ r v, completion = some (r, v) → ∃ q, db.request r = some q ∧ canComplete q.phase := by
  cases completion with
  | none => simp [checkCompletion]
  | some rv =>
    obtain ⟨r, v⟩ := rv
    cases h : db.request r with
    | none => simp [checkCompletion, requestPhase, h, bind, Except.bind]
    | some q => simp [checkCompletion, requestPhase, h, bind, Except.bind, ensure_ok_iff]

theorem checkFailure_ok_iff {failure : Option (String × String)} :
    checkFailure db failure = .ok () ↔
      ∀ r e, failure = some (r, e) →
        ∃ q, db.request r = some q ∧ canAdvanceOperation q.phase .failed := by
  cases failure with
  | none => simp [checkFailure]
  | some re =>
    obtain ⟨r, e⟩ := re
    cases h : db.request r with
    | none => simp [checkFailure, requestPhase, h, bind, Except.bind]
    | some q => simp [checkFailure, requestPhase, h, bind, Except.bind, ensure_ok_iff]

theorem writeRequests_frame (db : Database) (now : Timestamp) (completion : Option (String × Value))
    (failure : Option (String × String)) :
    (writeFailure (writeCompletion db now completion) now failure).sessions = db.sessions ∧
    (writeFailure (writeCompletion db now completion) now failure).events = db.events ∧
    (writeFailure (writeCompletion db now completion) now failure).pending = db.pending := by
  cases completion <;> cases failure <;> exact ⟨rfl, rfl, rfl⟩

theorem requests_writeRequests {db₁ : Database} (h : db₁.requests = db.requests) (now : Timestamp)
    (completion : Option (String × Value)) (failure : Option (String × String)) :
    (writeFailure (writeCompletion db₁ now completion) now failure).requests =
      (writeFailure (writeCompletion db now completion) now failure).requests := by
  cases completion <;> cases failure <;>
    simp only [writeCompletion, writeFailure, updateRequest, h]

theorem commitSessionEvent_ok_iff {c : SessionCommit} {completion : Option (String × Value)}
    {failure : Option (String × String)} {event : ControlEvent} :
    commitSessionEvent c completion failure tick db = .ok (event, db') ↔
      ∃ row, Committable c completion failure db row ∧ event = lifecycleEvent c row tick db ∧
        Commits c completion failure tick db row db' := by
  have hsingle : ((!(completion.isSome && failure.isSome)) = true) ↔
      completion = none ∨ failure = none := by
    cases completion <;> cases failure <;> simp
  have hresult : ∀ f : String × Value → Bool,
      (∀ x, f x = decide (x.2.encodedLength ≤ maxEventPayloadBytes)) → (completion.all f ↔
        ∀ r v, completion = some (r, v) → v.encodedLength ≤ maxEventPayloadBytes) := by
    intro f hf
    cases completion <;> simp [Prod.ext_iff, hf]
  unfold commitSessionEvent
  rw [bind_unit_ok_iff, bind_unit_ok_iff, bind_unit_ok_iff, ensure_ok_iff, ensure_ok_iff, hsingle,
    hresult _ fun _ => rfl]
  cases hrow : db.session c.agentSessionId with
  | none =>
    constructor
    · rintro ⟨-, -, -, h⟩
      cases h
    · rintro ⟨row, hc, -⟩
      rw [hc.session] at hrow
      cases hrow
  | some row =>
    simp only [bind_unit_ok_iff, ensure_ok_iff, checkCompletion_ok_iff, checkFailure_ok_iff]
    have hfk : ∀ s, some c.agentSessionId = some s →
        ((db.updateSession c.agentSessionId (committedSession c tick.now)
          (agentSessionId_committedSession c tick.now)).session s).isSome := by
      rintro s ⟨⟩
      rw [session_updateSession, if_pos rfl, hrow]
      rfl
    constructor
    · rintro ⟨h₁, h₂, h₃, h₄, h₅, h₆, h₇, h⟩
      obtain ⟨db₁, hi, h⟩ := bind_ok_iff.1 h
      obtain ⟨-, happ⟩ := (insertEvent_ok_iff (by rfl)).1 hi
      simp only [pure, Except.pure, Except.ok.injEq, Prod.mk.injEq] at h
      obtain ⟨rfl, rfl⟩ := h
      obtain ⟨fs, fe, fp⟩ := writeRequests_frame db₁ tick.now completion failure
      refine ⟨row, ⟨h₁, h₂, h₃, hrow, h₄, h₅, h₆, h₇⟩, rfl, ?_⟩
      constructor
      · exact fs.trans happ.sessions
      · rw [requests_deletePending]
        exact requests_writeRequests (happ.requests.trans (requests_updateSession db _ _ _)) _ _ _
      · rw [events_deletePending, fe]
        exact happ.events
      · simp only [deletePending, fp, happ.pending, pending_updateSession]
    · rintro ⟨row', hc, rfl, hcom⟩
      obtain rfl : row' = row := Option.some.inj (hc.session.symm.trans hrow)
      refine ⟨hc.single, hc.payload, hc.result, hc.state, hc.phase, hc.completes, hc.fails, ?_⟩
      rw [bind_ok_iff]
      obtain ⟨events, hev⟩ : ∃ events : Table ControlEvent.position,
          events.rows = db.events.rows ++ [lifecycleEvent c row' tick db] :=
        ⟨db'.events, hcom.events⟩
      let written := db.updateSession c.agentSessionId (committedSession c tick.now)
        (agentSessionId_committedSession c tick.now)
      have happ : Appends written (lifecycleEvent c row' tick db) { written with events } :=
        ⟨hev, rfl, rfl, rfl⟩
      refine ⟨_, (insertEvent_ok_iff (by rfl)).2 ⟨hfk, happ⟩, ?_⟩
      simp only [pure, Except.pure, Except.ok.injEq, Prod.mk.injEq]
      refine ⟨rfl, ?_⟩
      obtain ⟨fs, fe, fp⟩ := writeRequests_frame { written with events } tick.now completion failure
      refine Commits.unique ?_ hcom
      constructor
      · exact fs
      · rw [requests_deletePending]
        have hr : ({ written with events } : Database).requests = db.requests := rfl
        exact requests_writeRequests hr _ _ _
      · rw [events_deletePending, fe]
        exact hev
      · rw [deletePending, fp]
        rfl

theorem commitSessionEvent_commits {c : SessionCommit} {completion : Option (String × Value)}
    {failure : Option (String × String)} {row : SessionRecord}
    (h : Committable c completion failure db row) (tick : Tick) :
    ∃ db', commitSessionEvent c completion failure tick db =
        .ok (lifecycleEvent c row tick db, db') ∧ Commits c completion failure tick db row db' := by
  have hseq : (lifecycleEvent c row tick db).seq = db.latestSeq row.runId + 1 := rfl
  obtain ⟨events, -, hrows⟩ := exists_insert hseq
  have hcom : Commits c completion failure tick db row
      { sessions := (db.updateSession c.agentSessionId (committedSession c tick.now)
          (agentSessionId_committedSession c tick.now)).sessions
        requests :=
          (writeFailure (writeCompletion db tick.now completion) tick.now failure).requests
        events
        pending := (db.deletePending c.agentSessionId).pending } := ⟨rfl, rfl, hrows, rfl⟩
  exact ⟨_, commitSessionEvent_ok_iff.2 ⟨row, h, rfl, hcom⟩, hcom⟩

theorem Commits.session {c : SessionCommit} {completion : Option (String × Value)}
    {failure : Option (String × String)} {row : SessionRecord}
    (h : Commits c completion failure tick db row db') (s : String) :
    db'.session s = if s = c.agentSessionId then
      (db.session c.agentSessionId).map (committedSession c tick.now) else db.session s := by
  rw [Database.session, h.sessions]
  exact session_updateSession _ _ _ _ s

theorem Commits.retained {c : SessionCommit} {completion : Option (String × Value)}
    {failure : Option (String × String)} {row : SessionRecord}
    (h : Commits c completion failure tick db row db') (s : String) :
    db'.retained s = if s = c.agentSessionId then none else db.retained s := by
  rw [Database.retained, h.pending]
  exact retained_deletePending _ _ s

end Wiii.Neko.Journal
