import Mathlib
import Wiii.Lib.Transaction
import Wiii.Neko.Journal.Steps

/-!
# Admissions and lifecycle transactions, statement by statement

`begin_start_request` and `commit_session_event` check, write several tables and commit in one transaction, and the
storage may fail any of their statements.  Either of them answers an error and leaves the journal as it was, or is the
operation of the model (`runStart_cases`, `runLifecycle_cases`).
-/

namespace Wiii.Neko.Journal

open Database Body

variable {db : Database} {tick : Tick} {faults : List (Option String)}

/-! ## The two bodies -/

def startAdmission (requestId targetId : String) (session : NewSession) (acceptingNew : Bool) (eventType : String)
    (payload : Value) (tick : Tick) : Body Database StartRequestDecision := do
  match ← query fun db => .ok (db.request requestId) with
  | some row =>
    if row.method ≠ "session/start" ∨ row.targetId ≠ targetId then fail identityReused
    else return recordedStartDecision row
  | none =>
    if !acceptingNew then return .admissionClosed
    else do
      execute fun db => db.insertRequest (acceptedRequest requestId "session/start" targetId tick.now)
      execute fun db => db.insertSession (startingSession session tick.now)
      let event ← query fun db =>
        .ok (nextEvent db session.runId eventType session.runId session.agentSessionId payload tick)
      execute fun db => db.insertEvent event
      return .execute event

def runStart (requestId targetId : String) (session : NewSession) (acceptingNew : Bool) (eventType : String)
    (payload : Value) (tick : Tick) (faults : List (Option String)) (db : Database) :
    Except String StartRequestDecision × Database :=
  match validatePayload payload with
  | .error error => (.error error, db)
  | .ok () => immediate (startAdmission requestId targetId session acceptingNew eventType payload tick) faults db

/-- The row that a lifecycle transaction starts from. -/
def readSession (agentSessionId : String) (db : Database) : Except String SessionRecord :=
  match db.session agentSessionId with
  | none => .error s!"read Neko session state failed: {queryReturnedNoRows}"
  | some row => .ok row

def lifecycle (c : SessionCommit) (completion : Option (String × Value)) (failure : Option (String × String))
    (tick : Tick) : Body Database ControlEvent := do
  let row ← query (readSession c.agentSessionId)
  ofExcept (ensure (canTransition row.state c.nextState)
    s!"invalid Neko run transition {row.state.asStr} -> {c.nextState.asStr}")
  ofExcept (ensure (canAdvanceOperation row.operationPhase c.phase)
    s!"invalid Neko session operation transition {row.operationPhase.asStr} -> {c.phase.asStr}")
  query fun db => checkCompletion db completion
  query fun db => checkFailure db failure
  execute fun db => .ok (db.updateSession c.agentSessionId (committedSession c tick.now) fun _ => rfl)
  let event ← query fun db => .ok (nextEvent db row.runId c.eventType row.runId c.agentSessionId c.payload tick)
  execute fun db => db.insertEvent event
  executeIf completion.isSome fun db => writeCompletion db tick.now completion
  executeIf failure.isSome fun db => writeFailure db tick.now failure
  execute fun db => .ok (db.deletePending c.agentSessionId)
  return event

def runLifecycle (c : SessionCommit) (completion : Option (String × Value)) (failure : Option (String × String))
    (tick : Tick) (faults : List (Option String)) (db : Database) : Except String ControlEvent × Database :=
  match (do
    ensure (!(completion.isSome && failure.isSome))
      "Neko lifecycle transaction cannot both complete and fail a request"
    validatePayload c.payload
    ensure (completion.all fun (_, result) => result.encodedLength ≤ maxEventPayloadBytes)
      resultExceedsLimit : Except String Unit) with
  | .error error => (.error error, db)
  | .ok () => immediate (lifecycle c completion failure tick) faults db

/-! ## They are the operations -/

theorem startAdmission_ok {requestId targetId eventType : String} {session : NewSession} {acceptingNew : Bool}
    {payload : Value} {decision : StartRequestDecision} {w w' : Work Database} (hpayload : PayloadValid payload)
    (h : startAdmission requestId targetId session acceptingNew eventType payload tick w = (.ok decision, w')) :
    beginStartRequest requestId targetId session acceptingNew eventType payload tick w.copy =
      .ok (decision, w'.copy) := by
  obtain ⟨existing, w₁, hread, h⟩ := bind_ok h
  obtain ⟨hexisting, hcopy⟩ := query_ok hread
  have hrequest : w.copy.request requestId = existing := Except.ok.inj hexisting
  unfold beginStartRequest
  rw [show validatePayload payload = .ok () from hpayload, hrequest, ← hcopy]
  cases existing with
  | some row =>
    dsimp only at h ⊢
    by_cases hother : row.method ≠ "session/start" ∨ row.targetId ≠ targetId
    · rw [if_pos hother] at h
      cases h
    · rw [if_neg hother] at h ⊢
      cases h
      rfl
  | none =>
    dsimp only at h ⊢
    cases acceptingNew with
    | false =>
      cases h
      rfl
    | true =>
      obtain ⟨_, w₂, hinsert, h⟩ := bind_ok h
      obtain ⟨_, w₃, hsession, h⟩ := bind_ok h
      obtain ⟨event, w₄, hevent, h⟩ := bind_ok h
      obtain ⟨_, w₅, happend, h⟩ := bind_ok h
      obtain ⟨hnext, hsame⟩ := query_ok hevent
      cases h
      have hfirst := execute_ok hinsert
      have hsecond := execute_ok hsession
      have hthird := execute_ok happend
      rw [hsame, ← Except.ok.inj hnext] at hthird
      show (do
        let db ← w₁.copy.insertRequest (acceptedRequest requestId "session/start" targetId tick.now)
        let db ← db.insertSession (startingSession session tick.now)
        let event := nextEvent db session.runId eventType session.runId session.agentSessionId payload tick
        let db ← db.insertEvent event
        return (StartRequestDecision.execute event, db)) = _
      rw [hfirst]
      show (do
        let db ← w₂.copy.insertSession (startingSession session tick.now)
        let event := nextEvent db session.runId eventType session.runId session.agentSessionId payload tick
        let db ← db.insertEvent event
        return (StartRequestDecision.execute event, db)) = _
      rw [hsecond]
      show (do
        let db ← w₃.copy.insertEvent _
        return (StartRequestDecision.execute _, db)) = _
      rw [hthird, Except.ok.inj hnext]
      rfl

theorem lifecycle_ok {c : SessionCommit} {completion : Option (String × Value)} {failure : Option (String × String)}
    {event : ControlEvent} {w w' : Work Database} (hsingle : completion = none ∨ failure = none)
    (hpayload : PayloadValid c.payload)
    (hresult : ∀ r v, completion = some (r, v) → v.encodedLength ≤ maxEventPayloadBytes)
    (h : lifecycle c completion failure tick w = (.ok event, w')) :
    commitSessionEvent c completion failure tick w.copy = .ok (event, w'.copy) := by
  obtain ⟨row, w₁, hrow, h⟩ := bind_ok h
  obtain ⟨_, w₂, hstate, h⟩ := bind_ok h
  obtain ⟨_, w₃, hphase, h⟩ := bind_ok h
  obtain ⟨_, w₄, hcompletes, h⟩ := bind_ok h
  obtain ⟨_, w₅, hfails, h⟩ := bind_ok h
  obtain ⟨_, w₆, hupdate, h⟩ := bind_ok h
  obtain ⟨next, w₇, hnext, h⟩ := bind_ok h
  obtain ⟨_, w₈, hinsert, h⟩ := bind_ok h
  obtain ⟨_, w₉, hcompletion, h⟩ := bind_ok h
  obtain ⟨_, w₁₀, hfailure, h⟩ := bind_ok h
  obtain ⟨_, w₁₁, hdelete, h⟩ := bind_ok h
  obtain ⟨hread, hcopy₁⟩ := query_ok hrow
  obtain ⟨hstate, hcopy₂⟩ := ofExcept_ok hstate
  obtain ⟨hphase, hcopy₃⟩ := ofExcept_ok hphase
  obtain ⟨hcompletes, hcopy₄⟩ := query_ok hcompletes
  obtain ⟨hfails, hcopy₅⟩ := query_ok hfails
  have hupdated := execute_ok hupdate
  obtain ⟨hnext, hcopy₇⟩ := query_ok hnext
  have hinserted := execute_ok hinsert
  have hcopy₉ := executeIf_ok hcompletion fun hnone => by
    rw [Option.isSome_eq_false_iff, Option.isNone_iff_eq_none] at hnone
    rw [hnone]
    rfl
  have hcopy₁₀ := executeIf_ok hfailure fun hnone => by
    rw [Option.isSome_eq_false_iff, Option.isNone_iff_eq_none] at hnone
    rw [hnone]
    rfl
  have hdeleted := execute_ok hdelete
  rw [Except.ok.injEq] at hupdated hdeleted
  obtain rfl : next = event := Except.ok.inj (Prod.ext_iff.1 h).1
  rw [pure_ok h]
  -- up to the first write the copy is the journal
  rw [hcopy₃, hcopy₂] at hcopy₄ hcompletes
  have hbefore : w₅.copy = w.copy := hcopy₅.trans (hcopy₄.trans hcopy₁)
  rw [hcopy₁] at hcompletes
  rw [hcopy₄, hcopy₁] at hfails
  rw [hbefore] at hupdated
  have hevent : next = nextEvent w₆.copy row.runId c.eventType row.runId c.agentSessionId c.payload tick :=
    (Except.ok.inj hnext).symm
  rw [hcopy₇] at hinserted
  obtain ⟨-, happends⟩ := (insertEvent_ok_iff (by rw [hevent]; rfl)).1 hinserted
  obtain ⟨hsessions, hevents, hpending⟩ := writeRequests_frame w₈.copy tick.now completion failure
  rw [← hcopy₉, ← hcopy₁₀] at hsessions hevents hpending
  refine commitSessionEvent_ok_iff.2 ⟨row, ⟨hsingle, hpayload, hresult, ?_, ensure_ok_iff.1 hstate, ensure_ok_iff.1 hphase,
    checkCompletion_ok_iff.1 hcompletes, checkFailure_ok_iff.1 hfails⟩, ?_, ?_, ?_, ?_, ?_⟩
  · unfold readSession at hread
    cases hsession : w.copy.session c.agentSessionId with
    | none =>
      rw [hsession] at hread
      cases hread
    | some found =>
      rw [hsession] at hread
      rw [Except.ok.inj hread]
  · rw [hevent, ← hupdated]
    rfl
  · rw [← hdeleted]
    show w₁₀.copy.sessions = _
    rw [hsessions, happends.sessions, ← hupdated]
  · rw [← hdeleted]
    show w₁₀.copy.requests = _
    rw [hcopy₁₀, hcopy₉]
    exact requests_writeRequests (happends.requests.trans (by rw [← hupdated]; rfl)) _ _ _
  · rw [← hdeleted]
    show w₁₀.copy.events.rows = _
    rw [hevents, happends.events, hevent, ← hupdated]
    rfl
  · rw [← hdeleted]
    show (w₁₀.copy.deletePending _).pending = _
    rw [deletePending, hpending, happends.pending, ← hupdated]
    rfl

theorem runStart_cases (requestId targetId : String) (session : NewSession) (acceptingNew : Bool) (eventType : String)
    (payload : Value) (tick : Tick) (faults : List (Option String)) (db : Database) :
    (∃ error, runStart requestId targetId session acceptingNew eventType payload tick faults db = (.error error, db)) ∨
      ∃ decision db', runStart requestId targetId session acceptingNew eventType payload tick faults db =
          (.ok decision, db') ∧
        beginStartRequest requestId targetId session acceptingNew eventType payload tick db = .ok (decision, db') := by
  unfold runStart
  cases hpayload : validatePayload payload with
  | error error => exact Or.inl ⟨error, rfl⟩
  | ok u =>
    rcases immediate_cases (startAdmission requestId targetId session acceptingNew eventType payload tick) faults db with
      ⟨error, herror⟩ | ⟨decision, w, hbody, hdone⟩
    · exact Or.inl ⟨error, herror⟩
    · exact Or.inr ⟨decision, w.copy, hdone, startAdmission_ok hpayload hbody⟩

theorem runLifecycle_cases (c : SessionCommit) (completion : Option (String × Value))
    (failure : Option (String × String)) (tick : Tick) (faults : List (Option String)) (db : Database) :
    (∃ error, runLifecycle c completion failure tick faults db = (.error error, db)) ∨
      ∃ event db', runLifecycle c completion failure tick faults db = (.ok event, db') ∧
        commitSessionEvent c completion failure tick db = .ok (event, db') := by
  unfold runLifecycle
  generalize hchecks : (do
    ensure (!(completion.isSome && failure.isSome))
      "Neko lifecycle transaction cannot both complete and fail a request"
    validatePayload c.payload
    ensure (completion.all fun (_, result) => result.encodedLength ≤ maxEventPayloadBytes)
      resultExceedsLimit : Except String Unit) = checks
  cases checks with
  | error error => exact Or.inl ⟨error, rfl⟩
  | ok u =>
    obtain ⟨hsingle, hchecks⟩ := bind_unit_ok_iff.1 hchecks
    obtain ⟨hpayload, hresult⟩ := bind_unit_ok_iff.1 hchecks
    rw [ensure_ok_iff] at hsingle hresult
    rcases immediate_cases (lifecycle c completion failure tick) faults db with ⟨error, herror⟩ | ⟨event, w, hbody, hdone⟩
    · exact Or.inl ⟨error, herror⟩
    · refine Or.inr ⟨event, w.copy, hdone, lifecycle_ok ?_ hpayload ?_ hbody⟩
      · cases completion <;> cases failure <;> simp at hsingle ⊢
      · rintro r v rfl
        exact of_decide_eq_true hresult

/-! ## What is written -/

structure StartWritten (requestId targetId : String) (session : NewSession) (eventType : String) (payload : Value)
    (tick : Tick) (db : Database) (event : ControlEvent) (db' : Database) : Prop where
  fresh : db.request requestId = none ∧ db.session session.agentSessionId = none
  accepted : db'.request requestId = some (acceptedRequest requestId "session/start" targetId tick.now)
  starting : db'.session session.agentSessionId = some (startingSession session tick.now)
  numbered : event = nextEvent db session.runId eventType session.runId session.agentSessionId payload tick
  events : db'.events.rows = db.events.rows ++ [event]
  pending : db'.pending = db.pending

/-- The session moved along both tables, its event, the request's outcome, no pending fact. -/
structure LifecycleWritten (c : SessionCommit) (completion : Option (String × Value))
    (failure : Option (String × String)) (tick : Tick) (db : Database) (row : SessionRecord) (event : ControlEvent)
    (db' : Database) : Prop where
  before : db.session c.agentSessionId = some row
  state : canTransition row.state c.nextState
  phase : canAdvanceOperation row.operationPhase c.phase
  terminal : row.state.isTerminal → c.nextState = row.state
  moved : db'.session c.agentSessionId = some (committedSession c tick.now row)
  numbered : event = lifecycleEvent c row tick db
  events : db'.events.rows = db.events.rows ++ [event]
  completed : ∀ r v, completion = some (r, v) → ∃ request, db.request r = some request ∧
    (canAdvanceOperation request.phase .completed ∨
      canAdvanceOperation request.phase .committed ∧ canAdvanceOperation .committed .completed) ∧
    db'.request r = some { request with
      phase := .completed, result := some v, errorCode := none, updatedAt := tick.now }
  failed : ∀ r errorCode, failure = some (r, errorCode) → ∃ request, db.request r = some request ∧
    canAdvanceOperation request.phase .failed ∧
    db'.request r = some { request with
      phase := .failed, errorCode := some errorCode, result := none, updatedAt := tick.now }
  pending : db'.retained c.agentSessionId = none

theorem canComplete_moves {phase : OperationPhase} (h : canComplete phase) :
    canAdvanceOperation phase .completed ∨
      canAdvanceOperation phase .committed ∧ canAdvanceOperation .committed .completed := by
  cases phase with
  | sideEffectStarted => exact Or.inr ⟨rfl, rfl⟩
  | committed => exact Or.inl rfl
  | accepted | dispatched | completed | failed | unknownOutcome => cases h

theorem startWritten {requestId targetId eventType : String} {session : NewSession} {payload : Value}
    {event : ControlEvent} {db' : Database}
    (h : Admits requestId targetId session eventType payload tick db event db') :
    StartWritten requestId targetId session eventType payload tick db event db' where
  fresh := ⟨h.fresh_request, h.fresh_session⟩
  accepted := (h.request requestId).trans (if_pos rfl)
  starting := (h.session_eq session.agentSessionId).trans (if_pos rfl)
  numbered := h.event_eq
  events := h.events
  pending := h.pending

theorem lifecycleWritten {c : SessionCommit} {completion : Option (String × Value)} {failure : Option (String × String)}
    {row : SessionRecord} {db' : Database} (hc : Committable c completion failure db row)
    (h : Commits c completion failure tick db row db') :
    LifecycleWritten c completion failure tick db row (lifecycleEvent c row tick db) db' where
  before := hc.session
  state := hc.state
  phase := hc.phase
  terminal hterminal := canTransition_terminal hterminal hc.state
  moved := by rw [h.session, if_pos rfl, hc.session]; rfl
  numbered := rfl
  events := h.events
  completed := by
    rintro r v rfl
    obtain ⟨request, hrequest, hphase⟩ := hc.completes r v rfl
    obtain rfl : failure = none := hc.single.resolve_left (by simp)
    refine ⟨request, hrequest, canComplete_moves hphase, ?_⟩
    rw [Database.request, h.requests]
    exact (request_updateRequest ..).trans (by rw [if_pos rfl, hrequest]; rfl)
  failed := by
    rintro r errorCode rfl
    obtain ⟨request, hrequest, hphase⟩ := hc.fails r errorCode rfl
    obtain rfl : completion = none := hc.single.resolve_right (by simp)
    refine ⟨request, hrequest, hphase, ?_⟩
    rw [Database.request, h.requests]
    exact (request_updateRequest ..).trans (by rw [if_pos rfl, writeCompletion, hrequest]; rfl)
  pending := (h.retained c.agentSessionId).trans (if_pos rfl)

/-- An admission and a lifecycle transaction that answer an error leave the journal as it was, and those that succeed
have written all they are to write. -/
theorem lifecycle_atomic (tick : Tick) (faults : List (Option String)) (db : Database) :
    (∀ requestId targetId session acceptingNew eventType payload,
      let started := runStart requestId targetId session acceptingNew eventType payload tick faults db
      (∃ error, started = (.error error, db)) ∨
        (∃ decision, (∀ event, decision ≠ .execute event) ∧ started = (.ok decision, db)) ∨
        ∃ event db', started = (.ok (.execute event), db') ∧
          StartWritten requestId targetId session eventType payload tick db event db') ∧
      ∀ c completion failure,
        let done := runLifecycle c completion failure tick faults db
        (∃ error, done = (.error error, db)) ∨
          ∃ row event db', done = (.ok event, db') ∧ LifecycleWritten c completion failure tick db row event db' := by
  refine ⟨fun requestId targetId session acceptingNew eventType payload => ?_, fun c completion failure => ?_⟩
  · rcases runStart_cases requestId targetId session acceptingNew eventType payload tick faults db with
      herror | ⟨decision, db', hdone, hbegin⟩
    · exact Or.inl herror
    · rcases beginStartRequest_ok hbegin with ⟨row, -, -, -, rfl, rfl⟩ | ⟨-, rfl, -, rfl⟩ | ⟨event, -, rfl, hadmits⟩
      · exact Or.inr (Or.inl ⟨_, recordedStartDecision_ne_execute row, hdone⟩)
      · exact Or.inr (Or.inl ⟨_, fun _ => by simp, hdone⟩)
      · exact Or.inr (Or.inr ⟨event, db', hdone, startWritten hadmits⟩)
  · rcases runLifecycle_cases c completion failure tick faults db with herror | ⟨event, db', hdone, hcommit⟩
    · exact Or.inl herror
    · obtain ⟨row, hc, rfl, hcommits⟩ := commitSessionEvent_ok_iff.1 hcommit
      exact Or.inr ⟨row, _, db', hdone, lifecycleWritten hc hcommits⟩

/-- A started request is completed in one transaction although the table has no such move. -/
theorem completes_through_committed :
    let tick (id : String) : Tick := ⟨1, id, none⟩
    let db := perform ∅ [
      (.beginStartRequest "r" "s" ⟨"s", "t", "run", "e", "codex", "w"⟩ true "run.state_changed" .null, tick "e1"),
      (.setRequestPhase "r" .dispatched, tick ""), (.setRequestPhase "r" .sideEffectStarted, tick "")]
    let done := runLifecycle ⟨"s", .starting, .accepted, "active", none, none, "run.state_changed", .null⟩
      (some ("r", .null)) none (tick "e2") [] db
    let closed := runStart "r2" "s2" ⟨"s2", "t", "run2", "e", "codex", "w"⟩ false "run.state_changed" .null (tick "e3") [] db
    Reachable db ∧
      (done.1.isOk ∧ (db.request "r").map ControlRequest.phase = some .sideEffectStarted ∧
        (done.2.request "r").map ControlRequest.phase = some .completed ∧
        canAdvanceOperation .sideEffectStarted .completed = false) ∧
      closed.1 = .ok .admissionClosed ∧ closed.2.request "r2" = none ∧ closed.2.events.rows.length = 1 :=
  ⟨reachable_perform _, ⟨rfl, rfl, rfl, rfl⟩, rfl, rfl, rfl⟩

end Wiii.Neko.Journal
