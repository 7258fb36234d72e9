import Wiii.Neko.Journal.Steps

/-!
# What one step can do

Apart from maintenance, a step is a sequence of a few kinds of effect (`Step.effects`).  The request rows an operation
may add and the writes it may make on them are spelled out once, in `Op.Adds` and `Op.Writes`; all writes respect the
advance order of the phases (`Op.Writes.advances`).
-/

namespace Wiii.Neko

open Journal Database Relation

/-- A request row is written without losing its identity, and its phase advances. -/
structure Advances (old new : ControlRequest) : Prop where
  requestId : new.requestId = old.requestId
  method : new.method = old.method
  targetId : new.targetId = old.targetId
  phase : canAdvanceOperation old.phase new.phase ∨
    old.phase = .sideEffectStarted ∧ new.phase = .completed

/-- The writes that an operation may make on a request row. -/
def Op.Writes (op : Op) (now : Timestamp) (old new : ControlRequest) : Prop :=
  match op with
  | setRequestPhase r next =>
    old.requestId = r ∧ canAdvanceOperation old.phase next ∧
      new = { old with phase := next, updatedAt := now }
  | completeRequest r result =>
    old.requestId = r ∧ canAdvanceOperation old.phase .completed ∧
      new = { old with
        phase := .completed, result := some result, errorCode := none, updatedAt := now }
  | failRequest r errorCode | failRequestWithSessionEvent _ r errorCode =>
    old.requestId = r ∧ canAdvanceOperation old.phase .failed ∧
      new = { old with
        phase := .failed, errorCode := some errorCode, result := none, updatedAt := now }
  | markRequestUnknown r =>
    old.requestId = r ∧ canAdvanceOperation old.phase .unknownOutcome ∧
      new = { old with
        phase := .unknownOutcome, errorCode := some "unknown_outcome", result := none
        updatedAt := now }
  | reconcileTerminalRequest _ r result | completeRequestWithSessionEvent _ r result =>
    old.requestId = r ∧ (old.phase = .sideEffectStarted ∨ old.phase = .committed) ∧
      new = { old with
        phase := .completed, result := some result, errorCode := none, updatedAt := now }
  | reconcileTerminalRequestFailure _ r errorCode =>
    old.requestId = r ∧ (old.phase = .sideEffectStarted ∨ old.phase = .committed) ∧
      new = { old with
        phase := .failed, errorCode := some errorCode, result := none, updatedAt := now }
  | recoverSafeRequests =>
    (old.phase = .accepted ∨ old.phase = .dispatched) ∧
      new = { old with
        phase := .failed, errorCode := some "continuity_lost", updatedAt := now }
  | recoverUncertainRequests =>
    (old.phase = .sideEffectStarted ∨ old.phase = .committed) ∧
      new = { old with
        phase := .unknownOutcome, errorCode := some "unknown_outcome", updatedAt := now }
  | beginRequest .. | beginStartRequest .. | retainTerminalFact .. | removeTerminalFact ..
  | setSessionPhase .. | updateSessionWithEvent .. | appendEvent .. | startupMaintenance .. => False

theorem Op.Writes.advances {op : Op} {now : Timestamp} {old new : ControlRequest}
    (h : op.Writes now old new) : Advances old new := by
  have started {p : OperationPhase} (hp : p = .sideEffectStarted ∨ p = .committed) :
      canAdvanceOperation p .completed ∨ p = .sideEffectStarted ∧
        OperationPhase.completed = .completed := by
    rcases hp with rfl | rfl <;> decide
  cases op <;> simp only [Op.Writes] at h
  case setRequestPhase | completeRequest | failRequest | markRequestUnknown |
      failRequestWithSessionEvent =>
    obtain ⟨-, hp, rfl⟩ := h
    exact ⟨rfl, rfl, rfl, .inl hp⟩
  case reconcileTerminalRequest | completeRequestWithSessionEvent =>
    obtain ⟨-, hp, rfl⟩ := h
    exact ⟨rfl, rfl, rfl, started hp⟩
  case reconcileTerminalRequestFailure =>
    obtain ⟨-, hp | hp, rfl⟩ := h <;> exact ⟨rfl, rfl, rfl, .inl (by rw [hp]; rfl)⟩
  case recoverSafeRequests | recoverUncertainRequests =>
    obtain ⟨hp | hp, rfl⟩ := h <;> exact ⟨rfl, rfl, rfl, .inl (by rw [hp]; rfl)⟩

def Op.Adds (op : Op) (now : Timestamp) (row : ControlRequest) : Prop :=
  match op with
  | beginRequest r method target => row = acceptedRequest r method target now
  | beginStartRequest r target .. => row = acceptedRequest r "session/start" target now
  | _ => False

structure Accepted (row : ControlRequest) : Prop where
  phase : row.phase = .accepted
  result : row.result = none
  errorCode : row.errorCode = none

theorem Op.Adds.accepted {op : Op} {now : Timestamp} {row : ControlRequest}
    (h : op.Adds now row) : Accepted row := by
  cases op <;> simp only [Op.Adds] at h <;> subst h <;> exact ⟨rfl, rfl, rfl⟩

/-- The effects of a transaction other than maintenance, with the rows `A` it may add and the writes `W` it may make. -/
inductive Effect (A : ControlRequest → Prop) (W : ControlRequest → ControlRequest → Prop) :
    Database → Database → Prop
  | addRequest {db : Database} {row : ControlRequest} {requests : Table ControlRequest.requestId}
      (adds : A row) (insert : db.requests.insert? row = some requests) :
      Effect A W db { db with requests }
  | addSession {db : Database} {row : SessionRecord} {sessions : Table SessionRecord.agentSessionId}
      (starting : row.state = .starting)
      (insert : db.sessions.insert? row = some sessions) : Effect A W db { db with sessions }
  | addEvent {db db' : Database} {event : ControlEvent}
      (seq : event.seq = db.latestSeq event.streamId + 1)
      (owner : ∀ s, event.agentSessionId = some s → (db.session s).isSome)
      (append : Appends db event db') : Effect A W db db'
  | setRequests {db : Database} {p : ControlRequest → Bool} {f : ControlRequest → ControlRequest}
      {hf : ∀ r, (f r).requestId = r.requestId}
      (writes : ∀ row ∈ db.requests, p row → W row (f row)) :
      Effect A W db { db with requests := db.requests.updateWhere p f hf }
  | setSession {db : Database} {s : String} {f : SessionRecord → SessionRecord}
      {hf : ∀ r, (f r).agentSessionId = r.agentSessionId}
      (state : ∀ row, db.session s = some row → canTransition row.state (f row).state) :
      Effect A W db (db.updateSession s f hf)
  | retain {db : Database} {row : RetainedFact} (session : (db.session row.agentSessionId).isSome)
      (request : ∀ r, row.requestId = some r → (db.request r).isSome) :
      Effect A W db { db with pending := db.pending.upsert row }
  | release {db : Database} (s : String) : Effect A W db (db.deletePending s)

variable {db db' : Database} {tick : Tick} {A : ControlRequest → Prop}
  {W : ControlRequest → ControlRequest → Prop}

theorem Effect.setRequest {r : String} {row : ControlRequest} {f : ControlRequest → ControlRequest}
    {hf : ∀ q, (f q).requestId = q.requestId} (hr : db.request r = some row)
    (hw : W row (f row)) : Effect A W db (db.updateRequest r f hf) := by
  refine Effect.setRequests (p := fun q => decide (q.requestId = r)) fun q hq hk => ?_
  have hq' := Table.find?_of_mem hq
  rw [of_decide_eq_true hk] at hq'
  obtain rfl : q = row := Option.some.inj (hq'.symm.trans hr)
  exact hw

theorem commit_effects {c : SessionCommit} {completion : Option (String × Value)}
    {failure : Option (String × String)} {event : ControlEvent}
    (hdone : ∀ r v, completion = some (r, v) → ∀ row, db.request r = some row →
      canComplete row.phase → W row { row with
        phase := .completed, result := some v, errorCode := none, updatedAt := tick.now })
    (hfail : ∀ r e, failure = some (r, e) → ∀ row, db.request r = some row →
      canAdvanceOperation row.phase .failed → W row { row with
        phase := .failed, errorCode := some e, result := none, updatedAt := tick.now })
    (h : commitSessionEvent c completion failure tick db = .ok (event, db')) :
    ReflTransGen (Effect A W) db db' := by
  obtain ⟨row, hc, rfl, hcom⟩ := commitSessionEvent_ok_iff.1 h
  -- the transaction, statement by statement
  let db₁ := db.updateSession c.agentSessionId (committedSession c tick.now)
    (agentSessionId_committedSession c tick.now)
  let db₂ : Database := { db₁ with events := db'.events }
  have e₁ : Effect A W db db₁ := by
    refine Effect.setSession fun row' hrow' => ?_
    obtain rfl : row' = row := Option.some.inj (hrow'.symm.trans hc.session)
    exact hc.state
  have e₂ : Effect A W db₁ db₂ := by
    have happ : Appends db₁ (lifecycleEvent c row tick db) db₂ := ⟨hcom.events, rfl, rfl, rfl⟩
    refine .addEvent rfl ?_ happ
    rintro s ⟨⟩
    rw [session_updateSession, if_pos rfl, hc.session]
    rfl
  have e₃ : ReflTransGen (Effect A W) db₂
      (writeFailure (writeCompletion db₂ tick.now completion) tick.now failure) := by
    rcases hc.single with rfl | rfl
    · cases failure with
      | none => exact .refl
      | some re =>
        obtain ⟨q, hq, hp⟩ := hc.fails _ _ rfl
        exact .single (Effect.setRequest hq (hfail _ _ rfl q hq hp))
    · cases completion with
      | none => exact .refl
      | some rv =>
        obtain ⟨q, hq, hp⟩ := hc.completes _ _ rfl
        exact .single (Effect.setRequest hq (hdone _ _ rfl q hq hp))
  have hlast : (writeFailure (writeCompletion db₂ tick.now completion) tick.now
      failure).deletePending c.agentSessionId = db' := by
    obtain ⟨fs, fe, fp⟩ := writeRequests_frame db₂ tick.now completion failure
    refine Commits.unique ⟨fs, ?_, ?_, ?_⟩ hcom
    · have hr : db₂.requests = db.requests := rfl
      exact requests_writeRequests hr _ _ _
    · rw [events_deletePending, fe]
      exact hcom.events
    · rw [deletePending, fp]
      rfl
  rw [← hlast]
  exact ((ReflTransGen.single e₁).tail e₂).trans (e₃.tail (.release c.agentSessionId))

theorem advance_effects {r : String} {next : OperationPhase}
    {write : ControlRequest → ControlRequest} {hw : ∀ q, (write q).requestId = q.requestId}
    {u : Unit}
    (hW : ∀ row, db.request r = some row → canAdvanceOperation row.phase next →
      W row { write row with phase := next, updatedAt := tick.now })
    (h : advanceRequest r next write tick db hw = .ok (u, db')) :
    ReflTransGen (Effect A W) db db' := by
  obtain ⟨row, hr, hp, rfl⟩ := advanceRequest_ok_iff.1 h
  exact .single (Effect.setRequest hr (hW row hr hp))

theorem reconcile_effects {s r reading refused : String} {settled : ControlRequest → Bool}
    {write : ControlRequest → ControlRequest} {hw : ∀ q, (write q).requestId = q.requestId}
    {u : Unit}
    (hW : ∀ row, db.request r = some row →
      (row.phase = .sideEffectStarted ∨ row.phase = .committed) →
      W row { write row with updatedAt := tick.now })
    (h : reconcileRequest s r reading refused settled write tick db hw = .ok (u, db')) :
    ReflTransGen (Effect A W) db db' := by
  obtain ⟨row, hr, ⟨hp, rfl⟩ | ⟨-, -, rfl⟩⟩ := reconcileRequest_ok_iff.1 h
  · exact (ReflTransGen.single (Effect.setRequest hr (hW row hr hp))).tail (.release s)
  · exact .single (.release s)

theorem close_effects {open_ : OperationPhase → Bool} {phase : OperationPhase} {errorCode : String}
    {u : Unit}
    (hW : ∀ row, open_ row.phase →
      W row { row with phase, errorCode := some errorCode, updatedAt := tick.now })
    (h : closeRequests open_ phase errorCode tick db = .ok (u, db')) :
    ReflTransGen (Effect A W) db db' := by
  simp only [closeRequests, Except.ok.injEq, Prod.mk.injEq, true_and] at h
  subst h
  unfold closed
  refine .single (Effect.setRequests fun row _ hp => hW row ?_)
  exact (Bool.and_eq_true_iff.1 hp).1

theorem Op.apply_effects {op : Op} {answer : Answer} (h : op.apply tick db = .ok (answer, db')) :
    ReflTransGen (Effect (op.Adds tick.now) (op.Writes tick.now)) db db' ∨
      ∃ terminalNow requestNow, op = .startupMaintenance terminalNow requestNow ∧
        Journal.startupMaintenance terminalNow requestNow tick db = .ok ((), db') := by
  have key {r : String} {row : ControlRequest} (hr : db.request r = some row) : row.requestId = r :=
    Table.key_of_find? hr
  have completable {p : OperationPhase} (hp : canComplete p) :
      p = .sideEffectStarted ∨ p = .committed := by
    cases p <;> simp [canComplete] at hp ⊢
  cases op <;> simp only [Op.apply, map_ok_iff, Prod.mk.injEq] at h <;>
    obtain ⟨⟨x, d⟩, h, -, rfl⟩ := h
  case beginRequest =>
    rcases beginRequest_ok_iff.1 h with ⟨_, _, _, _, _, rfl⟩ | ⟨_, _, hi⟩
    · exact .inl .refl
    · obtain ⟨_, hins, rfl⟩ := insertRequest_ok_iff.1 hi
      exact .inl (.single (.addRequest rfl hins))
  case beginStartRequest =>
    rcases beginStartRequest_ok h with ⟨_, _, _, _, _, rfl⟩ | ⟨_, _, _, rfl⟩ | ⟨event, -, -, ha⟩
    · exact .inl .refl
    · exact .inl .refl
    · refine .inl ?_
      have happ : Appends { db with requests := d.requests, sessions := d.sessions } event d :=
        ⟨ha.events, rfl, rfl, ha.pending⟩
      refine ((ReflTransGen.single (.addRequest rfl ha.requests)).tail
        (.addSession rfl ha.sessions)).tail (.addEvent ?_ ?_ happ)
      · rw [ha.event_eq]
        rfl
      · rw [ha.event_eq]
        rintro s ⟨⟩
        exact Option.isSome_iff_exists.2 ⟨_, (ha.session_eq _).trans (if_pos rfl)⟩
  case setRequestPhase => exact .inl (advance_effects (fun row hr hp => ⟨key hr, hp, rfl⟩) h)
  case completeRequest =>
    obtain ⟨-, row, hr, hp, rfl⟩ := completeRequest_ok_iff.1 h
    exact .inl (.single (Effect.setRequest hr ⟨key hr, hp, rfl⟩))
  case failRequest => exact .inl (advance_effects (fun row hr hp => ⟨key hr, hp, rfl⟩) h)
  case markRequestUnknown => exact .inl (advance_effects (fun row hr hp => ⟨key hr, hp, rfl⟩) h)
  case retainTerminalFact =>
    obtain ⟨-, hs, hr, rfl⟩ := retainTerminalFact_ok_iff.1 h
    exact .inl (.single (.retain hs hr))
  case removeTerminalFact =>
    simp only [Journal.removeTerminalFact, Except.ok.injEq, Prod.mk.injEq, true_and] at h
    subst h
    exact .inl (.single (.release _))
  case reconcileTerminalRequest =>
    unfold Journal.reconcileTerminalRequest at h
    split at h
    · cases h
    · exact .inl (reconcile_effects (fun row hr hp => ⟨key hr, hp, rfl⟩) h)
  case reconcileTerminalRequestFailure =>
    exact .inl (reconcile_effects (fun row hr hp => ⟨key hr, hp, rfl⟩) h)
  case setSessionPhase =>
    obtain ⟨row, hr, hp, rfl⟩ := setSessionPhase_ok_iff.1 h
    exact .inl (.single (.setSession fun row _ => by simp [canTransition]))
  case updateSessionWithEvent => exact .inl (commit_effects (by rintro _ _ ⟨⟩) (by rintro _ _ ⟨⟩) h)
  case completeRequestWithSessionEvent =>
    refine .inl (commit_effects ?_ (by rintro _ _ ⟨⟩) h)
    rintro r v ⟨⟩ row hr hp
    exact ⟨key hr, completable hp, rfl⟩
  case failRequestWithSessionEvent =>
    refine .inl (commit_effects (by rintro _ _ ⟨⟩) ?_ h)
    rintro r v ⟨⟩ row hr hp
    exact ⟨key hr, hp, rfl⟩
  case appendEvent =>
    obtain ⟨-, hs, rfl, happ⟩ := appendEvent_ok_iff.1 h
    exact .inl (.single (.addEvent rfl hs happ))
  case recoverSafeRequests =>
    exact .inl (close_effects (fun row hp => ⟨by simpa using hp, rfl⟩) h)
  case recoverUncertainRequests =>
    exact .inl (close_effects (fun row hp => ⟨by simpa using hp, rfl⟩) h)
  case startupMaintenance terminalNow requestNow => exact .inr ⟨terminalNow, requestNow, rfl, h⟩

/-- What a step can do: nothing, a sequence of effects, or maintenance. -/
theorem Step.effects {call : Call} (h : Step db call db') :
    ReflTransGen (Effect (call.op.Adds call.tick.now) (call.op.Writes call.tick.now)) db db' ∨
      ∃ terminalNow requestNow, call.op = .startupMaintenance terminalNow requestNow ∧
        Journal.startupMaintenance terminalNow requestNow call.tick db = .ok ((), db') := by
  rcases h.cases with ⟨rfl, -⟩ | ⟨answer, -, ha⟩
  · exact .inl .refl
  · exact Op.apply_effects ha

/-! ## What becomes of one request -/

theorem Effect.request (h : Effect A W db db') (r : String) :
    db'.request r = db.request r ∨
      (∃ row row', db.request r = some row ∧ db'.request r = some row' ∧ W row row') ∨
        ∃ row, db.request r = none ∧ db'.request r = some row ∧ A row := by
  cases h with
  | addSession _ _ | setSession _ | retain _ _ | release _ => exact .inl rfl
  | addEvent _ _ append => exact .inl (by rw [Database.request, append.requests]; rfl)
  | @addRequest row _ adds insert =>
    have hfind := Table.find?_insert? insert r
    by_cases hk : r = row.requestId
    · rw [if_pos hk] at hfind
      subst hk
      exact .inr (.inr ⟨row, (Table.insert?_eq_some_iff.1 insert).1, hfind, adds⟩)
    · rw [if_neg hk] at hfind
      exact .inl hfind
  | @setRequests p f hf writes =>
    have hfind := Table.find?_updateWhere db.requests p f hf r
    cases hr : db.request r with
    | none =>
      rw [Database.request] at hr
      rw [hr] at hfind
      exact .inl hfind
    | some row =>
      have hrow := hr
      rw [Database.request] at hr
      rw [hr, Option.map_some] at hfind
      by_cases hp : p row = true
      · rw [if_pos hp] at hfind
        exact .inr (.inl ⟨row, f row, rfl, hfind, writes row (Table.mem_of_find? hr) hp⟩)
      · rw [if_neg hp] at hfind
        exact .inl hfind

/-- A recorded request stays recorded through effects, and its row changes by writes only. -/
theorem effects_request_some (h : ReflTransGen (Effect A W) db db') {r : String}
    {row : ControlRequest} (hr : db.request r = some row) :
    ∃ row', db'.request r = some row' ∧ ReflTransGen W row row' := by
  induction h with
  | refl => exact ⟨row, hr, .refl⟩
  | tail _ hstep ih =>
    obtain ⟨mid, hmid, hw⟩ := ih
    rcases hstep.request r with he | ⟨a, b, ha, hb, hab⟩ | ⟨_, hn, -, -⟩
    · exact ⟨mid, he.trans hmid, hw⟩
    · obtain rfl : a = mid := Option.some.inj (ha.symm.trans hmid)
      exact ⟨b, hb, hw.tail hab⟩
    · rw [hmid] at hn
      cases hn

/-- A request that appears through effects was added, then written. -/
theorem effects_request_none (h : ReflTransGen (Effect A W) db db') {r : String}
    (hr : db.request r = none) :
    db'.request r = none ∨
      ∃ row row', A row ∧ row.requestId = r ∧ db'.request r = some row' ∧
        ReflTransGen W row row' := by
  induction h with
  | refl => exact .inl hr
  | tail _ hstep ih =>
    rcases ih with hn | ⟨row, mid, hA, hk, hmid, hw⟩
    · rcases hstep.request r with he | ⟨a, -, ha, -, -⟩ | ⟨row, -, hrow, hA⟩
      · exact .inl (he.trans hn)
      · rw [hn] at ha
        cases ha
      · exact .inr ⟨row, row, hA, Table.key_of_find? hrow, hrow, .refl⟩
    · obtain ⟨row', hrow', hw'⟩ := effects_request_some (.single hstep) hmid
      exact .inr ⟨row, row', hA, hk, hrow', hw.trans hw'⟩

/-- An invariant of the effects and of maintenance is an invariant of the journal. -/
theorem Step.invariant {I : Database → Prop}
    (effect : ∀ db db', I db → Effect Accepted Advances db db' → I db')
    (maintenance : ∀ terminalNow requestNow tick db db', I db →
      Journal.startupMaintenance terminalNow requestNow tick db = .ok ((), db') → I db')
    {call : Call} (hi : I db) (h : Step db call db') : I db' := by
  rcases h.effects with he | ⟨terminalNow, requestNow, -, hm⟩
  · refine ReflTransGen.head_induction_on he id ?_ hi
    intro a c hac _ ih ha
    refine ih (effect a c ha ?_)
    cases hac with
    | addRequest h₁ h₂ => exact .addRequest h₁.accepted h₂
    | addSession h₁ h₂ => exact .addSession h₁ h₂
    | addEvent h₁ h₂ h₃ => exact .addEvent h₁ h₂ h₃
    | setRequests h₁ => exact .setRequests fun row hr hp => (h₁ row hr hp).advances
    | setSession h₁ => exact .setSession h₁
    | retain h₁ h₂ => exact .retain h₁ h₂
    | release s => exact .release s
  · exact maintenance _ _ _ _ _ hi hm

end Wiii.Neko
