import Wiii.Neko.Journal.Effects

/-!
# Maintenance is safe

The references between the tables hold in every reachable journal (`Reachable.integrity`).  A request that a pending
fact references is not pruned, so the `RESTRICT` action never fires, and a session with a pending fact is not pruned, so
the `CASCADE` action never deletes anything (`startupMaintenance_eq`).
-/

namespace Wiii.Neko

open Journal Database Relation

variable {db db' : Database} {tick : Tick} {terminalNow requestNow : Timestamp}

/-! ## References -/

/-- Every row references rows that exist. -/
structure Integrity (db : Database) : Prop where
  event_session : ∀ event ∈ db.events, ∀ s, event.agentSessionId = some s → (db.session s).isSome
  pending_session : ∀ row ∈ db.pending, (db.session row.agentSessionId).isSome
  pending_request : ∀ row ∈ db.pending, ∀ r, row.requestId = some r → (db.request r).isSome

section Effect

variable {A : ControlRequest → Prop} {W : ControlRequest → ControlRequest → Prop}

theorem Effect.session_isSome (h : Effect A W db db') {s : String} (hs : (db.session s).isSome) :
    (db'.session s).isSome := by
  cases h with
  | addRequest _ _ | setRequests _ | retain _ _ | release _ => exact hs
  | addSession _ insert =>
    rw [Database.session, Table.find?_insert? insert]
    split
    · rfl
    · exact hs
  | addEvent _ _ append => rwa [Database.session, append.sessions]
  | setSession _ =>
    rw [session_updateSession]
    split
    · subst s
      rwa [Option.isSome_map]
    · exact hs

theorem Effect.request_isSome (h : Effect A W db db') {r : String} (hr : (db.request r).isSome) :
    (db'.request r).isSome := by
  cases h with
  | addSession _ _ | setSession _ | retain _ _ | release _ => exact hr
  | addRequest _ insert =>
    rw [Database.request, Table.find?_insert? insert]
    split
    · rfl
    · exact hr
  | addEvent _ _ append => rwa [Database.request, append.requests]
  | setRequests _ =>
    rw [Database.request, Table.find?_updateWhere, Option.isSome_map]
    exact hr

theorem Effect.integrity (h : Effect A W db db') (hi : Integrity db) : Integrity db' := by
  have hs {s : String} := h.session_isSome (s := s)
  have hr {r : String} := h.request_isSome (r := r)
  have he : ∀ event ∈ db'.events, event ∈ db.events ∨
      ∀ s, event.agentSessionId = some s → (db.session s).isSome := by
    intro event hev
    cases h with
    | addEvent _ owner append =>
      rcases append.mem_events.1 hev with hev | rfl
      · exact .inl hev
      · exact .inr owner
    | addRequest _ _ | addSession _ _ | setRequests _ | setSession _ | retain _ _ | release _ =>
      exact .inl hev
  have hp : ∀ row ∈ db'.pending, row ∈ db.pending ∨ (db.session row.agentSessionId).isSome ∧
      ∀ r, row.requestId = some r → (db.request r).isSome := by
    intro row hrow
    cases h with
    | retain session request =>
      rcases Table.mem_upsert.1 hrow with rfl | ⟨hrow, -⟩
      · exact .inr ⟨session, request⟩
      · exact .inl hrow
    | release s => exact .inl (mem_pending_deletePending db s |>.1 hrow).1
    | addEvent _ _ append => exact .inl (append.pending ▸ hrow)
    | addRequest _ _ | addSession _ _ | setRequests _ | setSession _ => exact .inl hrow
  constructor
  · intro event hev s hes
    rcases he event hev with hev | hnew
    · exact hs (hi.event_session event hev s hes)
    · exact hs (hnew s hes)
  · intro row hrow
    rcases hp row hrow with hrow | ⟨hnew, -⟩
    · exact hs (hi.pending_session row hrow)
    · exact hs hnew
  · intro row hrow r hrr
    rcases hp row hrow with hrow | ⟨-, hnew⟩
    · exact hr (hi.pending_request row hrow r hrr)
    · exact hr (hnew r hrr)

end Effect

/-! ## The maintenance transaction -/

/-- A session row that the transaction deletes. -/
def prunedSession (terminalNow : Timestamp) (db : Database) (s : String) : Bool :=
  (db.session s).any
    (prunesSession db (terminalNow - days terminalRecordRetentionDays))

def maintained (terminalNow requestNow : Timestamp) (tick : Tick) (db : Database) : Database where
  sessions := db.sessions.deleteWhere
    (prunesSession db (terminalNow - days terminalRecordRetentionDays))
  requests := db.requests.deleteWhere
    (prunesRequest db (requestNow - days terminalRequestRetentionDays))
  events := (db.events.deleteWhere
    (prunesEvent db (tick.now - days eventRetentionDays))).updateWhere
      (fun event => event.agentSessionId.any (prunedSession terminalNow db))
      ControlEvent.detached ControlEvent.position_detached
  pending := db.pending

theorem startupMaintenance_eq (terminalNow requestNow : Timestamp) (tick : Tick) (db : Database) :
    startupMaintenance terminalNow requestNow tick db =
      .ok ((), maintained terminalNow requestNow tick db) := by
  let db₁ : Database :=
    { db with events := db.events.deleteWhere (prunesEvent db (tick.now - days eventRetentionDays)) }
  have hfree : (db₁.pending.rows.any fun row => row.requestId.any fun id => (db₁.request id).any
      (prunesRequest db₁ (requestNow - days terminalRequestRetentionDays))) = false := by
    rw [List.any_eq_false]
    intro row hrow
    cases hr : row.requestId with
    | none => simp
    | some id =>
      cases hq : db₁.request id with
      | none => simp [hq]
      | some q =>
        have hlinked : db₁.linked q.requestId :=
          linked_iff.2 ⟨row, hrow, by rw [hr, Table.key_of_find? hq]⟩
        simp [hq, prunesRequest, hlinked]
  have hpending : (db.pending.deleteWhere fun row =>
      prunedSession terminalNow db row.agentSessionId) = db.pending := by
    refine Table.deleteWhere_eq_self fun row hrow => ?_
    have hret : db.retained row.agentSessionId = some row := Table.find?_of_mem hrow
    unfold prunedSession
    cases hs : db.session row.agentSessionId with
    | none => rfl
    | some q =>
      have hq : q.agentSessionId = row.agentSessionId := Table.key_of_find? hs
      simp [prunesSession, hq, hret]
  unfold startupMaintenance
  change (db₁.deleteRequestsWhere _ >>= _) = _
  unfold deleteRequestsWhere
  rw [hfree]
  simp only [Bool.false_eq_true, if_false, bind, Except.bind, pure, Except.pure]
  exact congrArg (fun pending => Except.ok ((),
    { maintained terminalNow requestNow tick db with pending })) hpending

theorem request_maintained (r : String) :
    (maintained terminalNow requestNow tick db).request r = (db.request r).filter fun row =>
      !prunesRequest db (requestNow - days terminalRequestRetentionDays) row :=
  Table.find?_deleteWhere _ _ _

theorem session_maintained (s : String) :
    (maintained terminalNow requestNow tick db).session s = (db.session s).filter fun row =>
      !prunesSession db (terminalNow - days terminalRecordRetentionDays) row :=
  Table.find?_deleteWhere _ _ _

theorem mem_events_maintained {event : ControlEvent} :
    event ∈ (maintained terminalNow requestNow tick db).events ↔
      ∃ e ∈ db.events, prunesEvent db (tick.now - days eventRetentionDays) e = false ∧
        (if e.agentSessionId.any (prunedSession terminalNow db) then e.detached else e) =
          event := by
  unfold maintained
  refine (Table.mem_updateWhere ControlEvent.position_detached).trans (exists_congr fun e => ?_)
  rw [Table.mem_deleteWhere, and_assoc]

theorem maintained_integrity (hi : Integrity db) :
    Integrity (maintained terminalNow requestNow tick db) := by
  have hs {s : String} (h : (db.session s).isSome) (hp : prunedSession terminalNow db s = false) :
      ((maintained terminalNow requestNow tick db).session s).isSome := by
    obtain ⟨row, hrow⟩ := Option.isSome_iff_exists.1 h
    simp only [prunedSession, hrow, Option.any_some] at hp
    rw [session_maintained, hrow, Option.filter_some, hp]
    rfl
  constructor
  · intro event hev s hes
    obtain ⟨e, he, -, rfl⟩ := mem_events_maintained.1 hev
    by_cases hg : e.agentSessionId.any (prunedSession terminalNow db) = true
    · simp [hg, ControlEvent.detached] at hes
    · simp only [hg, Bool.false_eq_true, if_false] at hes
      refine hs (hi.event_session e he s hes) ?_
      simpa [hes] using hg
  · intro row hrow
    refine hs (hi.pending_session row hrow) ?_
    have hret : db.retained row.agentSessionId = some row := Table.find?_of_mem hrow
    unfold prunedSession
    cases hq : db.session row.agentSessionId with
    | none => rfl
    | some q =>
      have hk : q.agentSessionId = row.agentSessionId := Table.key_of_find? hq
      simp [prunesSession, hk, hret]
  · intro row hrow r hr
    obtain ⟨q, hq⟩ := Option.isSome_iff_exists.1 (hi.pending_request row hrow r hr)
    have hlinked : db.linked q.requestId :=
      linked_iff.2 ⟨row, hrow, by rw [hr, Table.key_of_find? hq]⟩
    rw [request_maintained, hq, Option.filter_some]
    simp [prunesRequest, hlinked]

/-! ## Reachable journals -/

theorem Step.integrity {call : Call} (h : Step db call db') (hi : Integrity db) : Integrity db' :=
  Step.invariant (fun _ _ hi he => he.integrity hi)
    (fun t r tick db db' hi hm => by
      rw [startupMaintenance_eq] at hm
      obtain rfl : maintained t r tick db = db' := by simpa using hm
      exact maintained_integrity hi) hi h

theorem Reachable.integrity (h : Reachable db) : Integrity db :=
  h.invariant ⟨by simp, by simp, by simp⟩ fun _ _ _ hi hs => hs.integrity hi

/-- Maintenance commits in every reachable journal; it deletes nothing that is open, unknown or referenced, and leaves
no row without its references. -/
theorem startupMaintenance_safe (h : Reachable db) (terminalNow requestNow : Timestamp)
    (tick : Tick) :
    ∃ db', startupMaintenance terminalNow requestNow tick db = .ok ((), db') ∧
      (∀ s row, db.session s = some row →
        row.state.isTerminal = false ∨ row.state = .unknownOutcome ∨ (db.retained s).isSome →
          db'.session s = some row) ∧
      (∀ r row, db.request r = some row →
        row.phase.isTerminal = false ∨ row.phase = .unknownOutcome ∨ db.linked r →
          db'.request r = some row) ∧
      Integrity db' := by
  refine ⟨_, startupMaintenance_eq terminalNow requestNow tick db, ?_, ?_,
    maintained_integrity h.integrity⟩
  · intro s row hrow hkeep
    have hk : row.agentSessionId = s := Table.key_of_find? hrow
    have hp : prunesSession db (terminalNow - days terminalRecordRetentionDays) row = false := by
      rcases hkeep with hs | hs | hs
      · cases hst : row.state <;> simp [RunState.isTerminal, prunesSession, hst] at hs ⊢
      · simp [prunesSession, hs]
      · obtain ⟨f, hf⟩ := Option.isSome_iff_exists.1 hs
        simp [prunesSession, hk, hf]
    rw [session_maintained, hrow, Option.filter_some, hp]
    rfl
  · intro r row hrow hkeep
    have hk : row.requestId = r := Table.key_of_find? hrow
    have hp : prunesRequest db (requestNow - days terminalRequestRetentionDays) row = false := by
      rcases hkeep with hs | hs | hs
      · cases hst : row.phase <;> simp [OperationPhase.isTerminal, prunesRequest, hst] at hs ⊢
      · simp [prunesRequest, hs]
      · simp [prunesRequest, hk, hs]
    rw [request_maintained, hrow, Option.filter_some, hp]
    rfl

/-- A year later, maintenance keeps a request that was never closed. -/
theorem startupMaintenance_safe_open :
    let db := perform ∅ [(.beginRequest "r" "session/write" "t", ⟨0, "", none⟩)]
    ∃ db', startupMaintenance (days 365) (days 365) ⟨days 365, "", none⟩ db = .ok ((), db') ∧
      db'.request "r" = db.request "r" := by
  intro db
  obtain ⟨db', hm, -, hkept, -⟩ := startupMaintenance_safe
    (reachable_perform [(.beginRequest "r" "session/write" "t", ⟨0, "", none⟩)])
    (days 365) (days 365) ⟨days 365, "", none⟩
  exact ⟨db', hm, hkept "r" _ rfl (.inl rfl)⟩

end Wiii.Neko
