import Wiii.Neko.Journal.Schema

/-!
# What the statements do

For each statement, what the later reads of the database return.  An event inserted at the next
sequence number of its stream always meets the unique index, so its insert is refused only by the
foreign key (`insertEvent_ok_iff`).
-/

namespace Wiii.Neko.Database

variable {db db' : Database}

/-! ## The empty journal -/

@[simp] theorem session_empty (s : String) : (∅ : Database).session s = none := rfl

@[simp] theorem request_empty (r : String) : (∅ : Database).request r = none := rfl

@[simp] theorem retained_empty (s : String) : (∅ : Database).retained s = none := rfl

@[simp] theorem sessions_empty : (∅ : Database).sessions = ∅ := rfl

@[simp] theorem requests_empty : (∅ : Database).requests = ∅ := rfl

@[simp] theorem events_empty : (∅ : Database).events = ∅ := rfl

@[simp] theorem pending_empty : (∅ : Database).pending = ∅ := rfl

/-! ## Updates -/

section updateSession

variable (db : Database) (s : String) (f : SessionRecord → SessionRecord)
  (hf : ∀ r, (f r).agentSessionId = r.agentSessionId)

theorem session_updateSession (s' : String) :
    (db.updateSession s f hf).session s' =
      if s' = s then (db.session s).map f else db.session s' :=
  Table.find?_update _ _ _ hf _

@[simp] theorem request_updateSession (r : String) :
    (db.updateSession s f hf).request r = db.request r := rfl

@[simp] theorem retained_updateSession (s' : String) :
    (db.updateSession s f hf).retained s' = db.retained s' := rfl

@[simp] theorem requests_updateSession : (db.updateSession s f hf).requests = db.requests := rfl

@[simp] theorem events_updateSession : (db.updateSession s f hf).events = db.events := rfl

@[simp] theorem pending_updateSession : (db.updateSession s f hf).pending = db.pending := rfl

end updateSession

section updateRequest

variable (db : Database) (r : String) (f : ControlRequest → ControlRequest)
  (hf : ∀ q, (f q).requestId = q.requestId)

theorem request_updateRequest (r' : String) :
    (db.updateRequest r f hf).request r' =
      if r' = r then (db.request r).map f else db.request r' :=
  Table.find?_update _ _ _ hf _

@[simp] theorem session_updateRequest (s : String) :
    (db.updateRequest r f hf).session s = db.session s := rfl

@[simp] theorem retained_updateRequest (s : String) :
    (db.updateRequest r f hf).retained s = db.retained s := rfl

@[simp] theorem sessions_updateRequest : (db.updateRequest r f hf).sessions = db.sessions := rfl

@[simp] theorem events_updateRequest : (db.updateRequest r f hf).events = db.events := rfl

@[simp] theorem pending_updateRequest : (db.updateRequest r f hf).pending = db.pending := rfl

end updateRequest

section deletePending

variable (db : Database) (s : String)

theorem retained_deletePending (s' : String) :
    (db.deletePending s).retained s' = if s' = s then none else db.retained s' :=
  Table.find?_delete _ _ _

@[simp] theorem session_deletePending (s' : String) :
    (db.deletePending s).session s' = db.session s' := rfl

@[simp] theorem request_deletePending (r : String) :
    (db.deletePending s).request r = db.request r := rfl

@[simp] theorem sessions_deletePending : (db.deletePending s).sessions = db.sessions := rfl

@[simp] theorem requests_deletePending : (db.deletePending s).requests = db.requests := rfl

@[simp] theorem events_deletePending : (db.deletePending s).events = db.events := rfl

theorem mem_pending_deletePending {row : RetainedFact} :
    row ∈ (db.deletePending s).pending ↔ row ∈ db.pending ∧ row.agentSessionId ≠ s := by
  simp [deletePending, Table.delete]

end deletePending

/-! ## Inserts -/

theorem insertSession_ok_iff {row : SessionRecord} :
    db.insertSession row = .ok db' ↔
      ∃ sessions, db.sessions.insert? row = some sessions ∧ db' = { db with sessions } := by
  unfold insertSession
  cases db.sessions.insert? row with
  | none => simp
  | some sessions => simp [eq_comm]

theorem insertRequest_ok_iff {row : ControlRequest} :
    db.insertRequest row = .ok db' ↔
      ∃ requests, db.requests.insert? row = some requests ∧ db' = { db with requests } := by
  unfold insertRequest
  cases db.requests.insert? row with
  | none => simp
  | some requests => simp [eq_comm]

theorem upsertPending_ok_iff {row : RetainedFact} :
    db.upsertPending row = .ok db' ↔
      (db.session row.agentSessionId).isSome ∧
        (∀ r, row.requestId = some r → (db.request r).isSome) ∧
          db' = { db with pending := db.pending.upsert row } := by
  unfold upsertPending
  cases hs : db.session row.agentSessionId with
  | none => simp
  | some _ =>
    cases hr : row.requestId with
    | none => simpa using eq_comm
    | some r =>
      cases h : db.request r with
      | none => simp [h]
      | some _ => simpa [h] using eq_comm

theorem linked_iff {r : String} : db.linked r ↔ ∃ row ∈ db.pending, row.requestId = some r := by
  simp [linked, Table.mem_iff]

/-! ## The sequence numbers of a stream -/

theorem latestSeq_le_iff {stream : String} {n : ℕ} :
    db.latestSeq stream ≤ n ↔ ∀ event ∈ db.events, event.streamId = stream → event.seq ≤ n := by
  unfold latestSeq
  rw [max?_getD_le_iff, List.forall_mem_map]
  simp only [List.mem_filter, decide_eq_true_eq, and_imp, Table.mem_iff]

theorem seq_le_latestSeq {event : ControlEvent} (h : event ∈ db.events) :
    event.seq ≤ db.latestSeq event.streamId :=
  latestSeq_le_iff.1 le_rfl event h rfl

theorem exists_latest {event : ControlEvent} (h : event ∈ db.events) :
    ∃ top ∈ db.events, top.streamId = event.streamId ∧ top.seq = db.latestSeq event.streamId := by
  unfold latestSeq
  cases hm : ((db.events.rows.filter fun e => decide (e.streamId = event.streamId)).map
      ControlEvent.seq).max? with
  | none =>
    rw [List.max?_eq_none_iff, List.map_eq_nil_iff, List.filter_eq_nil_iff] at hm
    exact absurd (decide_eq_true rfl) (hm event h)
  | some m =>
    obtain ⟨top, htop, hseq⟩ := List.mem_map.1 (List.max?_mem hm)
    simp only [List.mem_filter, decide_eq_true_eq] at htop
    exact ⟨top, htop.1, htop.2, hseq⟩

/-- `db'` is `db` with one more event. -/
structure Appends (db : Database) (event : ControlEvent) (db' : Database) : Prop where
  events : db'.events.rows = db.events.rows ++ [event]
  sessions : db'.sessions = db.sessions
  requests : db'.requests = db.requests
  pending : db'.pending = db.pending

theorem Appends.mem_events {event e : ControlEvent} (h : Appends db event db') :
    e ∈ db'.events ↔ e ∈ db.events ∨ e = event := by
  simp [Table.mem_iff, h.events]

theorem Appends.unique {event : ControlEvent} {db₁ db₂ : Database} (h₁ : Appends db event db₁)
    (h₂ : Appends db event db₂) : db₁ = db₂ := by
  cases db₁
  cases db₂
  obtain ⟨e₁, rfl, rfl, rfl⟩ := h₁
  obtain ⟨e₂, rfl, rfl, rfl⟩ := h₂
  congr 1
  exact Table.ext (e₁.trans e₂.symm)

theorem exists_insert {event : ControlEvent}
    (hseq : event.seq = db.latestSeq event.streamId + 1) :
    ∃ events, db.events.insert? event = some events ∧
      events.rows = db.events.rows ++ [event] := by
  have hfree : db.events.find? event.position = none := by
    rw [Table.find?_eq_none_iff]
    intro e he hk
    obtain ⟨hs, hq⟩ := Prod.mk.inj hk
    have := seq_le_latestSeq he
    rw [hs] at this
    omega
  cases h : db.events.insert? event with
  | none => exact absurd hfree (Table.insert?_eq_none_iff.1 h)
  | some events => exact ⟨events, rfl, (Table.insert?_eq_some_iff.1 h).2⟩

theorem insertEvent_ok_iff {event : ControlEvent}
    (hseq : event.seq = db.latestSeq event.streamId + 1) :
    db.insertEvent event = .ok db' ↔
      (∀ s, event.agentSessionId = some s → (db.session s).isSome) ∧ Appends db event db' := by
  obtain ⟨events, hev, hrows⟩ := exists_insert hseq
  have happ : Appends db event { db with events } := ⟨hrows, rfl, rfl, rfl⟩
  unfold insertEvent
  rw [hev]
  have hres : ({ db with events } = db') ↔ Appends db event db' :=
    ⟨fun h => h ▸ happ, fun h => happ.unique h⟩
  cases hs : event.agentSessionId with
  | none => simpa using hres
  | some s => cases h : db.session s <;> simp [h, hres]

end Wiii.Neko.Database
