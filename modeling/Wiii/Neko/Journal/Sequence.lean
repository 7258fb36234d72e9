import Wiii.Neko.Journal.Maintenance

/-!
# Sequence numbers of a stream

The next sequence number of a stream is read off its surviving events.  It never goes back, because maintenance keeps
the latest event of every stream (`latestSeq_maintained`), so over a run the assigned numbers of a stream increase
strictly (`assigned_increasing`).
-/

namespace Wiii.Neko

open Journal Database Relation

variable {db db' : Database} {tick : Tick} {terminalNow requestNow : Timestamp}

def Call.assigned (call : Call) : List ControlEvent :=
  match call.answer with
  | .ok (.event event) | .ok (.start (.execute event)) => [event]
  | _ => []

/-- A cursor starts at 0, and moves to the end of a page or to an event that was sent. -/
inductive Cursor (stream : String) : Database → ℕ → Prop
  | start (db : Database) : Cursor stream db 0
  | page {db : Database} {cursor limit : ℕ} {page : ReplayPage} : Cursor stream db cursor →
      replay stream cursor limit db = .ok page → Cursor stream db page.nextAfterSeq
  | sent {db : Database} {event : ControlEvent} : event ∈ db.events → event.streamId = stream →
      Cursor stream db event.seq
  | later {db db' : Database} {call : Call} {cursor : ℕ} : Cursor stream db cursor →
      Step db call db' → Cursor stream db' cursor

/-! ## Allocation -/

theorem commit_events {c : SessionCommit} {completion : Option (String × Value)}
    {failure : Option (String × String)} {event : ControlEvent}
    (h : commitSessionEvent c completion failure tick db = .ok (event, db')) :
    event.seq = db.latestSeq event.streamId + 1 ∧
      db'.events.rows = db.events.rows ++ [event] := by
  obtain ⟨row, -, rfl, hc⟩ := commitSessionEvent_ok_iff.1 h
  exact ⟨rfl, hc.events⟩

/-- A step other than maintenance stores the events it answers, numbered one after the other. -/
theorem Step.events {call : Call} (h : Step db call db') :
    (∀ event ∈ call.assigned, event.seq = db.latestSeq event.streamId + 1) ∧
      (db'.events.rows = db.events.rows ++ call.assigned ∨
        call.assigned = [] ∧ ∃ t r, call.op = .startupMaintenance t r) := by
  obtain ⟨op, tick, answer⟩ := call
  rcases h.cases with ⟨rfl, error, rfl⟩ | ⟨answer, rfl, ha⟩
  · simp [Call.assigned]
  cases op <;> simp only [Op.apply, map_ok_iff, Prod.mk.injEq] at ha <;>
    obtain ⟨⟨x, d⟩, ha, rfl, rfl⟩ := ha
  case updateSessionWithEvent | completeRequestWithSessionEvent | failRequestWithSessionEvent =>
    obtain ⟨hseq, hev⟩ := commit_events ha
    exact ⟨by simpa [Call.assigned] using hseq, .inl hev⟩
  case appendEvent =>
    obtain ⟨-, -, rfl, happ⟩ := appendEvent_ok_iff.1 ha
    exact ⟨by simp [Call.assigned, nextEvent], .inl happ.events⟩
  case beginStartRequest =>
    rcases beginStartRequest_ok ha with ⟨row, -, -, -, rfl, rfl⟩ | ⟨-, rfl, -, rfl⟩ |
      ⟨e, -, rfl, hadm⟩
    · unfold recordedStartDecision
      cases hp : row.phase <;> simp [Call.assigned]
    · simp [Call.assigned]
    · exact ⟨by simp [Call.assigned, hadm.event_eq, nextEvent], .inl hadm.events⟩
  case startupMaintenance t r => exact ⟨by simp [Call.assigned], .inr ⟨rfl, t, r, rfl⟩⟩
  case beginRequest =>
    refine ⟨by simp [Call.assigned], .inl ?_⟩
    rcases beginRequest_ok_iff.1 ha with ⟨_, _, _, _, _, rfl⟩ | ⟨_, _, hi⟩
    · simp [Call.assigned]
    · obtain ⟨_, _, rfl⟩ := insertRequest_ok_iff.1 hi
      simp [Call.assigned]
  case retainTerminalFact =>
    obtain ⟨-, -, -, rfl⟩ := retainTerminalFact_ok_iff.1 ha
    simp [Call.assigned]
  case setSessionPhase =>
    obtain ⟨-, -, -, rfl⟩ := setSessionPhase_ok_iff.1 ha
    simp [Call.assigned]
  case completeRequest =>
    obtain ⟨-, -, -, -, rfl⟩ := completeRequest_ok_iff.1 ha
    simp [Call.assigned]
  case setRequestPhase | failRequest | markRequestUnknown =>
    obtain ⟨-, -, -, rfl⟩ := advanceRequest_ok_iff.1 ha
    simp [Call.assigned]
  case reconcileTerminalRequest =>
    unfold reconcileTerminalRequest at ha
    split at ha
    · cases ha
    · obtain ⟨-, -, ⟨-, rfl⟩ | ⟨-, -, rfl⟩⟩ := reconcileRequest_ok_iff.1 ha <;>
        simp [Call.assigned]
  case reconcileTerminalRequestFailure =>
    obtain ⟨-, -, ⟨-, rfl⟩ | ⟨-, -, rfl⟩⟩ := reconcileRequest_ok_iff.1 ha <;>
      simp [Call.assigned]
  case removeTerminalFact | recoverSafeRequests | recoverUncertainRequests =>
    simp only [removeTerminalFact, recoverSafeRequests, recoverUncertainRequests, closeRequests,
      Except.ok.injEq, Prod.mk.injEq, true_and] at ha
    subst ha
    simp [Call.assigned, closed]

theorem Step.assigns {call : Call} (h : Step db call db') {event : ControlEvent}
    (he : event ∈ call.assigned) :
    event.seq = db.latestSeq event.streamId + 1 ∧ event ∈ db'.events := by
  refine ⟨h.events.1 event he, ?_⟩
  rcases h.events.2 with hrows | ⟨hnone, -⟩
  · rw [Table.mem_iff, hrows]
    exact List.mem_append_right _ he
  · rw [hnone] at he
    cases he

theorem Effect.latestSeq_le {A : ControlRequest → Prop} {W : ControlRequest → ControlRequest → Prop}
    (h : Effect A W db db') (stream : String) : db.latestSeq stream ≤ db'.latestSeq stream := by
  rw [latestSeq_le_iff]
  rintro event he rfl
  refine seq_le_latestSeq ?_
  cases h with
  | addEvent _ _ append => exact append.mem_events.2 (.inl he)
  | addRequest _ _ | addSession _ _ | setRequests _ | setSession _ | retain _ _ | release _ =>
    exact he

/-! ## Maintenance -/

theorem retentionRank_latest {event : ControlEvent} (he : event ∈ db.events)
    (hl : event.seq = db.latestSeq event.streamId) : retentionRank db event ≤ 1 := by
  have honly : ∀ e ∈ db.events.rows.filter (fun e =>
      decide (e.streamId = event.streamId) && decide (event.seq ≤ e.seq)), e = event := by
    intro e hmem
    simp only [List.mem_filter, Bool.and_eq_true, decide_eq_true_eq] at hmem
    obtain ⟨hme, hs, hq⟩ := hmem
    refine Table.eq_of_key_eq hme he (Prod.ext hs ?_)
    have hle := seq_le_latestSeq hme
    rw [hs, ← hl] at hle
    exact le_antisymm hle hq
  have hnd : (db.events.rows.filter (fun e =>
      decide (e.streamId = event.streamId) && decide (event.seq ≤ e.seq))).Nodup :=
    (List.Nodup.of_map _ db.events.nodup).filter _
  rw [List.eq_replicate_of_mem honly, List.nodup_replicate] at hnd
  exact hnd

/-- The event is `e` as it was stored, or as it is after its session was deleted. -/
def ControlEvent.IsFrom (event e : ControlEvent) : Prop := event = e ∨ event = e.detached

theorem ControlEvent.IsFrom.trans {a b c : ControlEvent} (h₁ : a.IsFrom b) (h₂ : b.IsFrom c) :
    a.IsFrom c := by
  rcases h₁ with rfl | rfl
  · exact h₂
  · rcases h₂ with rfl | rfl <;> exact .inr rfl

/-- Maintenance keeps the latest event of every stream. -/
theorem latest_kept {event : ControlEvent} (he : event ∈ db.events)
    (hl : event.seq = db.latestSeq event.streamId) :
    ∃ e ∈ (maintained terminalNow requestNow tick db).events, e.IsFrom event := by
  have hkeep : prunesEvent db (tick.now - days eventRetentionDays) event = false := by
    have hr := retentionRank_latest he hl
    have hcap : ¬ maxEventsPerStream < retentionRank db event := by
      unfold maxEventsPerStream
      omega
    simp [prunesEvent, hl, hcap]
  refine ⟨_, mem_events_maintained.2 ⟨event, he, hkeep, rfl⟩, ?_⟩
  split
  · exact .inr rfl
  · exact .inl rfl

theorem latestSeq_maintained (stream : String) :
    (maintained terminalNow requestNow tick db).latestSeq stream = db.latestSeq stream := by
  apply le_antisymm
  · rw [latestSeq_le_iff]
    rintro event he rfl
    obtain ⟨e, hmem, -, rfl⟩ := mem_events_maintained.1 he
    have hle := seq_le_latestSeq hmem
    split <;> exact hle
  · rw [latestSeq_le_iff]
    rintro event he rfl
    obtain ⟨top, htop, hs, hq⟩ := exists_latest he
    have htop' : top.seq = db.latestSeq top.streamId := by rw [hq, hs]
    obtain ⟨e, hmem, hkept⟩ : ∃ e ∈ (maintained terminalNow requestNow tick db).events,
        e.IsFrom top := latest_kept htop htop'
    have hle := seq_le_latestSeq hmem
    have hpos : e.streamId = event.streamId ∧ e.seq = top.seq := by
      rcases hkept with rfl | rfl <;> exact ⟨hs, rfl⟩
    rw [hpos.1, hpos.2, hq] at hle
    exact (seq_le_latestSeq he).trans hle

theorem maintained_cap (stream : String) :
    ((maintained terminalNow requestNow tick db).events.rows.filter fun event =>
      decide (event.streamId = stream)).length ≤ maxEventsPerStream := by
  let keeps := fun event : ControlEvent =>
    !prunesEvent db (tick.now - days eventRetentionDays) event && decide (event.streamId = stream)
  have hcount : ((maintained terminalNow requestNow tick db).events.rows.filter fun event =>
      decide (event.streamId = stream)).length = db.events.rows.countP keeps := by
    rw [← List.countP_eq_length_filter]
    simp only [maintained, Table.updateWhere, Table.deleteWhere, List.countP_map,
      List.countP_filter, Function.comp_apply]
    refine List.countP_congr fun event _ => ?_
    by_cases hg : event.agentSessionId.any (prunedSession terminalNow db) = true <;>
      simp [hg, keeps, ControlEvent.detached, and_comm]
  rw [hcount]
  cases hmin : ((db.events.rows.filter keeps).map ControlEvent.seq).min? with
  | none =>
    rw [List.min?_eq_none_iff, List.map_eq_nil_iff] at hmin
    rw [List.countP_eq_length_filter, hmin]
    exact Nat.zero_le _
  | some m =>
    rw [List.min?_eq_some_iff] at hmin
    obtain ⟨hm, hle⟩ := hmin
    -- the oldest survivor ranks behind all the others
    obtain ⟨low, hlow, rfl⟩ := List.mem_map.1 hm
    obtain ⟨-, hk⟩ := List.mem_filter.1 hlow
    simp only [keeps, Bool.and_eq_true, Bool.not_eq_true', decide_eq_true_eq] at hk
    obtain ⟨hkeep, hs⟩ := hk
    have hrank : retentionRank db low ≤ maxEventsPerStream := by
      simp only [prunesEvent, Bool.or_eq_false_iff, decide_eq_false_iff_not, not_lt] at hkeep
      exact hkeep.2
    refine le_trans ?_ hrank
    rw [retentionRank, ← List.countP_eq_length_filter]
    refine List.countP_mono_left fun event he hkept => ?_
    have hmem : event ∈ db.events.rows.filter keeps := List.mem_filter.2 ⟨he, hkept⟩
    simp only [keeps, Bool.and_eq_true, decide_eq_true_eq] at hkept
    simp only [Bool.and_eq_true, decide_eq_true_eq]
    exact ⟨hkept.2.trans hs.symm, hle _ (List.mem_map_of_mem hmem)⟩

/-! ## Runs -/

theorem Step.latestSeq_le {call : Call} (h : Step db call db') (stream : String) :
    db.latestSeq stream ≤ db'.latestSeq stream := by
  rcases h.effects with he | ⟨t, r, -, hm⟩
  · clear h
    induction he with
    | refl => exact le_rfl
    | tail _ hstep ih => exact ih.trans (hstep.latestSeq_le stream)
  · rw [startupMaintenance_eq] at hm
    obtain rfl : maintained t r call.tick db = db' := by simpa using hm
    exact (latestSeq_maintained stream).ge

theorem replay_nextAfterSeq_le {stream : String} {cursor limit : ℕ} {page : ReplayPage}
    (h : replay stream cursor limit db = .ok page) (hc : cursor ≤ db.latestSeq stream) :
    page.nextAfterSeq ≤ db.latestSeq stream := by
  unfold replay at h
  obtain ⟨-, h⟩ := bind_unit_ok_iff.1 h
  obtain ⟨-, h⟩ := bind_unit_ok_iff.1 h
  simp only [pure, Except.pure, Except.ok.injEq] at h
  subst h
  simp only
  cases hlast : (List.take limit (List.take (limit + 1) (List.insertionSort
      (fun a b : ControlEvent => a.seq ≤ b.seq) (db.events.rows.filter fun event =>
        decide (event.streamId = stream) && decide (cursor < event.seq))))).getLast? with
  | none => simpa using hc
  | some last =>
    have hmem := List.mem_of_mem_take (List.mem_of_mem_take (List.mem_of_getLast? hlast))
    rw [List.mem_insertionSort, List.mem_filter] at hmem
    simp only [Bool.and_eq_true, decide_eq_true_eq] at hmem
    rw [Option.map_some, Option.getD_some, ← hmem.2.1]
    exact seq_le_latestSeq hmem.1

theorem Cursor.le_latestSeq {stream : String} {cursor : ℕ} (h : Cursor stream db cursor) :
    cursor ≤ db.latestSeq stream := by
  induction h with
  | start => exact Nat.zero_le _
  | page _ hp ih => exact replay_nextAfterSeq_le hp ih
  | sent he hs => exact hs ▸ seq_le_latestSeq he
  | later _ hs ih => exact ih.trans (hs.latestSeq_le _)

theorem Step.event_from {call : Call} (h : Step db call db') {event : ControlEvent}
    (he : event ∈ db'.events) :
    (∃ e ∈ db.events, event.IsFrom e) ∨ ∃ e ∈ call.assigned, event.IsFrom e := by
  rcases h.events.2 with hrows | ⟨-, t, r, hop⟩
  · rw [Table.mem_iff, hrows, List.mem_append] at he
    rcases he with he | he
    · exact .inl ⟨event, he, .inl rfl⟩
    · exact .inr ⟨event, he, .inl rfl⟩
  · rcases h.cases with ⟨rfl, -⟩ | ⟨answer, -, ha⟩
    · exact .inl ⟨event, he, .inl rfl⟩
    · rw [hop] at ha
      simp only [Op.apply, startupMaintenance_eq, Except.map, Except.ok.injEq, Prod.mk.injEq] at ha
      obtain ⟨-, rfl⟩ := ha
      obtain ⟨e, hmem, -, rfl⟩ := mem_events_maintained.1 he
      refine .inl ⟨e, hmem, ?_⟩
      split
      · exact .inr rfl
      · exact .inl rfl

/-- Every stored event was assigned its number by a call of the run, or was there before. -/
theorem Run.event_from {calls : List Call} (h : Run Step db calls db') :
    ∀ event ∈ db'.events, (∃ e ∈ db.events, event.IsFrom e) ∨
      ∃ e ∈ calls.flatMap Call.assigned, event.IsFrom e := by
  induction h with
  | nil db => exact fun event he => .inl ⟨event, he, .inl rfl⟩
  | cons hs _ ih =>
    intro event he
    rw [List.flatMap_cons]
    rcases ih event he with ⟨e, hmem, hfrom⟩ | ⟨e, hmem, hfrom⟩
    · rcases hs.event_from hmem with ⟨e', hmem', hfrom'⟩ | ⟨e', hmem', hfrom'⟩
      · exact .inl ⟨e', hmem', hfrom.trans hfrom'⟩
      · exact .inr ⟨e', List.mem_append_left _ hmem', hfrom.trans hfrom'⟩
    · exact .inr ⟨e, List.mem_append_right _ hmem, hfrom⟩

/-- In every run the numbers assigned in a stream increase strictly, above every cursor taken before, and maintenance
keeps the latest event of each stream. -/
theorem assigned_increasing {before after : List Call} (h₁ : Run Step ∅ before db)
    (h₂ : Run Step db after db') :
    (∀ event ∈ db'.events, ∃ e ∈ (before ++ after).flatMap Call.assigned, event.IsFrom e) ∧
    ((before ++ after).flatMap Call.assigned).Pairwise
      (fun e e' => e.streamId = e'.streamId → e.seq < e'.seq) ∧
    (∀ stream cursor, Cursor stream db cursor →
      ∀ event ∈ after.flatMap Call.assigned, event.streamId = stream → cursor < event.seq) ∧
    ∀ terminalNow requestNow tick, ∃ left,
      startupMaintenance terminalNow requestNow tick db = .ok ((), left) ∧
      (∀ event ∈ db.events, event.seq = db.latestSeq event.streamId →
        ∃ e ∈ left.events, e.IsFrom event) ∧
      ∀ stream, (left.events.rows.filter fun event =>
        decide (event.streamId = stream)).length ≤ maxEventsPerStream := by
  refine ⟨fun event he => ?_, ?_, fun stream cursor hc => ?_, fun terminalNow requestNow tick => ?_⟩
  · rcases Run.event_from (h₁.append h₂) event he with ⟨e, hmem, -⟩ | hnew
    · simp at hmem
    · exact hnew
  · refine (h₁.append h₂).pairwise_outputs (B := fun e db => e.seq ≤ db.latestSeq e.streamId)
      ?_ ?_ ?_ ?_
    · exact fun e s a t he hs => he.trans (hs.latestSeq_le _)
    · exact fun s a t hs e he => seq_le_latestSeq (hs.assigns he).2
    · intro e s a t he hs e' he' hstream
      rw [(hs.assigns he').1, ← hstream]
      omega
    · intro s a t _
      unfold Call.assigned
      split <;> simp
  · refine h₂.outputs (Q := fun db => cursor ≤ db.latestSeq stream) ?_ ?_ hc.le_latestSeq
    · exact fun s a t hq hs => hq.trans (hs.latestSeq_le _)
    · rintro s a t hq hs e he rfl
      rw [(hs.assigns he).1]
      omega
  · exact ⟨_, startupMaintenance_eq terminalNow requestNow tick db,
      fun event he hl => latest_kept he hl, maintained_cap⟩

/-- Two events appended to a stream across a restart. -/
theorem assigned_increasing_restart :
    let append := Op.appendEvent "stream" "note" "run" none .null
    let before := trace ∅ [(append, ⟨1, "e1", none⟩)]
    let after := trace (perform ∅ [(append, ⟨1, "e1", none⟩)])
      [(.startupMaintenance 2 2, ⟨2, "", none⟩), (append, ⟨3, "e2", none⟩)]
    ((before ++ after).flatMap Call.assigned).map ControlEvent.seq = [1, 2] ∧
      ((before ++ after).flatMap Call.assigned).Pairwise
        (fun e e' => e.streamId = e'.streamId → e.seq < e'.seq) :=
  ⟨rfl, (assigned_increasing (run_perform ∅ _) (run_perform _ _)).2.1⟩

end Wiii.Neko
