import Wiii.Neko.Computer.Effects

/-!
# The phases of a computer request

What one call does to the rows of the requests (`Step.requests`), and what follows for runs: a row is
accepted first and moves on as `Advances` says, and a row that is completed or failed stays as it is as long
as nobody marks the request uncertain (`request_outcomes`).
-/

namespace Wiii.Neko.Computer

open ComputerJournal

variable {newV4 : ℕ → String} {db db' : ComputerJournal}

inductive Advances : RequestPhase → RequestPhase → Prop
  | start : Advances .accepted .sideEffectStarted
  | close {phase outcome : RequestPhase} : phase ∈ [.accepted, .sideEffectStarted] →
      outcome ∈ [.completed, .failed, .unknownOutcome] → Advances phase outcome

/-- The service reports an uncertain effect, whether or not the journal takes it. -/
def uncertain (newV4 : ℕ → String) (requestId environmentId detail : String) (now : Timestamp)
    (db : ComputerJournal) : String × ComputerJournal :=
  (s!"unknown_outcome: {detail}",
    match db.markUnknownOutcome newV4 requestId environmentId now with
    | .ok (_, db') => db'
    | .error _ => db)

/-- The operation marks the request uncertain. -/
def Op.Marks (op : Op) (requestId : String) : Prop :=
  ∃ environmentId, op = .markUnknownOutcome requestId environmentId

/-! ## One call -/

theorem ComputerJournal.Logged.requests (h : Logged db db') : db'.requests = db.requests := by
  obtain ⟨_, _, _, -, -, rfl⟩ := h
  rfl

/-- The rows of `requests` that meet `p` are replaced. -/
def Rewrites (op : Op) (requests requests' : Table StoredRequest.requestId) : Prop :=
  ∃ (p : StoredRequest → Bool) (f : StoredRequest → StoredRequest) (hf : ∀ r, (f r).requestId = r.requestId),
    requests' = requests.updateWhere p f hf ∧
    ∀ row, p row = true →
      Advances row.phase (f row).phase ∨ op.Marks row.requestId ∧ (f row).phase = .unknownOutcome

theorem Rewrites.refl (op : Op) (requests : Table StoredRequest.requestId) : Rewrites op requests requests :=
  ⟨fun _ => false, id, fun _ => rfl, (Table.updateWhere_eq_self fun _ _ => rfl).symm, fun _ h => nomatch h⟩

theorem rewrites_advance (op : Op) {requestId refused : String} {phases : List RequestPhase}
    {f : StoredRequest → StoredRequest} {hf : ∀ r, (f r).requestId = r.requestId}
    (h : advanceRequest requestId phases refused f hf db = .ok ((), db')) (outcome : RequestPhase)
    (hphase : ∀ row, (f row).phase = outcome) (hadvances : ∀ phase ∈ phases, Advances phase outcome) :
    Rewrites op db.requests db'.requests := by
  obtain ⟨-, rfl⟩ := advanceRequest_ok_iff.1 h
  refine ⟨_, f, hf, rfl, fun row hdue => .inl ?_⟩
  unfold due at hdue
  rw [Bool.and_eq_true, decide_eq_true_eq, decide_eq_true_eq] at hdue
  rw [hphase]
  exact hadvances _ hdue.2

theorem Step.requests {call : Call} (h : Step newV4 db call db') :
    (∃ row, row.phase = .accepted ∧ validateIdentifier row.requestId "request ID" = .ok () ∧
      db.requests.insert? row = some db'.requests) ∨
      Rewrites call.op db.requests db'.requests := by
  cases h with
  | failed op error => exact .inr (.refl _ _)
  | @committed db' op answer now happly =>
    cases op <;> simp only [Op.apply, map_ok_iff, Prod.mk.injEq] at happly
    case recoverIncomplete =>
      cases happly
      refine .inr ⟨_, StoredRequest.uncertain now, fun _ => rfl, rfl, fun row hrow => .inl (.close ?_ (by simp))⟩
      rw [decide_eq_true_eq] at hrow
      cases hphase : row.phase <;> simp [hphase] at hrow ⊢
    all_goals obtain ⟨⟨x, db₁⟩, hop, rfl, rfl⟩ := happly
    case beginRequest requestId method targetId =>
      obtain ⟨hvalid, ⟨_, _, _, rfl⟩ | ⟨requests, hinsert, _, rfl⟩⟩ := beginRequest_ok_iff.1 hop
      · exact .inr (.refl _ _)
      · exact .inl ⟨_, rfl, hvalid, hinsert⟩
    case markSideEffectStarted =>
      refine .inr (rewrites_advance _ hop .sideEffectStarted (fun _ => rfl) fun phase hphase => ?_)
      rw [List.mem_singleton.1 hphase]
      exact .start
    case completeRequest =>
      exact .inr (rewrites_advance _ hop .completed (fun _ => rfl) fun _ hphase => .close hphase (by decide))
    case failRequest =>
      exact .inr (rewrites_advance _ hop .failed (fun _ => rfl) fun _ hphase => .close hphase (by decide))
    case markUnknownOutcome requestId environmentId =>
      rw [(markUnknownOutcome_ok hop).2.requests]
      refine .inr ⟨_, StoredRequest.uncertain now, fun _ => rfl, rfl, fun row hrow => .inr ⟨⟨environmentId, ?_⟩, rfl⟩⟩
      rw [of_decide_eq_true hrow]
    case adoptLegacyCoworker =>
      rcases adoptLegacyCoworker_ok hop with rfl | ⟨_, _, _, _, _, _, _, hlogged⟩
      · exact .inr (.refl _ _)
      · exact .inr (hlogged.requests ▸ .refl _ _)
    case grantProject =>
      obtain ⟨-, -, _, _, -, -, -, rfl⟩ := grantProject_ok_iff.1 hop
      exact .inr (.refl _ _)
    case activateCoworkerProject => exact .inr ((activateCoworkerProject_ok hop).requests ▸ .refl _ _)
    case revokeProject =>
      rcases revokeProject_ok hop with ⟨-, rfl, -⟩ | ⟨_, _, _, _, hlogged⟩
      · exact .inr (.refl _ _)
      · exact .inr (hlogged.requests ▸ .refl _ _)
    case deleteEnvironment =>
      obtain ⟨-, rfl⟩ := deleteEnvironment_ok_iff.1 hop
      exact .inr (.refl _ _)
    case upsertEnvironment =>
      obtain ⟨-, _, -, -, hlogged⟩ := upsertEnvironment_ok hop
      exact .inr (hlogged.requests ▸ .refl _ _)
    case setEnvironmentState => exact .inr ((setEnvironmentState_ok hop).requests ▸ .refl _ _)
    case acquireSeat =>
      obtain ⟨_, -, -, -, hlogged⟩ := acquireSeat_ok hop
      exact .inr (hlogged.requests ▸ .refl _ _)
    case releaseSeat => exact .inr ((releaseSeat_ok hop).2.2.requests ▸ .refl _ _)
    case appendEvent => exact .inr ((appendEvent_ok hop).requests ▸ .refl _ _)

theorem Step.row {call : Call} (h : Step newV4 db call db') {row : StoredRequest} (hrow : row ∈ db.requests) :
    ∃ row' ∈ db'.requests, row'.requestId = row.requestId ∧
      (row' = row ∨ Advances row.phase row'.phase ∨
        call.op.Marks row.requestId ∧ row'.phase = .unknownOutcome) := by
  rcases h.requests with ⟨_, -, -, hinsert⟩ | ⟨p, f, hf, hrows, hmoves⟩
  · exact ⟨row, (Table.mem_insert? hinsert).2 (.inl hrow), rfl, .inl rfl⟩
  · rw [hrows]
    refine ⟨_, (Table.mem_updateWhere hf).2 ⟨row, hrow, rfl⟩, ?_⟩
    split_ifs with hp
    · exact ⟨hf row, .inr (hmoves row hp)⟩
    · exact ⟨rfl, .inl rfl⟩

theorem Step.new_row {call : Call} (h : Step newV4 db call db') {row' : StoredRequest} (hrow : row' ∈ db'.requests) :
    (∃ row ∈ db.requests, row.requestId = row'.requestId) ∨
      row'.phase = .accepted ∧ validateIdentifier row'.requestId "request ID" = .ok () := by
  rcases h.requests with ⟨row, hphase, hvalid, hinsert⟩ | ⟨p, f, hf, hrows, -⟩
  · rcases (Table.mem_insert? hinsert).1 hrow with hrow | rfl
    · exact .inl ⟨row', hrow, rfl⟩
    · exact .inr ⟨hphase, hvalid⟩
  · rw [hrows] at hrow
    obtain ⟨row, hmem, rfl⟩ := (Table.mem_updateWhere hf).1 hrow
    refine .inl ⟨row, hmem, ?_⟩
    split_ifs
    · exact (hf row).symm
    · rfl

/-! ## Runs -/

theorem Reachable.validIds (h : Reachable newV4 db) :
    ∀ row ∈ db.requests, validateIdentifier row.requestId "request ID" = .ok () := by
  refine Reaches.invariant (I := fun db : ComputerJournal =>
    ∀ row ∈ db.requests, validateIdentifier row.requestId "request ID" = .ok ()) ?_ h
    fun row hrow => absurd hrow (Table.not_mem_empty row)
  intro db call db' hvalid hstep row' hrow'
  rcases hstep.new_row hrow' with ⟨row, hrow, hid⟩ | ⟨-, hnew⟩
  · exact hid ▸ hvalid row hrow
  · exact hnew

def RequestPhase.Closed (phase : RequestPhase) : Prop := phase = .completed ∨ phase = .failed

theorem Advances.not_closed {phase phase' : RequestPhase} (h : Advances phase phase') : ¬ phase.Closed := by
  rintro (rfl | rfl)
  · cases h with
    | close hphase _ => simp at hphase
  · cases h with
    | close hphase _ => simp at hphase

theorem Step.closed {call : Call} (h : Step newV4 db call db') {row : StoredRequest} (hrow : row ∈ db.requests)
    (hclosed : row.phase.Closed) (hmarks : ¬ call.op.Marks row.requestId) : row ∈ db'.requests := by
  obtain ⟨row', hrow', -, rfl | hadvances | ⟨hmark, -⟩⟩ := h.row hrow
  · exact hrow'
  · exact absurd hclosed hadvances.not_closed
  · exact absurd hmark hmarks

theorem closed_run {calls : List Call} (h : Run (Step newV4) db calls db') {row : StoredRequest}
    (hrow : row ∈ db.requests) (hclosed : row.phase.Closed)
    (hmarks : ∀ call ∈ calls, ¬ call.op.Marks row.requestId) : row ∈ db'.requests := by
  induction h with
  | nil _ => exact hrow
  | cons hstep _ ih =>
    exact ih (hstep.closed hrow hclosed (hmarks _ List.mem_cons_self))
      fun call hcall => hmarks call (List.mem_cons_of_mem _ hcall)

/-! ## Uncertain effects -/

theorem utf8ByteSize_of_validateIdentifier {value label : String} (h : validateIdentifier value label = .ok ()) :
    value.utf8ByteSize ≤ 160 := by
  unfold validateIdentifier at h
  obtain ⟨h, -⟩ := ite_error_ok_iff.1 h
  simp only [Bool.or_eq_true, decide_eq_true_eq, not_or, not_lt] at h
  exact h.1.2

theorem uncertain_unknownOutcome {requestId environmentId : String} {row : StoredRequest}
    (hvalid : validateIdentifier requestId "request ID" = .ok ()) (hrow : db.requests.find? requestId = some row)
    (henv : (db.environments.find? environmentId).isSome) (detail : String) (now : Timestamp) :
    (uncertain newV4 requestId environmentId detail now db).2.requests.find? requestId =
      some (StoredRequest.uncertain now row) := by
  have hsize : (Value.object [("requestId", .string requestId)]).encodedLength ≤ maxEventPayloadBytes := by
    have hle := Value.encodedString_le requestId
    have hid := utf8ByteSize_of_validateIdentifier hvalid
    have hname : Value.encodedString "requestId" = 11 := by decide
    simp only [Value.encodedLength, Value.fieldsLength, hname, maxEventPayloadBytes]
    omega
  have hpresent : (((db.updateRequestWhere (fun row => decide (row.requestId = requestId))
      (StoredRequest.uncertain now)).updateEnvironment environmentId (EnvironmentRow.uncertain now)).environments.find?
        environmentId).isSome := by
    change ((db.environments.update environmentId (EnvironmentRow.uncertain now)).find? environmentId).isSome
    rwa [Table.find?_update, if_pos rfl, Option.isSome_map]
  obtain ⟨db', happend⟩ := exists_appendEventTx newV4 now hsize hpresent "computer.unknown_outcome"
  have hmark : markUnknownOutcome newV4 requestId environmentId now db = .ok ((), db') :=
    bind_ok_iff.2 ⟨db', happend, rfl⟩
  have hrequests : db'.requests = db.requests.updateWhere (fun row => decide (row.requestId = requestId))
      (StoredRequest.uncertain now) := (appendEventTx_ok happend).2.requests
  unfold uncertain
  rw [hmark]
  dsimp only
  rw [hrequests, Table.find?_updateWhere, hrow, Option.map_some, Table.key_of_find? hrow, decide_eq_true rfl,
    if_pos rfl]

/-- A row stays as it is, moves on, or becomes uncertain; closed rows change only to that, and a reported uncertain
effect on an environment that is there is recorded. -/
theorem request_outcomes (newV4 : ℕ → String) {db : ComputerJournal} (hdb : Reachable newV4 db) :
    (∀ call db', Step newV4 db call db' →
      (∀ row' ∈ db'.requests, (∃ row ∈ db.requests, row.requestId = row'.requestId) ∨ row'.phase = .accepted) ∧
      ∀ row ∈ db.requests, ¬ (row.phase.Closed ∧ call.op.Marks row.requestId) →
        ∃ row' ∈ db'.requests, row'.requestId = row.requestId ∧
          (row' = row ∨ Advances row.phase row'.phase ∨
            row.phase = .unknownOutcome ∧ row'.phase = .unknownOutcome)) ∧
    (∀ calls db', Run (Step newV4) db calls db' → ∀ row ∈ db.requests, row.phase.Closed →
      (∀ call ∈ calls, ¬ call.op.Marks row.requestId) → row ∈ db'.requests) ∧
    ∀ requestId environmentId detail now, (db.requests.find? requestId).isSome →
      (db.environments.find? environmentId).isSome →
      ((uncertain newV4 requestId environmentId detail now db).2.requests.find? requestId).map
        StoredRequest.phase = some .unknownOutcome := by
  refine ⟨fun call db' hstep => ⟨fun row' hrow' => ?_, fun row hrow hopen => ?_⟩, ?_, ?_⟩
  · exact (hstep.new_row hrow').imp_right And.left
  · obtain ⟨row', hrow', hid, hmoves⟩ := hstep.row hrow
    refine ⟨row', hrow', hid, ?_⟩
    rcases hmoves with hsame | hadvances | ⟨hmarks, hphase'⟩
    · exact .inl hsame
    · exact .inr (.inl hadvances)
    · rw [hphase']
      cases hphase : row.phase with
      | accepted | sideEffectStarted => exact .inr (.inl (.close (by simp) (by simp)))
      | completed => exact absurd ⟨.inl hphase, hmarks⟩ hopen
      | failed => exact absurd ⟨.inr hphase, hmarks⟩ hopen
      | unknownOutcome => exact .inr (.inr ⟨rfl, rfl⟩)
  · intro calls db' hrun row hrow hclosed hmarks
    exact closed_run hrun hrow hclosed hmarks
  · intro requestId environmentId detail now hrow henv
    obtain ⟨row, hrow⟩ := Option.isSome_iff_exists.1 hrow
    have hvalid := hdb.validIds row (Table.mem_of_find? hrow)
    rw [Table.key_of_find? hrow] at hvalid
    rw [uncertain_unknownOutcome hvalid hrow henv]
    rfl

section Example

def sends : List (Op × Timestamp) :=
  [(.upsertEnvironment "computer-a" "site" "/work/site" .ready ⟨"4", 8589934592, 512, 1073741824, 2147483648⟩
      "computer.ready", 1),
    (.beginRequest "request-1" "computer.terminal.exec" "computer-a", 2), (.markSideEffectStarted "request-1", 3)]

theorem request_outcomes_sends :
    ((uncertain (fun _ => "id") "request-1" "computer-a" "timed out" 4 (execute (fun _ => "id") sends ∅)).2.requests.find?
      "request-1").map StoredRequest.phase = some .unknownOutcome :=
  (request_outcomes (fun _ => "id") (reachable_execute _ sends)).2.2 "request-1" "computer-a" "timed out" 4
    (by decide) (by decide)

/-- A request is completed, and another one closed by a restart, with no side effect started. -/
theorem closes_accepted :
    let db := execute (fun _ => "id") [(.beginRequest "request-1" "computer.seat.release" "computer-a", 1)] ∅
    Reachable (fun _ => "id") db ∧ db.requests.rows.map StoredRequest.phase = [.accepted] ∧
    (perform (fun _ => "id") (.completeRequest "request-1" .null) 2 db).2.requests.rows.map StoredRequest.phase =
      [.completed] ∧
    (perform (fun _ => "id") .recoverIncomplete 2 db).2.requests.rows.map StoredRequest.phase =
      [.unknownOutcome] :=
  ⟨reachable_execute _ _, by decide, by decide, by decide⟩

end Example

end Wiii.Neko.Computer
