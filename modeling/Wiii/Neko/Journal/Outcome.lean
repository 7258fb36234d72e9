import Wiii.Neko.Journal.Identity

/-!
# Recorded outcomes

The phase guard admits the step from a terminal phase to itself, and a second completion replaces the result of the
first (`completed_result_replaced`).  A call that does not write a different outcome over a recorded one `Spares` the
row; in runs of such calls the outcome of a request never changes while its row is retained (`outcome_immutable`).
-/

namespace Wiii.Neko

open Journal Database Relation

variable {db db' : Database} {r : String}

/-- No other outcome is written over the recorded one, and completion comes with its result. -/
def Op.Spares (op : Op) (row : ControlRequest) : Prop :=
  match op with
  | completeRequest r result =>
    row.requestId = r → row.phase = .completed → row.result = some result
  | failRequest r errorCode | failRequestWithSessionEvent _ r errorCode =>
    row.requestId = r → row.phase = .failed → row.errorCode = some errorCode
  | markRequestUnknown r =>
    row.requestId = r → row.phase = .unknownOutcome → row.errorCode = some "unknown_outcome"
  | setRequestPhase r next =>
    row.requestId = r → next = .completed → row.phase = .completed
  | _ => True

/-- The call spares the row of the request `r`. -/
def Spares (r : String) (db : Database) (call : Call) : Prop :=
  ∀ row, db.request r = some row → call.op.Spares row

/-- The outcome columns agree with the phase. -/
structure ControlRequest.Coherent (row : ControlRequest) : Prop where
  completed : row.phase = .completed → row.result.isSome ∧ row.errorCode = none
  result : row.phase ≠ .completed → row.result = none
  errorCode : row.phase.isTerminal = false → row.errorCode = none

/-- The two rows record the same outcome of the same operation. -/
structure ControlRequest.SameOutcome (row row' : ControlRequest) : Prop where
  method : row'.method = row.method
  targetId : row'.targetId = row.targetId
  phase : row'.phase = row.phase
  result : row'.result = row.result
  errorCode : row'.errorCode = row.errorCode

def completedWrite : List (Op × Tick) :=
  [(.beginRequest "r" "session/write" "t", ⟨1, "", none⟩),
    (.setRequestPhase "r" .dispatched, ⟨2, "", none⟩),
    (.setRequestPhase "r" .sideEffectStarted, ⟨3, "", none⟩),
    (.setRequestPhase "r" .committed, ⟨4, "", none⟩),
    (.completeRequest "r" (.number 1), ⟨5, "", none⟩)]

/-- A second completion replaces the recorded result, and a retry is answered with the new one. -/
theorem completed_result_replaced :
    ((perform ∅ completedWrite).request "r").map (fun row => (row.phase, row.result)) =
      some (.completed, some (.number 1)) ∧
    (let later := perform (perform ∅ completedWrite)
      [(.completeRequest "r" (.number 2), ⟨6, "", none⟩)]
    beginRequest "r" "session/write" "t" ⟨7, "", none⟩ later =
      .ok (.replay (.number 2), later)) ∧
    ((perform ∅ (completedWrite.take 4 ++ [(.setRequestPhase "r" .completed, ⟨5, "", none⟩)])
      ).request "r").map (fun row => (row.phase, row.result)) = some (.completed, none) :=
  ⟨rfl, rfl, rfl⟩

/-! ## One write -/

theorem Accepted.coherent {row : ControlRequest} (h : Accepted row) : row.Coherent := by
  obtain ⟨hp, hr, he⟩ := h
  exact ⟨by simp [hp], fun _ => hr, fun _ => he⟩

theorem phase_of_not_terminal {p : OperationPhase} (h : p.isTerminal = false) :
    p ≠ .completed ∧ p ≠ .failed ∧ p ≠ .unknownOutcome := by
  cases p <;> simp [OperationPhase.isTerminal] at h ⊢

theorem started_not_terminal {p : OperationPhase} (h : p = .sideEffectStarted ∨ p = .committed) :
    p.isTerminal = false := by
  rcases h with rfl | rfl <;> rfl

theorem early_not_terminal {p : OperationPhase} (h : p = .accepted ∨ p = .dispatched) :
    p.isTerminal = false := by
  rcases h with rfl | rfl <;> rfl

theorem Op.Writes.spared {op : Op} {now : Timestamp} {row row' : ControlRequest}
    (h : op.Writes now row row') (hs : op.Spares row) (hc : row.Coherent) :
    op.Spares row' ∧ row'.Coherent ∧ (row.phase.isTerminal → row.SameOutcome row') := by
  cases op <;> simp only [Op.Writes] at h
  case setRequestPhase r next =>
    obtain ⟨hk, hp, rfl⟩ := h
    have hsame : row.phase.isTerminal → next = row.phase := fun ht =>
      canAdvanceOperation_terminal ht hp
    have hdone : next = .completed → row.phase = .completed := hs hk
    refine ⟨fun _ h => h, ⟨fun hn => ?_, fun hn => ?_, fun hn => ?_⟩, fun ht => ?_⟩
    · exact hc.completed (hdone hn)
    · refine hc.result fun hrow => hn ?_
      exact (hsame (by rw [hrow]; rfl)).trans hrow
    · refine hc.errorCode ?_
      cases ht : row.phase.isTerminal with
      | false => rfl
      | true =>
        rw [hsame ht, ht] at hn
        cases hn
    · exact ⟨rfl, rfl, hsame ht, rfl, rfl⟩
  case completeRequest r result =>
    obtain ⟨hk, hp, rfl⟩ := h
    refine ⟨fun _ _ => rfl, ⟨fun _ => ⟨rfl, rfl⟩, fun h => (h rfl).elim, fun h => by cases h⟩,
      fun ht => ?_⟩
    have hphase : row.phase = .completed := (canAdvanceOperation_terminal ht hp).symm
    exact ⟨rfl, rfl, hphase.symm, (hs hk hphase).symm, (hc.completed hphase).2.symm⟩
  case failRequest r errorCode | failRequestWithSessionEvent c r errorCode =>
    obtain ⟨hk, hp, rfl⟩ := h
    refine ⟨fun _ _ => rfl, ⟨fun h => (by cases h), fun _ => rfl, fun h => by cases h⟩,
      fun ht => ?_⟩
    have hphase : row.phase = .failed := (canAdvanceOperation_terminal ht hp).symm
    exact ⟨rfl, rfl, hphase.symm, (hc.result (by rw [hphase]; decide)).symm, (hs hk hphase).symm⟩
  case markRequestUnknown r =>
    obtain ⟨hk, hp, rfl⟩ := h
    refine ⟨fun _ _ => rfl, ⟨fun h => (by cases h), fun _ => rfl, fun h => by cases h⟩,
      fun ht => ?_⟩
    have hphase : row.phase = .unknownOutcome := (canAdvanceOperation_terminal ht hp).symm
    exact ⟨rfl, rfl, hphase.symm, (hc.result (by rw [hphase]; decide)).symm, (hs hk hphase).symm⟩
  case reconcileTerminalRequest s r result | completeRequestWithSessionEvent c r result =>
    obtain ⟨-, hp, rfl⟩ := h
    refine ⟨trivial, ⟨fun _ => ⟨rfl, rfl⟩, fun h => (h rfl).elim, fun h => by cases h⟩, fun ht => ?_⟩
    rw [started_not_terminal hp] at ht
    cases ht
  case reconcileTerminalRequestFailure s r errorCode =>
    obtain ⟨-, hp, rfl⟩ := h
    refine ⟨trivial, ⟨fun h => (by cases h), fun _ => rfl, fun h => by cases h⟩, fun ht => ?_⟩
    rw [started_not_terminal hp] at ht
    cases ht
  case recoverSafeRequests =>
    obtain ⟨hp, rfl⟩ := h
    have hopen := early_not_terminal hp
    refine ⟨trivial, ⟨fun h => (by cases h), fun _ => ?_, fun h => by cases h⟩, fun ht => ?_⟩
    · exact hc.result (phase_of_not_terminal hopen).1
    · rw [hopen] at ht
      cases ht
  case recoverUncertainRequests =>
    obtain ⟨hp, rfl⟩ := h
    have hopen := started_not_terminal hp
    refine ⟨trivial, ⟨fun h => (by cases h), fun _ => ?_, fun h => by cases h⟩, fun ht => ?_⟩
    · exact hc.result (phase_of_not_terminal hopen).1
    · rw [hopen] at ht
      cases ht

theorem ControlRequest.SameOutcome.refl (row : ControlRequest) : row.SameOutcome row :=
  ⟨rfl, rfl, rfl, rfl, rfl⟩

theorem ControlRequest.SameOutcome.trans {a b c : ControlRequest} (h₁ : a.SameOutcome b)
    (h₂ : b.SameOutcome c) : a.SameOutcome c :=
  ⟨h₂.method.trans h₁.method, h₂.targetId.trans h₁.targetId, h₂.phase.trans h₁.phase,
    h₂.result.trans h₁.result, h₂.errorCode.trans h₁.errorCode⟩

theorem writes_spared {op : Op} {now : Timestamp} {row row' : ControlRequest}
    (h : ReflTransGen (op.Writes now) row row') (hs : op.Spares row) (hc : row.Coherent) :
    op.Spares row' ∧ row'.Coherent ∧ (row.phase.isTerminal → row.SameOutcome row') := by
  induction h with
  | refl => exact ⟨hs, hc, fun _ => .refl row⟩
  | tail _ hw ih =>
    obtain ⟨hs', hc', hsame⟩ := ih
    obtain ⟨hs'', hc'', hsame'⟩ := hw.spared hs' hc'
    refine ⟨hs'', hc'', fun ht => (hsame ht).trans (hsame' ?_)⟩
    rwa [(hsame ht).phase]

/-! ## Steps and runs -/

def CoherentAt (r : String) (db : Database) : Prop := ∀ row, db.request r = some row → row.Coherent

theorem Op.spares_of_adds {op : Op} {now : Timestamp} {row : ControlRequest}
    (h : op.Adds now row) (row' : ControlRequest) : op.Spares row' := by
  cases op <;> simp only [Op.Adds] at h <;> trivial

theorem Step.spared {call : Call} (h : Step db call db') (hs : Spares r db call)
    (hc : CoherentAt r db) :
    CoherentAt r db' ∧ ∀ row, db.request r = some row → row.phase.isTerminal →
      (∃ row', db'.request r = some row' ∧ row.SameOutcome row') ∨
        db'.request r = none ∧ call.Prunes db row := by
  rcases h.effects with he | ⟨t, q, hop, hm⟩
  · constructor
    · intro row' hr'
      cases hr : db.request r with
      | some row =>
        obtain ⟨row₁, hr₁, hw⟩ := effects_request_some he hr
        obtain rfl : row₁ = row' := Option.some.inj (hr₁.symm.trans hr')
        exact (writes_spared hw (hs row hr) (hc row hr)).2.1
      | none =>
        rcases effects_request_none he hr with hn | ⟨new, row₁, hA, -, hr₁, hw⟩
        · rw [hr'] at hn
          cases hn
        · obtain rfl : row₁ = row' := Option.some.inj (hr₁.symm.trans hr')
          exact (writes_spared hw (Op.spares_of_adds hA new) hA.accepted.coherent).2.1
    · intro row hr ht
      obtain ⟨row', hr', hw⟩ := effects_request_some he hr
      exact .inl ⟨row', hr', (writes_spared hw (hs row hr) (hc row hr)).2.2 ht⟩
  · have hnext := fun row (hr : db.request r = some row) => h.request_next hr
    rw [startupMaintenance_eq] at hm
    obtain rfl : maintained t q call.tick db = db' := by simpa using hm
    have hsame : ∀ row', (maintained t q call.tick db).request r = some row' →
        db.request r = some row' := by
      intro row' hr'
      rw [request_maintained, Option.filter_eq_some_iff] at hr'
      exact hr'.1
    refine ⟨fun row' hr' => hc row' (hsame row' hr'), fun row hr ht => ?_⟩
    rcases hnext row hr with ⟨row', hr', -⟩ | hp
    · obtain rfl : row' = row := Option.some.inj ((hsame row' hr').symm.trans hr)
      exact .inl ⟨row', hr', .refl row'⟩
    · exact .inr hp

/-- In a run of sparing calls a recorded outcome stays until maintenance prunes its row. -/
theorem Run.outcome_kept {calls : List Call} (h : Run (Guarded Step (Spares r)) db calls db')
    (hc : CoherentAt r db) {row : ControlRequest} (hr : db.request r = some row)
    (ht : row.phase.isTerminal) :
    (∃ row', db'.request r = some row' ∧ row.SameOutcome row') ∨
      ∃ before call after u pruned, calls = before ++ call :: after ∧
        Run (Guarded Step (Spares r)) db before u ∧ u.request r = some pruned ∧
          row.SameOutcome pruned ∧ call.Prunes u pruned := by
  induction h generalizing row with
  | nil _ => exact .inl ⟨row, hr, .refl row⟩
  | @cons s t _ call calls hstep _ ih =>
    obtain ⟨hs, hg⟩ := hstep
    obtain ⟨hc', hnext⟩ := hs.spared hg hc
    rcases hnext row hr ht with ⟨row', hr', hsame⟩ | ⟨-, hp⟩
    · rcases ih hc' hr' (by rwa [hsame.phase]) with
        ⟨last, hlast, hsame'⟩ | ⟨before, c, after, u, pruned, rfl, hu, hpr, hsame', hp⟩
      · exact .inl ⟨last, hlast, hsame.trans hsame'⟩
      · exact .inr ⟨call :: before, c, after, u, pruned, rfl, .cons ⟨hs, hg⟩ hu, hpr,
          hsame.trans hsame', hp⟩
    · exact .inr ⟨[], call, calls, s, row, rfl, .nil s, hr, .refl row, hp⟩

theorem Run.coherent {calls : List Call} (h : Run (Guarded Step (Spares r)) ∅ calls db) :
    CoherentAt r db :=
  h.invariant (I := CoherentAt r) (fun _ _ _ hc hs => (hs.1.spared hs.2 hc).1) (by simp [CoherentAt])

theorem beginRequest_replays {row : ControlRequest} {v : Value} {tick : Tick}
    (hr : db.request r = some row) (hp : row.phase = .completed) (hv : row.result = some v) :
    beginRequest r row.method row.targetId tick db = .ok (.replay v, db) :=
  beginRequest_ok_iff.2 (.inl ⟨row, hr, rfl, rfl, by simp [recordedDecision, hp, hv], rfl⟩)

/-- In every run that spares `r`, a completed row has a result, and the outcome of a terminal row stays, and is
replayed, until maintenance prunes it. -/
theorem outcome_immutable {before after : List Call}
    (h₁ : Run (Guarded Step (Spares r)) ∅ before db)
    (h₂ : Run (Guarded Step (Spares r)) db after db') {row : ControlRequest}
    (hr : db.request r = some row) :
    (row.phase = .completed → row.result.isSome) ∧
    (row.phase.isTerminal →
      (∃ row', db'.request r = some row' ∧ row.SameOutcome row' ∧
        ∀ v tick, row.phase = .completed → row.result = some v →
          beginRequest r row.method row.targetId tick db' = .ok (.replay v, db')) ∨
      ∃ early call late u pruned, after = early ++ call :: late ∧
        Run (Guarded Step (Spares r)) db early u ∧ u.request r = some pruned ∧
          row.SameOutcome pruned ∧ call.Prunes u pruned) := by
  have hc := Run.coherent h₁
  refine ⟨fun hp => ((hc row hr).completed hp).1, fun ht => ?_⟩
  rcases Run.outcome_kept h₂ hc hr ht with ⟨row', hr', hsame⟩ | hpruned
  · refine .inl ⟨row', hr', hsame, fun v tick hp hv => ?_⟩
    rw [← hsame.method, ← hsame.targetId]
    exact beginRequest_replays hr' (hsame.phase.trans hp) (hsame.result.trans hv)
  · exact .inr hpruned

theorem phase_of_map {p : OperationPhase}
    (h : (db.request r).map ControlRequest.phase = some p) {row : ControlRequest}
    (hr : db.request r = some row) : row.phase = p := by
  simpa [hr] using h

/-- After `completedWrite`, neither recovery nor a late failure touches the recorded result. -/
theorem outcome_immutable_completedWrite :
    let done := perform ∅ completedWrite
    let later := perform done
      [(.recoverSafeRequests, ⟨6, "", none⟩), (.failRequest "r" "late", ⟨7, "", none⟩)]
    ∃ row', later.request "r" = some row' ∧ row'.result = some (.number 1) := by
  intro done later
  have run₁ : Run (Guarded Step (Spares "r")) ∅ (trace ∅ completedWrite) done := by
    refine .cons ⟨rfl, fun _ _ => trivial⟩ <| .cons ⟨rfl, fun _ _ _ h => ?_⟩ <|
      .cons ⟨rfl, fun _ _ _ h => ?_⟩ <| .cons ⟨rfl, fun _ _ _ h => ?_⟩ <|
      .cons ⟨rfl, fun row hr _ hp => ?_⟩ <| .nil _
    · cases h
    · cases h
    · cases h
    · cases (phase_of_map rfl hr).symm.trans hp
  have run₂ : Run (Guarded Step (Spares "r")) done (trace done
      [(.recoverSafeRequests, ⟨6, "", none⟩), (.failRequest "r" "late", ⟨7, "", none⟩)]) later := by
    refine .cons ⟨rfl, fun _ _ => trivial⟩ <| .cons ⟨rfl, fun row hr _ hp => ?_⟩ <| .nil _
    cases (phase_of_map rfl hr).symm.trans hp
  obtain ⟨row, hr⟩ : ∃ row, done.request "r" = some row := ⟨_, rfl⟩
  have hphase : row.phase = .completed := phase_of_map rfl hr
  have hresult : row.result = some (.number 1) := by
    obtain rfl := Option.some.inj (hr.symm.trans rfl)
    rfl
  rcases (outcome_immutable run₁ run₂ hr).2 (by rw [hphase]; rfl) with
    ⟨row', hr', hsame, -⟩ | ⟨early, call, late, u, pruned, he, -, -, -, hp⟩
  · exact ⟨row', hr', hsame.result.trans hresult⟩
  · obtain ⟨t, q, hop, -⟩ := hp.maintenance
    have hmem : call ∈ trace done
        [(.recoverSafeRequests, ⟨6, "", none⟩), (.failRequest "r" "late", ⟨7, "", none⟩)] := by
      rw [he]
      exact List.mem_append_right _ List.mem_cons_self
    simp only [trace, List.mem_cons, List.not_mem_nil, or_false] at hmem
    rcases hmem with rfl | rfl <;> cases hop

end Wiii.Neko
