import Wiii.Neko.Signal.Origin

/-!
# Where a cursor stands

What the inbox answers for the cursor of a source and an account is where a call moved it last
(`lastMoved_of_cursor`), and as long as the account is not revoked it answers that
(`cursor_eq_movedTo`).
-/

namespace Wiii.Neko.Signal

variable {P : Platform} {calls : List Call} {db db' : Inbox} {source account : String}

/-- The texts of the cursors that were moved are within their bounds. -/
def MovesSized (events : List Event) : Prop :=
  ∀ source account cursor gap, .moved source account cursor gap ∈ events →
    source.utf8ByteSize ≤ 96 ∧ account.utf8ByteSize ≤ 256

theorem MovesSized.step {events : List Event} {e : Effect} (hs : MovesSized events)
    (h : EffectStep P db e db') : MovesSized (events ++ e.events) := by
  intro source account cursor gap hmem
  rcases List.mem_append.1 hmem with hmem | hmem
  · exact hs _ _ _ _ hmem
  · cases h with
    | writeCursor source' account' cursor' gap' updatedAt hsource haccount =>
      simp only [Effect.events, List.mem_singleton, Event.moved.injEq] at hmem
      obtain ⟨rfl, rfl, -⟩ := hmem
      exact ⟨size_of_boundedIdentifier hsource, size_of_boundedIdentifier haccount⟩
    | _ => simp [Effect.events] at hmem

theorem movesSized_of_run (hrun : Run (Step P) .empty calls db) : MovesSized (trace calls) :=
  empty_run_keeps (I := fun events _ => MovesSized events) (fun _ _ _ _ hs he => hs.step he) hrun
    (by simp [MovesSized])

theorem lastMoved_of_cursor (hD : P.Decrypts) (hrun : Run (Step P) .empty calls db)
    {checkpoint : SignalCursorCheckpoint}
    (h : SignalInbox.cursor P source account db = .ok (some checkpoint)) :
    lastMoved P (P.cursorKey source account) (trace calls) =
        some ⟨account, "", checkpoint.sourceCursor⟩ ∧ account.utf8ByteSize ≤ 256 := by
  obtain ⟨-, h⟩ := bind_unit_ok_iff.1 h
  obtain ⟨ha, h⟩ := bind_unit_ok_iff.1 h
  refine ⟨?_, size_of_boundedIdentifier ha⟩
  cases hrow : db.cursors.find? (P.cursorKey source account) with
  | none =>
    simp only [hrow] at h
    cases h
  | some row =>
    simp only [hrow] at h
    obtain ⟨⟨account', resource, cursor⟩, hopen, hanswer⟩ := bind_ok_iff.1 h
    split_ifs at hanswer with hbinding
    rw [not_or, not_not, not_not] at hbinding
    obtain ⟨rfl, rfl⟩ := hbinding
    obtain ⟨fields', hlast, hopen'⟩ := (sealed_of_run hD hrun).cursors _ _ hrow
    rw [hopen] at hopen'
    cases hopen'
    cases hanswer
    exact hlast

theorem moved_of_lastMoved (hC : P.CollisionFree) (hrun : Run (Step P) .empty calls db)
    (hs : source.utf8ByteSize ≤ 96) (ha : account.utf8ByteSize ≤ 256) {fields : PrivateSignalFields}
    (hlast : lastMoved P (P.cursorKey source account) (trace calls) = some fields) :
    ∃ gap, .moved source account fields.sourceCursor gap ∈ trace calls := by
  obtain ⟨event, hevent, hmoves⟩ := List.mem_filterMap.1 (List.mem_of_getLast? hlast)
  cases event with
  | moved source' account' cursor gap =>
    simp only [Event.movesTo, Option.ite_none_right_eq_some, Option.some.injEq] at hmoves
    obtain ⟨hkey, rfl⟩ := hmoves
    obtain ⟨hs', ha'⟩ := movesSized_of_run hrun _ _ _ _ hevent
    obtain ⟨rfl, rfl⟩ := cursorKey_injective hC hs' hs ha' ha hkey
    exact ⟨gap, hevent⟩
  | _ => simp [Event.movesTo] at hmoves

/-! ## Cursors that stay -/

/-- Every cursor that was moved is kept, unless its account was revoked. -/
def CursorsStay (P : Platform) (events : List Event) (db : Inbox) : Prop :=
  ∀ source account cursor gap, .moved source account cursor gap ∈ events →
    .revoked account ∈ events ∨ ∃ row, db.cursors.find? (P.cursorKey source account) = some row

theorem CursorsStay.step (hC : P.CollisionFree) {events : List Event} {e : Effect}
    (hsized : MovesSized events) (ho : CursorsOriginate P events db) (hs : CursorsStay P events db) (h : EffectStep P db e db') :
    CursorsStay P (events ++ e.events) db' := by
  intro source account cursor gap hmem
  cases h with
  | writeCursor source' account' cursor' gap' updatedAt =>
    rw [find?_writeCursorValues]
    split_ifs with hkey
    · exact .inr ⟨_, rfl⟩
    · rcases List.mem_append.1 hmem with hmem | hmem
      · exact (hs source account cursor gap hmem).imp_left (List.mem_append_left _)
      · rw [Effect.events, List.mem_singleton] at hmem
        cases hmem
        exact absurd rfl hkey
  | revoke account' current haccount =>
    replace hmem : .moved source account cursor gap ∈ events := by simpa [Effect.events] using hmem
    rcases hs source account cursor gap hmem with hrevoked | ⟨row, hrow⟩
    · exact .inl (List.mem_append_left _ hrevoked)
    · by_cases hash : row.accountGrantHash = P.accountHash account'
      · obtain ⟨source'', fields, -, hkey, hs'', ha'', hash'⟩ := ho _ _ hrow
        obtain ⟨hsource, ha⟩ := hsized source account cursor gap hmem
        obtain ⟨-, rfl⟩ := cursorKey_injective hC hsource hs'' ha ha'' hkey
        have hsame := accountHash_injective hC ha (size_of_boundedIdentifier haccount)
          (hash'.symm.trans hash)
        exact .inl (by simp [Effect.events, hsame])
      · refine .inr ⟨row, ?_⟩
        rw [Table.find?_deleteWhere, hrow, Option.filter_some, if_pos (by simpa using hash)]
  | forget =>
    rw [SignalInbox.cursors_forget]
    simpa [Effect.events] using hs source account cursor gap (by simpa [Effect.events] using hmem)
  | _ =>
    exact (hs source account cursor gap (by simpa [Effect.events] using hmem)).imp_left
      (List.mem_append_left _)

theorem cursorsStay_of_run (hC : P.CollisionFree) (hrun : Run (Step P) .empty calls db) :
    CursorsStay P (trace calls) db := by
  refine (empty_run_keeps (I := fun events db => MovesSized events ∧ CursorsOriginate P events db ∧
    CursorsStay P events db) ?_ hrun ⟨?_, ?_, ?_⟩).2.2
  · rintro events db e db' ⟨hsized, ho, hs⟩ he
    exact ⟨hsized.step he, ho.step hC he, hs.step hC hsized ho he⟩
  · simp [MovesSized]
  · simp [CursorsOriginate, Inbox.empty]
  · simp [CursorsStay]

def movedTo (P : Platform) (source account : String) (events : List Event) : Option String :=
  (lastMoved P (P.cursorKey source account) events).map PrivateSignalFields.sourceCursor

theorem cursor_eq_movedTo (hC : P.CollisionFree) (hD : P.Decrypts)
    (hrun : Run (Step P) .empty calls db) (hnever : .revoked account ∉ trace calls)
    {answer : Option SignalCursorCheckpoint} (h : SignalInbox.cursor P source account db = .ok answer) :
    answer.map SignalCursorCheckpoint.sourceCursor = movedTo P source account (trace calls) := by
  cases answer with
  | some checkpoint =>
    obtain ⟨hlast, -⟩ := lastMoved_of_cursor hD hrun h
    rw [movedTo, hlast]
    rfl
  | none =>
    obtain ⟨hs, h⟩ := bind_unit_ok_iff.1 h
    obtain ⟨ha, h⟩ := bind_unit_ok_iff.1 h
    cases hlast : lastMoved P (P.cursorKey source account) (trace calls) with
    | none =>
      rw [movedTo, hlast]
      rfl
    | some fields =>
      obtain ⟨gap, hmoved⟩ := moved_of_lastMoved hC hrun (size_of_boundedIdentifier hs)
        (size_of_boundedIdentifier ha) hlast
      obtain ⟨row, hrow⟩ := (cursorsStay_of_run hC hrun _ _ _ _ hmoved).resolve_left hnever
      simp only [hrow] at h
      obtain ⟨fields', -, h⟩ := bind_ok_iff.1 h
      split_ifs at h
      cases h

theorem movedTo_append_moved (events : List Event) (source' account' cursor : String) (gap : Bool) :
    movedTo P source account (events ++ [.moved source' account' cursor gap]) =
      if P.cursorKey source' account' = P.cursorKey source account then some cursor
      else movedTo P source account events := by
  rw [movedTo, lastMoved_append_moved]
  split_ifs <;> rfl

/-- The events do not move the cursor of the source and the account. -/
def Still (P : Platform) (source account : String) (events : List Event) : Prop :=
  ∀ event ∈ events, event.movesTo P (P.cursorKey source account) = none

theorem lastMoved_append_still {events still : List Event} (h : Still P source account still) :
    lastMoved P (P.cursorKey source account) (events ++ still) =
      lastMoved P (P.cursorKey source account) events := by
  rw [lastMoved, List.filterMap_append, List.filterMap_eq_nil_iff.2 h, List.append_nil, lastMoved]

theorem still_nil : Still P source account [] := by
  simp [Still]

theorem still_of_ne (hC : P.CollisionFree) {events : List Event} (hsized : MovesSized events)
    (hs : source.utf8ByteSize ≤ 96) (ha : account.utf8ByteSize ≤ 256)
    (h : ∀ source' account' cursor gap, .moved source' account' cursor gap ∈ events →
      source' = source → account' ≠ account) : Still P source account events := by
  intro event hevent
  cases event with
  | moved source' account' cursor gap =>
    obtain ⟨hs', ha'⟩ := hsized _ _ _ _ hevent
    refine if_neg fun hkey => ?_
    obtain ⟨hsource, haccount⟩ := cursorKey_injective hC hs' hs ha' ha hkey
    exact h _ _ _ _ hevent hsource haccount
  | _ => rfl

theorem movesSized_of_step (hrun : Run (Step P) .empty calls db) {call : Call}
    (hstep : Step P db call db') : MovesSized call.events := by
  intro source account cursor gap hmem
  refine movesSized_of_run (hrun.snoc hstep) source account cursor gap ?_
  rw [trace, List.flatMap_append]
  exact List.mem_append_right _ (by simpa using hmem)

theorem lastMoved_ingest {inputs : List SignalIngress} {admissions : List SignalAdmission}
    {last : SignalIngress} (hlast : inputs.getLast? = some last)
    (hlen : admissions.length = inputs.length) (hsource : last.sourceId = source)
    (haccount : last.accountGrantRef = account) (events : List Event) :
    lastMoved P (P.cursorKey source account)
      (events ++ (List.zipWith arrivalEvents inputs admissions).flatten) =
        some ⟨account, "", last.sourceCursor⟩ := by
  obtain ⟨init, rfl⟩ := List.getLast?_eq_some_iff.1 hlast
  rw [List.length_append, List.length_singleton] at hlen
  obtain ⟨init', last', rfl⟩ := List.eq_nil_or_concat admissions |>.resolve_left
    (by rintro rfl; simp at hlen)
  rw [List.concat_eq_append] at hlen ⊢
  rw [List.zipWith_append (by simpa using hlen.symm)]
  simp only [List.zipWith_cons_cons, List.zipWith_nil_right, List.flatten_append,
    List.flatten_cons, List.flatten_nil, List.append_nil, arrivalEvents]
  rw [List.append_cons (List.flatten _), ← List.append_assoc, lastMoved_append_moved, hsource,
    haccount, if_pos rfl]

theorem valid_of_arrival (hrun : Run (Step P) .empty calls db) {input : SignalIngress}
    {admission : SignalAdmission} (h : .arrival input admission ∈ trace calls) :
    P.validateIngress input = .ok () := by
  have hall := empty_run_keeps (I := fun events _ => ∀ input admission,
    Event.arrival input admission ∈ events → P.validateIngress input = .ok ()) ?_ hrun (by simp)
  · exact hall _ _ h
  · intro events db e db' hs he input admission hmem
    rcases List.mem_append.1 hmem with hmem | hmem
    · exact hs _ _ hmem
    · cases he with
      | insert valid | coalesce valid | drop valid =>
        simp only [Effect.events, List.mem_singleton, Event.arrival.injEq] at hmem
        rw [hmem.1]
        exact valid
      | _ => simp [Effect.events] at hmem

/-! ## Calls that leave a source alone -/

theorem mem_events_ingest {inputs : List SignalIngress} {admissions : List SignalAdmission}
    {event : Event} (h : event ∈ (List.zipWith arrivalEvents inputs admissions).flatten) :
    ∃ input ∈ inputs, (∃ admission, event = .arrival input admission) ∨
      event = .moved input.sourceId input.accountGrantRef input.sourceCursor input.gapDetected := by
  obtain ⟨input, hi, admission, -, hevent⟩ := arrival_of_mem h
  refine ⟨input, hi, ?_⟩
  simp only [arrivalEvents, List.mem_cons, List.not_mem_nil, or_false] at hevent
  exact hevent.imp (fun h => ⟨admission, h⟩) id

/-- The operation hands in nothing and moves no cursor under the source. -/
def Op.ForeignTo (source : String) : Op → Prop
  | .ingestBatch inputs _ => ∀ input ∈ inputs, input.sourceId ≠ source
  | .advanceCursor source' _ _ _ _ => source' ≠ source
  | _ => True

theorem source_ne_of_foreignTo {call : Call} (h : call.op.ForeignTo source) :
    (∀ input admission, .arrival input admission ∈ call.events → input.sourceId ≠ source) ∧
      ∀ source' account cursor gap, .moved source' account cursor gap ∈ call.events →
        source' ≠ source := by
  obtain ⟨op, answer⟩ := call
  unfold Call.events
  split
  · rename_i inputs now admissions hop hanswer
    cases hop
    constructor
    · intro input admission hmem
      obtain ⟨input', hi, ⟨admission', heq⟩ | heq⟩ := mem_events_ingest hmem
      · cases heq
        exact h input hi
      · cases heq
    · intro source' account cursor gap hmem
      obtain ⟨input, hi, ⟨admission', heq⟩ | heq⟩ := mem_events_ingest hmem
      · cases heq
      · simp only [Event.moved.injEq] at heq
        exact heq.1 ▸ h input hi
  · rename_i hop hanswer
    cases hop
    refine ⟨by simp, fun source' account cursor gap hmem => ?_⟩
    simp only [List.mem_singleton, Event.moved.injEq] at hmem
    exact hmem.1 ▸ h
  all_goals simp

/-- Calls that leave the source alone leave its cursors where they are. -/
theorem still_of_foreignTo (hC : P.CollisionFree) (hrun : Run (Step P) .empty calls db) {call : Call}
    (hstep : Step P db call db') (h : call.op.ForeignTo source) (hs : source.utf8ByteSize ≤ 96)
    (ha : account.utf8ByteSize ≤ 256) : Still P source account call.events :=
  still_of_ne hC (movesSized_of_step hrun hstep) hs ha fun _ _ _ _ hmem hsource =>
    absurd hsource ((source_ne_of_foreignTo h).2 _ _ _ _ hmem)

end Wiii.Neko.Signal
