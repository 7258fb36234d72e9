import Wiii.Neko.Signal.Leases

/-!
# Repeated operations

A deferral or a resolution that returned is recorded under its operation id with its signal and its action.  A later
call with the operation id compares these two and answers with the item as it is then.  So a repetition is answered as
the first call was exactly as long as the item shows what it showed (`replay_idempotent_iff`).
-/

namespace Wiii.Neko.Signal

open SignalInbox

variable {P : Platform}

/-! ## Calls with an operation id -/

/-- What a deferral or a resolution is called with, but for the readings of the clock. -/
structure TransitionArgs where
  signalId : String
  leaseId : String
  operationId : String
  action : String
  outcome : Option SignalOutcome
  sourceRevision : Option String
  availableAt : Option String
  deriving DecidableEq

def Op.args : Op → Option TransitionArgs
  | .defer request _ _ => some ⟨request.signalId, request.leaseId, request.operationId, "defer",
      none, none, some request.availableAt⟩
  | .resolve request _ => some ⟨request.signalId, request.leaseId, request.operationId, "resolve",
      some request.outcome, some request.sourceRevision, none⟩
  | _ => none

/-- What is checked of the call itself: its texts, and that a deferral is to a later time. -/
def Op.Admissible (P : Platform) : Op → Prop
  | .defer request now _ => boundedIdentifier request.signalId "signalId" 160 = .ok () ∧
      boundedIdentifier request.leaseId "leaseId" 160 = .ok () ∧
      boundedIdentifier request.operationId "operationId" 200 = .ok () ∧
      ∃ availableAt, P.parseFromRfc3339 request.availableAt = some availableAt ∧ now < availableAt
  | .resolve request _ => boundedIdentifier request.signalId "signalId" 160 = .ok () ∧
      boundedIdentifier request.leaseId "leaseId" 160 = .ok () ∧
      boundedIdentifier request.operationId "operationId" 200 = .ok () ∧
      boundedOpaque request.sourceRevision "sourceRevision" 512 = .ok ()
  | _ => False

/-- The transition that a call asks for, with the reading it takes place at. -/
def Op.request (P : Platform) : Op → Option (SignalTransition × Instant)
  | .defer request _ current =>
    (P.parseFromRfc3339 request.availableAt).map fun availableAt =>
      (deferral P request availableAt, current)
  | .resolve request current => some (resolution P request, current)
  | _ => none

/-- The request has the signal, the operation id and the action of the call. -/
structure Requests (request : SignalTransition) (a : TransitionArgs) : Prop where
  signalId : request.signalId = a.signalId
  operationId : request.operationId = a.operationId
  action : request.action = a.action
  closes : request.action = "resolve" → request.nextState.isTerminal

theorem requests_of_request {op : Op} {a : TransitionArgs} {request : SignalTransition}
    {current : Instant} (ha : op.args = some a) (h : op.request P = some (request, current)) :
    Requests request a := by
  cases op with
  | defer r now c =>
    obtain ⟨availableAt, -, h⟩ := Option.map_eq_some_iff.1 h
    cases ha
    cases h
    exact ⟨rfl, rfl, rfl, fun h => absurd h (by simp [deferral])⟩
  | resolve r c =>
    cases ha
    cases h
    refine ⟨rfl, rfl, rfl, fun _ => ?_⟩
    simp only [resolution]
    split_ifs <;> rfl
  | _ => cases ha

theorem exists_request {op : Op} (h : op.Admissible P) :
    ∃ request current, op.request P = some (request, current) := by
  cases op with
  | defer r now c =>
    obtain ⟨-, -, -, availableAt, hparse, -⟩ := h
    exact ⟨_, _, by rw [Op.request, hparse]; rfl⟩
  | resolve r c => exact ⟨_, _, rfl⟩
  | _ => exact h.elim

theorem apply_ok_iff {op : Op} {a : TransitionArgs} (ha : op.args = some a) {db : Inbox}
    {result : Answer × Inbox} : op.apply P db = .ok result ↔ op.Admissible P ∧
      ∃ request current item db', op.request P = some (request, current) ∧
        transition P request current db = .ok (item, db') ∧ result = (.item item, db') := by
  cases op with
  | defer r now c =>
    simp only [Op.apply, SignalInbox.defer, map_ok_iff, bind_unit_ok_iff, Op.Admissible, Op.request]
    simp only [bind_ok_iff, ite_error_ok_iff, Platform.parseTimestamp_ok_iff, not_le]
    constructor
    · rintro ⟨⟨item, db'⟩, ⟨h₁, h₂, h₃, availableAt, hparse, hlt, ht⟩, rfl⟩
      exact ⟨⟨h₁, h₂, h₃, availableAt, hparse, hlt⟩, _, _, item, db', by rw [hparse]; rfl, ht, rfl⟩
    · rintro ⟨⟨h₁, h₂, h₃, availableAt, hparse, hlt⟩, request, current, item, db', hr, ht, rfl⟩
      rw [hparse] at hr
      cases hr
      exact ⟨(item, db'), ⟨h₁, h₂, h₃, availableAt, hparse, hlt, ht⟩, rfl⟩
  | resolve r c =>
    simp only [Op.apply, SignalInbox.resolve, map_ok_iff, bind_unit_ok_iff, Op.Admissible,
      Op.request]
    constructor
    · rintro ⟨⟨item, db'⟩, ⟨h₁, h₂, h₃, h₄, ht⟩, rfl⟩
      exact ⟨⟨h₁, h₂, h₃, h₄⟩, _, _, item, db', rfl, ht, rfl⟩
    · rintro ⟨⟨h₁, h₂, h₃, h₄⟩, request, current, item, db', hr, ht, rfl⟩
      cases hr
      exact ⟨(item, db'), ⟨h₁, h₂, h₃, h₄, ht⟩, rfl⟩
  | _ => cases ha

theorem apply_ok_iff_of_recorded {op : Op} {a : TransitionArgs} (ha : op.args = some a) {db : Inbox}
    {row : OperationRow} (hrow : db.operations.find? a.operationId = some row)
    {result : Answer × Inbox} : op.apply P db = .ok result ↔ op.Admissible P ∧
      row.signalId = a.signalId ∧ row.action = a.action ∧
        ∃ item, readById P a.signalId db = .ok item ∧ result = (.item item, db) := by
  rw [apply_ok_iff ha]
  refine and_congr_right fun hadm => ?_
  constructor
  · rintro ⟨request, current, item, db', hr, ht, rfl⟩
    obtain ⟨hs, ho, hact, -⟩ := requests_of_request ha hr
    obtain ⟨hread, ⟨rfl, row', hrow', hs', hact'⟩ | ht⟩ := transition_ok ht
    · rw [ho, hrow] at hrow'
      cases hrow'
      exact ⟨hs'.trans hs, hact'.trans hact, item, hs ▸ hread, rfl⟩
    · have hfresh := ht.fresh
      rw [ho, hrow] at hfresh
      cases hfresh
  · rintro ⟨hs, hact, item, hread, rfl⟩
    obtain ⟨request, current, hr⟩ := exists_request hadm
    obtain ⟨hs', ho, hact', -⟩ := requests_of_request ha hr
    refine ⟨request, current, item, db, hr, ?_, rfl⟩
    unfold transition
    rw [ho, hrow]
    simp only
    rw [if_neg (by rw [hs, hs', hact, hact']; simp), hs', hread]
    rfl

/-! ## Records are kept -/

/-- The operation id is recorded with this signal and action. -/
def Recorded (a : TransitionArgs) (db : Inbox) : Prop :=
  ∃ row, db.operations.find? a.operationId = some row ∧ row.signalId = a.signalId ∧
    row.action = a.action

theorem EffectStep.operation {db db' : Inbox} {e : Effect} (h : EffectStep P db e db') {o : String}
    {row : OperationRow} (hrow : db.operations.find? o = some row) :
    db'.operations.find? o = some row := by
  cases h with
  | transition found held hopen hins =>
    rw [Table.find?_insert? hins, if_neg]
    · exact hrow
    · rintro rfl
      rw [(Table.insert?_eq_some_iff.1 hins).1] at hrow
      cases hrow
  | forget =>
    rw [SignalInbox.forget]
    exact hrow
  | _ => exact hrow

theorem Recorded.run {a : TransitionArgs} {db db' : Inbox} {calls : List Call}
    (hs : Recorded a db) (h : Run (Step P) db calls db') : Recorded a db' := by
  obtain ⟨row, hrow, hsame⟩ := hs
  exact ⟨row, run_keeps (I := fun _ db => db.operations.find? a.operationId = some row)
    (fun _ _ _ _ hs he => he.operation hs) (l := []) h hrow, hsame⟩

theorem recorded_of_step {op : Op} {a : TransitionArgs} {answer : Answer} {db db' : Inbox}
    (ha : op.args = some a) (h : Step P db ⟨op, .ok answer⟩ db') : Recorded a db' ∧
      ∃ item, answer = .item item ∧ readById P a.signalId db' = .ok item := by
  obtain ⟨hadm, request, current, item, db₁, hr, ht, heq⟩ := (apply_ok_iff ha).1 h.apply_eq
  cases heq
  obtain ⟨hs, ho, hact, -⟩ := requests_of_request ha hr
  obtain ⟨hread, ⟨rfl, row, hrow, hs', hact'⟩ | ht⟩ := transition_ok ht
  · exact ⟨⟨row, ho ▸ hrow, hs'.trans hs, hact'.trans hact⟩, item, rfl, hs ▸ hread⟩
  · refine ⟨⟨operationRow request (P.timestamp current), ?_, hs, hact⟩, item, rfl, hs ▸ hread⟩
    have hkey : a.operationId = (operationRow request (P.timestamp current)).operationId := ho.symm
    rw [Table.find?_insert? ht.operations, if_pos hkey]

/-! ## What an item shows -/

/-- The two rows read as the same item. -/
structure Shows (P : Platform) (r r' : StoredSignal) : Prop where
  signalId : r'.signalId = r.signalId
  sourceId : r'.sourceId = r.sourceId
  appId : r'.appId = r.appId
  kind : r'.kind = r.kind
  observedAt : r'.observedAt = r.observedAt
  availableAt : r'.availableAt = r.availableAt
  expiresAt : r'.expiresAt = r.expiresAt
  priorityClass : r'.priorityClass = r.priorityClass
  state : r'.state = r.state
  contentAvailable : r'.contentAvailable = r.contentAvailable
  gapDetected : r'.gapDetected = r.gapDetected
  coalescedCount : r'.coalescedCount = r.coalescedCount
  lastOutcome : r'.lastOutcome = r.lastOutcome
  fields : SignalInbox.decrypt P r' = SignalInbox.decrypt P r
  claim : claimOf r' = claimOf r

theorem Shows.item_eq {r r' : StoredSignal} (h : Shows P r r') :
    SignalInbox.item P r' = SignalInbox.item P r := by
  unfold SignalInbox.item
  rw [h.fields, h.claim, h.signalId, h.sourceId, h.appId, h.kind, h.observedAt, h.availableAt,
    h.expiresAt, h.priorityClass, h.state, h.contentAvailable, h.gapDetected, h.coalescedCount,
    h.lastOutcome]

theorem shows_of_item_eq {r r' : StoredSignal} {item : SignalItem}
    (h : SignalInbox.item P r = .ok item) (h' : SignalInbox.item P r' = .ok item) :
    Shows P r r' := by
  obtain ⟨fields, hf, h⟩ := bind_ok_iff.1 h
  obtain ⟨claim, hc, h⟩ := bind_ok_iff.1 h
  obtain ⟨-, h⟩ := ite_error_ok_iff.1 h
  obtain ⟨fields', hf', h'⟩ := bind_ok_iff.1 h'
  obtain ⟨claim', hc', h'⟩ := bind_ok_iff.1 h'
  obtain ⟨-, h'⟩ := ite_error_ok_iff.1 h'
  have heq := (Except.ok.inj h').trans (Except.ok.inj h).symm
  rw [SignalItem.mk.injEq] at heq
  obtain ⟨h₁, h₂, h₃, h₄, h₅, h₆, h₇, h₈, h₉, h₁₀, h₁₁, h₁₂, h₁₃, h₁₄, h₁₅, h₁₆, h₁₇⟩ := heq
  refine ⟨h₁, h₂, h₄, h₆, h₈, h₉, h₁₀, h₁₁, h₁₂, h₁₄, h₁₅, h₁₆, h₁₇, ?_, by rw [hc, hc', h₁₃]⟩
  obtain ⟨account, resource, cursor⟩ := fields
  obtain ⟨account', resource', cursor'⟩ := fields'
  rw [hf, hf']
  simp only at h₃ h₅ h₇
  rw [h₃, h₅, h₇]

/-- The counts of the row fit into the item. -/
def Readable (r : StoredSignal) : Prop :=
  r.coalescedCount < 2 ^ 32 ∧ ∃ claim, claimOf r = .ok claim

theorem exists_item_iff {r : StoredSignal} {fields : PrivateSignalFields}
    (hf : SignalInbox.decrypt P r = .ok fields) :
    (∃ item, SignalInbox.item P r = .ok item) ↔ Readable r := by
  constructor
  · rintro ⟨item, h⟩
    obtain ⟨fields', -, h⟩ := bind_ok_iff.1 h
    obtain ⟨claim, hc, h⟩ := bind_ok_iff.1 h
    exact ⟨not_le.1 (ite_error_ok_iff.1 h).1, claim, hc⟩
  · rintro ⟨hcount, claim, hc⟩
    unfold SignalInbox.item
    rw [hf, hc]
    exact ⟨_, if_neg (not_le.2 hcount)⟩

theorem readById_ok_iff {id : String} {db : Inbox} {item : SignalItem} :
    readById P id db = .ok item ↔ ∃ r, db.items.find? id = some r ∧
      SignalInbox.item P r = .ok item := by
  unfold readById
  cases db.items.find? id <;> simp

/-! ## Resolved items stay resolved -/

theorem EffectStep.inserted_id {db db' : Inbox} {e : Effect} (h : EffectStep P db e db')
    {id : String} {r' : StoredSignal} (hnone : db.items.find? id = none)
    (hr' : db'.items.find? id = some r') :
    id = "signal-" ++ P.newV4 db.drawn ∧ db.drawn < db'.drawn := by
  have hrow := h.row id
  rw [hnone, hr'] at hrow
  cases hrow with
  | inserted input updatedAt seq nonce valid =>
    cases h with
    | insert => exact ⟨rfl, by simp⟩

/-- The ids of rows were drawn, and what is recorded as resolved is closed or gone for good. -/
structure Settled (P : Platform) (db : Inbox) : Prop where
  drawn : ∀ id r, db.items.find? id = some r → ∃ n < db.drawn, id = "signal-" ++ P.newV4 n
  resolved : ∀ o row, db.operations.find? o = some row → row.action = "resolve" →
    (∃ n < db.drawn, row.signalId = "signal-" ++ P.newV4 n) ∧
      ∀ r, db.items.find? row.signalId = some r → r.state.isTerminal

/-- A recorded resolution closes its item. -/
def Effect.Closes (e : Effect) : Prop :=
  ∀ request current, e = .transition request current → request.action = "resolve" →
    request.nextState.isTerminal

theorem closes_of_of {op : Op} {e : Effect} (h : e.Of P op) : e.Closes := by
  rintro request current rfl haction
  rcases h with ⟨r, now, c, availableAt, -, -, -, rfl, -⟩ | ⟨r, c, -, rfl, -⟩
  · exact absurd haction (by simp [deferral])
  · simp only [resolution]
    split_ifs <;> rfl

theorem EffectStep.operation_inv {db db' : Inbox} {e : Effect} (h : EffectStep P db e db')
    {o : String} {row : OperationRow} (hrow : db'.operations.find? o = some row) :
    db.operations.find? o = some row ∨ ∃ request current r, e = .transition request current ∧
      row = operationRow request current ∧ db.items.find? request.signalId = some r ∧
      db'.items.find? request.signalId = some (transitionedRow request current r) := by
  cases h with
  | @transition request current r operations found held hopen hins =>
    rw [Table.find?_insert? hins] at hrow
    split_ifs at hrow with ho
    · cases hrow
      refine .inr ⟨request, current, r, rfl, rfl, found, ?_⟩
      rw [Items.find?_updateWhere, found, Option.map_some, if_pos held]
    · exact .inl hrow
  | forget =>
    rw [SignalInbox.forget] at hrow
    exact .inl hrow
  | _ => exact .inl hrow

theorem Settled.step (hF : P.Fresh) {db db' : Inbox} {e : Effect} (hs : Settled P db)
    (he : e.Closes) (h : EffectStep P db e db') : Settled P db' where
  drawn := by
    intro id r' hr'
    cases hr : db.items.find? id with
    | some r =>
      obtain ⟨n, hn, hid⟩ := hs.drawn id r hr
      exact ⟨n, hn.trans_le h.drawn_le, hid⟩
    | none =>
      obtain ⟨hid, hlt⟩ := h.inserted_id hr hr'
      exact ⟨db.drawn, hlt, hid⟩
  resolved := by
    intro o row hrow haction
    rcases h.operation_inv hrow with hold | ⟨request, current, r, rfl, hop, hr, hr'⟩
    · obtain ⟨⟨n, hn, hid⟩, closed⟩ := hs.resolved o row hold haction
      refine ⟨⟨n, hn.trans_le h.drawn_le, hid⟩, fun r' hr' => ?_⟩
      cases hr : db.items.find? row.signalId with
      | some r =>
        have hrow := h.row row.signalId
        rw [hr, hr'] at hrow
        rcases hrow.terminal (closed r hr) with same | gone
        · rw [Option.some.inj same]
          exact closed r hr
        · cases gone
      | none =>
        obtain ⟨hid', -⟩ := h.inserted_id hr hr'
        rw [hid, String.append_right_inj] at hid'
        exact absurd (hF hid') (by omega)
    · subst hop
      obtain ⟨n, hn, hid⟩ := hs.drawn request.signalId r hr
      refine ⟨⟨n, hn.trans_le h.drawn_le, hid⟩, fun s hs' => ?_⟩
      have hsame := hr'.symm.trans hs'
      cases hsame
      exact he request current rfl haction

theorem settled_of_run (hF : P.Fresh) {calls : List Call} {db : Inbox}
    (h : Run (Step P) .empty calls db) : Settled P db := by
  refine run_keeps_of (I := fun _ db => Settled P db) (l := []) (fun _ _ hof => closes_of_of hof)
    (fun _ _ _ _ he hs hstep => hs.step hF he hstep) h ⟨?_, ?_⟩
  · simp [Inbox.empty]
  · simp [Inbox.empty]

/-- A closed item stays as it is until it is pruned, and its id does not come back. -/
theorem closed_run (hF : P.Fresh) {calls : List Call} {db db' : Inbox} {id : String}
    {r : StoredSignal} (hr : db.items.find? id = some r) (ht : r.state.isTerminal)
    (hid : ∃ n < db.drawn, id = "signal-" ++ P.newV4 n) (h : Run (Step P) db calls db') :
    db'.items.find? id = some r ∨ db'.items.find? id = none := by
  have hkeep := run_keeps (l := []) (I := fun _ db =>
    (db.items.find? id = some r ∨ db.items.find? id = none) ∧
      ∃ n < db.drawn, id = "signal-" ++ P.newV4 n) ?_ h ⟨.inl hr, hid⟩
  · exact hkeep.1
  · rintro _ db e db' ⟨hrow | hnone, n, hn, hid⟩ hstep
    · have hchange := hstep.row id
      rw [hrow] at hchange
      exact ⟨hchange.terminal ht, n, hn.trans_le hstep.drawn_le, hid⟩
    · refine ⟨.inr ?_, n, hn.trans_le hstep.drawn_le, hid⟩
      cases hr' : db'.items.find? id with
      | none => rfl
      | some r' =>
        obtain ⟨hid', -⟩ := hstep.inserted_id hnone hr'
        rw [hid, String.append_right_inj] at hid'
        exact absurd (hF hid') (by omega)

/-! ## Repetitions -/

/-- The later call is for another signal, outcome, lease or source revision. -/
def Differ (a b : TransitionArgs) : Prop :=
  b.signalId ≠ a.signalId ∨ b.outcome ≠ a.outcome ∨ b.leaseId ≠ a.leaseId ∨
    b.sourceRevision ≠ a.sourceRevision

/-- A repetition is answered with the item and changes nothing, and a call that differs is refused. -/
def Idempotent (P : Platform) (a b : TransitionArgs) (item : SignalItem) (later : Op) (db : Inbox) :
    Prop :=
  (b = a → later.apply P db = .ok (.item item, db)) ∧
    (Differ a b → ∃ error, later.apply P db = .error error)

/-- A repetition finds the item as the first call left it in `db₁`, and a call that differs does not pass its checks, or
names or finds nothing. -/
def Replayable (P : Platform) (a b : TransitionArgs) (later : Op) (db₁ db : Inbox) : Prop :=
  (b = a → later.Admissible P ∧
    (b.action = "resolve" → ∃ r, db.items.find? b.signalId = some r) ∧
    (b.action = "defer" → ∃ r₁ r, db₁.items.find? b.signalId = some r₁ ∧
      db.items.find? b.signalId = some r ∧ Shows P r₁ r)) ∧
  (Differ a b → ¬ later.Admissible P ∨ b.signalId ≠ a.signalId ∨ b.action ≠ a.action ∨
    ∀ r, db.items.find? b.signalId = some r → ¬ Readable r)

theorem action_of_args {op : Op} {a : TransitionArgs} (h : op.args = some a) :
    a.action = "resolve" ∨ a.action = "defer" := by
  cases op <;> cases h
  · exact .inr rfl
  · exact .inl rfl

/-- A later call under the operation id reads the item the first call answered with. -/
theorem reads_same_iff (hF : P.Fresh) {calls : List Call} {db₁ db : Inbox} {a : TransitionArgs}
    {item : SignalItem} (haction : a.action = "resolve" ∨ a.action = "defer")
    (settled : Settled P db₁) (recorded : Recorded a db₁)
    (read : readById P a.signalId db₁ = .ok item) (h : Run (Step P) db₁ calls db) :
    readById P a.signalId db = .ok item ↔
      (a.action = "resolve" → ∃ r, db.items.find? a.signalId = some r) ∧
      (a.action = "defer" → ∃ r₁ r, db₁.items.find? a.signalId = some r₁ ∧
        db.items.find? a.signalId = some r ∧ Shows P r₁ r) := by
  obtain ⟨r₁, hr₁, hitem⟩ := readById_ok_iff.1 read
  rw [readById_ok_iff]
  constructor
  · rintro ⟨r, hr, hitem'⟩
    exact ⟨fun _ => ⟨r, hr⟩, fun _ => ⟨r₁, r, hr₁, hr, shows_of_item_eq hitem hitem'⟩⟩
  · rintro ⟨hresolve, hdefer⟩
    rcases haction with haction | haction
    · obtain ⟨row, hrow, hs, hact⟩ := recorded
      obtain ⟨hid, closed⟩ := settled.resolved _ row hrow (hact.trans haction)
      rw [hs] at hid closed
      obtain ⟨r, hr⟩ := hresolve haction
      rcases closed_run hF hr₁ (closed r₁ hr₁) hid h with same | gone
      · exact ⟨r₁, same, hitem⟩
      · rw [gone] at hr
        cases hr
    · obtain ⟨r₁', r, hr₁', hr, shows⟩ := hdefer haction
      rw [hr₁] at hr₁'
      cases hr₁'
      exact ⟨r, hr, shows.item_eq.trans hitem⟩

theorem not_reads_iff (hD : P.Decrypts) {calls : List Call} {db : Inbox}
    (h : Run (Step P) .empty calls db) (id : String) :
    (∀ item, readById P id db ≠ .ok item) ↔ ∀ r, db.items.find? id = some r → ¬ Readable r := by
  constructor
  · rintro hnone r hr hread
    obtain ⟨input, -, opens⟩ := (sealed_of_run hD h).items id r hr
    obtain ⟨item, hitem⟩ := (exists_item_iff opens).2 hread
    exact hnone item (readById_ok_iff.2 ⟨r, hr, hitem⟩)
  · intro hnone item hread
    obtain ⟨r, hr, hitem⟩ := readById_ok_iff.1 hread
    obtain ⟨input, -, opens⟩ := (sealed_of_run hD h).items id r hr
    exact hnone r hr ((exists_item_iff opens).1 ⟨item, hitem⟩)

/-- In every later state a call with its operation id behaves as a repetition should exactly when `Replayable` holds. -/
theorem replay_idempotent_iff (hD : P.Decrypts) (hF : P.Fresh) {calls₀ calls : List Call}
    {db₀ db₁ db : Inbox} {first later : Op} {a b : TransitionArgs} {item : SignalItem}
    (h₀ : Run (Step P) .empty calls₀ db₀) (ha : first.args = some a)
    (h₁ : Step P db₀ ⟨first, .ok (.item item)⟩ db₁) (h : Run (Step P) db₁ calls db)
    (hb : later.args = some b) (hid : b.operationId = a.operationId) :
    Idempotent P a b item later db ↔ Replayable P a b later db₁ db := by
  have hrun₁ := h₀.snoc h₁
  obtain ⟨recorded, item', heq, read⟩ := recorded_of_step ha h₁
  cases heq
  obtain ⟨row, hrow, hs, hact⟩ := recorded.run h
  rw [← hid] at hrow
  refine and_congr (forall_congr' fun same => ?_) (forall_congr' fun _ => ?_)
  · subst same
    rw [apply_ok_iff_of_recorded hb hrow, ← reads_same_iff hF (action_of_args hb)
      (settled_of_run hF hrun₁) recorded read h]
    refine and_congr_right fun _ => ?_
    constructor
    · rintro ⟨-, -, item', hread, heq⟩
      cases heq
      exact hread
    · exact fun hread => ⟨hs, hact, item, hread, rfl⟩
  · rw [exists_error_iff, ← not_reads_iff hD (hrun₁.append h)]
    simp only [ne_eq, apply_ok_iff_of_recorded hb hrow, hs, hact]
    constructor
    · intro hnone
      by_contra hall
      simp only [not_or, not_not, not_forall] at hall
      obtain ⟨hadm, hsame, hsame', item', hread⟩ := hall
      exact hnone _ ⟨hadm, hsame.symm, hsame'.symm, item', hread, rfl⟩
    · rintro hany result ⟨hadm, hsame, hsame', item', hread, -⟩
      rcases hany with h | h | h | h
      · exact h hadm
      · exact h hsame.symm
      · exact h hsame'.symm
      · exact h item' hread

/-- The arguments of `leasedResolution`. -/
def resolutionArgs : TransitionArgs :=
  ⟨"signal-", "signal-lease-000", "op-1", "resolve", some .handled, some "41", none⟩

theorem replay_idempotent_iff_leasedMail : ∃ item db₁,
    Step reference (execute reference leasedMail .empty).2
      ⟨.resolve leasedResolution (reference.clock 8 1 0), .ok (.item item)⟩ db₁ ∧
      (Idempotent reference resolutionArgs resolutionArgs item
          (.resolve leasedResolution (reference.clock 8 2 0)) db₁ ↔
        Replayable reference resolutionArgs resolutionArgs
          (.resolve leasedResolution (reference.clock 8 2 0)) db₁ db₁) := by
  obtain ⟨answer, db₁, hstep⟩ := step_of_isOk reference
    (.resolve leasedResolution (reference.clock 8 1 0))
    (execute reference leasedMail .empty).2 (by decide +kernel)
  obtain ⟨-, item, rfl, -⟩ := recorded_of_step (a := resolutionArgs) rfl hstep
  exact ⟨item, db₁, hstep, replay_idempotent_iff reference.decrypts reference.fresh
    (run_execute _ _ _) rfl hstep (.nil _) rfl rfl⟩

/-- The operation id is accepted again for a failure of another revision, under a lease that never was. -/
theorem reused_operation_accepted :
    let other : SignalResolveRequest := { leasedResolution with
      leaseId := "signal-lease-x", outcome := .failed, sourceRevision := "42" }
    let run := execute reference (leasedMail ++
      [.resolve leasedResolution (reference.clock 8 1 0), .resolve other (reference.clock 8 1 1)])
      .empty
    run.1.map (fun call => call.answer.isOk) = [true, true, true, true] ∧
      run.2.items.rows.map StoredSignal.lastOutcome = [some .handled] := by
  decide +kernel

end Wiii.Neko.Signal
