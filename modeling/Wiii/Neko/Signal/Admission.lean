import Wiii.Neko.Signal.Origin
import Wiii.Neko.Signal.Specs

/-!
# No admitted event is lost

Right after a batch every ingress of it that was not a duplicate is in the newest waiting item of its coalescing key,
and this item opens to the last ingress of the batch admitted into it (`batch_represented`).
-/

namespace Wiii.Neko.Signal

open SignalInbox

variable {P : Platform}

/-! ## The newest waiting item -/

/-- The update leaves the coalescing key and the state alone. -/
structure KeepsWaiting (f : StoredSignal → StoredSignal) : Prop where
  coalesceHash : ∀ r, (f r).coalesceHash = r.coalesceHash
  state : ∀ r, (f r).state = r.state

theorem newestWaiting_updateWhere {f : StoredSignal → StoredSignal} (hf : KeepsKeys f)
    (hw : KeepsWaiting f) (p : StoredSignal → Bool) (hash : List UInt8) {db db' : Inbox}
    (hdb : db'.items = db.items.updateWhere p f hf) :
    newestWaiting hash db' = (newestWaiting hash db).map fun r => if p r then f r else r := by
  rw [newestWaiting, newestWaiting, ← List.getLast?_map, hdb]
  simp only [Items.rows, Items.updateWhere, Table.updateWhere]
  rw [List.filter_map]
  congr 2
  refine List.filter_congr fun r _ => ?_
  simp only [Function.comp_apply]
  split_ifs <;> simp [hw.coalesceHash, hw.state]

theorem newestWaiting_of_rows_append {hash : List UInt8} {db db' : Inbox} {r : StoredSignal}
    (hw : r.state.isWaiting) (hrows : db'.items.rows = db.items.rows ++ [r]) :
    newestWaiting hash db' = if r.coalesceHash = hash then some r else newestWaiting hash db := by
  rw [newestWaiting, newestWaiting, hrows, List.filter_append]
  split_ifs with hh
  · rw [List.filter_cons_of_pos (by simp [hh, hw]), List.filter_nil, List.getLast?_concat]
  · rw [List.filter_cons_of_neg (by simp [hh]), List.filter_nil, List.append_nil]

/-- The id of the newest waiting item of a coalescing key. -/
def newestId (hash : List UInt8) (db : Inbox) : Option String :=
  (newestWaiting hash db).map StoredSignal.signalId

theorem newestId_congr {hash : List UInt8} {db db' : Inbox} (h : db'.items = db.items) :
    newestId hash db' = newestId hash db := by
  rw [newestId, newestId, newestWaiting, newestWaiting, h]

theorem newestId_updateWhere {f : StoredSignal → StoredSignal} (hf : KeepsKeys f)
    (hw : KeepsWaiting f) (p : StoredSignal → Bool) (hash : List UInt8) {db db' : Inbox}
    (hdb : db'.items = db.items.updateWhere p f hf) : newestId hash db' = newestId hash db := by
  rw [newestId, newestWaiting_updateWhere hf hw p hash hdb, Option.map_map, newestId]
  refine congrArg (fun g => Option.map g _) (funext fun r => ?_)
  simp only [Function.comp_apply]
  split_ifs <;> simp [hf.signalId]

theorem newestId_insert {db db' : Inbox} {input : SignalIngress} {signalId updatedAt : String}
    {items : Items} {nonce : Nonce} {ciphertext : List UInt8}
    (hi : db.items.insert? (insertedRow P input signalId updatedAt) (fun _ => rfl) = some items)
    (hdb : db'.items = items.updateWhere (fun r => decide (r.seq = items.lastSeq))
      (sealedRow nonce ciphertext) (keepsKeys_sealedRow nonce ciphertext)) (hash : List UInt8) :
    newestId hash db' = if P.coalesceHash input = hash then some signalId else newestId hash db := by
  obtain ⟨-, hrows, -⟩ := Items.insert?_eq_some hi
  have hnewest := @newestWaiting_of_rows_append hash db { db with items := items } _ rfl hrows
  have hsealed : newestId hash db' = newestId hash { db with items := items } :=
    newestId_updateWhere (keepsKeys_sealedRow _ _) ⟨fun _ => rfl, fun _ => rfl⟩ _ hash hdb
  rw [hsealed, newestId, hnewest]
  change Option.map _ (if P.coalesceHash input = hash then _ else _) = _
  split_ifs <;> rfl

/-! ## What a batch does -/

def Effect.Ingests : Effect → Prop
  | .insert _ _ _ | .coalesce _ _ _ | .drop _ _ | .writeCursor _ _ _ _ _ | .prune | .forget => True
  | _ => False

theorem ingests_of_of {inputs : List SignalIngress} {now : Instant} {e : Effect}
    (h : e.Of P (.ingestBatch inputs now)) : e.Ingests := by
  cases e with
  | release | reopen | expire => exact h.elim
  | lease item current => obtain ⟨request, now, hop, -⟩ := h; cases hop
  | transition request current =>
    rcases h with ⟨r, now, c, availableAt, hop, -⟩ | ⟨r, c, hop, -⟩ <;> cases hop
  | revoke account current => obtain ⟨request, now, hop, -⟩ := h; cases hop
  | _ => trivial

theorem EffectStep.newestId_eq {db db' : Inbox} {e : Effect} (he : e.Ingests)
    (h : EffectStep P db e db') (hash : List UInt8) : newestId hash db' = newestId hash db ∨
      ∃ input updatedAt id, e = .insert input updatedAt id ∧ P.coalesceHash input = hash ∧
        newestId hash db = none ∧ newestId hash db' = some id := by
  cases h with
  | @insert input updatedAt items dedupe valid hnone room hi hd =>
    rw [newestId_insert hi rfl]
    split_ifs with hh
    · refine .inr ⟨input, updatedAt, _, rfl, hh, ?_, rfl⟩
      rw [newestId, ← hh, hnone, Option.map_none]
    · exact .inl rfl
  | coalesce valid newest hd =>
    exact .inl (newestId_updateWhere (keepsKeys_coalescedRow _ _ _ _) ⟨fun _ => rfl, fun _ => rfl⟩ _
      hash rfl)
  | drop => exact .inl rfl
  | prune => exact .inl (by rw [newestId, newestWaiting_prune, newestId])
  | forget => exact .inl (newestId_congr (items_forget db))
  | writeCursor => exact .inl (newestId_congr rfl)
  | _ => exact he.elim

theorem EffectStep.newestId_arrival {db db' : Inbox} {e : Effect} (h : EffectStep P db e db')
    {input : SignalIngress} {admission : SignalAdmission}
    (hmem : .arrival input admission ∈ e.events) (hne : admission.outcome ≠ .deduplicated) :
    newestId (P.coalesceHash input) db' = some admission.signalId := by
  cases h with
  | insert valid hnone room hi hd =>
    rw [Effect.events, List.mem_singleton] at hmem
    cases hmem
    rw [newestId_insert hi rfl, if_pos rfl]
  | coalesce valid newest hd =>
    rw [Effect.events, List.mem_singleton] at hmem
    cases hmem
    rw [newestId_updateWhere (keepsKeys_coalescedRow _ _ _ _) ⟨fun _ => rfl, fun _ => rfl⟩ _ _ rfl,
      newestId, newest, Option.map_some]
  | drop =>
    rw [Effect.events, List.mem_singleton] at hmem
    cases hmem
    exact absurd rfl hne
  | _ => simp [Effect.events] at hmem

/-- What the events admitted is the newest waiting item of its key. -/
def Represented (P : Platform) (events : List Event) (db : Inbox) : Prop :=
  ∀ input admission, .arrival input admission ∈ events → admission.outcome ≠ .deduplicated →
    newestId (P.coalesceHash input) db = some admission.signalId

theorem Represented.step {events : List Event} {db db' : Inbox} {e : Effect} (he : e.Ingests)
    (hs : Represented P events db) (h : EffectStep P db e db') :
    Represented P (events ++ e.events) db' := by
  intro input admission hmem hne
  rcases List.mem_append.1 hmem with hmem | hmem
  · have hold := hs input admission hmem hne
    rcases h.newestId_eq he (P.coalesceHash input) with hsame | ⟨_, _, _, _, _, hnone, _⟩
    · exact hsame.trans hold
    · -- nothing of this key was waiting
      rw [hold] at hnone
      cases hnone
  · exact h.newestId_arrival hmem hne

def CursorsKept (P : Platform) (events : List Event) (db : Inbox) : Prop :=
  ∀ source account cursor gap, .moved source account cursor gap ∈ events →
    ∃ row, db.cursors.find? (P.cursorKey source account) = some row

theorem CursorsKept.step {events : List Event} {db db' : Inbox} {e : Effect} (he : e.Ingests)
    (hs : CursorsKept P events db) (h : EffectStep P db e db') :
    CursorsKept P (events ++ e.events) db' := by
  intro source account cursor gap hmem
  cases h with
  | writeCursor source' account' cursor' gap' updatedAt =>
    rw [find?_writeCursorValues]
    split_ifs with hkey
    · exact ⟨_, rfl⟩
    · rcases List.mem_append.1 hmem with hmem | hmem
      · exact hs source account cursor gap hmem
      · rw [Effect.events, List.mem_singleton] at hmem
        cases hmem
        exact absurd rfl hkey
  | forget =>
    rw [cursors_forget]
    exact hs source account cursor gap (by simpa [Effect.events] using hmem)
  | insert | coalesce | drop | prune =>
    exact hs source account cursor gap (by simpa [Effect.events] using hmem)
  | _ => exact he.elim

theorem length_le_of_step {db db' : Inbox} {e : Effect} (hs : db.items.rows.length ≤ maxItems)
    (h : EffectStep P db e db') : db'.items.rows.length ≤ maxItems := by
  cases h with
  | insert valid hnone room hi hd =>
    rw [Items.length_updateWhere, (Items.insert?_eq_some hi).2.1, List.length_append]
    exact room
  | prune =>
    refine le_trans ?_ hs
    rw [SignalInbox.prune, Items.rows_deleteWhere]
    exact List.length_filter_le _ _
  | forget => rwa [items_forget]
  | writeCursor | drop => exact hs
  | release => exact (Items.length_updateWhere _ _ _ (keepsKeys_released _)).trans_le hs
  | reopen => exact (Items.length_updateWhere _ _ _ (keepsKeys_reopened _)).trans_le hs
  | expire => exact (Items.length_updateWhere _ _ _ (keepsKeys_expiredRow _)).trans_le hs
  | coalesce => exact (Items.length_updateWhere _ _ _ (keepsKeys_coalescedRow _ _ _ _)).trans_le hs
  | lease => exact (Items.length_updateWhere _ _ _ (keepsKeys_claimedRow _ _ _ _)).trans_le hs
  | transition => exact (Items.length_updateWhere _ _ _ (keepsKeys_transitionedRow _ _)).trans_le hs
  | revoke => exact (Items.length_updateWhere _ _ _ (keepsKeys_revokedRow _)).trans_le hs

theorem mem_of_ensureCapacity {db db' : Inbox} (h : ensureCapacity db = .ok db') {r : StoredSignal}
    (hr : r ∈ db.items) (hopen : r.state.isOpen) : r ∈ db'.items := by
  obtain ⟨-, h⟩ := ite_error_ok_iff.1 h
  cases h
  rcases find?_prune db r.signalId with same | ⟨s, hs, ht, -⟩
  · rw [Items.find?_of_mem hr] at same
    exact Items.mem_of_find? same
  · rw [Items.find?_of_mem hr] at hs
    cases hs
    rw [SignalState.isTerminal_eq_not_isOpen, hopen] at ht
    cases ht

/-! ## What the answer says -/

theorem length_of_ingestAll {updatedAt : String} {inputs : List SignalIngress} {db db' : Inbox}
    {admissions : List SignalAdmission}
    (h : ingestAll P updatedAt inputs db = .ok (admissions, db')) :
    admissions.length = inputs.length := by
  induction inputs generalizing db admissions with
  | nil =>
    cases h
    rfl
  | cons input inputs ih =>
    obtain ⟨⟨admission, db₁⟩, -, h⟩ := bind_ok_iff.1 h
    obtain ⟨⟨admissions', db₂⟩, h₂, h⟩ := bind_ok_iff.1 h
    cases h
    exact congrArg Nat.succ (ih h₂)

theorem mem_arrivals {inputs : List SignalIngress} {admissions : List SignalAdmission}
    {input : SignalIngress} {admission : SignalAdmission}
    (h : (input, admission) ∈ inputs.zip admissions) {event : Event}
    (he : event ∈ arrivalEvents input admission) :
    event ∈ (List.zipWith arrivalEvents inputs admissions).flatten := by
  rw [← List.map_uncurry_zip_eq_zipWith]
  exact List.mem_flatten.2 ⟨_, List.mem_map.2 ⟨_, h, rfl⟩, he⟩

/-- The last ingress of the batch with the source and the account of this one. -/
def lastOf (inputs : List SignalIngress) (input : SignalIngress) : Option SignalIngress :=
  (inputs.filter fun i =>
    decide (i.sourceId = input.sourceId ∧ i.accountGrantRef = input.accountGrantRef)).getLast?

theorem moves_of_batch (hC : P.CollisionFree) {inputs : List SignalIngress}
    {admissions : List SignalAdmission} (hlen : admissions.length = inputs.length)
    (hsized : ∀ i ∈ inputs, Sized i) {input : SignalIngress} (hinput : Sized input) :
    (List.zipWith arrivalEvents inputs admissions).flatten.filterMap
        (Event.movesTo P (P.cursorKey input.sourceId input.accountGrantRef)) =
      (inputs.filter fun i =>
        decide (i.sourceId = input.sourceId ∧ i.accountGrantRef = input.accountGrantRef)).map
          fun i => ⟨i.accountGrantRef, "", i.sourceCursor⟩ := by
  induction inputs generalizing admissions with
  | nil => simp
  | cons i inputs ih =>
    obtain ⟨admission, admissions, rfl⟩ := List.exists_cons_of_length_eq_add_one hlen
    rw [List.forall_mem_cons] at hsized
    have hrest := ih (Nat.succ.inj hlen) hsized.2
    have hkey : P.cursorKey i.sourceId i.accountGrantRef =
        P.cursorKey input.sourceId input.accountGrantRef ↔
          i.sourceId = input.sourceId ∧ i.accountGrantRef = input.accountGrantRef := by
      constructor
      · exact cursorKey_injective hC hsized.1.sourceId hinput.sourceId hsized.1.accountGrantRef
          hinput.accountGrantRef
      · rintro ⟨hs, ha⟩
        rw [hs, ha]
    rw [List.zipWith_cons_cons, List.flatten_cons, List.filterMap_append, hrest]
    by_cases hsame : i.sourceId = input.sourceId ∧ i.accountGrantRef = input.accountGrantRef
    · rw [List.filter_cons_of_pos (by simpa using hsame), List.map_cons]
      simp only [arrivalEvents, List.filterMap_cons, Event.movesTo, if_pos (hkey.2 hsame),
        List.filterMap_nil, List.cons_append, List.nil_append]
    · rw [List.filter_cons_of_neg (by simpa using hsame)]
      simp only [arrivalEvents, List.filterMap_cons, Event.movesTo, if_neg (mt hkey.1 hsame),
        List.filterMap_nil, List.nil_append]

/-- What holds right after a batch whose events are `events`. -/
structure BatchAdmitted (P : Platform) (inputs : List SignalIngress)
    (admissions : List SignalAdmission) (events : List Event) (db' : Inbox) : Prop where
  /-- Every ingress has an admission. -/
  complete : admissions.length = inputs.length
  /-- In the newest waiting item of its key, which opens to the last ingress of the batch in it. -/
  represented : ∀ input admission, (input, admission) ∈ inputs.zip admissions →
    admission.outcome ≠ .deduplicated → ∃ r latest,
      newestWaiting (P.coalesceHash input) db' = some r ∧ r.signalId = admission.signalId ∧
      lastAdmitted r.signalId events = some latest ∧ SameResource input latest ∧
      SignalInbox.decrypt P r = .ok latest.privateFields
  /-- The cursor of every source and account in the batch is that of its last ingress. -/
  moved : ∀ input ∈ inputs, ∃ latest checkpoint, lastOf inputs input = some latest ∧
    SignalInbox.cursor P input.sourceId input.accountGrantRef db' = .ok (some checkpoint) ∧
    checkpoint.sourceCursor = latest.sourceCursor

theorem lastAdmitted_append_of_mem {events events' : List Event} {input : SignalIngress}
    {admission : SignalAdmission} (hmem : .arrival input admission ∈ events')
    (hne : admission.outcome ≠ .deduplicated) :
    lastAdmitted admission.signalId (events ++ events') = lastAdmitted admission.signalId events' := by
  have hsome : input ∈ events'.filterMap (Event.admittedTo admission.signalId) :=
    List.mem_filterMap.2 ⟨_, hmem, by simp [Event.admittedTo, hne]⟩
  rw [lastAdmitted, lastAdmitted, List.filterMap_append,
    List.getLast?_append_of_ne_nil _ (List.ne_nil_of_mem hsome)]

theorem lastMoved_append_of_mem {events events' : List Event} {source account cursor : String}
    {gap : Bool} (hmem : .moved source account cursor gap ∈ events') :
    lastMoved P (P.cursorKey source account) (events ++ events') =
      lastMoved P (P.cursorKey source account) events' := by
  have hsome : ⟨account, "", cursor⟩ ∈
      events'.filterMap (Event.movesTo P (P.cursorKey source account)) :=
    List.mem_filterMap.2 ⟨_, hmem, by simp [Event.movesTo]⟩
  rw [lastMoved, lastMoved, List.filterMap_append,
    List.getLast?_append_of_ne_nil _ (List.ne_nil_of_mem hsome)]

section Batch

variable {calls : List Call} {db db' : Inbox} {inputs : List SignalIngress} {now : Instant}
  {admissions : List SignalAdmission}

theorem represented_of_step
    (hstep : Step P db ⟨.ingestBatch inputs now, .ok (.admissions admissions)⟩ db') :
    Represented P (Call.events ⟨.ingestBatch inputs now, .ok (.admissions admissions)⟩) db' ∧
      CursorsKept P (Call.events ⟨.ingestBatch inputs now, .ok (.admissions admissions)⟩) db' := by
  refine Step.keeps (I := fun events db => Represented P events db ∧ CursorsKept P events db)
    (l := []) (c := fun op => ∃ inputs now, op = .ingestBatch inputs now) (G := Effect.Ingests)
    ?_ ?_ ⟨inputs, now, rfl⟩ hstep ⟨by simp [Represented], by simp [CursorsKept]⟩
  · rintro op e ⟨inputs, now, rfl⟩ hof
    exact ingests_of_of hof
  · rintro es db e db' he ⟨hr, hk⟩ h
    exact ⟨hr.step he h, hk.step he h⟩

theorem complete_of_step
    (hstep : Step P db ⟨.ingestBatch inputs now, .ok (.admissions admissions)⟩ db') :
    admissions.length = inputs.length ∧ ∀ input ∈ inputs, P.validateIngress input = .ok () := by
  obtain ⟨⟨admissions', db₁⟩, ho, heq⟩ := map_ok_iff.1 hstep.apply_eq
  obtain ⟨-, ho⟩ := ite_error_ok_iff.1 ho
  obtain ⟨hvalid, ho⟩ := bind_unit_ok_iff.1 ho
  obtain ⟨⟨admissions'', db₂⟩, hall, ho⟩ := bind_ok_iff.1 ho
  cases ho
  cases heq
  exact ⟨length_of_ingestAll hall, valid_of_validateAll hvalid⟩

theorem cursor_of_find? {input : SignalIngress} (valid : P.validateIngress input = .ok ())
    {row : CursorRow} {cursor : String}
    (hrow : db.cursors.find? (P.cursorKey input.sourceId input.accountGrantRef) = some row)
    (opens : P.decryptPrivate (cursorId (P.cursorKey input.sourceId input.accountGrantRef)) 0
      row.updatedAt row.nonce row.ciphertext = .ok ⟨input.accountGrantRef, "", cursor⟩) :
    SignalInbox.cursor P input.sourceId input.accountGrantRef db =
      .ok (some ⟨cursor, row.updatedAt, row.gapDetected⟩) := by
  simp only [Platform.validateIngress, bind_unit_ok_iff] at valid
  unfold SignalInbox.cursor
  rw [valid.1, valid.2.1]
  simp only [bind, Except.bind, hrow, opens, ne_eq, not_true_eq_false, or_self, if_false]

theorem batchAdmitted_of_step (hC : P.CollisionFree) (hD : P.Decrypts)
    (h : Run (Step P) .empty calls db)
    (hstep : Step P db ⟨.ingestBatch inputs now, .ok (.admissions admissions)⟩ db') :
    BatchAdmitted P inputs admissions
      (Call.events ⟨.ingestBatch inputs now, .ok (.admissions admissions)⟩) db' := by
  obtain ⟨represented, kept⟩ := represented_of_step hstep
  have hrun := h.snoc hstep
  have hsealed := sealed_of_run hD hrun
  have horigin := origin_of_run hC hrun
  rw [trace, List.flatMap_append, List.flatMap_singleton] at hsealed horigin
  obtain ⟨hlen, valid⟩ := complete_of_step hstep
  refine ⟨hlen, fun input admission hzip hne => ?_, fun input hinput => ?_⟩
  · have hmem : .arrival input admission ∈
        Call.events ⟨.ingestBatch inputs now, .ok (.admissions admissions)⟩ :=
      mem_arrivals hzip (List.mem_cons_self ..)
    obtain ⟨r, hnewest, hid⟩ := Option.map_eq_some_iff.1 (represented input admission hmem hne)
    obtain ⟨hr, hash, -⟩ := newestWaiting_spec hnewest
    have hfind := Items.find?_of_mem hr
    obtain ⟨latest, hlast, opens⟩ := hsealed.items _ r hfind
    obtain ⟨latest', hlast', origin⟩ := horigin _ r hfind
    rw [hlast] at hlast'
    cases hlast'
    refine ⟨r, latest, hnewest, hid, ?_, ?_, opens⟩
    · rw [hid] at hlast ⊢
      rwa [lastAdmitted_append_of_mem hmem hne] at hlast
    · exact coalesceHash_injective hC (sized_of_validateIngress (valid _ (List.of_mem_zip hzip).1))
        (sized_of_validateIngress origin.valid) (hash.symm.trans origin.resource)
  · have hinputs : (inputs.zip admissions).map Prod.fst = inputs := List.map_fst_zip hlen.ge
    obtain ⟨⟨input', admission⟩, hzip, rfl⟩ := List.mem_map.1 (hinputs.symm ▸ hinput)
    have hmem : .moved input'.sourceId input'.accountGrantRef input'.sourceCursor
        input'.gapDetected ∈ Call.events ⟨.ingestBatch inputs now, .ok (.admissions admissions)⟩ :=
      mem_arrivals hzip (List.mem_cons_of_mem _ (List.mem_cons_self ..))
    obtain ⟨row, hrow⟩ := kept _ _ _ _ hmem
    obtain ⟨fields, hlast, opens⟩ := hsealed.cursors _ row hrow
    have hsized : ∀ i ∈ inputs, Sized i := fun i hi => sized_of_validateIngress (valid i hi)
    have hmoves := moves_of_batch hC hlen hsized (hsized input' hinput)
    have hlast' := (lastMoved_append_of_mem hmem).symm.trans hlast
    rw [lastMoved, Call.events, hmoves, List.getLast?_map] at hlast'
    obtain ⟨latest, hlatest, rfl⟩ := Option.map_eq_some_iff.1 hlast'
    have hsame := List.of_mem_filter (List.mem_of_getLast? hlatest)
    rw [decide_eq_true_eq] at hsame
    rw [hsame.2] at opens
    exact ⟨latest, _, hlatest, cursor_of_find? (valid _ hinput) hrow opens, rfl⟩

end Batch

/-- The table keeps its cap, making room deletes no open item, and a batch changes nothing or admits all that is no
duplicate. -/
theorem batch_represented (hC : P.CollisionFree) (hD : P.Decrypts) {calls : List Call} {db : Inbox}
    (h : Run (Step P) .empty calls db) :
    db.items.rows.length ≤ maxItems ∧
    (∀ db', ensureCapacity db = .ok db' → ∀ r ∈ db.items, r.state.isOpen → r ∈ db'.items) ∧
    (∀ inputs now error db', Step P db ⟨.ingestBatch inputs now, .error error⟩ db' → db' = db) ∧
    ∀ inputs now admissions db',
      Step P db ⟨.ingestBatch inputs now, .ok (.admissions admissions)⟩ db' →
        BatchAdmitted P inputs admissions
          (Call.events ⟨.ingestBatch inputs now, .ok (.admissions admissions)⟩) db' := by
  refine ⟨?_, fun db' hcap r hr hopen => mem_of_ensureCapacity hcap hr hopen, ?_,
    fun inputs now admissions db' hstep => batchAdmitted_of_step hC hD h hstep⟩
  · exact empty_run_keeps (I := fun _ db => db.items.rows.length ≤ maxItems)
      (fun _ _ _ _ hs he => length_le_of_step hs he) h (Nat.zero_le _)
  · rintro inputs now error db' hstep
    cases hstep
    rfl

/-- A message, leased, and its next event. -/
def mailDuringLease : List Op :=
  [.ingestBatch [reference.mail "grant-a" "m" "41" "e41"] (reference.clock 8 0 1),
    .claim { workerId := "worker" } (reference.clock 8 0 2),
    .ingestBatch [reference.mail "grant-a" "m" "42" "e42"] (reference.clock 8 0 3)]

theorem batch_represented_mailDuringLease :
    (execute reference mailDuringLease .empty).2.items.rows.length ≤ maxItems :=
  (batch_represented reference.collisionFree reference.decrypts (run_execute _ _ _)).1

/-- An event of a leased item opens a second item of the same source, account and resource. -/
theorem event_during_lease_opens_second :
    let db := (execute reference mailDuringLease .empty).2
    db.items.rows.map StoredSignal.state = [.claimed, .pending] ∧
      db.items.rows.map StoredSignal.coalesceHash =
        List.replicate 2 (reference.coalesceHash (reference.mail "grant-a" "m" "42" "e42")) := by
  decide +kernel

end Wiii.Neko.Signal
