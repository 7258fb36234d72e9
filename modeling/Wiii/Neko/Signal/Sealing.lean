import Wiii.Neko.Signal.Performs

/-!
# The private fields stay readable

Every effect leaves the columns that go into the associated data of a row and the ciphertext alone, or seals the row
anew (`RowChange.sealing`), so in every reachable inbox each row decrypts under its own columns to the fields of the
last ingress admitted into it, and each cursor to the last value it was moved to (`rows_stay_sealed`).
-/

namespace Wiii.Neko.Signal

open SignalInbox

variable (P : Platform)

def Event.admittedTo (signalId : String) : Event → Option SignalIngress
  | arrival input admission =>
    if admission.signalId = signalId ∧ admission.outcome ≠ .deduplicated then some input else none
  | _ => none

def lastAdmitted (signalId : String) (events : List Event) : Option SignalIngress :=
  (events.filterMap (Event.admittedTo signalId)).getLast?

def Event.movesTo (cursorKey : List UInt8) : Event → Option PrivateSignalFields
  | moved source account cursor _ =>
    if P.cursorKey source account = cursorKey then some ⟨account, "", cursor⟩ else none
  | _ => none

def lastMoved (cursorKey : List UInt8) (events : List Event) : Option PrivateSignalFields :=
  (events.filterMap (Event.movesTo P cursorKey)).getLast?

theorem Event.admittedTo_eq_none {event : Event} {id : String} (h : event.subject ≠ some id) :
    event.admittedTo id = none := by
  cases event with
  | arrival input admission =>
    obtain ⟨outcome, signalId⟩ := admission
    cases outcome <;> simp_all [admittedTo, subject]
  | _ => rfl

theorem lastAdmitted_append_arrival {events : List Event} {input : SignalIngress}
    (admission : SignalAdmission) (h : admission.outcome ≠ .deduplicated) :
    lastAdmitted admission.signalId (events ++ [.arrival input admission]) = some input := by
  simp [lastAdmitted, Event.admittedTo, h]

theorem lastMoved_append_moved {events : List Event} {source account cursor : String} {gap : Bool}
    (key : List UInt8) :
    lastMoved P key (events ++ [.moved source account cursor gap]) =
      if P.cursorKey source account = key then some ⟨account, "", cursor⟩
      else lastMoved P key events := by
  unfold lastMoved
  by_cases h : P.cursorKey source account = key <;> simp [Event.movesTo, h]

/-- The columns that the associated data is built from, and what is sealed under it. -/
structure SameSeal (r r' : StoredSignal) : Prop where
  signalId : r'.signalId = r.signalId
  seq : r'.seq = r.seq
  cipherAt : r'.cipherAt = r.cipherAt
  nonce : r'.nonce = r.nonce
  ciphertext : r'.ciphertext = r.ciphertext

variable {P}

theorem SameSeal.decrypt_eq {r r' : StoredSignal} (h : SameSeal r r') :
    SignalInbox.decrypt P r' = SignalInbox.decrypt P r := by
  unfold SignalInbox.decrypt
  rw [h.signalId, h.seq, h.cipherAt, h.nonce, h.ciphertext]

theorem decrypt_sealRow (hP : P.Decrypts) (nonce : Nonce) (fields : PrivateSignalFields)
    (r : StoredSignal) : SignalInbox.decrypt P (sealRow P nonce fields r) = .ok fields :=
  Platform.decryptPrivate_encrypt hP _ _ _ _ _

theorem decrypt_mergedRow (hP : P.Decrypts) (input : SignalIngress) (updatedAt : String)
    (nonce : Nonce) (r : StoredSignal) :
    SignalInbox.decrypt P (mergedRow P input updatedAt nonce r) = .ok input.privateFields :=
  Platform.decryptPrivate_encrypt hP _ _ _ _ _

/-- The columns of a row that name its source, account, application and resource. -/
structure SameOrigin (r r' : StoredSignal) : Prop where
  sourceId : r'.sourceId = r.sourceId
  accountGrantHash : r'.accountGrantHash = r.accountGrantHash
  appId : r'.appId = r.appId
  coalesceHash : r'.coalesceHash = r.coalesceHash
  kind : r'.kind = r.kind

/-- The row of the item `id` before an ingress is admitted into it and after. -/
inductive Admitted (P : Platform) (input : SignalIngress) (id : String) :
    Option StoredSignal → StoredSignal → Prop
  | inserted (updatedAt : String) (seq : ℕ) (nonce : Nonce) : Admitted P input id none
      (sealRow P nonce input.privateFields (insertedRow P input id updatedAt seq))
  | coalesced {r : StoredSignal} (waiting : r.state.isWaiting)
      (hash : r.coalesceHash = P.coalesceHash input) (updatedAt : String) (nonce : Nonce) :
      Admitted P input id (some r) (mergedRow P input updatedAt nonce r)

theorem RowChange.kept_or_admitted {id : String} {e : Effect} {r? : Option StoredSignal}
    {r' : StoredSignal} (h : RowChange P id e r? (some r')) :
    (∀ events, lastAdmitted id (events ++ e.events) = lastAdmitted id events) ∧
        (∃ r, r? = some r ∧ SameSeal r r' ∧ SameOrigin r r') ∨
      ∃ input outcome, e.events = [.arrival input ⟨outcome, id⟩] ∧ outcome ≠ .deduplicated ∧
        P.validateIngress input = .ok () ∧ Admitted P input id r? r' := by
  have none_admitted : ∀ e : Effect, (∀ event ∈ e.events, event.admittedTo id = none) →
      ∀ events, lastAdmitted id (events ++ e.events) = lastAdmitted id events := by
    intro e he events
    rw [lastAdmitted, List.filterMap_append, List.filterMap_eq_nil_iff.2 he, List.append_nil,
      lastAdmitted]
  cases h with
  | same quiet r =>
    refine .inl ⟨none_admitted e fun event he => ?_, r', rfl, ⟨rfl, rfl, rfl, rfl, rfl⟩,
      ⟨rfl, rfl, rfl, rfl, rfl⟩⟩
    exact Event.admittedTo_eq_none (quiet event he)
  | inserted input updatedAt seq nonce valid =>
    exact .inr ⟨input, .inserted, rfl, by decide, valid, .inserted updatedAt seq nonce⟩
  | coalesced valid waiting hash =>
    exact .inr ⟨_, .coalesced, rfl, by decide, valid, .coalesced waiting hash _ _⟩
  | _ =>
    exact .inl ⟨none_admitted _ (by simp [Effect.events, Event.admittedTo]), _, rfl,
      ⟨rfl, rfl, rfl, rfl, rfl⟩, ⟨rfl, rfl, rfl, rfl, rfl⟩⟩

theorem Admitted.decrypt_eq (hP : P.Decrypts) {input : SignalIngress} {id : String}
    {r? : Option StoredSignal} {r' : StoredSignal} (h : Admitted P input id r? r') :
    SignalInbox.decrypt P r' = .ok input.privateFields := by
  cases h with
  | inserted => exact decrypt_sealRow hP _ _ _
  | coalesced => exact decrypt_mergedRow hP _ _ _ _

theorem RowChange.sealing (hP : P.Decrypts) {id : String} {e : Effect} {r? : Option StoredSignal}
    {r' : StoredSignal} (h : RowChange P id e r? (some r')) :
    (∀ events, lastAdmitted id (events ++ e.events) = lastAdmitted id events) ∧
        (∃ r, r? = some r ∧ SameSeal r r') ∨
      ∃ input outcome, e.events = [.arrival input ⟨outcome, id⟩] ∧ outcome ≠ .deduplicated ∧
        SignalInbox.decrypt P r' = .ok input.privateFields := by
  rcases h.kept_or_admitted with ⟨quiet, r, hr, same, -⟩ | ⟨input, outcome, hev, hne, -, admitted⟩
  · exact .inl ⟨quiet, r, hr, same⟩
  · exact .inr ⟨input, outcome, hev, hne, admitted.decrypt_eq hP⟩

/-! ## Cursors -/

theorem find?_writeCursorValues (source account cursor : String) (gap : Bool) (updatedAt : String)
    (db : Inbox) (key : List UInt8) :
    (writeCursorValues P source account cursor gap updatedAt db).cursors.find? key =
      if key = P.cursorKey source account then
        some (writtenRow (db.cursors.find? (P.cursorKey source account))
          (excludedRow P source account cursor gap updatedAt db))
      else db.cursors.find? key := by
  have hkey : (writtenRow (db.cursors.find? (P.cursorKey source account))
      (excludedRow P source account cursor gap updatedAt db)).cursorKey =
        P.cursorKey source account := by
    cases hold : db.cursors.find? (P.cursorKey source account) with
    | none => rfl
    | some old =>
      have h : old.cursorKey = _ := Table.key_of_find? hold
      exact h
  rw [writeCursorValues, Table.find?_upsert, hkey]

theorem gapDetected_writtenRow (old : Option CursorRow) (excluded : CursorRow) :
    (writtenRow old excluded).gapDetected = excluded.gapDetected := by
  cases old <;> rfl

theorem decrypt_writtenRow (hP : P.Decrypts) (old : Option CursorRow)
    (source account cursor : String) (gap : Bool) (updatedAt : String) (db : Inbox) :
    let row := writtenRow old (excludedRow P source account cursor gap updatedAt db)
    P.decryptPrivate (cursorId (P.cursorKey source account)) 0 row.updatedAt row.nonce
      row.ciphertext = .ok ⟨account, "", cursor⟩ := by
  cases old <;> exact Platform.decryptPrivate_encrypt hP _ _ _ _ _

/-- What an effect does to the row of a cursor. -/
inductive CursorChange (P : Platform) (key : List UInt8) :
    Effect → Option CursorRow → Option CursorRow → Prop
  | same {e : Effect} (quiet : ∀ event ∈ e.events, event.movesTo P key = none)
      (row : Option CursorRow) : CursorChange P key e row row
  | written {source account cursor updatedAt : String} {gap : Bool} {row : CursorRow}
      (old : Option CursorRow) (hkey : P.cursorKey source account = key) (hgap : row.gapDetected = gap)
      (opens : P.decryptPrivate (cursorId key) 0 row.updatedAt row.nonce row.ciphertext =
        .ok ⟨account, "", cursor⟩) :
      CursorChange P key (.writeCursor source account cursor gap updatedAt) old (some row)
  | deleted {account current : String} {row : CursorRow}
      (h : row.accountGrantHash = P.accountHash account) :
      CursorChange P key (.revoke account current) (some row) none

theorem EffectStep.cursor (hP : P.Decrypts) {db db' : Inbox} {e : Effect}
    (h : EffectStep P db e db') (key : List UInt8) :
    CursorChange P key e (db.cursors.find? key) (db'.cursors.find? key) := by
  cases h with
  | writeCursor source account cursor gap updatedAt hs ha =>
    rw [find?_writeCursorValues]
    split_ifs with hkey
    · refine .written _ hkey.symm (gapDetected_writtenRow _ _) ?_
      rw [hkey]
      exact decrypt_writtenRow hP _ source account cursor gap updatedAt db
    · exact .same (by simpa [Effect.events, Event.movesTo] using Ne.symm hkey) _
  | revoke account current ha =>
    rw [Table.find?_deleteWhere]
    cases hrow : db.cursors.find? key with
    | none => exact .same (by simp [Effect.events, Event.movesTo]) _
    | some row =>
      rw [Option.filter_some]
      split_ifs with hp
      · exact .same (by simp [Effect.events, Event.movesTo]) _
      · exact .deleted (by simpa using hp)
  | forget =>
    rw [cursors_forget]
    exact .same (by simp [Effect.events]) _
  | _ => exact .same (by simp [Effect.events, Event.movesTo]) _

/-! ## The invariant -/

/-- Every row and every cursor decrypts under its own columns to what was sealed last. -/
structure Sealed (P : Platform) (events : List Event) (db : Inbox) : Prop where
  items : ∀ id r, db.items.find? id = some r → ∃ input, lastAdmitted id events = some input ∧
    SignalInbox.decrypt P r = .ok input.privateFields
  cursors : ∀ key row, db.cursors.find? key = some row → ∃ fields,
    lastMoved P key events = some fields ∧
      P.decryptPrivate (cursorId key) 0 row.updatedAt row.nonce row.ciphertext = .ok fields

theorem Sealed.step (hP : P.Decrypts) {events : List Event} {db db' : Inbox} {e : Effect}
    (hs : Sealed P events db) (h : EffectStep P db e db') : Sealed P (events ++ e.events) db' where
  items := by
    intro id r' hr'
    have hrow := h.row id
    rw [hr'] at hrow
    rcases hrow.sealing hP with ⟨quiet, r, hr, same⟩ | ⟨input, outcome, hev, hne, opens⟩
    · rw [quiet, same.decrypt_eq]
      exact hs.items id r hr
    · rw [hev]
      exact ⟨input, lastAdmitted_append_arrival ⟨outcome, id⟩ hne, opens⟩
  cursors := by
    intro key row' hrow'
    have hcursor := h.cursor hP key
    rw [hrow'] at hcursor
    generalize hold : db.cursors.find? key = old at hcursor
    cases hcursor with
    | same quiet =>
      have hmoves : e.events.filterMap (Event.movesTo P key) = [] :=
        List.filterMap_eq_nil_iff.2 quiet
      rw [lastMoved, List.filterMap_append, hmoves, List.append_nil]
      exact hs.cursors key row' hold
    | @written source account cursor updatedAt gap _ _ hkey hgap opens =>
      exact ⟨_, by rw [Effect.events, lastMoved_append_moved, if_pos hkey], opens⟩

theorem sealed_empty : Sealed P [] .empty where
  items := by simp [Inbox.empty]
  cursors := by simp [Inbox.empty]

theorem sealed_of_run (hP : P.Decrypts) {calls : List Call} {db : Inbox}
    (h : Run (Step P) .empty calls db) : Sealed P (trace calls) db :=
  empty_run_keeps (fun _ _ _ _ hs he => hs.step hP he) h sealed_empty

/-- Every row and every cursor is sealed as it was in `db`, or by an event that names it. -/
structure SealedSince (P : Platform) (db : Inbox) (events : List Event) (db' : Inbox) : Prop where
  items : ∀ id r', db'.items.find? id = some r' →
    (∃ r, db.items.find? id = some r ∧ SameSeal r r') ∨
      ∃ input outcome, outcome ≠ .deduplicated ∧ .arrival input ⟨outcome, id⟩ ∈ events
  cursors : ∀ key row', db'.cursors.find? key = some row' → db.cursors.find? key = some row' ∨
    ∃ source account cursor gap, P.cursorKey source account = key ∧
      .moved source account cursor gap ∈ events

theorem SameSeal.trans {r r' r'' : StoredSignal} (h : SameSeal r r') (h' : SameSeal r' r'') :
    SameSeal r r'' where
  signalId := h'.signalId.trans h.signalId
  seq := h'.seq.trans h.seq
  cipherAt := h'.cipherAt.trans h.cipherAt
  nonce := h'.nonce.trans h.nonce
  ciphertext := h'.ciphertext.trans h.ciphertext

theorem SealedSince.refl (db : Inbox) : SealedSince P db [] db where
  items := fun _ r hr => .inl ⟨r, hr, rfl, rfl, rfl, rfl, rfl⟩
  cursors := fun _ _ hrow => .inl hrow

theorem SealedSince.step (hP : P.Decrypts) {events : List Event} {db₀ db db' : Inbox} {e : Effect}
    (hs : SealedSince P db₀ events db) (h : EffectStep P db e db') :
    SealedSince P db₀ (events ++ e.events) db' where
  items := by
    intro id r' hr'
    have hrow := h.row id
    rw [hr'] at hrow
    rcases hrow.sealing hP with ⟨-, r, hr, same⟩ | ⟨input, outcome, hev, hne, -⟩
    · rcases hs.items id r hr with ⟨r₀, hr₀, same₀⟩ | ⟨input, outcome, hne, hmem⟩
      · exact .inl ⟨r₀, hr₀, same₀.trans same⟩
      · exact .inr ⟨input, outcome, hne, List.mem_append_left _ hmem⟩
    · exact .inr ⟨input, outcome, hne, by simp [hev]⟩
  cursors := by
    intro key row' hrow'
    have hcursor := h.cursor hP key
    rw [hrow'] at hcursor
    generalize hold : db.cursors.find? key = old at hcursor
    cases hcursor with
    | same quiet =>
      rcases hs.cursors key row' hold with h₀ | ⟨source, account, cursor, gap, hkey, hmem⟩
      · exact .inl h₀
      · exact .inr ⟨source, account, cursor, gap, hkey, List.mem_append_left _ hmem⟩
    | written _ hkey =>
      exact .inr ⟨_, _, _, _, hkey, List.mem_append_right _ (List.mem_singleton.2 rfl)⟩

/-- In every reachable inbox each row and cursor decrypts under its current columns to the fields sealed last; such a
column changes only together with the ciphertext. -/
theorem rows_stay_sealed (hP : P.Decrypts) {calls : List Call} {db : Inbox}
    (h : Run (Step P) .empty calls db) :
    (∀ r ∈ db.items, ∃ input, lastAdmitted r.signalId (trace calls) = some input ∧
      SignalInbox.decrypt P r = .ok input.privateFields) ∧
    (∀ row ∈ db.cursors, ∃ fields, lastMoved P row.cursorKey (trace calls) = some fields ∧
      P.decryptPrivate (cursorId row.cursorKey) 0 row.updatedAt row.nonce row.ciphertext =
        .ok fields) ∧
    ∀ call db', Step P db call db' → SealedSince P db call.events db' := by
  have hs := sealed_of_run hP h
  refine ⟨fun r hr => hs.items _ r (Items.find?_of_mem hr),
    fun row hrow => hs.cursors _ row (Table.find?_of_mem hrow), fun call db' hstep => ?_⟩
  have hkeep := Step.keeps (I := SealedSince P db) (c := fun _ => True) (G := fun _ => True)
    (fun _ _ _ _ => trivial) (fun _ _ _ _ _ hs he => hs.step hP he) trivial hstep (.refl db)
  simpa using hkeep

/-- Two events of one message and a lease on the item they coalesce into. -/
def coalescedMail : List Op :=
  [.ingestBatch [reference.mail "grant-a" "m" "41" "e41", reference.mail "grant-a" "m" "42" "e42"]
      (reference.clock 8 0 1),
    .claim { workerId := "worker" } (reference.clock 8 0 2)]

theorem rows_stay_sealed_coalescedMail :
    (execute reference coalescedMail .empty).2.items.rows.length = 1 ∧
      ∀ r ∈ (execute reference coalescedMail .empty).2.items, ∃ input,
        lastAdmitted r.signalId (trace (execute reference coalescedMail .empty).1) = some input ∧
          SignalInbox.decrypt reference r = .ok input.privateFields :=
  ⟨by decide +kernel, (rows_stay_sealed reference.decrypts (run_execute _ _ _)).1⟩

end Wiii.Neko.Signal
