import Wiii.Neko.Signal.Sealing

/-!
# Where a row comes from

What coalesces into an item has its coalescing key.  The digests of validated texts have no collisions, so in every
reachable inbox the columns that name the source, the account, the application and the resource of a row are those of
the ingress admitted last into it (`origin_of_run`, `cursorOrigin_of_run`).
-/

namespace Wiii.Neko.Signal

open SignalInbox

variable {P : Platform}

/-! ## Digests of validated texts -/

/-- The texts of an ingress are as short as their validation demands. -/
structure Sized (input : SignalIngress) : Prop where
  sourceId : input.sourceId.utf8ByteSize ≤ 96
  accountGrantRef : input.accountGrantRef.utf8ByteSize ≤ 256
  appId : input.appId.utf8ByteSize ≤ 64
  resourceRef : input.resourceRef.utf8ByteSize ≤ 256
  dedupeKey : input.dedupeKey.utf8ByteSize ≤ 512

theorem sized_of_validateIngress {input : SignalIngress} (h : P.validateIngress input = .ok ()) :
    Sized input := by
  simp only [Platform.validateIngress, bind_unit_ok_iff] at h
  obtain ⟨hs, ha, happ, hr, -, hd, -⟩ := h
  exact ⟨size_of_boundedIdentifier hs, size_of_boundedIdentifier ha, size_of_boundedIdentifier happ,
    size_of_boundedIdentifier hr, size_of_boundedOpaque hd⟩

theorem size_kindName (k : SignalKind) : (kindName k).utf8ByteSize ≤ 18 := by
  cases k <;> decide

theorem accountHash_injective (hC : P.CollisionFree) {account account' : String}
    (ha : account.utf8ByteSize ≤ 256) (ha' : account'.utf8ByteSize ≤ 256)
    (h : P.accountHash account = P.accountHash account') : account = account' := by
  have hd : ("account" : String).utf8ByteSize = 7 := by decide
  have hparts := Platform.digest_injective hC (by simp [hd]; omega) (by simp [hd]; omega) h
  simpa using hparts

theorem cursorKey_injective (hC : P.CollisionFree) {source source' account account' : String}
    (hs : source.utf8ByteSize ≤ 96) (hs' : source'.utf8ByteSize ≤ 96)
    (ha : account.utf8ByteSize ≤ 256) (ha' : account'.utf8ByteSize ≤ 256)
    (h : P.cursorKey source account = P.cursorKey source' account') :
    source = source' ∧ account = account' := by
  have hd : ("cursor" : String).utf8ByteSize = 6 := by decide
  have hparts := Platform.digest_injective hC (by simp [hd]; omega) (by simp [hd]; omega) h
  simpa using hparts

theorem dedupeHash_injective (hC : P.CollisionFree) {input input' : SignalIngress}
    (hi : Sized input) (hi' : Sized input')
    (h : P.dedupeHash input.sourceId input.dedupeKey =
      P.dedupeHash input'.sourceId input'.dedupeKey) :
    input.sourceId = input'.sourceId ∧ input.dedupeKey = input'.dedupeKey := by
  obtain ⟨hs, -, -, -, hk⟩ := hi
  obtain ⟨hs', -, -, -, hk'⟩ := hi'
  have hd : ("dedupe" : String).utf8ByteSize = 6 := by decide
  have hparts := Platform.digest_injective hC (by simp [hd]; omega) (by simp [hd]; omega) h
  simpa using hparts

/-- Two ingresses have the same source, account, application, resource and kind. -/
structure SameResource (input input' : SignalIngress) : Prop where
  sourceId : input'.sourceId = input.sourceId
  accountGrantRef : input'.accountGrantRef = input.accountGrantRef
  appId : input'.appId = input.appId
  resourceRef : input'.resourceRef = input.resourceRef
  kind : input'.kind = input.kind

theorem coalesceHash_injective (hC : P.CollisionFree) {input input' : SignalIngress}
    (hi : Sized input) (hi' : Sized input') (h : P.coalesceHash input = P.coalesceHash input') :
    SameResource input input' := by
  obtain ⟨hs, ha, happ, hr, -⟩ := hi
  obtain ⟨hs', ha', happ', hr', -⟩ := hi'
  have hd : ("resource" : String).utf8ByteSize = 8 := by decide
  have hk := size_kindName input.kind
  have hk' := size_kindName input'.kind
  have hparts := Platform.digest_injective hC (by simp [hd]; omega) (by simp [hd]; omega) h
  simp only [List.cons.injEq, and_true, true_and] at hparts
  obtain ⟨h₁, h₂, h₃, h₄, h₅⟩ := hparts
  exact ⟨h₁.symm, h₂.symm, h₃.symm, h₄.symm, (kindName_injective h₅).symm⟩

/-! ## Rows -/

/-- The columns of source, account, application and resource are the ingress's. -/
structure Origin (P : Platform) (input : SignalIngress) (r : StoredSignal) : Prop where
  valid : P.validateIngress input = .ok ()
  sourceId : r.sourceId = input.sourceId
  account : r.accountGrantHash = P.accountHash input.accountGrantRef
  appId : r.appId = input.appId
  resource : r.coalesceHash = P.coalesceHash input
  kind : r.kind = input.kind

theorem Origin.congr {input : SignalIngress} {r r' : StoredSignal} (h : Origin P input r)
    (same : SameOrigin r r') : Origin P input r' where
  valid := h.valid
  sourceId := same.sourceId.trans h.sourceId
  account := same.accountGrantHash.trans h.account
  appId := same.appId.trans h.appId
  resource := same.coalesceHash.trans h.resource
  kind := same.kind.trans h.kind

theorem Origin.coalesce (hC : P.CollisionFree) {input input' : SignalIngress} {r : StoredSignal}
    (h : Origin P input r) (valid : P.validateIngress input' = .ok ())
    (hash : r.coalesceHash = P.coalesceHash input') : Origin P input' r := by
  have same := coalesceHash_injective hC (sized_of_validateIngress h.valid)
    (sized_of_validateIngress valid) (h.resource.symm.trans hash)
  exact ⟨valid, h.sourceId.trans same.sourceId.symm, by rw [h.account, same.accountGrantRef],
    h.appId.trans same.appId.symm, hash, h.kind.trans same.kind.symm⟩

theorem origin_of_admitted (hC : P.CollisionFree) {input : SignalIngress} {id : String}
    {r? : Option StoredSignal} {r' : StoredSignal} (valid : P.validateIngress input = .ok ())
    (h : Admitted P input id r? r') (hr : ∀ r, r? = some r → ∃ input', Origin P input' r) :
    Origin P input r' := by
  cases h with
  | inserted => exact ⟨valid, rfl, rfl, rfl, rfl, rfl⟩
  | coalesced waiting hash =>
    obtain ⟨input', h'⟩ := hr _ rfl
    exact (h'.coalesce hC valid hash).congr ⟨rfl, rfl, rfl, rfl, rfl⟩

/-- Every row has the columns of the ingress admitted last into its item. -/
def RowsOriginate (P : Platform) (events : List Event) (db : Inbox) : Prop :=
  ∀ id r, db.items.find? id = some r → ∃ input, lastAdmitted id events = some input ∧
    Origin P input r

theorem RowsOriginate.step (hC : P.CollisionFree) {events : List Event} {db db' : Inbox}
    {e : Effect} (hs : RowsOriginate P events db) (h : EffectStep P db e db') :
    RowsOriginate P (events ++ e.events) db' := by
  intro id r' hr'
  have hrow := h.row id
  rw [hr'] at hrow
  rcases hrow.kept_or_admitted with
    ⟨quiet, r, hr, -, same⟩ | ⟨input, outcome, hev, hne, valid, admitted⟩
  · obtain ⟨input, hlast, origin⟩ := hs id r hr
    exact ⟨input, (quiet events).trans hlast, origin.congr same⟩
  · rw [hev]
    refine ⟨input, lastAdmitted_append_arrival ⟨outcome, id⟩ hne, ?_⟩
    refine origin_of_admitted hC valid admitted fun r hr => ?_
    obtain ⟨input', -, origin⟩ := hs id r hr
    exact ⟨input', origin⟩

theorem origin_of_run (hC : P.CollisionFree) {calls : List Call} {db : Inbox}
    (h : Run (Step P) .empty calls db) : RowsOriginate P (trace calls) db :=
  empty_run_keeps (I := RowsOriginate P) (fun _ _ _ _ hs he => hs.step hC he) h
    (by simp [RowsOriginate, Inbox.empty])

/-! ## Cursors -/

/-- Every cursor has the account hash of the account it was moved for last. -/
def CursorsOriginate (P : Platform) (events : List Event) (db : Inbox) : Prop :=
  ∀ key row, db.cursors.find? key = some row → ∃ source fields,
    lastMoved P key events = some fields ∧ key = P.cursorKey source fields.accountGrantRef ∧
      source.utf8ByteSize ≤ 96 ∧ fields.accountGrantRef.utf8ByteSize ≤ 256 ∧
      row.accountGrantHash = P.accountHash fields.accountGrantRef

theorem accountGrantHash_writtenRow (old : Option CursorRow) (excluded : CursorRow) :
    (writtenRow old excluded).accountGrantHash =
      (old.map CursorRow.accountGrantHash).getD excluded.accountGrantHash := by
  cases old <;> rfl

theorem CursorsOriginate.step (hC : P.CollisionFree) {events : List Event} {db db' : Inbox}
    {e : Effect} (hs : CursorsOriginate P events db) (h : EffectStep P db e db') :
    CursorsOriginate P (events ++ e.events) db' := by
  have quiet : (∀ event ∈ e.events, ∀ key, event.movesTo P key = none) →
      (∀ key row, db'.cursors.find? key = some row → db.cursors.find? key = some row) →
      CursorsOriginate P (events ++ e.events) db' := by
    intro hq hdb key row hrow
    have hmoves : e.events.filterMap (Event.movesTo P key) = [] :=
      List.filterMap_eq_nil_iff.2 fun event he => hq event he key
    rw [lastMoved, List.filterMap_append, hmoves, List.append_nil]
    exact hs key row (hdb key row hrow)
  cases h with
  | writeCursor source account cursor gap updatedAt hsource haccount =>
    intro key row hrow
    rw [Effect.events, lastMoved_append_moved]
    rw [find?_writeCursorValues] at hrow
    split_ifs at hrow with hkey
    · have hsize := size_of_boundedIdentifier hsource
      have hsize' := size_of_boundedIdentifier haccount
      rw [if_pos hkey.symm]
      refine ⟨source, _, rfl, hkey, hsize, hsize', ?_⟩
      rw [← Option.some.inj hrow, accountGrantHash_writtenRow]
      cases hold : db.cursors.find? (P.cursorKey source account) with
      | none => rfl
      | some old =>
        obtain ⟨source', fields, -, hkey', hs', ha', hash⟩ := hs _ _ hold
        obtain ⟨-, haccount'⟩ := cursorKey_injective hC hsize hs' hsize' ha' hkey'
        rw [Option.map_some, Option.getD_some, hash, ← haccount']
    · rw [if_neg (Ne.symm hkey)]
      exact hs key row hrow
  | revoke account current haccount =>
    refine quiet (by simp [Effect.events, Event.movesTo]) fun key row hrow => ?_
    rw [Table.find?_deleteWhere, Option.filter_eq_some_iff] at hrow
    exact hrow.1
  | forget =>
    refine quiet (by simp [Effect.events]) fun key row hrow => ?_
    rwa [cursors_forget] at hrow
  | _ => exact quiet (by simp [Effect.events, Event.movesTo]) fun _ _ hrow => hrow

theorem cursorOrigin_of_run (hC : P.CollisionFree) {calls : List Call} {db : Inbox}
    (h : Run (Step P) .empty calls db) : CursorsOriginate P (trace calls) db :=
  empty_run_keeps (I := CursorsOriginate P) (fun _ _ _ _ hs he => hs.step hC he) h
    (by simp [CursorsOriginate, Inbox.empty])

end Wiii.Neko.Signal
