import Mathlib.Data.List.Basic
import Wiii.Lib.Transaction
import Wiii.NekoChill.JsData

/-!
# The deletion of a session that is saved

`deletePersistedSession` deletes the transcript and the native snapshot of a session and takes it out of the index and
of the catalog.  An operation that fails is answered by writing back what the earlier ones have changed.  The catalog is
written back as it was parsed, which is something else where there was none or where it names a session twice
(`deletion_undone_iff`).
-/

namespace Wiii.NekoChill

/-! ## A file of the store

A strict operation restores what it has staged when its save fails, so that as a whole it happens or does not. -/

structure PluginStore where
  staged : JsText → Option JsData
  saved : JsText → Option JsData

namespace PluginStore

def load : Body PluginStore Unit := Body.execute .ok

def get (key : JsText) : Body PluginStore (Option JsData) := Body.query fun store => .ok (store.staged key)

/-- `set`, and `delete` where there is no value. -/
def stage (key : JsText) (value : Option JsData) : Body PluginStore Unit :=
  Body.execute fun store => .ok { store with staged := Function.update store.staged key value }

def save : Body PluginStore Unit := Body.execute fun store => .ok { store with saved := store.staged }

def restore (key : JsText) (previous : Option JsData) (error aggregate : String) : Body PluginStore Unit := do
  match ← Body.attempt (do stage key previous; save) with
  | .ok _ => Body.fail error
  | .error _ => Body.fail aggregate

def saveStrict (key : JsText) (value : JsData) (aggregate : String) : Body PluginStore Unit := do
  load
  let previous ← get key
  stage key (some value)
  match ← Body.attempt save with
  | .ok _ => pure ()
  | .error error => restore key previous error aggregate

def deleteStrict (key : JsText) (aggregate : String) : Body PluginStore Unit := do
  load
  let previous ← get key
  stage key none
  match ← Body.attempt save with
  | .ok _ => pure ()
  | .error error =>
    match previous with
    | none => Body.fail error
    | some value => restore key (some value) error aggregate

variable {key : JsText} {aggregate error : String}

/-- A strict save, or a strict delete without a value, and the storage's failures. -/
structure StrictCall where
  key : JsText
  value : Option JsData
  aggregate : String
  faults : List (Option String)

namespace StrictCall

def body (call : StrictCall) : Body PluginStore Unit :=
  match call.value with
  | some value => saveStrict call.key value call.aggregate
  | none => deleteStrict call.key call.aggregate

def succeeds (call : StrictCall) : Bool := (call.faults.take 4).all Option.isNone

/-- Where the save fails, what it has staged can be taken back. -/
def Restores (call : StrictCall) : Prop := call.faults.getD 3 none = none ∨ call.faults.getD 4 none = none

/-- Whether each of the calls returns, and the store behind them. -/
def run (store : PluginStore) : List StrictCall → List Bool × PluginStore
  | [] => ([], store)
  | call :: calls =>
    let (result, work) := call.body ⟨store, call.faults⟩
    let (results, store) := run work.copy calls
    (result.isOk :: results, store)

def write (values : JsText → Option JsData) (call : StrictCall) : JsText → Option JsData :=
  Function.update values call.key call.value

def written (values : JsText → Option JsData) (calls : List StrictCall) : JsText → Option JsData :=
  (calls.filter succeeds).foldl write values

variable {values : JsText → Option JsData}

theorem restore_undoes (staged : JsText → Option JsData) (previous : Option JsData) {faults : List (Option String)}
    (hfault : faults.headD none = none) :
    ∃ error' faults', restore key previous error aggregate ⟨⟨staged, Function.update staged key previous⟩, faults⟩ =
      (.error error', ⟨⟨Function.update staged key previous, Function.update staged key previous⟩, faults'⟩) := by
  rcases faults with _ | ⟨fault, _ | ⟨_ | fault', faults⟩⟩
  all_goals cases hfault
  all_goals exact ⟨_, _, rfl⟩

theorem body_done (values : JsText → Option JsData) (call : StrictCall) (hsucceeds : call.succeeds = true) :
    ∃ faults, call.body ⟨⟨values, values⟩, call.faults⟩ = (.ok (), ⟨⟨call.write values, call.write values⟩, faults⟩) := by
  obtain ⟨key, value, aggregate, faults⟩ := call
  rcases faults with _ | ⟨_ | fault, _ | ⟨_ | fault, _ | ⟨_ | fault, _ | ⟨_ | fault, faults⟩⟩⟩⟩
  all_goals cases hsucceeds
  all_goals cases value
  all_goals exact ⟨_, rfl⟩

theorem save_failed {value : Option JsData} {faults : List (Option String)} (hfault : faults.headD none = none) :
    ∃ error' faults', restore key (values key) error aggregate ⟨⟨Function.update values key value, values⟩, faults⟩ =
      (.error error', ⟨⟨values, values⟩, faults'⟩) := by
  obtain ⟨error', faults', hrun⟩ :=
    @restore_undoes key aggregate error (Function.update values key value) (values key) faults hfault
  rw [Function.update_idem, Function.update_eq_self] at hrun
  exact ⟨error', faults', hrun⟩

theorem body_undone (values : JsText → Option JsData) (call : StrictCall) (hrestores : call.Restores) (hfails : call.succeeds = false) :
    ∃ error faults, call.body ⟨⟨values, values⟩, call.faults⟩ = (.error error, ⟨⟨values, values⟩, faults⟩) := by
  obtain ⟨key, value, aggregate, faults⟩ := call
  rcases faults with _ | ⟨_ | fault, _ | ⟨_ | fault, _ | ⟨_ | fault, _ | ⟨_ | fault, faults⟩⟩⟩⟩
  all_goals cases hfails
  all_goals cases value
  all_goals try exact ⟨_, _, rfl⟩
  all_goals have hfault : faults.headD none = none := List.headD_eq_getD.trans (hrestores.resolve_left (by rintro ⟨⟩))
  · cases hkey : values key with
    | none =>
      have hsame : Function.update values key none = values := by rw [← hkey, Function.update_eq_self]
      refine ⟨fault, faults, ?_⟩
      change (match values key with
        | none => Body.fail fault
        | some value => restore key (some value) fault aggregate)
          (⟨⟨Function.update values key none, values⟩, faults⟩ : Work PluginStore) = _
      rw [hkey, hsame]
      rfl
    | some previous =>
      obtain ⟨error, faults', hrun⟩ := @save_failed key aggregate fault values none faults hfault
      refine ⟨error, faults', Eq.trans ?_ hrun⟩
      change (match values key with
        | none => Body.fail fault
        | some value => restore key (some value) fault aggregate) _ = _
      rw [hkey]
      rfl
  · exact save_failed hfault

/-- What is saved and staged after a strict call is what those that have returned write. -/
theorem strict_run (calls : List StrictCall) (hrestores : ∀ call ∈ calls, call.Restores) :
    run ⟨values, values⟩ calls = (calls.map succeeds, ⟨written values calls, written values calls⟩) := by
  induction calls generalizing values with
  | nil => rfl
  | cons call calls ih =>
    have hrest := fun call' hcall' => hrestores call' (List.mem_cons_of_mem call hcall')
    rw [run, List.map_cons, written, List.filter_cons]
    cases hsucceeds : call.succeeds with
    | true =>
      obtain ⟨faults, hbody⟩ := body_done values call hsucceeds
      rw [hbody]
      exact congrArg (fun later => (true :: later.1, later.2)) (ih hrest)
    | false =>
      obtain ⟨error, faults, hbody⟩ := body_undone values call (hrestores call List.mem_cons_self) hsucceeds
      rw [hbody]
      exact congrArg (fun later => (false :: later.1, later.2)) (ih hrest)

theorem strict_run_restored : run ⟨fun _ => none, fun _ => none⟩
    [⟨js "index", some (.list []), "", [none, none, none, some "full"]⟩, ⟨js "index", some (.text []), "", []⟩] =
      ([false, true], ⟨Function.update (fun _ => none) (js "index") (some (.text [])),
        Function.update (fun _ => none) (js "index") (some (.text []))⟩) :=
  strict_run _ (List.forall_mem_cons.2 ⟨.inr rfl, List.forall_mem_singleton.2 (.inl rfl)⟩)

end StrictCall

end PluginStore

/-! ## The deletion -/

inductive StoreFile where
  | sessions
  | nativeRuntime
deriving DecidableEq

abbrev Stores := StoreFile → JsText → Option JsData

namespace Stores

def set (file : StoreFile) (key : JsText) (value : Option JsData) (stores : Stores) : Stores := fun file' key' =>
  if file' = file ∧ key' = key then value else stores file' key'

end Stores

def loadStoreStrict (file : StoreFile) (key : JsText) : Body Stores (Option JsData) :=
  Body.query fun stores => .ok (stores file key)

def saveStoreStrict (file : StoreFile) (key : JsText) (value : JsData) : Body Stores Unit :=
  Body.execute fun stores => .ok (stores.set file key (some value))

def deleteStoreStrict (file : StoreFile) (key : JsText) : Body Stores Unit :=
  Body.execute fun stores => .ok (stores.set file key none)

def sessionIdsKey : JsText := js "session-ids"
def indexKey : JsText := js "index"
def snapshotKey (sessionId : JsText) : JsText := js "session:" ++ sessionId

/-- `[...new Set(value)]` -/
def distinct : List JsText → List JsText
  | [] => []
  | id :: ids => id :: (distinct ids).filter fun other => decide (other ≠ id)

def catalogData (ids : List JsText) : JsData := .list (ids.map .text)

def sessionId? : JsData → Option JsText
  | .text (unit :: units) => some (unit :: units)
  | _ => none

def parseSessionIds (value : JsData) : Except String (List JsText) :=
  match value with
  | .list items =>
    match items.mapM sessionId? with
    | some ids => .ok (distinct ids)
    | none => .error "Danh mục phiên Neko Chill có schema không hợp lệ."
  | _ => .error "Danh mục phiên Neko Chill có schema không hợp lệ."

def isOther (sessionId : JsText) : JsData → Bool
  | .record fields =>
    match fields.lookup "id" with
    | some (.text id) => decide (id ≠ sessionId)
    | _ => true
  | _ => true

/-- Tries every write, and throws the error, or another where a write has failed. -/
def rollBack (writes : List (Body Stores Unit)) (error aggregate : String) : Body Stores Unit := do
  let results ← writes.mapM Body.attempt
  Body.fail (if results.all fun result => result.isOk then error else aggregate)

def toWrites (write : JsData → Body Stores Unit) (value : Option JsData) : List (Body Stores Unit) :=
  (value.map write).toList

def messageText (text : JsText) : String := String.ofList (text.map fun unit => Char.ofNat unit.toNat)

/-- `indexOperation` -/
def deleteMetadata (sessionId : JsText) (indexBackup : Option (List JsData)) (catalog : List JsText) :
    Body Stores Unit := do
  let aggregate := "Không thể xóa hoặc khôi phục metadata phiên " ++ messageText sessionId ++ "."
  let restoreIndex := toWrites (saveStoreStrict .sessions indexKey) (indexBackup.map .list)
  let saveIndex :=
    match indexBackup with
    | some items => saveStoreStrict .sessions indexKey (.list (items.filter (isOther sessionId)))
    | none => pure ()
  match ← Body.attempt saveIndex with
  | .error error => rollBack restoreIndex error aggregate
  | .ok _ =>
    match ← Body.attempt (saveStoreStrict .sessions sessionIdsKey
        (catalogData (catalog.filter fun id => decide (id ≠ sessionId)))) with
    | .error error => rollBack (saveStoreStrict .sessions sessionIdsKey (catalogData catalog) :: restoreIndex) error aggregate
    | .ok _ => pure ()

/-- The part behind the deletion of the transcript. -/
def deleteRest (sessionId : JsText) (catalog : List JsText) (snapshot nativeSnapshot : Option JsData)
    (indexBackup : Option (List JsData)) (aggregate : String) : Body Stores Unit := do
  let outcome ← Body.attempt (do
    deleteStoreStrict .nativeRuntime (snapshotKey sessionId)
    deleteMetadata sessionId indexBackup catalog)
  match outcome with
  | .error error =>
    rollBack (toWrites (saveStoreStrict .sessions (snapshotKey sessionId)) snapshot ++
      toWrites (saveStoreStrict .nativeRuntime (snapshotKey sessionId)) nativeSnapshot) error aggregate
  | .ok _ => pure ()

def deleteStored (sessionId : JsText) (catalog : List JsText) (snapshot nativeSnapshot : Option JsData)
    (indexBackup : Option (List JsData)) : Body Stores Unit := do
  let aggregate := "Không thể xóa hoặc khôi phục snapshot phiên " ++ messageText sessionId ++ "."
  match ← Body.attempt (deleteStoreStrict .sessions (snapshotKey sessionId)) with
  | .error error => rollBack (toWrites (saveStoreStrict .sessions (snapshotKey sessionId)) snapshot) error aggregate
  | .ok _ => deleteRest sessionId catalog snapshot nativeSnapshot indexBackup aggregate

/-- What an index is restored to; an index that is no list is left alone. -/
def indexItems : Option JsData → Option (List JsData)
  | some (.list items) => some items
  | _ => none

/-- The part behind the parse of the catalog. -/
def deleteListed (sessionId : JsText) (catalog : List JsText) : Body Stores Unit := do
  let snapshot ← loadStoreStrict .sessions (snapshotKey sessionId)
  let nativeSnapshot ← loadStoreStrict .nativeRuntime (snapshotKey sessionId)
  let previousIndex ← loadStoreStrict .sessions indexKey
  deleteStored sessionId catalog snapshot nativeSnapshot (indexItems previousIndex)

def performDeletePersistedSession (sessionId : JsText) : Body Stores Unit := do
  let stored ← loadStoreStrict .sessions sessionIdsKey
  let catalog ← Body.ofExcept (parseSessionIds (stored.getD (.list [])))
  deleteListed sessionId catalog

/-! ## The operations one by one -/

namespace Stores

variable {stores : Stores} {file file' : StoreFile} {key key' : JsText} {value value' : Option JsData}

theorem set_self (h : stores file key = value) : stores.set file key value = stores := by
  funext f k
  unfold set
  split
  · rename_i heq
    rw [heq.1, heq.2, h]
  · rfl

theorem set_set : (stores.set file key value).set file key value' = stores.set file key value' := by
  funext f k
  unfold set
  split <;> rfl

theorem set_comm (h : ¬ (file = file' ∧ key = key')) :
    (stores.set file key value).set file' key' value' = (stores.set file' key' value').set file key value := by
  funext f k
  unfold set
  split
  · rename_i heq
    rw [if_neg]
    rintro ⟨rfl, rfl⟩
    exact h heq
  · rfl

@[simp] theorem set_same : stores.set file key value file key = value := if_pos ⟨rfl, rfl⟩

def put (file : StoreFile) (key : JsText) (value : Option JsData) (stores : Stores) : Stores :=
  match value with
  | some value => stores.set file key (some value)
  | none => stores

end Stores

section

variable {stores : Stores} {file : StoreFile} {key : JsText} {value : JsData} {faults : List (Option String)}
  {error aggregate : String}

theorem rollBack_one (value : Option JsData) : rollBack (toWrites (saveStoreStrict file key) value) error aggregate ⟨stores, []⟩ =
    (.error error, ⟨stores.put file key value, []⟩) := by
  cases value <;> rfl

theorem rollBack_two (file' : StoreFile) (key' : JsText) (value value' : Option JsData) :
    rollBack (toWrites (saveStoreStrict file key) value ++ toWrites (saveStoreStrict file' key') value') error aggregate ⟨stores, []⟩ =
    (.error error, ⟨(stores.put file key value).put file' key' value', []⟩) := by
  cases value <;> cases value' <;> rfl

variable {sessionId : JsText} {catalog : List JsText} {items : List JsData} {snapshot nativeSnapshot : Option JsData}
  {indexBackup : Option (List JsData)}

theorem deleteMetadata_catalogFails : deleteMetadata sessionId none catalog ⟨stores, [some error]⟩ =
    (.error error, ⟨stores.set .sessions sessionIdsKey (some (catalogData catalog)), []⟩) := rfl

theorem deleteMetadata_indexFails : deleteMetadata sessionId (some items) catalog ⟨stores, [some error]⟩ =
    (.error error, ⟨stores.set .sessions indexKey (some (.list items)), []⟩) := rfl

theorem deleteMetadata_indexedCatalogFails : deleteMetadata sessionId (some items) catalog ⟨stores, [none, some error]⟩ =
    (.error error,
      ⟨((stores.set .sessions indexKey (some (.list (items.filter (isOther sessionId))))).set .sessions sessionIdsKey
          (some (catalogData catalog))).set .sessions indexKey (some (.list items)), []⟩) := rfl

theorem deleteMetadata_run : ∃ after,
    deleteMetadata sessionId none catalog ⟨stores, none :: faults⟩ = (.ok (), ⟨after, faults⟩) := ⟨_, rfl⟩

theorem deleteMetadata_indexed_run : ∃ after,
    deleteMetadata sessionId (some items) catalog ⟨stores, none :: none :: faults⟩ = (.ok (), ⟨after, faults⟩) := ⟨_, rfl⟩

theorem deleteStored_snapshotFails :
    deleteStored sessionId catalog snapshot nativeSnapshot indexBackup ⟨stores, [some error]⟩ =
      (.error error, ⟨stores.put .sessions (snapshotKey sessionId) snapshot, []⟩) := rollBack_one snapshot

theorem deleteStored_nativeFails :
    deleteStored sessionId catalog snapshot nativeSnapshot indexBackup ⟨stores, [none, some error]⟩ =
      (.error error, ⟨((stores.set .sessions (snapshotKey sessionId) none).put .sessions (snapshotKey sessionId) snapshot).put
          .nativeRuntime (snapshotKey sessionId) nativeSnapshot, []⟩) := rollBack_two _ _ snapshot nativeSnapshot

/-- The snapshots are gone when the metadata are written. -/
def withoutSnapshots (stores : Stores) (sessionId : JsText) : Stores :=
  (stores.set .sessions (snapshotKey sessionId) none).set .nativeRuntime (snapshotKey sessionId) none

theorem deleteStored_metadataFails {after : Stores}
    (h : deleteMetadata sessionId indexBackup catalog ⟨withoutSnapshots stores sessionId, faults⟩ =
      (.error error, ⟨after, []⟩)) :
    deleteStored sessionId catalog snapshot nativeSnapshot indexBackup ⟨stores, none :: none :: faults⟩ =
      (.error error, ⟨(after.put .sessions (snapshotKey sessionId) snapshot).put
          .nativeRuntime (snapshotKey sessionId) nativeSnapshot, []⟩) := by
  have hinner : (do
      deleteStoreStrict .nativeRuntime (snapshotKey sessionId)
      deleteMetadata sessionId indexBackup catalog)
        ⟨stores.set .sessions (snapshotKey sessionId) none, none :: faults⟩ = (.error error, ⟨after, []⟩) := h
  change deleteRest sessionId catalog snapshot nativeSnapshot indexBackup _ ⟨_, none :: faults⟩ = _
  rw [deleteRest, Body.bind_run _ (Body.attempt_run hinner)]
  exact rollBack_two _ _ snapshot nativeSnapshot

theorem deleteStored_run {after : Stores} {faults' : List (Option String)}
    (h : deleteMetadata sessionId indexBackup catalog ⟨withoutSnapshots stores sessionId, faults⟩ =
      (.ok (), ⟨after, faults'⟩)) :
    deleteStored sessionId catalog snapshot nativeSnapshot indexBackup ⟨stores, none :: none :: faults⟩ =
      (.ok (), ⟨after, faults'⟩) := by
  have hinner : (do
      deleteStoreStrict .nativeRuntime (snapshotKey sessionId)
      deleteMetadata sessionId indexBackup catalog)
        ⟨stores.set .sessions (snapshotKey sessionId) none, none :: faults⟩ = (.ok (), ⟨after, faults'⟩) := h
  change deleteRest sessionId catalog snapshot nativeSnapshot indexBackup _ ⟨_, none :: faults⟩ = _
  rw [deleteRest, Body.bind_run _ (Body.attempt_run hinner)]
  rfl

end

/-! ## What is written back -/

theorem snapshotKey_ne_sessionIdsKey (sessionId : JsText) : sessionIdsKey ≠ snapshotKey sessionId := by
  intro h
  have hhead := congrArg (List.take 8) h
  rw [snapshotKey, List.take_append_of_le_length (by decide)] at hhead
  exact absurd hhead (by decide)

theorem snapshotKey_ne_indexKey (sessionId : JsText) : indexKey ≠ snapshotKey sessionId := by
  intro h
  have hhead := congrArg (List.take 8) h
  rw [snapshotKey, List.take_append_of_le_length (by decide)] at hhead
  exact absurd hhead (by decide)

namespace Stores

variable {stores : Stores} {file : StoreFile} {key sessionId : JsText} {value : Option JsData}

theorem put_deleted : (stores.set file key none).put file key (stores file key) = stores := by
  cases h : stores file key with
  | none => exact set_self h
  | some value => exact set_set.trans (set_self h)

theorem put_self : stores.put file key (stores file key) = stores := by
  cases h : stores file key with
  | none => rfl
  | some value => exact set_self h

theorem set_of_ne {file' : StoreFile} {key' : JsText} (h : ¬ (file' = file ∧ key' = key)) :
    stores.set file key value file' key' = stores file' key' := if_neg h

theorem put_comm {file' : StoreFile} {key' : JsText} {value' : Option JsData} (h : ¬ (file = file' ∧ key = key')) :
    (stores.set file key value).put file' key' value' = (stores.put file' key' value').set file key value := by
  cases value' with
  | none => rfl
  | some value' => exact set_comm h

theorem put_withoutSnapshots (stores : Stores) (sessionId : JsText) :
    ((withoutSnapshots stores sessionId).put .sessions (snapshotKey sessionId)
        (stores .sessions (snapshotKey sessionId))).put .nativeRuntime (snapshotKey sessionId)
      (stores .nativeRuntime (snapshotKey sessionId)) = stores := by
  have hne : ¬ (StoreFile.nativeRuntime = .sessions ∧ snapshotKey sessionId = snapshotKey sessionId) :=
    fun heq => by cases heq.1
  rw [withoutSnapshots, put_comm hne, put_deleted, put_deleted]

theorem withoutSnapshots_set (h : key ≠ snapshotKey sessionId) :
    (withoutSnapshots stores sessionId).set file key value = withoutSnapshots (stores.set file key value) sessionId := by
  rw [withoutSnapshots, withoutSnapshots, set_comm fun heq => h heq.2.symm, set_comm fun heq => h heq.2.symm]

end Stores

/-! ## Catalogs -/

theorem nodup_distinct (ids : List JsText) : (distinct ids).Nodup := by
  induction ids with
  | nil => exact List.nodup_nil
  | cons first ids ih =>
    refine List.nodup_cons.2 ⟨fun h => ?_, ih.filter _⟩
    exact absurd rfl (of_decide_eq_true (List.mem_filter.1 h).2)

theorem distinct_of_nodup {ids : List JsText} (h : ids.Nodup) : distinct ids = ids := by
  induction ids with
  | nil => rfl
  | cons first ids ih =>
    rw [List.nodup_cons] at h
    rw [distinct, ih h.2, List.filter_eq_self.2]
    intro id hid
    exact decide_eq_true fun heq => h.1 (heq ▸ hid)

theorem map_text_of_mapM {items : List JsData} {ids : List JsText} (h : items.mapM sessionId? = some ids) :
    items = ids.map .text := by
  induction items generalizing ids with
  | nil =>
    cases h
    rfl
  | cons item items ih =>
    simp only [List.mapM_cons, Option.pure_def, Option.bind_eq_bind, Option.bind_eq_some_iff, Option.some.injEq] at h
    obtain ⟨id, hid, rest, hrest, rfl⟩ := h
    rw [List.map_cons, ← ih hrest]
    unfold sessionId? at hid
    split at hid
    · cases hid
      rfl
    · cases hid

theorem parseSessionIds_ok {value : JsData} {catalog : List JsText} (h : parseSessionIds value = .ok catalog) :
    ∃ ids, value = catalogData ids ∧ catalog = distinct ids := by
  unfold parseSessionIds at h
  split at h
  · split at h
    · rename_i ids hids
      cases h
      exact ⟨ids, congrArg JsData.list (map_text_of_mapM hids), rfl⟩
    · cases h
  · cases h

theorem catalogData_injective {ids ids' : List JsText} (h : catalogData ids = catalogData ids') : ids = ids' := by
  have hmap := JsData.list.inj h
  exact List.map_injective_iff.2 (fun _ _ => JsData.text.inj) hmap

def CatalogKept (stores : Stores) : Prop :=
  ∃ ids : List JsText, stores .sessions sessionIdsKey = some (catalogData ids) ∧ ids.Nodup

theorem catalogKept_iff {stores : Stores} {catalog : List JsText}
    (h : parseSessionIds ((stores .sessions sessionIdsKey).getD (.list [])) = .ok catalog) :
    CatalogKept stores ↔ stores .sessions sessionIdsKey = some (catalogData catalog) := by
  obtain ⟨ids, hids, rfl⟩ := parseSessionIds_ok h
  constructor
  · rintro ⟨stored, hstored, hnodup⟩
    rw [hstored, Option.getD_some] at hids
    rw [hstored, catalogData_injective hids, distinct_of_nodup (catalogData_injective hids ▸ hnodup)]
  · exact fun hstored => ⟨distinct ids, hstored, nodup_distinct ids⟩

/-! ## The whole deletion -/

/-- The operation that saves the catalog, after the reads, deletions and the index. -/
def catalogSave (stores : Stores) : ℕ := if (indexItems (stores .sessions indexKey)).isSome then 7 else 6

section

variable {stores : Stores} {sessionId : JsText} {catalog : List JsText} {n : ℕ} {error : String}
  {faults : List (Option String)}

theorem perform_listed (h : parseSessionIds ((stores .sessions sessionIdsKey).getD (.list [])) = .ok catalog) :
    performDeletePersistedSession sessionId ⟨stores, none :: faults⟩ = deleteListed sessionId catalog ⟨stores, faults⟩ :=
  Body.bind_run (w := ⟨stores, faults⟩) _ (Prod.ext h rfl)

theorem perform_malformed {reason : String}
    (h : parseSessionIds ((stores .sessions sessionIdsKey).getD (.list [])) = .error reason) :
    performDeletePersistedSession sessionId ⟨stores, none :: faults⟩ = (.error reason, ⟨stores, faults⟩) :=
  Body.bind_error (w := ⟨stores, faults⟩) _ (Prod.ext h rfl)

theorem indexItems_eq {value : Option JsData} {items : List JsData} (h : indexItems value = some items) :
    value = some (.list items) := by
  unfold indexItems at h
  split at h
  · cases h
    rfl
  · cases h

/-- The deletion behind the reads, with the operation of this number failing. -/
def storedFailing (n : ℕ) (error : String) (stores : Stores) (sessionId : JsText) (catalog : List JsText) :
    Except String Unit × Work Stores :=
  deleteStored sessionId catalog (stores .sessions (snapshotKey sessionId))
    (stores .nativeRuntime (snapshotKey sessionId)) (indexItems (stores .sessions indexKey))
    ⟨stores, List.replicate n none ++ [some error]⟩

def withCatalog (stores : Stores) (catalog : List JsText) : Stores :=
  stores.set .sessions sessionIdsKey (some (catalogData catalog))

theorem storedFailing_snapshot : storedFailing 0 error stores sessionId catalog = (.error error, ⟨stores, []⟩) := by
  have h := @deleteStored_snapshotFails stores error sessionId catalog (stores .sessions (snapshotKey sessionId))
    (stores .nativeRuntime (snapshotKey sessionId)) (indexItems (stores .sessions indexKey))
  rwa [Stores.put_self] at h

theorem storedFailing_native : storedFailing 1 error stores sessionId catalog = (.error error, ⟨stores, []⟩) := by
  have h := @deleteStored_nativeFails stores error sessionId catalog (stores .sessions (snapshotKey sessionId))
    (stores .nativeRuntime (snapshotKey sessionId)) (indexItems (stores .sessions indexKey))
  rwa [Stores.put_deleted, Stores.put_self] at h

theorem put_back {stores' : Stores}
    (hsnapshot : ∀ file, stores' file (snapshotKey sessionId) = stores file (snapshotKey sessionId)) :
    ((withoutSnapshots stores' sessionId).put .sessions (snapshotKey sessionId)
        (stores .sessions (snapshotKey sessionId))).put .nativeRuntime (snapshotKey sessionId)
      (stores .nativeRuntime (snapshotKey sessionId)) = stores' := by
  rw [← hsnapshot, ← hsnapshot, Stores.put_withoutSnapshots]

theorem withCatalog_snapshot (file : StoreFile) :
    withCatalog stores catalog file (snapshotKey sessionId) = stores file (snapshotKey sessionId) :=
  Stores.set_of_ne fun heq => snapshotKey_ne_sessionIdsKey sessionId heq.2.symm

theorem storedFailing_catalog (hindex : indexItems (stores .sessions indexKey) = none) :
    storedFailing 2 error stores sessionId catalog = (.error error, ⟨withCatalog stores catalog, []⟩) := by
  rw [storedFailing, hindex]
  refine (deleteStored_metadataFails deleteMetadata_catalogFails).trans ?_
  rw [Stores.withoutSnapshots_set (snapshotKey_ne_sessionIdsKey sessionId), ← withCatalog, put_back withCatalog_snapshot]

theorem storedFailing_index {items : List JsData} (hindex : indexItems (stores .sessions indexKey) = some items) :
    storedFailing 2 error stores sessionId catalog = (.error error, ⟨stores, []⟩) := by
  rw [storedFailing, hindex]
  refine (deleteStored_metadataFails deleteMetadata_indexFails).trans ?_
  rw [Stores.withoutSnapshots_set (snapshotKey_ne_indexKey sessionId), Stores.set_self (indexItems_eq hindex),
    put_back fun _ => rfl]

theorem storedFailing_indexedCatalog {items : List JsData}
    (hindex : indexItems (stores .sessions indexKey) = some items) :
    storedFailing 3 error stores sessionId catalog = (.error error, ⟨withCatalog stores catalog, []⟩) := by
  rw [storedFailing, hindex]
  refine (deleteStored_metadataFails deleteMetadata_indexedCatalogFails).trans ?_
  have hne : ¬ (StoreFile.sessions = .sessions ∧ sessionIdsKey = indexKey) := fun heq => absurd heq.2 (by decide)
  have hkept : (withCatalog stores catalog) .sessions indexKey = some (.list items) :=
    (Stores.set_of_ne fun heq => hne ⟨rfl, heq.2.symm⟩).trans (indexItems_eq hindex)
  rw [Stores.set_comm fun heq => hne ⟨rfl, heq.2.symm⟩, Stores.set_set,
    Stores.withoutSnapshots_set (snapshotKey_ne_sessionIdsKey sessionId), ← withCatalog,
    Stores.withoutSnapshots_set (snapshotKey_ne_indexKey sessionId), Stores.set_self hkept,
    put_back withCatalog_snapshot]

theorem storedFailing_later (hindex : indexItems (stores .sessions indexKey) = none) :
    (storedFailing (n + 3) error stores sessionId catalog).2.faults = List.replicate n none ++ [some error] := by
  rw [storedFailing, hindex]
  obtain ⟨after, hrun⟩ := @deleteMetadata_run (withoutSnapshots stores sessionId) (List.replicate n none ++ [some error])
    sessionId catalog
  exact congrArg (fun out => out.2.faults) (deleteStored_run hrun)

theorem storedFailing_indexedLater {items : List JsData} (hindex : indexItems (stores .sessions indexKey) = some items) :
    (storedFailing (n + 4) error stores sessionId catalog).2.faults = List.replicate n none ++ [some error] := by
  rw [storedFailing, hindex]
  obtain ⟨after, hrun⟩ := @deleteMetadata_indexed_run (withoutSnapshots stores sessionId)
    (List.replicate n none ++ [some error]) sessionId catalog items
  exact congrArg (fun out => out.2.faults) (deleteStored_run hrun)

end

/-- The deletion where the operation with this number fails, and no other. -/
def deletionFailing (n : ℕ) (error : String) (stores : Stores) (sessionId : JsText) : Except String Unit × Work Stores :=
  performDeletePersistedSession sessionId ⟨stores, List.replicate n none ++ [some error]⟩

section

variable {stores : Stores} {sessionId : JsText} {catalog : List JsText} {n : ℕ} {error : String}

theorem deletionFailing_read
    (h : parseSessionIds ((stores .sessions sessionIdsKey).getD (.list [])) = .ok catalog) (hn : n < 4) :
    deletionFailing n error stores sessionId = (.error error, ⟨stores, []⟩) := by
  match n with
  | 0 => rfl
  | 1 | 2 | 3 => exact perform_listed h

theorem deletionFailing_stored
    (h : parseSessionIds ((stores .sessions sessionIdsKey).getD (.list [])) = .ok catalog) :
    deletionFailing (n + 4) error stores sessionId = storedFailing n error stores sessionId catalog :=
  perform_listed h

theorem deletionFailing_eq (hfails : (deletionFailing n error stores sessionId).2.faults = []) :
    (n ≠ catalogSave stores ∧ deletionFailing n error stores sessionId = (.error error, ⟨stores, []⟩)) ∨
      ∃ catalog, parseSessionIds ((stores .sessions sessionIdsKey).getD (.list [])) = .ok catalog ∧
        n = catalogSave stores ∧
        deletionFailing n error stores sessionId = (.error error, ⟨withCatalog stores catalog, []⟩) := by
  have hsave : catalogSave stores = 6 ∨ catalogSave stores = 7 := by
    unfold catalogSave
    split
    · exact .inr rfl
    · exact .inl rfl
  cases hparse : parseSessionIds ((stores .sessions sessionIdsKey).getD (.list [])) with
  | error reason =>
    cases n with
    | zero => exact .inl ⟨by omega, rfl⟩
    | succ n =>
      have hout : deletionFailing (n + 1) error stores sessionId = _ := perform_malformed hparse
      rw [hout] at hfails
      exact absurd hfails (List.append_ne_nil_of_right_ne_nil _ (List.cons_ne_nil _ _))
  | ok catalog =>
    by_cases hn : n < 4
    · exact .inl ⟨by omega, deletionFailing_read hparse hn⟩
    · obtain ⟨m, rfl⟩ : ∃ m, n = m + 4 := ⟨n - 4, by omega⟩
      rw [deletionFailing_stored hparse] at hfails ⊢
      cases hindex : indexItems (stores .sessions indexKey) with
      | none =>
        have hcatalog : catalogSave stores = 6 := by rw [catalogSave, hindex]; rfl
        match m with
        | 0 => exact .inl ⟨by omega, storedFailing_snapshot⟩
        | 1 => exact .inl ⟨by omega, storedFailing_native⟩
        | 2 => exact .inr ⟨catalog, rfl, hcatalog.symm, storedFailing_catalog hindex⟩
        | m + 3 =>
          rw [storedFailing_later hindex] at hfails
          exact absurd hfails (List.append_ne_nil_of_right_ne_nil _ (List.cons_ne_nil _ _))
      | some items =>
        have hcatalog : catalogSave stores = 7 := by rw [catalogSave, hindex]; rfl
        match m with
        | 0 => exact .inl ⟨by omega, storedFailing_snapshot⟩
        | 1 => exact .inl ⟨by omega, storedFailing_native⟩
        | 2 => exact .inl ⟨by omega, storedFailing_index hindex⟩
        | 3 => exact .inr ⟨catalog, rfl, hcatalog.symm, storedFailing_indexedCatalog hindex⟩
        | m + 4 =>
          rw [storedFailing_indexedLater hindex] at hfails
          exact absurd hfails (List.append_ne_nil_of_right_ne_nil _ (List.cons_ne_nil _ _))

end

/-- A deletion that fails leaves the stores as they were, unless it fails at the save of a catalog that was not stored
as it is written. -/
theorem deletion_undone_iff (stores : Stores) (sessionId : JsText) (n : ℕ) (error : String)
    (hfails : (deletionFailing n error stores sessionId).2.faults = []) :
    ((∃ thrown, (deletionFailing n error stores sessionId).1 = .error thrown) ∧
        (deletionFailing n error stores sessionId).2.copy = stores) ↔
      (n = catalogSave stores → CatalogKept stores) := by
  rcases deletionFailing_eq hfails with ⟨hn, hout⟩ | ⟨catalog, hparse, hn, hout⟩
  · rw [hout]
    exact ⟨fun _ h => absurd h hn, fun _ => ⟨⟨error, rfl⟩, rfl⟩⟩
  · rw [hout, catalogKept_iff hparse]
    have hsame : withCatalog stores catalog = stores ↔ stores .sessions sessionIdsKey = some (catalogData catalog) := by
      constructor
      · intro h
        rw [← h]
        exact Stores.set_same
      · exact Stores.set_self
    exact ⟨fun h _ => hsame.1 h.2, fun h => ⟨⟨error, rfl⟩, hsame.2 (h hn)⟩⟩

/-- The save of the catalog fails, and the catalog is there. -/
theorem deletion_undone_iff_listed :
    let stores : Stores := fun file key =>
      if file = .sessions ∧ key = sessionIdsKey then some (catalogData [js "a", js "b"])
      else if key = snapshotKey (js "a") then some .null else none
    (deletionFailing 6 "disk full" stores (js "a")).2.copy = stores := by
  intro stores
  refine ((deletion_undone_iff stores (js "a") 6 "disk full" rfl).2 fun _ => ?_).2
  exact ⟨[js "a", js "b"], rfl, by decide⟩

/-- Where there was no catalog, the catalog is an empty one afterwards. -/
theorem catalog_not_restored :
    let stores : Stores := fun _ _ => none
    let out := deletionFailing 6 "disk full" stores (js "a")
    out.1 = .error "disk full" ∧ out.2.faults = [] ∧ out.2.copy .sessions sessionIdsKey = some (catalogData []) := by
  intro stores out
  exact ⟨rfl, rfl, rfl⟩

end Wiii.NekoChill
