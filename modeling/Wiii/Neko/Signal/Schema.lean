import Wiii.Lib.Table
import Wiii.Neko.Signal.Platform

/-!
# The tables of the signal inbox

`Items` is the table of signals with its two keys: the signal id is unique, and every row has a larger sequence number
than the rows inserted before it, since the numbers are drawn from a counter that never goes back.  The text columns of
kinds, priorities, states and outcomes hold the enumerations themselves.
-/

namespace Wiii.Neko.Signal

/-- A row of `signal_items`. -/
structure StoredSignal where
  seq : ℕ
  signalId : String
  sourceId : String
  accountGrantHash : List UInt8
  appId : String
  coalesceHash : List UInt8
  kind : SignalKind
  observedAt : String
  availableAt : String
  expiresAt : String
  priorityClass : SignalPriority
  state : SignalState
  claimWorkerId : Option String
  claimLeaseId : Option String
  claimExpiresAt : Option String
  claimAttempt : ℕ
  contentAvailable : Bool
  gapDetected : Bool
  coalescedCount : ℕ
  lastOutcome : Option SignalOutcome
  updatedAt : String
  cipherAt : String
  nonce : List UInt8
  ciphertext : List UInt8
  deriving DecidableEq

/-- A row of `signal_dedupe`. -/
structure DedupeRow where
  dedupeHash : List UInt8
  signalId : String
  seenAt : String
  deriving DecidableEq

/-- A row of `signal_cursors`. -/
structure CursorRow where
  cursorKey : List UInt8
  sourceId : String
  accountGrantHash : List UInt8
  updatedAt : String
  gapDetected : Bool
  nonce : List UInt8
  ciphertext : List UInt8
  deriving DecidableEq

/-- A row of `signal_operations`. -/
structure OperationRow where
  operationId : String
  signalId : String
  action : String
  sourceRevisionHash : Option (List UInt8)
  resultState : SignalState
  completedAt : String
  deriving DecidableEq

/-- The update of a row leaves its keys alone. -/
structure KeepsKeys (f : StoredSignal → StoredSignal) : Prop where
  signalId : ∀ r, (f r).signalId = r.signalId
  seq : ∀ r, (f r).seq = r.seq

structure Items where
  table : Table StoredSignal.signalId
  /-- The largest sequence number given out. -/
  lastSeq : ℕ
  ordered : (table.rows.map StoredSignal.seq).Pairwise (· < ·)
  bounded : ∀ r ∈ table, r.seq ≤ lastSeq

namespace Items

instance : EmptyCollection Items := ⟨⟨∅, 0, List.Pairwise.nil, by simp⟩⟩

instance : Membership StoredSignal Items := ⟨fun items r => r ∈ items.table⟩

def rows (items : Items) : List StoredSignal := items.table.rows

def find? (items : Items) (signalId : String) : Option StoredSignal := items.table.find? signalId

theorem mem_iff {items : Items} {r : StoredSignal} : r ∈ items ↔ r ∈ items.rows := Iff.rfl

theorem find?_eq_some_iff {items : Items} {id : String} {r : StoredSignal} :
    items.find? id = some r ↔ r ∈ items ∧ r.signalId = id :=
  Table.find?_eq_some_iff

theorem mem_of_find? {items : Items} {id : String} {r : StoredSignal}
    (h : items.find? id = some r) : r ∈ items :=
  (find?_eq_some_iff.1 h).1

theorem find?_of_mem {items : Items} {r : StoredSignal} (h : r ∈ items) :
    items.find? r.signalId = some r :=
  find?_eq_some_iff.2 ⟨h, rfl⟩

@[simp] theorem find?_empty (id : String) : (∅ : Items).find? id = none := rfl

@[simp] theorem not_mem_empty (r : StoredSignal) : r ∉ (∅ : Items) := by
  simp [mem_iff, rows, EmptyCollection.emptyCollection]

theorem eq_of_seq_eq {items : Items} {r s : StoredSignal} (hr : r ∈ items) (hs : s ∈ items)
    (h : r.seq = s.seq) : r = s :=
  List.inj_on_of_nodup_map (items.ordered.imp ne_of_lt) hr hs h

/-- `DELETE … WHERE p`. -/
def deleteWhere (items : Items) (p : StoredSignal → Bool) : Items where
  table := items.table.deleteWhere p
  lastSeq := items.lastSeq
  ordered := items.ordered.sublist (List.filter_sublist.map _)
  bounded := fun r hr => items.bounded r (Table.mem_deleteWhere.1 hr).1

@[simp] theorem find?_deleteWhere (items : Items) (p : StoredSignal → Bool) (id : String) :
    (items.deleteWhere p).find? id = (items.find? id).filter (fun r => !p r) :=
  Table.find?_deleteWhere _ _ _

theorem rows_deleteWhere (items : Items) (p : StoredSignal → Bool) :
    (items.deleteWhere p).rows = items.rows.filter fun r => !p r := rfl

/-- `UPDATE … SET f WHERE p`. -/
def updateWhere (items : Items) (p : StoredSignal → Bool) (f : StoredSignal → StoredSignal)
    (hf : KeepsKeys f) : Items where
  table := items.table.updateWhere p f hf.signalId
  lastSeq := items.lastSeq
  ordered := by
    have h : (StoredSignal.seq ∘ fun r => if p r then f r else r) = StoredSignal.seq := by
      funext r
      by_cases hp : p r <;> simp [hp, hf.seq]
    rw [Table.updateWhere, List.map_map, h]
    exact items.ordered
  bounded := by
    intro r hr
    obtain ⟨s, hs, rfl⟩ := (Table.mem_updateWhere hf.signalId).1 hr
    have hb := items.bounded s hs
    by_cases hp : p s <;> simp [hp, hf.seq, hb]

@[simp] theorem find?_updateWhere (items : Items) (p : StoredSignal → Bool)
    (f : StoredSignal → StoredSignal) (hf : KeepsKeys f) (id : String) :
    (items.updateWhere p f hf).find? id =
      (items.find? id).map (fun r => if p r then f r else r) :=
  Table.find?_updateWhere _ _ _ hf.signalId _

theorem find?_updateWhere_of_unique {items : Items} {p : StoredSignal → Bool}
    {f : StoredSignal → StoredSignal} (hf : KeepsKeys f) {r : StoredSignal} (hr : r ∈ items)
    (hp : ∀ s ∈ items, p s ↔ s = r) (id : String) :
    (items.updateWhere p f hf).find? id =
      if id = r.signalId then some (f r) else items.find? id := by
  rw [find?_updateWhere]
  split_ifs with hid
  · subst hid
    rw [find?_of_mem hr, Option.map_some, if_pos ((hp r hr).2 rfl)]
  · cases hs : items.find? id with
    | none => rfl
    | some s =>
      obtain ⟨hmem, hsid⟩ := find?_eq_some_iff.1 hs
      rw [Option.map_some, if_neg]
      intro h
      rw [(hp s hmem).1 h] at hsid
      exact hid hsid.symm

@[simp] theorem length_updateWhere (items : Items) (p : StoredSignal → Bool)
    (f : StoredSignal → StoredSignal) (hf : KeepsKeys f) :
    (items.updateWhere p f hf).rows.length = items.rows.length := by
  simp [rows, updateWhere, Table.updateWhere]

/-- `INSERT` with the next sequence number: refused when the signal id is taken. -/
def insert? (items : Items) (row : ℕ → StoredSignal) (hseq : ∀ n, (row n).seq = n) :
    Option Items :=
  match h : items.table.insert? (row (items.lastSeq + 1)) with
  | none => none
  | some table => some
    { table := table
      lastSeq := items.lastSeq + 1
      ordered := by
        rw [(Table.insert?_eq_some_iff.1 h).2, List.map_append, List.pairwise_append]
        refine ⟨items.ordered, List.pairwise_singleton _ _, ?_⟩
        intro n hn m hm
        obtain ⟨r, hr, rfl⟩ := List.mem_map.1 hn
        rw [List.map_singleton, List.mem_singleton] at hm
        rw [hm, hseq]
        exact Nat.lt_succ_of_le (items.bounded r hr)
      bounded := by
        intro r hr
        rcases (Table.mem_insert? h).1 hr with hr | rfl
        · exact (items.bounded r hr).trans (Nat.le_succ _)
        · exact (hseq _).le }

theorem insert?_eq_some {items items' : Items} {row : ℕ → StoredSignal}
    {hseq : ∀ n, (row n).seq = n} (h : items.insert? row hseq = some items') :
    items.find? (row (items.lastSeq + 1)).signalId = none ∧
      items'.rows = items.rows ++ [row (items.lastSeq + 1)] ∧
      items'.lastSeq = items.lastSeq + 1 := by
  unfold insert? at h
  split at h
  · cases h
  · rename_i table ht
    cases h
    obtain ⟨hn, hrows⟩ := Table.insert?_eq_some_iff.1 ht
    exact ⟨hn, hrows, rfl⟩

theorem find?_insert? {items items' : Items} {row : ℕ → StoredSignal}
    {hseq : ∀ n, (row n).seq = n} (h : items.insert? row hseq = some items') (id : String) :
    items'.find? id = if id = (row (items.lastSeq + 1)).signalId then
      some (row (items.lastSeq + 1)) else items.find? id :=
  Table.find?_of_rows_append (insert?_eq_some h).1 (insert?_eq_some h).2.1 id

end Items

/-- The contents of the inbox, and how many random values were drawn for it. -/
structure Inbox where
  items : Items
  dedupe : Table DedupeRow.dedupeHash
  cursors : Table CursorRow.cursorKey
  operations : Table OperationRow.operationId
  drawn : ℕ

def Inbox.empty : Inbox := ⟨∅, ∅, ∅, ∅, 0⟩

end Wiii.Neko.Signal
