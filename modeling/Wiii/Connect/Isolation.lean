import Wiii.Connect.Storage

/-!
# Owners do not touch each other's rows

Approval rows are keyed by their owner, and every read and update of a connection names its owner; only
`upsert_connection_record` finds its row by the id alone.  So the rows of other owners stay exactly where no connection
is stored under an id that another owner has (`isolated_iff`).
-/

namespace Wiii.Connect

inductive StorageAct where
  | append (record : ApprovalRecord) (organizationId userId : String) (now : ℤ)
  | consume (previewEvidenceId requestFingerprint organizationId userId providerSlug : String) (now : ℤ)
  | upsert (connection : ConnectionRecord) (organizationId userId providerKind : String) (now : ℤ)
  | expire (organizationId userId providerSlug : String) (ttlSeconds now : ℤ)
  | get (organizationId userId providerSlug connectionId : String)
  | list (organizationId userId providerSlug : String) (limit : ℤ)
  /-- A call for whose statements the database fails. -/
  | failed

namespace StorageAct

def owner : StorageAct → Option Owner
  | append _ organizationId userId _ | consume _ _ organizationId userId _ _ | upsert _ organizationId userId _ _
  | expire organizationId userId _ _ _ | get organizationId userId _ _ | list organizationId userId _ _ =>
    normalizeOwner organizationId userId
  | failed => none

end StorageAct

structure Stored where
  db : Database := {}
  writers : String → Option Owner := fun _ => none

namespace Stored

variable (table : CaseTable)

/-- The ids of the connections that the operation stores. -/
def writes (s : Stored) : StorageAct → String → Bool
  | .upsert connection organizationId userId kind now, id =>
    (s.db.upsertConnectionRecord connection organizationId userId kind now).1 && decide (id = connection.connectionId)
  | .expire organizationId userId providerSlug ttlSeconds now, id =>
    match normalizeOwner organizationId userId with
    | some owner => decide (normalizeProviderSlug table providerSlug ≠ "") && (s.db.connections.find? id).any
        (Database.stale owner (normalizeProviderSlug table providerSlug) (now - max 60 ttlSeconds))
    | none => false
  | _, _ => false

def nextDatabase (db : Database) : StorageAct → Database
  | .append record organizationId userId now => (db.appendOperationApprovalRecord record organizationId userId now).2
  | .consume preview fingerprint organizationId userId providerSlug now =>
    (db.consumeOperationApprovalRecord table preview fingerprint organizationId userId providerSlug now).2
  | .upsert connection organizationId userId kind now =>
    (db.upsertConnectionRecord connection organizationId userId kind now).2
  | .expire organizationId userId providerSlug ttlSeconds now =>
    (db.expireStalePendingConnections table organizationId userId providerSlug ttlSeconds now).2
  | _ => db

def selects (db : Database) : StorageAct → List ConnectionRow
  | .get organizationId userId providerSlug connectionId =>
    (db.selectConnection table organizationId userId providerSlug connectionId).toList
  | .list organizationId userId providerSlug limit =>
    db.selectConnections table organizationId userId providerSlug limit
  | _ => []

def step (s : Stored) (act : StorageAct) : Stored where
  db := nextDatabase table s.db act
  writers := fun id => if s.writes table act id then act.owner else s.writers id

/-- The rows of other owners stay, and what is read the owner stored last. -/
structure IsolatedStep (s : Stored) (act : StorageAct) : Prop where
  connections : ∀ row : ConnectionRow, act.owner ≠ some row.owner →
    (row ∈ (nextDatabase table s.db act).connections ↔ row ∈ s.db.connections)
  approvals : ∀ row : ApprovalRow, act.owner ≠ some row.owner →
    (row ∈ (nextDatabase table s.db act).approvals ↔ row ∈ s.db.approvals)
  reads : ∀ row ∈ selects table s.db act, s.writers row.id = act.owner

def Isolated : Stored → List StorageAct → Prop
  | _, [] => True
  | s, act :: acts => IsolatedStep table s act ∧ Isolated (s.step table act) acts

/-- A connection is not stored under an id that another owner has. -/
def TakesNone (s : Stored) : StorageAct → Prop
  | .upsert connection organizationId userId kind now =>
    (s.db.upsertConnectionRecord connection organizationId userId kind now).1 = true →
      ∀ row, s.db.connections.find? connection.connectionId = some row →
        normalizeOwner organizationId userId = some row.owner
  | _ => True

def TakesNoneAll : Stored → List StorageAct → Prop
  | _, [] => True
  | s, act :: acts => TakesNone s act ∧ TakesNoneAll (s.step table act) acts

variable {table} {s : Stored}

def Written (s : Stored) : Prop := ∀ row ∈ s.db.connections, s.writers row.id = some row.owner

/-! ## Approvals -/

theorem mem_setApproval {db : Database} {key : Owner × String × String} {status : ApprovalStatus}
    {reason : ApprovalReason} {consumedAt : Option ℤ} {now : ℤ} {row : ApprovalRow} (h : row.owner ≠ key.1) :
    row ∈ (db.setApproval key status reason consumedAt now).approvals ↔ row ∈ db.approvals := by
  refine Iff.trans (Table.mem_updateWhere (ApprovalRow.key_set status reason consumedAt now)) ?_
  constructor
  · rintro ⟨old, hold, rfl⟩
    by_cases hkey : decide (old.key = key) = true
    · rw [if_pos hkey] at h
      exact absurd (congrArg Prod.fst (of_decide_eq_true hkey)) h
    · rw [if_neg hkey]
      exact hold
  · intro hrow
    have hkey : ¬ decide (row.key = key) = true := fun hkey => h (congrArg Prod.fst (of_decide_eq_true hkey))
    exact ⟨row, hrow, if_neg hkey⟩

theorem approvals_append {db : Database} {record : ApprovalRecord} {organizationId userId : String} {now : ℤ}
    {row : ApprovalRow} (h : normalizeOwner organizationId userId ≠ some row.owner) :
    row ∈ (db.appendOperationApprovalRecord record organizationId userId now).2.approvals ↔ row ∈ db.approvals := by
  unfold Database.appendOperationApprovalRecord
  cases howner : normalizeOwner organizationId userId with
  | none => exact Iff.rfl
  | some owner =>
    rw [howner] at h
    dsimp only
    split
    · exact Iff.rfl
    · have hne : ∀ new : ApprovalRow, new.owner = owner →
          (row ∈ db.approvals.upsert new ↔ row ∈ db.approvals) := by
        intro new hnew
        rw [Table.mem_upsert]
        have hrow : row.owner ≠ new.owner := fun heq => h (congrArg some (hnew ▸ heq.symm))
        have hkey : row.key ≠ new.key := fun heq => hrow (congrArg Prod.fst heq)
        refine ⟨fun hmem => ?_, fun hmem => .inr ⟨hmem, hkey⟩⟩
        rcases hmem with heq | hmem
        · exact absurd (congrArg ApprovalRow.owner heq) hrow
        · exact hmem.1
      apply hne
      split <;> rfl

theorem approvals_consume {db : Database} {preview fingerprint organizationId userId providerSlug : String} {now : ℤ}
    {row : ApprovalRow} (h : normalizeOwner organizationId userId ≠ some row.owner) :
    row ∈ (db.consumeOperationApprovalRecord table preview fingerprint organizationId userId providerSlug
      now).2.approvals ↔ row ∈ db.approvals := by
  unfold Database.consumeOperationApprovalRecord
  cases howner : normalizeOwner organizationId userId with
  | none => exact Iff.rfl
  | some owner =>
    have hne : row.owner ≠ owner := fun heq => h (howner.trans (congrArg some heq.symm))
    dsimp only
    split
    · exact Iff.rfl
    · split
      · exact Iff.rfl
      · split
        · exact Iff.rfl
        · split
          · exact mem_setApproval hne
          · split
            · exact Iff.rfl
            · exact mem_setApproval hne

/-! ## Connections -/

theorem upsert_cases (db : Database) (connection : ConnectionRecord) (organizationId userId kind : String) (now : ℤ) :
    (db.upsertConnectionRecord connection organizationId userId kind now = (false, db)) ∨
      ∃ row : ConnectionRow, row.id = connection.connectionId ∧ normalizeOwner organizationId userId = some row.owner ∧
        db.upsertConnectionRecord connection organizationId userId kind now =
          (true, { db with connections := db.connections.upsert row }) := by
  unfold Database.upsertConnectionRecord
  cases normalizeOwner organizationId userId with
  | none => exact .inl rfl
  | some owner =>
    dsimp only
    split
    · exact .inl rfl
    · exact .inr ⟨_, rfl, rfl, rfl⟩

theorem mem_expire {db : Database} {organizationId userId providerSlug : String} {ttlSeconds now : ℤ}
    {row : ConnectionRow} (h : row ∈ (db.expireStalePendingConnections table organizationId userId providerSlug
      ttlSeconds now).2.connections) :
    (row ∈ db.connections ∧
        (∀ owner, normalizeOwner organizationId userId = some owner → normalizeProviderSlug table providerSlug ≠ "" →
          Database.stale owner (normalizeProviderSlug table providerSlug) (now - max 60 ttlSeconds) row = false)) ∨
      (∃ old ∈ db.connections, old.id = row.id ∧ normalizeOwner organizationId userId = some row.owner ∧
        normalizeProviderSlug table providerSlug ≠ "" ∧
        Database.stale row.owner (normalizeProviderSlug table providerSlug) (now - max 60 ttlSeconds) old = true) := by
  unfold Database.expireStalePendingConnections at h
  cases howner : normalizeOwner organizationId userId with
  | none =>
    rw [howner] at h
    exact .inl ⟨h, fun _ howner => (nomatch howner)⟩
  | some owner =>
    rw [howner] at h
    dsimp only at h
    split at h
    · rename_i hslug
      exact .inl ⟨h, fun _ _ hne => absurd hslug hne⟩
    · rename_i hslug
      obtain ⟨old, hold, rfl⟩ := (Table.mem_updateWhere (ConnectionRow.id_expire now)).1 h
      by_cases hstale : Database.stale owner (normalizeProviderSlug table providerSlug) (now - max 60 ttlSeconds) old
      · have howner' : old.owner = owner := by
          simp only [Database.stale, Bool.and_eq_true, decide_eq_true_eq] at hstale
          exact hstale.1.1.1
        rw [if_pos hstale]
        subst howner'
        exact .inr ⟨old, hold, rfl, rfl, hslug, hstale⟩
      · rw [if_neg hstale]
        refine .inl ⟨hold, fun owner' howner' _ => ?_⟩
        rw [← Option.some.inj howner']
        exact Bool.eq_false_iff.2 hstale

theorem mem_expire_of_ne {db : Database} {organizationId userId providerSlug : String} {ttlSeconds now : ℤ}
    {row : ConnectionRow} (h : row ∈ db.connections) (hne : normalizeOwner organizationId userId ≠ some row.owner) :
    row ∈ (db.expireStalePendingConnections table organizationId userId providerSlug ttlSeconds now).2.connections := by
  unfold Database.expireStalePendingConnections
  cases howner : normalizeOwner organizationId userId with
  | none => exact h
  | some owner =>
    rw [howner] at hne
    dsimp only
    split
    · exact h
    · refine (Table.mem_updateWhere (ConnectionRow.id_expire now)).2 ⟨row, h, if_neg fun hstale => ?_⟩
      simp only [Database.stale, Bool.and_eq_true, decide_eq_true_eq] at hstale
      exact hne (congrArg some hstale.1.1.1.symm)

theorem connections_expire {db : Database} {organizationId userId providerSlug : String} {ttlSeconds now : ℤ}
    {row : ConnectionRow} (hne : normalizeOwner organizationId userId ≠ some row.owner) :
    row ∈ (db.expireStalePendingConnections table organizationId userId providerSlug ttlSeconds now).2.connections ↔
      row ∈ db.connections := by
  refine ⟨fun hrow => ?_, fun hrow => mem_expire_of_ne hrow hne⟩
  rcases mem_expire hrow with ⟨hmem, -⟩ | ⟨-, -, -, howner, -⟩
  · exact hmem
  · exact absurd howner hne

theorem connections_append (db : Database) (record : ApprovalRecord) (organizationId userId : String) (now : ℤ) :
    (db.appendOperationApprovalRecord record organizationId userId now).2.connections = db.connections := by
  unfold Database.appendOperationApprovalRecord
  split
  · split <;> rfl
  · rfl

theorem connections_consume (db : Database) (preview fingerprint organizationId userId providerSlug : String)
    (now : ℤ) : (db.consumeOperationApprovalRecord table preview fingerprint organizationId userId providerSlug
      now).2.connections = db.connections := by
  unfold Database.consumeOperationApprovalRecord
  split
  · rfl
  · dsimp only
    split
    · rfl
    · split
      · rfl
      · split
        · rfl
        · split
          · rfl
          · split <;> rfl

theorem approvals_upsert (db : Database) (connection : ConnectionRecord) (organizationId userId kind : String)
    (now : ℤ) : (db.upsertConnectionRecord connection organizationId userId kind now).2.approvals = db.approvals := by
  rcases upsert_cases db connection organizationId userId kind now with h | ⟨row, -, -, h⟩
  · rw [h]
  · rw [h]

theorem approvals_expire (db : Database) (organizationId userId providerSlug : String) (ttlSeconds now : ℤ) :
    (db.expireStalePendingConnections table organizationId userId providerSlug ttlSeconds now).2.approvals =
      db.approvals := by
  unfold Database.expireStalePendingConnections
  split
  · dsimp only
    split <;> rfl
  · rfl

theorem mem_of_selects {db : Database} {act : StorageAct} {row : ConnectionRow} (h : row ∈ selects table db act) :
    row ∈ db.connections ∧ act.owner = some row.owner := by
  have howned : ∀ {owner : Owner} {slug : String}, row ∈ db.ownedRows owner slug →
      row ∈ db.connections ∧ row.owner = owner := by
    intro owner slug hmem
    have hmem := List.mem_filter.1 (List.mem_mergeSort.1 hmem)
    rw [Bool.and_eq_true, decide_eq_true_eq] at hmem
    exact ⟨hmem.1, hmem.2.1⟩
  cases act with
  | get organizationId userId providerSlug connectionId =>
    dsimp only [selects] at h
    rw [Option.mem_toList] at h
    unfold Database.selectConnection at h
    cases howner : normalizeOwner organizationId userId with
    | none =>
      rw [howner] at h
      cases h
    | some owner =>
      rw [howner] at h
      dsimp only at h
      split at h
      · cases h
      · obtain ⟨hmem, hrow⟩ := howned (List.mem_of_find?_eq_some h)
        exact ⟨hmem, howner.trans (congrArg some hrow.symm)⟩
  | list organizationId userId providerSlug limit =>
    dsimp only [selects] at h
    unfold Database.selectConnections at h
    cases howner : normalizeOwner organizationId userId with
    | none =>
      rw [howner] at h
      cases h
    | some owner =>
      rw [howner] at h
      dsimp only at h
      split at h
      · cases h
      · obtain ⟨hmem, hrow⟩ := howned (List.mem_of_mem_take h)
        exact ⟨hmem, howner.trans (congrArg some hrow.symm)⟩
  | append record organizationId userId now => cases h
  | consume preview fingerprint organizationId userId providerSlug now => cases h
  | upsert connection organizationId userId kind now => cases h
  | expire organizationId userId providerSlug ttlSeconds now => cases h
  | failed => cases h

/-! ## Every operation -/

theorem written_step (h : Written s) (act : StorageAct) : Written (s.step table act) := by
  intro row hrow
  show (if s.writes table act row.id = true then act.owner else s.writers row.id) = some row.owner
  cases act with
  | append record organizationId userId now =>
    rw [step, nextDatabase, connections_append] at hrow
    exact h row hrow
  | consume preview fingerprint organizationId userId providerSlug now =>
    rw [step, nextDatabase, connections_consume] at hrow
    exact h row hrow
  | upsert connection organizationId userId kind now =>
    have hwrites : s.writes table (.upsert connection organizationId userId kind now) row.id =
        ((s.db.upsertConnectionRecord connection organizationId userId kind now).1 &&
          decide (row.id = connection.connectionId)) := rfl
    rw [step, nextDatabase] at hrow
    rcases upsert_cases s.db connection organizationId userId kind now with hcall | ⟨new, hid, howner, hcall⟩
    · rw [hcall] at hrow hwrites
      rw [hwrites]
      exact h row hrow
    · rw [hcall, ← hid] at hwrites
      rw [hcall] at hrow
      rcases Table.mem_upsert.1 hrow with rfl | ⟨hrow, hne⟩
      · rw [decide_eq_true rfl] at hwrites
        rw [hwrites]
        exact howner
      · rw [decide_eq_false hne] at hwrites
        rw [hwrites]
        exact h row hrow
  | expire organizationId userId providerSlug ttlSeconds now =>
    rw [step, nextDatabase] at hrow
    rcases mem_expire hrow with ⟨hmem, hfresh⟩ | ⟨old, hold, hid, howner, hslug, hstale⟩
    · have hwrites : s.writes table (.expire organizationId userId providerSlug ttlSeconds now) row.id = false := by
        rw [writes]
        split
        · rename_i owner howner
          rw [Table.find?_of_mem hmem, Option.any_some, Bool.and_eq_false_iff, Classical.or_iff_not_imp_left,
            Bool.not_eq_false, decide_eq_true_eq]
          exact hfresh owner howner
        · rfl
      rw [hwrites]
      exact h row hmem
    · have hwrites : s.writes table (.expire organizationId userId providerSlug ttlSeconds now) row.id = true := by
        rw [writes, howner, ← hid, Table.find?_of_mem hold, decide_eq_true hslug]
        exact hstale
      rw [hwrites]
      exact howner
  | get organizationId userId providerSlug connectionId => exact h row hrow
  | list organizationId userId providerSlug limit => exact h row hrow
  | failed => exact h row hrow

theorem isolatedStep_iff (h : Written s) (act : StorageAct) : IsolatedStep table s act ↔ TakesNone s act := by
  have hreads : ∀ row ∈ selects table s.db act, s.writers row.id = act.owner := by
    intro row hrow
    obtain ⟨hmem, howner⟩ := mem_of_selects hrow
    rw [howner]
    exact h row hmem
  cases act with
  | append record organizationId userId now =>
    refine iff_of_true ⟨fun row _ => ?_, fun row hne => approvals_append hne, hreads⟩ trivial
    rw [nextDatabase, connections_append]
  | consume preview fingerprint organizationId userId providerSlug now =>
    refine iff_of_true ⟨fun row _ => ?_, fun row hne => approvals_consume hne, hreads⟩ trivial
    rw [nextDatabase, connections_consume]
  | upsert connection organizationId userId kind now =>
    rcases upsert_cases s.db connection organizationId userId kind now with hcall | ⟨new, hid, howner, hcall⟩
    · refine iff_of_true ⟨fun row _ => ?_, fun row _ => ?_, hreads⟩ fun hsaved => ?_
      · rw [nextDatabase, hcall]
      · rw [nextDatabase, hcall]
      · rw [hcall] at hsaved
        cases hsaved
    · constructor
      · intro hisolated _ row hfind
        by_contra hne
        have hmem := (hisolated.connections row hne).2 (Table.mem_of_find? hfind)
        rw [nextDatabase, hcall] at hmem
        rcases Table.mem_upsert.1 hmem with heq | ⟨-, hkey⟩
        · exact hne (heq ▸ howner)
        · exact hkey ((Table.key_of_find? hfind).trans hid.symm)
      · intro htakes
        refine ⟨fun row hne => ?_, fun row _ => ?_, hreads⟩
        · rw [nextDatabase, hcall]
          refine Table.mem_upsert.trans ⟨fun hmem => ?_, fun hmem => .inr ⟨hmem, fun hkey => ?_⟩⟩
          · rcases hmem with heq | hmem
            · exact absurd (heq ▸ howner) hne
            · exact hmem.1
          · refine hne (htakes (by rw [hcall]) row ?_)
            rw [← hid, ← hkey]
            exact Table.find?_of_mem hmem
        · rw [nextDatabase, approvals_upsert]
  | expire organizationId userId providerSlug ttlSeconds now =>
    refine iff_of_true ⟨fun row hne => connections_expire hne, fun row _ => ?_, hreads⟩ trivial
    rw [nextDatabase, approvals_expire]
  | get organizationId userId providerSlug connectionId =>
    exact iff_of_true ⟨fun _ _ => Iff.rfl, fun _ _ => Iff.rfl, hreads⟩ trivial
  | list organizationId userId providerSlug limit =>
    exact iff_of_true ⟨fun _ _ => Iff.rfl, fun _ _ => Iff.rfl, hreads⟩ trivial
  | failed => exact iff_of_true ⟨fun _ _ => Iff.rfl, fun _ _ => Iff.rfl, hreads⟩ trivial

theorem isolated_iff_of_written (h : Written s) (acts : List StorageAct) :
    Isolated table s acts ↔ TakesNoneAll table s acts := by
  induction acts generalizing s with
  | nil => exact Iff.rfl
  | cons act acts ih => exact and_congr (isolatedStep_iff h act) (ih (written_step h act))

/-- Exactly the storing of a connection under an id of another owner breaks the isolation. -/
theorem isolated_iff (table : CaseTable) (acts : List StorageAct) :
    Isolated table {} acts ↔ TakesNoneAll table {} acts :=
  isolated_iff_of_written (fun row hrow => absurd hrow (Table.not_mem_empty row)) acts

def account : ConnectionRecord := { connectionId := "ca_1", providerSlug := "facebook", state := .connected }

/-- The second owner stores a connection under the id of the first one's. -/
theorem not_isolated :
    ¬ Isolated (fun c => [c]) {} [.upsert account "org" "alice" "composio" 0, .upsert account "org" "bob" "composio" 1] := by
  rw [isolated_iff_of_written fun row hrow => absurd hrow (Table.not_mem_empty row)]
  intro h
  have hsame := h.2.1 (by decide +kernel)
  revert hsame
  decide +kernel

end Stored

end Wiii.Connect
