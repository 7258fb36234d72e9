import Wiii.Lib.Run
import Wiii.Neko.Coworker.Records

/-!
# What the records of a coworker keep

Every call only extends the tables: activities are appended in the order of their numbers, deliverables stay as they
are, and a grant changes only when it is revoked (`Extends`, `Step.extends`).
-/

namespace Wiii.Neko.Coworker

/-! ## Insert or compare -/

/-- The row is of this content, revoked or not. -/
def NewAccountGrant.Matches (input : NewAccountGrant) (row : AccountGrantRow) : Prop :=
  row = { input.row row.createdAt with revokedAt := row.revokedAt }

def NewDeliverable.Matches (input : NewDeliverable) (row : Deliverable) : Prop :=
  row = input.row row.createdAt

def NewActivity.Matches (input : NewActivity) (row : ActivityEntry) : Prop :=
  row = input.row row.seq row.occurredAt

theorem NewAccountGrant.Matches.eq {input other : NewAccountGrant} {row : AccountGrantRow}
    (h : input.Matches row) (h' : other.Matches row) : other = input := by
  have heq : other.row row.createdAt = input.row row.createdAt := by
    have hrow := h'.symm.trans h
    simpa [NewAccountGrant.row] using hrow
  cases input
  cases other
  simpa [NewAccountGrant.row] using heq

theorem NewDeliverable.Matches.eq {input other : NewDeliverable} {row : Deliverable}
    (h : input.Matches row) (h' : other.Matches row) : other = input := by
  have heq : other.row row.createdAt = input.row row.createdAt := h'.symm.trans h
  cases input
  cases other
  simpa [NewDeliverable.row] using heq

theorem NewActivity.Matches.eq {input other : NewActivity} {row : ActivityEntry}
    (h : input.Matches row) (h' : other.Matches row) : other = input := by
  have heq : other.row row.seq row.occurredAt = input.row row.seq row.occurredAt := h'.symm.trans h
  cases input
  cases other
  simpa [NewActivity.row] using heq

namespace CoworkerRecords

theorem put_grantAccount (timestamp : Computer.Timestamp) (input : NewAccountGrant) (db : CoworkerRecords) :
    ∃ answer grants, Table.Put input.validate db.grants (input.row timestamp) input.Matches answer grants ∧
      db.grantAccount timestamp input = (answer.map AccountGrantRow.decode, { db with grants := grants }) := by
  unfold grantAccount
  cases hvalid : input.validate with
  | error error => exact ⟨_, _, .invalid rfl, rfl⟩
  | ok u =>
    cases hfind : db.grants.find? input.grantId with
    | none =>
      have hstored : (db.grants.insertOrIgnore (input.row timestamp)).find? input.grantId =
          some (input.row timestamp) := Table.find?_insertOrIgnore_self hfind
      refine ⟨_, _, .inserted rfl hfind, ?_⟩
      simp [hstored, Except.map]
    | some row =>
      have hkey : row.grantId = input.grantId := Table.key_of_find? hfind
      have hsame : db.grants.insertOrIgnore (input.row timestamp) = db.grants := Table.insertOrIgnore_of_find? hfind
      simp only [hsame, hfind]
      by_cases hm : input.Matches row
      · refine ⟨_, _, .again rfl hfind hm, ?_⟩
        rw [if_neg]
        · rfl
        · rw [hm]
          simp [NewAccountGrant.row, AccountGrantRow.decode]
      · refine ⟨_, _, .collided "account_grant_id_collision" hfind hm, ?_⟩
        rw [if_pos]
        · rfl
        · refine ⟨rfl, ?_⟩
          by_contra hcol
          simp only [not_or, not_not, decide_eq_false_iff_not] at hcol
          apply hm
          unfold NewAccountGrant.Matches
          cases row
          simp_all [NewAccountGrant.row, AccountGrantRow.decode]

theorem put_recordDeliverable (timestamp : Computer.Timestamp) (input : NewDeliverable) (db : CoworkerRecords) :
    ∃ answer deliverables,
      Table.Put input.validate db.deliverables (input.row timestamp) input.Matches answer deliverables ∧
        db.recordDeliverable timestamp input = (answer, { db with deliverables := deliverables }) := by
  unfold recordDeliverable
  cases hvalid : input.validate with
  | error error => exact ⟨_, _, .invalid rfl, rfl⟩
  | ok u =>
    cases hfind : db.deliverables.find? input.deliverableId with
    | none =>
      have hstored : (db.deliverables.insertOrIgnore (input.row timestamp)).find? input.deliverableId =
          some (input.row timestamp) := Table.find?_insertOrIgnore_self hfind
      refine ⟨_, _, .inserted rfl hfind, ?_⟩
      simp only [hstored]
      rw [if_neg (by simp [NewDeliverable.row])]
    | some row =>
      have hkey : row.deliverableId = input.deliverableId := Table.key_of_find? hfind
      have hsame : db.deliverables.insertOrIgnore (input.row timestamp) = db.deliverables :=
        Table.insertOrIgnore_of_find? hfind
      simp only [hsame, hfind]
      by_cases hm : input.Matches row
      · refine ⟨_, _, .again rfl hfind hm, ?_⟩
        rw [if_neg]
        rw [hm]
        simp [NewDeliverable.row]
      · refine ⟨_, _, .collided "deliverable_id_collision" hfind hm, ?_⟩
        rw [if_pos]
        by_contra hcol
        simp only [not_or, not_not] at hcol
        apply hm
        unfold NewDeliverable.Matches
        cases row
        simp_all [NewDeliverable.row]

theorem put_appendActivity (seq : ℕ) (timestamp : Computer.Timestamp) (input : NewActivity) (db : CoworkerRecords) :
    ∃ answer activity, Table.Put input.validate db.activity (input.row seq timestamp) input.Matches answer activity ∧
      db.appendActivity seq timestamp input = (answer, { db with activity := activity }) := by
  unfold appendActivity
  cases hvalid : input.validate with
  | error error => exact ⟨_, _, .invalid rfl, rfl⟩
  | ok u =>
    cases hfind : db.activity.find? input.activityId with
    | none =>
      have hstored : (db.activity.insertOrIgnore (input.row seq timestamp)).find? input.activityId =
          some (input.row seq timestamp) := Table.find?_insertOrIgnore_self hfind
      refine ⟨_, _, .inserted rfl hfind, ?_⟩
      simp only [hstored]
      rw [if_neg (by simp [NewActivity.row])]
    | some row =>
      have hkey : row.activityId = input.activityId := Table.key_of_find? hfind
      have hsame : db.activity.insertOrIgnore (input.row seq timestamp) = db.activity :=
        Table.insertOrIgnore_of_find? hfind
      simp only [hsame, hfind]
      by_cases hm : input.Matches row
      · refine ⟨_, _, .again rfl hfind hm, ?_⟩
        rw [if_neg]
        rw [hm]
        simp [NewActivity.row]
      · refine ⟨_, _, .collided "activity_id_collision" hfind hm, ?_⟩
        rw [if_pos]
        by_contra hcol
        simp only [not_or, not_not] at hcol
        apply hm
        unfold NewActivity.Matches
        cases row
        simp_all [NewActivity.row]

end CoworkerRecords

/-! ## What a call changes -/

/-- The row of a grant later on: only its revocation is new. -/
def AccountGrantRow.Kept (row later : AccountGrantRow) : Prop :=
  later = row ∨ (row.revokedAt = none ∧ ∃ timestamp, later = { row with revokedAt := some timestamp })

theorem AccountGrantRow.Kept.trans {a b c : AccountGrantRow} (h : a.Kept b) (h' : b.Kept c) : a.Kept c := by
  rcases h with rfl | ⟨hnone, timestamp, rfl⟩
  · exact h'
  · rcases h' with rfl | ⟨hsome, -⟩
    · exact .inr ⟨hnone, timestamp, rfl⟩
    · cases hsome

theorem AccountGrantRow.Kept.eq_of_revoked {row later : AccountGrantRow} (h : row.Kept later)
    (hrevoked : row.revokedAt ≠ none) : later = row :=
  h.resolve_right fun hnone => hrevoked hnone.1

theorem AccountGrantRow.Kept.revoke (row : AccountGrantRow) (timestamp : Computer.Timestamp) :
    row.Kept (row.revoke timestamp) := by
  cases hr : row.revokedAt with
  | none => exact .inr ⟨hr, timestamp, by rw [AccountGrantRow.revoke, hr, Option.getD_none]⟩
  | some since =>
    left
    rw [AccountGrantRow.revoke, hr, Option.getD_some, ← hr]

/-- The tables only grow, and a grant changes only by its revocation. -/
structure Extends (db db' : CoworkerRecords) : Prop where
  grants : ∀ row ∈ db.grants, ∃ later ∈ db'.grants, row.Kept later
  deliverables : ∀ row ∈ db.deliverables, row ∈ db'.deliverables
  activity : db.activity.rows <+: db'.activity.rows

theorem Extends.refl (db : CoworkerRecords) : Extends db db where
  grants row hrow := ⟨row, hrow, .inl rfl⟩
  deliverables _ hrow := hrow
  activity := List.prefix_rfl

theorem Extends.trans {a b c : CoworkerRecords} (h : Extends a b) (h' : Extends b c) : Extends a c where
  grants row hrow := by
    obtain ⟨later, hlater, hkept⟩ := h.grants row hrow
    obtain ⟨last, hlast, hkept'⟩ := h'.grants later hlater
    exact ⟨last, hlast, hkept.trans hkept'⟩
  deliverables row hrow := h'.deliverables row (h.deliverables row hrow)
  activity := h.activity.trans h'.activity

theorem extends_grantAccount (timestamp : Computer.Timestamp) (input : NewAccountGrant) (db : CoworkerRecords) :
    Extends db (db.grantAccount timestamp input).2 := by
  obtain ⟨answer, grants, hput, heq⟩ := db.put_grantAccount timestamp input
  rw [heq]
  exact ⟨fun row hrow => ⟨row, hput.rows_isPrefix.subset hrow, .inl rfl⟩, fun _ hrow => hrow, List.prefix_rfl⟩

theorem extends_revokeAccount (timestamp : Computer.Timestamp) (coworkerId grantId : String) (db : CoworkerRecords) :
    Extends db (db.revokeAccount timestamp coworkerId grantId).2 := by
  unfold CoworkerRecords.revokeAccount
  split
  · exact .refl db
  · have hext : Extends db { db with
        grants := db.grants.updateWhere
          (fun row => decide (row.grantId = grantId) && decide (row.coworkerId = coworkerId))
          (AccountGrantRow.revoke timestamp) (by intro _; rfl) } := by
      refine ⟨fun row hrow => ?_, fun _ hrow => hrow, List.prefix_rfl⟩
      refine ⟨_, (Table.mem_updateWhere (by intro _; rfl)).2 ⟨row, hrow, rfl⟩, ?_⟩
      split
      · exact .revoke row timestamp
      · exact .inl rfl
    simp only []
    split <;> exact hext

theorem extends_recordDeliverable (timestamp : Computer.Timestamp) (input : NewDeliverable) (db : CoworkerRecords) :
    Extends db (db.recordDeliverable timestamp input).2 := by
  obtain ⟨answer, deliverables, hput, heq⟩ := db.put_recordDeliverable timestamp input
  rw [heq]
  exact ⟨fun row hrow => ⟨row, hrow, .inl rfl⟩, fun _ hrow => hput.rows_isPrefix.subset hrow, List.prefix_rfl⟩

theorem extends_appendActivity (seq : ℕ) (timestamp : Computer.Timestamp) (input : NewActivity) (db : CoworkerRecords) :
    Extends db (db.appendActivity seq timestamp input).2 := by
  obtain ⟨answer, activity, hput, heq⟩ := db.put_appendActivity seq timestamp input
  rw [heq]
  exact ⟨fun row hrow => ⟨row, hrow, .inl rfl⟩, fun _ hrow => hrow, hput.rows_isPrefix⟩

theorem extends_perform (seq : ℕ) (timestamp : Computer.Timestamp) (call : Call) (db : CoworkerRecords) :
    Extends db (call.perform seq timestamp db).2 := by
  cases call with
  | grantAccount input => exact extends_grantAccount timestamp input db
  | revokeAccount coworkerId grantId => exact extends_revokeAccount timestamp coworkerId grantId db
  | recordDeliverable input => exact extends_recordDeliverable timestamp input db
  | appendActivity input => exact extends_appendActivity seq timestamp input db

theorem Step.extends {db db' : CoworkerRecords} {event : Event} (h : Step db event db') : Extends db db' := by
  have hext := extends_perform event.seq event.timestamp event.call db
  rwa [h.performed] at hext

theorem extends_of_run {db db' : CoworkerRecords} {events : List Event} (h : Run Step db events db') :
    Extends db db' :=
  h.lift (fun _ _ _ _ _ => trivial) Extends.refl (fun _ _ _ => Extends.trans)
    (fun _ _ _ _ hstep => hstep.extends) trivial

end Wiii.Neko.Coworker
