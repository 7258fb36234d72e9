import Wiii.Neko.Coworker.Durability

/-!
# Repeated calls, revoked grants and followed pages

A call that answered has left its row under its id, and every later state still has it.  So the same call again changes
nothing and answers that row, and another call with this id is refused.  A row that is revoked never changes again.
The log of one coworker is ordered and only grows at its end, so whoever follows its pages reads every entry once.
-/

namespace Wiii.Neko.Coworker

/-! ## Rows by id -/

/-- What a call is identified by: a table and an id of it. -/
inductive RecordId where
  | grant (grantId : String)
  | deliverable (deliverableId : String)
  | activity (activityId : String)
  deriving DecidableEq

def Call.recordId : Call → Option RecordId
  | .grantAccount input => some (.grant input.grantId)
  | .revokeAccount _ _ => none
  | .recordDeliverable input => some (.deliverable input.deliverableId)
  | .appendActivity input => some (.activity input.activityId)

/-- The answers show the same row, revoked since or not. -/
def Answer.SameRow : Answer → Answer → Prop
  | .grant first, .grant again => again = first ∨
      (first.revokedAt = none ∧ ∃ timestamp, again = { first with active := false, revokedAt := some timestamp })
  | .deliverable first, .deliverable again => again = first
  | .activity first, .activity again => again = first
  | _, _ => False

/-- The call passes its checks, and the row it answered is stored. -/
def Call.Recorded (db : CoworkerRecords) : Call → Answer → Prop
  | .grantAccount input, .grant grant =>
    input.validate = .ok () ∧ ∃ row ∈ db.grants, input.Matches row ∧ row.decode = grant
  | .revokeAccount coworkerId grantId, .grant grant =>
    validateId coworkerId "coworkerId" = .ok () ∧ validateId grantId "grantId" = .ok () ∧
      ∃ row ∈ db.grants, row.grantId = grantId ∧ row.coworkerId = coworkerId ∧ row.revokedAt ≠ none ∧
        row.decode = grant
  | .recordDeliverable input, .deliverable row =>
    input.validate = .ok () ∧ row ∈ db.deliverables ∧ input.Matches row
  | .appendActivity input, .activity row =>
    input.validate = .ok () ∧ row ∈ db.activity ∧ input.Matches row
  | _, _ => False

theorem AccountGrantRow.Kept.sameRow {row later : AccountGrantRow} (h : row.Kept later) :
    Answer.SameRow (.grant row.decode) (.grant later.decode) := by
  rcases h with rfl | ⟨hnone, timestamp, rfl⟩
  · exact .inl rfl
  · exact .inr ⟨hnone, timestamp, rfl⟩

theorem NewAccountGrant.Matches.kept {input : NewAccountGrant} {row later : AccountGrantRow}
    (h : input.Matches row) (hk : row.Kept later) : input.Matches later := by
  rcases hk with rfl | ⟨-, timestamp, rfl⟩
  · exact h
  · exact congrArg (fun r : AccountGrantRow => { r with revokedAt := some timestamp }) h

theorem NewAccountGrant.Matches.grantId_eq {input : NewAccountGrant} {row : AccountGrantRow}
    (h : input.Matches row) : row.grantId = input.grantId := by
  rw [h]
  rfl

theorem NewDeliverable.Matches.deliverableId_eq {input : NewDeliverable} {row : Deliverable}
    (h : input.Matches row) : row.deliverableId = input.deliverableId := by
  rw [h]
  rfl

theorem NewActivity.Matches.activityId_eq {input : NewActivity} {row : ActivityEntry}
    (h : input.Matches row) : row.activityId = input.activityId := by
  rw [h]
  rfl

namespace Call.Recorded

variable {db db' : CoworkerRecords} {call : Call} {answer : Answer}

theorem later (h : call.Recorded db answer) (hext : Extends db db') :
    ∃ again, call.Recorded db' again ∧ answer.SameRow again := by
  cases call with
  | grantAccount input =>
    cases answer with
    | grant grant =>
      obtain ⟨hvalid, row, hrow, hmatches, rfl⟩ := h
      obtain ⟨row', hrow', hkept⟩ := hext.grants row hrow
      exact ⟨.grant row'.decode, ⟨hvalid, row', hrow', hmatches.kept hkept, rfl⟩, hkept.sameRow⟩
    | deliverable _ => exact h.elim
    | activity _ => exact h.elim
  | revokeAccount coworkerId grantId =>
    cases answer with
    | grant grant =>
      obtain ⟨hcoworker, hgrant, row, hrow, hid, howner, hrevoked, rfl⟩ := h
      obtain ⟨row', hrow', hkept⟩ := hext.grants row hrow
      obtain rfl := hkept.eq_of_revoked hrevoked
      exact ⟨.grant row'.decode, ⟨hcoworker, hgrant, row', hrow', hid, howner, hrevoked, rfl⟩, .inl rfl⟩
    | deliverable _ => exact h.elim
    | activity _ => exact h.elim
  | recordDeliverable input =>
    cases answer with
    | deliverable row =>
      obtain ⟨hvalid, hrow, hmatches⟩ := h
      exact ⟨.deliverable row, ⟨hvalid, hext.deliverables row hrow, hmatches⟩, rfl⟩
    | grant _ => exact h.elim
    | activity _ => exact h.elim
  | appendActivity input =>
    cases answer with
    | activity row =>
      obtain ⟨hvalid, hrow, hmatches⟩ := h
      exact ⟨.activity row, ⟨hvalid, hext.activity.subset hrow, hmatches⟩, rfl⟩
    | grant _ => exact h.elim
    | deliverable _ => exact h.elim

end Call.Recorded

/-! ## What one call leaves -/

section Operations

variable {db : CoworkerRecords} {seq : ℕ} {timestamp : Computer.Timestamp}

theorem recorded_grantAccount {input : NewAccountGrant} {grant : AccountGrant}
    (h : (db.grantAccount timestamp input).1 = .ok grant) :
    Call.Recorded (db.grantAccount timestamp input).2 (.grantAccount input) (.grant grant) := by
  obtain ⟨answer, grants, hput, heq⟩ := db.put_grantAccount timestamp input
  rw [heq] at h ⊢
  obtain ⟨row, rfl, rfl⟩ := map_ok_iff.1 h
  have hnew : input.Matches (input.row timestamp) := rfl
  obtain ⟨hvalid, hrow, hm⟩ := hput.recorded hnew
  exact ⟨hvalid, row, hrow, hm, rfl⟩

theorem recorded_recordDeliverable {input : NewDeliverable} {row : Deliverable}
    (h : (db.recordDeliverable timestamp input).1 = .ok row) :
    Call.Recorded (db.recordDeliverable timestamp input).2 (.recordDeliverable input) (.deliverable row) := by
  obtain ⟨answer, deliverables, hput, heq⟩ := db.put_recordDeliverable timestamp input
  rw [heq] at h ⊢
  obtain rfl : answer = .ok row := h
  have hnew : input.Matches (input.row timestamp) := rfl
  exact hput.recorded hnew

theorem recorded_appendActivity {input : NewActivity} {row : ActivityEntry}
    (h : (db.appendActivity seq timestamp input).1 = .ok row) :
    Call.Recorded (db.appendActivity seq timestamp input).2 (.appendActivity input) (.activity row) := by
  obtain ⟨answer, activity, hput, heq⟩ := db.put_appendActivity seq timestamp input
  rw [heq] at h ⊢
  obtain rfl : answer = .ok row := h
  have hnew : input.Matches (input.row seq timestamp) := rfl
  exact hput.recorded hnew

theorem recorded_revokeAccount {coworkerId grantId : String} {grant : AccountGrant}
    (h : (db.revokeAccount timestamp coworkerId grantId).1 = .ok grant) :
    Call.Recorded (db.revokeAccount timestamp coworkerId grantId).2 (.revokeAccount coworkerId grantId)
      (.grant grant) := by
  unfold CoworkerRecords.revokeAccount at h ⊢
  split at h
  · cases h
  rename_i hvalid
  obtain ⟨hcoworker, hgrant⟩ := bind_unit_ok_iff.1 hvalid
  simp only at h ⊢
  split at h
  · cases h
  rename_i found hfound
  cases h
  obtain ⟨hdecoded, howner⟩ := Option.filter_eq_some_iff.1 hfound
  obtain ⟨row, hrow, rfl⟩ := Option.map_eq_some_iff.1 hdecoded
  have hcoworkerId : row.coworkerId = coworkerId := of_decide_eq_true howner
  have hmem := Table.mem_of_find? hrow
  have hid : row.grantId = grantId := Table.key_of_find? hrow
  refine ⟨hcoworker, hgrant, row, hmem, hid, hcoworkerId, ?_, rfl⟩
  obtain ⟨before, -, hbefore⟩ := (Table.mem_updateWhere (by intro _; rfl)).1 hmem
  split at hbefore
  · rw [← hbefore]
    exact Option.some_ne_none _
  · rename_i hother
    rw [← hbefore] at hid hcoworkerId
    simp [hid, hcoworkerId] at hother

theorem recorded_perform (seq : ℕ) (timestamp : Computer.Timestamp) {call : Call} {answer : Answer}
    (h : (call.perform seq timestamp db).1 = .ok answer) :
    call.Recorded (call.perform seq timestamp db).2 answer := by
  cases call with
  | grantAccount input =>
    obtain ⟨grant, hgrant, rfl⟩ := map_ok_iff.1 h
    exact recorded_grantAccount hgrant
  | revokeAccount coworkerId grantId =>
    obtain ⟨grant, hgrant, rfl⟩ := map_ok_iff.1 h
    exact recorded_revokeAccount hgrant
  | recordDeliverable input =>
    obtain ⟨row, hrow, rfl⟩ := map_ok_iff.1 h
    exact recorded_recordDeliverable hrow
  | appendActivity input =>
    obtain ⟨row, hrow, rfl⟩ := map_ok_iff.1 h
    exact recorded_appendActivity hrow

theorem AccountGrantRow.revoke_of_revoked {row : AccountGrantRow} (h : row.revokedAt ≠ none) :
    row.revoke timestamp = row :=
  (AccountGrantRow.Kept.revoke row timestamp).eq_of_revoked h

/-- A revoked grant is revoked again without a change. -/
theorem revokeAccount_of_revoked {row : AccountGrantRow} (hrow : row ∈ db.grants)
    (hrevoked : row.revokedAt ≠ none) (hcoworker : validateId row.coworkerId "coworkerId" = .ok ())
    (hgrant : validateId row.grantId "grantId" = .ok ()) :
    db.revokeAccount timestamp row.coworkerId row.grantId = (.ok row.decode, db) := by
  have hsame : db.grants.updateWhere
      (fun r => decide (r.grantId = row.grantId) && decide (r.coworkerId = row.coworkerId))
      (AccountGrantRow.revoke timestamp) (by intro _; rfl) = db.grants := by
    apply Table.updateWhere_of_fixed
    intro r hr hp
    simp only [Bool.and_eq_true, decide_eq_true_eq] at hp
    rw [Table.eq_of_key_eq hr hrow hp.1]
    exact AccountGrantRow.revoke_of_revoked hrevoked
  have hfind : db.grants.find? row.grantId = some row := Table.find?_of_mem hrow
  have howner : (some row.decode).filter (fun grant => decide (grant.coworkerId = row.coworkerId)) =
      some row.decode := Option.filter_eq_some_iff.2 ⟨rfl, decide_eq_true rfl⟩
  unfold CoworkerRecords.revokeAccount
  simp only [hcoworker, hgrant, bind, Except.bind, hsame, hfind, Option.map_some, howner]

theorem perform_of_recorded {call : Call} {answer : Answer} (h : call.Recorded db answer) :
    call.perform seq timestamp db = (.ok answer, db) := by
  cases call with
  | grantAccount input =>
    cases answer with
    | grant grant =>
      obtain ⟨hvalid, row, hrow, hm, rfl⟩ := h
      have hfind : db.grants.find? input.grantId = some row := hm.grantId_eq ▸ Table.find?_of_mem hrow
      obtain ⟨_, _, hput, heq⟩ := db.put_grantAccount timestamp input
      obtain ⟨rfl, rfl⟩ := hput.eq_ok hvalid hfind hm
      rw [Call.perform, heq]
      rfl
    | deliverable _ => exact h.elim
    | activity _ => exact h.elim
  | revokeAccount coworkerId grantId =>
    cases answer with
    | grant grant =>
      obtain ⟨hcoworker, hgrant, row, hrow, rfl, rfl, hrevoked, rfl⟩ := h
      rw [Call.perform, revokeAccount_of_revoked hrow hrevoked hcoworker hgrant]
      rfl
    | deliverable _ => exact h.elim
    | activity _ => exact h.elim
  | recordDeliverable input =>
    cases answer with
    | deliverable row =>
      obtain ⟨hvalid, hrow, hm⟩ := h
      have hfind : db.deliverables.find? input.deliverableId = some row :=
        hm.deliverableId_eq ▸ Table.find?_of_mem hrow
      obtain ⟨_, _, hput, heq⟩ := db.put_recordDeliverable timestamp input
      obtain ⟨rfl, rfl⟩ := hput.eq_ok hvalid hfind hm
      rw [Call.perform, heq]
      rfl
    | grant _ => exact h.elim
    | activity _ => exact h.elim
  | appendActivity input =>
    cases answer with
    | activity row =>
      obtain ⟨hvalid, hrow, hm⟩ := h
      have hfind : db.activity.find? input.activityId = some row :=
        hm.activityId_eq ▸ Table.find?_of_mem hrow
      obtain ⟨_, _, hput, heq⟩ := db.put_appendActivity seq timestamp input
      obtain ⟨rfl, rfl⟩ := hput.eq_ok hvalid hfind hm
      rw [Call.perform, heq]
      rfl
    | grant _ => exact h.elim
    | deliverable _ => exact h.elim

theorem perform_of_collision (seq : ℕ) (timestamp : Computer.Timestamp) {call other : Call} {answer : Answer} (h : call.Recorded db answer)
    (hid : other.recordId = call.recordId) (hsome : call.recordId ≠ none) (hne : other ≠ call) :
    ∃ error, other.perform seq timestamp db = (.error error, db) := by
  cases call with
  | revokeAccount coworkerId grantId => exact absurd rfl hsome
  | grantAccount input =>
    cases answer with
    | deliverable _ => exact h.elim
    | activity _ => exact h.elim
    | grant grant =>
      obtain ⟨-, row, hrow, hm, rfl⟩ := h
      cases other with
      | revokeAccount _ _ => cases hid
      | recordDeliverable _ => cases hid
      | appendActivity _ => cases hid
      | grantAccount input' =>
        have hgrantId : input'.grantId = input.grantId := by
          simpa [Call.recordId] using hid
        have hfind : db.grants.find? input'.grantId = some row :=
          (hm.grantId_eq.trans hgrantId.symm) ▸ Table.find?_of_mem hrow
        obtain ⟨_, _, hput, heq⟩ := db.put_grantAccount timestamp input'
        obtain ⟨error, rfl, rfl⟩ := hput.eq_error hfind fun hm' => hne (congrArg Call.grantAccount (hm.eq hm'))
        refine ⟨error, ?_⟩
        rw [Call.perform, heq]
        rfl
  | recordDeliverable input =>
    cases answer with
    | grant _ => exact h.elim
    | activity _ => exact h.elim
    | deliverable row =>
      obtain ⟨-, hrow, hm⟩ := h
      cases other with
      | revokeAccount _ _ => cases hid
      | grantAccount _ => cases hid
      | appendActivity _ => cases hid
      | recordDeliverable input' =>
        have hkey : input'.deliverableId = input.deliverableId := by
          simpa [Call.recordId] using hid
        have hfind : db.deliverables.find? input'.deliverableId = some row :=
          (hm.deliverableId_eq.trans hkey.symm) ▸ Table.find?_of_mem hrow
        obtain ⟨_, _, hput, heq⟩ := db.put_recordDeliverable timestamp input'
        obtain ⟨error, rfl, rfl⟩ := hput.eq_error hfind fun hm' => hne (congrArg Call.recordDeliverable (hm.eq hm'))
        refine ⟨error, ?_⟩
        rw [Call.perform, heq]
        rfl
  | appendActivity input =>
    cases answer with
    | grant _ => exact h.elim
    | deliverable _ => exact h.elim
    | activity row =>
      obtain ⟨-, hrow, hm⟩ := h
      cases other with
      | revokeAccount _ _ => cases hid
      | grantAccount _ => cases hid
      | recordDeliverable _ => cases hid
      | appendActivity input' =>
        have hkey : input'.activityId = input.activityId := by
          simpa [Call.recordId] using hid
        have hfind : db.activity.find? input'.activityId = some row :=
          (hm.activityId_eq.trans hkey.symm) ▸ Table.find?_of_mem hrow
        obtain ⟨_, _, hput, heq⟩ := db.put_appendActivity seq timestamp input'
        obtain ⟨error, rfl, rfl⟩ := hput.eq_error hfind fun hm' => hne (congrArg Call.appendActivity (hm.eq hm'))
        refine ⟨error, ?_⟩
        rw [Call.perform, heq]
        rfl

end Operations

/-! ## Revoked grants -/

theorem not_active_of_revoked {db : CoworkerRecords} {row : AccountGrantRow} (hrow : row ∈ db.grants)
    (hrevoked : row.revokedAt ≠ none) :
    (∀ coworkerId, db.accountIsActive coworkerId row.grantId ≠ .ok true) ∧
      ∀ coworkerId provider scope credential,
        db.activeCredentialRef coworkerId row.grantId provider scope ≠ .ok (some credential) := by
  have hfind : db.grants.find? row.grantId = some row := Table.find?_of_mem hrow
  constructor
  · intro coworkerId h
    obtain ⟨-, h⟩ := bind_unit_ok_iff.1 h
    obtain ⟨-, h⟩ := bind_unit_ok_iff.1 h
    have hany := Except.ok.inj h
    rw [List.any_eq_true] at hany
    obtain ⟨other, hother, hactive⟩ := hany
    simp only [Bool.and_eq_true, decide_eq_true_eq, Option.isNone_iff_eq_none] at hactive
    have hsame : other = row := Table.eq_of_key_eq hother hrow hactive.1.1
    exact hrevoked (hsame ▸ hactive.2)
  · intro coworkerId provider scope credential h
    obtain ⟨-, h⟩ := bind_unit_ok_iff.1 h
    obtain ⟨-, h⟩ := bind_unit_ok_iff.1 h
    have hsome : row.revokedAt.isNone = false := Option.isNone_eq_false_iff.2 (Option.isSome_iff_ne_none.2 hrevoked)
    rw [hfind] at h
    simp [AccountGrantRow.decode, hsome] at h
    cases h

/-! ## Pages -/

def CoworkerRecords.activityOf (db : CoworkerRecords) (coworkerId : String) : List ActivityEntry :=
  db.activity.rows.filter fun entry => decide (entry.coworkerId = coworkerId)

/-- A reader of the activity: its start, what it read, where it stands, and its pages. -/
inductive Follows (coworkerId : String) :
    CoworkerRecords → ℕ → List ActivityEntry → Option ℕ → CoworkerRecords → ℕ → Prop
  | last {db : CoworkerRecords} {after limit : ℕ} {page : ActivityPage} :
      db.activityPage coworkerId after limit = .ok page →
      Follows coworkerId db after page.items page.nextAfterSeq db 1
  | more {db db' now : CoworkerRecords} {after limit cursor n : ℕ} {page : ActivityPage}
      {items : List ActivityEntry} {next : Option ℕ} {events : List Event} :
      db.activityPage coworkerId after limit = .ok page → page.nextAfterSeq = some cursor →
      Run Step db events db' → Follows coworkerId db' cursor items next now n →
      Follows coworkerId db after (page.items ++ items) next now (n + 1)

/-- The activities are in the order of their numbers, and these are 64-bit ones. -/
structure Numbered (db : CoworkerRecords) : Prop where
  ordered : Paging.Ordered ActivityEntry.seq db.activity.rows
  range : ∀ entry ∈ db.activity, entry.seq < 2 ^ 63

theorem activity_perform (seq : ℕ) (timestamp : Computer.Timestamp) (call : Call) (db : CoworkerRecords) :
    (call.perform seq timestamp db).2.activity.rows = db.activity.rows ∨
      ∃ entry, entry.seq = seq ∧
        (call.perform seq timestamp db).2.activity.rows = db.activity.rows ++ [entry] := by
  cases call with
  | grantAccount input =>
    left
    simp only [Call.perform, Prod.map_snd, id, CoworkerRecords.grantAccount]
    split
    · rfl
    · split
      · rfl
      · split <;> rfl
  | revokeAccount coworkerId grantId =>
    left
    simp only [Call.perform, Prod.map_snd, id, CoworkerRecords.revokeAccount]
    split
    · rfl
    · split <;> rfl
  | recordDeliverable input =>
    left
    simp only [Call.perform, Prod.map_snd, id, CoworkerRecords.recordDeliverable]
    split
    · rfl
    · split
      · rfl
      · split <;> rfl
  | appendActivity input =>
    show (db.appendActivity seq timestamp input).2.activity.rows = _ ∨ ∃ entry, _ ∧
      (db.appendActivity seq timestamp input).2.activity.rows = _
    obtain ⟨answer, activity, hput, heq⟩ := db.put_appendActivity seq timestamp input
    rw [heq]
    exact hput.rows.imp_right fun hrows => ⟨input.row seq timestamp, rfl, hrows⟩

theorem Numbered.step {db db' : CoworkerRecords} {event : Event} (h : Numbered db) (hstep : Step db event db') :
    Numbered db' := by
  have hrows := activity_perform event.seq event.timestamp event.call db
  rw [hstep.performed] at hrows
  rcases hrows with hrows | ⟨entry, hseq, hrows⟩
  · exact ⟨hrows ▸ h.ordered, fun e he => h.range e (by rwa [Table.mem_iff, ← hrows])⟩
  · constructor
    · rw [hrows]
      refine List.pairwise_append.2 ⟨h.ordered, List.pairwise_singleton _ _, fun a ha b hb => ?_⟩
      obtain rfl := List.mem_singleton.1 hb
      rw [hseq]
      exact hstep.fresh a ha
    · intro e he
      rw [Table.mem_iff, hrows, List.mem_append, List.mem_singleton] at he
      rcases he with he | rfl
      · exact h.range e he
      · rw [hseq]
        exact hstep.range

theorem Numbered.run {db db' : CoworkerRecords} {events : List Event} (h : Numbered db)
    (hrun : Run Step db events db') : Numbered db' :=
  hrun.invariant (fun _ _ _ hn hstep => hn.step hstep) h

theorem Numbered.activityOf {db : CoworkerRecords} (h : Numbered db) (coworkerId : String) :
    Paging.Ordered ActivityEntry.seq (db.activityOf coworkerId) :=
  h.ordered.filter _

theorem boundedLimit_ok_iff {limit n : ℕ} : boundedLimit limit = .ok n ↔ limit = n ∧ 1 ≤ limit ∧ limit ≤ maxPage := by
  unfold boundedLimit
  by_cases h : 1 ≤ limit ∧ limit ≤ maxPage
  · rw [if_pos h, Except.ok.injEq]
    tauto
  · rw [if_neg h]
    simp only [reduceCtorEq, false_iff]
    tauto

theorem activityPage_eq {db : CoworkerRecords} (h : Numbered db) {coworkerId : String} {after limit : ℕ}
    (hid : validateId coworkerId "coworkerId" = .ok ()) (hlimit : 1 ≤ limit ∧ limit ≤ maxPage)
    (hafter : after < 2 ^ 63) :
    db.activityPage coworkerId after limit =
      .ok ⟨(Paging.page ActivityEntry.seq after limit (db.activityOf coworkerId)).1,
        (Paging.page ActivityEntry.seq after limit (db.activityOf coworkerId)).2⟩ := by
  have hselected : (db.activity.rows.filter fun entry =>
      decide (entry.coworkerId = coworkerId) && decide (after < entry.seq)) =
        Paging.above ActivityEntry.seq after (db.activityOf coworkerId) := by
    unfold Paging.above CoworkerRecords.activityOf
    rw [List.filter_filter]
    apply List.filter_congr
    intro entry _
    exact Bool.and_comm _ _
  have hsorted : (Paging.above ActivityEntry.seq after (db.activityOf coworkerId)).mergeSort
      (fun a b => decide (a.seq ≤ b.seq)) = Paging.above ActivityEntry.seq after (db.activityOf coworkerId) := by
    apply List.mergeSort_of_pairwise
    exact ((h.activityOf coworkerId).above after).imp fun hlt => decide_eq_true (Nat.le_of_lt hlt)
  unfold CoworkerRecords.activityPage Paging.page
  simp only [hid, boundedLimit, if_pos hlimit, if_neg (Nat.not_le.2 hafter), hselected, hsorted, bind,
    Except.bind]
  split <;> rfl

theorem activityPage_ok {db : CoworkerRecords} {coworkerId : String} {after limit : ℕ} {page : ActivityPage}
    (h : db.activityPage coworkerId after limit = .ok page) :
    validateId coworkerId "coworkerId" = .ok () ∧ (1 ≤ limit ∧ limit ≤ maxPage) ∧ after < 2 ^ 63 := by
  obtain ⟨hid, h⟩ := bind_unit_ok_iff.1 h
  obtain ⟨n, hbounded, h⟩ := bind_ok_iff.1 h
  obtain ⟨rfl, hlimit⟩ := boundedLimit_ok_iff.1 hbounded
  obtain ⟨hafter, -⟩ := ite_error_ok_iff.1 h
  exact ⟨hid, hlimit, Nat.not_le.1 hafter⟩

theorem Extends.activityOf {db db' : CoworkerRecords} (h : Extends db db') (coworkerId : String) :
    db.activityOf coworkerId <+: db'.activityOf coworkerId :=
  h.activity.filter _

namespace Follows

variable {coworkerId : String} {db now : CoworkerRecords} {after n : ℕ} {items : List ActivityEntry}
  {next : Option ℕ}

theorem numbered (h : Follows coworkerId db after items next now n) (hdb : Numbered db) : Numbered now := by
  induction h with
  | last _ => exact hdb
  | more _ _ hrun _ ih => exact ih (hdb.run hrun)

/-- Following the pages of the store is following pages of the log of the coworker. -/
theorem paging (h : Follows coworkerId db after items next now n) (hdb : Numbered db) :
    Paging.Follows ActivityEntry.seq (db.activityOf coworkerId) after items next
      (now.activityOf coworkerId) n := by
  induction h with
  | last hpage =>
    obtain ⟨hid, hlimit, hafter⟩ := activityPage_ok hpage
    rw [activityPage_eq hdb hid hlimit hafter] at hpage
    cases hpage
    exact .last hlimit.1
  | more hpage hcursor hrun _ ih =>
    obtain ⟨hid, hlimit, hafter⟩ := activityPage_ok hpage
    rw [activityPage_eq hdb hid hlimit hafter] at hpage
    cases hpage
    exact .more hlimit.1 hcursor ((extends_of_run hrun).activityOf coworkerId) (ih (hdb.run hrun))

theorem validId (h : Follows coworkerId db after items next now n) :
    validateId coworkerId "coworkerId" = .ok () := by
  cases h with
  | last hpage => exact (activityPage_ok hpage).1
  | more hpage _ _ _ => exact (activityPage_ok hpage).1

theorem cursor_lt {cursor : ℕ} (h : Follows coworkerId db after items next now n) (hdb : Numbered db)
    (hnext : next = some cursor) : cursor < 2 ^ 63 := by
  induction h with
  | last hpage =>
    obtain ⟨hid, hlimit, hafter⟩ := activityPage_ok hpage
    rw [activityPage_eq hdb hid hlimit hafter] at hpage
    cases hpage
    obtain ⟨start, a, hsplit, -, rfl⟩ := Paging.page_of_some hnext
    have ha := (Paging.mem_above.1 (hsplit ▸ List.mem_append_right start List.mem_cons_self)).1
    exact hdb.range a (List.mem_filter.1 ha).1
  | more _ _ hrun _ ih => exact ih (hdb.run hrun) hnext

end Follows

/-! ## The promises of the store -/

theorem numbered_of_reaches {db : CoworkerRecords} (h : Reaches Step {} db) : Numbered db :=
  h.invariant (fun _ _ _ hn hstep => hn.step hstep) ⟨List.Pairwise.nil, fun _ h => absurd h (List.not_mem_nil)⟩

/-- A repeated call changes nothing and answers the same row, another call with its id is refused, and whoever follows
the pages reads every activity once. -/
theorem records_durable {db : CoworkerRecords} (hdb : Reaches Step {} db) :
    (∀ first answer db₁ events db₂, Step db first db₁ → first.result = .ok answer → Run Step db₁ events db₂ →
      (∀ again db₃, Step db₂ again db₃ → again.call = first.call →
        db₃ = db₂ ∧ ∃ answer', again.result = .ok answer' ∧ answer.SameRow answer') ∧
      ∀ other db₃, Step db₂ other db₃ → other.call ≠ first.call → first.call.recordId ≠ none →
        other.call.recordId = first.call.recordId → db₃ = db₂ ∧ ∃ error, other.result = .error error) ∧
    (∀ event coworkerId grantId answer db₁, Step db event db₁ → event.call = .revokeAccount coworkerId grantId →
      event.result = .ok answer → ∃ row ∈ db₁.grants, row.grantId = grantId ∧ row.revokedAt ≠ none) ∧
    (∀ row ∈ db.grants, row.revokedAt ≠ none → ∀ events db', Run Step db events db' →
      row ∈ db'.grants ∧ (∀ coworkerId, db'.accountIsActive coworkerId row.grantId ≠ .ok true) ∧
        ∀ coworkerId provider scope credential,
          db'.activeCredentialRef coworkerId row.grantId provider scope ≠ .ok (some credential)) ∧
    ∀ coworkerId after items next now n, Follows coworkerId db after items next now n →
      (∀ entry, items.count entry ≤ 1) ∧
      (∀ entry ∈ db.activity, entry.coworkerId = coworkerId → after < entry.seq →
        next = none ∨ db.activity.rows.length ≤ n → items.count entry = 1) ∧
      Paging.above ActivityEntry.seq after (now.activityOf coworkerId) =
        items ++ Paging.rest ActivityEntry.seq (now.activityOf coworkerId) next ∧
      ∀ cursor, next = some cursor → ∀ limit, 1 ≤ limit → limit ≤ maxPage →
        ∃ page, now.activityPage coworkerId cursor limit = .ok page := by
  have hnumbered := numbered_of_reaches hdb
  refine ⟨?_, ?_, ?_, ?_⟩
  · intro first answer db₁ events db₂ hfirst hok hrun
    have hrecorded : first.call.Recorded db₁ answer := by
      have hperformed : (first.call.perform first.seq first.timestamp db).1 = .ok answer := by
        rw [hfirst.performed]
        exact hok
      have hr := recorded_perform first.seq first.timestamp hperformed
      rwa [hfirst.performed] at hr
    obtain ⟨answer', hrecorded', hsame⟩ := hrecorded.later (extends_of_run hrun)
    constructor
    · intro again db₃ hagain hcall
      have hperformed := hagain.performed
      rw [hcall, perform_of_recorded hrecorded'] at hperformed
      obtain ⟨hresult, rfl⟩ := Prod.mk.inj hperformed
      exact ⟨rfl, answer', hresult.symm, hsame⟩
    · intro other db₃ hother hne hsome hid
      obtain ⟨error, heq⟩ := perform_of_collision other.seq other.timestamp hrecorded' hid hsome hne
      have hperformed := hother.performed
      rw [heq] at hperformed
      obtain ⟨hresult, rfl⟩ := Prod.mk.inj hperformed
      exact ⟨rfl, error, hresult.symm⟩
  · intro event coworkerId grantId answer db₁ hstep hcall hok
    have hperformed : (event.call.perform event.seq event.timestamp db).1 = .ok answer := by
      rw [hstep.performed]
      exact hok
    have hr := recorded_perform event.seq event.timestamp hperformed
    rw [hstep.performed, hcall] at hr
    cases answer with
    | grant grant =>
      obtain ⟨-, -, row, hrow, hid, -, hrevoked, -⟩ := hr
      exact ⟨row, hrow, hid, hrevoked⟩
    | deliverable _ => exact hr.elim
    | activity _ => exact hr.elim
  · intro row hrow hrevoked events db' hrun
    obtain ⟨later, hlater, hkept⟩ := (extends_of_run hrun).grants row hrow
    obtain rfl := hkept.eq_of_revoked hrevoked
    exact ⟨hlater, not_active_of_revoked hlater hrevoked⟩
  · intro coworkerId after items next now n h
    have hpaging := h.paging hnumbered
    have hordered := (h.numbered hnumbered).activityOf coworkerId
    have hnodup : items.Nodup := (hpaging.ordered hordered).imp fun hlt heq => absurd (heq ▸ hlt) (lt_irrefl _)
    refine ⟨List.nodup_iff_count_le_one.1 hnodup, ?_, hpaging.above_eq hordered, ?_⟩
    · intro entry hentry howner hafter hdone
      have habove : entry ∈ Paging.above ActivityEntry.seq after (db.activityOf coworkerId) :=
        Paging.mem_above.2 ⟨List.mem_filter.2 ⟨hentry, decide_eq_true howner⟩, hafter⟩
      have hlength : (Paging.above ActivityEntry.seq after (db.activityOf coworkerId)).length ≤
          db.activity.rows.length :=
        Nat.le_trans (List.length_filter_le _ _) (List.length_filter_le _ _)
      have hmem := hpaging.mem_of_mem hordered habove (hdone.imp_right (Nat.le_trans hlength))
      exact List.count_eq_one_of_mem hnodup hmem
    · intro cursor hcursor limit hlow hhigh
      exact ⟨_, activityPage_eq (h.numbered hnumbered) h.validId ⟨hlow, hhigh⟩
        (h.cursor_lt hnumbered hcursor)⟩

def exampleGrant : NewAccountGrant :=
  ⟨"grant-mail-neko", "wiii-coworker-neko", "gmail", "Neko work mailbox", ["gmail.readonly"],
    "computer-profile:neko:gmail"⟩

/-- After the grant, and after its revocation. -/
def exampleGranted : CoworkerRecords := ((Call.grantAccount exampleGrant).perform 1 0 {}).2

def exampleRevoked : CoworkerRecords :=
  ((Call.revokeAccount exampleGrant.coworkerId exampleGrant.grantId).perform 1 1 exampleGranted).2

theorem reaches_exampleRevoked : Reaches Step {} exampleRevoked := by
  have hempty : exampleGranted.activity.rows = [] := by decide +kernel
  have hrange : 1 < 2 ^ 63 := Nat.one_lt_two_pow (by decide)
  have hgrant : Step {} _ exampleGranted := .of_perform (fun _ h => absurd h List.not_mem_nil) hrange
  have hrevoke : Step exampleGranted _ exampleRevoked :=
    .of_perform (fun entry h => absurd (hempty ▸ Table.mem_iff.1 h) List.not_mem_nil) hrange
  exact ⟨_, .cons hgrant (.single hrevoke)⟩

theorem records_durable_revoked : ∃ row ∈ exampleRevoked.grants, row.revokedAt = some 1 ∧
    ∀ events db', Run Step exampleRevoked events db' → row ∈ db'.grants := by
  have hrow : { exampleGrant.row 0 with revokedAt := some 1 } ∈ exampleRevoked.grants.rows := by
    decide +kernel
  refine ⟨_, hrow, rfl, fun events db' hrun => ?_⟩
  exact ((records_durable reaches_exampleRevoked).2.2.1 _ hrow (Option.some_ne_none 1) events db' hrun).1

end Wiii.Neko.Coworker
