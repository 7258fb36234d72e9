import Mathlib.Data.List.Perm.Subperm
import Wiii.Connect.FacebookPost
import Wiii.Lib.Run

/-!
# Approvals over runs

Previews and applies of one user, in any order and with any failure of the ledger.  A run in which every request that
passes the other checks gets its answer from the ledger, and no post is previewed again while a token that was spent on
it can be presented, spends every approval once (`spent_once_of_run`).
-/

namespace Wiii.Connect

/-! ## Pending rows -/

abbrev ApprovalKey := Owner × String × String

namespace Database

variable {table : CaseTable} {db : Database} {k : ApprovalKey}

def Pending (db : Database) (k : ApprovalKey) : Prop :=
  ∃ row, db.approvals.find? k = some row ∧ row.record.status = .pending

instance (db : Database) (k : ApprovalKey) : Decidable (db.Pending k) :=
  match h : db.approvals.find? k with
  | none => isFalse fun ⟨_, hrow, _⟩ => by rw [h] at hrow; cases hrow
  | some row =>
    decidable_of_iff (row.record.status = .pending)
      ⟨fun hstatus => ⟨row, h, hstatus⟩, fun ⟨_, hrow, hstatus⟩ => by rw [h] at hrow; cases hrow; exact hstatus⟩

theorem pending_upsert {row : ApprovalRow} (h : { db with approvals := db.approvals.upsert row }.Pending k) :
    k = row.key ∨ db.Pending k := by
  obtain ⟨found, hfound, hstatus⟩ := h
  rw [Table.find?_upsert] at hfound
  by_cases hk : k = row.key
  · exact Or.inl hk
  · rw [if_neg hk] at hfound
    exact Or.inr ⟨found, hfound, hstatus⟩

theorem pending_append {record : ApprovalRecord} {organizationId userId : String} {now : ℤ}
    (h : (db.appendOperationApprovalRecord record organizationId userId now).2.Pending k) :
    db.Pending k ∨ ∃ owner, normalizeOwner organizationId userId = some owner ∧ record.previewEvidenceId ≠ "" ∧
      k = (owner, record.providerSlug, record.previewEvidenceId) := by
  unfold appendOperationApprovalRecord at h
  cases howner : normalizeOwner organizationId userId with
  | none =>
    rw [howner] at h
    exact Or.inl h
  | some owner =>
    rw [howner] at h
    dsimp only at h
    by_cases hid : record.previewEvidenceId = ""
    · rw [if_pos hid] at h
      exact Or.inl h
    · rw [if_neg hid] at h
      rcases pending_upsert h with hk | hpending
      · refine Or.inr ⟨owner, rfl, hid, hk.trans ?_⟩
        split_ifs <;> rfl
      · exact Or.inl hpending

theorem pending_setApproval {key : ApprovalKey} {status : ApprovalStatus} {reason : ApprovalReason}
    {consumedAt : Option ℤ} {now : ℤ} (hstatus : status ≠ .pending)
    (h : (db.setApproval key status reason consumedAt now).Pending k) : k ≠ key ∧ db.Pending k := by
  obtain ⟨row, hrow, hpending⟩ := h
  have hfound := (Table.find?_update db.approvals key _ (ApprovalRow.key_set status reason consumedAt now) k).symm.trans
    hrow
  by_cases hk : k = key
  · rw [if_pos hk] at hfound
    obtain ⟨old, -, rfl⟩ := Option.map_eq_some_iff.1 hfound
    exact absurd hpending hstatus
  · rw [if_neg hk] at hfound
    exact ⟨hk, row, hfound, hpending⟩

theorem consume_cases {evidenceId fingerprint organizationId userId slug : String} {now : ℤ} {owner : Owner}
    (howner : normalizeOwner organizationId userId = some owner) :
    let answered := db.consumeOperationApprovalRecord table evidenceId fingerprint organizationId userId slug now
    let key : ApprovalKey := (owner, normalizeProviderSlug table slug, PyText.strip evidenceId)
    (∃ reason, answered.1 = .blocked reason ∧ ∀ k, answered.2.Pending k → db.Pending k) ∨
      answered.1 = .consumed ∧ db.Pending key ∧ ∀ k, answered.2.Pending k → k ≠ key ∧ db.Pending k := by
  dsimp only
  unfold consumeOperationApprovalRecord
  rw [howner]
  dsimp only
  by_cases hblank : PyText.strip evidenceId = "" ∨ PyText.lower table (PyText.strip fingerprint) = ""
  · rw [if_pos hblank]
    exact Or.inl ⟨_, rfl, fun _ h => h⟩
  · rw [if_neg hblank]
    cases hrow : db.approvals.find? (owner, normalizeProviderSlug table slug, PyText.strip evidenceId) with
    | none => exact Or.inl ⟨_, rfl, fun _ h => h⟩
    | some row =>
      dsimp only
      split_ifs with hstatus hexpired hfingerprint hmatch
      · exact Or.inl ⟨_, rfl, fun _ h => h⟩
      · exact Or.inl ⟨_, rfl, fun _ h => h⟩
      · exact Or.inl ⟨_, rfl, fun _ h => (pending_setApproval (by decide) h).2⟩
      · exact Or.inl ⟨_, rfl, fun _ h => h⟩
      · exact Or.inr ⟨rfl, ⟨row, hrow, not_not.1 hstatus⟩, fun _ h => pending_setApproval (by decide) h⟩

theorem find?_append (db : Database) (record : ApprovalRecord) {organizationId userId : String} {owner : Owner} (now : ℤ)
    (howner : normalizeOwner organizationId userId = some owner) (hid : record.previewEvidenceId ≠ "")
    (hpending : record.status = .pending) : ∃ row,
      (db.appendOperationApprovalRecord record organizationId userId now).2.approvals.find?
          (owner, record.providerSlug, record.previewEvidenceId) = some row ∧
        row.record.status = .pending ∧ row.record.expiresAt = record.expiresAt ∧
        row.record.requestFingerprint = record.requestFingerprint := by
  unfold appendOperationApprovalRecord
  rw [howner]
  dsimp only
  rw [if_neg hid, Table.find?_upsert, if_pos (by split_ifs <;> rfl)]
  refine ⟨_, rfl, ?_⟩
  split_ifs
  · exact ⟨rfl, rfl, rfl⟩
  · exact ⟨hpending, rfl, rfl⟩

theorem consumed_of_find? {evidenceId fingerprint organizationId userId slug : String} {now : ℤ} {owner : Owner}
    {row : ApprovalRow} (howner : normalizeOwner organizationId userId = some owner)
    (hid : PyText.strip evidenceId ≠ "") (hfingerprint : PyText.lower table (PyText.strip fingerprint) ≠ "")
    (hrow : db.approvals.find? (owner, normalizeProviderSlug table slug, PyText.strip evidenceId) = some row)
    (hpending : row.record.status = .pending) (hexpires : now ≤ row.record.expiresAt)
    (hmatch : row.record.requestFingerprint = fingerprint) :
    (db.consumeOperationApprovalRecord table evidenceId fingerprint organizationId userId slug now).1 = .consumed := by
  unfold consumeOperationApprovalRecord
  rw [howner]
  dsimp only
  rw [if_neg (not_or.2 ⟨hid, hfingerprint⟩), hrow]
  dsimp only
  rw [if_neg (not_not.2 hpending), if_neg (not_lt.2 hexpires), if_neg (not_not.2 (by rw [hmatch]))]

end Database

/-! ## Requests in flight -/

structure ClearedRequest where
  request : ApplyRequest
  decision : ApprovalDecision

structure PostState where
  database : Database := {}
  clock : ℤ := 0
  nonces : ℕ := 0
  issued : List ApprovalToken := []
  /-- Previews whose token is still to be made. -/
  previewed : List PreviewRequest := []
  /-- Requests whose token was found valid. -/
  checked : List ApplyRequest := []
  /-- Requests on the way from the ledger to the provider. -/
  underway : List ClearedRequest := []
  /-- What the ledger recorded. -/
  recorded : List ApprovalKey := []
  executions : List ClearedRequest := []

namespace PostState

/-- What the ledger let through, at the provider or on the way to it. -/
def cleared (s : PostState) : List ClearedRequest := s.underway ++ s.executions

/-- A token that can be presented from now on, or was and still waits for the ledger. -/
def Presentable (s : PostState) (token : ApprovalToken) (now : ℤ) : Prop :=
  ¬ token.Expired now ∨ ∃ request ∈ s.checked, request.token = token

end PostState

inductive PostAct where
  | preview (request : PreviewRequest) (outcome : StorageOutcome)
  | issue
  | present (request : ApplyRequest)
  | consume (request : ApplyRequest) (outcome : StorageOutcome)
  | execute

namespace PostSystem

variable (P : PostSystem)

def owner : Owner := (normalizeOwner P.organizationId P.userId).getD ⟨"", ""⟩

def approvalKey (content : PostContent) : ApprovalKey :=
  (P.owner, normalizeProviderSlug P.lowerTable "facebook", PyText.strip (P.previewEvidenceId content))

/-- The rows that a preview makes pending: one, or none where it does not reach the ledger. -/
def recordedBy (request : PreviewRequest) (outcome : StorageOutcome) : List ApprovalKey :=
  if request.status.operationApprovalReady = true ∧ outcome ≠ .failedBefore ∧
      (normalizeOwner P.organizationId P.userId).isSome ∧
      P.ledgerPublicId (P.previewEvidenceId request.content) ≠ "" then
    [(P.owner, "facebook", P.ledgerPublicId (P.previewEvidenceId request.content))]
  else []

def clear (request : ApplyRequest) (decision : ApprovalDecision) : List ClearedRequest :=
  if decision.isBlocked = true ∨ P.applyPasses request = false then [] else [⟨request, decision⟩]

/-- Previews and applies side by side, each storage call one transaction. -/
inductive Step : PostState → PostAct × ℤ → PostState → Prop
  | preview {s : PostState} {request : PreviewRequest} {outcome : StorageOutcome} {now : ℤ} (tick : s.clock ≤ now)
      (allowed : P.previewAllowed request = true) :
    Step s (.preview request outcome, now)
      { s with
        clock := now
        database := (P.recordOperationApproval s.database request.status request.content now outcome).2
        recorded := P.recordedBy request outcome ++ s.recorded
        previewed := request :: s.previewed }
  | issue {s : PostState} {request : PreviewRequest} (before : List PreviewRequest) {after : List PreviewRequest} {now : ℤ}
      (tick : s.clock ≤ now) (waits : s.previewed = before ++ request :: after) :
    Step s (.issue, now)
      { s with
        clock := now
        nonces := s.nonces + 1
        issued := P.buildApprovalToken request.content s.nonces now :: s.issued
        previewed := before ++ after }
  | present {s : PostState} {request : ApplyRequest} {now : ℤ} (tick : s.clock ≤ now)
      (signed : request.token ∈ s.issued)
      (valid : P.verifyApprovalToken request.token request.content request.previewEvidenceId now = .valid) :
    Step s (.present request, now) { s with clock := now, checked := request :: s.checked }
  | consume {s : PostState} {request : ApplyRequest} {outcome : StorageOutcome} (before : List ApplyRequest)
      {after : List ApplyRequest} {now : ℤ} (tick : s.clock ≤ now) (waits : s.checked = before ++ request :: after) :
    Step s (.consume request outcome, now)
      { s with
        clock := now
        database := (P.consumeOperationApproval s.database request.status request.content now outcome).2
        checked := before ++ after
        underway := P.clear request
          (P.consumeOperationApproval s.database request.status request.content now outcome).1 ++ s.underway }
  | execute {s : PostState} {cleared : ClearedRequest} (before : List ClearedRequest) {after : List ClearedRequest}
      {now : ℤ} (tick : s.clock ≤ now) (waits : s.underway = before ++ cleared :: after) :
    Step s (.execute, now)
      { s with clock := now, underway := before ++ after, executions := cleared :: s.executions }

/-- No post is recorded again while a token that was spent on it can be presented. -/
def Orderly (s : PostState) (a : PostAct × ℤ) : Prop :=
  match a.1 with
  | .preview request outcome => ∀ cleared ∈ s.cleared,
      P.approvalKey cleared.request.content ∈ P.recordedBy request outcome → ¬ s.Presentable cleared.request.token a.2
  | .consume request outcome => P.applyPasses request = true →
      request.status.operationApprovalReady = true ∧ outcome = .done ∧
        (normalizeOwner P.organizationId P.userId).isSome
  | _ => True

/-- No token is spent twice, no more posts are executed than were recorded, and none without the ledger's word. -/
structure SpentOnce (s : PostState) : Prop where
  tokens : (s.executions.map fun cleared => cleared.request.token).Nodup
  recorded : s.executions.length ≤ s.recorded.length
  confirmed : ∀ cleared ∈ s.executions, cleared.decision = .consumed

/-! ## The ledger's part -/

variable {P} {db : Database} {k : ApprovalKey}

theorem pending_record {request : PreviewRequest} {now : ℤ} {outcome : StorageOutcome}
    (h : (P.recordOperationApproval db request.status request.content now outcome).2.Pending k) :
    db.Pending k ∨ k ∈ P.recordedBy request outcome := by
  unfold recordOperationApproval at h
  by_cases hready : request.status.operationApprovalReady = false
  · rw [if_pos hready] at h
    exact Or.inl h
  · rw [if_neg hready] at h
    have hwritten : (db.appendOperationApprovalRecord (P.operationApprovalRecord request.content now) P.organizationId
        P.userId now).2.Pending k → outcome ≠ .failedBefore → db.Pending k ∨ k ∈ P.recordedBy request outcome := by
      intro hpending houtcome
      rcases Database.pending_append hpending with hbefore | ⟨owner, howner, hid, hk⟩
      · exact Or.inl hbefore
      · right
        have howned : P.owner = owner := by rw [PostSystem.owner, howner, Option.getD_some]
        simp only [operationApprovalRecord] at hid hk
        rw [recordedBy, if_pos ⟨by simpa using hready, houtcome, by rw [howner]; rfl, hid⟩, howned, hk]
        exact List.mem_singleton_self _
    cases outcome with
    | done => exact hwritten h (by decide)
    | failedBefore => exact Or.inl h
    | failedAfter => exact hwritten h (by decide)

theorem pending_consumed {status : StorageStatus} {content : PostContent} {now : ℤ} {outcome : StorageOutcome}
    (h : (P.consumeOperationApproval db status content now outcome).2.Pending k) : db.Pending k := by
  unfold consumeOperationApproval at h
  by_cases hready : status.operationApprovalReady = false
  · rw [if_pos hready] at h
    exact h
  · rw [if_neg hready] at h
    have hanswered : (db.consumeOperationApprovalRecord P.lowerTable (P.previewEvidenceId content)
        (P.operationFingerprint content) P.organizationId P.userId "facebook" now).2.Pending k → db.Pending k := by
      cases howner : normalizeOwner P.organizationId P.userId with
      | none =>
        unfold Database.consumeOperationApprovalRecord
        rw [howner]
        exact id
      | some owner =>
        intro hpending
        rcases Database.consume_cases howner with ⟨_, -, hkept⟩ | ⟨-, -, hkept⟩
        · exact hkept k hpending
        · exact (hkept k hpending).2
    cases outcome with
    | done => exact hanswered h
    | failedBefore => exact h
    | failedAfter => exact hanswered h

theorem clear_of_answered (db : Database) {request : ApplyRequest} (now : ℤ) {outcome : StorageOutcome}
    (h : P.applyPasses request = true → request.status.operationApprovalReady = true ∧ outcome = .done ∧
      (normalizeOwner P.organizationId P.userId).isSome) :
    let answered := P.consumeOperationApproval db request.status request.content now outcome
    P.clear request answered.1 = [] ∨ P.clear request answered.1 = [⟨request, .consumed⟩] ∧
      db.Pending (P.approvalKey request.content) ∧ ¬ answered.2.Pending (P.approvalKey request.content) := by
  dsimp only
  by_cases hpasses : P.applyPasses request = false
  · exact Or.inl (if_pos (Or.inr hpasses))
  · obtain ⟨hready, rfl, hsome⟩ := h (by simpa using hpasses)
    obtain ⟨owner, howner⟩ := Option.isSome_iff_exists.1 hsome
    have howned : P.owner = owner := by rw [PostSystem.owner, howner, Option.getD_some]
    rw [consumeOperationApproval, if_neg (by simp [hready]), approvalKey, howned]
    dsimp only
    rcases Database.consume_cases howner with ⟨_, hblocked, -⟩ | ⟨hconsumed, hpending, htaken⟩
    · left
      rw [hblocked]
      exact if_pos (Or.inl rfl)
    · right
      rw [hconsumed]
      refine ⟨if_neg ?_, hpending, fun hstill => (htaken _ hstill).1 rfl⟩
      rintro (hblocked | hrefused)
      · cases hblocked
      · exact hpasses hrefused

/-! ## The balance of the ledger -/

variable (P)

/-- What was cleared or is pending is recorded, and a pending post has no spent token to present. -/
structure Balanced (s : PostState) : Prop where
  confirmed : ∀ cleared ∈ s.cleared, cleared.decision = .consumed
  budget : ∀ k, (s.cleared.map fun cleared => P.approvalKey cleared.request.content).count k +
    (if s.database.Pending k then 1 else 0) ≤ s.recorded.count k
  tokens : (s.cleared.map fun cleared => cleared.request.token).Nodup
  spent : ∀ cleared ∈ s.cleared, s.database.Pending (P.approvalKey cleared.request.content) →
    ¬ s.Presentable cleared.request.token s.clock
  checked : ∀ request ∈ s.checked, request.token.previewEvidenceId = P.previewEvidenceId request.content
  cleared : ∀ cleared ∈ s.cleared,
    cleared.request.token.previewEvidenceId = P.previewEvidenceId cleared.request.content

variable {P}

theorem evidence_of_valid {token : ApprovalToken} {content : PostContent} {bodyEvidenceId : Option String} {now : ℤ}
    (h : P.verifyApprovalToken token content bodyEvidenceId now = .valid) :
    token.previewEvidenceId = P.previewEvidenceId content ∧ ¬ token.Expired now := by
  unfold verifyApprovalToken at h
  dsimp only at h
  split_ifs at h with hexpired hpayload hbody
  rw [not_or, not_not, not_not] at hpayload
  exact ⟨hpayload.2, hexpired⟩

theorem approvalKey_eq {content other : PostContent} (h : P.previewEvidenceId content = P.previewEvidenceId other) :
    P.approvalKey content = P.approvalKey other := by
  rw [approvalKey, approvalKey, h]

theorem presentable_of_later {s t : PostState} {token : ApprovalToken} {now later : ℤ}
    (hchecked : ∀ request ∈ t.checked, request ∈ s.checked) (hle : now ≤ later) (h : t.Presentable token later) :
    s.Presentable token now := by
  rcases h with hvalid | ⟨request, hrequest, htoken⟩
  · exact Or.inl fun hexpired => hvalid (hexpired.mono hle)
  · exact Or.inr ⟨request, hchecked request hrequest, htoken⟩

theorem Balanced.of_perm {s t : PostState} (hb : P.Balanced s) (hperm : t.cleared.Perm s.cleared)
    (hdatabase : t.database = s.database) (hrecorded : t.recorded = s.recorded) (hchecked : t.checked = s.checked)
    (hclock : s.clock ≤ t.clock) : P.Balanced t where
  confirmed cleared hcleared := hb.confirmed cleared (hperm.mem_iff.1 hcleared)
  budget k := by
    rw [(hperm.map _).count_eq, hdatabase, hrecorded]
    exact hb.budget k
  tokens := (hperm.map _).nodup_iff.2 hb.tokens
  spent cleared hcleared hpending := by
    rw [hdatabase] at hpending
    intro hpresentable
    exact hb.spent cleared (hperm.mem_iff.1 hcleared) hpending
      (presentable_of_later (fun request hrequest => hchecked ▸ hrequest) hclock hpresentable)
  checked := hchecked ▸ hb.checked
  cleared cleared hcleared := hb.cleared cleared (hperm.mem_iff.1 hcleared)

theorem Balanced.preview {s : PostState} {request : PreviewRequest} {outcome : StorageOutcome} {now : ℤ}
    (hb : P.Balanced s) (tick : s.clock ≤ now) (horderly : P.Orderly s (.preview request outcome, now)) :
    P.Balanced
      { s with
        clock := now
        database := (P.recordOperationApproval s.database request.status request.content now outcome).2
        recorded := P.recordedBy request outcome ++ s.recorded
        previewed := request :: s.previewed } where
  confirmed := hb.confirmed
  budget k := by
    have hbudget := hb.budget k
    rw [List.count_append]
    dsimp only [PostState.cleared] at hbudget ⊢
    split_ifs with hpending
    · rcases pending_record hpending with hbefore | hrecorded
      · rw [if_pos hbefore] at hbudget
        omega
      · have hone := List.count_pos_iff.2 hrecorded
        split_ifs at hbudget <;> omega
    · omega
  tokens := hb.tokens
  spent cleared hcleared hpending := by
    rcases pending_record hpending with hbefore | hrecorded
    · exact fun hpresentable => hb.spent cleared hcleared hbefore
        (presentable_of_later (fun _ hrequest => hrequest) tick hpresentable)
    · exact horderly cleared hcleared hrecorded
  checked := hb.checked
  cleared := hb.cleared

theorem Balanced.present {s : PostState} {request : ApplyRequest} {now : ℤ} (hb : P.Balanced s) (tick : s.clock ≤ now)
    (valid : P.verifyApprovalToken request.token request.content request.previewEvidenceId now = .valid) :
    P.Balanced { s with clock := now, checked := request :: s.checked } where
  confirmed := hb.confirmed
  budget := hb.budget
  tokens := hb.tokens
  spent cleared hcleared hpending := by
    intro hpresentable
    apply hb.spent cleared hcleared hpending
    rcases hpresentable with hvalid | ⟨other, hother, htoken⟩
    · exact Or.inl fun hexpired => hvalid (hexpired.mono tick)
    · rcases List.mem_cons.1 hother with rfl | hold
      · exact Or.inl fun hexpired => (evidence_of_valid valid).2 (htoken ▸ hexpired.mono tick)
      · exact Or.inr ⟨other, hold, htoken⟩
  checked := List.forall_mem_cons.2 ⟨(evidence_of_valid valid).1, hb.checked⟩
  cleared := hb.cleared

theorem Balanced.refuse {s t : PostState} (hb : P.Balanced s) (hcleared : t.cleared = s.cleared)
    (hrecorded : t.recorded = s.recorded) (hpending : ∀ k, t.database.Pending k → s.database.Pending k)
    (hchecked : ∀ request ∈ t.checked, request ∈ s.checked) (hclock : s.clock ≤ t.clock) : P.Balanced t where
  confirmed := hcleared ▸ hb.confirmed
  budget k := by
    have hbudget := hb.budget k
    rw [hcleared, hrecorded]
    split_ifs with hstill
    · rw [if_pos (hpending k hstill)] at hbudget
      exact hbudget
    · omega
  tokens := hcleared ▸ hb.tokens
  spent cleared hmem hstill := by
    intro hpresentable
    exact hb.spent cleared (hcleared ▸ hmem) (hpending _ hstill) (presentable_of_later hchecked hclock hpresentable)
  checked request hrequest := hb.checked request (hchecked request hrequest)
  cleared := hcleared ▸ hb.cleared

theorem Balanced.spend {s t : PostState} {request : ApplyRequest} (hb : P.Balanced s) (hrequest : request ∈ s.checked)
    (hcleared : t.cleared = ⟨request, .consumed⟩ :: s.cleared) (hrecorded : t.recorded = s.recorded)
    (htaken : s.database.Pending (P.approvalKey request.content))
    (hgone : ¬ t.database.Pending (P.approvalKey request.content))
    (hpending : ∀ k, t.database.Pending k → s.database.Pending k)
    (hchecked : ∀ request ∈ t.checked, request ∈ s.checked) (hclock : s.clock ≤ t.clock) : P.Balanced t where
  confirmed := by
    rw [hcleared]
    exact List.forall_mem_cons.2 ⟨rfl, hb.confirmed⟩
  budget k := by
    have hbudget := hb.budget k
    rw [hcleared, hrecorded, List.map_cons, List.count_cons]
    by_cases hk : P.approvalKey request.content = k
    · subst hk
      rw [if_pos htaken] at hbudget
      rw [if_neg hgone, if_pos (beq_self_eq_true _)]
      omega
    · rw [if_neg (by simpa using hk)]
      split_ifs with hstill
      · rw [if_pos (hpending k hstill)] at hbudget
        omega
      · omega
  tokens := by
    rw [hcleared, List.map_cons, List.nodup_cons]
    refine ⟨fun hmem => ?_, hb.tokens⟩
    -- The token would have been spent on the same row, which is pending, while its request still waits.
    obtain ⟨earlier, hearlier, htoken⟩ := List.mem_map.1 hmem
    have hevidence : P.previewEvidenceId earlier.request.content = P.previewEvidenceId request.content := by
      rw [← hb.cleared earlier hearlier, ← hb.checked request hrequest, htoken]
    apply hb.spent earlier hearlier
    · rw [approvalKey_eq hevidence]
      exact htaken
    · exact Or.inr ⟨request, hrequest, htoken.symm⟩
  spent := by
    rw [hcleared]
    refine List.forall_mem_cons.2 ⟨fun hstill => absurd hstill hgone, fun cleared hmem hstill hpresentable => ?_⟩
    exact hb.spent cleared hmem (hpending _ hstill) (presentable_of_later hchecked hclock hpresentable)
  checked other hother := hb.checked other (hchecked other hother)
  cleared := by
    rw [hcleared]
    exact List.forall_mem_cons.2 ⟨hb.checked request hrequest, hb.cleared⟩

theorem Balanced.step {s t : PostState} {a : PostAct × ℤ} (hb : P.Balanced s) (h : Guarded P.Step P.Orderly s a t) :
    P.Balanced t := by
  obtain ⟨hstep, horderly⟩ := h
  cases hstep with
  | preview tick allowed => exact hb.preview tick horderly
  | issue before tick waits => exact hb.of_perm (.refl _) rfl rfl rfl tick
  | present tick signed valid => exact hb.present tick valid
  | @consume request outcome before after now tick waits =>
    have hrequest : request ∈ s.checked := by simp [waits]
    have hchecked : ∀ other ∈ before ++ after, other ∈ s.checked := by
      intro other hother
      rw [waits]
      exact List.perm_middle.mem_iff.2 (List.mem_cons_of_mem _ hother)
    rcases clear_of_answered s.database now horderly with hnone | ⟨hone, htaken, hgone⟩
    · refine hb.refuse ?_ rfl (fun _ => pending_consumed) hchecked tick
      simp only [PostState.cleared, hnone, List.nil_append]
    · refine hb.spend hrequest ?_ rfl htaken hgone (fun _ => pending_consumed) hchecked tick
      simp only [PostState.cleared, hone, List.cons_append, List.nil_append]
  | @execute cleared before after now tick waits =>
    refine hb.of_perm ?_ rfl rfl rfl tick
    simp only [PostState.cleared, waits, List.append_assoc, List.cons_append]
    exact List.Perm.append_left before List.perm_middle

theorem balanced_start {connections : Table ConnectionRow.id} {clock : ℤ} :
    P.Balanced { database := { connections := connections }, clock := clock } := by
  have hnone : ∀ k, ¬ ({ connections := connections } : Database).Pending k := fun k ⟨_, hrow, _⟩ => by cases hrow
  constructor <;> simp [PostState.cleared, hnone]

theorem Balanced.spentOnce {s : PostState} (hb : P.Balanced s) : SpentOnce s where
  tokens := ((List.sublist_append_right s.underway s.executions).map _).nodup hb.tokens
  recorded := by
    have hkeys : (s.cleared.map fun cleared => P.approvalKey cleared.request.content).Subperm s.recorded :=
      List.subperm_ext_iff.2 fun k _ => Nat.le_trans (Nat.le_add_right _ _) (hb.budget k)
    have hlength := hkeys.length_le
    rw [List.length_map, PostState.cleared, List.length_append] at hlength
    omega
  confirmed cleared hcleared := hb.confirmed cleared (List.mem_append_right _ hcleared)

/-- In an orderly run every approval is spent at most once. -/
theorem spent_once_of_run {connections : Table ConnectionRow.id} {clock : ℤ} {as : List (PostAct × ℤ)} {s : PostState}
    (h : Run (Guarded P.Step P.Orderly) { database := { connections := connections }, clock := clock } as s) :
    SpentOnce s :=
  (h.invariant (fun _ _ _ hb hstep => Balanced.step hb hstep) balanced_start).spentOnce

/-! ## One post -/

def somePostSystem : PostSystem :=
  { lowerTable := fun c => [c]
    upperTable := fun c => [c]
    isAlnum := Char.isAlphanum
    sha256Text := id
    payloadDigest := PreviewPayload.messageHash
    operationFingerprint := fun _ => "0123456789abcdef0123456789abcdef0123456789abcdef0123456789abcdef"
    organizationId := "org"
    userId := "user" }

def somePost : PostContent := { connectionRef := "wcn_1", pageId := "page", message := "hello" }

def postConfig : ComposioConfig :=
  { enabled := true
    apiKeyPresent := true
    applyExecuteEnabled := true
    applyAllowlist := [("facebook", ["FACEBOOK_CREATE_POST"])] }

def postConnection : ConnectionRecord :=
  { connectionId := "ca_facebook"
    providerSlug := "facebook"
    state := .connected
    scopes := { read := true, preview := true, apply := true } }

def somePreview : PreviewRequest :=
  { content := somePost, status := {}, config := postConfig, connection := some postConnection }

def someTime : ℤ := 2000000

def someApply : ApplyRequest :=
  { token := somePostSystem.buildApprovalToken somePost 0 someTime
    content := somePost
    status := {}
    config := postConfig
    connection := some postConnection
    schemaResponse := .data ⟨some "FACEBOOK_CREATE_POST", "facebook", true, ["message", "page_id"], ["message"]⟩ }

theorem somePreview_allowed : somePostSystem.previewAllowed somePreview = true := by decide

theorem someApply_passes : somePostSystem.applyPasses someApply = true := by decide

theorem someApply_valid : somePostSystem.verifyApprovalToken someApply.token someApply.content
    someApply.previewEvidenceId someTime = .valid := by decide

theorem clear_someApply {decision : ApprovalDecision} (h : decision.isBlocked = false) :
    somePostSystem.clear someApply decision = [⟨someApply, decision⟩] := by
  rw [clear, if_neg]
  simp [h, someApply_passes]

def previewed (db : Database) : Database :=
  (somePostSystem.recordOperationApproval db somePreview.status somePreview.content someTime .done).2

def asked (db : Database) (outcome : StorageOutcome) : ApprovalDecision × Database :=
  somePostSystem.consumeOperationApproval db someApply.status someApply.content someTime outcome

theorem toList_someFingerprint : (somePostSystem.operationFingerprint somePost).toList =
    (List.replicate 4 ['0', '1', '2', '3', '4', '5', '6', '7', '8', '9', 'a', 'b', 'c', 'd', 'e', 'f']).flatten :=
  String.toList_ofList

theorem lower_someFingerprint :
    PyText.lower somePostSystem.lowerTable (PyText.strip (somePostSystem.operationFingerprint somePost)) =
      somePostSystem.operationFingerprint somePost := by
  have hall : (somePostSystem.operationFingerprint somePost).toList.all (fun c =>
      !PyText.isSpace c && decide (c.toNat < 128) && c.toLower == c) = true := by
    rw [toList_someFingerprint]
    rfl
  have hplain : ∀ c ∈ (somePostSystem.operationFingerprint somePost).toList,
      PyText.isSpace c = false ∧ c.toNat < 128 ∧ c.toLower = c := by
    intro c hc
    have hone := List.all_eq_true.1 hall c hc
    simp only [Bool.and_eq_true, Bool.not_eq_true', decide_eq_true_eq, beq_iff_eq] at hone
    exact ⟨hone.1.1, hone.1.2, hone.2⟩
  rw [PyText.strip_of_forall fun c hc => (hplain c hc).1, PyText.lower_of_forall fun c hc => (hplain c hc).2]

theorem safe_someFingerprint : somePostSystem.safeFingerprint (somePostSystem.operationFingerprint somePost) =
    somePostSystem.operationFingerprint somePost := by
  have hhex : (somePostSystem.operationFingerprint somePost).toList.all
      (fun c => "0123456789abcdef".toList.contains c) = true := by
    rw [toList_someFingerprint]
    decide
  have hlength : (somePostSystem.operationFingerprint somePost).length = 64 := by
    rw [← String.length_toList, toList_someFingerprint]
    rfl
  unfold safeFingerprint safeDigest
  rw [lower_someFingerprint]
  exact if_pos ⟨hlength, hhex⟩

theorem evidence_somePost : PyText.strip (somePostSystem.previewEvidenceId somePost) = "wcp_hello" ∧
    (somePostSystem.operationApprovalRecord somePost someTime).previewEvidenceId = "wcp_hello" := by decide

theorem owner_some : normalizeOwner somePostSystem.organizationId somePostSystem.userId = some ⟨"org", "user"⟩ := by
  decide

theorem consumed_after_preview (db : Database) : (asked (previewed db) .done).1 = .consumed := by
  have hne : somePostSystem.operationFingerprint somePost ≠ "" := by
    intro hnil
    have hlist := congrArg String.toList hnil
    rw [toList_someFingerprint] at hlist
    cases hlist
  have hslug : normalizeProviderSlug somePostSystem.lowerTable "facebook" = "facebook" := by decide
  have hid : (somePostSystem.operationApprovalRecord somePost someTime).previewEvidenceId ≠ "" := by
    rw [evidence_somePost.2]
    decide
  obtain ⟨row, hrow, hpending, hexpires, hfingerprint⟩ := Database.find?_append db
    (somePostSystem.operationApprovalRecord somePost someTime) someTime owner_some hid rfl
  rw [evidence_somePost.2] at hrow
  have hready : someApply.status.operationApprovalReady ≠ false := by decide
  have hstrip : PyText.strip (somePostSystem.previewEvidenceId somePost) ≠ "" := by
    rw [evidence_somePost.1]
    decide
  have hlower : PyText.lower somePostSystem.lowerTable
      (PyText.strip (somePostSystem.operationFingerprint somePost)) ≠ "" := by
    rw [lower_someFingerprint]
    exact hne
  have hfound : (previewed db).approvals.find? (⟨"org", "user"⟩, normalizeProviderSlug somePostSystem.lowerTable
      "facebook", PyText.strip (somePostSystem.previewEvidenceId somePost)) = some row := by
    rw [hslug, evidence_somePost.1]
    exact hrow
  have hlasts : someTime ≤ row.record.expiresAt := by
    rw [hexpires, operationApprovalRecord]
    decide
  have hmatch : row.record.requestFingerprint = somePostSystem.operationFingerprint somePost := by
    rw [hfingerprint, operationApprovalRecord, safe_someFingerprint]
  have hconsumed := Database.consumed_of_find? owner_some hstrip hlower hfound hpending hlasts hmatch
  rw [asked, consumeOperationApproval, if_neg hready]
  exact hconsumed

theorem unavailable_after_failure (db : Database) : (asked db .failedBefore).1 = .unavailable := rfl

theorem underway_someApply {db : Database} {outcome : StorageOutcome} {decision : ApprovalDecision}
    (hdecision : (asked db outcome).1 = decision) (h : decision.isBlocked = false) :
    somePostSystem.clear someApply (asked db outcome).1 ++ [] = [] ++ (⟨someApply, decision⟩ : ClearedRequest) :: [] := by
  rw [hdecision, clear_someApply h]
  rfl

def postState (db : Database) (waiting : List PreviewRequest) (recorded : List ApprovalKey)
    (executions : List ClearedRequest) : PostState :=
  { database := db
    clock := someTime
    nonces := 1
    issued := [someApply.token]
    previewed := waiting
    recorded := recorded
    executions := executions }

def previewing : List (PostAct × ℤ) := [(.preview somePreview .done, someTime), (.issue, someTime)]

def presenting (outcome : StorageOutcome) : List (PostAct × ℤ) :=
  [(.present someApply, someTime), (.consume someApply outcome, someTime), (.execute, someTime)]

theorem run_previewing : Run (Guarded somePostSystem.Step somePostSystem.Orderly) { clock := someTime } previewing
    (postState (previewed {}) [] (somePostSystem.recordedBy somePreview .done ++ []) []) := by
  have hrun : Run (Guarded somePostSystem.Step somePostSystem.Orderly) { clock := someTime } previewing _ :=
    .cons ⟨.preview le_rfl somePreview_allowed, fun _ h => absurd h List.not_mem_nil⟩
      (.single ⟨.issue [] le_rfl rfl, trivial⟩)
  exact hrun

theorem run_presenting {db : Database} {waiting : List PreviewRequest} {recorded : List ApprovalKey}
    {executions : List ClearedRequest} {outcome : StorageOutcome} {decision : ApprovalDecision}
    (hdecision : (asked db outcome).1 = decision) (h : decision.isBlocked = false) :
    Run somePostSystem.Step (postState db waiting recorded executions) (presenting outcome)
      (postState (asked db outcome).2 waiting recorded (⟨someApply, decision⟩ :: executions)) := by
  have hrun : Run somePostSystem.Step (postState db waiting recorded executions) (presenting outcome) _ :=
    .cons (.present le_rfl (List.mem_singleton_self _) someApply_valid) (.cons (.consume [] le_rfl rfl)
      (.single (.execute [] le_rfl (underway_someApply hdecision h))))
  exact hrun

theorem spent_once_of_one_approval :
    ∃ s, Run (Guarded somePostSystem.Step somePostSystem.Orderly) { clock := someTime } (previewing ++ presenting .done) s ∧
      s.executions.length = 1 ∧ SpentOnce s := by
  have hpresenting : Run (Guarded somePostSystem.Step somePostSystem.Orderly)
      (postState (previewed {}) [] (somePostSystem.recordedBy somePreview .done ++ []) []) (presenting .done) _ :=
    .cons ⟨.present le_rfl (List.mem_singleton_self _) someApply_valid, trivial⟩
      (.cons ⟨.consume [] le_rfl rfl, fun _ => ⟨rfl, rfl, owner_some ▸ rfl⟩⟩
        (.single ⟨.execute [] le_rfl (underway_someApply (consumed_after_preview _) rfl), trivial⟩))
  have hrun := run_previewing.append hpresenting
  exact ⟨_, hrun, rfl, spent_once_of_run hrun⟩

/-- A ledger that fails lets a post through, and after a second preview one token executes twice. -/
theorem spent_twice_or_unconfirmed :
    (∃ as s, Run somePostSystem.Step { clock := someTime } as s ∧
        s.executions.map (fun cleared => cleared.request.token) = [someApply.token, someApply.token] ∧ ¬ SpentOnce s) ∧
      ∃ as s, Run somePostSystem.Step { clock := someTime } as s ∧
        s.executions.map ClearedRequest.decision = [.unavailable] ∧ ¬ SpentOnce s := by
  have hpreviewing := run_previewing.mono fun _ _ _ h => h.1
  constructor
  · have hagain := ((hpreviewing.append (run_presenting (consumed_after_preview _) rfl)).snoc
      (.preview le_rfl somePreview_allowed)).append (run_presenting (consumed_after_preview _) rfl)
    exact ⟨_, _, hagain, rfl, fun h => absurd h.tokens (by simp [postState])⟩
  · have hfailed := hpreviewing.append (run_presenting (unavailable_after_failure _) rfl)
    exact ⟨_, _, hfailed, rfl, fun h => absurd (h.confirmed _ (List.mem_singleton_self _)) (by decide)⟩

end PostSystem

end Wiii.Connect
