import Wiii.Neko.Signal.Performs

/-!
# What recovery, claims and transitions do to a row

`recoveredRow` is what recovery makes of one row: a row that is still claimed after it is unchanged,
and a row that is ready after it was not held before.  `Transitions` is what a deferral or a
resolution does that is not a repetition (`transition_ok`).
-/

namespace Wiii.Neko.Signal

open SignalInbox

variable {P : Platform}

/-! ## Closed items -/

theorem isHeld_iff {signalId leaseId current : String} {r : StoredSignal} :
    isHeld signalId leaseId current r ↔ r.signalId = signalId ∧ r.state = .claimed ∧
      r.claimLeaseId = some leaseId ∧ ∃ expiresAt, r.claimExpiresAt = some expiresAt ∧
        current < expiresAt := by
  unfold isHeld
  cases r.claimExpiresAt <;> simp [and_assoc]

theorem RowChange.closed {id : String} {e : Effect} {r? : Option StoredSignal} {r' : StoredSignal}
    (h : RowChange P id e r? (some r')) :
    (∃ r, r? = some r ∧ r'.accountGrantHash = r.accountGrantHash ∧
      (r.state.isTerminal → r'.state.isTerminal)) ∨
    ∃ input, P.validateIngress input = .ok () ∧ e.events = [.arrival input ⟨.inserted, id⟩] ∧
      r'.accountGrantHash = P.accountHash input.accountGrantRef := by
  have kept : ∀ r : StoredSignal, r.state.isTerminal = false → r? = some r →
      r'.accountGrantHash = r.accountGrantHash → ∃ r, r? = some r ∧
        r'.accountGrantHash = r.accountGrantHash ∧ (r.state.isTerminal → r'.state.isTerminal) :=
    fun r hs hr hash => ⟨r, hr, hash, fun ht => absurd ht (by rw [hs]; decide)⟩
  cases h with
  | same quiet => exact .inl ⟨r', rfl, rfl, fun ht => ht⟩
  | inserted input updatedAt seq nonce valid => exact .inr ⟨input, valid, rfl, rfl⟩
  | expired => exact .inl ⟨_, rfl, rfl, fun _ => rfl⟩
  | revoked => exact .inl ⟨_, rfl, rfl, fun _ => rfl⟩
  | coalesced valid waiting => exact .inl ⟨_, rfl, rfl, fun ht => ht⟩
  | @released current r lapsed =>
    have hs : r.state = .claimed := by
      simp only [isLapsed, Bool.and_eq_true, decide_eq_true_eq] at lapsed
      exact lapsed.1
    exact .inl (kept r (by rw [hs]; rfl) rfl rfl)
  | @reopened current r due =>
    have hs : r.state = .deferred := by
      simp only [isDue, Bool.and_eq_true, decide_eq_true_eq] at due
      exact due.1
    exact .inl (kept r (by rw [hs]; rfl) rfl rfl)
  | @leased item r workerId leaseId expiresAt current ready answer =>
    exact .inl (kept r (by rw [state_of_isReady ready]; rfl) rfl rfl)
  | @transitioned request current r held hopen =>
    exact .inl (kept r (by rw [(isHeld_iff.1 held).2.1]; rfl) rfl rfl)

/-- A row that is closed stays as it is until it is pruned. -/
theorem RowChange.terminal {id : String} {e : Effect} {r : StoredSignal} {r'? : Option StoredSignal}
    (h : RowChange P id e (some r) r'?) (ht : r.state.isTerminal) : r'? = some r ∨ r'? = none := by
  have not_open : r.state.isOpen = false := by
    simpa [SignalState.isTerminal_eq_not_isOpen] using ht
  cases h with
  | same quiet => exact .inl rfl
  | pruned => exact .inr rfl
  | coalesced valid waiting =>
    rw [SignalState.isOpen_of_isWaiting waiting] at not_open
    cases not_open
  | released lapsed =>
    simp only [isLapsed, Bool.and_eq_true, decide_eq_true_eq] at lapsed
    rw [lapsed.1] at ht
    cases ht
  | reopened due =>
    simp only [isDue, Bool.and_eq_true, decide_eq_true_eq] at due
    rw [due.1] at ht
    cases ht
  | expired outdated => simp [isOutdated, not_open] at outdated
  | leased ready answer =>
    rw [state_of_isReady ready] at ht
    cases ht
  | transitioned held hopen =>
    rw [(isHeld_iff.1 held).2.1] at ht
    cases ht
  | revoked hrev => simp [isRevoked, not_open] at hrev

/-! ## Recovery -/

def recoveredRow (current : String) (r : StoredSignal) : StoredSignal :=
  let r := if isLapsed current r then released current r else r
  let r := if isDue current r then reopened current r else r
  if isOutdated current r then expiredRow current r else r

theorem find?_recover (current : String) (db : Inbox) (id : String) :
    (recover current db).items.find? id = (db.items.find? id).map (recoveredRow current) := by
  simp only [recover, expire, reopen, release, Items.find?_updateWhere, Option.map_map]
  rfl

theorem recoveredRow_of_claimed {current : String} {r : StoredSignal}
    (h : (recoveredRow current r).state = .claimed) :
    recoveredRow current r = r ∧ isLapsed current r = false := by
  unfold recoveredRow at h ⊢
  cases hl : isLapsed current r with
  | true =>
    simp only [hl, if_pos] at h
    split_ifs at h <;> simp [expiredRow, reopened, released] at h
  | false =>
    simp only [hl, Bool.false_eq_true, if_false] at h ⊢
    split_ifs at h ⊢ <;> simp_all [expiredRow, reopened]

theorem isHeld_of_recoveredRow {signalId leaseId current : String} {r : StoredSignal}
    (h : isHeld signalId leaseId current (recoveredRow current r)) :
    recoveredRow current r = r ∧ isHeld signalId leaseId current r := by
  obtain ⟨same, -⟩ := recoveredRow_of_claimed (isHeld_iff.1 h).2.1
  rw [same] at h
  exact ⟨same, h⟩

/-- A row that is held goes through recovery unchanged or out of date. -/
theorem recoveredRow_of_isHeld {signalId leaseId current : String} {r : StoredSignal}
    (h : isHeld signalId leaseId current r) : recoveredRow current r = r ∨
      (recoveredRow current r).state = .expired := by
  obtain ⟨-, hs, -, expiresAt, he, hlt⟩ := isHeld_iff.1 h
  have hl : isLapsed current r = false := by simp [isLapsed, hs, he, dueAt, hlt]
  have hd : isDue current r = false := by simp [isDue, hs]
  simp only [recoveredRow, hl, hd, Bool.false_eq_true, if_false]
  split_ifs
  · exact .inr rfl
  · exact .inl rfl

theorem not_isHeld_of_isReady {signalId leaseId current : String} {r : StoredSignal}
    (h : isReady current (recoveredRow current r)) : ¬ isHeld signalId leaseId current r := by
  intro held
  have hp := state_of_isReady h
  rcases recoveredRow_of_isHeld held with same | hs
  · rw [same, (isHeld_iff.1 held).2.1] at hp
    cases hp
  · rw [hs] at hp
    cases hp

theorem signalId_recoveredRow (current : String) (r : StoredSignal) :
    (recoveredRow current r).signalId = r.signalId := by
  simp only [recoveredRow]
  split_ifs <;> rfl

/-! ## Claims -/

theorem ready_of_claimEach {workerId expiresAt current : String} {seqs : List ℕ} {db db' : Inbox}
    {items : List SignalItem} (listed : Listed current seqs db)
    (h : claimEach P workerId expiresAt current seqs db = .ok (items, db')) :
    ∀ item ∈ items, ∃ r ∈ db.items, isReady current r ∧ ∃ leaseId,
      SignalInbox.item P (claimedRow workerId leaseId expiresAt current r) = .ok item := by
  induction seqs generalizing db items with
  | nil =>
    cases h
    simp
  | cons seq seqs ih =>
    obtain ⟨r, first, rest, hr, ready, hf, listed', rfl, hrest⟩ := claimEach_cons listed h
    refine List.forall_mem_cons.2 ⟨⟨r, hr, ready, _, hf⟩, fun item hitem => ?_⟩
    obtain ⟨s', hs', hready, hanswer⟩ := ih listed' hrest item hitem
    obtain ⟨s, hs, rfl⟩ := (Table.mem_updateWhere (keepsKeys_claimedRow _ _ _ _).signalId).1 hs'
    -- a row that is ready is none of those leased before
    split_ifs at hanswer hready with hc
    · cases state_of_isReady hready
    · exact ⟨s, hs, hready, hanswer⟩

theorem ready_of_claim {request : SignalClaimRequest} {now : Instant} {db db' : Inbox}
    {items : List SignalItem} (h : claim P request now db = .ok (items, db')) {item : SignalItem}
    (hitem : item ∈ items) : ∃ r, db.items.find? item.signalId = some r ∧
      isReady (P.timestamp now) (recoveredRow (P.timestamp now) r) ∧ ∃ leaseId expiresAt,
        SignalInbox.item P (claimedRow request.workerId leaseId expiresAt (P.timestamp now)
          (recoveredRow (P.timestamp now) r)) = .ok item := by
  obtain ⟨-, h⟩ := bind_unit_ok_iff.1 h
  obtain ⟨-, h⟩ := ite_error_ok_iff.1 h
  obtain ⟨-, h⟩ := ite_error_ok_iff.1 h
  obtain ⟨r, hr, ready, leaseId, answer⟩ :=
    ready_of_claimEach (listed_readyRows _ _ _) h item hitem
  have hfind := Items.find?_of_mem hr
  have hid := (signalId_of_item answer).trans ((keepsKeys_claimedRow _ _ _ _).signalId r)
  rw [← hid, find?_recover, Option.map_eq_some_iff] at hfind
  obtain ⟨r₀, hr₀, rfl⟩ := hfind
  exact ⟨r₀, hr₀, ready, leaseId, _, answer⟩

/-! ## Transitions -/

structure Transitions (request : SignalTransition) (current : String) (db db' : Inbox) : Prop where
  fresh : db.operations.find? request.operationId = none
  held : ∃ r, db.items.find? request.signalId = some r ∧
    isHeld request.signalId request.leaseId current r ∧
    db'.items.find? request.signalId = some (transitionedRow request current r)
  others : ∀ id, id ≠ request.signalId →
    db'.items.find? id = (db.items.find? id).map (recoveredRow current)
  operations : db.operations.insert? (operationRow request current) = some db'.operations
  dedupe : db'.dedupe = db.dedupe
  cursors : db'.cursors = db.cursors

theorem transitions_of_performTransition {request : SignalTransition} {current : String}
    {db db' : Inbox} (h : performTransition request current db = .ok db') :
    Transitions request current db db' := by
  obtain ⟨hone, h⟩ := ite_error_ok_iff.1 h
  split at h
  · cases h
  · rename_i operations hins
    cases h
    obtain ⟨r, hr, held⟩ := List.countP_pos_iff.1 (by omega :
      0 < (recover current db).items.rows.countP
        (isHeld request.signalId request.leaseId current))
    have hid := (isHeld_iff.1 held).1
    have hmem : r ∈ (recover current db).items := hr
    have hfind := Items.find?_of_mem hmem
    rw [hid, find?_recover, Option.map_eq_some_iff] at hfind
    obtain ⟨r₀, hr₀, rfl⟩ := hfind
    obtain ⟨same, held₀⟩ := isHeld_of_recoveredRow held
    refine ⟨(Table.insert?_eq_some_iff.1 hins).1, ⟨r₀, hr₀, held₀, ?_⟩, fun id hne => ?_, hins, rfl,
      rfl⟩
    · rw [Items.find?_updateWhere, find?_recover, hr₀, Option.map_some, Option.map_some, same,
        if_pos held₀]
    · rw [Items.find?_updateWhere, find?_recover]
      cases hs : db.items.find? id with
      | none => rfl
      | some s =>
        rw [Option.map_some, Option.map_some, if_neg]
        intro hheld
        have hsid := (Items.find?_eq_some_iff.1 hs).2
        rw [isHeld_iff, signalId_recoveredRow, hsid] at hheld
        exact hne hheld.1

theorem transition_ok {request : SignalTransition} {now : Instant} {db db' : Inbox}
    {item : SignalItem} (h : transition P request now db = .ok (item, db')) :
    readById P request.signalId db' = .ok item ∧
      ((db' = db ∧ ∃ row, db.operations.find? request.operationId = some row ∧
        row.signalId = request.signalId ∧ row.action = request.action) ∨
      Transitions request (P.timestamp now) db db') := by
  unfold transition at h
  split at h
  · rename_i row hrow
    obtain ⟨hsame, h⟩ := ite_error_ok_iff.1 h
    obtain ⟨item', hread, h⟩ := bind_ok_iff.1 h
    cases h
    simp only [ne_eq, not_or, not_not] at hsame
    exact ⟨hread, .inl ⟨rfl, row, hrow, hsame⟩⟩
  · obtain ⟨db₁, hp, h⟩ := bind_ok_iff.1 h
    obtain ⟨item', hread, h⟩ := bind_ok_iff.1 h
    cases h
    exact ⟨hread, .inr (transitions_of_performTransition hp)⟩

end Wiii.Neko.Signal
