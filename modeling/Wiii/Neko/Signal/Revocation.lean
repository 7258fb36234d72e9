import Wiii.Neko.Signal.Leases

/-!
# Revoking an account

A row belongs to the account that its private fields name (`owns_iff`).  A revocation closes every open item of the
account, deletes its cursors and leaves all other rows alone (`Contained`); so it stays until an ingress of the account
is admitted or a cursor is written (`revoke_account_complete`).
-/

namespace Wiii.Neko.Signal

open SignalInbox

variable {P : Platform}

/-- The private fields of the item name the account. -/
def Owns (P : Platform) (account : String) (r : StoredSignal) : Prop :=
  ∃ fields, SignalInbox.decrypt P r = .ok fields ∧ fields.accountGrantRef = account

def OwnsCursor (P : Platform) (account : String) (row : CursorRow) : Prop :=
  ∃ fields, P.decryptPrivate (cursorId row.cursorKey) 0 row.updatedAt row.nonce row.ciphertext =
    .ok fields ∧ fields.accountGrantRef = account

section Ownership

variable {calls : List Call} {db : Inbox} {account : String}

theorem owns_iff (hC : P.CollisionFree) (hD : P.Decrypts) (h : Run (Step P) .empty calls db)
    (ha : account.utf8ByteSize ≤ 256) {id : String} {r : StoredSignal}
    (hr : db.items.find? id = some r) :
    Owns P account r ↔ r.accountGrantHash = P.accountHash account := by
  obtain ⟨input, hlast, opens⟩ := (sealed_of_run hD h).items id r hr
  obtain ⟨input', hlast', origin⟩ := origin_of_run hC h id r hr
  rw [hlast] at hlast'
  cases hlast'
  constructor
  · rintro ⟨fields, hf, rfl⟩
    rw [opens] at hf
    cases hf
    exact origin.account
  · intro hash
    refine ⟨_, opens, accountHash_injective hC ?_ ha (origin.account.symm.trans hash)⟩
    exact (sized_of_validateIngress origin.valid).accountGrantRef

theorem ownsCursor_iff (hC : P.CollisionFree) (hD : P.Decrypts) (h : Run (Step P) .empty calls db)
    (ha : account.utf8ByteSize ≤ 256) {key : List UInt8} {row : CursorRow}
    (hrow : db.cursors.find? key = some row) :
    OwnsCursor P account row ↔ row.accountGrantHash = P.accountHash account := by
  obtain ⟨fields, hlast, opens⟩ := (sealed_of_run hD h).cursors key row hrow
  obtain ⟨source, fields', hlast', -, -, hsize, hash⟩ := cursorOrigin_of_run hC h key row hrow
  rw [hlast] at hlast'
  cases hlast'
  rw [← Table.key_of_find? hrow] at opens
  constructor
  · rintro ⟨fields', hf, rfl⟩
    rw [opens] at hf
    cases hf
    exact hash
  · intro hash'
    exact ⟨_, opens, accountHash_injective hC hsize ha (hash.symm.trans hash')⟩

end Ownership

/-! ## What a revocation does -/

/-- The rows of all other accounts, and the other tables, are as they were. -/
structure Contained (P : Platform) (account : String) (db db' : Inbox) : Prop where
  items : ∀ id r, ¬ Owns P account r →
    (db'.items.find? id = some r ↔ db.items.find? id = some r)
  cursors : ∀ key row, ¬ OwnsCursor P account row →
    (db'.cursors.find? key = some row ↔ db.cursors.find? key = some row)
  dedupe : db'.dedupe = db.dedupe
  operations : db'.operations = db.operations

structure Revokes (P : Platform) (account : String) (now : Instant) (db db' : Inbox) : Prop where
  sized : account.utf8ByteSize ≤ 256
  items : ∀ id, db'.items.find? id = (db.items.find? id).map fun r =>
    if isRevoked (P.accountHash account) r then revokedRow (P.timestamp now) r else r
  cursors : ∀ key, db'.cursors.find? key = (db.cursors.find? key).filter fun row =>
    decide (row.accountGrantHash ≠ P.accountHash account)
  dedupe : db'.dedupe = db.dedupe
  operations : db'.operations = db.operations

theorem revokes_of_step {request : SignalAccountRevokeRequest} {now : Instant} {answer : Answer}
    {db db' : Inbox} (h : Step P db ⟨.revokeAccount request now, .ok answer⟩ db') :
    Revokes P request.accountGrantRef now db db' := by
  obtain ⟨⟨n, db₁⟩, ho, h⟩ := map_ok_iff.1 h.apply_eq
  cases h
  obtain ⟨ha, ho⟩ := bind_unit_ok_iff.1 ho
  cases ho
  refine ⟨size_of_boundedIdentifier ha, fun id => ?_, fun key => ?_, rfl, rfl⟩
  · rw [Items.find?_updateWhere]
  · rw [Table.find?_deleteWhere]
    simp only [ne_eq, decide_not]

section Revoked

variable {calls : List Call} {db db' : Inbox} {account : String} {now : Instant}

theorem contained_of_revokes (hC : P.CollisionFree) (hD : P.Decrypts)
    (h : Run (Step P) .empty calls db) (hr : Revokes P account now db db') :
    Contained P account db db' where
  items := by
    intro id r hother
    rw [hr.items]
    cases hfind : db.items.find? id with
    | none => simp
    | some s =>
      have hs := owns_iff hC hD h hr.sized hfind
      rw [Option.map_some]
      split_ifs with hrev
      · -- a row of the account, before and after
        simp only [isRevoked, Bool.and_eq_true, decide_eq_true_eq] at hrev
        have hown := hs.2 hrev.1
        constructor
        · rintro ⟨rfl⟩
          exact absurd hown hother
        · rintro ⟨rfl⟩
          exact absurd hown hother
      · exact Iff.rfl
  cursors := by
    intro key row hother
    rw [hr.cursors, Option.filter_eq_some_iff, decide_eq_true_eq]
    constructor
    · exact fun hrow => hrow.1
    · exact fun hrow => ⟨hrow, fun hash => hother ((ownsCursor_iff hC hD h hr.sized hrow).2 hash)⟩
  dedupe := hr.dedupe
  operations := hr.operations

/-- After a revocation the account's items are closed, until an ingress is admitted for it. -/
def ItemsClosed (P : Platform) (account : String) (events : List Event) (db : Inbox) : Prop :=
  (∀ input admission, .arrival input admission ∈ events → input.accountGrantRef = account →
    admission.outcome = .deduplicated) →
  ∀ id r, db.items.find? id = some r → r.accountGrantHash = P.accountHash account →
    r.state.isTerminal

/-- After a revocation the account has no cursor, until one is written. -/
def CursorsGone (P : Platform) (account : String) (events : List Event) (db : Inbox) : Prop :=
  (∀ source cursor gap, .moved source account cursor gap ∉ events) →
  ∀ key row, db.cursors.find? key = some row → row.accountGrantHash ≠ P.accountHash account

theorem itemsClosed_of_revokes (hr : Revokes P account now db db') : ItemsClosed P account [] db' := by
  intro _ id r' hr' hash
  rw [hr.items, Option.map_eq_some_iff] at hr'
  obtain ⟨r, hfind, rfl⟩ := hr'
  split_ifs at hash ⊢ with hrev
  · rfl
  · rw [SignalState.isTerminal_eq_not_isOpen]
    simpa [isRevoked, hash] using hrev

theorem cursorsGone_of_revokes (hr : Revokes P account now db db') : CursorsGone P account [] db' := by
  intro _ key row hrow
  rw [hr.cursors, Option.filter_eq_some_iff, decide_eq_true_eq] at hrow
  exact hrow.2

end Revoked

/-! ## After the revocation -/

theorem ItemsClosed.step (hC : P.CollisionFree) {account : String} (ha : account.utf8ByteSize ≤ 256)
    {events : List Event} {db db' : Inbox} {e : Effect} (hs : ItemsClosed P account events db)
    (h : EffectStep P db e db') : ItemsClosed P account (events ++ e.events) db' := by
  intro hnone id r' hr' hash
  have hold := hs fun input admission harrival => hnone input admission (List.mem_append_left _ harrival)
  have hrow := h.row id
  rw [hr'] at hrow
  rcases hrow.closed with ⟨r, hr, same, closed⟩ | ⟨input, valid, hev, hash'⟩
  · exact closed (hold id r hr (same.symm.trans hash))
  · have hsize := (sized_of_validateIngress valid).accountGrantRef
    have haccount := accountHash_injective hC hsize ha (hash'.symm.trans hash)
    have hout := hnone input ⟨.inserted, id⟩ (by simp [hev]) haccount
    cases hout

theorem CursorsGone.step (hC : P.CollisionFree) {account : String} (ha : account.utf8ByteSize ≤ 256)
    {events : List Event} {db db' : Inbox} {e : Effect} (hs : CursorsGone P account events db)
    (h : EffectStep P db e db') : CursorsGone P account (events ++ e.events) db' := by
  intro hnone key row hrow hash
  have hold := hs fun source cursor gap hmoved => hnone source cursor gap (List.mem_append_left _ hmoved)
  cases h with
  | writeCursor source account' cursor gap updatedAt hsource haccount =>
    rw [find?_writeCursorValues] at hrow
    split_ifs at hrow with hkey
    · rw [← Option.some.inj hrow, accountGrantHash_writtenRow] at hash
      cases hfind : db.cursors.find? (P.cursorKey source account') with
      | none =>
        rw [hfind] at hash
        have hsame := accountHash_injective hC (size_of_boundedIdentifier haccount) ha hash
        exact hnone source cursor gap (by simp [Effect.events, hsame])
      | some old =>
        rw [hfind] at hash
        exact hold _ old hfind hash
    · exact hold key row hrow hash
  | revoke account' current haccount =>
    rw [Table.find?_deleteWhere, Option.filter_eq_some_iff] at hrow
    exact hold key row hrow.1 hash
  | forget =>
    rw [cursors_forget] at hrow
    exact hold key row hrow hash
  | _ => exact hold key row hrow hash

theorem decrypt_recoveredRow (current : String) (r : StoredSignal) :
    SignalInbox.decrypt P (recoveredRow current r) = SignalInbox.decrypt P r := by
  simp only [recoveredRow]
  split_ifs <;> rfl

theorem not_isTerminal_of_isReady {current : String} {r : StoredSignal}
    (h : isReady current (recoveredRow current r)) : ¬ r.state.isTerminal := by
  intro ht
  have hl : isLapsed current r = false := by
    cases hs : r.state <;> simp_all [isLapsed, SignalState.isTerminal]
  have hd : isDue current r = false := by
    cases hs : r.state <;> simp_all [isDue, SignalState.isTerminal]
  have hp := state_of_isReady h
  simp only [recoveredRow, hl, hd, Bool.false_eq_true, if_false] at hp
  split_ifs at hp
  · cases hp
  · rw [hp] at ht
    cases ht

/-- A claim gives out no item of an account whose items are closed. -/
theorem account_of_leased {account : String} {db db' : Inbox} {call : Call}
    (closed : ∀ r ∈ db.items, Owns P account r → r.state.isTerminal) (h : Step P db call db')
    {item : SignalItem} (hitem : .leased item ∈ call.events) : item.accountGrantRef ≠ account := by
  intro haccount
  obtain ⟨request, now, items, rfl, hmem⟩ := claim_of_leased hitem
  obtain ⟨⟨items', db₁⟩, ho, heq⟩ := map_ok_iff.1 h.apply_eq
  cases heq
  obtain ⟨r, hr, ready, leaseId, expiresAt, answer⟩ := ready_of_claim ho hmem
  obtain ⟨fields, hf, answer⟩ := bind_ok_iff.1 answer
  obtain ⟨claim, -, answer⟩ := bind_ok_iff.1 answer
  obtain ⟨-, answer⟩ := ite_error_ok_iff.1 answer
  cases answer
  have opens : SignalInbox.decrypt P r = .ok fields := (decrypt_recoveredRow _ r).symm.trans hf
  exact not_isTerminal_of_isReady ready
    (closed r (Items.mem_of_find? hr) ⟨fields, opens, haccount⟩)

/-- Since the revocation in `db`: `given` are the leases before it, `events` what happened. -/
structure RevokedSince (P : Platform) (account : String) (given : List SignalClaim) (db : Inbox)
    (events : List Event) (db' : Inbox) : Prop where
  /-- Under a lease on an item of the account nothing changes any more. -/
  leases : ∀ claim ∈ given, ∀ signalId,
    (∀ r, db.items.find? signalId = some r → Owns P account r) → ∀ now call db'',
      call.op.presents = some (signalId, claim.leaseId, now) → Step P db' call db'' → db'' = db'
  /-- Until an ingress of the account is admitted, its items are closed and none is given out. -/
  items : (∀ input admission, .arrival input admission ∈ events → input.accountGrantRef = account →
      admission.outcome = .deduplicated) →
    (∀ r ∈ db'.items, Owns P account r → r.state.isTerminal) ∧
      ∀ call db'', Step P db' call db'' → ∀ item, .leased item ∈ call.events →
        item.accountGrantRef ≠ account
  /-- Until a cursor of the account is written, it has none. -/
  cursors : (∀ source cursor gap, .moved source account cursor gap ∉ events) →
    ∀ row ∈ db'.cursors, ¬ OwnsCursor P account row

theorem dead_of_revokes (hC : P.CollisionFree) (hD : P.Decrypts) (hF : P.Fresh)
    {calls : List Call} {call : Call} {db db' : Inbox} {account : String} {now : Instant} (h : Run (Step P) .empty calls db)
    (h' : Run (Step P) .empty (calls ++ [call]) db') (hr : Revokes P account now db db')
    {claim : SignalClaim} (hclaim : claim ∈ leases (trace calls)) {signalId : String}
    (hown : ∀ r, db.items.find? signalId = some r → Owns P account r) :
    Dead P signalId claim.leaseId (trace (calls ++ [call])) db' where
  book := leaseBook_of_run hF h'
  given := by
    refine ⟨claim, ?_, rfl⟩
    rw [trace, List.flatMap_append, leases_append]
    exact List.mem_append_left _ hclaim
  gone := by
    rintro ⟨r', hr', hs, -⟩
    have hmap := hr'
    rw [hr.items, Option.map_eq_some_iff] at hmap
    obtain ⟨r, hfind, hrow⟩ := hmap
    have hash := (owns_iff hC hD h hr.sized hfind).1 (hown r hfind)
    have hash' : r'.accountGrantHash = P.accountHash account := by
      rw [← hash, ← hrow]
      split_ifs <;> rfl
    have ht := itemsClosed_of_revokes hr (by simp) signalId r' hr' hash'
    rw [hs] at ht
    cases ht

/-- A revocation that returns closes every item of the account, kills its leases and deletes its cursors for good, and
touches nothing of another account. -/
theorem revoke_account_complete (hC : P.CollisionFree) (hD : P.Decrypts) (hF : P.Fresh)
    {calls : List Call} {db db' : Inbox} {request : SignalAccountRevokeRequest} {now : Instant}
    {answer : Answer} (h : Run (Step P) .empty calls db)
    (hr : Step P db ⟨.revokeAccount request now, .ok answer⟩ db') :
    Contained P request.accountGrantRef db db' ∧
    ∀ calls' db'', Run (Step P) db' calls' db'' →
      RevokedSince P request.accountGrantRef (leases (trace calls)) db (trace calls') db'' := by
  have revokes := revokes_of_step hr
  have hsnoc := h.snoc hr
  refine ⟨contained_of_revokes hC hD h revokes, fun calls' db'' hrun => ?_⟩
  have hrun' := hsnoc.append hrun
  have closed := run_keeps (I := ItemsClosed P request.accountGrantRef)
    (fun _ _ _ _ hs he => hs.step hC revokes.sized he) hrun (itemsClosed_of_revokes revokes)
  have gone := run_keeps (I := CursorsGone P request.accountGrantRef)
    (fun _ _ _ _ hs he => hs.step hC revokes.sized he) hrun (cursorsGone_of_revokes revokes)
  refine ⟨fun claim hclaim signalId hown now' call db₃ hop hstep => ?_, fun hnone => ?_,
    fun hnone row hrow hown => ?_⟩
  · have dead := dead_of_revokes hC hD hF h hsnoc revokes hclaim hown
    exact (dead.run hF hrun).eq_of_step hop hstep
  · have hterminal : ∀ r ∈ db''.items, Owns P request.accountGrantRef r → r.state.isTerminal := by
      intro r hmem hown
      have hfind := Items.find?_of_mem hmem
      exact closed hnone _ r hfind ((owns_iff hC hD hrun' revokes.sized hfind).1 hown)
    exact ⟨hterminal, fun call db₃ hstep item hitem => account_of_leased hterminal hstep hitem⟩
  · have hfind := Table.find?_of_mem hrow
    exact gone hnone _ row hfind ((ownsCursor_iff hC hD hrun' revokes.sized hfind).1 hown)

theorem revoke_account_complete_leasedMail : ∃ answer db',
    Step reference (execute reference leasedMail .empty).2
      ⟨.revokeAccount ⟨"grant-a"⟩ (reference.clock 8 0 3), .ok answer⟩ db' ∧
      Contained reference "grant-a" (execute reference leasedMail .empty).2 db' := by
  obtain ⟨answer, db', hstep⟩ := step_of_isOk reference
    (.revokeAccount ⟨"grant-a"⟩ (reference.clock 8 0 3))
    (execute reference leasedMail .empty).2 (by decide +kernel)
  exact ⟨answer, db', hstep, (revoke_account_complete reference.collisionFree reference.decrypts
    reference.fresh (run_execute _ _ _) hstep).1⟩

/-- A cursor of a revoked account comes back without any ingress. -/
theorem revoked_cursor_returns :
    let run := execute reference [.revokeAccount ⟨"grant-a"⟩ (reference.clock 8 0 0),
      .advanceCursor "gmail.history.v1" "grant-a" "42" false (reference.clock 8 0 1)] .empty
    run.1.map (fun call => call.answer.isOk) = [true, true] ∧
      (cursor reference "gmail.history.v1" "grant-a" run.2).map
        (Option.map SignalCursorCheckpoint.sourceCursor) = .ok (some "42") := by
  decide +kernel

end Wiii.Neko.Signal
