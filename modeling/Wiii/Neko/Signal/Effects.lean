import Wiii.Lib.Except
import Wiii.Neko.Signal.System

/-!
# What a call does to the inbox

An `Effect` is one update statement of the inbox with what is computed for it; every operation is a
sequence of them.  `EffectStep` is the statement on the tables, and `RowChange` says what an effect
can do to the row of one item, with the condition under which it does it (`EffectStep.row`).
-/

namespace Wiii.Neko.Signal

open SignalInbox

inductive Effect where
  | release (current : String)
  | reopen (current : String)
  | expire (current : String)
  | prune
  | insert (input : SignalIngress) (updatedAt signalId : String)
  | coalesce (input : SignalIngress) (updatedAt signalId : String)
  | drop (input : SignalIngress) (signalId : String)
  | forget
  | writeCursor (sourceId accountGrantRef sourceCursor : String) (gapDetected : Bool)
      (updatedAt : String)
  | lease (item : SignalItem) (current : String)
  | transition (request : SignalTransition) (current : String)
  | revoke (accountGrantRef current : String)

def Effect.events : Effect → List Event
  | insert input _ signalId => [.arrival input ⟨.inserted, signalId⟩]
  | coalesce input _ signalId => [.arrival input ⟨.coalesced, signalId⟩]
  | drop input signalId => [.arrival input ⟨.deduplicated, signalId⟩]
  | writeCursor source account cursor gap _ => [.moved source account cursor gap]
  | lease item _ => [.leased item]
  | revoke account _ => [.revoked account]
  | _ => []

/-- The effect says nothing about the item. -/
def Effect.Quiet (e : Effect) (id : String) : Prop := ∀ event ∈ e.events, event.subject ≠ some id

variable (P : Platform)

def sealRow (nonce : Nonce) (fields : PrivateSignalFields) (r : StoredSignal) : StoredSignal :=
  sealedRow nonce
    (P.encrypt nonce (Platform.aad r.signalId r.seq r.cipherAt) (P.toVec fields)) r

/-- The row of an item after one more event. -/
def mergedRow (input : SignalIngress) (updatedAt : String) (nonce : Nonce) (r : StoredSignal) :
    StoredSignal :=
  coalescedRow input updatedAt nonce
    (P.encrypt nonce (Platform.aad r.signalId r.seq updatedAt) (P.toVec input.privateFields)) r

inductive EffectStep : Inbox → Effect → Inbox → Prop
  | release (db : Inbox) (current : String) : EffectStep db (.release current)
      (SignalInbox.release current db)
  | reopen (db : Inbox) (current : String) : EffectStep db (.reopen current)
      (SignalInbox.reopen current db)
  | expire (db : Inbox) (current : String) : EffectStep db (.expire current)
      (SignalInbox.expire current db)
  | prune (db : Inbox) : EffectStep db .prune (SignalInbox.prune db)
  | insert {db : Inbox} {input : SignalIngress} {updatedAt : String} {items : Items}
      {dedupe : Table DedupeRow.dedupeHash} (valid : P.validateIngress input = .ok ())
      (none_waiting : newestWaiting (P.coalesceHash input) db = none)
      (room : db.items.rows.length < maxItems)
      (hi : db.items.insert? (insertedRow P input ("signal-" ++ P.newV4 db.drawn) updatedAt)
        (fun _ => rfl) = some items)
      (hd : db.dedupe.insert? ⟨P.dedupeHash input.sourceId input.dedupeKey,
        "signal-" ++ P.newV4 db.drawn, updatedAt⟩ = some dedupe) :
      EffectStep db (.insert input updatedAt ("signal-" ++ P.newV4 db.drawn))
        { db with
          items := items.updateWhere (fun r => decide (r.seq = items.lastSeq))
            (sealedRow (P.randomNonce (db.drawn + 1))
              (P.encrypt (P.randomNonce (db.drawn + 1))
                (Platform.aad ("signal-" ++ P.newV4 db.drawn) items.lastSeq updatedAt)
                (P.toVec input.privateFields)))
            (keepsKeys_sealedRow _ _)
          dedupe := dedupe
          drawn := db.drawn + 2 }
  | coalesce {db : Inbox} {input : SignalIngress} {updatedAt : String} {existing : StoredSignal}
      {dedupe : Table DedupeRow.dedupeHash} (valid : P.validateIngress input = .ok ())
      (newest : newestWaiting (P.coalesceHash input) db = some existing)
      (hd : db.dedupe.insert? ⟨P.dedupeHash input.sourceId input.dedupeKey, existing.signalId,
        updatedAt⟩ = some dedupe) :
      EffectStep db (.coalesce input updatedAt existing.signalId)
        { db with
          items := db.items.updateWhere (fun r => decide (r.seq = existing.seq))
            (coalescedRow input updatedAt (P.randomNonce db.drawn)
              (P.encrypt (P.randomNonce db.drawn)
                (Platform.aad existing.signalId existing.seq updatedAt)
                (P.toVec input.privateFields)))
            (keepsKeys_coalescedRow _ _ _ _)
          dedupe := dedupe
          drawn := db.drawn + 1 }
  | drop {db : Inbox} {input : SignalIngress} {row : DedupeRow}
      (valid : P.validateIngress input = .ok ())
      (known : db.dedupe.find? (P.dedupeHash input.sourceId input.dedupeKey) = some row) :
      EffectStep db (.drop input row.signalId) db
  | forget (db : Inbox) : EffectStep db .forget (SignalInbox.forget db)
  | writeCursor (db : Inbox) (source account cursor : String) (gap : Bool) (updatedAt : String)
      (hs : boundedIdentifier source "sourceId" 96 = .ok ())
      (ha : boundedIdentifier account "accountGrantRef" 256 = .ok ()) :
      EffectStep db (.writeCursor source account cursor gap updatedAt)
        (writeCursorValues P source account cursor gap updatedAt db)
  | lease {db : Inbox} {r : StoredSignal} {workerId expiresAt current : String} {item : SignalItem}
      (mem : r ∈ db.items) (ready : isReady current r)
      (answer : SignalInbox.item P (claimedRow workerId ("signal-lease-" ++ P.newV4 db.drawn)
        expiresAt current r) = .ok item) :
      EffectStep db (.lease item current)
        { db with
          items := db.items.updateWhere (isClaimable r.seq)
            (claimedRow workerId ("signal-lease-" ++ P.newV4 db.drawn) expiresAt current)
            (keepsKeys_claimedRow _ _ _ _)
          drawn := db.drawn + 1 }
  | transition {db : Inbox} {request : SignalTransition} {current : String} {r : StoredSignal}
      {operations : Table OperationRow.operationId}
      (found : db.items.find? request.signalId = some r)
      (held : isHeld request.signalId request.leaseId current r)
      (hs : request.nextState.isOpen = true → request.nextState = .deferred)
      (ho : db.operations.insert? (operationRow request current) = some operations) :
      EffectStep db (.transition request current)
        { db with
          items := db.items.updateWhere (isHeld request.signalId request.leaseId current)
            (transitionedRow request current) (keepsKeys_transitionedRow _ _)
          operations := operations }
  | revoke (db : Inbox) (account current : String)
      (ha : boundedIdentifier account "accountGrantRef" 256 = .ok ()) :
      EffectStep db (.revoke account current)
        { db with
          items := db.items.updateWhere (isRevoked (P.accountHash account)) (revokedRow current)
            (keepsKeys_revokedRow current)
          cursors := db.cursors.deleteWhere fun r =>
            decide (r.accountGrantHash = P.accountHash account) }

/-! ## What an effect does to the row of one item -/

/-- The row of the item `id` before and after an effect. -/
inductive RowChange (id : String) : Effect → Option StoredSignal → Option StoredSignal → Prop
  | same {e : Effect} (quiet : e.Quiet id) (r : Option StoredSignal) : RowChange id e r r
  | released {current : String} {r : StoredSignal} (h : isLapsed current r) :
      RowChange id (.release current) (some r) (some (released current r))
  | reopened {current : String} {r : StoredSignal} (h : isDue current r) :
      RowChange id (.reopen current) (some r) (some (reopened current r))
  | expired {current : String} {r : StoredSignal} (h : isOutdated current r) :
      RowChange id (.expire current) (some r) (some (expiredRow current r))
  | pruned {r : StoredSignal} (h : r.state.isTerminal) : RowChange id .prune (some r) none
  | inserted (input : SignalIngress) (updatedAt : String) (seq : ℕ) (nonce : Nonce)
      (valid : P.validateIngress input = .ok ()) :
      RowChange id (.insert input updatedAt id) none
        (some (sealRow P nonce input.privateFields (insertedRow P input id updatedAt seq)))
  | coalesced {input : SignalIngress} {updatedAt : String} {nonce : Nonce} {r : StoredSignal}
      (valid : P.validateIngress input = .ok ()) (waiting : r.state.isWaiting)
      (hash : r.coalesceHash = P.coalesceHash input) :
      RowChange id (.coalesce input updatedAt id) (some r)
        (some (mergedRow P input updatedAt nonce r))
  | leased {item : SignalItem} {r : StoredSignal} {workerId leaseId expiresAt current : String}
      (ready : isReady current r)
      (answer : SignalInbox.item P (claimedRow workerId leaseId expiresAt current r) = .ok item) :
      RowChange id (.lease item current) (some r)
        (some (claimedRow workerId leaseId expiresAt current r))
  | transitioned {request : SignalTransition} {current : String} {r : StoredSignal}
      (held : isHeld request.signalId request.leaseId current r)
      (hs : request.nextState.isOpen = true → request.nextState = .deferred) :
      RowChange id (.transition request current) (some r) (some (transitionedRow request current r))
  | revoked {account current : String} {r : StoredSignal}
      (h : isRevoked (P.accountHash account) r) :
      RowChange id (.revoke account current) (some r) (some (revokedRow current r))

variable {P}

theorem RowChange.of_updateWhere {items : Items} {p : StoredSignal → Bool}
    {f : StoredSignal → StoredSignal} {e : Effect} (hf : KeepsKeys f) (id : String)
    (quiet : e.Quiet id) (h : ∀ r ∈ items, p r → RowChange P id e (some r) (some (f r))) :
    RowChange P id e (items.find? id) ((items.updateWhere p f hf).find? id) := by
  rw [Items.find?_updateWhere]
  cases hr : items.find? id with
  | none => exact .same quiet _
  | some r =>
    rw [Option.map_some]
    split_ifs with hp
    · exact h r (Items.mem_of_find? hr) hp
    · exact .same quiet _

theorem newestWaiting_spec {hash : List UInt8} {db : Inbox} {r : StoredSignal}
    (h : newestWaiting hash db = some r) :
    r ∈ db.items ∧ r.coalesceHash = hash ∧ r.state.isWaiting := by
  have hmem := List.mem_of_getLast? h
  rw [List.mem_filter, Bool.and_eq_true, decide_eq_true_eq] at hmem
  exact ⟨hmem.1, hmem.2.1, hmem.2.2⟩

theorem isTerminal_of_mem_doomed {db : Inbox} {r : StoredSignal} (hr : r ∈ db.items)
    (h : r.seq ∈ doomed db) : r.state.isTerminal := by
  obtain ⟨s, hs, hseq⟩ := List.mem_map.1 h
  obtain ⟨hs, ht⟩ := List.mem_filter.1 (List.mem_of_mem_take hs)
  rwa [Items.eq_of_seq_eq hs hr hseq] at ht

theorem find?_prune (db : Inbox) (id : String) :
    (prune db).items.find? id = db.items.find? id ∨
      ∃ r, db.items.find? id = some r ∧ r.state.isTerminal ∧ (prune db).items.find? id = none := by
  simp only [prune, Items.find?_deleteWhere]
  cases hr : db.items.find? id with
  | none => exact .inl rfl
  | some r =>
    rw [Option.filter_some]
    split_ifs with hp
    · exact .inl rfl
    · simp only [Bool.not_eq_true, Bool.not_eq_false', decide_eq_true_eq] at hp
      exact .inr ⟨r, rfl, isTerminal_of_mem_doomed (Items.mem_of_find? hr) hp, rfl⟩

theorem newestWaiting_prune (hash : List UInt8) (db : Inbox) :
    newestWaiting hash (prune db) = newestWaiting hash db := by
  rw [newestWaiting, newestWaiting, prune, Items.rows_deleteWhere, List.filter_filter]
  refine congrArg List.getLast? (List.filter_congr fun r hr => ?_)
  rw [Bool.and_eq_left_iff_imp, Bool.and_eq_true, Bool.not_eq_true', decide_eq_false_iff_not]
  intro hw hd
  have ht := isTerminal_of_mem_doomed hr hd
  rw [SignalState.isTerminal_eq_not_isOpen, SignalState.isOpen_of_isWaiting hw.2] at ht
  exact absurd ht (by decide)

theorem find?_insert_sealed {items items' : Items} {input : SignalIngress}
    {signalId updatedAt : String} {nonce : Nonce}
    (hi : items.insert? (insertedRow P input signalId updatedAt) (fun _ => rfl) = some items')
    (id : String) :
    (items'.updateWhere (fun r => decide (r.seq = items'.lastSeq))
        (sealedRow nonce (P.encrypt nonce (Platform.aad signalId items'.lastSeq updatedAt)
          (P.toVec input.privateFields))) (keepsKeys_sealedRow _ _)).find? id =
      if id = signalId then
        some (sealRow P nonce input.privateFields
          (insertedRow P input signalId updatedAt (items.lastSeq + 1)))
      else items.find? id := by
  rw [Items.find?_updateWhere, Items.find?_insert? hi, (Items.insert?_eq_some hi).2.2]
  change Option.map _ (if id = signalId then _ else _) = _
  split_ifs with h
  · rw [Option.map_some, if_pos (by simp [insertedRow])]
    rfl
  · cases hr : items.find? id with
    | none => rfl
    | some r =>
      have hb := items.bounded r (Items.mem_of_find? hr)
      rw [Option.map_some, if_neg]
      simp only [decide_eq_true_eq]
      omega

theorem signalId_of_item {r : StoredSignal} {item : SignalItem}
    (h : SignalInbox.item P r = .ok item) : item.signalId = r.signalId := by
  obtain ⟨fields, -, h⟩ := bind_ok_iff.1 h
  obtain ⟨claim, -, h⟩ := bind_ok_iff.1 h
  obtain ⟨-, h⟩ := ite_error_ok_iff.1 h
  cases h
  rfl

theorem find?_coalesce {input : SignalIngress} {updatedAt : String} {nonce : Nonce}
    {existing : StoredSignal} {db : Inbox} {hash : List UInt8}
    (newest : newestWaiting hash db = some existing) (id : String) :
    (db.items.updateWhere (fun r => decide (r.seq = existing.seq))
        (coalescedRow input updatedAt nonce
          (P.encrypt nonce (Platform.aad existing.signalId existing.seq updatedAt)
            (P.toVec input.privateFields))) (keepsKeys_coalescedRow _ _ _ _)).find? id =
      if id = existing.signalId then some (mergedRow P input updatedAt nonce existing)
      else db.items.find? id := by
  have hm := (newestWaiting_spec newest).1
  rw [Items.find?_updateWhere_of_unique _ hm]
  · rfl
  · intro s hs
    rw [decide_eq_true_eq]
    exact ⟨Items.eq_of_seq_eq hs hm, fun h => h ▸ rfl⟩

theorem state_of_isReady {current : String} {r : StoredSignal} (h : isReady current r) :
    r.state = .pending := by
  simp only [isReady, Bool.and_eq_true, decide_eq_true_eq] at h
  exact h.1.1

theorem find?_lease {workerId leaseId expiresAt current : String} {r : StoredSignal} {db : Inbox}
    (mem : r ∈ db.items) (ready : isReady current r) (id : String) :
    (db.items.updateWhere (isClaimable r.seq) (claimedRow workerId leaseId expiresAt current)
        (keepsKeys_claimedRow _ _ _ _)).find? id =
      if id = r.signalId then some (claimedRow workerId leaseId expiresAt current r)
      else db.items.find? id := by
  have hp := state_of_isReady ready
  refine Items.find?_updateWhere_of_unique _ mem (fun s hs => ?_) id
  simp only [isClaimable, Bool.and_eq_true, decide_eq_true_eq]
  constructor
  · exact fun h => Items.eq_of_seq_eq hs mem h.1
  · rintro rfl
    exact ⟨rfl, hp⟩

theorem EffectStep.row {db db' : Inbox} {e : Effect} (h : EffectStep P db e db') (id : String) :
    RowChange P id e (db.items.find? id) (db'.items.find? id) := by
  cases h with
  | release current =>
    exact .of_updateWhere (keepsKeys_released _) id (by simp [Effect.Quiet, Effect.events])
      fun r _ hp => .released hp
  | reopen current =>
    exact .of_updateWhere (keepsKeys_reopened _) id (by simp [Effect.Quiet, Effect.events])
      fun r _ hp => .reopened hp
  | expire current =>
    exact .of_updateWhere (keepsKeys_expiredRow _) id (by simp [Effect.Quiet, Effect.events])
      fun r _ hp => .expired hp
  | prune =>
    rcases find?_prune db id with h | ⟨r, hr, ht, h⟩
    · rw [h]
      exact .same (by simp [Effect.Quiet, Effect.events]) _
    · rw [h, hr]
      exact .pruned ht
  | insert valid hnone room hi hd =>
    rw [find?_insert_sealed hi]
    split_ifs with hid
    · have hnew : db.items.find? id = none := hid ▸ (Items.insert?_eq_some hi).1
      rw [hnew, ← hid]
      exact .inserted _ _ _ _ valid
    · exact .same (by simpa [Effect.Quiet, Effect.events, Event.subject, eq_comm] using hid) _
  | coalesce valid newest hd =>
    obtain ⟨hm, hash, waiting⟩ := newestWaiting_spec newest
    rw [find?_coalesce newest]
    split_ifs with hid
    · rw [hid, Items.find?_of_mem hm]
      exact .coalesced valid waiting hash
    · exact .same (by simpa [Effect.Quiet, Effect.events, Event.subject, eq_comm] using hid) _
  | drop => exact .same (by simp [Effect.Quiet, Effect.events, Event.subject]) _
  | forget =>
    rw [items_forget]
    exact .same (by simp [Effect.Quiet, Effect.events]) _
  | writeCursor =>
    rw [items_writeCursorValues]
    exact .same (by simp [Effect.Quiet, Effect.events, Event.subject]) _
  | lease mem ready answer =>
    rw [find?_lease mem ready]
    split_ifs with hid
    · rw [hid, Items.find?_of_mem mem]
      exact .leased ready answer
    · have hitem := (signalId_of_item answer).trans ((keepsKeys_claimedRow _ _ _ _).signalId _)
      refine .same ?_ _
      simpa [Effect.Quiet, Effect.events, Event.subject, hitem, eq_comm] using hid
  | transition found held hs ho =>
    exact .of_updateWhere (keepsKeys_transitionedRow _ _) id
      (by simp [Effect.Quiet, Effect.events]) fun r _ hp => .transitioned hp hs
  | revoke account current =>
    exact .of_updateWhere (keepsKeys_revokedRow _) id
      (by simp [Effect.Quiet, Effect.events, Event.subject]) fun r _ hp => .revoked hp

end Wiii.Neko.Signal
