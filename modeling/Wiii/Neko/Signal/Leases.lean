import Wiii.Neko.Signal.Origin
import Wiii.Neko.Signal.Specs

/-!
# Leases are exclusive

A lease id is drawn anew for every item that is given out, and the lease recorded in a row is the last one given out for
its item (`LeaseBook`).  So a lease that is not recorded is dead: no later call under it changes anything
(`leases_exclusive`).
-/

namespace Wiii.Neko.Signal

open SignalInbox

variable {P : Platform}

/-! ## Leases -/

/-- The lease that a call presents: the item, the lease id, and the reading it is checked at. -/
def Op.presents : Op → Option (String × String × Instant)
  | .defer request _ current => some (request.signalId, request.leaseId, current)
  | .resolve request current => some (request.signalId, request.leaseId, current)
  | _ => none

def Leased (signalId leaseId : String) (db : Inbox) : Prop :=
  ∃ r, db.items.find? signalId = some r ∧ r.state = .claimed ∧ r.claimLeaseId = some leaseId

/-- The item is leased under this lease, and at this reading the lease has not run out. -/
def Held (P : Platform) (now : Instant) (signalId leaseId : String) (db : Inbox) : Prop :=
  ∃ r, db.items.find? signalId = some r ∧ isHeld signalId leaseId (P.timestamp now) r

theorem Held.leased {now : Instant} {signalId leaseId : String} {db : Inbox}
    (h : Held P now signalId leaseId db) : Leased signalId leaseId db := by
  obtain ⟨r, hr, held⟩ := h
  obtain ⟨-, hs, hl, -⟩ := isHeld_iff.1 held
  exact ⟨r, hr, hs, hl⟩

def Event.lease : Event → Option SignalClaim
  | leased item => item.claim
  | _ => none

def Event.leaseOn (signalId : String) : Event → Option SignalClaim
  | leased item => if item.signalId = signalId then item.claim else none
  | _ => none

/-- The leases given out, in order. -/
def leases (events : List Event) : List SignalClaim := events.filterMap Event.lease

def lastLease (signalId : String) (events : List Event) : Option SignalClaim :=
  (events.filterMap (Event.leaseOn signalId)).getLast?

theorem leases_append (events events' : List Event) :
    leases (events ++ events') = leases events ++ leases events' :=
  List.filterMap_append

theorem lastLease_append_of_quiet {events : List Event} {e : Effect} {id : String}
    (quiet : e.Quiet id) : lastLease id (events ++ e.events) = lastLease id events := by
  have h : e.events.filterMap (Event.leaseOn id) = [] := by
    refine List.filterMap_eq_nil_iff.2 fun event he => ?_
    have hq := quiet event he
    cases event <;> simp_all [Event.leaseOn, Event.subject]
  rw [lastLease, List.filterMap_append, h, List.append_nil, lastLease]

/-- The columns of the row hold the lease. -/
structure Records (r : StoredSignal) (claim : SignalClaim) : Prop where
  workerId : r.claimWorkerId = some claim.workerId
  leaseId : r.claimLeaseId = some claim.leaseId
  expiresAt : r.claimExpiresAt = some claim.expiresAt

theorem records_of_claimOf {r : StoredSignal} {workerId leaseId expiresAt : String}
    {claim : Option SignalClaim} (hw : r.claimWorkerId = some workerId)
    (hl : r.claimLeaseId = some leaseId) (he : r.claimExpiresAt = some expiresAt)
    (hs : r.state = .claimed) (h : claimOf r = .ok claim) :
    ∃ c, claim = some c ∧ c.leaseId = leaseId ∧ Records r c := by
  unfold claimOf at h
  rw [hw, hl, he] at h
  simp only [hs, if_pos] at h
  split_ifs at h
  cases h
  exact ⟨_, rfl, rfl, hw, hl, he⟩

theorem records_of_item {workerId leaseId expiresAt current : String} {r : StoredSignal}
    {item : SignalItem}
    (h : SignalInbox.item P (claimedRow workerId leaseId expiresAt current r) = .ok item) :
    ∃ claim, item.claim = some claim ∧ claim.leaseId = leaseId ∧
      Records (claimedRow workerId leaseId expiresAt current r) claim := by
  obtain ⟨fields, -, h⟩ := bind_ok_iff.1 h
  obtain ⟨claim, hc, h⟩ := bind_ok_iff.1 h
  obtain ⟨-, h⟩ := ite_error_ok_iff.1 h
  cases h
  exact records_of_claimOf rfl rfl rfl rfl hc

/-! ## The invariant -/

/-- The leases given out, and those recorded in the rows. -/
structure LeaseBook (P : Platform) (events : List Event) (db : Inbox) : Prop where
  /-- Every item is given out under a lease. -/
  named : ∀ item, .leased item ∈ events → ∃ claim, item.claim = some claim
  /-- No lease id is given out twice. -/
  distinct : ((leases events).map SignalClaim.leaseId).Nodup
  /-- The lease in a row is the last one given out for the item, as its worker was told it. -/
  last : ∀ id r, db.items.find? id = some r → r.state = .claimed →
    ∃ claim, lastLease id events = some claim ∧ Records r claim
  drawn : ∀ claim ∈ leases events, ∃ n < db.drawn, claim.leaseId = "signal-lease-" ++ P.newV4 n

theorem EffectStep.drawn_le {db db' : Inbox} {e : Effect} (h : EffectStep P db e db') :
    db.drawn ≤ db'.drawn := by
  cases h with
  | forget => rw [SignalInbox.forget]
  | _ => first | exact le_refl _ | exact Nat.le_add_right _ _

theorem EffectStep.gives {db db' : Inbox} {e : Effect} (h : EffectStep P db e db') :
    (∀ item, .leased item ∉ e.events) ∨
      ∃ item claim, e.events = [.leased item] ∧ item.claim = some claim ∧
        claim.leaseId = "signal-lease-" ++ P.newV4 db.drawn ∧ db'.drawn = db.drawn + 1 := by
  cases h with
  | lease mem ready answer =>
    obtain ⟨claim, hc, hid, -⟩ := records_of_item answer
    exact .inr ⟨_, claim, rfl, hc, hid, rfl⟩
  | _ => exact .inl (by simp [Effect.events])

theorem leases_eq_nil {events : List Event} (h : ∀ item, .leased item ∉ events) :
    leases events = [] := by
  refine List.filterMap_eq_nil_iff.2 fun event he => ?_
  cases event with
  | leased item => exact absurd he (h item)
  | _ => rfl

theorem RowChange.claimed {id : String} {e : Effect} {r? : Option StoredSignal} {r' : StoredSignal}
    (h : RowChange P id e r? (some r')) (hc : r'.state = .claimed) :
    (e.Quiet id ∧ r? = some r') ∨ ∃ item claim r, e.events = [.leased item] ∧ r? = some r ∧
      item.signalId = r.signalId ∧ item.claim = some claim ∧ Records r' claim := by
  cases h with
  | same quiet => exact .inl ⟨quiet, rfl⟩
  | coalesced valid waiting =>
    have hw : SignalState.isWaiting .claimed = true := hc ▸ waiting
    cases hw
  | @leased item r workerId leaseId expiresAt current ready answer =>
    obtain ⟨claim, hclaim, -, records⟩ := records_of_item answer
    have hitem := (signalId_of_item answer).trans ((keepsKeys_claimedRow _ _ _ _).signalId r)
    exact .inr ⟨item, claim, r, rfl, rfl, hitem, hclaim, records⟩
  | @transitioned request _ _ held hopen =>
    have hn : request.nextState = .claimed := hc
    rw [hn] at hopen
    cases hopen rfl
  | _ => cases hc

theorem LeaseBook.step (hF : P.Fresh) {events : List Event} {db db' : Inbox} {e : Effect}
    (hs : LeaseBook P events db) (h : EffectStep P db e db') :
    LeaseBook P (events ++ e.events) db' where
  named := by
    intro item hitem
    rcases List.mem_append.1 hitem with hitem | hitem
    · exact hs.named item hitem
    rcases h.gives with hnone | ⟨item', claim, hev, hclaim, -⟩
    · exact absurd hitem (hnone item)
    · rw [hev, List.mem_singleton] at hitem
      cases hitem
      exact ⟨claim, hclaim⟩
  last := by
    intro id r' hr' hc
    have hrow := h.row id
    rw [hr'] at hrow
    rcases hrow.claimed hc with ⟨quiet, hr⟩ | ⟨item, claim, r, hev, hr, hitem, hclaim, records⟩
    · rw [lastLease_append_of_quiet quiet]
      exact hs.last id r' hr hc
    · have hid : item.signalId = id := hitem.trans (Items.find?_eq_some_iff.1 hr).2
      exact ⟨claim, by simp [lastLease, hev, Event.leaseOn, hid, hclaim], records⟩
  drawn := by
    intro claim hclaim
    rw [leases_append, List.mem_append] at hclaim
    rcases hclaim with hclaim | hclaim
    · obtain ⟨n, hn, hid⟩ := hs.drawn claim hclaim
      exact ⟨n, hn.trans_le h.drawn_le, hid⟩
    · rcases h.gives with hnone | ⟨item, claim', hev, hclaim', hid, hdrawn⟩
      · simp [leases_eq_nil hnone] at hclaim
      · simp only [hev, leases, List.filterMap_cons, Event.lease, hclaim', List.filterMap_nil,
          List.mem_singleton] at hclaim
        exact ⟨db.drawn, by omega, hclaim ▸ hid⟩
  distinct := by
    rw [leases_append, List.map_append]
    rcases h.gives with hnone | ⟨item, claim', hev, hclaim', hid, -⟩
    · simpa [leases_eq_nil hnone] using hs.distinct
    · rw [hev]
      simp only [leases, List.filterMap_cons, Event.lease, hclaim', List.filterMap_nil,
        List.map_singleton]
      refine List.nodup_append.2 ⟨hs.distinct, List.nodup_singleton _, ?_⟩
      rintro leaseId hmem leaseId' hmem' rfl
      obtain ⟨claim, hclaim, rfl⟩ := List.mem_map.1 hmem
      obtain ⟨n, hn, hid'⟩ := hs.drawn claim hclaim
      -- the new id was drawn after all ids in use
      rw [List.mem_singleton, hid, hid', String.append_right_inj] at hmem'
      exact absurd (hF hmem') (by omega)

theorem leaseBook_empty : LeaseBook P [] .empty where
  named := by simp
  distinct := by simp [leases]
  last := by simp [Inbox.empty]
  drawn := by simp [leases]

theorem leaseBook_of_run (hF : P.Fresh) {calls : List Call} {db : Inbox}
    (h : Run (Step P) .empty calls db) : LeaseBook P (trace calls) db :=
  empty_run_keeps (fun _ _ _ _ hs he => hs.step hF he) h leaseBook_empty

/-! ## Dead leases -/

/-- The lease was given out and is not recorded any more. -/
structure Dead (P : Platform) (signalId leaseId : String) (events : List Event) (db : Inbox) :
    Prop where
  book : LeaseBook P events db
  given : ∃ claim ∈ leases events, claim.leaseId = leaseId
  gone : ¬ Leased signalId leaseId db

theorem Dead.step (hF : P.Fresh) {signalId leaseId : String} {events : List Event} {db db' : Inbox}
    {e : Effect} (hs : Dead P signalId leaseId events db) (h : EffectStep P db e db') :
    Dead P signalId leaseId (events ++ e.events) db' where
  book := hs.book.step hF h
  given := by
    obtain ⟨claim, hclaim, hid⟩ := hs.given
    exact ⟨claim, by rw [leases_append]; exact List.mem_append_left _ hclaim, hid⟩
  gone := by
    rintro ⟨r', hr', hc, hl⟩
    have hrow := h.row signalId
    rw [hr'] at hrow
    rcases hrow.claimed hc with ⟨-, hr⟩ | ⟨item, claim, r, hev, hr, -, hclaim, records⟩
    · exact hs.gone ⟨r', hr, hc, hl⟩
    · -- a lease given out again
      obtain ⟨claim', hclaim', rfl⟩ := hs.given
      have hd := (hs.book.step hF h).distinct
      rw [hev, leases_append, List.map_append, List.nodup_append] at hd
      refine hd.2.2 _ (List.mem_map_of_mem hclaim') claim.leaseId ?_ ?_
      · simp [leases, Event.lease, hclaim]
      · rw [records.leaseId] at hl
        exact (Option.some.inj hl).symm

theorem mem_leases_of_lastLease {signalId : String} {events : List Event} {claim : SignalClaim}
    (h : lastLease signalId events = some claim) : claim ∈ leases events := by
  obtain ⟨event, he, hc⟩ := List.mem_filterMap.1 (List.mem_of_getLast? h)
  refine List.mem_filterMap.2 ⟨event, he, ?_⟩
  cases event with
  | leased item =>
    simp only [Event.leaseOn] at hc
    split_ifs at hc
    exact hc
  | _ => cases hc

theorem LeaseBook.given {events : List Event} {db : Inbox} {signalId leaseId : String}
    (hs : LeaseBook P events db) (h : Leased signalId leaseId db) :
    ∃ claim ∈ leases events, claim.leaseId = leaseId := by
  obtain ⟨r, hr, hc, hl⟩ := h
  obtain ⟨claim, hlast, records⟩ := hs.last signalId r hr hc
  rw [records.leaseId] at hl
  exact ⟨claim, mem_leases_of_lastLease hlast, Option.some.inj hl⟩

theorem Dead.run (hF : P.Fresh) {signalId leaseId : String} {events : List Event} {db db' : Inbox}
    {calls : List Call} (hs : Dead P signalId leaseId events db) (h : Run (Step P) db calls db') :
    Dead P signalId leaseId (events ++ trace calls) db' :=
  run_keeps (fun _ _ _ _ hs he => hs.step hF he) h hs

/-! ## What a call does to leases -/

theorem transition_of_presents {op : Op} {signalId leaseId : String} {now : Instant}
    {answer : Answer} {db db' : Inbox} (hop : op.presents = some (signalId, leaseId, now))
    (h : op.apply P db = .ok (answer, db')) : ∃ request item, request.signalId = signalId ∧
      request.leaseId = leaseId ∧ transition P request now db = .ok (item, db') := by
  cases op with
  | defer request now' current =>
    cases hop
    obtain ⟨⟨item, db₁⟩, ho, h⟩ := map_ok_iff.1 h
    cases h
    obtain ⟨-, ho⟩ := bind_unit_ok_iff.1 ho
    obtain ⟨-, ho⟩ := bind_unit_ok_iff.1 ho
    obtain ⟨-, ho⟩ := bind_unit_ok_iff.1 ho
    obtain ⟨availableAt, -, ho⟩ := bind_ok_iff.1 ho
    obtain ⟨-, ho⟩ := ite_error_ok_iff.1 ho
    exact ⟨deferral P request availableAt, item, rfl, rfl, ho⟩
  | resolve request current =>
    cases hop
    obtain ⟨⟨item, db₁⟩, ho, h⟩ := map_ok_iff.1 h
    cases h
    obtain ⟨-, ho⟩ := bind_unit_ok_iff.1 ho
    obtain ⟨-, ho⟩ := bind_unit_ok_iff.1 ho
    obtain ⟨-, ho⟩ := bind_unit_ok_iff.1 ho
    obtain ⟨-, ho⟩ := bind_unit_ok_iff.1 ho
    exact ⟨resolution P request, item, rfl, rfl, ho⟩
  | _ => cases hop

/-- The reading at which a consultation or a claim recovers the inbox. -/
def Op.recoversAt : Op → Option Instant
  | .consult _ now => some now
  | .claim _ now => some now
  | _ => none

/-- What one call does to the leases: `events` is what happened before it. -/
structure Exclusive (P : Platform) (events : List Event) (db : Inbox) (call : Call) (db' : Inbox) :
    Prop where
  /-- An item is given out only when it is not held at the reading of the claim. -/
  free : ∀ request now, call.op = .claim request now → ∀ item, .leased item ∈ call.events →
    ∀ leaseId, ¬ Held P now item.signalId leaseId db
  /-- A call under a lease changes nothing, or the item is held under it; then it is used up. -/
  used : ∀ signalId leaseId now, call.op.presents = some (signalId, leaseId, now) → db' = db ∨
    Held P now signalId leaseId db ∧ ¬ Leased signalId leaseId db' ∧ ∀ id, id ≠ signalId →
      db'.items.find? id = (db.items.find? id).map (recoveredRow (P.timestamp now))
  /-- A consultation or a claim takes back every lease that has run out at its reading. -/
  lapsed : ∀ now answer, call.op.recoversAt = some now → call.answer = .ok answer →
    ∀ signalId leaseId, ¬ Held P now signalId leaseId db → Leased signalId leaseId db →
      ¬ Leased signalId leaseId db'
  /-- A revocation takes back every lease of the account. -/
  revoked : ∀ request now answer, call = ⟨.revokeAccount request now, .ok answer⟩ →
    ∀ signalId input, lastAdmitted signalId events = some input →
      input.accountGrantRef = request.accountGrantRef → ∀ leaseId, ¬ Leased signalId leaseId db'

theorem free_of_step {request : SignalClaimRequest} {now : Instant} {call : Call} {db db' : Inbox}
    (h : Step P db call db') (hop : call.op = .claim request now) {item : SignalItem}
    (hitem : .leased item ∈ call.events) (leaseId : String) :
    ¬ Held P now item.signalId leaseId db := by
  obtain ⟨request', now', items, rfl, hmem⟩ := claim_of_leased hitem
  cases hop
  obtain ⟨⟨items', db₁⟩, ho, heq⟩ := map_ok_iff.1 h.apply_eq
  cases heq
  obtain ⟨r, hr, ready, -⟩ := ready_of_claim ho hmem
  rintro ⟨s, hs, held⟩
  rw [hr] at hs
  cases hs
  exact not_isHeld_of_isReady ready held

theorem used_of_step {call : Call} {db db' : Inbox} (h : Step P db call db')
    {signalId leaseId : String} {now : Instant}
    (hop : call.op.presents = some (signalId, leaseId, now)) : db' = db ∨
      Held P now signalId leaseId db ∧ ¬ Leased signalId leaseId db' ∧ ∀ id, id ≠ signalId →
        db'.items.find? id = (db.items.find? id).map (recoveredRow (P.timestamp now)) := by
  cases h with
  | failed => exact .inl rfl
  | committed h =>
    obtain ⟨request, item, rfl, rfl, ht⟩ := transition_of_presents hop h
    rcases (transition_ok ht).2 with ⟨same, -⟩ | ht
    · exact .inl same
    · obtain ⟨r, hr, held, hr'⟩ := ht.held
      refine .inr ⟨⟨r, hr, held⟩, ?_, ht.others⟩
      rintro ⟨s, hs, -, hl⟩
      rw [hr'] at hs
      cases hs
      cases hl

theorem Dead.eq_of_step {signalId leaseId : String} {events : List Event} {call : Call}
    {db db' : Inbox} (hs : Dead P signalId leaseId events db) {now : Instant}
    (hop : call.op.presents = some (signalId, leaseId, now)) (h : Step P db call db') : db' = db := by
  rcases used_of_step h hop with same | ⟨held, -⟩
  · exact same
  · exact absurd held.leased hs.gone

theorem not_leased_recover {events : List Event} {db : Inbox} (hs : LeaseBook P events db)
    {now : Instant} {signalId leaseId : String} (hout : ¬ Held P now signalId leaseId db) :
    ¬ Leased signalId leaseId (recover (P.timestamp now) db) := by
  rintro ⟨r', hr', hc, hl⟩
  rw [find?_recover, Option.map_eq_some_iff] at hr'
  obtain ⟨r, hr, rfl⟩ := hr'
  obtain ⟨same, hlapsed⟩ := recoveredRow_of_claimed hc
  rw [same] at hc hl
  obtain ⟨claim, -, records⟩ := hs.last signalId r hr hc
  refine hout ⟨r, hr, isHeld_iff.2 ⟨(Items.find?_eq_some_iff.1 hr).2, hc, hl, claim.expiresAt,
    records.expiresAt, ?_⟩⟩
  simpa [isLapsed, hc, records.expiresAt, dueAt] using hlapsed

theorem lapsed_of_step (hF : P.Fresh) {events : List Event} {call : Call} {db db' : Inbox}
    (hs : LeaseBook P events db) (h : Step P db call db') {now : Instant} {answer : Answer}
    (hop : call.op.recoversAt = some now) (hanswer : call.answer = .ok answer)
    {signalId leaseId : String} (hout : ¬ Held P now signalId leaseId db)
    (hleased : Leased signalId leaseId db) : ¬ Leased signalId leaseId db' := by
  have dead : Dead P signalId leaseId events (recover (P.timestamp now) db) := by
    refine ⟨?_, hs.given hleased, not_leased_recover hs hout⟩
    have hrecovers : call.op.Recovers := by
      cases hcall : call.op <;> rw [hcall] at hop <;> trivial
    simpa using (performs_recover hrecovers (P.timestamp now) db).keeps
      (fun _ _ _ _ hs he => hs.step hF he) hs
  cases h with
  | failed => cases hanswer
  | @committed _ op answer h =>
    cases op with
    | consult request now' =>
      cases hop
      obtain ⟨⟨summary, db₁⟩, ho, h⟩ := map_ok_iff.1 h
      cases h
      obtain ⟨-, ho⟩ := ite_error_ok_iff.1 ho
      cases ho
      exact dead.gone
    | claim request now' =>
      cases hop
      obtain ⟨⟨items, db₁⟩, ho, h⟩ := map_ok_iff.1 h
      cases h
      obtain ⟨-, ho⟩ := bind_unit_ok_iff.1 ho
      obtain ⟨-, ho⟩ := ite_error_ok_iff.1 ho
      obtain ⟨-, ho⟩ := ite_error_ok_iff.1 ho
      have hp : Performs P (.claim request now) _ _ _ :=
        performs_claimEach (listed_readyRows _ _ _) ho
      exact (hp.keeps (fun _ _ _ _ hs he => hs.step hF he) dead).gone
    | _ => cases hop

theorem revoked_of_step {events : List Event} {db db' : Inbox} (hs : RowsOriginate P events db)
    {request : SignalAccountRevokeRequest} {now : Instant} {answer : Answer}
    (h : Step P db ⟨.revokeAccount request now, .ok answer⟩ db') {signalId : String}
    {input : SignalIngress} (hlast : lastAdmitted signalId events = some input)
    (haccount : input.accountGrantRef = request.accountGrantRef) (leaseId : String) :
    ¬ Leased signalId leaseId db' := by
  rintro ⟨r', hr', hc, -⟩
  obtain ⟨⟨n, db₁⟩, ho, h⟩ := map_ok_iff.1 h.apply_eq
  cases h
  obtain ⟨-, ho⟩ := bind_unit_ok_iff.1 ho
  cases ho
  rw [Items.find?_updateWhere, Option.map_eq_some_iff] at hr'
  obtain ⟨r, hr, rfl⟩ := hr'
  obtain ⟨input', hlast', origin⟩ := hs signalId r hr
  rw [hlast] at hlast'
  cases hlast'
  split_ifs at hc with hrev
  · cases hc
  · have hopen : r.state.isOpen = true := by rw [hc]; rfl
    simp [isRevoked, origin.account, haccount, hopen] at hrev

/-- Lease ids are given out once, and under a lease that is not recorded any more no call ever changes anything. -/
theorem leases_exclusive (hC : P.CollisionFree) (hF : P.Fresh) {calls : List Call} {db : Inbox}
    (h : Run (Step P) .empty calls db) :
    LeaseBook P (trace calls) db ∧
    (∀ call db', Step P db call db' → Exclusive P (trace calls) db call db') ∧
    ∀ claim ∈ leases (trace calls), ∀ signalId, ¬ Leased signalId claim.leaseId db →
      ∀ calls' db', Run (Step P) db calls' db' → ¬ Leased signalId claim.leaseId db' ∧
        ∀ now call db'', call.op.presents = some (signalId, claim.leaseId, now) →
          Step P db' call db'' → db'' = db' := by
  have book := leaseBook_of_run hF h
  have origin := origin_of_run hC h
  refine ⟨book, fun call db' hstep => ⟨fun _ _ hop _ hitem => free_of_step hstep hop hitem,
    fun _ _ _ hop => used_of_step hstep hop,
    fun _ _ hop hanswer _ _ hout => lapsed_of_step hF book hstep hop hanswer hout, ?_⟩, ?_⟩
  · rintro request now answer rfl signalId input hlast haccount
    exact revoked_of_step origin hstep hlast haccount
  · intro claim hclaim signalId hgone calls' db' hrun
    have dead := Dead.run hF ⟨book, ⟨claim, hclaim, rfl⟩, hgone⟩ hrun
    exact ⟨dead.gone, fun now call db'' hop hstep => dead.eq_of_step hop hstep⟩

/-- One message, leased for two minutes. -/
def leasedMail : List Op :=
  [.ingestBatch [reference.mail "grant-a" "m" "41" "e41"] (reference.clock 8 0 1),
    .claim { workerId := "worker" } (reference.clock 8 0 2)]

/-- A resolution under the lease of `leasedMail`. -/
def leasedResolution : SignalResolveRequest where
  signalId := "signal-"
  leaseId := "signal-lease-000"
  operationId := "op-1"
  outcome := .handled
  sourceRevision := "41"

theorem leases_exclusive_leasedMail :
    (leases (trace (execute reference leasedMail .empty).1)).map SignalClaim.leaseId =
        ["signal-lease-000"] ∧
      LeaseBook reference (trace (execute reference leasedMail .empty).1)
        (execute reference leasedMail .empty).2 :=
  ⟨by decide +kernel,
    (leases_exclusive reference.collisionFree reference.fresh (run_execute _ _ _)).1⟩

/-- The lease has run out; after the clock is set back the same resolution resolves the item. -/
theorem lapsed_lease_resolves :
    let late := .resolve leasedResolution (reference.clock 9 0 0)
    let early := .resolve leasedResolution (reference.clock 8 1 0)
    let run := execute reference (leasedMail ++ [late, early]) .empty
    (lastLease "signal-" (trace run.1)).map SignalClaim.expiresAt =
        some "2026-08-31T08:02:02.000Z" ∧
      "2026-08-31T08:02:02.000Z" < reference.timestamp (reference.clock 9 0 0) ∧
      run.1.map (fun call => call.answer.isOk) = [true, true, false, true] ∧
      (execute reference (leasedMail ++ [late]) .empty).2.items.rows.map StoredSignal.state =
        [.claimed] ∧
      run.2.items.rows.map StoredSignal.state = [.resolved] := by
  decide +kernel

end Wiii.Neko.Signal
