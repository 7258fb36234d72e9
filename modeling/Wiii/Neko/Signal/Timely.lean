import Wiii.Neko.Signal.Specs

/-!
# The times of an open item

What `validate_ingress` demands of the times of an event (`Timely`) holds of every open item unless an event that was
observed earlier is merged into an item that expires more than ninety days after it, or a worker defers an item to a
time at which it will have expired.  `Op.InTime` says that an operation does neither, and a merge and a deferral leave
the item timely exactly then (`timely_mergedRow_iff`, `timely_deferredRow_iff`).
-/

namespace Wiii.Neko.Signal

open SignalInbox

variable (P : Platform)

/-! ## Relations of texts -/

/-- The instant of the first text is before the instant of the second. -/
def Before (a b : String) : Prop :=
  ∃ x ∈ P.parseFromRfc3339 a, ∃ y ∈ P.parseFromRfc3339 b, x < y

def WithinTtl (observedAt expiresAt : String) : Prop :=
  ∃ x ∈ P.parseFromRfc3339 observedAt, ∃ y ∈ P.parseFromRfc3339 expiresAt,
    y ≤ P.plusSeconds x Platform.maxTtlSeconds

/-- What is demanded of the times of an event. -/
structure Timely (observedAt availableAt expiresAt : String) : Prop where
  observed : Before P observedAt expiresAt
  available : Before P availableAt expiresAt
  ttl : WithinTtl P observedAt expiresAt

instance (a b : String) : Decidable (Before P a b) := inferInstanceAs (Decidable (∃ _, _ ∧ _))

instance (a b : String) : Decidable (WithinTtl P a b) := inferInstanceAs (Decidable (∃ _, _ ∧ _))

def StoredSignal.Timely (r : StoredSignal) : Prop :=
  Signal.Timely P r.observedAt r.availableAt r.expiresAt

def AllTimely (db : Inbox) : Prop :=
  ∀ id r, db.items.find? id = some r → r.state.isOpen → r.Timely P

/-! ## The operations that keep to the times -/

/-- The expiry that the merged item has, the row's or the event's, is right for its times. -/
structure Fits (input : SignalIngress) (r : StoredSignal) : Prop where
  observed : input.expiresAt ≤ r.expiresAt → Before P input.observedAt r.expiresAt
  ttl : input.expiresAt ≤ r.expiresAt → WithinTtl P input.observedAt r.expiresAt
  available : input.expiresAt ≤ r.expiresAt → input.availability < r.availableAt →
    Before P input.availability r.expiresAt
  moved : r.expiresAt < input.expiresAt → r.availableAt ≤ input.availability →
    Before P r.availableAt input.expiresAt

/-- The event is known, or it opens an item, or it can be merged into the item it is about. -/
def SignalIngress.InTime (input : SignalIngress) (db : Inbox) : Prop :=
  db.dedupe.find? (P.dedupeHash input.sourceId input.dedupeKey) = none →
    ∀ r ∈ newestWaiting (P.coalesceHash input) db, Fits P input r

/-- Every event of a batch, in the contents that the events before it leave. -/
def batchInTime (updatedAt : String) : List SignalIngress → Inbox → Prop
  | [], _ => True
  | input :: inputs, db => input.InTime P db ∧
    ∀ result ∈ (ingestOne P input updatedAt db).toOption, batchInTime updatedAt inputs result.2

/-- The deferral is a repetition, has no effect, or is to before the item expires. -/
def SignalDeferRequest.InTime (request : SignalDeferRequest) (current : Instant) (db : Inbox) :
    Prop :=
  db.operations.find? request.operationId = none →
    ∀ r ∈ db.items.find? request.signalId,
      isHeld request.signalId request.leaseId (P.timestamp current) r →
      ∀ t ∈ P.parseFromRfc3339 request.availableAt,
        t.FourDigit ∧ ∃ e ∈ P.parseFromRfc3339 r.expiresAt, t.floorMillis < e

def Op.InTime (db : Inbox) : Op → Prop
  | .ingestBatch inputs now => batchInTime P (P.timestamp now) inputs db
  | .defer request _ current => request.InTime P current db
  | _ => True

instance (input : SignalIngress) (r : StoredSignal) : Decidable (Fits P input r) :=
  decidable_of_iff
    ((input.expiresAt ≤ r.expiresAt → Before P input.observedAt r.expiresAt) ∧
      (input.expiresAt ≤ r.expiresAt → WithinTtl P input.observedAt r.expiresAt) ∧
      (input.expiresAt ≤ r.expiresAt → input.availability < r.availableAt →
        Before P input.availability r.expiresAt) ∧
      (r.expiresAt < input.expiresAt → r.availableAt ≤ input.availability →
        Before P r.availableAt input.expiresAt))
    ⟨fun h => ⟨h.1, h.2.1, h.2.2.1, h.2.2.2⟩, fun h => ⟨h.1, h.2, h.3, h.4⟩⟩

instance (input : SignalIngress) (db : Inbox) : Decidable (input.InTime P db) :=
  inferInstanceAs (Decidable (_ → _))

instance decidableBatchInTime (updatedAt : String) :
    ∀ inputs db, Decidable (batchInTime P updatedAt inputs db)
  | [], _ => inferInstanceAs (Decidable True)
  | _ :: inputs, _ =>
    have (result : SignalAdmission × Inbox) := decidableBatchInTime updatedAt inputs result.2
    inferInstanceAs (Decidable (_ ∧ _))

instance (request : SignalDeferRequest) (current : Instant) (db : Inbox) :
    Decidable (request.InTime P current db) :=
  inferInstanceAs (Decidable (_ → _))

instance (op : Op) (db : Inbox) : Decidable (op.InTime P db) :=
  match op with
  | .ingestBatch inputs now =>
    inferInstanceAs (Decidable (batchInTime P (P.timestamp now) inputs db))
  | .defer request _ current => inferInstanceAs (Decidable (request.InTime P current db))
  | .advanceCursor _ _ _ _ _ | .consult _ _ | .claim _ _ | .resolve _ _ | .revokeAccount _ _ =>
    inferInstanceAs (Decidable True)

/-! ## One row -/

variable {P}

theorem timely_of_validateIngress {input : SignalIngress} (h : P.validateIngress input = .ok ()) :
    Timely P input.observedAt input.availability input.expiresAt := by
  simp only [Platform.validateIngress, bind_unit_ok_iff] at h
  obtain ⟨-, -, -, -, -, -, h⟩ := h
  obtain ⟨observed, ho, h⟩ := bind_ok_iff.1 h
  obtain ⟨available, ha, h⟩ := bind_ok_iff.1 h
  obtain ⟨expires, he, h⟩ := bind_ok_iff.1 h
  obtain ⟨hafter, h⟩ := ite_error_ok_iff.1 h
  obtain ⟨httl, -⟩ := ite_error_ok_iff.1 h
  rw [not_or, not_le, not_le] at hafter
  rw [Platform.parseTimestamp_ok_iff] at ho ha he
  exact ⟨⟨observed, ho, expires, he, hafter.1⟩, ⟨available, ha, expires, he, hafter.2⟩, observed, ho,
    expires, he, not_lt.1 httl⟩

/-- A merge of a timely event into a timely row leaves it timely just where the event fits. -/
theorem timely_mergedRow_iff {input : SignalIngress} {updatedAt : String} {nonce : Nonce}
    {r : StoredSignal} (hr : r.Timely P) (valid : P.validateIngress input = .ok ()) :
    (mergedRow P input updatedAt nonce r).Timely P ↔ Fits P input r := by
  have hin := timely_of_validateIngress valid
  change Timely P input.observedAt (min r.availableAt input.availability)
    (max r.expiresAt input.expiresAt) ↔ _
  rcases le_or_gt input.expiresAt r.expiresAt with he | he
  · rw [max_eq_left he]
    constructor
    · intro h
      refine ⟨fun _ => h.observed, fun _ => h.ttl, fun _ ha => ?_, fun hlt => absurd he hlt.not_ge⟩
      rw [← min_eq_right ha.le]
      exact h.available
    · intro h
      refine ⟨h.observed he, ?_, h.ttl he⟩
      rcases le_or_gt r.availableAt input.availability with ha | ha
      · rw [min_eq_left ha]
        exact hr.available
      · rw [min_eq_right ha.le]
        exact h.available he ha
  · rw [max_eq_right he.le]
    constructor
    · intro h
      refine ⟨fun hle => absurd hle he.not_ge, fun hle => absurd hle he.not_ge,
        fun hle => absurd hle he.not_ge, fun _ ha => ?_⟩
      rw [← min_eq_left ha]
      exact h.available
    · intro h
      refine ⟨hin.observed, ?_, hin.ttl⟩
      rcases le_or_gt r.availableAt input.availability with ha | ha
      · rw [min_eq_left ha]
        exact h.moved he ha
      · rw [min_eq_right ha.le]
        exact hin.available

theorem timely_deferredRow_iff (hR : P.Rfc3339) {request : SignalDeferRequest} {t : Instant}
    {current : String} {r : StoredSignal} (ht : t.FourDigit) (hr : r.Timely P) :
    (transitionedRow (deferral P request t) current r).Timely P ↔
      ∃ e ∈ P.parseFromRfc3339 r.expiresAt, t.floorMillis < e := by
  have hread : P.parseFromRfc3339 (P.timestamp t) = some t.floorMillis := by
    rw [Platform.timestamp, hR.write t ht]
    exact hR.read t ht
  change Timely P r.observedAt (P.timestamp t) r.expiresAt ↔ _
  constructor
  · rintro ⟨-, ⟨x, hx, e, he, hlt⟩, -⟩
    rw [hread, Option.mem_some_iff] at hx
    exact ⟨e, he, hx ▸ hlt⟩
  · rintro ⟨e, he, hlt⟩
    exact ⟨hr.observed, ⟨t.floorMillis, hread, e, he, hlt⟩, hr.ttl⟩

/-! ## Effects -/

/-- What an effect has to respect for the row of an item. -/
def Effect.InTime (P : Platform) (e : Effect) (id : String) (r : StoredSignal) : Prop :=
  match e with
  | coalesce input _ signalId => signalId = id → Fits P input r
  | transition request current => isHeld request.signalId request.leaseId current r →
      (transitionedRow request current r).state.isOpen →
        (transitionedRow request current r).Timely P
  | _ => True

theorem RowChange.timely {id : String} {e : Effect} {r? : Option StoredSignal} {r' : StoredSignal}
    (h : RowChange P id e r? (some r')) (he : ∀ r, r? = some r → e.InTime P id r)
    (hr : ∀ r, r? = some r → r.state.isOpen → r.Timely P) (hopen : r'.state.isOpen) :
    r'.Timely P := by
  cases h with
  | same quiet => exact hr r' rfl hopen
  | inserted input updatedAt seq nonce valid => exact timely_of_validateIngress valid
  | coalesced valid waiting =>
    exact (timely_mergedRow_iff (hr _ rfl (SignalState.isOpen_of_isWaiting waiting)) valid).2
      (he _ rfl rfl)
  | @released current r lapsed =>
    simp only [isLapsed, Bool.and_eq_true, decide_eq_true_eq] at lapsed
    exact hr r rfl (by rw [lapsed.1]; rfl)
  | @reopened current r due =>
    simp only [isDue, Bool.and_eq_true, decide_eq_true_eq] at due
    exact hr r rfl (by rw [due.1]; rfl)
  | @leased item r workerId leaseId expiresAt current ready answer =>
    exact hr r rfl (by rw [state_of_isReady ready]; rfl)
  | transitioned held hs => exact he _ rfl held hopen
  | expired => cases hopen
  | revoked => cases hopen

theorem EffectStep.allTimely {db db' : Inbox} {e : Effect} (h : EffectStep P db e db')
    (he : ∀ id r, db.items.find? id = some r → e.InTime P id r) (hdb : AllTimely P db) :
    AllTimely P db' := by
  intro id r' hr' hopen
  have hrow := h.row id
  rw [hr'] at hrow
  exact hrow.timely (he id) (hdb id) hopen

theorem allTimely_recover {current : String} {db : Inbox} (hdb : AllTimely P db) :
    AllTimely P (recover current db) := by
  have h₁ := (EffectStep.release db current).allTimely (P := P) (fun _ _ _ => trivial) hdb
  have h₂ := (EffectStep.reopen _ current).allTimely (P := P) (fun _ _ _ => trivial) h₁
  exact (EffectStep.expire _ current).allTimely (fun _ _ _ => trivial) h₂

/-! ## Operations -/

theorem allTimely_ingestOne {input : SignalIngress} {updatedAt : String}
    {admission : SignalAdmission} {db db' : Inbox} (valid : P.validateIngress input = .ok ())
    (hin : input.InTime P db) (hdb : AllTimely P db)
    (ho : ingestOne P input updatedAt db = .ok (admission, db')) : AllTimely P db' := by
  unfold ingestOne at ho
  split at ho
  · cases ho
    exact hdb
  · rename_i hnew
    obtain ⟨⟨admission', db₁⟩, ha, ho⟩ := bind_ok_iff.1 ho
    obtain ⟨db₂, hr, ho⟩ := bind_ok_iff.1 ho
    cases ho
    suffices h : AllTimely P db₂ from h
    rcases effect_of_admission valid ha hr with ⟨existing, hn, -, he⟩ | ⟨id, -, he⟩
    · refine he.allTimely (fun id r hr hid => ?_) hdb
      -- the row of the item is the one that the event is merged into
      have hfound := Items.find?_of_mem (newestWaiting_spec hn).1
      rw [hid, hr] at hfound
      exact Option.some.inj hfound ▸ hin hnew existing hn
    · exact he.allTimely (fun _ _ _ => trivial)
        ((EffectStep.prune db).allTimely (fun _ _ _ => trivial) hdb)

theorem allTimely_ingestAll {inputs : List SignalIngress} {updatedAt : String}
    {admissions : List SignalAdmission} {db db' : Inbox}
    (valid : ∀ input ∈ inputs, P.validateIngress input = .ok ())
    (hin : batchInTime P updatedAt inputs db) (hdb : AllTimely P db)
    (ho : ingestAll P updatedAt inputs db = .ok (admissions, db')) : AllTimely P db' := by
  induction inputs generalizing db admissions with
  | nil =>
    cases ho
    exact hdb
  | cons input inputs ih =>
    rw [List.forall_mem_cons] at valid
    obtain ⟨⟨admission, db₁⟩, h₁, ho⟩ := bind_ok_iff.1 ho
    obtain ⟨⟨admissions', db₂⟩, h₂, ho⟩ := bind_ok_iff.1 ho
    cases ho
    obtain ⟨hfirst, hrest⟩ := hin
    rw [h₁] at hrest
    exact ih valid.2 (hrest _ rfl) (allTimely_ingestOne valid.1 hfirst hdb h₁) h₂

theorem allTimely_transition {request : SignalTransition} {now : Instant}
    {item : SignalItem} {db db' : Inbox}
    (hs : request.nextState.isOpen = true → request.nextState = .deferred)
    (hin : db.operations.find? request.operationId = none →
      ∀ r ∈ db.items.find? request.signalId,
        isHeld request.signalId request.leaseId (P.timestamp now) r → r.Timely P →
        request.nextState.isOpen → (transitionedRow request (P.timestamp now) r).Timely P)
    (hdb : AllTimely P db) (ho : transition P request now db = .ok (item, db')) :
    AllTimely P db' := by
  unfold transition at ho
  split at ho
  · obtain ⟨-, ho⟩ := ite_error_ok_iff.1 ho
    obtain ⟨item', -, ho⟩ := bind_ok_iff.1 ho
    cases ho
    exact hdb
  · rename_i hnew
    obtain ⟨db₁, hp, ho⟩ := bind_ok_iff.1 ho
    obtain ⟨item', -, ho⟩ := bind_ok_iff.1 ho
    cases ho
    refine (effect_of_performTransition (P := P) hs hp).allTimely (fun id r hr held hopen => ?_)
      (allTimely_recover hdb)
    -- a row that is held after recovery is the stored one
    rw [find?_recover] at hr
    obtain ⟨s, hs, rfl⟩ := Option.map_eq_some_iff.1 hr
    obtain ⟨same, hheld⟩ := isHeld_of_recoveredRow held
    have hid := (Items.find?_eq_some_iff.1 hs).2
    obtain ⟨hsid, hstate, -⟩ := isHeld_iff.1 hheld
    rw [same]
    refine hin hnew s ?_ hheld (hdb id s hs (by rw [hstate]; rfl)) hopen
    rw [← hsid, hid, hs]
    rfl

theorem allTimely_defer (hR : P.Rfc3339) {request : SignalDeferRequest} {now current : Instant}
    {item : SignalItem} {db db' : Inbox} (hin : request.InTime P current db)
    (hdb : AllTimely P db) (ho : defer P request now current db = .ok (item, db')) :
    AllTimely P db' := by
  obtain ⟨-, ho⟩ := bind_unit_ok_iff.1 ho
  obtain ⟨-, ho⟩ := bind_unit_ok_iff.1 ho
  obtain ⟨-, ho⟩ := bind_unit_ok_iff.1 ho
  obtain ⟨t, hp, ho⟩ := bind_ok_iff.1 ho
  obtain ⟨-, ho⟩ := ite_error_ok_iff.1 ho
  refine allTimely_transition (fun _ => rfl) (fun hnew r hr held timely _ => ?_) hdb ho
  obtain ⟨ht, hbefore⟩ := hin hnew r hr held t (Platform.parseTimestamp_ok_iff.1 hp)
  exact (timely_deferredRow_iff hR ht timely).2 hbefore

theorem allTimely_resolve {request : SignalResolveRequest} {current : Instant}
    {item : SignalItem} {db db' : Inbox} (hdb : AllTimely P db)
    (ho : resolve P request current db = .ok (item, db')) : AllTimely P db' := by
  obtain ⟨-, ho⟩ := bind_unit_ok_iff.1 ho
  obtain ⟨-, ho⟩ := bind_unit_ok_iff.1 ho
  obtain ⟨-, ho⟩ := bind_unit_ok_iff.1 ho
  obtain ⟨-, ho⟩ := bind_unit_ok_iff.1 ho
  have hclosed : (resolution P request).nextState.isOpen = false := by
    simp only [resolution]
    split_ifs <;> rfl
  refine allTimely_transition ?_ (fun _ r _ _ _ hopen => ?_) hdb ho
  · rw [hclosed]
    exact fun h => absurd h (by decide)
  · rw [hclosed] at hopen
    cases hopen

theorem Performs.allTimely {op : Op} {events : List Event} {db db' : Inbox}
    (h : Performs P op events db db') (hop : ∀ e : Effect, e.Of P op → ∀ id r, e.InTime P id r)
    (hdb : AllTimely P db) : AllTimely P db' := by
  obtain ⟨es, hr, -, hof⟩ := h
  induction hr with
  | nil => exact hdb
  | cons h₁ _ ih =>
    rw [List.forall_mem_cons] at hof
    exact ih (h₁.allTimely (fun id r _ => hop _ hof.1 id r) hdb) hof.2

/-! ## Runs -/

/-- The calls that keep to the times of the contents they start from. -/
def KeepingTime (P : Platform) : Inbox → Call → Inbox → Prop :=
  Guarded (Step P) fun db call => call.op.InTime P db

theorem allTimely_of_step (hR : P.Rfc3339) {db db' : Inbox} {call : Call}
    (h : KeepingTime P db call db') (hdb : AllTimely P db) : AllTimely P db' := by
  obtain ⟨h, hin⟩ := h
  cases h with
  | failed op error => exact hdb
  | committed happly =>
    rename_i op answer
    cases op with
    | ingestBatch inputs now =>
      obtain ⟨⟨admissions, db₁⟩, ho, heq⟩ := map_ok_iff.1 happly
      cases heq
      obtain ⟨-, ho⟩ := ite_error_ok_iff.1 ho
      obtain ⟨hv, ho⟩ := bind_unit_ok_iff.1 ho
      obtain ⟨⟨admissions', db₂⟩, h₁, ho⟩ := bind_ok_iff.1 ho
      cases ho
      have htimely := allTimely_ingestAll (valid_of_validateAll hv) hin hdb h₁
      intro id r hr
      rw [items_forget] at hr
      exact htimely id r hr
    | defer request now current =>
      obtain ⟨⟨item, db₁⟩, ho, heq⟩ := map_ok_iff.1 happly
      cases heq
      exact allTimely_defer hR hin hdb ho
    | resolve request current =>
      obtain ⟨⟨item, db₁⟩, ho, heq⟩ := map_ok_iff.1 happly
      cases heq
      exact allTimely_resolve hdb ho
    | _ =>
      refine (Op.performs happly).allTimely (fun e hof id r => ?_) hdb
      cases e <;> first | trivial | simp [Effect.Of] at hof

/-- Where events fit the items they are merged into, the times of an open item are what is demanded of a fresh event. -/
theorem open_items_timely (hR : P.Rfc3339) {calls : List Call} {db : Inbox}
    (h : Run (KeepingTime P) .empty calls db) :
    ∀ r ∈ db.items, r.state.isOpen → Timely P r.observedAt r.availableAt r.expiresAt := by
  have htimely : AllTimely P db :=
    h.invariant (fun _ _ _ hdb hstep => allTimely_of_step hR hstep hdb) (by simp [AllTimely, Inbox.empty])
  exact fun r hr hopen => htimely r.signalId r (Items.find?_of_mem hr) hopen

/-! ## One morning -/

/-- The operations of a list, each in the contents that those before it leave. -/
def executedInTime (P : Platform) : List Op → Inbox → Prop
  | [], _ => True
  | op :: ops, db => op.InTime P db ∧ executedInTime P ops (execute P [op] db).2

theorem run_execute_inTime {ops : List Op} {db : Inbox} (h : executedInTime P ops db) :
    Run (KeepingTime P) db (execute P ops db).1 (execute P ops db).2 := by
  induction ops generalizing db with
  | nil => exact .nil db
  | cons op ops ih =>
    obtain ⟨hop, hrest⟩ := h
    unfold execute at hrest ⊢
    cases happly : op.apply P db with
    | error error =>
      rw [happly] at hrest
      exact .cons ⟨.failed db op _, hop⟩ (ih hrest)
    | ok result =>
      rw [happly] at hrest
      exact .cons ⟨.committed happly, hop⟩ (ih hrest)

instance decidableExecutedInTime (P : Platform) : ∀ ops db, Decidable (executedInTime P ops db)
  | [], _ => inferInstanceAs (Decidable True)
  | op :: ops, db =>
    have := decidableExecutedInTime P ops (execute P [op] db).2
    inferInstanceAs (Decidable (_ ∧ _))

/-- A message, an event about it that was observed before it, and the lease of its item. -/
def outOfOrderMail (observedAt : String) : List Op :=
  let late := { reference.mail "grant-a" "m" "40" "e40" with observedAt := observedAt }
  [.ingestBatch [reference.mail "grant-a" "m" "41" "e41"] (reference.clock 8 0 1),
    .ingestBatch [late] (reference.clock 8 0 2),
    .claim { workerId := "worker" } (reference.clock 8 0 3)]

/-- A deferral of the item of `outOfOrderMail`. -/
def deferredMail (availableAt : String) : Op :=
  .defer ⟨"signal-", "signal-lease-00000", "op-1", availableAt⟩ (reference.clock 8 0 4)
    (reference.clock 8 0 4)

theorem open_items_timely_outOfOrderMail :
    let ops := outOfOrderMail "2026-08-31T07:00:00.000Z" ++ [deferredMail "2026-08-31T20:00:00.000Z"]
    (execute reference ops .empty).2.items.rows.map StoredSignal.availableAt =
        ["2026-08-31T20:00:00.000Z"] ∧
      (execute reference ops .empty).2.items.rows.map StoredSignal.state = [.deferred] ∧
      ∀ r ∈ (execute reference ops .empty).2.items, r.state.isOpen →
        Timely reference r.observedAt r.availableAt r.expiresAt :=
  ⟨by decide +kernel, by decide +kernel,
    open_items_timely reference.rfc3339 (run_execute_inTime (by decide +kernel))⟩

/-- An item that can wait for eighty-nine days, and an event about it of the month before. -/
def patientMail : List Op :=
  let patient := { reference.mail "grant-a" "m" "41" "e41" with expiresAt := "2026-11-28T08:00:00.000Z" }
  let late := { reference.mail "grant-a" "m" "40" "e40" with observedAt := "2026-08-01T08:00:00.000Z" }
  [.ingestBatch [patient] (reference.clock 8 0 1), .ingestBatch [late] (reference.clock 8 0 2)]

/-- A deferral postpones an item to after it expires, and a merge leaves one that expires too late. -/
theorem times_not_kept :
    let deferred := (execute reference
      (outOfOrderMail "2026-08-31T07:00:00.000Z" ++ [deferredMail "2026-09-02T08:00:00.000Z"])
      .empty).2
    let merged := (execute reference patientMail .empty).2
    (Reachable reference deferred ∧ ∃ r ∈ deferred.items.rows, r.state = .deferred ∧
      r.availableAt = "2026-09-02T08:00:00.000Z" ∧ r.expiresAt = "2026-09-01T08:00:00.000Z" ∧
      ¬ Before reference r.availableAt r.expiresAt) ∧
    Reachable reference merged ∧ ∃ r ∈ merged.items.rows, r.state = .pending ∧
      r.observedAt = "2026-08-01T08:00:00.000Z" ∧ r.expiresAt = "2026-11-28T08:00:00.000Z" ∧
      ¬ WithinTtl reference r.observedAt r.expiresAt :=
  ⟨⟨⟨_, run_execute _ _ _⟩, by decide +kernel⟩, ⟨_, run_execute _ _ _⟩, by decide +kernel⟩

end Wiii.Neko.Signal
