import Wiii.Neko.Signal.Effects

/-!
# Operations as sequences of effects

An operation that returns performs effects of its own (`Op.performs`): they lead from the old contents to the new and
tell the caller what the answer says.  So what every effect keeps, every run of calls keeps (`run_keeps`,
`guarded_run_keeps`).
-/

namespace Wiii.Neko.Signal

open SignalInbox

variable (P : Platform)

/-- The operations that recover the inbox before they do their work. -/
def Op.Recovers : Op → Prop
  | .consult _ _ | .claim _ _ | .defer _ _ _ | .resolve _ _ => True
  | _ => False

/-- The operation that an effect is part of, with the data it takes from it. -/
def Effect.Of (op : Op) : Effect → Prop
  | insert input updatedAt _ | coalesce input updatedAt _ =>
    ∃ inputs now, op = .ingestBatch inputs now ∧ input ∈ inputs ∧ updatedAt = P.timestamp now
  | drop input _ => ∃ inputs now, op = .ingestBatch inputs now ∧ input ∈ inputs
  | writeCursor source account cursor gap _ =>
    (∃ inputs now, op = .ingestBatch inputs now ∧ ∃ input ∈ inputs, source = input.sourceId ∧
      account = input.accountGrantRef ∧ cursor = input.sourceCursor ∧ gap = input.gapDetected) ∨
    ∃ now, op = .advanceCursor source account cursor gap now
  | lease _ current => ∃ request now, op = .claim request now ∧ current = P.timestamp now
  | transition request current =>
    (∃ r now c at', op = .defer r now c ∧ P.parseFromRfc3339 r.availableAt = some at' ∧
      now < at' ∧ request = deferral P r at' ∧ current = P.timestamp c) ∨
    ∃ r c, op = .resolve r c ∧ request = resolution P r ∧ current = P.timestamp c
  | revoke account current =>
    ∃ request now, op = .revokeAccount request now ∧ account = request.accountGrantRef ∧
      current = P.timestamp now
  | release _ | reopen _ | expire _ => op.Recovers
  | prune | forget => ∃ inputs now, op = .ingestBatch inputs now

/-- From `db` to `db'` by effects of the operation that tell the caller `events`. -/
def Performs (op : Op) (events : List Event) (db db' : Inbox) : Prop :=
  ∃ es, Run (EffectStep P) db es db' ∧ es.flatMap Effect.events = events ∧ ∀ e ∈ es, e.Of P op

variable {P}

namespace Performs

variable {op : Op} {events events' : List Event} {db db' db'' : Inbox} {e : Effect}

theorem refl (db : Inbox) : Performs P op [] db db := ⟨[], .nil db, rfl, by simp⟩

theorem single (h : EffectStep P db e db') (he : e.Of P op) : Performs P op e.events db db' :=
  ⟨[e], .single h, by simp, by simpa using he⟩

theorem trans (h : Performs P op events db db') (h' : Performs P op events' db' db'') :
    Performs P op (events ++ events') db db'' := by
  obtain ⟨es, hr, hev, hof⟩ := h
  obtain ⟨es', hr', hev', hof'⟩ := h'
  refine ⟨es ++ es', hr.append hr', by rw [List.flatMap_append, hev, hev'], fun e he => ?_⟩
  exact (List.mem_append.1 he).elim (hof e) (hof' e)

theorem keeps {I : List Event → Inbox → Prop}
    (hI : ∀ es db e db', I es db → EffectStep P db e db' → I (es ++ e.events) db')
    {es : List Event} (h : Performs P op events db db') (hs : I es db) : I (es ++ events) db' := by
  obtain ⟨effects, hr, rfl, -⟩ := h
  exact hr.invariant_outputs hI hs

end Performs

theorem performs_recover {op : Op} (hop : op.Recovers) (current : String) (db : Inbox) :
    Performs P op [] db (recover current db) :=
  ((Performs.single (.release db current) hop).trans (.single (.reopen _ current) hop)).trans
    (.single (.expire _ current) hop)

section Ingest

variable {input : SignalIngress} {inputs : List SignalIngress} {now : Instant} {db db' : Inbox}

theorem performs_writeCursor (db : Inbox) (valid : P.validateIngress input = .ok ()) (h : input ∈ inputs) :
    Performs P (.ingestBatch inputs now)
      [.moved input.sourceId input.accountGrantRef input.sourceCursor input.gapDetected] db
      (SignalInbox.writeCursor P input (P.timestamp now) db) := by
  simp only [Platform.validateIngress, bind_unit_ok_iff] at valid
  exact .single (.writeCursor db _ _ _ _ _ valid.1 valid.2.1)
    (.inl ⟨inputs, now, rfl, input, h, rfl, rfl, rfl, rfl⟩)

theorem effect_of_admission {admission : SignalAdmission} {updatedAt : String} {db₁ db₂ : Inbox}
    (valid : P.validateIngress input = .ok ())
    (ha : admitItem P input updatedAt db = .ok (admission, db₁))
    (hr : remember P input admission.signalId updatedAt db₁ = .ok db₂) :
    (∃ existing, newestWaiting (P.coalesceHash input) db = some existing ∧
      admission = ⟨.coalesced, existing.signalId⟩ ∧
      EffectStep P db (.coalesce input updatedAt existing.signalId) db₂) ∨
    ∃ id, admission = ⟨.inserted, id⟩ ∧ EffectStep P (prune db) (.insert input updatedAt id) db₂ := by
  unfold admitItem at ha
  unfold remember at hr
  split at ha
  · rename_i existing hn
    cases ha
    split at hr
    · cases hr
    · rename_i dedupe hd
      cases hr
      exact .inl ⟨existing, hn, rfl, .coalesce valid hn hd⟩
  · rename_i hn
    obtain ⟨⟨signalId, db₁'⟩, hi, ha⟩ := bind_ok_iff.1 ha
    cases ha
    obtain ⟨db₀, hc, hi⟩ := bind_ok_iff.1 hi
    obtain ⟨room, hc⟩ := ite_error_ok_iff.1 hc
    cases hc
    simp only [newUuid] at hi
    split at hi
    · cases hi
    · rename_i items hi'
      cases hi
      split at hr
      · cases hr
      · rename_i dedupe hd
        cases hr
        exact .inr ⟨_, rfl,
          .insert valid ((newestWaiting_prune _ _).trans hn) (not_le.1 room) hi' hd⟩

theorem performs_admission {admission : SignalAdmission} {db₁ db₂ : Inbox}
    (valid : P.validateIngress input = .ok ()) (h : input ∈ inputs)
    (ha : admitItem P input (P.timestamp now) db = .ok (admission, db₁))
    (hr : remember P input admission.signalId (P.timestamp now) db₁ = .ok db₂) :
    Performs P (.ingestBatch inputs now) [.arrival input admission] db db₂ := by
  rcases effect_of_admission valid ha hr with ⟨existing, -, rfl, he⟩ | ⟨id, rfl, he⟩
  · exact .single he ⟨inputs, now, rfl, h, rfl⟩
  · exact (Performs.single (.prune db) ⟨inputs, now, rfl⟩).trans
      (.single he ⟨inputs, now, rfl, h, rfl⟩)

theorem performs_ingestOne {admission : SignalAdmission}
    (valid : P.validateIngress input = .ok ()) (h : input ∈ inputs)
    (ho : ingestOne P input (P.timestamp now) db = .ok (admission, db')) :
    Performs P (.ingestBatch inputs now) (arrivalEvents input admission) db db' := by
  unfold ingestOne at ho
  split at ho
  · rename_i row hrow
    cases ho
    exact (Performs.single (.drop valid hrow) ⟨inputs, now, rfl, h⟩).trans
      (performs_writeCursor _ valid h)
  · obtain ⟨⟨admission', db₁⟩, ha, ho⟩ := bind_ok_iff.1 ho
    obtain ⟨db₂, hr, ho⟩ := bind_ok_iff.1 ho
    cases ho
    exact (performs_admission valid h ha hr).trans (performs_writeCursor _ valid h)

theorem performs_ingestAll {rest : List SignalIngress} {admissions : List SignalAdmission}
    (valid : ∀ input ∈ rest, P.validateIngress input = .ok ()) (h : ∀ input ∈ rest, input ∈ inputs)
    (ho : ingestAll P (P.timestamp now) rest db = .ok (admissions, db')) :
    Performs P (.ingestBatch inputs now) (List.zipWith arrivalEvents rest admissions).flatten db
      db' := by
  induction rest generalizing db admissions with
  | nil =>
    cases ho
    exact .refl _
  | cons input rest ih =>
    obtain ⟨⟨admission, db₁⟩, h₁, ho⟩ := bind_ok_iff.1 ho
    obtain ⟨⟨admissions', db₂⟩, h₂, ho⟩ := bind_ok_iff.1 ho
    cases ho
    rw [List.forall_mem_cons] at valid h
    exact (performs_ingestOne valid.1 h.1 h₁).trans (ih valid.2 h.2 h₂)

theorem valid_of_validateAll {rest : List SignalIngress} (h : validateAll P rest = .ok ()) :
    ∀ input ∈ rest, P.validateIngress input = .ok () := by
  induction rest with
  | nil => simp
  | cons input rest ih =>
    obtain ⟨h₁, h₂⟩ := bind_unit_ok_iff.1 h
    exact List.forall_mem_cons.2 ⟨h₁, ih h₂⟩

theorem performs_ingestBatch {admissions : List SignalAdmission}
    (ho : ingestBatch P inputs now db = .ok (admissions, db')) :
    Performs P (.ingestBatch inputs now) (List.zipWith arrivalEvents inputs admissions).flatten db
      db' := by
  obtain ⟨-, ho⟩ := ite_error_ok_iff.1 ho
  obtain ⟨hv, ho⟩ := bind_unit_ok_iff.1 ho
  obtain ⟨⟨admissions', db₁⟩, h₁, ho⟩ := bind_ok_iff.1 ho
  cases ho
  simpa [Effect.events] using
    (performs_ingestAll (valid_of_validateAll hv) (fun _ => id) h₁).trans
      (.single (.forget db₁) ⟨inputs, now, rfl⟩)

end Ingest

section Claim

variable {request : SignalClaimRequest} {now : Instant} {db db' : Inbox} {items : List SignalItem}

/-- The rows that a claim works through, each of them ready, none twice. -/
def Listed (current : String) (seqs : List ℕ) (db : Inbox) : Prop :=
  seqs.Nodup ∧ ∀ seq ∈ seqs, ∃ r ∈ db.items, r.seq = seq ∧ isReady current r

theorem countP_isClaimable {r : StoredSignal} (hr : r ∈ db.items) (hp : r.state = .pending) :
    db.items.rows.countP (isClaimable r.seq) = 1 := by
  refine le_antisymm ?_ (List.countP_pos_iff.2 ⟨r, hr, by simp [isClaimable, hp]⟩)
  calc db.items.rows.countP (isClaimable r.seq)
      ≤ db.items.rows.countP (fun s => decide (s.seq = r.seq)) :=
        List.countP_mono_left fun s _ hs => by
          rw [isClaimable, Bool.and_eq_true] at hs
          exact hs.1
    _ = (db.items.rows.map StoredSignal.seq).count r.seq := by
        rw [List.count, List.countP_map]
        exact List.countP_congr fun s _ => by simp
    _ ≤ 1 := List.nodup_iff_count_le_one.1 (db.items.ordered.imp ne_of_lt) _

theorem listed_readyRows (current : String) (limit : ℕ) (db : Inbox) :
    Listed current ((readyRows current limit db).map StoredSignal.seq) db := by
  have hmem : ∀ r ∈ readyRows current limit db, r ∈ db.items ∧ isReady current r := by
    intro r hr
    have hr := List.mem_mergeSort.1 (List.mem_of_mem_take hr)
    exact List.mem_filter.1 hr
  constructor
  · refine ((List.take_sublist _ _).map _).nodup ?_
    refine ((List.mergeSort_perm _ _).map _).nodup_iff.2 ?_
    exact (List.filter_sublist.map _).nodup (db.items.ordered.imp ne_of_lt)
  · intro seq hseq
    obtain ⟨r, hr, rfl⟩ := List.mem_map.1 hseq
    exact ⟨r, (hmem r hr).1, rfl, (hmem r hr).2⟩

theorem find?_seq_updateWhere {p : StoredSignal → Bool} {f : StoredSignal → StoredSignal}
    (hf : KeepsKeys f) {db : Inbox} {r : StoredSignal} (hr : r ∈ db.items) (hp : p r) :
    (db.items.updateWhere p f hf).rows.find? (fun s => s.seq = r.seq) = some (f r) := by
  have hmem : f r ∈ db.items.updateWhere p f hf :=
    (Table.mem_updateWhere hf.signalId).2 ⟨r, hr, if_pos hp⟩
  cases h : (db.items.updateWhere p f hf).rows.find? (fun s => s.seq = r.seq) with
  | none =>
    have hnone := List.find?_eq_none.1 h (f r) hmem
    rw [hf.seq] at hnone
    simp at hnone
  | some s =>
    have hs : s.seq = r.seq := by simpa using List.find?_some h
    rw [Items.eq_of_seq_eq (List.mem_of_find?_eq_some h) hmem (hs.trans (hf.seq r).symm)]

theorem claimEach_cons {workerId expiresAt current : String} {seq : ℕ} {seqs : List ℕ}
    (listed : Listed current (seq :: seqs) db)
    (ho : claimEach P workerId expiresAt current (seq :: seqs) db = .ok (items, db')) :
    ∃ r first rest, r ∈ db.items ∧ isReady current r ∧
      let leaseId := "signal-lease-" ++ P.newV4 db.drawn
      let db₁ := { db with
        items := db.items.updateWhere (isClaimable r.seq)
          (claimedRow workerId leaseId expiresAt current)
          (keepsKeys_claimedRow workerId leaseId expiresAt current)
        drawn := db.drawn + 1 }
      SignalInbox.item P (claimedRow workerId leaseId expiresAt current r) = .ok first ∧
        Listed current seqs db₁ ∧ items = first :: rest ∧
        claimEach P workerId expiresAt current seqs db₁ = .ok (rest, db') := by
  obtain ⟨hnodup, hready⟩ := listed
  rw [List.nodup_cons] at hnodup
  rw [List.forall_mem_cons] at hready
  obtain ⟨⟨r, hr, rfl, ready⟩, hready⟩ := hready
  have hp := state_of_isReady ready
  have hone := countP_isClaimable hr hp
  simp only [claimEach, newUuid, hone, if_pos] at ho
  obtain ⟨first, hf, ho⟩ := bind_ok_iff.1 ho
  obtain ⟨⟨rest, db₁⟩, hrest, ho⟩ := bind_ok_iff.1 ho
  cases ho
  rw [readBySeq, find?_seq_updateWhere (keepsKeys_claimedRow _ _ _ _) hr
    (by simp [isClaimable, hp])] at hf
  refine ⟨r, first, rest, hr, ready, hf, ⟨hnodup.2, ?_⟩, rfl, hrest⟩
  intro n hn
  obtain ⟨s, hs, rfl, hsr⟩ := hready n hn
  refine ⟨s, (Table.mem_updateWhere (keepsKeys_claimedRow _ _ _ _).signalId).2 ⟨s, hs, ?_⟩, rfl, hsr⟩
  -- another number, so the update passed the row over
  rw [if_neg]
  rintro hc
  rw [isClaimable, Bool.and_eq_true, decide_eq_true_eq] at hc
  exact hnodup.1 (hc.1 ▸ hn)

theorem performs_claimEach {workerId expiresAt : String} {seqs : List ℕ}
    (listed : Listed (P.timestamp now) seqs db)
    (ho : claimEach P workerId expiresAt (P.timestamp now) seqs db = .ok (items, db')) :
    Performs P (.claim request now) (items.map Event.leased) db db' := by
  induction seqs generalizing db items with
  | nil =>
    cases ho
    exact .refl _
  | cons seq seqs ih =>
    obtain ⟨r, first, rest, hr, ready, hf, listed', rfl, hrest⟩ := claimEach_cons listed ho
    exact (Performs.single (.lease hr ready hf) ⟨request, now, rfl, rfl⟩).trans (ih listed' hrest)

theorem performs_claim (ho : claim P request now db = .ok (items, db')) :
    Performs P (.claim request now) (items.map Event.leased) db db' := by
  obtain ⟨-, ho⟩ := bind_unit_ok_iff.1 ho
  obtain ⟨-, ho⟩ := ite_error_ok_iff.1 ho
  obtain ⟨-, ho⟩ := ite_error_ok_iff.1 ho
  exact (performs_recover (by trivial) _ _).trans (performs_claimEach (listed_readyRows _ _ _) ho)

end Claim

section Transition

variable {request : SignalTransition} {current : String} {db db' : Inbox} {op : Op}

theorem recovers_of_transition (hof : (Effect.transition request current).Of P op) :
    op.Recovers := by
  rcases hof with ⟨r, now, c, availableAt, rfl, -⟩ | ⟨r, c, rfl, -⟩ <;> trivial

theorem effect_of_performTransition
    (hs : request.nextState.isOpen = true → request.nextState = .deferred)
    (ho : performTransition request current db = .ok db') :
    EffectStep P (recover current db) (.transition request current) db' := by
  obtain ⟨hone, ho⟩ := ite_error_ok_iff.1 ho
  split at ho
  · cases ho
  · rename_i operations hins
    cases ho
    obtain ⟨r, hr, held⟩ := List.countP_pos_iff.1 (by omega :
      0 < (recover current db).items.rows.countP
        (isHeld request.signalId request.leaseId current))
    have hid : r.signalId = request.signalId := by
      simp only [isHeld, Bool.and_eq_true, decide_eq_true_eq] at held
      exact held.1.1.1
    exact .transition (Items.find?_eq_some_iff.2 ⟨hr, hid⟩) held hs hins

theorem performs_performTransition (hof : (Effect.transition request current).Of P op)
    (hs : request.nextState.isOpen = true → request.nextState = .deferred)
    (ho : performTransition request current db = .ok db') : Performs P op [] db db' :=
  (performs_recover (recovers_of_transition hof) current db).trans
    (.single (effect_of_performTransition hs ho) hof)

theorem performs_transition {now : Instant} {item : SignalItem}
    (hof : (Effect.transition request (P.timestamp now)).Of P op)
    (hs : request.nextState.isOpen = true → request.nextState = .deferred)
    (ho : transition P request now db = .ok (item, db')) : Performs P op [] db db' := by
  unfold transition at ho
  split at ho
  · obtain ⟨-, ho⟩ := ite_error_ok_iff.1 ho
    obtain ⟨item', -, ho⟩ := bind_ok_iff.1 ho
    cases ho
    exact .refl _
  · obtain ⟨db₁, hp, ho⟩ := bind_ok_iff.1 ho
    obtain ⟨item', -, ho⟩ := bind_ok_iff.1 ho
    cases ho
    exact performs_performTransition hof hs hp

end Transition

theorem Op.performs {op : Op} {answer : Answer} {db db' : Inbox}
    (h : op.apply P db = .ok (answer, db')) :
    Performs P op (Call.events ⟨op, .ok answer⟩) db db' := by
  cases op with
  | ingestBatch inputs now =>
    obtain ⟨⟨admissions, db₁⟩, ho, h⟩ := map_ok_iff.1 h
    cases h
    exact performs_ingestBatch ho
  | advanceCursor source account cursor gap now =>
    obtain ⟨⟨checkpoint, db₁⟩, ho, h⟩ := map_ok_iff.1 h
    cases h
    obtain ⟨hs, ho⟩ := bind_unit_ok_iff.1 ho
    obtain ⟨ha, ho⟩ := bind_unit_ok_iff.1 ho
    obtain ⟨-, ho⟩ := bind_unit_ok_iff.1 ho
    cases ho
    exact .single (.writeCursor db source account cursor gap _ hs ha) (.inr ⟨now, rfl⟩)
  | consult request now =>
    obtain ⟨⟨summary, db₁⟩, ho, h⟩ := map_ok_iff.1 h
    cases h
    obtain ⟨-, ho⟩ := ite_error_ok_iff.1 ho
    cases ho
    exact performs_recover (by trivial) _ _
  | claim request now =>
    obtain ⟨⟨items, db₁⟩, ho, h⟩ := map_ok_iff.1 h
    cases h
    exact performs_claim ho
  | defer request now current =>
    obtain ⟨⟨item, db₁⟩, ho, h⟩ := map_ok_iff.1 h
    cases h
    obtain ⟨-, ho⟩ := bind_unit_ok_iff.1 ho
    obtain ⟨-, ho⟩ := bind_unit_ok_iff.1 ho
    obtain ⟨-, ho⟩ := bind_unit_ok_iff.1 ho
    obtain ⟨availableAt, hp, ho⟩ := bind_ok_iff.1 ho
    obtain ⟨hlt, ho⟩ := ite_error_ok_iff.1 ho
    exact performs_transition (.inl ⟨request, now, current, availableAt, rfl,
      Platform.parseTimestamp_ok_iff.1 hp, not_le.1 hlt, rfl, rfl⟩) (fun _ => rfl) ho
  | resolve request current =>
    obtain ⟨⟨item, db₁⟩, ho, h⟩ := map_ok_iff.1 h
    cases h
    obtain ⟨-, ho⟩ := bind_unit_ok_iff.1 ho
    obtain ⟨-, ho⟩ := bind_unit_ok_iff.1 ho
    obtain ⟨-, ho⟩ := bind_unit_ok_iff.1 ho
    obtain ⟨-, ho⟩ := bind_unit_ok_iff.1 ho
    refine performs_transition (.inr ⟨request, current, rfl, rfl, rfl⟩) ?_ ho
    simp only [resolution]
    split_ifs <;> simp [SignalState.isOpen]
  | revokeAccount request now =>
    obtain ⟨⟨count, db₁⟩, ho, h⟩ := map_ok_iff.1 h
    cases h
    obtain ⟨ha, ho⟩ := bind_unit_ok_iff.1 ho
    cases ho
    exact .single (.revoke db _ _ ha) ⟨request, now, rfl, rfl, rfl⟩

/-! ## From effects to calls -/

theorem Call.events_error (op : Op) (error : String) : Call.events ⟨op, .error error⟩ = [] := by
  cases op <;> rfl

def trace (calls : List Call) : List Event := calls.flatMap Call.events

/-- What the effects of the operations in `c` keep, their calls keep. -/
theorem Step.keeps {I : List Event → Inbox → Prop} {c : Op → Prop} {G : Effect → Prop}
    (hG : ∀ op e, c op → e.Of P op → G e)
    (hI : ∀ es db e db', G e → I es db → EffectStep P db e db' → I (es ++ e.events) db')
    {l : List Event} {db db' : Inbox} {call : Call} (hc : c call.op) (h : Step P db call db')
    (hs : I l db) : I (l ++ call.events) db' := by
  cases h with
  | failed op error => rwa [Call.events_error, List.append_nil]
  | committed h =>
    obtain ⟨effects, hr, hev, hof⟩ := Op.performs h
    rw [← hev]
    have hr : Run (fun db e db' => EffectStep P db e db' ∧ G e) db effects db' := by
      clear hev h hs
      induction hr with
      | nil db => exact .nil db
      | cons h₁ _ ih =>
        rw [List.forall_mem_cons] at hof
        exact .cons ⟨h₁, hG _ _ hc hof.1⟩ (ih hof.2)
    exact hr.invariant_outputs (fun es db e db' hi he => hI es db e db' he.2 hi he.1) hs

/-- What every effect of an operation keeps, a run of calls keeps. -/
theorem run_keeps_of {I : List Event → Inbox → Prop} {G : Effect → Prop}
    (hG : ∀ op e, e.Of P op → G e)
    (hI : ∀ es db e db', G e → I es db → EffectStep P db e db' → I (es ++ e.events) db')
    {l : List Event} {db db' : Inbox} {calls : List Call} (h : Run (Step P) db calls db')
    (hs : I l db) : I (l ++ trace calls) db' :=
  h.invariant_outputs (fun _ _ _ _ hi hstep =>
    Step.keeps (c := fun _ => True) (fun op e _ => hG op e) hI trivial hstep hi) hs

theorem run_keeps {I : List Event → Inbox → Prop}
    (hI : ∀ es db e db', I es db → EffectStep P db e db' → I (es ++ e.events) db')
    {l : List Event} {db db' : Inbox} {calls : List Call} (h : Run (Step P) db calls db')
    (hs : I l db) : I (l ++ trace calls) db' :=
  run_keeps_of (G := fun _ => True) (fun _ _ _ => trivial) (fun es db e db' _ => hI es db e db') h hs

/-- What holds of the empty inbox and every effect keeps holds of the runs from it. -/
theorem empty_run_keeps {I : List Event → Inbox → Prop}
    (hI : ∀ es db e db', I es db → EffectStep P db e db' → I (es ++ e.events) db')
    {db : Inbox} {calls : List Call} (h : Run (Step P) .empty calls db) (hs : I [] .empty) :
    I (trace calls) db :=
  run_keeps hI h hs

/-- What the effects of the operations in `c` keep, a run of their calls keeps. -/
theorem guarded_run_keeps {I : List Event → Inbox → Prop} {c : Op → Prop} {G : Effect → Prop}
    (hG : ∀ op e, c op → e.Of P op → G e)
    (hI : ∀ es db e db', G e → I es db → EffectStep P db e db' → I (es ++ e.events) db')
    {l : List Event} {db db' : Inbox} {calls : List Call}
    (h : Run (Guarded (Step P) fun _ call => c call.op) db calls db') (hs : I l db) :
    I (l ++ trace calls) db' :=
  h.invariant_outputs (fun _ _ _ _ hi hstep => Step.keeps hG hI hstep.2 hstep.1 hi) hs

end Wiii.Neko.Signal
