import Wiii.Neko.Signal.Specs

/-!
# The window of an item

The database compares the texts of timestamps, and an ingress keeps the texts it came with.  Texts that sort against the
texts of clock readings as their instants do (`AvailabilitySorts`, `ExpirySorts`) keep every claim inside the window of
the item (`claims_within_window`).
-/

namespace Wiii.Neko.Signal

open SignalInbox

variable {P : Platform}

/-- The reading is of a year of four digits and not before the instant of the text. -/
def AvailabilitySorts (P : Platform) (text : String) : Prop :=
  ∃ t, P.parseFromRfc3339 text = some t ∧
    ∀ now, text ≤ P.timestamp now → now.FourDigit ∧ t ≤ now

/-- Where the text is after the text of a clock reading, its instant is after the reading. -/
def ExpirySorts (P : Platform) (text : String) : Prop :=
  ∃ t, P.parseFromRfc3339 text = some t ∧
    ∀ now, now.FourDigit → P.timestamp now < text → now < t

/-! ## The texts that the inbox writes -/

theorem fourDigit_of_le_timestamp (hR : P.Rfc3339) {t now : Instant} (ht : t.FourDigit)
    (h : P.timestamp t ≤ P.timestamp now) : now.FourDigit := by
  by_contra hnow
  obtain ⟨sign, hsign, rest, hfar⟩ := hR.writeFar now hnow
  have hlt : sign < '0' := by
    rcases List.mem_pair.1 hsign with rfl | rfl <;> decide
  rw [Platform.timestamp, Platform.timestamp, hR.write t ht, hfar] at h
  exact absurd h (not_le.2 (Instant.ofList_lt_text hlt rest t ht))

theorem availabilitySorts_timestamp (hR : P.Rfc3339) {t : Instant} (ht : t.FourDigit) :
    AvailabilitySorts P (P.timestamp t) := by
  refine ⟨t.floorMillis, ?_, fun now hle => ?_⟩
  · rw [Platform.timestamp, hR.write t ht]
    exact hR.read t ht
  · have hnow := fourDigit_of_le_timestamp hR ht hle
    rw [Platform.timestamp, Platform.timestamp, hR.write t ht, hR.write now hnow,
      Instant.text_le_iff ht hnow] at hle
    exact ⟨hnow, hle.trans now.floorMillis_le⟩

theorem expirySorts_timestamp (hR : P.Rfc3339) {t : Instant} (ht : t.FourDigit) :
    ExpirySorts P (P.timestamp t) := by
  refine ⟨t.floorMillis, ?_, fun now hnow hlt => ?_⟩
  · rw [Platform.timestamp, hR.write t ht]
    exact hR.read t ht
  · rw [Platform.timestamp, Platform.timestamp, hR.write t ht, hR.write now hnow,
      Instant.text_lt_iff hnow ht] at hlt
    exact Instant.lt_of_floorMillis_lt hlt

/-! ## The invariant -/

/-- The texts of the window of a row sort as their instants do. -/
structure Windowed (P : Platform) (r : StoredSignal) : Prop where
  available : AvailabilitySorts P r.availableAt
  expires : ExpirySorts P r.expiresAt

/-- The texts that the operation brings into the inbox sort as their instants do. -/
def Op.Sorts (P : Platform) : Op → Prop
  | .ingestBatch inputs _ => ∀ input ∈ inputs,
      AvailabilitySorts P input.availability ∧ ExpirySorts P input.expiresAt
  | .defer request _ _ => ∀ t, P.parseFromRfc3339 request.availableAt = some t → t.FourDigit
  | _ => True

def Effect.Sorts (P : Platform) : Effect → Prop
  | insert input _ _ | coalesce input _ _ =>
    AvailabilitySorts P input.availability ∧ ExpirySorts P input.expiresAt
  | transition request _ => ∀ text, request.availableAt = some text → AvailabilitySorts P text
  | _ => True

theorem sorts_of_of (hR : P.Rfc3339) {op : Op} {e : Effect} (hop : op.Sorts P) (h : e.Of P op) :
    e.Sorts P := by
  cases e with
  | insert input updatedAt id =>
    obtain ⟨inputs, now, rfl, hmem, -⟩ := h
    exact hop input hmem
  | coalesce input updatedAt id =>
    obtain ⟨inputs, now, rfl, hmem, -⟩ := h
    exact hop input hmem
  | transition request current =>
    intro text htext
    rcases h with ⟨r, now, c, t, rfl, hparse, -, rfl, -⟩ | ⟨r, c, rfl, rfl, -⟩
    · cases htext
      exact availabilitySorts_timestamp hR (hop t hparse)
    · cases htext
  | _ => trivial

theorem availabilitySorts_min {a b : String} (ha : AvailabilitySorts P a)
    (hb : AvailabilitySorts P b) : AvailabilitySorts P (min a b) := by
  rcases min_choice a b with h | h <;> rw [h] <;> assumption

theorem expirySorts_max {a b : String} (ha : ExpirySorts P a) (hb : ExpirySorts P b) :
    ExpirySorts P (max a b) := by
  rcases max_choice a b with h | h <;> rw [h] <;> assumption

theorem RowChange.windowed {id : String} {e : Effect} {r? : Option StoredSignal} {r' : StoredSignal}
    (h : RowChange P id e r? (some r')) (he : e.Sorts P) (hr : ∀ r, r? = some r → Windowed P r) :
    Windowed P r' := by
  cases h with
  | same quiet => exact hr r' rfl
  | inserted => exact ⟨he.1, he.2⟩
  | coalesced =>
    have hold := hr _ rfl
    exact ⟨availabilitySorts_min hold.available he.1, expirySorts_max hold.expires he.2⟩
  | @transitioned request current r held hopen =>
    have hold := hr _ rfl
    refine ⟨?_, hold.expires⟩
    simp only [transitionedRow]
    cases hat : request.availableAt with
    | none => exact hold.available
    | some text => exact he text hat
  | _ => exact ⟨(hr _ rfl).available, (hr _ rfl).expires⟩

/-- The sequences of calls whose operations bring in texts that sort. -/
def Sorting (P : Platform) : Inbox → Call → Inbox → Prop :=
  Guarded (Step P) fun _ call => call.op.Sorts P

theorem windowed_of_run (hR : P.Rfc3339) {calls : List Call} {db : Inbox}
    (h : Run (Sorting P) .empty calls db) : ∀ id r, db.items.find? id = some r → Windowed P r := by
  refine guarded_run_keeps (l := []) (c := Op.Sorts P) (G := Effect.Sorts P)
    (I := fun _ db => ∀ id r, db.items.find? id = some r → Windowed P r)
    (fun op e hop hof => sorts_of_of hR hop hof) ?_ h (by simp [Inbox.empty])
  intro _ db e db' he hs hstep id r' hr'
  have hrow := hstep.row id
  rw [hr'] at hrow
  exact hrow.windowed he fun r hr => hs id r hr

theorem window_of_item {workerId leaseId expiresAt current : String} {r : StoredSignal}
    {item : SignalItem}
    (h : SignalInbox.item P (claimedRow workerId leaseId expiresAt current (recoveredRow current r)) =
      .ok item) : item.availableAt = r.availableAt ∧ item.expiresAt = r.expiresAt := by
  obtain ⟨fields, -, h⟩ := bind_ok_iff.1 h
  obtain ⟨claim, -, h⟩ := bind_ok_iff.1 h
  obtain ⟨-, h⟩ := ite_error_ok_iff.1 h
  cases h
  simp only [claimedRow, recoveredRow]
  split_ifs <;> exact ⟨rfl, rfl⟩

theorem window_of_leased {call : Call} {db db' : Inbox} (h : Step P db call db') {item : SignalItem}
    (hitem : .leased item ∈ call.events) : ∃ request now r, call.op = .claim request now ∧
      db.items.find? item.signalId = some r ∧ item.availableAt = r.availableAt ∧
      item.expiresAt = r.expiresAt ∧ r.availableAt ≤ P.timestamp now ∧
      P.timestamp now < r.expiresAt := by
  obtain ⟨request, now, items, rfl, hmem⟩ := claim_of_leased hitem
  obtain ⟨⟨items', db₁⟩, ho, heq⟩ := map_ok_iff.1 h.apply_eq
  cases heq
  obtain ⟨r, hr, ready, leaseId, expiresAt, answer⟩ := ready_of_claim ho hmem
  obtain ⟨ha, he⟩ := window_of_item answer
  have hsame : (recoveredRow (P.timestamp now) r).availableAt = r.availableAt ∧
      (recoveredRow (P.timestamp now) r).expiresAt = r.expiresAt := by
    simp only [recoveredRow]
    split_ifs <;> exact ⟨rfl, rfl⟩
  simp only [isReady, Bool.and_eq_true, decide_eq_true_eq, hsame] at ready
  exact ⟨request, now, r, rfl, hr, ha, he, ready.1.2, ready.2⟩

/-- Where texts sort as their instants do, a claim hands out only items that are available and have not expired. -/
theorem claims_within_window (hR : P.Rfc3339) {calls : List Call} {db db' : Inbox} {call : Call}
    (h : Run (Sorting P) .empty calls db) (hstep : Step P db call db') {item : SignalItem}
    (hitem : .leased item ∈ call.events) : ∃ request now available expires,
      call.op = .claim request now ∧ P.parseFromRfc3339 item.availableAt = some available ∧
      P.parseFromRfc3339 item.expiresAt = some expires ∧ available ≤ now ∧ now < expires := by
  obtain ⟨request, now, r, hop, hr, ha, he, hle, hlt⟩ := window_of_leased hstep hitem
  obtain ⟨⟨available, hparse, havailable⟩, expires, hparse', hexpires⟩ := windowed_of_run hR h _ r hr
  obtain ⟨hnow, hbefore⟩ := havailable now hle
  exact ⟨request, now, available, expires, hop, ha ▸ hparse, he ▸ hparse', hbefore,
    hexpires now hnow hlt⟩

/-- A message of one morning, with texts for its window. -/
def morningMail (availableAt : Option String) (expiresAt : String) : SignalIngress :=
  { reference.mail "grant-a" "m" "41" "e41" with
    observedAt := "2026-08-31T04:00:00.000Z", availableAt := availableAt, expiresAt := expiresAt }

theorem sorts_morningMail : (Op.ingestBatch [morningMail none "2026-08-31T10:00:00.000Z"]
    (reference.clock 4 30 0)).Sorts reference := by
  have ha : "2026-08-31T04:00:00.000Z" = reference.timestamp (reference.clock 4 0 0) := by
    decide +kernel
  have he : "2026-08-31T10:00:00.000Z" = reference.timestamp (reference.clock 10 0 0) := by
    decide +kernel
  intro input hinput
  rw [List.mem_singleton.1 hinput, morningMail, SignalIngress.availability, ha, he]
  exact ⟨availabilitySorts_timestamp reference.rfc3339 (t := reference.clock 4 0 0) (by decide),
    expirySorts_timestamp reference.rfc3339 (t := reference.clock 10 0 0) (by decide)⟩

theorem step_of_claim {request : SignalClaimRequest} {now : Instant} {db db' : Inbox}
    {items : List SignalItem} (h : SignalInbox.claim P request now db = .ok (items, db')) :
    Step P db ⟨.claim request now, .ok (.items items)⟩ db' :=
  .committed (map_ok_iff.2 ⟨_, h, rfl⟩)

theorem claims_within_window_morningMail :
    let mail := morningMail none "2026-08-31T10:00:00.000Z"
    ∃ call db' item,
      Step reference (execute reference [.ingestBatch [mail] (reference.clock 4 30 0)] .empty).2 call
        db' ∧ .leased item ∈ call.events ∧ ∃ request now available expires,
      call.op = .claim request now ∧ reference.parseFromRfc3339 item.availableAt = some available ∧
      reference.parseFromRfc3339 item.expiresAt = some expires ∧ available ≤ now ∧ now < expires := by
  intro mail
  have hclaim : (SignalInbox.claim reference { workerId := "worker" } (reference.clock 6 0 0)
      (execute reference [.ingestBatch [mail] (reference.clock 4 30 0)] .empty).2).map
        (fun result => result.1.length) = .ok 1 := by
    decide +kernel
  obtain ⟨⟨items, db'⟩, ho, hlen⟩ := map_ok_iff.1 hclaim
  obtain ⟨item, rfl⟩ := List.length_eq_one_iff.1 hlen
  have hsorts : ∀ op ∈ [Op.ingestBatch [mail] (reference.clock 4 30 0)], op.Sorts reference :=
    List.forall_mem_singleton.2 sorts_morningMail
  have hrun := guarded_run_execute reference hsorts .empty
  have hstep := step_of_claim ho
  have hitem : .leased item ∈ Call.events ⟨.claim { workerId := "worker" } (reference.clock 6 0 0),
      .ok (.items [item])⟩ := List.mem_singleton.2 rfl
  exact ⟨_, db', item, hstep, hitem, claims_within_window reference.rfc3339 hrun hstep hitem⟩

/-- A message that becomes available at ten and one that expired at five are handed out at six. -/
theorem offset_texts_break_window :
    let handedOut := fun mail : SignalIngress =>
      (SignalInbox.claim reference { workerId := "worker" } (reference.clock 6 0 0)
        (execute reference [.ingestBatch [mail] (reference.clock 4 30 0)] .empty).2).map
          fun result => result.1.map fun item => (item.availableAt, item.expiresAt)
    reference.parseFromRfc3339 "2026-08-31T05:00:00.000-05:00" = some (reference.clock 10 0 0) ∧
      handedOut (morningMail (some "2026-08-31T05:00:00.000-05:00") "2026-08-31T18:00:00.000Z") =
        .ok [("2026-08-31T05:00:00.000-05:00", "2026-08-31T18:00:00.000Z")] ∧
      reference.parseFromRfc3339 "2026-08-31T10:00:00.000+05:00" = some (reference.clock 5 0 0) ∧
      handedOut (morningMail none "2026-08-31T10:00:00.000+05:00") =
        .ok [("2026-08-31T04:00:00.000Z", "2026-08-31T10:00:00.000+05:00")] := by
  decide +kernel

end Wiii.Neko.Signal
