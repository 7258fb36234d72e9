import Mathlib.Algebra.BigOperators.Group.List.Basic
import Wiii.Neko.AppEvents.Ledger

/-!
# The counters of a run

Every step of the watcher keeps a ledger balanced, so in every run there is a balanced ledger of all matches, and the
counters add up to the number of matches as long as none of them is at its limit (`matches_counted_once`).
-/

namespace Wiii.Neko.AppEvents

/-! ## Runs -/

namespace Account

open AppEventWatcherService

variable {C : Chrono} {a : Account} {w w' : AppEventWatcherService} {l : Ledger} {b : Booking}

theorem book_removed (a : Account) (removed : List Removal) :
    a.book { removed := removed } = { a with removed := a.removed ++ removed } := by
  simp [book]

theorem book_nothing (a : Account) : a.book {} = a := by
  simp [book]

theorem Balanced.ingest (h : Balanced a w l) (batch : WatcherBatch) (now : Instant) (receivedAtMs : ℕ) :
    ∃ l', Balanced (a.book (.ingested C w batch now)) (w.ingest C batch now receivedAtMs).2 l' := by
  have hexpire : ∃ l', Balanced
      { a with removed := a.removed ++ Booking.discarded (w.lost (w.expireSubscriptions C now)) }
      (w.expireSubscriptions C now) l' :=
    h.discard (fun _ he => mem_pending_expireSubscriptions he) rfl rfl
  unfold AppEventWatcherService.ingest Booking.ingested
  cases C.validateBatch batch with
  | error error => exact ⟨l, by rwa [book_nothing]⟩
  | ok _ =>
    dsimp only
    split_ifs
    · rwa [book_removed]
    · obtain ⟨l₁, h₁⟩ := hexpire
      obtain ⟨l₂, h₂⟩ := h₁.ingestSignals receivedAtMs batch.events
      refine ⟨l₂, ?_⟩
      have hbook : a.book { matched := (w.expireSubscriptions C now).matchesOf batch.events
                            removed := Booking.discarded (w.lost (w.expireSubscriptions C now)) } =
          { matched := a.matched ++ (w.expireSubscriptions C now).matchesOf batch.events
            removed := a.removed ++ Booking.discarded (w.lost (w.expireSubscriptions C now))
            drains := a.drains } := by
        simp [book]
      rw [hbook]
      exact h₂.congr (fun _ => Iff.rfl) (fun hg => Bool.or_eq_true_iff.2 (.inl hg)) rfl

theorem Balanced.drainReady (h : Balanced a w l) (nowMs limit : ℕ) :
    ∃ l', Balanced (a.book (.drained (w.drainReady nowMs limit).1)) (w.drainReady nowMs limit).2 l' := by
  let ready := (w.pending.rows.filter (w.isReady nowMs)).mergeSort PendingEntry.before
  let taken := ready.take (max 1 (min limit 128))
  have hmem : ∀ entry ∈ taken, entry ∈ w.pending := fun entry he =>
    (List.mem_filter.1 (List.mem_mergeSort.1 (List.mem_of_mem_take he))).1
  have hkeys : (taken.map PendingEntry.key).Nodup := by
    refine ((List.take_sublist _ _).map _).nodup ?_
    rw [((List.mergeSort_perm _ _).map PendingEntry.key).nodup_iff]
    exact (List.filter_sublist.map _).nodup w.pending.nodup
  obtain ⟨hwakes, hpending⟩ := takeWakes_eq hmem hkeys
  obtain ⟨l₁, h₁⟩ := h.removeAll true hmem hkeys
  let drain := (w.drainReady nowMs limit).1
  have hgap : drain.gapDetected = w.gapDetected := rfl
  have h₂ := h₁.report hgap rfl
  have hbook : a.book (.drained (w.drainReady nowMs limit).1) =
      { matched := a.matched
        removed := a.removed ++ taken.map fun entry => ⟨entry.wake, true⟩
        drains := a.drains ++ [(w.drainReady nowMs limit).1] } := by
    have hdrain : (w.drainReady nowMs limit).1.wakes = taken.map PendingEntry.wake := hwakes
    simp [book, Booking.drained, hdrain]
  refine ⟨move .dropped (.reported a.drains.length) l₁, ?_⟩
  rw [hbook]
  refine h₂.congr (fun e => ?_) id rfl
  rw [Table.mem_deleteWhere, decide_eq_false_iff_not]
  exact hpending e

theorem Balanced.books (h : Balanced a w l) (hb : Books C w b w') : ∃ l', Balanced (a.book b) w' l' := by
  cases hb with
  | still => exact ⟨l, by rwa [book_nothing]⟩
  | subscribe hs =>
    refine ⟨l, ?_⟩
    rw [book_nothing]
    rcases subscribe_ok hs with ⟨rfl, -⟩ | ⟨rfl, -⟩
    · exact h
    · exact h.congr (fun _ => Iff.rfl) id rfl
  | unsubscribe subscriptionId =>
    rw [book_removed]
    refine h.discard ?_ ?_ ?_ <;> unfold AppEventWatcherService.unsubscribe <;>
      cases w.subscriptions.find? subscriptionId with
      | none => first | exact fun _ he => he | rfl
      | some _ => first | exact fun _ he => (Table.mem_deleteWhere.1 he).1 | rfl
  | ingest batch now receivedAtMs => exact h.ingest batch now receivedAtMs
  | expire now =>
    rw [book_removed]
    exact h.discard (fun _ he => mem_pending_expireSubscriptions he) rfl rfl
  | drain nowMs limit => exact h.drainReady nowMs limit
  | reorder subscriptions pending hs hp =>
    refine ⟨l, ?_⟩
    rw [book_nothing]
    exact h.congr (fun e => hp.mem_iff) id rfl

theorem balanced_start {quietWindowMs : ℕ} {w₀ : AppEventWatcherService}
    (hnew : AppEventWatcherService.new quietWindowMs = .ok w₀) : Balanced start w₀ [] := by
  unfold AppEventWatcherService.new at hnew
  split_ifs at hnew
  cases hnew
  refine ⟨rfl, by simp, by simp, by simp, by simp [start], by simp [start], rfl, ?_⟩
  exact fun hlt => absurd hlt (lt_irrefl _)

theorem Balanced.run {bs : List Booking} (h : Balanced a w l) (hrun : Run (Books C) w bs w') :
    ∃ l', Balanced (bs.foldl book a) w' l' := by
  induction hrun generalizing a l with
  | nil => exact ⟨l, h⟩
  | cons hb _ ih =>
    obtain ⟨l₁, h₁⟩ := h.books hb
    exact ih h₁

end Account

/-! ## The sums -/

namespace Slot

def isPending : Slot → Bool
  | pending _ => true
  | _ => false

def isRemoved : Slot → Bool
  | removed _ => true
  | _ => false

def isDropped : Slot → Bool
  | reported _ | dropped => true
  | pending _ | removed _ => false

end Slot

section Sums

variable {l : Ledger} {ι : Type}

theorem countP_eq_add {α : Type} {xs : List α} {p q r : α → Bool}
    (h : ∀ x ∈ xs, (p x).toNat = (q x).toNat + (r x).toNat) : xs.countP p = xs.countP q + xs.countP r := by
  induction xs with
  | nil => rfl
  | cons x xs ih =>
    have hx := h x List.mem_cons_self
    rw [List.countP_cons, List.countP_cons, List.countP_cons, ih fun y hy => h y (List.mem_cons_of_mem _ hy)]
    cases hp : p x <;> cases hq : q x <;> cases hr : r x <;> simp [hp, hq, hr] at hx ⊢ <;> omega

theorem sum_shown {is : List ι} {place : ι → Slot} {shown : ι → ℕ}
    (hshown : ∀ i ∈ is, shown i = countAt (place i) l) (hplaces : (is.map place).Nodup) :
    (is.map shown).sum = l.countP fun x => decide (x.2 ∈ is.map place) := by
  induction is with
  | nil => exact (List.countP_eq_zero.2 fun x _ => by simp).symm
  | cons i is ih =>
    rw [List.map_cons, List.nodup_cons] at hplaces
    rw [List.map_cons, List.sum_cons, hshown i List.mem_cons_self,
      ih (fun j hj => hshown j (List.mem_cons_of_mem _ hj)) hplaces.2]
    refine (countP_eq_add fun x _ => ?_).symm
    by_cases hx : x.2 = place i
    · simp [hx, hplaces.1]
    · simp [hx]

end Sums

namespace Account

variable (a : Account) (w : AppEventWatcherService) (subscriptionId : String)

structure BelowLimits : Prop where
  pending : ∀ entry ∈ w.pending, entry.item.coalescedCount < maxCoalesced
  removed : ∀ removal ∈ a.removed, removal.wake.coalescedCount < maxCoalesced
  drains : ∀ drain ∈ a.drains, drain.droppedEvents < maxDropped
  dropped : w.droppedEvents < maxDropped

def matchedFor : ℕ := a.matched.countP fun m => decide (m.subscriptionId = subscriptionId)

def handedOutFor : ℕ :=
  (((a.drains.flatMap WatcherDrain.wakes).filter fun wake =>
    decide (wake.subscriptionId = subscriptionId)).map AppEventWake.coalescedCount).sum

def removedFor (handedOut : Bool) : ℕ :=
  ((a.removed.filter fun removal => decide (removal.handedOut = handedOut) &&
    decide (removal.wake.subscriptionId = subscriptionId)).map fun removal =>
      removal.wake.coalescedCount).sum

def pendingFor : ℕ :=
  ((w.pending.rows.filter fun entry => decide (entry.key.subscriptionId = subscriptionId)).map
    fun entry => entry.item.coalescedCount).sum

def droppedFor (l : Ledger) : ℕ :=
  l.countP fun x => x.2.isDropped && decide (x.1.subscriptionId = subscriptionId)

/-- What the drains told, and what the next one will tell. -/
def toldDropped : ℕ := (a.drains.map WatcherDrain.droppedEvents).sum + w.droppedEvents

variable {a w subscriptionId} {l : Ledger}

theorem Balanced.sum_pending (h : Balanced a w l) (hlimit : BelowLimits a w) :
    pendingFor w subscriptionId =
      l.countP fun x => x.2.isPending && decide (x.1.subscriptionId = subscriptionId) := by
  have hshown : ∀ entry ∈ w.pending.rows.filter fun entry =>
      decide (entry.key.subscriptionId = subscriptionId),
      entry.item.coalescedCount = countAt (.pending entry.key) l := by
    intro entry he
    have he' := List.mem_of_mem_filter he
    have hcount := h.pending entry he'
    have hless := hlimit.pending entry he'
    omega
  rw [pendingFor, sum_shown hshown]
  · refine List.countP_congr fun x hx => ?_
    have hplace := h.places x hx
    rw [decide_eq_true_iff, List.mem_map, Bool.and_eq_true, decide_eq_true_iff]
    constructor
    · rintro ⟨entry, he, hkey⟩
      rw [← hkey] at hplace ⊢
      have hid := of_decide_eq_true (List.mem_filter.1 he).2
      rw [hplace.1] at hid
      exact ⟨rfl, hid⟩
    · rintro ⟨hpending, hid⟩
      cases hp : x.2 with
      | pending key =>
        rw [hp] at hplace
        obtain ⟨rfl, entry, he, hkey⟩ := hplace
        refine ⟨entry, List.mem_filter.2 ⟨he, decide_eq_true ?_⟩, congrArg Slot.pending hkey⟩
        rw [hkey]
        exact hid
      | removed | reported | dropped => rw [hp] at hpending; cases hpending
  · have hkeys := (List.filter_sublist (p := fun entry : PendingEntry =>
      decide (entry.key.subscriptionId = subscriptionId)).map PendingEntry.key).nodup w.pending.nodup
    have hplaces := hkeys.map fun _ _ => Slot.pending.inj
    rwa [List.map_map] at hplaces

theorem Balanced.sum_removed (h : Balanced a w l) (hlimit : BelowLimits a w) :
    ((a.removed.filter fun removal => decide (removal.wake.subscriptionId = subscriptionId)).map
      fun removal => removal.wake.coalescedCount).sum =
      l.countP fun x => x.2.isRemoved && decide (x.1.subscriptionId = subscriptionId) := by
  let numbered := a.removed.zipIdx.filter fun r => decide (r.1.wake.subscriptionId = subscriptionId)
  have hnumbered : (a.removed.filter fun removal => decide (removal.wake.subscriptionId = subscriptionId)) =
      numbered.map Prod.fst := by
    conv_lhs => rw [← List.zipIdx_map_fst 0 a.removed]
    rw [List.filter_map]
    rfl
  have hshown : ∀ r ∈ numbered, r.1.wake.coalescedCount = countAt (.removed r.2) l := by
    intro r hr
    have hmem := List.mem_zipIdx_iff_getElem?.1 (List.mem_of_mem_filter hr)
    have hcount := h.removed r.2 r.1 hmem
    have hless := hlimit.removed r.1 (List.mem_of_getElem? hmem)
    omega
  rw [hnumbered, List.map_map]
  refine (sum_shown hshown ?_).trans (List.countP_congr fun x hx => ?_)
  · have hindices : (numbered.map Prod.snd).Nodup := by
      refine (List.filter_sublist.map _).nodup ?_
      rw [List.zipIdx_map_snd]
      exact List.nodup_range' _
    have hplaces := hindices.map fun _ _ => Slot.removed.inj
    rwa [List.map_map] at hplaces
  · have hplace := h.places x hx
    rw [decide_eq_true_iff, List.mem_map, Bool.and_eq_true, decide_eq_true_iff]
    constructor
    · rintro ⟨r, hr, hp⟩
      obtain ⟨hmem, hid⟩ := List.mem_filter.1 hr
      rw [← hp] at hplace ⊢
      obtain ⟨removal, hi, hkey⟩ := hplace
      rw [List.mem_zipIdx_iff_getElem?.1 hmem] at hi
      cases hi
      refine ⟨rfl, ?_⟩
      have hsame := congrArg PendingKey.subscriptionId hkey
      exact hsame.symm.trans (of_decide_eq_true hid)
    · rintro ⟨hremoved, hid⟩
      cases hp : x.2 with
      | removed i =>
        rw [hp] at hplace
        obtain ⟨removal, hi, hkey⟩ := hplace
        refine ⟨(removal, i), List.mem_filter.2 ⟨List.mem_zipIdx_iff_getElem?.2 hi, ?_⟩, rfl⟩
        have hsame := congrArg PendingKey.subscriptionId hkey
        exact decide_eq_true (hsame.trans hid)
      | pending | reported | dropped => rw [hp] at hremoved; cases hremoved

theorem Balanced.sum_dropped (h : Balanced a w l) (hlimit : BelowLimits a w) :
    toldDropped a w = l.countP fun x => x.2.isDropped := by
  have hshown : ∀ r ∈ a.drains.zipIdx, r.1.droppedEvents = countAt (.reported r.2) l := by
    intro r hr
    have hmem := List.mem_zipIdx_iff_getElem?.1 hr
    have hcount := (h.reported r.2 r.1 hmem).1
    have hless := hlimit.drains r.1 (List.mem_of_getElem? hmem)
    omega
  have hdrains : a.drains.map WatcherDrain.droppedEvents =
      a.drains.zipIdx.map fun r => r.1.droppedEvents := by
    conv_lhs => rw [← List.zipIdx_map_fst 0 a.drains]
    rw [List.map_map]
    rfl
  have hplaces : (a.drains.zipIdx.map fun r => Slot.reported r.2).Nodup := by
    have hindices : (a.drains.zipIdx.map Prod.snd).Nodup := by
      rw [List.zipIdx_map_snd]
      exact List.nodup_range' _
    have hplaces := hindices.map fun _ _ => Slot.reported.inj
    rwa [List.map_map] at hplaces
  have hlast : w.droppedEvents = countAt .dropped l := by
    have hcount := h.dropped.1
    have hless := hlimit.dropped
    omega
  rw [toldDropped, hdrains, sum_shown hshown hplaces, hlast]
  refine (countP_eq_add fun x hx => ?_).symm
  have hplace := h.places x hx
  cases hp : x.2 with
  | pending key => simp [Slot.isDropped]
  | removed i => simp [Slot.isDropped]
  | dropped => simp [Slot.isDropped]
  | reported i =>
    rw [hp] at hplace
    have hi : Slot.reported i ∈ a.drains.zipIdx.map fun r => Slot.reported r.2 :=
      List.mem_map.2 ⟨(a.drains.get ⟨i, hplace⟩, i),
        List.mem_zipIdx_iff_getElem?.2 (List.getElem?_eq_getElem hplace), rfl⟩
    simp [Slot.isDropped, hi]

theorem removedFor_add : removedFor a subscriptionId true + removedFor a subscriptionId false =
    ((a.removed.filter fun removal => decide (removal.wake.subscriptionId = subscriptionId)).map
      fun removal => removal.wake.coalescedCount).sum := by
  unfold removedFor
  induction a.removed with
  | nil => rfl
  | cons removal removed ih =>
    by_cases hid : removal.wake.subscriptionId = subscriptionId
    · cases hout : removal.handedOut <;> simp [hid, hout, ← ih] <;> omega
    · simpa [hid] using ih

/-- A subscription's matches are those at the places of its wakes and those that were dropped. -/
theorem Balanced.sum_matched (h : Balanced a w l) (hlimit : BelowLimits a w) :
    matchedFor a subscriptionId = removedFor a subscriptionId true + removedFor a subscriptionId false +
      pendingFor w subscriptionId + droppedFor subscriptionId l := by
  have hcount : matchedFor a subscriptionId =
      l.countP fun x => decide (x.1.subscriptionId = subscriptionId) := by
    rw [matchedFor, ← h.matched, List.countP_map]
    rfl
  have hplaces : (l.countP fun x => decide (x.1.subscriptionId = subscriptionId)) =
      (l.countP fun x => x.2.isRemoved && decide (x.1.subscriptionId = subscriptionId)) +
        l.countP fun x => !x.2.isRemoved && decide (x.1.subscriptionId = subscriptionId) := by
    refine countP_eq_add fun x _ => ?_
    cases x.2.isRemoved <;> simp
  have hothers : (l.countP fun x => !x.2.isRemoved && decide (x.1.subscriptionId = subscriptionId)) =
      (l.countP fun x => x.2.isPending && decide (x.1.subscriptionId = subscriptionId)) +
        droppedFor subscriptionId l := by
    refine countP_eq_add fun x _ => ?_
    cases x.2 <;> simp [Slot.isRemoved, Slot.isPending, Slot.isDropped]
  rw [removedFor_add, hcount, hplaces, hothers, ← h.sum_pending hlimit, ← h.sum_removed hlimit,
    Nat.add_assoc]

end Account

section Main

open Account AppEventWatcherService

variable {C : Chrono} {w w' : AppEventWatcherService} {b : Booking} {bs : List Booking}

theorem Books.handedOut (h : Books C w b w') :
    (b.removed.filter Removal.handedOut).map Removal.wake = b.drains.flatMap WatcherDrain.wakes := by
  have hdiscarded : ∀ entries, (Booking.discarded entries).filter Removal.handedOut = [] := by
    intro entries
    refine List.filter_eq_nil_iff.2 fun removal hr => ?_
    obtain ⟨entry, -, rfl⟩ := List.mem_map.1 hr
    exact Bool.false_ne_true
  cases h with
  | still | subscribe | reorder => rfl
  | unsubscribe | expire => exact congrArg _ (hdiscarded _)
  | ingest =>
    unfold Booking.ingested
    split
    · rfl
    · exact congrArg _ (hdiscarded _)
  | drain =>
    have hall : ∀ wakes : List AppEventWake, ((wakes.map fun wake => Removal.mk wake true).filter
        Removal.handedOut).map Removal.wake = wakes := by
      intro wakes
      induction wakes with
      | nil => rfl
      | cons wake wakes ih => exact congrArg (wake :: ·) ih
    simp only [Booking.drained, List.flatMap_cons, List.flatMap_nil, List.append_nil, hall]

theorem Account.book_handedOut {a : Account}
    (ha : (a.removed.filter Removal.handedOut).map Removal.wake = a.drains.flatMap WatcherDrain.wakes)
    (hrun : Run (Books C) w bs w') :
    ((bs.foldl book a).removed.filter Removal.handedOut).map Removal.wake =
      (bs.foldl book a).drains.flatMap WatcherDrain.wakes := by
  induction hrun generalizing a with
  | nil => exact ha
  | cons hb _ ih =>
    refine ih ?_
    simp only [book, List.filter_append, List.map_append, List.flatMap_append, ha, hb.handedOut]

theorem Account.handedOutFor_eq {a : Account} (subscriptionId : String)
    (ha : (a.removed.filter Removal.handedOut).map Removal.wake = a.drains.flatMap WatcherDrain.wakes) :
    a.handedOutFor subscriptionId = a.removedFor subscriptionId true := by
  rw [handedOutFor, removedFor, ← ha, List.filter_map, List.map_map, List.filter_filter]
  refine congrArg (fun l : List Removal => (l.map fun removal => removal.wake.coalescedCount).sum) ?_
  refine List.filter_congr fun removal _ => ?_
  cases removal.handedOut <;> simp

/-- In every run each match is counted in one place, and as long as no counter is at its maximum the wakes and what was
dropped add up to the matches. -/
theorem matches_counted_once {quietWindowMs : ℕ} {w₀ : AppEventWatcherService}
    (hnew : new quietWindowMs = .ok w₀) (hrun : Run (Books C) w₀ bs w) :
    ∃ l, Balanced (.of bs) w l ∧ (BelowLimits (.of bs) w →
      (∀ subscriptionId, matchedFor (.of bs) subscriptionId =
        handedOutFor (.of bs) subscriptionId + removedFor (.of bs) subscriptionId false +
          pendingFor w subscriptionId + droppedFor subscriptionId l) ∧
      toldDropped (.of bs) w = l.countP fun x => x.2.isDropped) := by
  obtain ⟨l, h⟩ := (balanced_start hnew).run hrun
  refine ⟨l, h, fun hlimit => ⟨fun subscriptionId => ?_, h.sum_dropped hlimit⟩⟩
  have hout : handedOutFor (.of bs) subscriptionId = removedFor (.of bs) subscriptionId true :=
    handedOutFor_eq _ (book_handedOut rfl hrun)
  rw [hout]
  exact h.sum_matched hlimit

end Main

/-! ## A wake for many events -/

section Numbered

open Account AppEventWatcherService

/-- The digits of a number in base two. -/
def eventName (n : ℕ) : String :=
  .ofList ((List.range 32).map fun i => if n.testBit i then '1' else '0')

theorem eventName_inj {n m : ℕ} (hn : n < 2 ^ 32) (hm : m < 2 ^ 32) (h : eventName n = eventName m) :
    n = m := by
  have hdigits := List.map_inj_left.1 (String.ofList_inj.1 h)
  refine Nat.eq_of_testBit_eq fun i => ?_
  by_cases hi : i < 32
  · have hdigit := hdigits i (List.mem_range.2 hi)
    revert hdigit
    cases n.testBit i <;> cases m.testBit i <;> decide
  · have hpow : 2 ^ 32 ≤ 2 ^ i := Nat.pow_le_pow_right (by decide) (not_lt.1 hi)
    rw [Nat.testBit_lt_two_pow (hn.trans_le hpow), Nat.testBit_lt_two_pow (hm.trans_le hpow)]

theorem bytes_eventName (n : ℕ) :
    bytes (eventName n) = (List.range 32).map fun i => if n.testBit i then 0x31 else 0x30 := by
  rw [eventName, bytes_ofList, List.flatMap_map, List.map_eq_flatMap]
  refine List.flatMap_congr fun i _ => ?_
  cases n.testBit i <;> decide

theorem boundedIdentifier_eventName (n : ℕ) : boundedIdentifier (eventName n) "eventId" 160 = .ok () := by
  have hsize : (eventName n).utf8ByteSize = 32 := by
    rw [← length_bytes, bytes_eventName, List.length_map, List.length_range]
  have hall : (bytes (eventName n)).all Signal.isIdentifierByte = true := by
    rw [bytes_eventName, List.all_map, List.all_eq_true]
    intro i _
    cases hi : n.testBit i <;> simp only [Function.comp_apply, hi] <;> decide
  have hne : (eventName n).isEmpty = false := by
    rw [String.isEmpty_eq_false_iff]
    rintro hempty
    rw [hempty] at hsize
    cases hsize
  unfold boundedIdentifier
  rw [hall, hsize, hne]
  rfl

def numbered (n : ℕ) : AppEventSignal where
  eventId := eventName n
  cursor := "cursor-1"
  appId := "wechat"
  resourceRef := "wechat:conversation:meimei"
  kind := .contentChanged
  observedAt := "2026-08-31T00:00:01Z"

def numberedBatch (n : ℕ) : WatcherBatch := { chatBatch with events := [numbered n] }

def chatKey : PendingKey := Match.key ⟨"sub-wechat", numbered 0⟩

/-- The watcher after so many changes of the conversation, none of which was handed out. -/
structure Counting (n : ℕ) (w : AppEventWatcherService) : Prop where
  subscriptions : w.subscriptions.rows = [chatSubscription]
  keys : ∀ entry ∈ w.pending, entry.key = chatKey
  seen : ∀ eventId ∈ w.seenOrder, ∃ m < n, eventId = eventName m
  dropped : w.droppedEvents = 0

theorem Counting.length_le {n : ℕ} {w : AppEventWatcherService} (h : Counting n w) :
    w.pending.rows.length ≤ 1 := by
  have hkeys : w.pending.rows.map PendingEntry.key = List.replicate w.pending.rows.length chatKey :=
    List.eq_replicate_iff.2 ⟨List.length_map _, fun key hkey => by
      obtain ⟨entry, he, rfl⟩ := List.mem_map.1 hkey
      exact h.keys entry he⟩
  have hnodup := w.pending.nodup
  rw [hkeys, List.nodup_replicate] at hnodup
  exact hnodup

theorem validate_numberedBatch (n : ℕ) : chrono.validateBatch (numberedBatch n) = .ok () := by
  have hsource : boundedIdentifier "atspi" "sourceId" 64 = .ok () := by decide
  have hcursor : boundedIdentifier "cursor-1" "cursor" 512 = .ok () := by decide
  have hcursor' : boundedIdentifier "cursor-1" "event cursor" 512 = .ok () := by decide
  have happ : boundedIdentifier "wechat" "appId" 64 = .ok () := by decide
  have hresource : boundedIdentifier "wechat:conversation:meimei" "resourceRef" 200 = .ok () := by decide
  have htime : ∃ t, chrono.parseTime "2026-08-31T00:00:01Z" = .ok t := ⟨_, by rfl⟩
  obtain ⟨t, htime⟩ := htime
  have hsignal : chrono.validateSignal (numbered n) = .ok () := by
    simp only [Chrono.validateSignal, numbered, boundedIdentifier_eventName, hcursor', happ, hresource, htime]
    rfl
  simp only [Chrono.validateBatch, numberedBatch, chatBatch, hsource, hcursor]
  show (chrono.validateSignal (numbered n) >>= fun _ => .ok ()) = .ok ()
  rw [hsignal]
  rfl

theorem Counting.expire {n : ℕ} {w : AppEventWatcherService} (h : Counting n w) :
    w.expireSubscriptions chrono (Signal.reference.clock 0 0 1) = w := by
  have hgone : (w.subscriptions.rows.filter (chrono.expired (Signal.reference.clock 0 0 1))).map
      AppEventSubscription.subscriptionId = [] := by
    rw [h.subscriptions]
    decide +kernel
  have hsubscriptions : (w.subscriptions.deleteWhere fun s => List.contains [] s.subscriptionId) =
      w.subscriptions := Table.deleteWhere_eq_self fun _ _ => rfl
  have hpending : (w.pending.deleteWhere fun entry => List.contains [] entry.key.subscriptionId) =
      w.pending := Table.deleteWhere_eq_self fun _ _ => rfl
  unfold expireSubscriptions
  rw [hgone]
  dsimp only
  rw [hsubscriptions, hpending]

theorem Counting.admitFor {n : ℕ} {w : AppEventWatcherService} (h : Counting n w) (m : ℕ) :
    Counting n (w.admitFor (numbered m) 1 "sub-wechat").2 := by
  unfold AppEventWatcherService.admitFor
  dsimp only
  split
  · refine ⟨h.subscriptions, fun entry he => ?_, h.seen, h.dropped⟩
    obtain ⟨old, hold, rfl⟩ := (Table.mem_updateWhere (PendingEntry.key_coalesce (numbered m) 1)).1 he
    have hkey := h.keys old hold
    split_ifs
    · exact hkey
    · exact hkey
  · have hlength := h.length_le
    rw [if_neg (by omega)]
    refine ⟨h.subscriptions, fun entry he => ?_, h.seen, h.dropped⟩
    rcases Table.mem_upsert.1 he with rfl | ⟨hold, -⟩
    · rfl
    · exact h.keys entry hold

theorem Counting.ingest {n : ℕ} {w : AppEventWatcherService} (h : Counting n w) (hn : n < 2 ^ 32) :
    Counting (n + 1) (w.ingest chrono (numberedBatch n) (Signal.reference.clock 0 0 1) 1).2 ∧
      (Booking.ingested chrono w (numberedBatch n) (Signal.reference.clock 0 0 1)).matched =
        [⟨"sub-wechat", numbered n⟩] ∧
      (Booking.ingested chrono w (numberedBatch n) (Signal.reference.clock 0 0 1)).removed = [] := by
  have hnew : eventName n ∉ w.seenOrder := by
    intro hmem
    obtain ⟨m, hm, hname⟩ := h.seen _ hmem
    exact hm.ne (eventName_inj hn (hm.trans hn) hname).symm
  have hmatching : ∀ order, AppEventWatcherService.matching { w with seenOrder := order } (numbered n) =
      ["sub-wechat"] := by
    intro order
    show (w.subscriptions.rows.filter _).map _ = _
    rw [h.subscriptions]
    rfl
  have hlost : w.lost w = [] := by
    refine List.filter_eq_nil_iff.2 fun entry he => ?_
    rw [Table.find?_of_mem he]
    exact Bool.false_ne_true
  have hsize : ¬ 512 < (numberedBatch n).events.length := by
    show ¬ 512 < 1
    decide
  have hremember : ∃ order, w.remember (numbered n).eventId = some { w with seenOrder := order } ∧
      ∀ eventId ∈ order, ∃ m < n + 1, eventId = eventName m := by
    refine ⟨_, if_neg hnew, fun eventId hmem => ?_⟩
    rcases List.mem_append.1 (List.mem_of_mem_drop hmem) with hmem | hmem
    · obtain ⟨m, hm, hname⟩ := h.seen _ hmem
      exact ⟨m, hm.trans (Nat.lt_succ_self n), hname⟩
    · exact ⟨n, Nat.lt_succ_self n, List.mem_singleton.1 hmem⟩
  obtain ⟨order, hremember, hseen⟩ := hremember
  unfold AppEventWatcherService.ingest Booking.ingested
  rw [validate_numberedBatch, h.expire]
  dsimp only
  rw [if_neg hsize, if_neg hsize]
  have hone : Counting (n + 1) { w with seenOrder := order } := ⟨h.subscriptions, h.keys, hseen, h.dropped⟩
  have hadmitted := hone.admitFor n
  refine ⟨?_, ?_, congrArg Booking.discarded hlost⟩
  · simp only [numberedBatch, ingestSignals, hremember, hmatching, admitAll]
    exact ⟨hadmitted.subscriptions, hadmitted.keys, hadmitted.seen, hadmitted.dropped⟩
  · simp only [numberedBatch, matchesOf, hremember, hmatching]
    rfl

theorem counting_subscribe : ∃ w₀ w, new 0 = .ok w₀ ∧
    w₀.subscribe chrono chatSubscription (Signal.reference.clock 0 0 0) = .ok w ∧ Counting 0 w := by
  have hall : ((new 0).bind fun w => (w.subscribe chrono chatSubscription (Signal.reference.clock 0 0 0)).map
      fun w => (w.subscriptions.rows, w.pending.rows, w.seenOrder, w.droppedEvents)) =
        .ok ([chatSubscription], [], [], 0) := by
    decide +kernel
  obtain ⟨w₀, hnew, hall⟩ := bind_ok_iff.1 hall
  obtain ⟨w, hsubscribe, hw⟩ := map_ok_iff.1 hall
  obtain ⟨hsubs, hpending, hseen, hdropped⟩ := by simpa only [Prod.mk.injEq] using hw
  refine ⟨w₀, w, hnew, hsubscribe, hsubs, ?_, ?_, hdropped⟩
  · simp [Table.mem_iff, hpending]
  · simp [hseen]

theorem run_numbered {n : ℕ} (hn : n ≤ 2 ^ 32) : ∃ w₀ w bs, new 0 = .ok w₀ ∧ Run (Books chrono) w₀ bs w ∧
    Counting n w ∧ matchedFor (.of bs) "sub-wechat" = n ∧ (Account.of bs).matched.length = n ∧
      (Account.of bs).removed = [] ∧ (Account.of bs).drains = [] := by
  induction n with
  | zero =>
    obtain ⟨w₀, w, hnew, hsubscribe, hcounting⟩ := counting_subscribe
    exact ⟨w₀, w, _, hnew, .single (.subscribe hsubscribe), hcounting, rfl, rfl, rfl, rfl⟩
  | succ n ih =>
    obtain ⟨w₀, w, bs, hnew, hrun, hcounting, hfor, hmatched, hremoved, hdrains⟩ := ih (by omega)
    obtain ⟨hnext, hone, hnone⟩ := hcounting.ingest (by omega)
    refine ⟨w₀, _, _, hnew, hrun.snoc (.ingest w (numberedBatch n) (Signal.reference.clock 0 0 1) 1), hnext, ?_⟩
    have hof : Account.of (bs ++ [Booking.ingested chrono w (numberedBatch n)
        (Signal.reference.clock 0 0 1)]) = (Account.of bs).book _ := List.foldl_concat ..
    have hdrained : (Booking.ingested chrono w (numberedBatch n) (Signal.reference.clock 0 0 1)).drains =
        [] := by
      unfold Booking.ingested
      split <;> rfl
    rw [hof]
    refine ⟨?_, ?_, ?_, ?_⟩
    · rw [matchedFor, book, hone, List.countP_append]
      exact congrArg (· + 1) hfor
    · rw [book, hone, List.length_append, hmatched]
      rfl
    · rw [book, hnone, hremoved]
      rfl
    · rw [book, hdrains, hdrained]
      rfl

theorem matches_counted_once_numbered : ∃ w₀ w bs l, new 0 = .ok w₀ ∧ Run (Books chrono) w₀ bs w ∧
    matchedFor (.of bs) "sub-wechat" = 2 ∧ Balanced (.of bs) w l ∧
      2 = handedOutFor (.of bs) "sub-wechat" + removedFor (.of bs) "sub-wechat" false +
        pendingFor w "sub-wechat" + droppedFor "sub-wechat" l := by
  obtain ⟨w₀, w, bs, hnew, hrun, hcounting, hfor, hmatched, hremoved, hdrains⟩ :=
    run_numbered (show 2 ≤ 2 ^ 32 by decide)
  obtain ⟨l, h, hsums⟩ := matches_counted_once hnew hrun
  have hlength : l.length = 2 := by
    rw [← hmatched, ← h.matched, List.length_map]
  have hlimit : BelowLimits (.of bs) w := by
    refine ⟨fun entry he => ?_, by simp [hremoved], by simp [hdrains], ?_⟩
    · have hcount := h.pending entry he
      have hle : countAt (.pending entry.key) l ≤ l.length := List.countP_le_length
      show entry.item.coalescedCount < 2 ^ 32 - 1
      omega
    · rw [hcounting.dropped]
      decide
  refine ⟨w₀, w, bs, l, hnew, hrun, hfor, h, ?_⟩
  rw [← hfor]
  exact (hsums hlimit).1 "sub-wechat"

/-- After `2 ^ 32` changes of the conversation its wake counts one less. -/
theorem counter_saturates : ¬ ∀ quietWindowMs w₀ bs w, new quietWindowMs = .ok w₀ →
    Run (Books chrono) w₀ bs w → (Account.of bs).matched.length =
      ((Account.of bs).removed.map fun removal => removal.wake.coalescedCount).sum +
        (w.pending.rows.map fun entry => entry.item.coalescedCount).sum + toldDropped (.of bs) w := by
  intro h
  obtain ⟨w₀, w, bs, hnew, hrun, hcounting, -, hmatched, hremoved, hdrains⟩ := run_numbered le_rfl
  obtain ⟨l, hl⟩ := (balanced_start hnew).run hrun
  have hsum := h 0 w₀ bs w hnew hrun
  rw [hmatched, hremoved, toldDropped, hdrains, hcounting.dropped] at hsum
  have hcount : (w.pending.rows.map fun entry => entry.item.coalescedCount).sum ≤ maxCoalesced := by
    have hlength := hcounting.length_le
    rcases hrows : w.pending.rows with _ | ⟨entry, _ | ⟨entry', rows⟩⟩
    · exact Nat.zero_le _
    · have hentry := hl.pending entry (Table.mem_iff.2 (hrows ▸ List.mem_singleton_self entry))
      rw [List.map_singleton, List.sum_singleton, hentry]
      exact min_le_right ..
    · rw [hrows] at hlength
      simp at hlength
  simp only [List.map_nil, List.sum_nil, Nat.zero_add, Nat.add_zero] at hsum
  rw [← hsum] at hcount
  exact absurd hcount (by decide)

end Numbered

end Wiii.Neko.AppEvents
