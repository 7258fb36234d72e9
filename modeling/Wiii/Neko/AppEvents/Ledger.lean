import Wiii.Neko.AppEvents.Liveness

/-!
# Where the events are counted

An event that matches a subscription is counted for it in one place: in a wake that was handed out, in one that is
pending or was discarded, or among the dropped events of a drain.  A `Ledger` says which place that is for each match,
and it is `Balanced` when every counter of the watcher shows how many matches are at its place, or the most that it can
show.
-/

namespace Wiii.Neko.AppEvents

structure Match where
  subscriptionId : String
  signal : AppEventSignal
  deriving DecidableEq

def Match.key (m : Match) : PendingKey where
  subscriptionId := m.subscriptionId
  appId := m.signal.appId
  resourceRef := m.signal.resourceRef
  kind := m.signal.kind

def AppEventWake.key (wake : AppEventWake) : PendingKey where
  subscriptionId := wake.subscriptionId
  appId := wake.appId
  resourceRef := wake.resourceRef
  kind := wake.kind

namespace AppEventWatcherService

/-- The matches of the signals whose ids are not remembered. -/
def matchesOf : List AppEventSignal → AppEventWatcherService → List Match
  | [], _ => []
  | signal :: signals, w =>
    match w.remember signal.eventId with
    | none => matchesOf signals w
    | some w => (w.matching signal).map (Match.mk · signal) ++ matchesOf signals w

variable (w : AppEventWatcherService)

def lost (w' : AppEventWatcherService) : List PendingEntry :=
  w.pending.rows.filter fun entry => (w'.pending.find? entry.key).isNone

end AppEventWatcherService

/-! ## The books -/

/-- A pending wake that was removed, to be handed out or not. -/
structure Removal where
  wake : AppEventWake
  handedOut : Bool

structure Booking where
  matched : List Match := []
  removed : List Removal := []
  drains : List WatcherDrain := []

namespace Booking

def discarded (entries : List PendingEntry) : List Removal := entries.map fun entry => ⟨entry.wake, false⟩

/-- A drain, and the wakes that it hands out. -/
def drained (drain : WatcherDrain) : Booking where
  removed := drain.wakes.map fun wake => ⟨wake, true⟩
  drains := [drain]

/-- An ingest of a valid batch: what is lost to the expiry, and the matches. -/
def ingested (C : Chrono) (w : AppEventWatcherService) (batch : WatcherBatch) (now : Instant) : Booking :=
  let live := w.expireSubscriptions C now
  match C.validateBatch batch with
  | .error _ => {}
  | .ok () =>
    { matched := if 512 < batch.events.length then [] else live.matchesOf batch.events
      removed := discarded (w.lost live) }

end Booking

section Books

open Booking

variable (C : Chrono)

/-- The steps of the watcher, with what is matched, removed and drained. -/
inductive Books : AppEventWatcherService → Booking → AppEventWatcherService → Prop
  | still (w : AppEventWatcherService) : Books w {} w
  | subscribe {w w' : AppEventWatcherService} {subscription : AppEventSubscription} {now : Instant}
      (h : w.subscribe C subscription now = .ok w') : Books w {} w'
  | unsubscribe (w : AppEventWatcherService) (subscriptionId : String) :
      Books w { removed := discarded (w.lost (w.unsubscribe subscriptionId).2) }
        (w.unsubscribe subscriptionId).2
  | ingest (w : AppEventWatcherService) (batch : WatcherBatch) (now : Instant) (receivedAtMs : ℕ) :
      Books w (ingested C w batch now) (w.ingest C batch now receivedAtMs).2
  | expire (w : AppEventWatcherService) (now : Instant) :
      Books w { removed := discarded (w.lost (w.expireSubscriptions C now)) }
        (w.expireSubscriptions C now)
  | drain (w : AppEventWatcherService) (nowMs limit : ℕ) :
      Books w (drained (w.drainReady nowMs limit).1) (w.drainReady nowMs limit).2
  | reorder (w : AppEventWatcherService) (subscriptions : Table AppEventSubscription.subscriptionId)
      (pending : Table PendingEntry.key) (hs : subscriptions.rows.Perm w.subscriptions.rows)
      (hp : pending.rows.Perm w.pending.rows) :
      Books w {} { w with subscriptions := subscriptions, pending := pending }

variable {C}

end Books

structure Account where
  matched : List Match
  removed : List Removal
  drains : List WatcherDrain

namespace Account

def start : Account := ⟨[], [], []⟩

def book (a : Account) (b : Booking) : Account where
  matched := a.matched ++ b.matched
  removed := a.removed ++ b.removed
  drains := a.drains ++ b.drains

def of (bookings : List Booking) : Account := bookings.foldl book start

end Account

/-! ## Ledgers -/

inductive Slot where
  | pending (key : PendingKey)
  /-- The wake that was removed as the `i`-th. -/
  | removed (i : ℕ)
  /-- The events that are reported as dropped by the `i`-th drain. -/
  | reported (i : ℕ)
  /-- The events that are dropped since the last drain. -/
  | dropped
  deriving DecidableEq

abbrev Ledger := List (Match × Slot)

/-- How many matches are at the place. -/
def countAt (p : Slot) (l : Ledger) : ℕ := l.countP fun x => decide (x.2 = p)

def move (p q : Slot) (l : Ledger) : Ledger := l.map fun x => if x.2 = p then (x.1, q) else x

def maxCoalesced : ℕ := 2 ^ 32 - 1
def maxDropped : ℕ := 2 ^ 64 - 1

namespace Account

variable (a : Account) (w : AppEventWatcherService)

def Has (m : Match) : Slot → Prop
  | .pending key => key = m.key ∧ ∃ entry ∈ w.pending, entry.key = key
  | .removed i => ∃ removal, a.removed[i]? = some removal ∧ removal.wake.key = m.key
  | .reported i => i < a.drains.length
  | .dropped => True

/-- The counter shows the number of matches, or its maximum, and a gap is told if there are any. -/
def Told (gapDetected : Bool) (droppedEvents n : ℕ) : Prop :=
  droppedEvents = min n maxDropped ∧ (0 < n → gapDetected = true)

/-- It has all matches, each at a place that is there, and the counters agree. -/
structure Balanced (l : Ledger) : Prop where
  matched : l.map Prod.fst = a.matched
  places : ∀ x ∈ l, a.Has w x.1 x.2
  keyed : ∀ entry ∈ w.pending, entry.wake.key = entry.key
  pending : ∀ entry ∈ w.pending, entry.item.coalescedCount = min (countAt (.pending entry.key) l) maxCoalesced
  removed : ∀ (i : ℕ) removal, a.removed[i]? = some removal →
    removal.wake.coalescedCount = min (countAt (.removed i) l) maxCoalesced
  reported : ∀ (i : ℕ) drain, a.drains[i]? = some drain →
    Told drain.gapDetected drain.droppedEvents (countAt (.reported i) l)
  dropped : Told w.gapDetected w.droppedEvents (countAt .dropped l)

end Account

/-! ## Counting -/

section Counting

variable {l : Ledger} {p q r : Slot} {m : Match}

theorem countAt_snoc : countAt p (l ++ [(m, q)]) = countAt p l + if q = p then 1 else 0 := by
  simp [countAt, List.countP_append, List.countP_cons]

theorem countAt_eq_zero (h : ∀ x ∈ l, x.2 ≠ p) : countAt p l = 0 :=
  List.countP_eq_zero.2 fun x hx => by simpa using h x hx

theorem map_fst_move : (move p q l).map Prod.fst = l.map Prod.fst := by
  rw [move, List.map_map]
  refine List.map_congr_left fun x _ => ?_
  simp only [Function.comp_apply]
  split_ifs <;> rfl

theorem mem_move {x : Match × Slot} (hx : x ∈ move p q l) :
    ∃ y ∈ l, x.1 = y.1 ∧ (y.2 = p ∧ x.2 = q ∨ y.2 ≠ p ∧ x.2 = y.2) := by
  obtain ⟨y, hy, rfl⟩ := List.mem_map.1 hx
  refine ⟨y, hy, ?_⟩
  split_ifs with hp
  · exact ⟨rfl, .inl ⟨hp, rfl⟩⟩
  · exact ⟨rfl, .inr ⟨hp, rfl⟩⟩

theorem countAt_move (hq : countAt q l = 0) :
    countAt q (move p q l) = countAt p l := by
  induction l with
  | nil => rfl
  | cons x l ih =>
    simp only [countAt, move, List.map_cons, List.countP_cons] at hq ih ⊢
    have hx : x.2 ≠ q := by
      intro hx
      simp [hx] at hq
    rw [ih (by omega)]
    by_cases hp : x.2 = p <;> simp [hp, hx]

theorem countAt_move_of_ne (hp : r ≠ p) (hq : r ≠ q) : countAt r (move p q l) = countAt r l := by
  rw [countAt, move, List.countP_map, countAt]
  refine List.countP_congr fun x _ => ?_
  by_cases hx : x.2 = p
  · simp [hx, Ne.symm hp, Ne.symm hq]
  · simp [hx]

end Counting

/-! ## What matches -/

namespace AppEventWatcherService

variable {w w' : AppEventWatcherService}

theorem remember_frame {eventId : String} (h : w.remember eventId = some w') :
    w'.subscriptions = w.subscriptions ∧ w'.pending = w.pending ∧ w'.gapDetected = w.gapDetected ∧
      w'.droppedEvents = w.droppedEvents := by
  unfold remember at h
  split_ifs at h
  cases h
  exact ⟨rfl, rfl, rfl, rfl⟩

theorem admitFor_frame (w : AppEventWatcherService) (signal : AppEventSignal) (receivedAtMs : ℕ)
    (subscriptionId : String) :
    (w.admitFor signal receivedAtMs subscriptionId).2.subscriptions = w.subscriptions ∧
      (w.admitFor signal receivedAtMs subscriptionId).2.seenOrder = w.seenOrder := by
  unfold admitFor
  dsimp only
  split
  · exact ⟨rfl, rfl⟩
  · split_ifs <;> exact ⟨rfl, rfl⟩

theorem admitAll_frame (signal : AppEventSignal) (receivedAtMs : ℕ) (subscriptionIds : List String)
    (w : AppEventWatcherService) :
    (admitAll signal receivedAtMs subscriptionIds w).2.subscriptions = w.subscriptions ∧
      (admitAll signal receivedAtMs subscriptionIds w).2.seenOrder = w.seenOrder := by
  induction subscriptionIds generalizing w with
  | nil => exact ⟨rfl, rfl⟩
  | cons id ids ih =>
    have hone := admitFor_frame w signal receivedAtMs id
    exact ⟨(ih _).1.trans hone.1, (ih _).2.trans hone.2⟩

theorem matchesOf_congr {signals : List AppEventSignal} (hs : w'.subscriptions = w.subscriptions)
    (ho : w'.seenOrder = w.seenOrder) : w'.matchesOf signals = w.matchesOf signals := by
  induction signals generalizing w w' with
  | nil => rfl
  | cons signal signals ih =>
    unfold matchesOf remember
    rw [ho]
    split_ifs
    · exact ih hs ho
    · refine congrArg₂ (· ++ ·) ?_ (ih hs rfl)
      simp only [matching, hs]

end AppEventWatcherService

/-! ## What keeps the ledger balanced -/

namespace Account

open AppEventWatcherService

variable {a : Account} {w w' : AppEventWatcherService} {l : Ledger}

theorem Has.of_pending {m : Match} {p : Slot} (h : a.Has w m p)
    (hp : ∀ entry ∈ w.pending, ∃ entry' ∈ w'.pending, entry'.key = entry.key) : a.Has w' m p := by
  cases p with
  | pending key =>
    obtain ⟨hkey, entry, he, rfl⟩ := h
    obtain ⟨entry', he', hkey'⟩ := hp entry he
    exact ⟨hkey, entry', he', hkey'⟩
  | removed | reported | dropped => exact h

theorem Balanced.congr (h : Balanced a w l) (hp : ∀ entry, entry ∈ w'.pending ↔ entry ∈ w.pending)
    (hg : w.gapDetected = true → w'.gapDetected = true) (hd : w'.droppedEvents = w.droppedEvents) :
    Balanced a w' l where
  matched := h.matched
  places := fun x hx => (h.places x hx).of_pending fun entry he => ⟨entry, (hp entry).2 he, rfl⟩
  keyed := fun entry he => h.keyed entry ((hp entry).1 he)
  pending := fun entry he => h.pending entry ((hp entry).1 he)
  removed := h.removed
  reported := h.reported
  dropped := ⟨hd.trans h.dropped.1, fun hn => hg (h.dropped.2 hn)⟩

theorem Balanced.coalesced (h : Balanced a w l) {m : Match} {pending : Table PendingEntry.key}
    (hkey : ∃ entry ∈ pending, entry.key = m.key)
    (hkept : ∀ entry ∈ w.pending, ∃ entry' ∈ pending, entry'.key = entry.key)
    (hold : ∀ entry ∈ pending, entry.key ≠ m.key → entry ∈ w.pending)
    (hnew : ∀ entry ∈ pending, entry.key = m.key → entry.wake.key = m.key ∧
      entry.item.coalescedCount = min (countAt (.pending m.key) l + 1) maxCoalesced) :
    Balanced { a with matched := a.matched ++ [m] } { w with pending := pending }
      (l ++ [(m, .pending m.key)]) where
  matched := by simp [h.matched]
  places := by
    intro x hx
    rcases List.mem_append.1 hx with hx | hx
    · exact (h.places x hx).of_pending hkept
    · rw [List.mem_singleton.1 hx]
      exact ⟨rfl, hkey⟩
  keyed := by
    intro entry he
    by_cases hm : entry.key = m.key
    · exact (hnew entry he hm).1.trans hm.symm
    · exact h.keyed entry (hold entry he hm)
  pending := by
    intro entry he
    rw [countAt_snoc]
    by_cases hm : entry.key = m.key
    · rw [(hnew entry he hm).2, hm, if_pos rfl]
    · rw [h.pending entry (hold entry he hm), if_neg fun heq => hm (Slot.pending.inj heq).symm,
        Nat.add_zero]
  removed := by
    intro i removal hi
    simpa [countAt_snoc] using h.removed i removal hi
  reported := by
    intro i drain hi
    simpa [countAt_snoc] using h.reported i drain hi
  dropped := by simpa [countAt_snoc] using h.dropped

theorem Balanced.droppedMatch (h : Balanced a w l) (m : Match) :
    Balanced { a with matched := a.matched ++ [m] }
      { w with droppedEvents := min (w.droppedEvents + 1) maxDropped, gapDetected := true }
      (l ++ [(m, .dropped)]) where
  matched := by simp [h.matched]
  places := by
    intro x hx
    rcases List.mem_append.1 hx with hx | hx
    · exact h.places x hx
    · rw [List.mem_singleton.1 hx]
      trivial
  keyed := h.keyed
  pending := by
    intro entry he
    simpa [countAt_snoc] using h.pending entry he
  removed := by
    intro i removal hi
    simpa [countAt_snoc] using h.removed i removal hi
  reported := by
    intro i drain hi
    simpa [countAt_snoc] using h.reported i drain hi
  dropped := by
    refine ⟨?_, fun _ => rfl⟩
    have hcount := h.dropped.1
    simp only [countAt_snoc, if_true, hcount]
    omega

theorem Balanced.countAt_pending_eq_zero (h : Balanced a w l) {key : PendingKey}
    (hkey : w.pending.find? key = none) : countAt (.pending key) l = 0 := by
  refine countAt_eq_zero fun x hx hp => ?_
  have hplace := h.places x hx
  rw [hp] at hplace
  obtain ⟨-, entry, he, hentry⟩ := hplace
  exact Table.find?_eq_none_iff.1 hkey entry he hentry

theorem Balanced.admitFor (h : Balanced a w l) (m : Match) (receivedAtMs : ℕ) :
    ∃ l', Balanced { a with matched := a.matched ++ [m] }
      (w.admitFor m.signal receivedAtMs m.subscriptionId).2 l' := by
  have hkeys := PendingEntry.key_coalesce m.signal receivedAtMs
  have hsame : (⟨m.subscriptionId, m.signal.appId, m.signal.resourceRef, m.signal.kind⟩ : PendingKey) = m.key := rfl
  unfold AppEventWatcherService.admitFor
  rw [hsame]
  dsimp only
  cases hfind : w.pending.find? m.key with
  | some current =>
    have hcurrent := Table.mem_of_find? hfind
    have hkey := Table.key_of_find? hfind
    have hmem : ∀ entry ∈ w.pending, (if decide (entry.key = m.key) = true
        then entry.coalesce m.signal receivedAtMs else entry) ∈
          w.pending.update m.key (fun entry => entry.coalesce m.signal receivedAtMs) :=
      fun entry he => (Table.mem_updateWhere hkeys).2 ⟨entry, he, rfl⟩
    refine ⟨_, h.coalesced ⟨_, hmem current hcurrent, ?_⟩ ?_ ?_ ?_⟩
    · rw [if_pos (decide_eq_true hkey)]
      exact hkey
    · intro entry he
      refine ⟨_, hmem entry he, ?_⟩
      split_ifs <;> rfl
    · intro entry he hne
      obtain ⟨old, hold, rfl⟩ := (Table.mem_updateWhere hkeys).1 he
      split_ifs at hne ⊢ with hold'
      · exact absurd (of_decide_eq_true hold') hne
      · exact hold
    · intro entry he hm
      obtain ⟨old, hold, rfl⟩ := (Table.mem_updateWhere hkeys).1 he
      split_ifs at hm ⊢ with hold'
      · have hkey' : old.key = m.key := of_decide_eq_true hold'
        refine ⟨?_, ?_⟩
        · show PendingKey.mk old.key.subscriptionId _ _ _ = m.key
          rw [hkey']
          rfl
        · have hcount := h.pending old hold
          rw [hkey'] at hcount
          show min (old.item.coalescedCount + 1) maxCoalesced = _
          omega
      · exact absurd (decide_eq_true hm) hold'
  | none =>
    have hzero := h.countAt_pending_eq_zero hfind
    have hnone := Table.find?_eq_none_iff.1 hfind
    dsimp only
    split_ifs
    · exact ⟨_, h.droppedMatch m⟩
    · refine ⟨_, h.coalesced ⟨_, Table.mem_upsert.2 (.inl rfl), rfl⟩ ?_ ?_ ?_⟩
      · exact fun entry he => ⟨entry, Table.mem_upsert.2 (.inr ⟨he, hnone entry he⟩), rfl⟩
      · intro entry he hne
        rcases Table.mem_upsert.1 he with rfl | ⟨he, -⟩
        · exact absurd rfl hne
        · exact he
      · intro entry he hm
        rcases Table.mem_upsert.1 he with rfl | ⟨he, -⟩
        · refine ⟨rfl, ?_⟩
          rw [hzero]
          rfl
        · exact absurd hm (hnone entry he)

theorem Balanced.admitAll (h : Balanced a w l) (signal : AppEventSignal) (receivedAtMs : ℕ)
    (subscriptionIds : List String) :
    ∃ l', Balanced { a with matched := a.matched ++ subscriptionIds.map (Match.mk · signal) }
      (admitAll signal receivedAtMs subscriptionIds w).2 l' := by
  induction subscriptionIds generalizing a w l with
  | nil =>
    refine ⟨l, ?_⟩
    show Balanced { a with matched := a.matched ++ [] } w l
    rwa [List.append_nil]
  | cons id ids ih =>
    obtain ⟨l₁, h₁⟩ := h.admitFor ⟨id, signal⟩ receivedAtMs
    obtain ⟨l₂, h₂⟩ := ih h₁
    refine ⟨l₂, ?_⟩
    rwa [List.append_assoc] at h₂

theorem Balanced.ingestSignals (h : Balanced a w l) (receivedAtMs : ℕ) (signals : List AppEventSignal) :
    ∃ l', Balanced { a with matched := a.matched ++ w.matchesOf signals }
      (ingestSignals receivedAtMs signals w).2 l' := by
  induction signals generalizing a w l with
  | nil =>
    refine ⟨l, ?_⟩
    show Balanced { a with matched := a.matched ++ [] } w l
    rwa [List.append_nil]
  | cons signal signals ih =>
    unfold AppEventWatcherService.ingestSignals matchesOf
    cases hseen : w.remember signal.eventId with
    | none => exact ih h
    | some w₁ =>
      dsimp only
      obtain ⟨-, hpending, hgap, hdropped⟩ := remember_frame hseen
      have h₁ : Balanced a w₁ l := by
        refine h.congr (fun entry => ?_) ?_ hdropped
        · rw [hpending]
        · exact fun hg => hgap.trans hg
      obtain ⟨l₂, h₂⟩ := h₁.admitAll signal receivedAtMs (w₁.matching signal)
      obtain ⟨l₃, h₃⟩ := ih h₂
      refine ⟨l₃, ?_⟩
      rwa [List.append_assoc, matchesOf_congr (admitAll_frame ..).1 (admitAll_frame ..).2] at h₃

theorem Has.of_removed {m : Match} {p : Slot} (h : a.Has w m p) (removed : List Removal) :
    Has { a with removed := a.removed ++ removed } w m p := by
  cases p with
  | removed i =>
    obtain ⟨removal, hi, hkey⟩ := h
    exact ⟨removal, List.getElem?_append_left (List.getElem?_eq_some_iff.1 hi).1 ▸ hi, hkey⟩
  | pending | reported | dropped => exact h

theorem Balanced.remove (h : Balanced a w l) {entry : PendingEntry} (he : entry ∈ w.pending)
    (handedOut : Bool) :
    Balanced { a with removed := a.removed ++ [⟨entry.wake, handedOut⟩] }
      { w with pending := w.pending.delete entry.key }
      (move (.pending entry.key) (.removed a.removed.length) l) := by
  have hzero : countAt (.removed a.removed.length) l = 0 := by
    refine countAt_eq_zero fun x hx hp => ?_
    have hplace := h.places x hx
    rw [hp] at hplace
    obtain ⟨removal, hi, -⟩ := hplace
    exact absurd (List.getElem?_eq_some_iff.1 hi).1 (lt_irrefl _)
  have hstays : ∀ {e : PendingEntry}, e ∈ w.pending.delete entry.key ↔ e ∈ w.pending ∧ e.key ≠ entry.key := by
    intro e
    rw [Table.delete, Table.mem_deleteWhere, decide_eq_false_iff_not]
  refine ⟨map_fst_move.trans h.matched, ?_, ?_, ?_, ?_, ?_, ?_⟩
  · intro x hx
    obtain ⟨y, hy, hxy, hcase⟩ := mem_move hx
    have hplace := h.places y hy
    rw [hxy]
    rcases hcase with ⟨hfrom, hto⟩ | ⟨hfrom, hto⟩
    · rw [hfrom] at hplace
      rw [hto]
      exact ⟨_, List.getElem?_concat_length, (h.keyed entry he).trans hplace.1⟩
    · rw [hto]
      refine Has.of_removed ?_ _
      revert hplace hfrom
      cases y.2 with
      | pending key =>
        rintro ⟨hkey, e, hmem, rfl⟩ hne
        exact ⟨hkey, e, hstays.2 ⟨hmem, fun heq => hne (by rw [heq])⟩, rfl⟩
      | removed | reported | dropped => exact fun hplace _ => hplace
  · exact fun e hmem => h.keyed e (hstays.1 hmem).1
  · intro e hmem
    obtain ⟨hmem, hne⟩ := hstays.1 hmem
    rw [countAt_move_of_ne (fun heq => hne (Slot.pending.inj heq)) Slot.noConfusion]
    exact h.pending e hmem
  · intro i removal hi
    rcases lt_trichotomy i a.removed.length with hlt | rfl | hgt
    · rw [List.getElem?_append_left hlt] at hi
      rw [countAt_move_of_ne Slot.noConfusion fun heq => hlt.ne (Slot.removed.inj heq)]
      exact h.removed i removal hi
    · rw [List.getElem?_concat_length] at hi
      cases hi
      rw [countAt_move hzero]
      exact h.pending entry he
    · have hlength : (a.removed ++ [Removal.mk entry.wake handedOut]).length ≤ i := by
        rw [List.length_append, List.length_singleton]
        omega
      rw [List.getElem?_eq_none hlength] at hi
      cases hi
  · intro i drain hi
    rw [countAt_move_of_ne Slot.noConfusion Slot.noConfusion]
    exact h.reported i drain hi
  · rw [countAt_move_of_ne Slot.noConfusion Slot.noConfusion]
    exact h.dropped

theorem Balanced.removeAll (h : Balanced a w l) (handedOut : Bool) {entries : List PendingEntry}
    (hmem : ∀ entry ∈ entries, entry ∈ w.pending) (hkeys : (entries.map PendingEntry.key).Nodup) :
    ∃ l', Balanced { a with removed := a.removed ++ entries.map fun entry => ⟨entry.wake, handedOut⟩ }
      { w with pending := w.pending.deleteWhere fun e => decide (e.key ∈ entries.map PendingEntry.key) }
      l' := by
  induction entries generalizing a w l with
  | nil =>
    refine ⟨l, ?_⟩
    rw [List.map_nil, List.append_nil]
    refine h.congr (fun e => ⟨fun he => (Table.mem_deleteWhere.1 he).1, fun he => ?_⟩) id rfl
    exact Table.mem_deleteWhere.2 ⟨he, decide_eq_false List.not_mem_nil⟩
  | cons entry entries ih =>
    rw [List.map_cons, List.nodup_cons] at hkeys
    have h₁ := h.remove (hmem entry List.mem_cons_self) handedOut
    have hrest : ∀ e ∈ entries, e ∈ w.pending.delete entry.key := by
      intro e he
      refine Table.mem_deleteWhere.2 ⟨hmem e (List.mem_cons_of_mem _ he), decide_eq_false fun heq => ?_⟩
      exact hkeys.1 (heq ▸ List.mem_map_of_mem he)
    obtain ⟨l₂, h₂⟩ := ih h₁ hrest hkeys.2
    refine ⟨l₂, ?_⟩
    rw [List.append_assoc] at h₂
    refine h₂.congr (fun e => ?_) id rfl
    show e ∈ w.pending.deleteWhere _ ↔ e ∈ (w.pending.delete entry.key).deleteWhere _
    simp only [Table.delete, Table.mem_deleteWhere, decide_eq_false_iff_not, List.map_cons, List.mem_cons,
      not_or, and_assoc]

theorem Balanced.discard (h : Balanced a w l) (hsub : ∀ entry ∈ w'.pending, entry ∈ w.pending)
    (hg : w'.gapDetected = w.gapDetected) (hd : w'.droppedEvents = w.droppedEvents) :
    ∃ l', Balanced { a with removed := a.removed ++ Booking.discarded (w.lost w') } w' l' := by
  have hlost : ∀ {e : PendingEntry}, e ∈ w.lost w' ↔ e ∈ w.pending ∧ w'.pending.find? e.key = none := by
    intro e
    rw [lost, List.mem_filter, Option.isNone_iff_eq_none, Table.mem_iff]
  obtain ⟨l', h'⟩ := h.removeAll false (fun e he => (hlost.1 he).1)
    ((List.filter_sublist.map _).nodup w.pending.nodup)
  refine ⟨l', h'.congr (fun e => ?_) (fun hgap => hg.trans hgap) hd⟩
  rw [Table.mem_deleteWhere, decide_eq_false_iff_not]
  constructor
  · refine fun he => ⟨hsub e he, fun hkey => ?_⟩
    obtain ⟨e', he', hsame⟩ := List.mem_map.1 hkey
    exact Table.find?_eq_none_iff.1 (hlost.1 he').2 e he hsame.symm
  · rintro ⟨he, hkey⟩
    cases hfind : w'.pending.find? e.key with
    | none => exact absurd (List.mem_map_of_mem (hlost.2 ⟨he, hfind⟩)) hkey
    | some e' =>
      have he' := Table.mem_of_find? hfind
      rw [← Table.eq_of_key_eq (hsub e' he') he (Table.key_of_find? hfind)]
      exact he'

theorem Balanced.report (h : Balanced a w l) {drain : WatcherDrain} (hg : drain.gapDetected = w.gapDetected)
    (hd : drain.droppedEvents = w.droppedEvents) :
    Balanced { a with drains := a.drains ++ [drain] } { w with gapDetected := false, droppedEvents := 0 }
      (move .dropped (.reported a.drains.length) l) := by
  have hzero : countAt (.reported a.drains.length) l = 0 := by
    refine countAt_eq_zero fun x hx hp => ?_
    have hplace := h.places x hx
    rw [hp] at hplace
    exact absurd hplace (lt_irrefl _)
  have hnone : countAt .dropped (move .dropped (.reported a.drains.length) l) = 0 := by
    refine countAt_eq_zero fun x hx hp => ?_
    obtain ⟨y, -, -, ⟨-, hto⟩ | ⟨hfrom, hto⟩⟩ := mem_move hx
    · exact Slot.noConfusion (hp.symm.trans hto)
    · exact hfrom (hto.symm.trans hp)
  refine ⟨map_fst_move.trans h.matched, ?_, h.keyed, ?_, ?_, ?_, ?_⟩
  · intro x hx
    have hlength : (a.drains ++ [drain]).length = a.drains.length + 1 := List.length_append
    obtain ⟨y, hy, hxy, ⟨-, hto⟩ | ⟨-, hto⟩⟩ := mem_move hx
    · rw [hto]
      show a.drains.length < (a.drains ++ [drain]).length
      omega
    · have hplace := h.places y hy
      rw [hto, hxy]
      revert hplace
      cases y.2 with
      | reported i =>
        intro (hi : i < a.drains.length)
        show i < (a.drains ++ [drain]).length
        omega
      | pending | removed | dropped => exact id
  · intro e hmem
    rw [countAt_move_of_ne Slot.noConfusion Slot.noConfusion]
    exact h.pending e hmem
  · intro i removal hi
    rw [countAt_move_of_ne Slot.noConfusion Slot.noConfusion]
    exact h.removed i removal hi
  · intro i drain' hi
    rcases lt_trichotomy i a.drains.length with hlt | rfl | hgt
    · rw [List.getElem?_append_left hlt] at hi
      rw [countAt_move_of_ne Slot.noConfusion fun heq => hlt.ne (Slot.reported.inj heq)]
      exact h.reported i drain' hi
    · rw [List.getElem?_concat_length] at hi
      cases hi
      rw [countAt_move hzero, hg, hd]
      exact h.dropped
    · have hlength : (a.drains ++ [drain]).length ≤ i := by
        rw [List.length_append, List.length_singleton]
        omega
      rw [List.getElem?_eq_none hlength] at hi
      cases hi
  · rw [hnone]
    exact ⟨rfl, fun hlt => absurd hlt (lt_irrefl _)⟩

end Account

theorem AppEventWatcherService.takeWakes_eq {entries : List PendingEntry} {pending : Table PendingEntry.key}
    (hmem : ∀ entry ∈ entries, entry ∈ pending) (hkeys : (entries.map PendingEntry.key).Nodup) :
    (takeWakes entries pending).1 = entries.map PendingEntry.wake ∧
      ∀ e, e ∈ (takeWakes entries pending).2 ↔ e ∈ pending ∧ e.key ∉ entries.map PendingEntry.key := by
  induction entries generalizing pending with
  | nil => exact ⟨rfl, fun e => by simp [takeWakes]⟩
  | cons entry entries ih =>
    rw [List.map_cons, List.nodup_cons] at hkeys
    have hrest : ∀ e ∈ entries, e ∈ pending.delete entry.key := by
      intro e he
      refine Table.mem_deleteWhere.2 ⟨hmem e (List.mem_cons_of_mem _ he), decide_eq_false fun heq => ?_⟩
      exact hkeys.1 (heq ▸ List.mem_map_of_mem he)
    obtain ⟨hwakes, hpending⟩ := ih hrest hkeys.2
    unfold takeWakes
    rw [Table.find?_of_mem (hmem entry List.mem_cons_self)]
    refine ⟨congrArg (entry.wake :: ·) hwakes, fun e => (hpending e).trans ?_⟩
    simp only [Table.delete, Table.mem_deleteWhere, decide_eq_false_iff_not, List.map_cons, List.mem_cons,
      not_or, and_assoc]

end Wiii.Neko.AppEvents
