import Wiii.Lib.Except
import Wiii.Lib.Run
import Wiii.Neko.AppEvents.Watcher

/-!
# Who is woken

What a step can do to the two maps of the watcher is said once, by `Advance`.  From it follows `Tracked`: every pending
wake is of a subscription that was not replaced since it was made, and of a signal that was ingested since then.  So a
drain never wakes a subscription that was given up (`wakes_are_live`), but it does wake one that has run out in the
meantime (`drain_wakes_expired`).
-/

namespace Wiii.Neko.AppEvents

open Signal (reference)
open Signal.reference (clock)

inductive Event where
  | subscribed (subscription : AppEventSubscription)
  | subscriptionRefused (error : String)
  | unsubscribed (subscriptionId : String)
  | ingested (batch : WatcherBatch)
  | polled (answer : Except String WatcherBatch)
  | expired
  | drained (now : Instant) (nowMs : ℕ) (drain : WatcherDrain)
  | reordered

namespace Event

def batches : Event → List WatcherBatch
  | ingested batch => [batch]
  | polled (.ok batch) => [batch]
  | _ => []

/-- The subscription is given up, or another is made in its place. -/
def Replaces (s : AppEventSubscription) : Event → Prop
  | unsubscribed subscriptionId => subscriptionId = s.subscriptionId
  | subscribed s' => s'.subscriptionId = s.subscriptionId ∧ s' ≠ s
  | _ => False

end Event

section Watcher

variable (C : Chrono)

inductive Step : AppEventWatcherService → Event → AppEventWatcherService → Prop
  | subscribe {w w' : AppEventWatcherService} {subscription : AppEventSubscription}
      {now : Instant} : w.subscribe C subscription now = .ok w' →
      Step w (.subscribed subscription) w'
  | refuse {w : AppEventWatcherService} {subscription : AppEventSubscription} {now : Instant}
      {error : String} : w.subscribe C subscription now = .error error →
      Step w (.subscriptionRefused error) w
  | unsubscribe (w : AppEventWatcherService) (subscriptionId : String) :
      Step w (.unsubscribed subscriptionId) (w.unsubscribe subscriptionId).2
  | ingest (w : AppEventWatcherService) (batch : WatcherBatch) (now : Instant)
      (receivedAtMs : ℕ) : Step w (.ingested batch) (w.ingest C batch now receivedAtMs).2
  | poll (w : AppEventWatcherService) (source : WatcherSourceKind)
      (poll : Option String → ℕ → Except String WatcherBatch) (now : Instant)
      (receivedAtMs : ℕ) :
      Step w (.polled (poll (w.sourceCursor (sourceName source)) 512))
        (w.pollDriver C source poll now receivedAtMs).2
  | expire (w : AppEventWatcherService) (now : Instant) :
      Step w .expired (w.expireSubscriptions C now)
  | drain (w : AppEventWatcherService) (now : Instant) (nowMs limit : ℕ) :
      Step w (.drained now nowMs (w.drainReady nowMs limit).1) (w.drainReady nowMs limit).2
  | reorder (w : AppEventWatcherService) (subscriptions : Table AppEventSubscription.subscriptionId)
      (pending : Table PendingEntry.key) : subscriptions.rows.Perm w.subscriptions.rows →
      pending.rows.Perm w.pending.rows →
      Step w .reordered { w with subscriptions := subscriptions, pending := pending }

/-- No subscription whose wake is ready has run out by the time of the drain. -/
def Drainable (w : AppEventWatcherService) : Event → Prop
  | .drained now nowMs _ => ∀ entry ∈ w.pending, w.isReady nowMs entry → ∀ s ∈ w.subscriptions,
      s.subscriptionId = entry.key.subscriptionId → C.expired now s = false
  | _ => True

/-- The subscription was made, `after` did not replace it, and nothing happened since. -/
def Standing (log : List Event) (s : AppEventSubscription) (after : List Event) : Prop :=
  (∃ past, log = past ++ .subscribed s :: after) ∧ ∀ e ∈ after, ¬ e.Replaces s

def Ingested (log : List Event) (signal : AppEventSignal) : Prop :=
  ∃ e ∈ log, ∃ batch ∈ e.batches, signal ∈ batch.events

/-- Its subscription stands and has not run out, and the signal was ingested since it was made. -/
def Live (log : List Event) (now : Instant) (wake : AppEventWake) : Prop :=
  ∃ s after, Standing log s after ∧ s.subscriptionId = wake.subscriptionId ∧
    (∃ signal, signal.eventId = wake.eventId ∧ Ingested after signal) ∧
    ∃ expiresAt, C.parseFromRfc3339 s.expiresAt = some expiresAt ∧ now < expiresAt

/-- Whenever the log says that a drain woke somebody, that was live at the time of the drain. -/
def WakesLive (log : List Event) : Prop :=
  ∀ past now nowMs drain rest, log = past ++ .drained now nowMs drain :: rest →
    ∀ wake ∈ drain.wakes, Live C past now wake

end Watcher

theorem Standing.snoc {log after : List Event} {s : AppEventSubscription} {e : Event}
    (h : Standing log s after) (he : ¬ e.Replaces s) :
    Standing (log ++ [e]) s (after ++ [e]) := by
  obtain ⟨⟨past, rfl⟩, hafter⟩ := h
  refine ⟨⟨past, by simp⟩, fun e' he' => ?_⟩
  rcases List.mem_append.1 he' with he' | he'
  · exact hafter e' he'
  · obtain rfl := List.mem_singleton.1 he'
    exact he

theorem Standing.mem {log after : List Event} {s : AppEventSubscription}
    (h : Standing log s after) : .subscribed s ∈ log := by
  obtain ⟨⟨past, rfl⟩, -⟩ := h
  simp

theorem standing_subscribed (log : List Event) (s : AppEventSubscription) :
    Standing (log ++ [.subscribed s]) s [] :=
  ⟨⟨log, rfl⟩, by simp⟩

theorem Ingested.append {log : List Event} {signal : AppEventSignal} (h : Ingested log signal)
    (later : List Event) : Ingested (log ++ later) signal := by
  obtain ⟨e, he, h⟩ := h
  exact ⟨e, List.mem_append_left _ he, h⟩

/-! ## What a step can do -/

/-- Every pending wake is of a subscription in the map. -/
def Owned (w : AppEventWatcherService) : Prop :=
  ∀ entry ∈ w.pending, ∃ s ∈ w.subscriptions, s.subscriptionId = entry.key.subscriptionId

def Fed (w : AppEventWatcherService) (signals : List AppEventSignal) (entry : PendingEntry) :
    Prop :=
  (∃ old ∈ w.pending, old.key = entry.key ∧ old.item.signal = entry.item.signal) ∨
    entry.item.signal ∈ signals

/-- What the event can have done to the two maps. -/
structure Advance (w : AppEventWatcherService) (e : Event) (w' : AppEventWatcherService) :
    Prop where
  subscriptions : ∀ s ∈ w'.subscriptions, s ∈ w.subscriptions ∧ ¬ e.Replaces s ∨
    e = .subscribed s ∧ w.subscriptions.find? s.subscriptionId = none
  pending : ∀ entry ∈ w'.pending, Fed w (e.batches.flatMap WatcherBatch.events) entry
  owned : Owned w → Owned w'

theorem Fed.of_mem {w : AppEventWatcherService} {entry : PendingEntry} (h : entry ∈ w.pending)
    (signals : List AppEventSignal) : Fed w signals entry :=
  .inl ⟨entry, h, rfl, rfl⟩

theorem Advance.of_sub {w w' : AppEventWatcherService} {e : Event}
    (hs : w'.subscriptions = w.subscriptions) (he : ∀ s, ¬ e.Replaces s)
    (hp : ∀ entry ∈ w'.pending, entry ∈ w.pending) : Advance w e w' where
  subscriptions := fun s h => .inl ⟨hs ▸ h, he s⟩
  pending := fun entry h => .of_mem (hp entry h) _
  owned := fun howned entry h => hs ▸ howned entry (hp entry h)

namespace AppEventWatcherService

variable {C : Chrono} {w w' : AppEventWatcherService}

theorem subscribe_ok {subscription : AppEventSubscription} {now : Instant}
    (h : w.subscribe C subscription now = .ok w') :
    w' = w ∧ subscription ∈ w.subscriptions ∨
      w' = { w with subscriptions := w.subscriptions.upsert subscription } ∧
        w.subscriptions.find? subscription.subscriptionId = none := by
  obtain ⟨-, h⟩ := bind_unit_ok_iff.1 h
  split at h
  · rename_i current hcurrent
    split_ifs at h with hne
    rw [ne_eq, not_not] at hne
    cases h
    exact .inl ⟨rfl, hne ▸ Table.mem_of_find? hcurrent⟩
  · rename_i hnone
    split_ifs at h
    cases h
    exact .inr ⟨rfl, hnone⟩

theorem subscribe_advance {subscription : AppEventSubscription} {now : Instant}
    (h : w.subscribe C subscription now = .ok w') : Advance w (.subscribed subscription) w' := by
  rcases subscribe_ok h with ⟨rfl, hmem⟩ | ⟨rfl, hnone⟩
  · refine ⟨fun s hs => .inl ⟨hs, ?_⟩, fun entry he => .of_mem he _, id⟩
    rintro ⟨hid, hne⟩
    exact hne (Table.eq_of_key_eq hmem hs hid)
  · refine ⟨fun s hs => ?_, fun entry he => .of_mem he _, fun howned entry he => ?_⟩
    · rcases Table.mem_upsert.1 hs with rfl | ⟨hs, hid⟩
      · exact .inr ⟨rfl, hnone⟩
      · exact .inl ⟨hs, fun hr => hid hr.1.symm⟩
    · obtain ⟨s, hs, hid⟩ := howned entry he
      refine ⟨s, Table.mem_upsert.2 (.inr ⟨hs, ?_⟩), hid⟩
      exact Table.find?_eq_none_iff.1 hnone s hs

theorem unsubscribe_advance (w : AppEventWatcherService) (subscriptionId : String) :
    Advance w (.unsubscribed subscriptionId) (w.unsubscribe subscriptionId).2 := by
  unfold unsubscribe
  cases hfind : w.subscriptions.find? subscriptionId with
  | none =>
    refine ⟨fun s hs => .inl ⟨hs, fun h => ?_⟩, fun entry he => .of_mem he _, id⟩
    exact Table.find?_eq_none_iff.1 hfind s hs h.symm
  | some _ =>
    refine ⟨fun s hs => .inl ?_, fun entry he => .of_mem (Table.mem_deleteWhere.1 he).1 _,
      fun howned entry he => ?_⟩
    · obtain ⟨hs, hid⟩ := Table.mem_deleteWhere.1 hs
      exact ⟨hs, fun h => absurd h.symm (of_decide_eq_false hid)⟩
    · obtain ⟨he, hkey⟩ := Table.mem_deleteWhere.1 he
      obtain ⟨s, hs, hid⟩ := howned entry he
      refine ⟨s, Table.mem_deleteWhere.2 ⟨hs, ?_⟩, hid⟩
      rw [hid]
      exact hkey

theorem mem_expireSubscriptions {now : Instant} {s : AppEventSubscription}
    (h : s ∈ (w.expireSubscriptions C now).subscriptions) :
    s ∈ w.subscriptions ∧ C.expired now s = false := by
  obtain ⟨hs, hover⟩ := Table.mem_deleteWhere.1 h
  refine ⟨hs, ?_⟩
  by_contra hexpired
  rw [Bool.not_eq_false] at hexpired
  rw [List.contains_eq_mem, decide_eq_false_iff_not] at hover
  exact hover (List.mem_map_of_mem (List.mem_filter.2 ⟨hs, hexpired⟩))

theorem mem_pending_expireSubscriptions {now : Instant} {entry : PendingEntry}
    (h : entry ∈ (w.expireSubscriptions C now).pending) : entry ∈ w.pending :=
  (Table.mem_deleteWhere.1 h).1

theorem expireSubscriptions_owned (now : Instant) (h : Owned w) :
    Owned (w.expireSubscriptions C now) := by
  intro entry he
  obtain ⟨he, hover⟩ := Table.mem_deleteWhere.1 he
  obtain ⟨s, hs, hid⟩ := h entry he
  refine ⟨s, Table.mem_deleteWhere.2 ⟨hs, ?_⟩, hid⟩
  rw [hid]
  exact hover

theorem remember_eq_some {eventId : String} (h : w.remember eventId = some w') :
    w'.subscriptions = w.subscriptions ∧ w'.pending = w.pending := by
  unfold remember at h
  split_ifs at h
  cases h
  exact ⟨rfl, rfl⟩

structure Admits (w : AppEventWatcherService) (signals : List AppEventSignal)
    (w' : AppEventWatcherService) : Prop where
  subscriptions : w'.subscriptions = w.subscriptions
  pending : ∀ entry ∈ w'.pending, Fed w signals entry
  owned : Owned w → Owned w'

theorem Admits.refl (w : AppEventWatcherService) (signals : List AppEventSignal) :
    Admits w signals w :=
  ⟨rfl, fun _ h => .of_mem h _, id⟩

theorem Admits.trans {w₁ w₂ w₃ : AppEventWatcherService} {signals : List AppEventSignal}
    (h₁ : Admits w₁ signals w₂) (h₂ : Admits w₂ signals w₃) : Admits w₁ signals w₃ where
  subscriptions := h₂.subscriptions.trans h₁.subscriptions
  pending := by
    intro entry h
    rcases h₂.pending entry h with ⟨old, hold, hkey, hsignal⟩ | hnew
    · rcases h₁.pending old hold with ⟨older, holder, hkey', hsignal'⟩ | hnew
      · exact .inl ⟨older, holder, hkey'.trans hkey, hsignal'.trans hsignal⟩
      · exact .inr (hsignal ▸ hnew)
    · exact .inr hnew
  owned := h₂.owned ∘ h₁.owned

theorem Admits.mono {signals signals' : List AppEventSignal} (h : Admits w signals w')
    (hsub : signals ⊆ signals') : Admits w signals' w' where
  subscriptions := h.subscriptions
  pending := fun entry he => (h.pending entry he).imp id fun hs => hsub hs
  owned := h.owned

theorem admitFor_admits {signal : AppEventSignal} {receivedAtMs : ℕ} {subscriptionId : String}
    (hid : ∃ s ∈ w.subscriptions, s.subscriptionId = subscriptionId) :
    Admits w [signal] (w.admitFor signal receivedAtMs subscriptionId).2 := by
  unfold admitFor
  dsimp only
  split
  · refine ⟨rfl, fun entry he => ?_, fun howned entry he => ?_⟩ <;>
      obtain ⟨old, hold, rfl⟩ := (Table.mem_updateWhere
        (PendingEntry.key_coalesce signal receivedAtMs)).1 he
    · split_ifs
      · exact .inr (List.mem_singleton.2 rfl)
      · exact .of_mem hold _
    · obtain ⟨s, hs, hkey⟩ := howned old hold
      refine ⟨s, hs, hkey.trans ?_⟩
      split_ifs <;> rfl
  · split_ifs
    · exact ⟨rfl, fun entry he => .of_mem he _, id⟩
    · refine ⟨rfl, fun entry he => ?_, fun howned entry he => ?_⟩ <;>
        rcases Table.mem_upsert.1 he with rfl | ⟨hold, -⟩
      · exact .inr (List.mem_singleton.2 rfl)
      · exact .of_mem hold _
      · exact hid
      · exact howned entry hold

theorem admitAll_admits {signal : AppEventSignal} {receivedAtMs : ℕ}
    {subscriptionIds : List String} {w : AppEventWatcherService}
    (hids : ∀ id ∈ subscriptionIds, ∃ s ∈ w.subscriptions, s.subscriptionId = id) :
    Admits w [signal] (admitAll signal receivedAtMs subscriptionIds w).2 := by
  induction subscriptionIds generalizing w with
  | nil => exact .refl w _
  | cons id ids ih =>
    have hone : Admits w [signal] (w.admitFor signal receivedAtMs id).2 :=
      admitFor_admits (hids id (List.mem_cons_self ..))
    refine hone.trans (ih fun id' h' => ?_)
    rw [hone.subscriptions]
    exact hids id' (List.mem_cons_of_mem _ h')

theorem ingestSignals_admits (receivedAtMs : ℕ) (signals : List AppEventSignal)
    (w : AppEventWatcherService) :
    Admits w signals (ingestSignals receivedAtMs signals w).2 := by
  induction signals generalizing w with
  | nil => exact .refl w _
  | cons signal signals ih =>
    have hrest : signals ⊆ signal :: signals := List.subset_cons_self ..
    unfold ingestSignals
    split
    · exact (ih w).mono hrest
    · rename_i w₁ hremember
      obtain ⟨hsubs, hpending⟩ := remember_eq_some hremember
      have hseen : Admits w (signal :: signals) w₁ := by
        refine ⟨hsubs, fun entry he => .of_mem (hpending ▸ he) _, fun howned entry he => ?_⟩
        rw [hsubs]
        exact howned entry (hpending ▸ he)
      have hone : Admits w₁ [signal]
          (admitAll signal receivedAtMs (w₁.matching signal) w₁).2 := by
        refine admitAll_admits fun id hid => ?_
        obtain ⟨s, hs, rfl⟩ := List.mem_map.1 hid
        exact ⟨s, List.mem_of_mem_filter hs, rfl⟩
      exact hseen.trans ((hone.mono (by simp)).trans ((ih _).mono hrest))

theorem ingest_advance {e : Event} {batch : WatcherBatch} (he : ∀ s, ¬ e.Replaces s)
    (hbatch : e.batches = [batch]) (now : Instant) (receivedAtMs : ℕ) :
    Advance w e (w.ingest C batch now receivedAtMs).2 := by
  have hexpire : Advance w e (w.expireSubscriptions C now) :=
    ⟨fun s hs => .inl ⟨(mem_expireSubscriptions hs).1, he s⟩,
      fun entry h => .of_mem (mem_pending_expireSubscriptions h) _,
      expireSubscriptions_owned now⟩
  unfold ingest
  split
  · exact .of_sub rfl he fun _ h => h
  · simp only
    split_ifs
    · exact hexpire
    · have hadmits := ingestSignals_admits receivedAtMs batch.events (w.expireSubscriptions C now)
      refine ⟨fun s hs => hexpire.subscriptions s (hadmits.subscriptions ▸ hs), fun entry h => ?_,
        fun howned => hadmits.owned (hexpire.owned howned)⟩
      rcases hadmits.pending entry h with ⟨old, hold, hsame⟩ | hnew
      · exact .inl ⟨old, mem_pending_expireSubscriptions hold, hsame⟩
      · exact .inr (by rw [hbatch]; simpa using hnew)

theorem pollDriver_advance {source : WatcherSourceKind}
    {poll : Option String → ℕ → Except String WatcherBatch} (now : Instant) (receivedAtMs : ℕ) :
    Advance w (.polled (poll (w.sourceCursor (sourceName source)) 512))
      (w.pollDriver C source poll now receivedAtMs).2 := by
  unfold pollDriver
  split
  · exact .of_sub rfl (fun _ => id) fun _ h => h
  · rename_i batch hbatch
    split_ifs
    · exact .of_sub rfl (fun _ => id) fun _ h => h
    · exact ingest_advance (fun _ => id) (by rw [hbatch]; rfl) now receivedAtMs

/-- The wakes are of entries that were to be taken, and what stays was pending before. -/
theorem takeWakes_spec (entries : List PendingEntry) (pending : Table PendingEntry.key) :
    (∀ wake ∈ (takeWakes entries pending).1, ∃ entry ∈ entries, wake = entry.wake) ∧
      ∀ entry ∈ (takeWakes entries pending).2, entry ∈ pending := by
  induction entries generalizing pending with
  | nil => exact ⟨by simp [takeWakes], fun _ h => h⟩
  | cons entry entries ih =>
    unfold takeWakes
    split
    · obtain ⟨hwakes, hpending⟩ := ih pending
      refine ⟨fun wake h => ?_, hpending⟩
      obtain ⟨entry', h', rfl⟩ := hwakes wake h
      exact ⟨entry', List.mem_cons_of_mem _ h', rfl⟩
    · obtain ⟨hwakes, hpending⟩ := ih (pending.delete entry.key)
      refine ⟨fun wake h => ?_, fun entry' h' => (Table.mem_deleteWhere.1 (hpending entry' h')).1⟩
      rcases List.mem_cons.1 h with rfl | h
      · exact ⟨entry, List.mem_cons_self .., rfl⟩
      · obtain ⟨entry', h', rfl⟩ := hwakes wake h
        exact ⟨entry', List.mem_cons_of_mem _ h', rfl⟩

theorem drainReady_wakes {nowMs limit : ℕ} {wake : AppEventWake}
    (h : wake ∈ (w.drainReady nowMs limit).1.wakes) :
    ∃ entry ∈ w.pending, w.isReady nowMs entry = true ∧ wake = entry.wake := by
  obtain ⟨entry, hentry, rfl⟩ := (takeWakes_spec _ _).1 wake h
  have hready := List.mem_mergeSort.1 (List.mem_of_mem_take hentry)
  obtain ⟨hmem, hready⟩ := List.mem_filter.1 hready
  exact ⟨entry, hmem, hready, rfl⟩

end AppEventWatcherService

open AppEventWatcherService

variable {C : Chrono} {w w' : AppEventWatcherService} {log : List Event} {e : Event}

theorem Step.advance (h : Step C w e w') : Advance w e w' := by
  cases h with
  | subscribe h => exact subscribe_advance h
  | refuse h => exact .of_sub rfl (fun _ => id) fun _ h => h
  | unsubscribe id => exact unsubscribe_advance w id
  | ingest batch now receivedAtMs => exact ingest_advance (fun _ => id) rfl now receivedAtMs
  | poll source poll now receivedAtMs => exact pollDriver_advance now receivedAtMs
  | expire now =>
    exact ⟨fun s hs => .inl ⟨(mem_expireSubscriptions hs).1, id⟩,
      fun entry h => .of_mem (mem_pending_expireSubscriptions h) _,
      expireSubscriptions_owned now⟩
  | drain now nowMs limit => exact .of_sub rfl (fun _ => id) (takeWakes_spec _ _).2
  | reorder subscriptions pending hs hp =>
    refine ⟨fun s h => .inl ⟨hs.mem_iff.1 h, id⟩, fun entry h => .of_mem (hp.mem_iff.1 h) _, ?_⟩
    intro howned entry h
    obtain ⟨s, hmem, hid⟩ := howned entry (hp.mem_iff.1 h)
    exact ⟨s, hs.mem_iff.2 hmem, hid⟩

/-! ## What holds in every run -/

/-- The subscriptions stand, and every pending wake is of one and of a signal ingested since. -/
structure Tracked (log : List Event) (w : AppEventWatcherService) : Prop where
  standing : ∀ s ∈ w.subscriptions, ∃ after, Standing log s after
  ingested : ∀ entry ∈ w.pending, ∃ s ∈ w.subscriptions,
    s.subscriptionId = entry.key.subscriptionId ∧
      ∃ after, Standing log s after ∧ Ingested after entry.item.signal

theorem Tracked.owned (h : Tracked log w) : Owned w := by
  intro entry he
  obtain ⟨s, hs, hid, -⟩ := h.ingested entry he
  exact ⟨s, hs, hid⟩

theorem Tracked.advance (h : Tracked log w) (ha : Advance w e w') : Tracked (log ++ [e]) w' where
  standing := by
    intro s hs
    rcases ha.subscriptions s hs with ⟨hs, he⟩ | ⟨rfl, -⟩
    · obtain ⟨after, hafter⟩ := h.standing s hs
      exact ⟨after ++ [e], hafter.snoc he⟩
    · exact ⟨[], standing_subscribed log s⟩
  ingested := by
    intro entry hentry
    obtain ⟨s, hs, hid⟩ := ha.owned h.owned entry hentry
    refine ⟨s, hs, hid, ?_⟩
    rcases ha.subscriptions s hs with ⟨hold, he⟩ | ⟨rfl, hnone⟩
    · rcases ha.pending entry hentry with ⟨old, hmem, hkey, hsignal⟩ | hnew
      · -- The entry was pending, and the subscription in the map is the one it was pending for.
        obtain ⟨s', hs', hid', after, hafter, hing⟩ := h.ingested old hmem
        rw [hkey] at hid'
        obtain rfl := Table.eq_of_key_eq hold hs' (hid.trans hid'.symm)
        exact ⟨after ++ [e], hafter.snoc he, hsignal ▸ hing.append [e]⟩
      · obtain ⟨batch, hbatch, hsignal⟩ := List.mem_flatMap.1 hnew
        obtain ⟨after, hafter⟩ := h.standing s hold
        exact ⟨after ++ [e], hafter.snoc he, e, by simp, batch, hbatch, hsignal⟩
    · -- A subscription that is new to the map has nothing pending.
      rcases ha.pending entry hentry with ⟨old, hmem, hkey, -⟩ | hnew
      · obtain ⟨s', hs', hid', -⟩ := h.ingested old hmem
        rw [hkey, ← hid] at hid'
        exact absurd hid' (Table.find?_eq_none_iff.1 hnone s' hs')
      · exact absurd hnew (by simp [Event.batches])

theorem tracked_new {quietWindowMs : ℕ} (h : new quietWindowMs = .ok w) : Tracked [] w := by
  unfold new at h
  split_ifs at h
  cases h
  exact ⟨by simp, by simp⟩

theorem Tracked.live (h : Tracked log w) {now : Instant} {nowMs limit : ℕ}
    (hd : Drainable C w (.drained now nowMs (w.drainReady nowMs limit).1)) {wake : AppEventWake}
    (hwake : wake ∈ (w.drainReady nowMs limit).1.wakes) : Live C log now wake := by
  obtain ⟨entry, hentry, hready, rfl⟩ := drainReady_wakes hwake
  obtain ⟨s, hs, hid, after, hafter, hing⟩ := h.ingested entry hentry
  exact ⟨s, after, hafter, hid, ⟨entry.item.signal, rfl, hing⟩,
    Chrono.expired_eq_false_iff.1 (hd entry hentry hready s hs hid)⟩

theorem wakesLive_snoc (h : WakesLive C log)
    (he : ∀ now nowMs drain, e = .drained now nowMs drain →
      ∀ wake ∈ drain.wakes, Live C log now wake) : WakesLive C (log ++ [e]) := by
  intro past now nowMs drain rest hsplit
  rcases List.eq_nil_or_concat rest with rfl | ⟨rest, e', rfl⟩
  · obtain ⟨rfl, hlast⟩ := List.append_inj' hsplit rfl
    exact he now nowMs drain (List.cons.inj hlast).1
  · rw [List.concat_eq_append, ← List.cons_append, ← List.append_assoc] at hsplit
    exact h past now nowMs drain rest (List.append_inj' hsplit rfl).1

/-- Whoever is woken has a subscription that stands and that has not run out. -/
theorem wakes_are_live {quietWindowMs : ℕ} {w₀ w : AppEventWatcherService} {log : List Event}
    (hnew : new quietWindowMs = .ok w₀)
    (hrun : Run (Guarded (Step C) (Drainable C)) w₀ log w) : WakesLive C log := by
  have hkeep : ∀ past w e w', Tracked past w ∧ WakesLive C past →
      Guarded (Step C) (Drainable C) w e w' →
      Tracked (past ++ [e]) w' ∧ WakesLive C (past ++ [e]) := by
    rintro past w e w' ⟨htracked, hlive⟩ ⟨hstep, hcond⟩
    refine ⟨htracked.advance hstep.advance, wakesLive_snoc hlive ?_⟩
    rintro now nowMs drain rfl wake hwake
    cases hstep with
    | drain _ _ limit => exact htracked.live hcond hwake
  have hstart : Tracked [] w₀ ∧ WakesLive C [] := ⟨tracked_new hnew, by simp [WakesLive]⟩
  have hend := hrun.invariant_outputs hkeep hstart
  simpa using hend.2

/-! ## A conversation -/

/-- Date-times as RFC 3339 has them. -/
def chrono : Chrono := ⟨reference.parseFromRfc3339, reference.plusSeconds⟩

def chatSubscription : AppEventSubscription where
  subscriptionId := "sub-wechat"
  appIds := ["wechat"]
  resourceRefs := ["wechat:conversation:meimei"]
  responseMode := .observeOnly
  expiresAt := "2026-08-31T01:00:00Z"
  heartbeatMs := 5000
  maxActions := 0

def chatBatch : WatcherBatch where
  source := .atSpi
  sourceId := "atspi"
  cursor := "cursor-1"
  gapDetected := false
  events :=
    [{ eventId := "event-1"
       cursor := "cursor-1"
       appId := "wechat"
       resourceRef := "wechat:conversation:meimei"
       kind := .contentChanged
       observedAt := "2026-08-31T00:00:01Z" }]

def chatLog : List Event := [.subscribed chatSubscription, .ingested chatBatch]

theorem run_chat : ∃ w₀ w, new 0 = .ok w₀ ∧
    Run (Guarded (Step chrono) (Drainable chrono)) w₀ chatLog w ∧
    (w.drainReady 1 8).1.wakes.map AppEventWake.subscriptionId = ["sub-wechat"] := by
  have hall : ((new 0).bind fun w => (w.subscribe chrono chatSubscription (clock 0 0 0)).map
      fun w => ((w.ingest chrono chatBatch (clock 0 0 1) 1).2.drainReady 1 8).1.wakes.map
        AppEventWake.subscriptionId) = .ok ["sub-wechat"] := by
    decide +kernel
  obtain ⟨w₀, hnew, hall⟩ := bind_ok_iff.1 hall
  obtain ⟨w₁, hsubscribe, hwakes⟩ := map_ok_iff.1 hall
  exact ⟨w₀, _, hnew, .cons ⟨.subscribe hsubscribe, trivial⟩
    (.single ⟨.ingest w₁ chatBatch (clock 0 0 1) 1, trivial⟩), hwakes⟩

theorem wakes_are_live_chat : ∃ w₀ w drain, new 0 = .ok w₀ ∧
    Run (Guarded (Step chrono) (Drainable chrono)) w₀
      (chatLog ++ [.drained (clock 0 0 2) 1 drain]) w ∧
    drain.wakes.map AppEventWake.subscriptionId = ["sub-wechat"] ∧
    WakesLive chrono (chatLog ++ [.drained (clock 0 0 2) 1 drain]) := by
  obtain ⟨w₀, w, hnew, hrun, hwakes⟩ := run_chat
  have htracked : Tracked chatLog w := by
    have hkeep : ∀ past w e w', Tracked past w → Guarded (Step chrono) (Drainable chrono) w e w' →
        Tracked (past ++ [e]) w' := fun past w e w' h hstep => h.advance hstep.1.advance
    simpa using hrun.invariant_outputs hkeep (tracked_new hnew)
  have hcond : Drainable chrono w (.drained (clock 0 0 2) 1 (w.drainReady 1 8).1) := by
    intro entry hentry hready s hs hid
    obtain ⟨after, hafter⟩ := htracked.standing s hs
    obtain rfl : s = chatSubscription := by simpa [chatLog] using hafter.mem
    decide +kernel
  have hlast := hrun.snoc ⟨.drain w (clock 0 0 2) 1 8, hcond⟩
  exact ⟨w₀, _, _, hnew, hlast, hwakes, wakes_are_live hnew hlast⟩

/-- At two o'clock the conversation of a subscription that ran out at one is still woken for. -/
theorem drain_wakes_expired : ¬ ∀ quietWindowMs w₀ w log, new quietWindowMs = .ok w₀ →
    Run (Step chrono) w₀ log w → WakesLive chrono log := by
  intro h
  obtain ⟨w₀, w, hnew, hrun, hwakes⟩ := run_chat
  have hall := (hrun.mono fun _ _ _ hstep => hstep.1).snoc (.drain w (clock 2 0 0) 1 8)
  obtain ⟨wake, hwake⟩ : ∃ wake, wake ∈ (w.drainReady 1 8).1.wakes := by
    refine List.exists_mem_of_ne_nil _ fun hnil => ?_
    simp [hnil] at hwakes
  obtain ⟨s, after, hafter, -, -, expiresAt, hparse, hlt⟩ :=
    h 0 w₀ _ _ hnew hall chatLog _ _ _ [] rfl wake hwake
  obtain rfl : s = chatSubscription := by simpa [chatLog] using hafter.mem
  have hexpired : chrono.expired (clock 2 0 0) chatSubscription = true := by decide +kernel
  exact absurd (Chrono.expired_eq_false_iff.2 ⟨expiresAt, hparse, hlt⟩) (by simp [hexpired])

end Wiii.Neko.AppEvents
