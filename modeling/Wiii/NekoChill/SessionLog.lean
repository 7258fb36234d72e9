import Mathlib.Data.List.Chain
import Wiii.NekoChill.EventValidation

/-!
# The log of a session and its two snapshots

A log hands out numbers above everything that it ever handed out (`SessionLog.append`), and takes an event back by its
identity.  It is saved in two pieces, the native facts apart from the rest, and put together again when it is loaded.
-/

namespace Wiii.NekoChill

/-! ## The log -/

/-- `events` and `eventHighWaterMark` of a session. -/
structure SessionLog where
  events : List NekoSessionEvent
  eventHighWaterMark : ℕ

def lastSeq (events : List NekoSessionEvent) : ℕ := (events.getLast?.map NekoSessionEvent.seq).getD 0

def hasId (eventId : JsText) (event : NekoSessionEvent) : Bool := decide (event.eventId = eventId)

/-- The event that `appendSessionEvent` makes and appends. -/
def nextEvent (events : List NekoSessionEvent) (afterSeq : ℕ) (eventId : JsText) (time : JsNumber) (modelVisible : Bool)
    (data : NekoSessionEventData) : NekoSessionEvent :=
  ⟨eventId, max (lastSeq events) afterSeq + 1, time, modelVisible, data⟩

namespace SessionLog

/-- `appendOwnedSessionEvent` -/
def append (eventId : JsText) (time : JsNumber) (modelVisible : Bool) (data : NekoSessionEventData) (log : SessionLog) :
    SessionLog :=
  let event := nextEvent log.events log.eventHighWaterMark eventId time modelVisible data
  ⟨log.events ++ [event], event.seq⟩

/-- `removeEventById` -/
def remove (eventId : JsText) (log : SessionLog) : SessionLog :=
  { log with events := log.events.eraseP (hasId eventId) }

def native (log : SessionLog) : List NekoSessionEvent := log.events.filter NekoSessionEvent.isNative

def transcript (log : SessionLog) : List NekoSessionEvent := log.events.filter fun event => !event.isNative

end SessionLog

/-! ## Snapshots -/

structure StoredMessage where
  id : JsText
  userText : Option JsText

inductive StoredTranscript where
  /-- The first version, which has no events. -/
  | legacy (messages : List StoredMessage)
  | current (messages : List StoredMessage) (events : List NekoSessionEvent) (highWaterMark : Option ℕ)

structure SessionDisk where
  transcript : Option StoredTranscript := none
  native : Option (List NekoSessionEvent) := none

def isIncreasing (events : List NekoSessionEvent) : Bool := decide (events.IsChain fun a b => a.seq < b.seq)

def isAccepted (event : NekoSessionEvent) : Bool := isNekoSessionEvent event.saved

/-- The checks of `parsePersistedTranscript` on the events. -/
def isTranscript (events : List NekoSessionEvent) (highWaterMark : Option ℕ) : Bool :=
  events.all isAccepted && isIncreasing events && highWaterMark.all fun mark => decide (lastSeq events ≤ mark)

/-- `parsePersistedNativeRuntimeState` -/
def isNativeState (events : List NekoSessionEvent) : Bool :=
  events.all (fun event => isAccepted event && event.isNative) && isIncreasing events

def seqLe (left right : NekoSessionEvent) : Bool := decide (left.seq ≤ right.seq)

def mergeSessionEvents (transcript facts : List NekoSessionEvent) : Option (List NekoSessionEvent) :=
  let merged := (transcript ++ facts).mergeSort seqLe
  if isIncreasing merged then some merged else none

structure LoadedSessionSnapshot where
  messages : List StoredMessage
  events : List NekoSessionEvent
  eventHighWaterMark : ℕ
  needsEventMigration : Bool

/-- An event that passes the checks is taken as it was written. -/
def loadSessionSnapshot (disk : SessionDisk) : Option LoadedSessionSnapshot :=
  match disk.transcript with
  | none => some ⟨[], [], 0, false⟩
  | some (.legacy messages) => some ⟨messages, [], 0, true⟩
  | some (.current messages events highWaterMark) =>
    if isTranscript events highWaterMark && isNativeState (disk.native.getD []) then
      (mergeSessionEvents events (disk.native.getD [])).map fun merged =>
        ⟨messages, merged, max (highWaterMark.getD 0) (lastSeq merged), false⟩
    else none

/-! ## What holds of logs -/

section

variable {events : List NekoSessionEvent} {event : NekoSessionEvent} {log : SessionLog}

theorem isIncreasing_iff : isIncreasing events = true ↔ events.Pairwise fun a b => a.seq < b.seq := by
  unfold isIncreasing
  rw [decide_eq_true_eq, List.isChain_iff_pairwise]

theorem lastSeq_append : lastSeq (events ++ [event]) = event.seq := by
  simp [lastSeq]

theorem le_lastSeq (h : events.Pairwise fun a b => a.seq < b.seq) (hmem : event ∈ events) :
    event.seq ≤ lastSeq events := by
  rcases List.eq_nil_or_concat events with rfl | ⟨front, last, rfl⟩
  · cases hmem
  · rw [List.concat_eq_append] at h hmem ⊢
    rw [lastSeq_append]
    rcases List.mem_append.1 hmem with hfront | hlast
    · exact Nat.le_of_lt ((List.pairwise_append.1 h).2.2 event hfront last (List.mem_singleton_self _))
    · rw [List.mem_singleton.1 hlast]

theorem lastSeq_le {bound : ℕ} (h : ∀ event ∈ events, event.seq ≤ bound) : lastSeq events ≤ bound := by
  rcases List.eq_nil_or_concat events with rfl | ⟨front, last, rfl⟩
  · exact Nat.zero_le _
  · rw [List.concat_eq_append] at h ⊢
    rw [lastSeq_append]
    exact h last (List.mem_append_right _ (List.mem_singleton_self _))

theorem lastSeq_lt_nextEvent {afterSeq : ℕ} {eventId : JsText} {time : JsNumber} {modelVisible : Bool}
    {data : NekoSessionEventData} :
    lastSeq events < (nextEvent events afterSeq eventId time modelVisible data).seq :=
  Nat.lt_succ_of_le (Nat.le_max_left _ _)

theorem pairwise_append_event (h : events.Pairwise fun a b => a.seq < b.seq) (hlast : lastSeq events < event.seq) :
    (events ++ [event]).Pairwise fun a b => a.seq < b.seq := by
  refine List.pairwise_append.2 ⟨h, List.pairwise_singleton _ _, fun other hother next hnext => ?_⟩
  rw [List.mem_singleton.1 hnext]
  exact Nat.lt_of_le_of_lt (le_lastSeq h hother) hlast

theorem eq_of_seq {other : NekoSessionEvent} (h : events.Pairwise fun a b => a.seq < b.seq) (hmem : event ∈ events)
    (hother : other ∈ events) (hseq : event.seq = other.seq) : event = other := by
  induction h with
  | nil => cases hmem
  | cons hfirst _ ih =>
    rcases List.mem_cons.1 hmem with hfront | hrest
    · rcases List.mem_cons.1 hother with hother | hother
      · rw [hfront, hother]
      · rw [hfront] at hseq
        exact absurd hseq (Nat.ne_of_lt (hfirst other hother))
    · rcases List.mem_cons.1 hother with hother | hother
      · rw [hother] at hseq
        exact absurd hseq (Nat.ne_of_gt (hfirst event hrest))
      · exact ih hrest hother

theorem mem_remove_of_ne {eventId : JsText} {found : NekoSessionEvent}
    (hfound : log.events.find? (hasId eventId) = some found) (hmem : event ∈ log.events) (hne : event ≠ found) :
    event ∈ (log.remove eventId).events := by
  obtain ⟨a, front, back, hfront, ha, hevents, herased⟩ :=
    List.exists_of_eraseP (List.mem_of_find?_eq_some hfound) (List.find?_some hfound)
  show event ∈ log.events.eraseP (hasId eventId)
  rw [herased]
  have hsame : a = found := by
    rw [hevents, List.find?_append, List.find?_eq_none.2 hfront, Option.none_or, List.find?_cons_of_pos ha] at hfound
    exact Option.some.inj hfound
  rw [hevents] at hmem
  rcases List.mem_append.1 hmem with hmem | hmem
  · exact List.mem_append_left _ hmem
  · rcases List.mem_cons.1 hmem with hmem | hmem
    · rw [hmem] at hne
      exact absurd hsame hne
    · exact List.mem_append_right _ hmem

end

/-! ### Merging -/

section

variable {transcript facts : List NekoSessionEvent}

theorem seqLe_trans (a b c : NekoSessionEvent) (hab : seqLe a b = true) (hbc : seqLe b c = true) : seqLe a c = true :=
  decide_eq_true (Nat.le_trans (of_decide_eq_true hab) (of_decide_eq_true hbc))

theorem seqLe_total (a b : NekoSessionEvent) : (seqLe a b || seqLe b a) = true := by
  rw [Bool.or_eq_true]
  exact (Nat.le_total a.seq b.seq).imp decide_eq_true decide_eq_true

/-- Two sorted lists of events that share no number are put together in order. -/
theorem mergeSessionEvents_eq (hdistinct : (transcript ++ facts).Pairwise fun a b => a.seq ≠ b.seq) :
    ∃ merged, mergeSessionEvents transcript facts = some merged ∧ merged.Perm (transcript ++ facts) ∧
      merged.Pairwise fun a b => a.seq < b.seq := by
  have hperm := List.mergeSort_perm (transcript ++ facts) seqLe
  have hsorted := List.pairwise_mergeSort seqLe_trans seqLe_total (transcript ++ facts)
  have hdistinct := (hperm.pairwise_iff fun h => h.symm).2 hdistinct
  have hincreasing := (hsorted.and hdistinct).imp fun h => Nat.lt_of_le_of_ne (of_decide_eq_true h.1) h.2
  exact ⟨_, if_pos (isIncreasing_iff.2 hincreasing), hperm, hincreasing⟩

end

/-! ## Hydration -/

structure SessionEntry where
  agentId : JsText
  workspacePath : Option JsText
  launchProfileId : Option JsText
  createdAt : JsNumber

def JsNumber.plus : JsNumber → ℕ → JsNumber
  | finite value, n => finite (value + n)
  | number, _ => number

def contextData (source : ContextSource) (entry : SessionEntry) : NekoSessionEventData :=
  .sessionContext source entry.agentId entry.workspacePath entry.launchProfileId

/-- The events for a transcript without events, numbered after those there. -/
def migrateMessages (entry : SessionEntry) (eventIds : ℕ → JsText) : ℕ → List StoredMessage → List NekoSessionEvent →
    List NekoSessionEvent
  | _, [], events => events
  | index, message :: messages, events =>
    migrateMessages entry eventIds (index + 1) messages <| match message.userText with
      | some text => events ++ [nextEvent events 0 (eventIds (index + 1)) (entry.createdAt.plus (index + 1)) true
          (.modelInput false message.id text none false)]
      | none => events

def migrate (entry : SessionEntry) (eventIds : ℕ → JsText) (messages : List StoredMessage)
    (events : List NekoSessionEvent) : List NekoSessionEvent :=
  migrateMessages entry eventIds 0 messages
    (events ++ [nextEvent events 0 (eventIds 0) entry.createdAt true (contextData .legacyMigration entry)])

/-- `hydrate`, for one session; `none` within is a session that could not be loaded. -/
def hydrate (entry : SessionEntry) (eventIds : ℕ → JsText) (disk : SessionDisk) : Option SessionLog :=
  if disk.transcript.isNone then none
  else (loadSessionSnapshot disk).map fun snapshot =>
    let events :=
      if snapshot.needsEventMigration || snapshot.events.isEmpty then
        migrate entry eventIds snapshot.messages snapshot.events
      else snapshot.events
    ⟨events, max snapshot.eventHighWaterMark (lastSeq events)⟩

end Wiii.NekoChill
