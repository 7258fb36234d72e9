import Wiii.NekoChill.SnapshotRuns

/-!
# What a load finds after a crash

`Kept` is what every step keeps while no snapshot is written that a load would refuse or lose: whatever was written has
one number each and is held by the disk or lies below its mark.  `consistent_iff` says that a load then finds it all,
and that it does not otherwise.
-/

namespace Wiii.NekoChill

namespace SnapshotState

/-! ## The invariant -/

/-- The logs that may still be written, the oldest first. -/
def logs (s : SnapshotState) : List SessionLog :=
  s.queue.map (fun request => request.snapshot.log) ++ (s.timer.map SessionSnapshot.log).toList ++ s.memory.toList

/-- The native facts of the disk are those that were written. -/
structure NativeKept (written native : List NekoSessionEvent) : Prop where
  increasing : native.Pairwise fun a b => a.seq < b.seq
  accepted : ∀ event ∈ native, isAccepted event = true ∧ event.isNative = true ∧ event ∈ written
  all : ∀ event ∈ written, event.isNative = true → event ∈ native

structure TranscriptKept (written events : List NekoSessionEvent) (mark : ℕ) : Prop where
  increasing : events.Pairwise fun a b => a.seq < b.seq
  accepted : ∀ event ∈ events, isAccepted event = true ∧ event.isNative = false ∧ event ∈ written
  below : ∀ event ∈ written, event.isNative = false → event.seq ≤ mark
  context : ∃ event ∈ events, event.isNative = false ∧ event.isStaged = false

def DiskKept (written : List NekoSessionEvent) : Option StoredTranscript → Prop
  | some (.current _ events highWaterMark) => ∃ mark, highWaterMark = some mark ∧ TranscriptKept written events mark
  | _ => written = []

structure LogKept (written native : List NekoSessionEvent) (log : SessionLog) : Prop where
  sane : Sane log
  above : ∀ event ∈ written, event.seq ≤ log.eventHighWaterMark
  same : ∀ event ∈ written, ∀ other ∈ log.events, other.seq = event.seq → other = event
  native : ∀ event ∈ native, event ∈ log.events

structure Kept (s : SnapshotState) : Prop where
  chain : s.logs.Pairwise Follows
  logs : ∀ log ∈ s.logs, LogKept s.written (s.disk.native.getD []) log
  unique : ∀ event ∈ s.written, ∀ other ∈ s.written, event.seq = other.seq → event = other
  native : NativeKept s.written (s.disk.native.getD [])
  transcript : DiskKept s.written s.disk.transcript

/-! ## Loading -/

variable {s : SnapshotState} {entry : SessionEntry}

theorem isTranscript_of_kept {written events : List NekoSessionEvent} {mark : ℕ} (h : TranscriptKept written events mark) :
    isTranscript events (some mark) = true := by
  unfold isTranscript
  rw [Bool.and_eq_true, Bool.and_eq_true, List.all_eq_true]
  refine ⟨⟨fun event hmem => (h.accepted event hmem).1, isIncreasing_iff.2 h.increasing⟩, ?_⟩
  refine decide_eq_true (lastSeq_le fun event hmem => ?_)
  obtain ⟨-, hnative, hwritten⟩ := h.accepted event hmem
  exact h.below event hwritten hnative

theorem isNativeState_of_kept {written native : List NekoSessionEvent} (h : NativeKept written native) :
    isNativeState native = true := by
  unfold isNativeState
  rw [Bool.and_eq_true, List.all_eq_true]
  refine ⟨fun event hmem => ?_, isIncreasing_iff.2 h.increasing⟩
  obtain ⟨haccepted, hnative, -⟩ := h.accepted event hmem
  rw [haccepted, hnative]
  rfl

theorem Kept.merges (h : s.Kept) {events : List NekoSessionEvent} {mark : ℕ}
    (htranscript : TranscriptKept s.written events mark) :
    ∃ merged, mergeSessionEvents events (s.disk.native.getD []) = some merged ∧
      merged.Perm (events ++ s.disk.native.getD []) ∧ merged.Pairwise fun a b => a.seq < b.seq := by
  refine mergeSessionEvents_eq (List.pairwise_append.2 ⟨htranscript.increasing.imp Nat.ne_of_lt,
    h.native.increasing.imp Nat.ne_of_lt, fun event hevent other hother hseq => ?_⟩)
  obtain ⟨-, hnot, hwritten⟩ := htranscript.accepted event hevent
  obtain ⟨-, hnative, hother⟩ := h.native.accepted other hother
  rw [h.unique event hwritten other hother hseq, hnative] at hnot
  cases hnot

theorem Kept.load (h : s.Kept) {messages : List StoredMessage} {events : List NekoSessionEvent} {mark : ℕ}
    (hdisk : s.disk.transcript = some (.current messages events (some mark)))
    (htranscript : TranscriptKept s.written events mark) :
    ∃ merged, loadSessionSnapshot s.disk = some ⟨messages, merged, max mark (lastSeq merged), false⟩ ∧
      merged.Perm (events ++ s.disk.native.getD []) ∧ merged.Pairwise fun a b => a.seq < b.seq := by
  obtain ⟨merged, hmerge, hperm, hincreasing⟩ := h.merges htranscript
  refine ⟨merged, ?_, hperm, hincreasing⟩
  unfold loadSessionSnapshot
  rw [hdisk]
  dsimp only
  rw [isTranscript_of_kept htranscript, isNativeState_of_kept h.native, hmerge]
  rfl

theorem Kept.native_nil (h : s.Kept) (hwritten : s.written = []) : s.disk.native.getD [] = [] := by
  rw [List.eq_nil_iff_forall_not_mem]
  intro event hmem
  have hmem := (h.native.accepted event hmem).2.2
  rw [hwritten] at hmem
  cases hmem

theorem Kept.below (h : s.Kept) {events merged : List NekoSessionEvent} {mark : ℕ}
    (htranscript : TranscriptKept s.written events mark) (hperm : merged.Perm (events ++ s.disk.native.getD []))
    (hincreasing : merged.Pairwise fun a b => a.seq < b.seq) {event : NekoSessionEvent} (hmem : event ∈ s.written) :
    event.seq ≤ max mark (lastSeq merged) := by
  cases hnative : event.isNative with
  | false => exact (htranscript.below event hmem hnative).trans (Nat.le_max_left _ _)
  | true =>
    have hload : event ∈ merged := hperm.mem_iff.2 (List.mem_append_right _ (h.native.all event hmem hnative))
    exact (le_lastSeq hincreasing hload).trans (Nat.le_max_right _ _)

theorem Kept.consistent (h : s.Kept) : s.CrashConsistent := by
  refine ⟨?_, h.unique⟩
  have htranscript := h.transcript
  unfold DiskKept at htranscript
  split at htranscript
  · rename_i messages events highWaterMark hdisk
    obtain ⟨mark, rfl, htranscript⟩ := htranscript
    obtain ⟨merged, hload, hperm, hincreasing⟩ := h.load hdisk htranscript
    exact ⟨_, hload, hincreasing,
      fun event hmem hnative => hperm.mem_iff.2 (List.mem_append_right _ (h.native.all event hmem hnative)),
      fun event hmem => h.below htranscript hperm hincreasing hmem⟩
  · rename_i hnot
    -- nothing was written
    rw [htranscript]
    unfold loadSessionSnapshot
    split
    · exact ⟨_, rfl, List.Pairwise.nil, fun _ hmem => (nomatch hmem), fun _ hmem => (nomatch hmem)⟩
    · exact ⟨_, rfl, List.Pairwise.nil, fun _ hmem => (nomatch hmem), fun _ hmem => (nomatch hmem)⟩
    · rename_i hdisk
      exact absurd hdisk (hnot _ _ _)

/-! ## Loading again -/

theorem migrateMessages_increasing (entry : SessionEntry) (eventIds : ℕ → JsText) (messages : List StoredMessage) (index : ℕ)
    (events : List NekoSessionEvent) (h : events.Pairwise fun a b => a.seq < b.seq) :
    (migrateMessages entry eventIds index messages events).Pairwise (fun a b => a.seq < b.seq) ∧
      ∀ event ∈ events, event ∈ migrateMessages entry eventIds index messages events := by
  induction messages generalizing index events with
  | nil => exact ⟨h, fun _ hmem => hmem⟩
  | cons message messages ih =>
    unfold migrateMessages
    split
    · obtain ⟨hincreasing, hmem⟩ := ih (index + 1) _ (pairwise_append_event h lastSeq_lt_nextEvent)
      exact ⟨hincreasing, fun event hevent => hmem event (List.mem_append_left _ hevent)⟩
    · exact ih (index + 1) events h

theorem sane_migrate (eventIds : ℕ → JsText) (messages : List StoredMessage) :
    Sane ⟨migrate entry eventIds messages [], max 0 (lastSeq (migrate entry eventIds messages []))⟩ := by
  obtain ⟨hincreasing, hmem⟩ := migrateMessages_increasing entry eventIds messages 0
    ([] ++ [nextEvent [] 0 (eventIds 0) entry.createdAt true (contextData .legacyMigration entry)])
    (List.pairwise_singleton _ _)
  exact ⟨hincreasing, fun event h => (le_lastSeq hincreasing h).trans (Nat.le_max_right _ _),
    _, hmem _ (List.mem_singleton_self _), rfl, rfl⟩

/-! ## Steps -/

theorem Kept.of_logs (h : s.Kept) {t : SnapshotState} (hdisk : t.disk = s.disk) (hwritten : t.written = s.written)
    (hchain : t.logs.Pairwise Follows) (hlogs : ∀ log ∈ t.logs, log ∈ s.logs) : t.Kept := by
  refine ⟨hchain, fun log hlog => ?_, ?_, ?_, ?_⟩
  · rw [hdisk, hwritten]
    exact h.logs log (hlogs log hlog)
  · rw [hwritten]
    exact h.unique
  · rw [hdisk, hwritten]
    exact h.native
  · rw [hdisk, hwritten]
    exact h.transcript

theorem Kept.memory (h : s.Kept) {log later : SessionLog} (hmemory : s.memory = some log) (hfollows : Follows log later)
    (hsane : Sane log → Sane later) : Kept { s with memory := some later } := by
  have hlogs : s.logs = s.queue.map (fun request => request.snapshot.log) ++
      (s.timer.map SessionSnapshot.log).toList ++ [log] := by
    unfold SnapshotState.logs
    rw [hmemory]
    rfl
  have hmem : log ∈ s.logs := by
    rw [hlogs]
    exact List.mem_append_right _ (List.mem_singleton_self _)
  have hkept := h.logs log hmem
  have hchain := h.chain
  rw [hlogs] at hchain
  obtain ⟨hfront, -, hlast⟩ := List.pairwise_append.1 hchain
  refine ⟨List.pairwise_append.2 ⟨hfront, List.pairwise_singleton _ _, fun earlier hearlier last hlater => ?_⟩,
    fun other hother => ?_, h.unique, h.native, h.transcript⟩
  · rw [List.mem_singleton.1 hlater]
    exact (hlast earlier hearlier log (List.mem_singleton_self _)).trans hfollows
  · rcases List.mem_append.1 hother with hother | hother
    · refine h.logs other ?_
      rw [hlogs]
      exact List.mem_append_left _ hother
    · rw [List.mem_singleton.1 hother]
      refine ⟨hsane hkept.sane, fun event hevent => (hkept.above event hevent).trans hfollows.mark,
        fun event hevent later hlater hseq => ?_, fun event hevent => ?_⟩
      · rcases hfollows.fresh later hlater with hold | hfresh
        · exact hkept.same event hevent later hold hseq
        · have hle := hkept.above event hevent
          omega
      · exact hfollows.native event (hkept.native event hevent) (h.native.accepted event hevent).2.1

theorem Kept.append (h : s.Kept) (eventId : JsText) (time : JsNumber) (modelVisible : Bool)
    (data : NekoSessionEventData) :
    Kept { s with memory := s.memory.map (SessionLog.append eventId time modelVisible data) } := by
  cases hmemory : s.memory with
  | none =>
    refine h.of_logs rfl rfl ?_ ?_
    · show (s.queue.map _ ++ (s.timer.map _).toList ++ []).Pairwise Follows
      have hchain := h.chain
      unfold SnapshotState.logs at hchain
      rwa [hmemory] at hchain
    · intro log hlog
      unfold SnapshotState.logs
      rw [hmemory]
      exact hlog
  | some log => exact h.memory hmemory (follows_append log) Sane.append

theorem Kept.rollback (h : s.Kept) (eventId : JsText) : (s.rollback eventId).Kept := by
  unfold SnapshotState.rollback
  split
  · rename_i log hmemory
    split
    · rename_i event hfound
      split
      · rename_i hstaged
        exact h.memory hmemory (follows_remove hfound hstaged) fun hsane => hsane.remove hfound hstaged
      · exact h
    · exact h
  · exact h

theorem Kept.again (h : s.Kept) {log : SessionLog} (hmemory : s.memory = some log) {t : SnapshotState}
    (hdisk : t.disk = s.disk) (hwritten : t.written = s.written)
    (hlogs : t.logs = s.queue.map (fun request => request.snapshot.log) ++ [log] ++ [log]) : t.Kept := by
  have hold : s.logs = s.queue.map (fun request => request.snapshot.log) ++
      (s.timer.map SessionSnapshot.log).toList ++ [log] := by
    unfold SnapshotState.logs
    rw [hmemory]
    rfl
  have hchain := h.chain
  rw [hold] at hchain
  obtain ⟨hfront, -, hlast⟩ := List.pairwise_append.1 hchain
  have hto : ∀ earlier ∈ s.queue.map (fun request => request.snapshot.log), Follows earlier log :=
    fun earlier hearlier => hlast earlier (List.mem_append_left _ hearlier) log (List.mem_singleton_self _)
  refine h.of_logs hdisk hwritten ?_ fun other hother => ?_
  · rw [hlogs]
    refine List.pairwise_append.2 ⟨List.pairwise_append.2 ⟨(List.pairwise_append.1 hfront).1,
      List.pairwise_singleton _ _, fun earlier hearlier later hlater => ?_⟩, List.pairwise_singleton _ _,
        fun earlier hearlier later hlater => ?_⟩
    · rw [List.mem_singleton.1 hlater]
      exact hto earlier hearlier
    · rw [List.mem_singleton.1 hlater]
      rcases List.mem_append.1 hearlier with hearlier | hearlier
      · exact hto earlier hearlier
      · rw [List.mem_singleton.1 hearlier]
        exact Follows.refl log
  · rw [hlogs] at hother
    rw [hold]
    rcases List.mem_append.1 hother with hother | hother
    · rcases List.mem_append.1 hother with hother | hother
      · exact List.mem_append_left _ (List.mem_append_left _ hother)
      · exact List.mem_append_right _ hother
    · exact List.mem_append_right _ hother

theorem Kept.debounce (h : s.Kept) (messages : List StoredMessage) : (s.debounce messages).Kept := by
  unfold SnapshotState.debounce
  split
  · rename_i log hmemory
    refine h.again hmemory rfl rfl ?_
    unfold SnapshotState.logs
    dsimp only
    rw [hmemory]
    rfl
  · exact h

theorem Kept.persist (h : s.Kept) (strict : Bool) (messages : List StoredMessage) : (s.persist strict messages).Kept := by
  unfold SnapshotState.persist
  split
  · rename_i log hmemory
    refine h.again hmemory rfl rfl ?_
    unfold SnapshotState.logs enqueueWrite
    dsimp only
    rw [hmemory, List.map_append]
    simp
  · exact h

theorem Kept.fire (h : s.Kept) : s.fire.Kept := by
  unfold SnapshotState.fire
  split
  · rename_i snapshot htimer
    have hlogs : (s.enqueueWrite ⟨snapshot, false⟩).logs = s.logs := by
      unfold SnapshotState.logs enqueueWrite
      dsimp only
      rw [htimer, List.map_append]
      simp
    refine h.of_logs rfl rfl ?_ fun log hlog => ?_
    · rw [hlogs]
      exact h.chain
    · rwa [hlogs] at hlog
  · exact h

theorem logs_endWrite (s : SnapshotState) : s.endWrite.logs.Sublist s.logs := by
  unfold SnapshotState.logs endWrite
  dsimp only
  rw [List.map_tail]
  exact ((List.tail_sublist _).append_right _).append_right _

theorem Kept.endWrite (h : s.Kept) : s.endWrite.Kept :=
  h.of_logs rfl rfl (h.chain.sublist (logs_endWrite s)) fun _ hlog => (logs_endWrite s).subset hlog

theorem Kept.catalogFails (h : s.Kept) : s.catalogFails.Kept := by
  unfold SnapshotState.catalogFails
  split
  · exact h
  · exact h.endWrite

/-! ### Snapshots that reach a store -/

theorem LogKept.land {written native added events : List NekoSessionEvent} {log first : SessionLog}
    (h : LogKept written native log) (hfollows : Follows first log) (hfirst : Sane first)
    (hadded : ∀ event ∈ added, event ∈ first.events) (hnative : ∀ event ∈ events, event ∈ log.events) :
    LogKept (written ++ added) events log := by
  refine ⟨h.sane, fun event hmem => ?_, fun event hmem other hother hseq => ?_, hnative⟩
  · rcases List.mem_append.1 hmem with hold | hnew
    · exact h.above event hold
    · exact (hfirst.below event (hadded event hnew)).trans hfollows.mark
  · rcases List.mem_append.1 hmem with hold | hnew
    · exact h.same event hold other hother hseq
    · exact hfollows.eq_of_seq hfirst (hadded event hnew) hother hseq

theorem LogKept.unique {written native added : List NekoSessionEvent} {first : SessionLog}
    (h : LogKept written native first) (hadded : ∀ event ∈ added, event ∈ first.events)
    (hunique : ∀ event ∈ written, ∀ other ∈ written, event.seq = other.seq → event = other) :
    ∀ event ∈ written ++ added, ∀ other ∈ written ++ added, event.seq = other.seq → event = other := by
  intro event hevent other hother hseq
  rcases List.mem_append.1 hevent with hevent | hevent
  · rcases List.mem_append.1 hother with hother | hother
    · exact hunique event hevent other hother hseq
    · exact (h.same event hevent other (hadded other hother) hseq.symm).symm
  · rcases List.mem_append.1 hother with hother | hother
    · exact h.same other hother event (hadded event hevent) hseq
    · exact eq_of_seq h.sane.increasing (hadded event hevent) (hadded other hother) hseq

theorem Kept.first (h : s.Kept) {request : WriteRequest} {rest : List WriteRequest} (hqueue : s.queue = request :: rest) :
    LogKept s.written (s.disk.native.getD []) request.snapshot.log ∧
      ∀ log ∈ s.logs, Follows request.snapshot.log log := by
  have hlogs : s.logs = request.snapshot.log :: (rest.map (fun request => request.snapshot.log) ++
      (s.timer.map SessionSnapshot.log).toList ++ s.memory.toList) := by
    unfold SnapshotState.logs
    rw [hqueue]
    rfl
  have hchain := h.chain
  rw [hlogs] at hchain
  refine ⟨h.logs _ (by rw [hlogs]; exact List.mem_cons_self), fun log hlog => ?_⟩
  rw [hlogs] at hlog
  rcases List.mem_cons.1 hlog with hfirst | hrest
  · rw [hfirst]
    exact Follows.refl _
  · exact (List.pairwise_cons.1 hchain).1 log hrest

theorem Kept.landNative (h : s.Kept) {request : WriteRequest} {rest : List WriteRequest}
    (hqueue : s.queue = request :: rest) (hcovers : request.native ≠ [] →
      s.hasTranscript ∧ ∀ event ∈ request.native, isAccepted event = true) : (s.landNative request).Kept := by
  obtain ⟨hfirst, hfollows⟩ := h.first hqueue
  have hsub : ∀ event ∈ request.native, event ∈ request.snapshot.log.events ∧ event.isNative = true :=
    fun event hmem => List.mem_filter.1 hmem
  refine ⟨h.chain, fun log hlog => (h.logs log hlog).land (hfollows log hlog) hfirst.sane (fun event hmem =>
      (hsub event hmem).1) fun event hmem => (hfollows log hlog).native event (hsub event hmem).1 (hsub event hmem).2,
    hfirst.unique (fun event hmem => (hsub event hmem).1) h.unique, ⟨hfirst.sane.increasing.filter _,
      fun event hmem => ⟨(hcovers (List.ne_nil_of_mem hmem)).2 event hmem, (hsub event hmem).2,
        List.mem_append_right _ hmem⟩, fun event hmem hnative => ?_⟩, ?_⟩
  · rcases List.mem_append.1 hmem with hold | hnew
    · exact List.mem_filter.2 ⟨hfirst.native event (h.native.all event hold hnative), hnative⟩
    · exact hnew
  · have htranscript := h.transcript
    show DiskKept (s.written ++ request.native) s.disk.transcript
    unfold DiskKept at htranscript ⊢
    split
    · rename_i messages events highWaterMark hdisk
      rw [hdisk] at htranscript
      obtain ⟨mark, hmark, hkept⟩ := htranscript
      refine ⟨mark, hmark, hkept.increasing, fun event hmem => ?_, fun event hmem hnot => ?_, hkept.context⟩
      · obtain ⟨haccepted, hnative, hwritten⟩ := hkept.accepted event hmem
        exact ⟨haccepted, hnative, List.mem_append_left _ hwritten⟩
      · rcases List.mem_append.1 hmem with hold | hnew
        · exact hkept.below event hold hnot
        · rw [(hsub event hnew).2] at hnot
          cases hnot
    · rename_i hnot
      split at htranscript
      · rename_i hdisk
        exact absurd hdisk (hnot _ _ _)
      · have hnil : request.native = [] := by
          by_contra hne
          obtain ⟨messages, events, mark, hdisk⟩ := (hcovers hne).1
          exact hnot _ _ _ hdisk
        rw [htranscript, hnil]
        rfl

theorem Kept.landTranscript (h : s.Kept) {request : WriteRequest} {rest : List WriteRequest}
    (hqueue : s.queue = request :: rest) (hcovers : ∀ event ∈ request.transcript, isAccepted event = true) :
    (s.landTranscript request).Kept := by
  obtain ⟨hfirst, hfollows⟩ := h.first hqueue
  have hsub : ∀ event ∈ request.transcript, event ∈ request.snapshot.log.events ∧ event.isNative = false := by
    intro event hmem
    obtain ⟨hmem, hnot⟩ := List.mem_filter.1 hmem
    exact ⟨hmem, by simpa using hnot⟩
  refine ⟨h.chain, fun log hlog => (h.logs log hlog).land (hfollows log hlog) hfirst.sane (fun event hmem =>
      (hsub event hmem).1) (h.logs log hlog).native,
    hfirst.unique (fun event hmem => (hsub event hmem).1) h.unique, ⟨h.native.increasing, fun event hmem => ?_,
      fun event hmem hnative => ?_⟩, ⟨_, rfl, hfirst.sane.increasing.filter _, fun event hmem =>
        ⟨hcovers event hmem, (hsub event hmem).2, List.mem_append_right _ hmem⟩, fun event hmem hnot => ?_, ?_⟩⟩
  · obtain ⟨haccepted, hnative, hwritten⟩ := h.native.accepted event hmem
    exact ⟨haccepted, hnative, List.mem_append_left _ hwritten⟩
  · rcases List.mem_append.1 hmem with hold | hnew
    · exact h.native.all event hold hnative
    · rw [(hsub event hnew).2] at hnative
      cases hnative
  · rcases List.mem_append.1 hmem with hold | hnew
    · exact hfirst.above event hold
    · exact hfirst.sane.below event (hsub event hnew).1
  · obtain ⟨context, hmem, hnative, hstaged⟩ := hfirst.sane.context
    exact ⟨context, List.mem_filter.2 ⟨hmem, by rw [hnative]; rfl⟩, hnative, hstaged⟩

theorem Kept.halfway (h : s.Kept) (halfway : Bool) : Kept { s with halfway := halfway } :=
  h.of_logs rfl rfl h.chain fun _ hlog => hlog

theorem Kept.writeNative (h : s.Kept) (outcome : SaveOutcome) (hcovers : Covers s (.writeNative outcome)) :
    (s.writeNative outcome).Kept := by
  unfold SnapshotState.writeNative
  split
  · rename_i request rest hqueue
    split
    · exact h
    · rename_i hhalfway
      rw [Bool.not_eq_true] at hhalfway
      have hkept : (if outcome.lands then s.landNative request else s).Kept := by
        split
        · rename_i hlands
          exact h.landNative hqueue (hcovers hlands hhalfway request (by rw [hqueue]; rfl))
        · exact h
      dsimp only
      split
      · exact hkept.endWrite
      · exact hkept.halfway true
  · exact h

theorem Kept.writeTranscript (h : s.Kept) (outcome : SaveOutcome) (hcovers : Covers s (.writeTranscript outcome)) :
    (s.writeTranscript outcome).Kept := by
  unfold SnapshotState.writeTranscript
  split
  · rename_i request rest hqueue
    split
    · rename_i hhalfway
      apply Kept.endWrite
      split
      · rename_i hlands
        exact h.landTranscript hqueue (hcovers hlands hhalfway request (by rw [hqueue]; rfl))
      · exact h
    · exact h
  · exact h

theorem Kept.hydrate (h : s.Kept) {eventIds : ℕ → JsText} {log : SessionLog}
    (hlog : hydrate entry eventIds s.disk = some log) : LogKept s.written (s.disk.native.getD []) log := by
  have htranscript := h.transcript
  unfold DiskKept at htranscript
  split at htranscript
  · rename_i messages events highWaterMark hdisk
    obtain ⟨mark, rfl, htranscript⟩ := htranscript
    obtain ⟨merged, hload, hperm, hincreasing⟩ := h.load hdisk htranscript
    obtain ⟨context, hcontext, hunstaged⟩ := htranscript.context
    have hmem : context ∈ merged := hperm.mem_iff.2 (List.mem_append_left _ hcontext)
    have hne : merged.isEmpty = false := List.isEmpty_eq_false_iff.2 (List.ne_nil_of_mem hmem)
    unfold NekoChill.hydrate at hlog
    rw [hdisk, hload] at hlog
    simp only [Option.isNone_some, Bool.false_eq_true, if_false, Option.map_some, Bool.false_or, hne] at hlog
    cases hlog
    refine ⟨⟨hincreasing, fun event hevent => (le_lastSeq hincreasing hevent).trans (Nat.le_max_right _ _), context,
      hmem, hunstaged⟩, fun event hevent => (h.below htranscript hperm hincreasing hevent).trans (Nat.le_max_left _ _),
        fun event hevent other hother hseq => ?_, fun event hevent => hperm.mem_iff.2 (List.mem_append_right _ hevent)⟩
    refine h.unique other ?_ event hevent hseq
    rcases List.mem_append.1 (hperm.mem_iff.1 hother) with hother | hother
    · exact (htranscript.accepted other hother).2.2
    · exact (h.native.accepted other hother).2.2
  · rename_i hnot
    have hnative := h.native_nil htranscript
    rw [htranscript, hnative]
    refine ⟨?_, fun _ hmem => (nomatch hmem), fun _ hmem => (nomatch hmem), fun _ hmem => (nomatch hmem)⟩
    unfold NekoChill.hydrate at hlog
    cases hdisk : s.disk.transcript with
    | none =>
      rw [hdisk] at hlog
      cases hlog
    | some transcript =>
      cases transcript with
      | legacy messages =>
        unfold loadSessionSnapshot at hlog
        rw [hdisk] at hlog
        cases hlog
        exact sane_migrate eventIds messages
      | current messages events mark => exact absurd hdisk (hnot _ _ _)

theorem Kept.restart (h : s.Kept) (eventIds : ℕ → JsText) : (s.restart entry eventIds).Kept := by
  have hlogs : (s.restart entry eventIds).logs = (NekoChill.hydrate entry eventIds s.disk).toList := rfl
  refine ⟨?_, fun log hlog => ?_, h.unique, h.native, h.transcript⟩
  · rw [hlogs]
    cases NekoChill.hydrate entry eventIds s.disk with
    | none => exact List.Pairwise.nil
    | some log => exact List.pairwise_singleton _ _
  · rw [hlogs, Option.mem_toList] at hlog
    exact h.hydrate hlog

theorem kept_start (entry : SessionEntry) (origin : Origin) : (start entry origin).Kept := by
  have hnative : NativeKept [] [] :=
    ⟨List.Pairwise.nil, fun _ hmem => (nomatch hmem), fun _ hmem => (nomatch hmem)⟩
  cases origin with
  | created imported eventId =>
    refine ⟨List.pairwise_singleton _ _, fun log hlog => ?_, fun _ hmem => (nomatch hmem), hnative, rfl⟩
    rw [List.mem_singleton.1 hlog]
    refine ⟨⟨List.pairwise_singleton _ _, fun event hmem => ?_, _, List.mem_singleton_self _, rfl, ?_⟩,
      fun _ hmem => (nomatch hmem), fun _ hmem => (nomatch hmem), fun _ hmem => (nomatch hmem)⟩
    · rw [List.mem_singleton.1 hmem]
    · cases imported <;> rfl
  | legacy messages =>
    exact ⟨List.Pairwise.nil, fun _ hlog => (nomatch hlog), fun _ hmem => (nomatch hmem), hnative, rfl⟩

theorem Kept.step (h : s.Kept) (act : SnapshotAct) (hcovers : Covers s act) : (s.step entry act).Kept := by
  cases act with
  | append eventId time modelVisible data => exact h.append eventId time modelVisible data
  | rollback eventId => exact h.rollback eventId
  | debounce messages => exact h.debounce messages
  | fire => exact h.fire
  | persist strict messages => exact h.persist strict messages
  | catalogFails => exact h.catalogFails
  | writeNative outcome => exact h.writeNative outcome hcovers
  | writeTranscript outcome => exact h.writeTranscript outcome hcovers
  | restart eventIds => exact h.restart eventIds

/-! ## Runs -/

theorem run_append (origin : Origin) (acts : List SnapshotAct) (act : SnapshotAct) :
    run entry origin (acts ++ [act]) = (run entry origin acts).step entry act := by
  unfold run
  rw [List.foldl_append]
  rfl

/-- Every snapshot of the run that reaches a store can be read back. -/
def Covered (entry : SessionEntry) (origin : Origin) (acts : List SnapshotAct) : Prop :=
  ∀ before act after, acts = before ++ act :: after → Covers (run entry origin before) act

theorem kept_run {origin : Origin} {acts : List SnapshotAct} (hcovered : Covered entry origin acts) :
    (run entry origin acts).Kept := by
  induction acts using List.reverseRecOn with
  | nil => exact kept_start entry origin
  | append_singleton acts act ih =>
    rw [run_append]
    refine (ih fun before next after heq => hcovered before next (after ++ [act]) ?_).step act
      (hcovered acts act [] rfl)
    rw [heq]
    simp

/-- A load that finds a native fact has a transcript and accepts the native facts. -/
theorem native_covered {native : List NekoSessionEvent} {loaded : LoadedSessionSnapshot} (disk : SessionDisk)
    (hdisk : disk.native = some native) (hload : loadSessionSnapshot disk = some loaded)
    (hall : ∀ event ∈ native, event ∈ loaded.events) (hne : native ≠ []) :
    (∃ messages events mark, disk.transcript = some (.current messages events mark)) ∧
      ∀ event ∈ native, isAccepted event = true := by
  obtain ⟨fact, hfact⟩ := List.exists_mem_of_ne_nil native hne
  have hfact := hall fact hfact
  unfold loadSessionSnapshot at hload
  split at hload
  · cases hload
    cases hfact
  · cases hload
    cases hfact
  · rename_i messages events mark htranscript
    refine ⟨⟨messages, events, mark, htranscript⟩, fun event hmem => ?_⟩
    split at hload
    · rename_i haccepted
      rw [hdisk, Bool.and_eq_true] at haccepted
      have hnative := haccepted.2
      unfold isNativeState at hnative
      rw [Bool.and_eq_true, List.all_eq_true] at hnative
      have hevent := hnative.1 event hmem
      rw [Bool.and_eq_true] at hevent
      exact hevent.1
    · cases hload

theorem transcript_covered {messages : List StoredMessage} {events : List NekoSessionEvent} {mark : Option ℕ}
    {loaded : LoadedSessionSnapshot} {disk : SessionDisk} (hdisk : disk.transcript = some (.current messages events mark))
    (hload : loadSessionSnapshot disk = some loaded) : ∀ event ∈ events, isAccepted event = true := by
  unfold loadSessionSnapshot at hload
  rw [hdisk] at hload
  dsimp only at hload
  split at hload
  · rename_i haccepted
    rw [Bool.and_eq_true] at haccepted
    have htranscript := haccepted.1
    unfold isTranscript at htranscript
    rw [Bool.and_eq_true, Bool.and_eq_true, List.all_eq_true] at htranscript
    exact htranscript.1.1
  · cases hload

theorem covers_of_consistent (act : SnapshotAct) (h : (s.step entry act).CrashConsistent) : Covers s act := by
  obtain ⟨loaded, hload, -, hall, -⟩ := h.loads
  cases act with
  | writeNative outcome =>
    intro hlands hhalfway request hrequest hne
    obtain ⟨rest, hqueue⟩ := List.head?_eq_some_iff.1 hrequest
    have hstep : (s.writeNative outcome).disk = (s.landNative request).disk ∧
        (s.writeNative outcome).written = (s.landNative request).written := by
      unfold SnapshotState.writeNative
      rw [hqueue]
      dsimp only
      rw [hhalfway, hlands]
      simp only [Bool.false_eq_true, if_false, if_true]
      split <;> exact ⟨rfl, rfl⟩
    change loadSessionSnapshot (s.writeNative outcome).disk = _ at hload
    change ∀ event ∈ (s.writeNative outcome).written, _ at hall
    rw [hstep.1] at hload
    rw [hstep.2] at hall
    exact native_covered (s.landNative request).disk rfl hload (fun event hmem =>
      hall event (List.mem_append_right _ hmem) (List.mem_filter.1 hmem).2) hne
  | writeTranscript outcome =>
    intro hlands hhalfway request hrequest
    obtain ⟨rest, hqueue⟩ := List.head?_eq_some_iff.1 hrequest
    have hstep : (s.writeTranscript outcome).disk = (s.landTranscript request).disk := by
      unfold SnapshotState.writeTranscript
      rw [hqueue]
      dsimp only
      rw [hhalfway, hlands]
      rfl
    change loadSessionSnapshot (s.writeTranscript outcome).disk = _ at hload
    rw [hstep] at hload
    exact transcript_covered rfl hload
  | _ => trivial

/-- A run can be cut by a crash anywhere exactly when every snapshot that is written can be read back, and native facts
only next to a transcript. -/
theorem consistent_iff (entry : SessionEntry) (origin : Origin) (acts : List SnapshotAct) :
    (∀ before after, acts = before ++ after → (run entry origin before).CrashConsistent) ↔
      Covered entry origin acts := by
  constructor
  · intro h before act after heq
    have hnext := h (before ++ [act]) after (by rw [heq]; simp)
    rw [run_append] at hnext
    exact covers_of_consistent act hnext
  · intro h before after heq
    refine (kept_run fun front act rest hbefore => h front act (rest ++ after) ?_).consistent
    rw [heq, hbefore]
    simp

/-! ## A fact that is lost -/

/-- The first transcript cannot be saved; the runtime is closed and its native fact is saved. -/
def orphanedFact : List SnapshotAct :=
  [.persist true [], .writeNative .saved, .writeTranscript .failed,
    .append (js "second") (.ofNat 2) false (.nativeRuntimeCleanupResolved (js "agent") (js "run") (js "neko")),
    .persist false [], .writeNative .saved]

theorem orphaned_lost : ¬ (run ⟨js "neko", none, none, .ofNat 1⟩ (.created false (js "first")) orphanedFact).CrashConsistent := by
  intro h
  obtain ⟨loaded, hload, -, hall, -⟩ := h.loads
  have hempty : loaded.events = [] := by
    cases hload
    rfl
  have hmem := hall _ (List.mem_singleton_self _) rfl
  rw [hempty] at hmem
  cases hmem

end SnapshotState

end Wiii.NekoChill
