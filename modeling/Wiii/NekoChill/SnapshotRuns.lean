import Wiii.NekoChill.SessionLog

/-!
# Saving a session's log, with crashes

A save takes the log as it is when it is asked for, waits for the saves before it and writes the two snapshots one after
the other; the process can end between any two steps, and the next one loads what was written.
-/

namespace Wiii.NekoChill

/-- After `failed` all is as before; after `leaked` a write could not be taken back. -/
inductive SaveOutcome where
  | saved
  | failed
  | leaked
  deriving DecidableEq

def SaveOutcome.lands (outcome : SaveOutcome) : Bool := decide (outcome ≠ .failed)

structure SessionSnapshot where
  log : SessionLog
  messages : List StoredMessage

structure WriteRequest where
  snapshot : SessionSnapshot
  strict : Bool

namespace WriteRequest

def native (request : WriteRequest) : List NekoSessionEvent := request.snapshot.log.native

def transcript (request : WriteRequest) : List NekoSessionEvent := request.snapshot.log.transcript

end WriteRequest

structure SnapshotState where
  disk : SessionDisk := {}
  memory : Option SessionLog := none
  timer : Option SessionSnapshot := none
  /-- The saves that are asked for; the first one is under way. -/
  queue : List WriteRequest := []
  /-- The first save has come past its native snapshot. -/
  halfway : Bool := false
  written : List NekoSessionEvent := []

inductive SnapshotAct where
  | append (eventId : JsText) (time : JsNumber) (modelVisible : Bool) (data : NekoSessionEventData)
  | rollback (eventId : JsText)
  | debounce (messages : List StoredMessage)
  | fire
  | persist (strict : Bool) (messages : List StoredMessage)
  | catalogFails
  | writeNative (outcome : SaveOutcome)
  | writeTranscript (outcome : SaveOutcome)
  | restart (eventIds : ℕ → JsText)

/-- The session was created, imported, or left by a version that kept no events. -/
inductive Origin where
  | created (imported : Bool) (eventId : JsText)
  | legacy (messages : List StoredMessage)

namespace SnapshotState

def start (entry : SessionEntry) : Origin → SnapshotState
  | .created imported eventId =>
    let event := nextEvent [] 0 eventId entry.createdAt true
      (contextData (if imported then .providerImported else .created) entry)
    { memory := some ⟨[event], event.seq⟩ }
  | .legacy messages => { disk := { transcript := some (.legacy messages) } }

def rollback (eventId : JsText) (s : SnapshotState) : SnapshotState :=
  match s.memory with
  | some log => match log.events.find? (hasId eventId) with
    | some event => if event.isStaged then { s with memory := some (log.remove eventId) } else s
    | none => s
  | none => s

def debounce (messages : List StoredMessage) (s : SnapshotState) : SnapshotState :=
  match s.memory with
  | some log => { s with timer := some ⟨log, messages⟩ }
  | none => s

def enqueueWrite (request : WriteRequest) (s : SnapshotState) : SnapshotState :=
  { s with timer := none, queue := s.queue ++ [request] }

def fire (s : SnapshotState) : SnapshotState :=
  match s.timer with
  | some snapshot => s.enqueueWrite ⟨snapshot, false⟩
  | none => s

/-- `persistSessionNow` and `persistSessionStrict` -/
def persist (strict : Bool) (messages : List StoredMessage) (s : SnapshotState) : SnapshotState :=
  match s.memory with
  | some log => s.enqueueWrite ⟨⟨log, messages⟩, strict⟩
  | none => s

def endWrite (s : SnapshotState) : SnapshotState := { s with queue := s.queue.tail, halfway := false }

def catalogFails (s : SnapshotState) : SnapshotState := if s.halfway then s else s.endWrite

def landNative (request : WriteRequest) (s : SnapshotState) : SnapshotState :=
  { s with disk := { s.disk with native := some request.native }, written := s.written ++ request.native }

def writeNative (outcome : SaveOutcome) (s : SnapshotState) : SnapshotState :=
  match s.queue with
  | request :: _ =>
    if s.halfway then s
    else
      let s := if outcome.lands then s.landNative request else s
      if request.strict && decide (outcome ≠ .saved) then s.endWrite else { s with halfway := true }
  | [] => s

def landTranscript (request : WriteRequest) (s : SnapshotState) : SnapshotState :=
  { s with
    disk := { s.disk with transcript := some (.current request.snapshot.messages request.transcript
      (some request.snapshot.log.eventHighWaterMark)) }
    written := s.written ++ request.transcript }

def writeTranscript (outcome : SaveOutcome) (s : SnapshotState) : SnapshotState :=
  match s.queue with
  | request :: _ =>
    if s.halfway then (if outcome.lands then s.landTranscript request else s).endWrite else s
  | [] => s

/-- The process ends, wherever the saves are, and the next one loads the session. -/
def restart (entry : SessionEntry) (eventIds : ℕ → JsText) (s : SnapshotState) : SnapshotState :=
  { disk := s.disk, memory := hydrate entry eventIds s.disk, written := s.written }

def step (entry : SessionEntry) (s : SnapshotState) : SnapshotAct → SnapshotState
  | .append eventId time modelVisible data =>
    { s with memory := s.memory.map (SessionLog.append eventId time modelVisible data) }
  | .rollback eventId => s.rollback eventId
  | .debounce messages => s.debounce messages
  | .fire => s.fire
  | .persist strict messages => s.persist strict messages
  | .catalogFails => s.catalogFails
  | .writeNative outcome => s.writeNative outcome
  | .writeTranscript outcome => s.writeTranscript outcome
  | .restart eventIds => s.restart entry eventIds

def run (entry : SessionEntry) (origin : Origin) (acts : List SnapshotAct) : SnapshotState :=
  acts.foldl (step entry) (start entry origin)

/-! ## What is claimed -/

/-- What a load at this moment gives, whatever was written before. -/
structure CrashConsistent (s : SnapshotState) : Prop where
  loads : ∃ loaded, loadSessionSnapshot s.disk = some loaded ∧ loaded.events.Pairwise (fun a b => a.seq < b.seq) ∧
    (∀ event ∈ s.written, event.isNative = true → event ∈ loaded.events) ∧
      ∀ event ∈ s.written, event.seq ≤ loaded.eventHighWaterMark
  unique : ∀ event ∈ s.written, ∀ other ∈ s.written, event.seq = other.seq → event = other

def hasTranscript (s : SnapshotState) : Prop :=
  ∃ messages events highWaterMark, s.disk.transcript = some (.current messages events highWaterMark)

/-- Its events are read back, and native facts stand only beside a transcript. -/
def Covers (s : SnapshotState) : SnapshotAct → Prop
  | .writeNative outcome => outcome.lands = true → s.halfway = false → ∀ request ∈ s.queue.head?, request.native ≠ [] →
    s.hasTranscript ∧ ∀ event ∈ request.native, isAccepted event = true
  | .writeTranscript outcome => outcome.lands = true → s.halfway = true → ∀ request ∈ s.queue.head?,
    ∀ event ∈ request.transcript, isAccepted event = true
  | _ => True

/-! ## Logs that follow one another -/

/-- The events are in order below the mark, and the first of the log is there. -/
structure Sane (log : SessionLog) : Prop where
  increasing : log.events.Pairwise fun a b => a.seq < b.seq
  below : ∀ event ∈ log.events, event.seq ≤ log.eventHighWaterMark
  context : ∃ event ∈ log.events, event.isNative = false ∧ event.isStaged = false

structure Follows (earlier later : SessionLog) : Prop where
  mark : earlier.eventHighWaterMark ≤ later.eventHighWaterMark
  native : ∀ event ∈ earlier.events, event.isNative = true → event ∈ later.events
  fresh : ∀ event ∈ later.events, event ∈ earlier.events ∨ earlier.eventHighWaterMark < event.seq

section

variable {entry : SessionEntry} {log later : SessionLog} {eventId : JsText} {time : JsNumber} {modelVisible : Bool}
  {data : NekoSessionEventData}

theorem Follows.refl (log : SessionLog) : Follows log log := ⟨le_rfl, fun _ h _ => h, fun _ h => .inl h⟩

theorem Follows.trans {last : SessionLog} (h : Follows log later) (h' : Follows later last) : Follows log last := by
  refine ⟨h.mark.trans h'.mark, fun event hmem hnative => h'.native event (h.native event hmem hnative) hnative,
    fun event hmem => ?_⟩
  rcases h'.fresh event hmem with hlater | hfresh
  · exact h.fresh event hlater
  · exact .inr (Nat.lt_of_le_of_lt h.mark hfresh)

theorem Follows.eq_of_seq (h : Follows log later) (hsane : Sane log) {event other : NekoSessionEvent}
    (hmem : event ∈ log.events) (hother : other ∈ later.events) (hseq : other.seq = event.seq) : other = event := by
  rcases h.fresh other hother with hold | hfresh
  · exact NekoChill.eq_of_seq hsane.increasing hold hmem hseq
  · have hle := hsane.below event hmem
    omega

theorem lt_append : log.eventHighWaterMark < (log.append eventId time modelVisible data).eventHighWaterMark :=
  Nat.lt_succ_of_le (Nat.le_max_right _ _)

theorem mem_append {event : NekoSessionEvent} (h : event ∈ (log.append eventId time modelVisible data).events) :
    event ∈ log.events ∨ event.seq = (log.append eventId time modelVisible data).eventHighWaterMark := by
  rcases List.mem_append.1 h with hold | hnew
  · exact .inl hold
  · rw [List.mem_singleton.1 hnew]
    exact .inr rfl

theorem follows_append (log : SessionLog) : Follows log (log.append eventId time modelVisible data) := by
  refine ⟨Nat.le_of_lt lt_append, fun event hmem _ => List.mem_append_left _ hmem, fun event hmem => ?_⟩
  rcases mem_append hmem with hold | hnew
  · exact .inl hold
  · rw [hnew]
    exact .inr lt_append

theorem Sane.append (hsane : Sane log) : Sane (log.append eventId time modelVisible data) := by
  obtain ⟨context, hmem, hcontext⟩ := hsane.context
  refine ⟨pairwise_append_event hsane.increasing lastSeq_lt_nextEvent, fun event hmem => ?_,
    context, List.mem_append_left _ hmem, hcontext⟩
  rcases mem_append hmem with hold | hnew
  · exact (hsane.below event hold).trans (Nat.le_of_lt lt_append)
  · exact Nat.le_of_eq hnew

theorem follows_remove {found : NekoSessionEvent} (hfound : log.events.find? (hasId eventId) = some found)
    (hstaged : found.isStaged = true) : Follows log (log.remove eventId) := by
  refine ⟨le_rfl, fun event hmem hnative => mem_remove_of_ne hfound hmem fun heq => ?_,
    fun event hmem => .inl (List.mem_of_mem_eraseP hmem)⟩
  rw [heq] at hnative
  have hnot := NekoSessionEventData.not_native_of_staged hstaged
  rw [NekoSessionEvent.isNative, hnot] at hnative
  cases hnative

theorem Sane.remove {found : NekoSessionEvent} (hsane : Sane log)
    (hfound : log.events.find? (hasId eventId) = some found) (hstaged : found.isStaged = true) :
    Sane (log.remove eventId) := by
  obtain ⟨context, hmem, hnative, hcontext⟩ := hsane.context
  refine ⟨hsane.increasing.sublist List.eraseP_sublist, fun event h => hsane.below event (List.mem_of_mem_eraseP h),
    context, mem_remove_of_ne hfound hmem fun heq => ?_, hnative, hcontext⟩
  rw [heq, hstaged] at hcontext
  cases hcontext

end

end SnapshotState

end Wiii.NekoChill
