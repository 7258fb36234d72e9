import Wiii.Neko.Gmail.Sync
import Wiii.Neko.Signal.Admission
import Wiii.Neko.Signal.Cursors
import Wiii.Neko.Signal.Dedupe

/-!
# Synchronisation runs on one inbox

Any number of runs of one account share the signal inbox with everybody else who uses it.  `effect` says how a request
is answered: the inbox answers by one transaction or fails, and the provider answers anything within `Honest`.  Of the
inbox it is used that the key of every arrival is that of an admitted signal (`admittedKey_of_arrival`).
-/

namespace Wiii.Neko.Gmail

open Signal (Platform Inbox SignalIngress SignalAdmission SignalCursorCheckpoint)

structure Shared where
  db : Inbox
  /-- The calls on the inbox so far. -/
  calls : List Signal.Call
  /-- The ids that bootstraps recorded so far. -/
  baselines : List ℕ

namespace Shared

def start : Shared := ⟨.empty, [], []⟩

def events (s : Shared) : List Signal.Event := Signal.trace s.calls

def after (s : Shared) (call : Signal.Call) (db : Inbox) : Shared :=
  { s with db := db, calls := s.calls ++ [call] }

theorem events_after (s : Shared) (call : Signal.Call) (db : Inbox) :
    (s.after call db).events = s.events ++ call.events := by
  simp [events, after, Signal.trace]

def durable (P : Platform) (account : String) (s : Shared) : Option String :=
  match Signal.SignalInbox.cursor P sourceId account s.db with
  | .ok (some checkpoint) => some checkpoint.sourceCursor
  | _ => none

end Shared

/-! ## The provider -/

def GmailHistoryRecord.Names (record : GmailHistoryRecord) (c : Change) : Prop :=
  record.id = c.historyId ∧
    ∃ contentAvailable, (c.messageId, c.changeClass, contentAvailable) ∈ record.changes

def reportedIds (pages : List GmailHistoryPage) : List String :=
  pages.flatMap fun page => page.historyId :: page.history.map GmailHistoryRecord.id

/-- The pages have every change of the mailbox after the start id, up to any id they report. -/
def Complete (mailbox : Change → Prop) (startHistoryId : String) (pages : List GmailHistoryPage) :
    Prop :=
  ∀ c p m n, mailbox c → historyNumber startHistoryId = .ok p → historyNumber c.historyId = .ok m →
    (∃ id ∈ reportedIds pages, historyNumber id = .ok n) → p < m → m ≤ n →
      ∃ record ∈ pages.flatMap GmailHistoryPage.history, record.Names c

/-- The second history id is not smaller, where both are numbers. -/
def NotBefore (historyId historyId' : String) : Prop :=
  ∀ p n, historyNumber historyId = .ok p → historyNumber historyId' = .ok n → p ≤ n

/-- The records of a listing are not before its start, its pages have every change since, and a snapshot is not before
the expired cursor. -/
def Honest (mailbox : Change → Prop) : (r : Request) → Answer r → Prop
  | .listHistory startHistoryId _ _ pages, .ok page =>
    (∀ record ∈ page.history, NotBefore startHistoryId record.id) ∧
      (page.nextPageToken = none → Complete mailbox startHistoryId (pages ++ [page]))
  | .reconcile _ previousHistoryId, .ok snapshot => NotBefore previousHistoryId snapshot.historyId
  | _, _ => True

/-! ## Steps -/

section Steps

variable (P : Platform) (account : String) (mailbox : Change → Prop)

def Calls {α : Type} (op : Instant → Signal.Op) (wrap : α → Signal.Answer) (s : Shared)
    (answer : Except String α) (t : Shared) : Prop :=
  ∃ now db, Signal.Step P s.db ⟨op now, answer.map wrap⟩ db ∧
    t = s.after ⟨op now, answer.map wrap⟩ db

/-- The write of a run that found no cursor records a baseline. -/
def recordBaseline (held : Option String) (sourceCursor : String)
    (answer : Except String SignalCursorCheckpoint) (s : Shared) : Shared :=
  match held, answer, historyNumber sourceCursor with
  | none, .ok _, .ok n => { s with baselines := n :: s.baselines }
  | _, _, _ => s

def effect : (r : Request) → Shared → Answer r → Shared → Prop
  | .cursor, s, answer, t => t = s ∧
      (answer = Signal.SignalInbox.cursor P sourceId account s.db ∨
        ∃ error, answer = .error error)
  | .ingestBatch _ inputs, s, answer, t =>
    Calls P (fun now => .ingestBatch inputs now) Signal.Answer.admissions s answer t
  | .advanceCursor held sourceCursor gapDetected, s, answer, t => ∃ u,
      Calls P (fun now => .advanceCursor sourceId account sourceCursor gapDetected now)
        Signal.Answer.checkpoint s answer u ∧ t = recordBaseline held sourceCursor answer u
  | .revokeAccount, s, answer, t =>
    Calls P (fun now => .revokeAccount ⟨account⟩ now) Signal.Answer.count s answer t
  | .grantIsActive, s, answer, t => t = s ∧ Honest mailbox .grantIsActive answer
  | .currentHistoryId, s, answer, t => t = s ∧ Honest mailbox .currentHistoryId answer
  | .listHistory startHistoryId pageToken maxResults pages, s, answer, t =>
    t = s ∧ Honest mailbox (.listHistory startHistoryId pageToken maxResults pages) answer
  | .reconcile maxMessages previousHistoryId, s, answer, t =>
    t = s ∧ Honest mailbox (.reconcile maxMessages previousHistoryId) answer

/-- Somebody else who hands in nothing and moves no cursor under the mailbox's source. -/
def Foreign (s t : Shared) : Prop :=
  ∃ call db, Signal.Step P s.db call db ∧ call.op.ForeignTo sourceId ∧ t = s.after call db

def Starts (d : Sync GmailSyncReport) : Prop :=
  (∃ localObservedAt, d = syncAt P account localObservedAt) ∨
    ∃ hint localObservedAt, hint.accountGrantRef = account ∧
      d = syncFromWatch P hint localObservedAt

/-- The runs of the account, with whoever else uses the inbox. -/
abbrev Step : Pool Answer String GmailSyncReport Shared → PoolEvent Answer →
    Pool Answer String GmailSyncReport Shared → Prop :=
  Pool.Step (effect P account mailbox) (Starts P account) (Foreign P)

end Steps

/-! ## Admitted keys -/

/-- The signal has the account, and is of a gap exactly if its key says so. -/
structure Own (account : String) (input : SignalIngress) : Prop where
  account : input.accountGrantRef = account
  gap : input.gapDetected = true ↔ "gmail:gap:".toList <+: input.dedupeKey.toList

def AdmittedKey (account : String) (events : List Signal.Event) (key : String) (gap : Bool) : Prop :=
  ∃ input admission, .arrival input admission ∈ events ∧ admission.outcome ≠ .deduplicated ∧
    input.sourceId = sourceId ∧ input.accountGrantRef = account ∧ input.dedupeKey = key ∧
    input.gapDetected = gap

theorem AdmittedKey.mono {account key : String} {gap : Bool} {events events' : List Signal.Event}
    (h : AdmittedKey account events key gap) (hsub : events ⊆ events') :
    AdmittedKey account events' key gap := by
  obtain ⟨input, admission, hmem, h⟩ := h
  exact ⟨input, admission, hsub hmem, h⟩

/-- Whatever arrived under the source of the mailbox is a signal of the account. -/
def AllOwn (account : String) (events : List Signal.Event) : Prop :=
  ∀ input admission, .arrival input admission ∈ events → input.sourceId = sourceId →
    Own account input

section Inbox

variable {P : Platform} {account : String} {calls : List Signal.Call} {db db' : Inbox}

theorem ingest_lengths {inputs : List SignalIngress} {now : Instant}
    {admissions : List SignalAdmission}
    (h : Signal.Step P db ⟨.ingestBatch inputs now, .ok (.admissions admissions)⟩ db') :
    inputs ≠ [] ∧ admissions.length = inputs.length := by
  refine ⟨?_, (Signal.complete_of_step h).1⟩
  obtain ⟨_, happly, -⟩ := map_ok_iff.1 (Signal.Step.apply_eq P h)
  obtain ⟨hsize, -⟩ := ite_error_ok_iff.1 happly
  rintro rfl
  simp at hsize

theorem arrival_of_ingest {inputs : List SignalIngress} {admissions : List SignalAdmission}
    (hlen : admissions.length = inputs.length) {input : SignalIngress} (h : input ∈ inputs) :
    ∃ admission, .arrival input admission ∈
      (List.zipWith Signal.arrivalEvents inputs admissions).flatten := by
  obtain ⟨i, hi, rfl⟩ := List.mem_iff_getElem.1 h
  refine ⟨admissions[i], List.mem_flatten.2 ⟨Signal.arrivalEvents inputs[i] admissions[i], ?_, ?_⟩⟩
  · exact List.mem_iff_getElem.2 ⟨i, by simp [hlen, hi], by simp⟩
  · exact List.mem_cons_self ..

/-- The key of every arrival under the source of the mailbox is that of an admitted signal. -/
theorem admittedKey_of_arrival (hC : P.CollisionFree) (hrun : Run (Signal.Step P) .empty calls db)
    (own : AllOwn account (Signal.trace calls)) {input : SignalIngress} {admission : SignalAdmission}
    (h : .arrival input admission ∈ Signal.trace calls) (hsource : input.sourceId = sourceId) :
    AdmittedKey account (Signal.trace calls) input.dedupeKey input.gapDetected := by
  have hown := own input admission h hsource
  by_cases hd : admission.outcome = .deduplicated
  · -- It was dropped, for a signal that was admitted before it under the same key.
    obtain ⟨pre, post, hsplit⟩ := List.append_of_mem h
    obtain ⟨input', hlast, hsource', hkey⟩ := Signal.droppedKnown_of_run hC hrun pre input admission
      ⟨post, by rw [hsplit]; simp⟩ hd
    obtain ⟨event, hevent, hadmits⟩ := List.mem_filterMap.1 (List.mem_of_getLast? hlast)
    obtain ⟨admission', rfl, -, hne⟩ := Signal.admitsKey_eq_some_iff.1 hadmits
    have hmem : .arrival input' admission' ∈ Signal.trace calls := by
      rw [hsplit]
      exact List.mem_append_left _ hevent
    have hown' := own input' admission' hmem (hsource'.trans hsource)
    refine ⟨input', admission', hmem, hne, hsource'.trans hsource, hown'.account, hkey, ?_⟩
    rw [Bool.eq_iff_iff, hown'.gap, hown.gap, hkey]
  · exact ⟨input, admission, h, hd, hsource, hown.account, rfl, rfl⟩

end Inbox

end Wiii.Neko.Gmail
