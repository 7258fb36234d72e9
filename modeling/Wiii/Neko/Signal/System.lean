import Wiii.Lib.Run
import Wiii.Neko.Signal.Operations

/-!
# The signal inbox as a system of calls

`Op` lists the operations that write the inbox.  A `Step` is one call: it is refused or failed by the storage and leaves
the inbox as it was, or it commits.  A run of this system is any interleaving of the calls of all workers, producers and
connections, with any clock readings.  `Call.events` is what a call did as far as its caller can tell.
-/

namespace Wiii.Neko.Signal

open SignalInbox

inductive Op where
  | ingestBatch (inputs : List SignalIngress) (now : Instant)
  | advanceCursor (sourceId accountGrantRef sourceCursor : String) (gapDetected : Bool)
      (now : Instant)
  | consult (request : SignalInboxConsultRequest) (now : Instant)
  | claim (request : SignalClaimRequest) (now : Instant)
  | defer (request : SignalDeferRequest) (now current : Instant)
  | resolve (request : SignalResolveRequest) (current : Instant)
  | revokeAccount (request : SignalAccountRevokeRequest) (now : Instant)

inductive Answer where
  | admissions (admissions : List SignalAdmission)
  | checkpoint (checkpoint : SignalCursorCheckpoint)
  | summary (summary : SignalInboxSummary)
  | items (items : List SignalItem)
  | item (item : SignalItem)
  | count (count : ℕ)

variable (P : Platform)

def Op.apply (op : Op) (db : Inbox) : Except String (Answer × Inbox) :=
  match op with
  | ingestBatch inputs now => (SignalInbox.ingestBatch P inputs now db).map fun x =>
      (.admissions x.1, x.2)
  | advanceCursor source account cursor gap now =>
    (SignalInbox.advanceCursor P source account cursor gap now db).map fun x =>
      (.checkpoint x.1, x.2)
  | consult request now => (SignalInbox.consult P request now db).map fun x => (.summary x.1, x.2)
  | claim request now => (SignalInbox.claim P request now db).map fun x => (.items x.1, x.2)
  | defer request now current => (SignalInbox.defer P request now current db).map fun x =>
      (.item x.1, x.2)
  | resolve request current => (SignalInbox.resolve P request current db).map fun x =>
      (.item x.1, x.2)
  | revokeAccount request now => (SignalInbox.revokeAccount P request now db).map fun x =>
      (.count x.1, x.2)

structure Call where
  op : Op
  answer : Except String Answer

/-- One call: rolled back, or committed. -/
inductive Step : Inbox → Call → Inbox → Prop
  | failed (db : Inbox) (op : Op) (error : String) : Step db ⟨op, .error error⟩ db
  | committed {db db' : Inbox} {op : Op} {answer : Answer} (h : op.apply P db = .ok (answer, db')) :
      Step db ⟨op, .ok answer⟩ db'

theorem Step.apply_eq {db db' : Inbox} {op : Op} {answer : Answer}
    (h : Step P db ⟨op, .ok answer⟩ db') : op.apply P db = .ok (answer, db') := by
  cases h with
  | committed h => exact h

/-- What the calls of a run did, as far as their callers can tell. -/
inductive Event where
  | arrival (input : SignalIngress) (admission : SignalAdmission)
  | moved (sourceId accountGrantRef sourceCursor : String) (gapDetected : Bool)
  | leased (item : SignalItem)
  | revoked (accountGrantRef : String)
  deriving DecidableEq

/-- An ingress arrives and takes the cursor of its source and account along. -/
def arrivalEvents (input : SignalIngress) (admission : SignalAdmission) : List Event :=
  [.arrival input admission,
    .moved input.sourceId input.accountGrantRef input.sourceCursor input.gapDetected]

/-- The calls of the operations in order, on a storage that does not fail. -/
def execute : List Op → Inbox → List Call × Inbox
  | [], db => ([], db)
  | op :: ops, db =>
    match op.apply P db with
    | .error error => (⟨op, .error error⟩ :: (execute ops db).1, (execute ops db).2)
    | .ok (answer, db') => (⟨op, .ok answer⟩ :: (execute ops db').1, (execute ops db').2)

theorem guarded_run_execute {c : Op → Prop} {ops : List Op} (h : ∀ op ∈ ops, c op) (db : Inbox) :
    Run (Guarded (Step P) fun _ call => c call.op) db (execute P ops db).1 (execute P ops db).2 := by
  induction ops generalizing db with
  | nil => exact .nil db
  | cons op ops ih =>
    rw [List.forall_mem_cons] at h
    unfold execute
    split
    · exact .cons ⟨.failed db op _, h.1⟩ (ih h.2 db)
    · rename_i happly
      exact .cons ⟨.committed happly, h.1⟩ (ih h.2 _)

theorem run_execute (ops : List Op) (db : Inbox) :
    Run (Step P) db (execute P ops db).1 (execute P ops db).2 :=
  (guarded_run_execute P (c := fun _ => True) (fun _ _ => trivial) db).mono fun _ _ _ h => h.1

def Event.subject : Event → Option String
  | arrival _ ⟨.deduplicated, _⟩ => none
  | arrival _ admission => some admission.signalId
  | leased item => some item.signalId
  | _ => none

def Call.events (call : Call) : List Event :=
  match call.op, call.answer with
  | .ingestBatch inputs _, .ok (.admissions admissions) =>
    (List.zipWith arrivalEvents inputs admissions).flatten
  | .advanceCursor source account cursor gap _, .ok _ => [.moved source account cursor gap]
  | .claim _ _, .ok (.items items) => items.map Event.leased
  | .revokeAccount request _, .ok _ => [.revoked request.accountGrantRef]
  | _, _ => []

theorem step_of_isOk (op : Op) (db : Inbox) (h : (op.apply P db).isOk) :
    ∃ answer db', Step P db ⟨op, .ok answer⟩ db' := by
  cases ho : op.apply P db with
  | error error =>
    rw [ho] at h
    cases h
  | ok result => exact ⟨result.1, result.2, .committed ho⟩

theorem arrival_of_mem {inputs : List SignalIngress} {admissions : List SignalAdmission}
    {event : Event} (h : event ∈ (List.zipWith arrivalEvents inputs admissions).flatten) :
    ∃ input ∈ inputs, ∃ admission ∈ admissions, event ∈ arrivalEvents input admission := by
  rw [← List.map_uncurry_zip_eq_zipWith] at h
  obtain ⟨events, hevents, hevent⟩ := List.mem_flatten.1 h
  obtain ⟨⟨input, admission⟩, hmem, rfl⟩ := List.mem_map.1 hevents
  obtain ⟨hi, ha⟩ := List.of_mem_zip hmem
  exact ⟨input, hi, admission, ha, hevent⟩

theorem claim_of_leased {call : Call} {item : SignalItem} (h : .leased item ∈ call.events) :
    ∃ request now items, call = ⟨.claim request now, .ok (.items items)⟩ ∧ item ∈ items := by
  obtain ⟨op, answer⟩ := call
  unfold Call.events at h
  split at h
  · obtain ⟨input, -, admission, -, hevent⟩ := arrival_of_mem h
    simp [arrivalEvents] at hevent
  · simp at h
  · rename_i request now items hop hanswer
    cases hop
    cases hanswer
    obtain ⟨item', hmem, heq⟩ := List.mem_map.1 h
    cases heq
    exact ⟨request, now, items, rfl, hmem⟩
  · simp at h
  · simp at h

/-- The inboxes that runs of calls from the empty one reach. -/
def Reachable (db : Inbox) : Prop := Reaches (Step P) .empty db

end Wiii.Neko.Signal
