import Wiii.Neko.Signal.Revocation
import Mathlib.Data.List.DropRight

/-!
# Duplicates

The dedupe table remembers keys by the hash of the source and the key alone, so an ingress is dropped only if one with
the same source and key was admitted before (`admitted_of_dropped`).  The ingress admitted last with the key decides
whether the drop is of a true duplicate (`dropped_only_if_admitted`).
-/

namespace Wiii.Neko.Signal

open SignalInbox

variable {P : Platform}

def Event.admitsKey (P : Platform) (hash : List UInt8) : Event → Option SignalIngress
  | arrival input admission =>
    if P.dedupeHash input.sourceId input.dedupeKey = hash ∧ admission.outcome ≠ .deduplicated then
      some input
    else none
  | _ => none

def lastWithKey (P : Platform) (input : SignalIngress) (events : List Event) :
    Option SignalIngress :=
  (events.filterMap (Event.admitsKey P (P.dedupeHash input.sourceId input.dedupeKey))).getLast?

/-- The remembered hashes are those of admitted ingresses. -/
def Remembered (P : Platform) (events : List Event) (db : Inbox) : Prop :=
  ∀ hash row, db.dedupe.find? hash = some row → ∃ input, P.validateIngress input = .ok () ∧
    (events.filterMap (Event.admitsKey P hash)).getLast? = some input

theorem Remembered.insert {events : List Event} {db db' : Inbox} {input : SignalIngress}
    {admission : SignalAdmission} {row : DedupeRow} (hs : Remembered P events db)
    (valid : P.validateIngress input = .ok ()) (ha : admission.outcome ≠ .deduplicated)
    (hkey : row.dedupeHash = P.dedupeHash input.sourceId input.dedupeKey)
    (hd : db.dedupe.insert? row = some db'.dedupe) :
    Remembered P (events ++ [.arrival input admission]) db' := by
  intro hash row' hrow'
  rw [List.filterMap_append]
  by_cases hhash : P.dedupeHash input.sourceId input.dedupeKey = hash
  · exact ⟨input, valid, by simp [Event.admitsKey, hhash, ha]⟩
  · rw [Table.find?_insert? hd, hkey, if_neg (Ne.symm hhash)] at hrow'
    simpa [Event.admitsKey, hhash] using hs hash row' hrow'

theorem Remembered.step {events : List Event} {db db' : Inbox} {e : Effect}
    (hs : Remembered P events db) (h : EffectStep P db e db') :
    Remembered P (events ++ e.events) db' := by
  cases h with
  | insert valid hnone room hi hd => exact hs.insert valid (by simp) rfl hd
  | coalesce valid newest hd => exact hs.insert valid (by simp) rfl hd
  | forget =>
    intro hash row hrow
    obtain ⟨hmem, hkey⟩ := Table.find?_eq_some_iff.1 hrow
    simp only [Effect.events, List.append_nil]
    exact hs hash row (Table.find?_eq_some_iff.2 ⟨Table.mem_of_mem_keepLast hmem, hkey⟩)
  | _ =>
    intro hash row hrow
    simpa [Effect.events, Event.admitsKey] using hs hash row hrow

/-- Everything dropped so far has the source and the key of an ingress admitted before it. -/
def DroppedKnown (P : Platform) (events : List Event) : Prop :=
  ∀ pre input admission, pre ++ [.arrival input admission] <+: events →
    admission.outcome = .deduplicated → ∃ input', lastWithKey P input pre = some input' ∧
      input'.sourceId = input.sourceId ∧ input'.dedupeKey = input.dedupeKey

theorem admitsKey_eq_some_iff {hash : List UInt8} {event : Event} {input : SignalIngress} :
    event.admitsKey P hash = some input ↔ ∃ admission, event = .arrival input admission ∧
      P.dedupeHash input.sourceId input.dedupeKey = hash ∧ admission.outcome ≠ .deduplicated := by
  cases event with
  | arrival input' admission =>
    simp only [Event.admitsKey, Option.ite_none_right_eq_some, Option.some.injEq, Event.arrival.injEq]
    constructor
    · rintro ⟨h, rfl⟩
      exact ⟨admission, ⟨rfl, rfl⟩, h⟩
    · rintro ⟨admission', ⟨rfl, rfl⟩, h⟩
      exact ⟨h, rfl⟩
  | _ => simp [Event.admitsKey]

theorem DroppedKnown.snoc {events : List Event} {event : Event} (hs : DroppedKnown P events)
    (hnew : ∀ input admission, event = .arrival input admission →
      admission.outcome = .deduplicated → ∃ input', lastWithKey P input events = some input' ∧
        input'.sourceId = input.sourceId ∧ input'.dedupeKey = input.dedupeKey) :
    DroppedKnown P (events ++ [event]) := by
  intro pre input admission hp hd
  rcases List.prefix_concat_iff.1 hp with heq | hp
  · obtain ⟨rfl, hevent⟩ := List.append_inj' heq rfl
    exact hnew input admission (List.singleton_inj.1 hevent).symm hd
  · exact hs pre input admission hp hd

theorem droppedKnown_step (hC : P.CollisionFree) {events : List Event} {db db' : Inbox} {e : Effect}
    (hr : Remembered P events db) (hs : DroppedKnown P events) (h : EffectStep P db e db') :
    DroppedKnown P (events ++ e.events) := by
  cases h with
  | drop valid known =>
    refine hs.snoc ?_
    rintro input' admission ⟨⟩ -
    obtain ⟨input', valid', hlast⟩ := hr _ _ known
    obtain ⟨event, -, hadmits⟩ := List.mem_filterMap.1 (List.mem_of_getLast? hlast)
    obtain ⟨admission', -, hhash, -⟩ := admitsKey_eq_some_iff.1 hadmits
    obtain ⟨hsource, hkey⟩ := dedupeHash_injective hC (sized_of_validateIngress valid')
      (sized_of_validateIngress valid) hhash
    exact ⟨input', hlast, hsource, hkey⟩
  | insert =>
    refine hs.snoc ?_
    rintro input admission ⟨⟩ hd
    cases hd
  | coalesce =>
    refine hs.snoc ?_
    rintro input admission ⟨⟩ hd
    cases hd
  | release | reopen | expire | prune | forget | transition =>
    simpa only [Effect.events, List.append_nil] using hs
  | writeCursor | lease | revoke =>
    refine hs.snoc ?_
    rintro input admission ⟨⟩

theorem droppedKnown_of_run (hC : P.CollisionFree) {calls : List Call} {db : Inbox}
    (h : Run (Step P) .empty calls db) : DroppedKnown P (trace calls) := by
  refine (empty_run_keeps (I := fun events db => Remembered P events db ∧ DroppedKnown P events)
    (fun _ _ _ _ hs he => ⟨hs.1.step he, droppedKnown_step hC hs.1 hs.2 he⟩) h ⟨?_, ?_⟩).2
  · simp [Remembered, Inbox.empty]
  · intro pre input admission hp
    simp at hp

/-! ## True duplicates -/

def Event.revokes (account : String) : Event → Bool
  | revoked account' => decide (account' = account)
  | _ => false

def sinceRevocation (account : String) (events : List Event) : List Event :=
  events.rtakeWhile fun event => !event.revokes account

/-- The last ingress of this source and key was this account's and resource's, not revoked since. -/
def Separate (P : Platform) (input : SignalIngress) (events : List Event) : Prop :=
  ∀ input', lastWithKey P input events = some input' →
    input'.accountGrantRef = input.accountGrantRef ∧ input'.resourceRef = input.resourceRef ∧
      lastWithKey P input (sinceRevocation input.accountGrantRef events) = some input'

/-- An ingress with this source, key, account and resource was admitted among the events. -/
def AdmittedBefore (input : SignalIngress) (events : List Event) : Prop :=
  ∃ input' admission, .arrival input' admission ∈ events ∧ admission.outcome ≠ .deduplicated ∧
    input'.sourceId = input.sourceId ∧ input'.dedupeKey = input.dedupeKey ∧
    input'.accountGrantRef = input.accountGrantRef ∧ input'.resourceRef = input.resourceRef

/-- An ingress that arrives after one of its own account and resource, or after none, is dropped only as a true
duplicate. -/
theorem dropped_only_if_admitted (hC : P.CollisionFree) {calls : List Call} {db : Inbox}
    (h : Run (Step P) .empty calls db) {pre : List Event} {input : SignalIngress}
    {admission : SignalAdmission} (hp : pre ++ [.arrival input admission] <+: trace calls)
    (separate : Separate P input pre) (dropped : admission.outcome = .deduplicated) :
    AdmittedBefore input (sinceRevocation input.accountGrantRef pre) := by
  obtain ⟨input', hlast, hsource, hkey⟩ := droppedKnown_of_run hC h pre input admission hp dropped
  obtain ⟨haccount, hresource, hsince⟩ := separate input' hlast
  obtain ⟨event, hevent, hadmits⟩ := List.mem_filterMap.1 (List.mem_of_getLast? hsince)
  obtain ⟨admission', rfl, -, hadmitted⟩ := admitsKey_eq_some_iff.1 hadmits
  exact ⟨input', admission', hevent, hadmitted, hsource, hkey, haccount, hresource⟩

/-- An event of one message of one mailbox, twice. -/
def repeatedMail : SignalIngress := reference.mail "grant-a" "m" "41" "e41"

theorem dropped_only_if_admitted_repeatedMail :
    AdmittedBefore repeatedMail (sinceRevocation "grant-a"
      (arrivalEvents repeatedMail ⟨.inserted, "signal-"⟩)) := by
  have hrun := run_execute reference
    [.ingestBatch [repeatedMail, repeatedMail] (reference.clock 8 0 1)] .empty
  have hdropped : SignalAdmission.outcome ⟨.deduplicated, "signal-"⟩ = .deduplicated := rfl
  refine dropped_only_if_admitted reference.collisionFree hrun
    ⟨[.moved "gmail.history.v1" "grant-a" "41" false], ?_⟩ ?_ hdropped
  · decide +kernel
  · intro input' hlast
    have hlast' : lastWithKey reference repeatedMail
        (arrivalEvents repeatedMail ⟨.inserted, "signal-"⟩) = some repeatedMail := by
      decide +kernel
    rw [hlast'] at hlast
    cases hlast
    exact ⟨rfl, rfl, by decide +kernel⟩

/-- The event of a second account is dropped, and that of an account granted anew. -/
theorem other_account_dropped :
    let first := [reference.mail "grant-a" "m" "41" "e41"]
    let outcomes := fun result : List SignalAdmission × Inbox =>
      result.1.map SignalAdmission.outcome
    (ingestBatch reference (first ++ [reference.mail "grant-b" "m" "41" "e41"])
        (reference.clock 8 0 1) .empty).map outcomes = .ok [.inserted, .deduplicated] ∧
      (ingestBatch reference first (reference.clock 9 0 0)
        (execute reference [.ingestBatch first (reference.clock 8 0 1),
          .revokeAccount ⟨"grant-a"⟩ (reference.clock 8 0 2)] .empty).2).map outcomes =
        .ok [.deduplicated] := by
  decide +kernel

end Wiii.Neko.Signal
