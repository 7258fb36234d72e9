import Mathlib.Tactic.Common

/-!
# Signals

The records that cross the boundary of the signal inbox: what a producer hands in
(`SignalIngress`), what a worker is handed (`SignalItem`) and the requests.  Timestamps are texts,
as in the JSON they come from.
-/

namespace Wiii.Neko.Signal

inductive SignalKind where
  | contentChanged
  | stateChanged
  | attentionRequired
  | conflict
  | approvalRequired
  deriving DecidableEq, Repr

def kindName : SignalKind → String
  | .contentChanged => "content_changed"
  | .stateChanged => "state_changed"
  | .attentionRequired => "attention_required"
  | .conflict => "conflict"
  | .approvalRequired => "approval_required"

theorem kindName_injective : Function.Injective kindName := by
  intro k l h
  cases k <;> cases l <;> first | rfl | exact absurd h (by decide)

inductive SignalPriority where
  | low
  | normal
  | high
  | urgent
  deriving DecidableEq, Repr

namespace SignalPriority

def name : SignalPriority → String
  | low => "low"
  | normal => "normal"
  | high => "high"
  | urgent => "urgent"

/-- The place in `ORDER BY CASE priority_class …`. -/
def place : SignalPriority → ℕ
  | urgent => 0
  | high => 1
  | normal => 2
  | low => 3

/-- The `CASE` that raises the priority of an item. -/
def raise (stored new : SignalPriority) : SignalPriority :=
  if stored = urgent ∨ new = urgent then urgent
  else if stored = high ∨ new = high then high
  else if stored = normal ∨ new = normal then normal
  else low

end SignalPriority

inductive SignalState where
  | pending
  | claimed
  | deferred
  | resolved
  | expired
  | deadLetter
  deriving DecidableEq, Repr

namespace SignalState

def name : SignalState → String
  | pending => "pending"
  | claimed => "claimed"
  | deferred => "deferred"
  | resolved => "resolved"
  | expired => "expired"
  | deadLetter => "dead_letter"

/-- `state IN ('pending', 'deferred')`: new events coalesce into the item. -/
def isWaiting : SignalState → Bool
  | pending | deferred => true
  | _ => false

/-- `state IN ('pending', 'claimed', 'deferred')`. -/
def isOpen : SignalState → Bool
  | pending | claimed | deferred => true
  | _ => false

/-- `state IN ('resolved', 'expired', 'dead_letter')`. -/
def isTerminal : SignalState → Bool
  | resolved | expired | deadLetter => true
  | _ => false

theorem isTerminal_eq_not_isOpen (s : SignalState) : s.isTerminal = !s.isOpen := by
  cases s <;> rfl

theorem isOpen_of_isWaiting {s : SignalState} (h : s.isWaiting) : s.isOpen := by
  cases s <;> first | rfl | exact absurd h (by decide)

end SignalState

inductive SignalOutcome where
  | handled
  | ignored
  | failed
  | revoked
  | unknownExternalOutcome
  deriving DecidableEq, Repr

structure SignalIngress where
  sourceId : String
  accountGrantRef : String
  appId : String
  resourceRef : String
  kind : SignalKind
  sourceCursor : String
  dedupeKey : String
  observedAt : String
  availableAt : Option String
  expiresAt : String
  priorityClass : SignalPriority
  contentAvailable : Bool
  gapDetected : Bool
  deriving DecidableEq

/-- `available_at`, or `observed_at` where it is absent. -/
def SignalIngress.availability (input : SignalIngress) : String :=
  input.availableAt.getD input.observedAt

inductive SignalAdmissionOutcome where
  | inserted
  | coalesced
  | deduplicated
  deriving DecidableEq, Repr

structure SignalAdmission where
  outcome : SignalAdmissionOutcome
  signalId : String
  deriving DecidableEq

structure SignalClaim where
  workerId : String
  leaseId : String
  expiresAt : String
  attempt : ℕ
  deriving DecidableEq

structure SignalItem where
  signalId : String
  sourceId : String
  accountGrantRef : String
  appId : String
  resourceRef : String
  kind : SignalKind
  sourceCursor : String
  observedAt : String
  availableAt : String
  expiresAt : String
  priorityClass : SignalPriority
  state : SignalState
  claim : Option SignalClaim
  contentAvailable : Bool
  gapDetected : Bool
  coalescedCount : ℕ
  lastOutcome : Option SignalOutcome
  deriving DecidableEq

structure SignalCount where
  sourceId : String
  state : SignalState
  priorityClass : SignalPriority
  count : ℕ
  deriving DecidableEq

structure SignalInboxSummary where
  protocolVersion : String
  encrypted : Bool
  itemCount : ℕ
  readyCount : ℕ
  gapCount : ℕ
  counts : List SignalCount
  pendingRefs : List String

structure SignalInboxConsultRequest where
  maxRefs : ℕ := 8

structure SignalClaimRequest where
  workerId : String
  maxItems : ℕ := 1
  leaseSeconds : ℕ := 120
  deriving DecidableEq

structure SignalDeferRequest where
  signalId : String
  leaseId : String
  operationId : String
  availableAt : String
  deriving DecidableEq

structure SignalResolveRequest where
  signalId : String
  leaseId : String
  operationId : String
  outcome : SignalOutcome
  sourceRevision : String
  deriving DecidableEq

structure SignalAccountRevokeRequest where
  accountGrantRef : String
  deriving DecidableEq

structure SignalCursorCheckpoint where
  sourceCursor : String
  updatedAt : String
  gapDetected : Bool
  deriving DecidableEq

end Wiii.Neko.Signal
