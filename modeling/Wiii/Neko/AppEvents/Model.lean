import Wiii.Neko.Signal.Platform

/-!
# Application events

What crosses the boundary of the application events: the subscriptions, the batches of signals that
a source hands over, and what is told to whoever follows a subscription.  The validation of what is
handed in follows.  Timestamps are texts; the library that reads them is the structure `Chrono`.
-/

namespace Wiii.Neko.AppEvents

open Signal (isIdentifierByte)

inductive AppEventKind where
  | contentChanged
  | stateChanged
  | attentionRequired
  deriving DecidableEq

inductive AppEventResponseMode where
  | observeOnly
  | draft
  | autoReply
  deriving DecidableEq

inductive WatcherSourceKind where
  | atSpi
  | uiAutomation
  | axObserver
  | dom
  | webhook
  deriving DecidableEq

def sourceName : WatcherSourceKind → String
  | .atSpi => "atspi"
  | .uiAutomation => "uia"
  | .axObserver => "axobserver"
  | .dom => "dom"
  | .webhook => "webhook"

structure AppEventSubscription where
  subscriptionId : String
  appIds : List String
  resourceRefs : List String
  responseMode : AppEventResponseMode
  expiresAt : String
  heartbeatMs : ℕ
  maxActions : ℕ
  deriving DecidableEq

structure AppEventSignal where
  eventId : String
  cursor : String
  appId : String
  resourceRef : String
  kind : AppEventKind
  observedAt : String
  deriving DecidableEq

structure WatcherBatch where
  source : WatcherSourceKind
  sourceId : String
  cursor : String
  gapDetected : Bool
  events : List AppEventSignal
  deriving DecidableEq

structure AppEventWake where
  subscriptionId : String
  eventId : String
  cursor : String
  appId : String
  resourceRef : String
  kind : AppEventKind
  firstObservedAt : String
  lastObservedAt : String
  coalescedCount : ℕ
  deriving DecidableEq

structure WatcherDrain where
  protocol : String
  wakes : List AppEventWake
  gapDetected : Bool
  droppedEvents : ℕ
  deriving DecidableEq

structure Chrono where
  parseFromRfc3339 : String → Option Instant
  plusSeconds : Instant → ℕ → Instant

/-! ## Validation -/

def boundedIdentifier (value field : String) (max : ℕ) : Except String Unit :=
  if value.isEmpty || decide (max < value.utf8ByteSize) || !(bytes value).all isIdentifierByte then
    .error s!"App event {field} is invalid"
  else .ok ()

/-- The values not yet looked at, after the values in `unique`. -/
def validateIdentifiers (field : String) (itemLimit : ℕ) (unique : List String) :
    List String → Except String Unit
  | [] => .ok ()
  | value :: values => do
    boundedIdentifier value field itemLimit
    if value ∈ unique then .error s!"App event {field} contains a duplicate"
    else validateIdentifiers field itemLimit (value :: unique) values

def validateIdentifierList (values : List String) (field : String) (limit itemLimit : ℕ) :
    Except String Unit :=
  if values.isEmpty || decide (limit < values.length) then
    .error s!"App event {field} must contain 1 to {limit} items"
  else validateIdentifiers field itemLimit [] values

namespace Chrono

variable (C : Chrono)

def parseTime (value : String) : Except String Instant :=
  match C.parseFromRfc3339 value with
  | some parsed => .ok parsed
  | none => .error "App event timestamp must be RFC3339"

def maxSubscriptionSeconds : ℕ := 24 * 60 * 60

def validateSubscription (subscription : AppEventSubscription) (now : Instant) :
    Except String Unit := do
  boundedIdentifier subscription.subscriptionId "subscriptionId" 160
  validateIdentifierList subscription.appIds "appIds" 16 64
  validateIdentifierList subscription.resourceRefs "resourceRefs" 64 200
  let expiresAt ← C.parseTime subscription.expiresAt
  if expiresAt ≤ now ∨ C.plusSeconds now maxSubscriptionSeconds < expiresAt then
    .error "App event subscription expiry must be within 24 hours"
  else if ¬ (5000 ≤ subscription.heartbeatMs ∧ subscription.heartbeatMs ≤ 300000) then
    .error "App event heartbeat must be between 5000 and 300000 ms"
  else if 1000 < subscription.maxActions then
    .error "App event maxActions must be at most 1000"
  else .ok ()

def validateSignal (signal : AppEventSignal) : Except String Unit := do
  boundedIdentifier signal.eventId "eventId" 160
  boundedIdentifier signal.cursor "event cursor" 512
  boundedIdentifier signal.appId "appId" 64
  boundedIdentifier signal.resourceRef "resourceRef" 200
  let _ ← C.parseTime signal.observedAt
  .ok ()

def validateBatch (batch : WatcherBatch) : Except String Unit := do
  boundedIdentifier batch.sourceId "sourceId" 64
  boundedIdentifier batch.cursor "cursor" 512
  batch.events.forM C.validateSignal

/-- The subscription is taken to be over: it has run out, or its expiry cannot be read. -/
def expired (now : Instant) (subscription : AppEventSubscription) : Bool :=
  match C.parseTime subscription.expiresAt with
  | .ok expiresAt => decide (expiresAt ≤ now)
  | .error _ => true

theorem expired_eq_false_iff {C : Chrono} {now : Instant} {subscription : AppEventSubscription} :
    C.expired now subscription = false ↔
      ∃ expiresAt, C.parseFromRfc3339 subscription.expiresAt = some expiresAt ∧
        now < expiresAt := by
  unfold expired parseTime
  cases C.parseFromRfc3339 subscription.expiresAt <;> simp

end Chrono

end Wiii.Neko.AppEvents
