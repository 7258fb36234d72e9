import Wiii.Lib.Table
import Wiii.Neko.AppEvents.Model

/-!
# The watcher of application events

The service that coalesces the signals of the sources into wakes of the subscriptions.  Its maps are tables: the order
of the rows stands for the order in which a map is iterated, and the event `reordered` of `Liveness` lets it change.
The set of seen event ids and the queue that bounds it hold the same ids.
-/

namespace Wiii.Neko.AppEvents

structure PendingKey where
  subscriptionId : String
  appId : String
  resourceRef : String
  kind : AppEventKind
  deriving DecidableEq

structure PendingWake where
  signal : AppEventSignal
  firstObservedAt : String
  lastReceivedAtMs : ℕ
  coalescedCount : ℕ
  deriving DecidableEq

structure PendingEntry where
  key : PendingKey
  item : PendingWake
  deriving DecidableEq

namespace PendingEntry

def wake (entry : PendingEntry) : AppEventWake where
  subscriptionId := entry.key.subscriptionId
  eventId := entry.item.signal.eventId
  cursor := entry.item.signal.cursor
  appId := entry.item.signal.appId
  resourceRef := entry.item.signal.resourceRef
  kind := entry.item.signal.kind
  firstObservedAt := entry.item.firstObservedAt
  lastObservedAt := entry.item.signal.observedAt
  coalescedCount := entry.item.coalescedCount

/-- The order of a drain: the receipt, then the subscription, then the event. -/
def before (left right : PendingEntry) : Bool :=
  if left.item.lastReceivedAtMs ≠ right.item.lastReceivedAtMs then
    decide (left.item.lastReceivedAtMs < right.item.lastReceivedAtMs)
  else if left.key.subscriptionId ≠ right.key.subscriptionId then
    decide (left.key.subscriptionId < right.key.subscriptionId)
  else decide (left.item.signal.eventId ≤ right.item.signal.eventId)

def coalesce (entry : PendingEntry) (signal : AppEventSignal) (receivedAtMs : ℕ) : PendingEntry :=
  { entry with
    item := { entry.item with
      signal := signal
      lastReceivedAtMs := receivedAtMs
      coalescedCount := min (entry.item.coalescedCount + 1) (2 ^ 32 - 1) } }

theorem key_coalesce (signal : AppEventSignal) (receivedAtMs : ℕ) (entry : PendingEntry) :
    (entry.coalesce signal receivedAtMs).key = entry.key := rfl

def opened (key : PendingKey) (signal : AppEventSignal) (receivedAtMs : ℕ) : PendingEntry where
  key := key
  item :=
    { signal := signal
      firstObservedAt := signal.observedAt
      lastReceivedAtMs := receivedAtMs
      coalescedCount := 1 }

end PendingEntry

structure AppEventWatcherService where
  subscriptions : Table AppEventSubscription.subscriptionId
  pending : Table PendingEntry.key
  seenOrder : List String
  sourceCursors : Table (Prod.fst : String × String → String)
  quietWindowMs : ℕ
  gapDetected : Bool
  droppedEvents : ℕ

def matchesSubscription (subscription : AppEventSubscription) (signal : AppEventSignal) : Bool :=
  subscription.appIds.contains signal.appId && subscription.resourceRefs.contains signal.resourceRef

namespace AppEventWatcherService

def new (quietWindowMs : ℕ) : Except String AppEventWatcherService :=
  if 60000 < quietWindowMs then .error "App event quiet window must be at most 60000 ms"
  else .ok {
    subscriptions := ∅
    pending := ∅
    seenOrder := []
    sourceCursors := ∅
    quietWindowMs := quietWindowMs
    gapDetected := false
    droppedEvents := 0 }

variable (w : AppEventWatcherService)

def subscribe (C : Chrono) (subscription : AppEventSubscription) (now : Instant) :
    Except String AppEventWatcherService := do
  C.validateSubscription subscription now
  match w.subscriptions.find? subscription.subscriptionId with
  | some current =>
    if current ≠ subscription then .error "App event subscription identity collision"
    else .ok w
  | none =>
    if 64 ≤ w.subscriptions.rows.length then .error "App event subscription limit reached"
    else .ok { w with subscriptions := w.subscriptions.upsert subscription }

def unsubscribe (subscriptionId : String) : Bool × AppEventWatcherService :=
  match w.subscriptions.find? subscriptionId with
  | some _ =>
    (true, { w with
      subscriptions := w.subscriptions.delete subscriptionId
      pending := w.pending.deleteWhere fun entry =>
        decide (entry.key.subscriptionId = subscriptionId) })
  | none => (false, w)

def sourceCursor (sourceId : String) : Option String :=
  (w.sourceCursors.find? sourceId).map Prod.snd

def expireSubscriptions (C : Chrono) (now : Instant) : AppEventWatcherService :=
  let gone := (w.subscriptions.rows.filter (C.expired now)).map AppEventSubscription.subscriptionId
  { w with
    subscriptions := w.subscriptions.deleteWhere fun subscription =>
      gone.contains subscription.subscriptionId
    pending := w.pending.deleteWhere fun entry => gone.contains entry.key.subscriptionId }

/-- Nothing when the event was seen already. -/
def remember (eventId : String) : Option AppEventWatcherService :=
  if eventId ∈ w.seenOrder then none
  else
    let order := w.seenOrder ++ [eventId]
    some { w with seenOrder := order.drop (order.length - 8192) }

def admitFor (signal : AppEventSignal) (receivedAtMs : ℕ) (subscriptionId : String) :
    ℕ × AppEventWatcherService :=
  let key : PendingKey :=
    { subscriptionId := subscriptionId
      appId := signal.appId
      resourceRef := signal.resourceRef
      kind := signal.kind }
  match w.pending.find? key with
  | some _ => (1, { w with
      pending := w.pending.update key fun entry => entry.coalesce signal receivedAtMs })
  | none =>
    if 1024 ≤ w.pending.rows.length then
      (0, { w with
        droppedEvents := min (w.droppedEvents + 1) (2 ^ 64 - 1)
        gapDetected := true })
    else (1, { w with pending := w.pending.upsert (.opened key signal receivedAtMs) })

def admitAll (signal : AppEventSignal) (receivedAtMs : ℕ) :
    List String → AppEventWatcherService → ℕ × AppEventWatcherService
  | [], w => (0, w)
  | subscriptionId :: subscriptionIds, w =>
    let one := w.admitFor signal receivedAtMs subscriptionId
    let rest := admitAll signal receivedAtMs subscriptionIds one.2
    (one.1 + rest.1, rest.2)

def matching (signal : AppEventSignal) : List String :=
  (w.subscriptions.rows.filter fun subscription => matchesSubscription subscription signal).map
    AppEventSubscription.subscriptionId

def ingestSignals (receivedAtMs : ℕ) :
    List AppEventSignal → AppEventWatcherService → ℕ × AppEventWatcherService
  | [], w => (0, w)
  | signal :: signals, w =>
    match w.remember signal.eventId with
    | none => ingestSignals receivedAtMs signals w
    | some w =>
      let one := admitAll signal receivedAtMs (w.matching signal) w
      let rest := ingestSignals receivedAtMs signals one.2
      (one.1 + rest.1, rest.2)

/-- The subscriptions are expired before the size of the batch is looked at. -/
def ingest (C : Chrono) (batch : WatcherBatch) (now : Instant) (receivedAtMs : ℕ) :
    Except String ℕ × AppEventWatcherService :=
  match C.validateBatch batch with
  | .error error => (.error error, w)
  | .ok () =>
    let live := w.expireSubscriptions C now
    if 512 < batch.events.length then (.error "App event batch exceeds 512 events", live)
    else
      let (admitted, w) := ingestSignals receivedAtMs batch.events live
      (.ok admitted, { w with
        gapDetected := w.gapDetected || batch.gapDetected
        sourceCursors := w.sourceCursors.upsert (batch.sourceId, batch.cursor) })

/-- The driver is its source and what it answers to a cursor and a limit. -/
def pollDriver (C : Chrono) (source : WatcherSourceKind)
    (poll : Option String → ℕ → Except String WatcherBatch) (now : Instant) (receivedAtMs : ℕ) :
    Except String ℕ × AppEventWatcherService :=
  match poll (w.sourceCursor (sourceName source)) 512 with
  | .error error => (.error error, w)
  | .ok batch =>
    if batch.source ≠ source ∨ batch.sourceId ≠ sourceName source then
      (.error "App event driver returned a mismatched source", w)
    else w.ingest C batch now receivedAtMs

def isReady (nowMs : ℕ) (entry : PendingEntry) : Bool :=
  decide (w.quietWindowMs ≤ nowMs - entry.item.lastReceivedAtMs)

/-- The wakes of the entries that are still pending, which are removed. -/
def takeWakes : List PendingEntry → Table PendingEntry.key →
    List AppEventWake × Table PendingEntry.key
  | [], pending => ([], pending)
  | entry :: entries, pending =>
    match pending.find? entry.key with
    | none => takeWakes entries pending
    | some _ =>
      let rest := takeWakes entries (pending.delete entry.key)
      (entry.wake :: rest.1, rest.2)

def drainReady (nowMs limit : ℕ) : WatcherDrain × AppEventWatcherService :=
  let ready := (w.pending.rows.filter (w.isReady nowMs)).mergeSort PendingEntry.before
  let taken := takeWakes (ready.take (max 1 (min limit 128))) w.pending
  ({ protocol := "dev.wiii.app-events.v1"
     wakes := taken.1
     gapDetected := w.gapDetected
     droppedEvents := w.droppedEvents },
   { w with
     pending := taken.2
     gapDetected := false
     droppedEvents := 0 })

end AppEventWatcherService

end Wiii.Neko.AppEvents
