import Wiii.Neko.Signal.Schema
import Mathlib.Data.List.Sort

/-!
# The operations of the signal inbox

Each public operation of `SignalInbox` as the transaction it runs.  Texts of timestamps are compared as texts, as the
database compares them.
-/

namespace Wiii.Neko.Signal

def maxItems : ℕ := 10000
def maxDedupeRows : ℕ := 50000
def maxConsultRefs : ℕ := 32
def maxClaimItems : ℕ := 16
def minLeaseSeconds : ℕ := 15
def maxLeaseSeconds : ℕ := 15 * 60

/-- The columns of an item that a transition sets, and the lease it is made under. -/
structure SignalTransition where
  signalId : String
  leaseId : String
  operationId : String
  action : String
  nextState : SignalState
  outcome : Option SignalOutcome
  availableAt : Option String
  revisionHash : Option (List UInt8)

namespace Platform

variable (P : Platform)

def accountHash (accountGrantRef : String) : List UInt8 := P.digest ["account", accountGrantRef]

def dedupeHash (sourceId dedupeKey : String) : List UInt8 :=
  P.digest ["dedupe", sourceId, dedupeKey]

def cursorKey (sourceId accountGrantRef : String) : List UInt8 :=
  P.digest ["cursor", sourceId, accountGrantRef]

def coalesceHash (input : SignalIngress) : List UInt8 :=
  P.digest ["resource", input.sourceId, input.accountGrantRef, input.appId, input.resourceRef,
    kindName input.kind]

end Platform

def cursorId (cursorKey : List UInt8) : String := "cursor-" ++ Platform.shortDigest cursorKey

def SignalIngress.privateFields (input : SignalIngress) : PrivateSignalFields :=
  ⟨input.accountGrantRef, input.resourceRef, input.sourceCursor⟩

namespace SignalInbox

variable (P : Platform)

/-! ## Random values -/

def newUuid (db : Inbox) : String × Inbox := (P.newV4 db.drawn, { db with drawn := db.drawn + 1 })

def encrypt (recordId : String) (seq : ℕ) (updatedAt : String) (fields : PrivateSignalFields)
    (db : Inbox) : Nonce × List UInt8 × Inbox :=
  (P.randomNonce db.drawn,
    P.encrypt (P.randomNonce db.drawn) (Platform.aad recordId seq updatedAt) (P.toVec fields),
    { db with drawn := db.drawn + 1 })

/-! ## Reading items -/

def decrypt (stored : StoredSignal) : Except String PrivateSignalFields :=
  P.decryptPrivate stored.signalId stored.seq stored.cipherAt stored.nonce stored.ciphertext

def claimOf (stored : StoredSignal) : Except String (Option SignalClaim) :=
  match stored.claimWorkerId, stored.claimLeaseId, stored.claimExpiresAt with
  | some workerId, some leaseId, some expiresAt =>
    if stored.state = .claimed then
      if stored.claimAttempt < 2 ^ 32 then
        .ok (some ⟨workerId, leaseId, expiresAt, stored.claimAttempt⟩)
      else .error "Signal Inbox attempt is invalid"
    else .ok none
  | _, _, _ => .ok none

def item (stored : StoredSignal) : Except String SignalItem := do
  let fields ← decrypt P stored
  let claim ← claimOf stored
  if 2 ^ 32 ≤ stored.coalescedCount then .error "Signal Inbox coalesced count is invalid"
  else
    pure {
      signalId := stored.signalId
      sourceId := stored.sourceId
      accountGrantRef := fields.accountGrantRef
      appId := stored.appId
      resourceRef := fields.resourceRef
      kind := stored.kind
      sourceCursor := fields.sourceCursor
      observedAt := stored.observedAt
      availableAt := stored.availableAt
      expiresAt := stored.expiresAt
      priorityClass := stored.priorityClass
      state := stored.state
      claim := claim
      contentAvailable := stored.contentAvailable
      gapDetected := stored.gapDetected
      coalescedCount := stored.coalescedCount
      lastOutcome := stored.lastOutcome }

def readBySeq (seq : ℕ) (db : Inbox) : Except String SignalItem :=
  match db.items.rows.find? (fun r => r.seq = seq) with
  | none => .error "read claimed Signal Inbox item failed: Query returned no rows"
  | some stored => item P stored

def readById (signalId : String) (db : Inbox) : Except String SignalItem :=
  match db.items.find? signalId with
  | none => .error "read Signal Inbox item failed: Query returned no rows"
  | some stored => item P stored

/-! ## Cursors -/

/-- `INSERT … ON CONFLICT(cursor_key) DO UPDATE SET …`: the row that a write leaves. -/
def writtenRow (old : Option CursorRow) (excluded : CursorRow) : CursorRow :=
  match old with
  | none => excluded
  | some row => { row with
      updatedAt := excluded.updatedAt, gapDetected := excluded.gapDetected
      nonce := excluded.nonce, ciphertext := excluded.ciphertext }

/-- The values of a cursor write, sealed for its key. -/
def excludedRow (sourceId accountGrantRef sourceCursor : String) (gapDetected : Bool)
    (updatedAt : String) (db : Inbox) : CursorRow :=
  let key := P.cursorKey sourceId accountGrantRef
  let (nonce, ciphertext, _) :=
    encrypt P (cursorId key) 0 updatedAt ⟨accountGrantRef, "", sourceCursor⟩ db
  ⟨key, sourceId, P.accountHash accountGrantRef, updatedAt, gapDetected, nonce, ciphertext⟩

def writeCursorValues (sourceId accountGrantRef sourceCursor : String) (gapDetected : Bool)
    (updatedAt : String) (db : Inbox) : Inbox :=
  { db with
    cursors := db.cursors.upsert
      (writtenRow (db.cursors.find? (P.cursorKey sourceId accountGrantRef))
        (excludedRow P sourceId accountGrantRef sourceCursor gapDetected updatedAt db))
    drawn := db.drawn + 1 }

@[simp] theorem items_writeCursorValues (source account cursor : String) (gap : Bool)
    (updatedAt : String) (db : Inbox) :
    (writeCursorValues P source account cursor gap updatedAt db).items = db.items := rfl

def writeCursor (input : SignalIngress) (updatedAt : String) (db : Inbox) : Inbox :=
  writeCursorValues P input.sourceId input.accountGrantRef input.sourceCursor input.gapDetected
    updatedAt db

def cursor (sourceId accountGrantRef : String) (db : Inbox) :
    Except String (Option SignalCursorCheckpoint) := do
  boundedIdentifier sourceId "sourceId" 96
  boundedIdentifier accountGrantRef "accountGrantRef" 256
  match db.cursors.find? (P.cursorKey sourceId accountGrantRef) with
  | none => .ok none
  | some row =>
    let fields ← P.decryptPrivate (cursorId (P.cursorKey sourceId accountGrantRef)) 0 row.updatedAt
      row.nonce row.ciphertext
    if fields.accountGrantRef ≠ accountGrantRef ∨ fields.resourceRef ≠ "" then
      .error "Signal Inbox cursor binding is invalid"
    else .ok (some ⟨fields.sourceCursor, row.updatedAt, row.gapDetected⟩)

def advanceCursor (sourceId accountGrantRef sourceCursor : String) (gapDetected : Bool)
    (now : Instant) (db : Inbox) : Except String (SignalCursorCheckpoint × Inbox) := do
  boundedIdentifier sourceId "sourceId" 96
  boundedIdentifier accountGrantRef "accountGrantRef" 256
  boundedOpaque sourceCursor "sourceCursor" 1024
  let updatedAt := P.timestamp now
  .ok (⟨sourceCursor, updatedAt, gapDetected⟩,
    writeCursorValues P sourceId accountGrantRef sourceCursor gapDetected updatedAt db)

/-! ## Admission -/

/-- The numbers of the oldest terminal items that stand in the way of one more item. -/
def doomed (db : Inbox) : List ℕ :=
  ((db.items.rows.filter (·.state.isTerminal)).take
    (db.items.rows.length + 1 - maxItems)).map StoredSignal.seq

def prune (db : Inbox) : Inbox :=
  { db with items := db.items.deleteWhere fun r => decide (r.seq ∈ doomed db) }

def ensureCapacity (db : Inbox) : Except String Inbox :=
  if maxItems ≤ (prune db).items.rows.length then
    .error "signal_inbox_full: no terminal item can be pruned safely"
  else .ok (prune db)

/-- The row as it is inserted, before it is sealed. -/
def insertedRow (input : SignalIngress) (signalId updatedAt : String) (seq : ℕ) :
    StoredSignal where
  seq := seq
  signalId := signalId
  sourceId := input.sourceId
  accountGrantHash := P.accountHash input.accountGrantRef
  appId := input.appId
  coalesceHash := P.coalesceHash input
  kind := input.kind
  observedAt := input.observedAt
  availableAt := input.availability
  expiresAt := input.expiresAt
  priorityClass := input.priorityClass
  state := .pending
  claimWorkerId := none
  claimLeaseId := none
  claimExpiresAt := none
  claimAttempt := 0
  contentAvailable := input.contentAvailable
  gapDetected := input.gapDetected
  coalescedCount := 1
  lastOutcome := none
  updatedAt := updatedAt
  cipherAt := updatedAt
  nonce := []
  ciphertext := []

def sealedRow (nonce : Nonce) (ciphertext : List UInt8) (r : StoredSignal) : StoredSignal :=
  { r with nonce := nonce.val, ciphertext := ciphertext }

theorem keepsKeys_sealedRow (nonce : Nonce) (ciphertext : List UInt8) :
    KeepsKeys (sealedRow nonce ciphertext) :=
  ⟨fun _ => rfl, fun _ => rfl⟩

def insertItem (input : SignalIngress) (updatedAt : String) (db : Inbox) :
    Except String (String × Inbox) := do
  let db ← ensureCapacity db
  let (uuid, db) := newUuid P db
  let signalId := "signal-" ++ uuid
  match db.items.insert? (insertedRow P input signalId updatedAt) (fun _ => rfl) with
  | none => .error "insert Signal Inbox item failed: UNIQUE constraint failed"
  | some items =>
    let seq := items.lastSeq
    let (nonce, ciphertext, db) :=
      encrypt P signalId seq updatedAt input.privateFields { db with items := items }
    .ok (signalId, { db with
      items := db.items.updateWhere (fun r => decide (r.seq = seq)) (sealedRow nonce ciphertext)
        (keepsKeys_sealedRow nonce ciphertext) })

/-- The item that new events with this hash coalesce into: the newest pending or deferred one. -/
def newestWaiting (coalesceHash : List UInt8) (db : Inbox) : Option StoredSignal :=
  (db.items.rows.filter fun r => decide (r.coalesceHash = coalesceHash) && r.state.isWaiting).getLast?

/-- The row of an item after one more event, sealed anew. -/
def coalescedRow (input : SignalIngress) (updatedAt : String) (nonce : Nonce)
    (ciphertext : List UInt8) (r : StoredSignal) : StoredSignal :=
  { r with
    observedAt := input.observedAt
    availableAt := min r.availableAt input.availability
    expiresAt := max r.expiresAt input.expiresAt
    priorityClass := r.priorityClass.raise input.priorityClass
    contentAvailable := r.contentAvailable || input.contentAvailable
    gapDetected := r.gapDetected || input.gapDetected
    coalescedCount := r.coalescedCount + 1
    updatedAt := updatedAt
    cipherAt := updatedAt
    nonce := nonce.val
    ciphertext := ciphertext }

theorem keepsKeys_coalescedRow (input : SignalIngress) (updatedAt : String) (nonce : Nonce)
    (ciphertext : List UInt8) : KeepsKeys (coalescedRow input updatedAt nonce ciphertext) :=
  ⟨fun _ => rfl, fun _ => rfl⟩

def coalesce (input : SignalIngress) (updatedAt : String) (existing : StoredSignal) (db : Inbox) :
    Inbox :=
  let (nonce, ciphertext, db) :=
    encrypt P existing.signalId existing.seq updatedAt input.privateFields db
  { db with
    items := db.items.updateWhere (fun r => decide (r.seq = existing.seq))
      (coalescedRow input updatedAt nonce ciphertext)
      (keepsKeys_coalescedRow input updatedAt nonce ciphertext) }

/-- Coalesces the event into a waiting item or inserts an item for it. -/
def admitItem (input : SignalIngress) (updatedAt : String) (db : Inbox) :
    Except String (SignalAdmission × Inbox) :=
  match newestWaiting (P.coalesceHash input) db with
  | some existing =>
    .ok (⟨.coalesced, existing.signalId⟩, coalesce P input updatedAt existing db)
  | none => do
    let (signalId, db) ← insertItem P input updatedAt db
    .ok (⟨.inserted, signalId⟩, db)

/-- Remembers the dedupe key of an admitted event. -/
def remember (input : SignalIngress) (signalId updatedAt : String) (db : Inbox) :
    Except String Inbox :=
  match db.dedupe.insert? ⟨P.dedupeHash input.sourceId input.dedupeKey, signalId, updatedAt⟩ with
  | none => .error "write Signal Inbox dedupe failed: UNIQUE constraint failed"
  | some dedupe => .ok { db with dedupe := dedupe }

def ingestOne (input : SignalIngress) (updatedAt : String) (db : Inbox) :
    Except String (SignalAdmission × Inbox) :=
  match db.dedupe.find? (P.dedupeHash input.sourceId input.dedupeKey) with
  | some row => .ok (⟨.deduplicated, row.signalId⟩, writeCursor P input updatedAt db)
  | none => do
    let (admission, db) ← admitItem P input updatedAt db
    let db ← remember P input admission.signalId updatedAt db
    .ok (admission, writeCursor P input updatedAt db)

def ingestAll (updatedAt : String) : List SignalIngress → Inbox →
    Except String (List SignalAdmission × Inbox)
  | [], db => .ok ([], db)
  | input :: inputs, db => do
    let (admission, db) ← ingestOne P input updatedAt db
    let (admissions, db) ← ingestAll updatedAt inputs db
    .ok (admission :: admissions, db)

def validateAll : List SignalIngress → Except String Unit
  | [] => .ok ()
  | input :: inputs => do
    P.validateIngress input
    validateAll inputs

/-- Forgets all but the newest dedupe keys. -/
def forget (db : Inbox) : Inbox := { db with dedupe := db.dedupe.keepLast maxDedupeRows }

@[simp] theorem items_forget (db : Inbox) : (forget db).items = db.items := by
  rw [forget]

@[simp] theorem cursors_forget (db : Inbox) : (forget db).cursors = db.cursors := by
  rw [forget]

def ingestBatch (inputs : List SignalIngress) (now : Instant) (db : Inbox) :
    Except String (List SignalAdmission × Inbox) :=
  if inputs.isEmpty ∨ 10000 < inputs.length then
    .error "Signal Inbox batch must contain between 1 and 10000 items"
  else do
    validateAll P inputs
    let (admissions, db) ← ingestAll P (P.timestamp now) inputs db
    .ok (admissions, forget db)

/-! ## Recovery -/

/-- The column is set and its text is not after the other. -/
def dueAt (column : Option String) (current : String) : Bool :=
  match column with
  | some value => decide (value ≤ current)
  | none => false

/-- The lease of the item ran out. -/
def released (current : String) (r : StoredSignal) : StoredSignal :=
  { r with
    state := .pending, claimWorkerId := none, claimLeaseId := none, claimExpiresAt := none
    updatedAt := current }

/-- The time the item was deferred to has come. -/
def reopened (current : String) (r : StoredSignal) : StoredSignal :=
  { r with state := .pending, updatedAt := current }

def expiredRow (current : String) (r : StoredSignal) : StoredSignal :=
  { r with
    state := .expired, claimWorkerId := none, claimLeaseId := none, claimExpiresAt := none
    updatedAt := current }

theorem keepsKeys_released (current : String) : KeepsKeys (released current) :=
  ⟨fun _ => rfl, fun _ => rfl⟩

theorem keepsKeys_reopened (current : String) : KeepsKeys (reopened current) :=
  ⟨fun _ => rfl, fun _ => rfl⟩

theorem keepsKeys_expiredRow (current : String) : KeepsKeys (expiredRow current) :=
  ⟨fun _ => rfl, fun _ => rfl⟩

/-- `state = 'claimed' AND claim_expires_at <= ?1`. -/
def isLapsed (current : String) (r : StoredSignal) : Bool :=
  decide (r.state = .claimed) && dueAt r.claimExpiresAt current

/-- `state = 'deferred' AND available_at <= ?1`. -/
def isDue (current : String) (r : StoredSignal) : Bool :=
  decide (r.state = .deferred) && decide (r.availableAt ≤ current)

/-- `state IN ('pending', 'claimed', 'deferred') AND expires_at <= ?1`. -/
def isOutdated (current : String) (r : StoredSignal) : Bool :=
  r.state.isOpen && decide (r.expiresAt ≤ current)

def release (current : String) (db : Inbox) : Inbox :=
  { db with
    items := db.items.updateWhere (isLapsed current) (released current)
      (keepsKeys_released current) }

def reopen (current : String) (db : Inbox) : Inbox :=
  { db with
    items := db.items.updateWhere (isDue current) (reopened current)
      (keepsKeys_reopened current) }

def expire (current : String) (db : Inbox) : Inbox :=
  { db with
    items := db.items.updateWhere (isOutdated current) (expiredRow current)
      (keepsKeys_expiredRow current) }

def recover (current : String) (db : Inbox) : Inbox :=
  expire current (reopen current (release current db))

/-! ## Consultation and claims -/

/-- `state = 'pending' AND available_at <= ?1 AND expires_at > ?1`. -/
def isReady (current : String) (r : StoredSignal) : Bool :=
  decide (r.state = .pending) && decide (r.availableAt ≤ current) && decide (current < r.expiresAt)

/-- The first ready items, the most urgent first. -/
def readyRows (current : String) (limit : ℕ) (db : Inbox) : List StoredSignal :=
  ((db.items.rows.filter (isReady current)).mergeSort
    fun a b => decide (a.priorityClass.place ≤ b.priorityClass.place)).take limit

/-- `SELECT … COUNT(*) … GROUP BY source_id, state, priority_class`. -/
def groupCounts (rows : List StoredSignal) : List SignalCount :=
  let groups := (rows.map fun r => (r.sourceId, r.state, r.priorityClass)).dedup
  let sorted := groups.mergeSort fun a b =>
    decide (a.1 < b.1) || decide (a.1 = b.1) &&
      (decide (a.2.1.name < b.2.1.name) || decide (a.2.1.name = b.2.1.name) &&
        decide (a.2.2.name ≤ b.2.2.name))
  sorted.map fun g => ⟨g.1, g.2.1, g.2.2,
    rows.countP fun r => decide ((r.sourceId, r.state, r.priorityClass) = g)⟩

def consult (request : SignalInboxConsultRequest) (now : Instant) (db : Inbox) :
    Except String (SignalInboxSummary × Inbox) :=
  if maxConsultRefs < request.maxRefs then
    .error "Signal Inbox maxRefs must be between 0 and 32"
  else
    let current := P.timestamp now
    let db := recover current db
    .ok ({ protocolVersion := "wiii-signal-inbox.v1"
           encrypted := true
           itemCount := db.items.rows.length
           readyCount := db.items.rows.countP (isReady current)
           gapCount := db.cursors.rows.countP (·.gapDetected)
           counts := groupCounts db.items.rows
           pendingRefs := (readyRows current request.maxRefs db).map StoredSignal.signalId }, db)

def claimedRow (workerId leaseId leaseExpiresAt current : String) (r : StoredSignal) :
    StoredSignal :=
  { r with
    state := .claimed, claimWorkerId := some workerId, claimLeaseId := some leaseId
    claimExpiresAt := some leaseExpiresAt, claimAttempt := r.claimAttempt + 1
    updatedAt := current }

/-- `seq = ?5 AND state = 'pending'`. -/
def isClaimable (seq : ℕ) (r : StoredSignal) : Bool :=
  decide (r.seq = seq) && decide (r.state = .pending)

theorem keepsKeys_claimedRow (workerId leaseId leaseExpiresAt current : String) :
    KeepsKeys (claimedRow workerId leaseId leaseExpiresAt current) :=
  ⟨fun _ => rfl, fun _ => rfl⟩

/-- Leases the items with these numbers, each under a lease of its own. -/
def claimEach (workerId leaseExpiresAt current : String) : List ℕ → Inbox →
    Except String (List SignalItem × Inbox)
  | [], db => .ok ([], db)
  | seq :: seqs, db => do
    let (uuid, db) := newUuid P db
    let changed := db.items.rows.countP (isClaimable seq)
    let db := { db with
      items := db.items.updateWhere (isClaimable seq)
        (claimedRow workerId ("signal-lease-" ++ uuid) leaseExpiresAt current)
        (keepsKeys_claimedRow workerId ("signal-lease-" ++ uuid) leaseExpiresAt current) }
    if changed = 1 then do
      let first ← readBySeq P seq db
      let (rest, db) ← claimEach workerId leaseExpiresAt current seqs db
      .ok (first :: rest, db)
    else claimEach workerId leaseExpiresAt current seqs db

def claimAt (request : SignalClaimRequest) (current : Instant) (db : Inbox) :
    Except String (List SignalItem × Inbox) :=
  let currentText := P.timestamp current
  let leaseExpiresAt := P.timestamp (P.plusSeconds current request.leaseSeconds)
  let db := recover currentText db
  claimEach P request.workerId leaseExpiresAt currentText
    ((readyRows currentText request.maxItems db).map StoredSignal.seq) db

def claim (request : SignalClaimRequest) (now : Instant) (db : Inbox) :
    Except String (List SignalItem × Inbox) := do
  boundedIdentifier request.workerId "workerId" 160
  if ¬ (1 ≤ request.maxItems ∧ request.maxItems ≤ maxClaimItems) then
    .error "Signal Inbox maxItems must be between 1 and 16"
  else if ¬ (minLeaseSeconds ≤ request.leaseSeconds ∧ request.leaseSeconds ≤ maxLeaseSeconds) then
    .error "Signal Inbox leaseSeconds must be between 15 and 900"
  else claimAt P request now db

/-! ## Transitions -/

/-- The item is leased under this lease, and the lease has not run out. -/
def isHeld (signalId leaseId current : String) (r : StoredSignal) : Bool :=
  decide (r.signalId = signalId) && decide (r.state = .claimed) &&
    decide (r.claimLeaseId = some leaseId) &&
    match r.claimExpiresAt with
    | some expiresAt => decide (current < expiresAt)
    | none => false

def transitionedRow (request : SignalTransition) (current : String) (r : StoredSignal) :
    StoredSignal :=
  { r with
    state := request.nextState
    lastOutcome := request.outcome
    availableAt := request.availableAt.getD r.availableAt
    claimWorkerId := none, claimLeaseId := none, claimExpiresAt := none
    updatedAt := current }

theorem keepsKeys_transitionedRow (request : SignalTransition) (current : String) :
    KeepsKeys (transitionedRow request current) :=
  ⟨fun _ => rfl, fun _ => rfl⟩

def operationRow (request : SignalTransition) (current : String) : OperationRow where
  operationId := request.operationId
  signalId := request.signalId
  action := request.action
  sourceRevisionHash := request.revisionHash
  resultState := request.nextState
  completedAt := current

def operationReused : String := "Signal Inbox operationId was reused for a different transition"

def claimLost : String := "signal_claim_lost: Signal Inbox claim is absent or expired"

/-- The update of the leased item and the record of the operation. -/
def performTransition (request : SignalTransition) (current : String) (db : Inbox) :
    Except String Inbox :=
  let db := recover current db
  let held := isHeld request.signalId request.leaseId current
  if db.items.rows.countP held ≠ 1 then .error claimLost
  else
    match db.operations.insert? (operationRow request current) with
    | none => .error "write Signal Inbox operation failed: UNIQUE constraint failed"
    | some operations => .ok { db with
        items := db.items.updateWhere held (transitionedRow request current)
          (keepsKeys_transitionedRow request current)
        operations := operations }

def transition (request : SignalTransition) (now : Instant) (db : Inbox) :
    Except String (SignalItem × Inbox) :=
  match db.operations.find? request.operationId with
  | some row =>
    if row.signalId ≠ request.signalId ∨ row.action ≠ request.action then .error operationReused
    else do
      let item ← readById P request.signalId db
      .ok (item, db)
  | none => do
    let db ← performTransition request (P.timestamp now) db
    let item ← readById P request.signalId db
    .ok (item, db)

def deferral (request : SignalDeferRequest) (availableAt : Instant) : SignalTransition where
  signalId := request.signalId
  leaseId := request.leaseId
  operationId := request.operationId
  action := "defer"
  nextState := .deferred
  outcome := none
  availableAt := some (P.timestamp availableAt)
  revisionHash := none

/-- `now` is read for the check of the time, `current` for the transition. -/
def defer (request : SignalDeferRequest) (now current : Instant) (db : Inbox) :
    Except String (SignalItem × Inbox) := do
  boundedIdentifier request.signalId "signalId" 160
  boundedIdentifier request.leaseId "leaseId" 160
  boundedIdentifier request.operationId "operationId" 200
  let availableAt ← P.parseTimestamp request.availableAt "availableAt"
  if availableAt ≤ now then .error "Signal Inbox defer time must be in the future"
  else transition P (deferral P request availableAt) current db

def resolution (request : SignalResolveRequest) : SignalTransition where
  signalId := request.signalId
  leaseId := request.leaseId
  operationId := request.operationId
  action := "resolve"
  nextState := if request.outcome = .failed then .deadLetter else .resolved
  outcome := some request.outcome
  availableAt := none
  revisionHash := some (P.digest ["revision", request.sourceRevision])

def resolve (request : SignalResolveRequest) (current : Instant) (db : Inbox) :
    Except String (SignalItem × Inbox) := do
  boundedIdentifier request.signalId "signalId" 160
  boundedIdentifier request.leaseId "leaseId" 160
  boundedIdentifier request.operationId "operationId" 200
  boundedOpaque request.sourceRevision "sourceRevision" 512
  transition P (resolution P request) current db

/-! ## Revocation -/

/-- The row of an open item whose account is revoked. -/
def revokedRow (current : String) (r : StoredSignal) : StoredSignal :=
  { r with
    state := .resolved, lastOutcome := some .revoked
    claimWorkerId := none, claimLeaseId := none, claimExpiresAt := none
    contentAvailable := false, updatedAt := current }

theorem keepsKeys_revokedRow (current : String) : KeepsKeys (revokedRow current) :=
  ⟨fun _ => rfl, fun _ => rfl⟩

/-- `account_grant_hash = ?2 AND state IN ('pending', 'claimed', 'deferred')`. -/
def isRevoked (accountHash : List UInt8) (r : StoredSignal) : Bool :=
  decide (r.accountGrantHash = accountHash) && r.state.isOpen

def revokeAccount (request : SignalAccountRevokeRequest) (now : Instant) (db : Inbox) :
    Except String (ℕ × Inbox) := do
  boundedIdentifier request.accountGrantRef "accountGrantRef" 256
  let accountHash := P.accountHash request.accountGrantRef
  .ok (db.items.rows.countP (isRevoked accountHash), { db with
    items := db.items.updateWhere (isRevoked accountHash) (revokedRow (P.timestamp now))
      (keepsKeys_revokedRow (P.timestamp now))
    cursors := db.cursors.deleteWhere fun r => decide (r.accountGrantHash = accountHash) })

end SignalInbox

end Wiii.Neko.Signal
