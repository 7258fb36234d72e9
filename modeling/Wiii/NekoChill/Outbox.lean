import Wiii.Lib.Run
import Wiii.Lib.Table
import Wiii.NekoChill.JsValue

/-!
# The outbox of user messages

Messages wait in a queue for each session until the session takes them.  The queues are on disk and in memory, and a
change is a transaction that writes them before the memory has them.  A dispatch is a call with three awaits: it marks
the first message as being delivered, sends it, and takes it out or marks it again.

Message ids are numbers, in the order of the draws.  `sends`, `accepted`, `removed`, `stored`, `restored` and
`overtaken` record what happened.
-/

namespace Wiii.NekoChill

open Function (update)

/-! ## Queues -/

structure OutboxBinding where
  sessionId : String
  workspace : String
  task : String
  model : String
  deriving DecidableEq

inductive ItemState where
  | queued
  | delivering
  | uncertain
  deriving DecidableEq

structure OutboxItem where
  id : ℕ
  text : JsText
  binding : OutboxBinding
  state : ItemState
  deriving DecidableEq

structure OutboxQueue where
  sessionId : String
  paused : Bool
  reason : Option String
  items : List OutboxItem
  deriving DecidableEq

abbrev OutboxSnapshot := Table OutboxQueue.sessionId

def maxItems : ℕ := 100
def maxText : ℕ := 64000

def isBadText (text : JsText) : Bool := isBlank text || decide (maxText < text.length)

def parseItems (sessionId : String) : List ℕ → List OutboxItem → Except String Unit
  | _, [] => .ok ()
  | seen, item :: items =>
    if item.id ∈ seen ∨ isBadText item.text ∨ item.binding.sessionId ≠ sessionId then
      .error "Tin nhắn chờ không hợp lệ."
    else parseItems sessionId (item.id :: seen) items

def parseQueues : List String → List OutboxQueue → Except String Unit
  | _, [] => .ok ()
  | seen, queue :: queues =>
    if queue.sessionId ∈ seen ∨ maxItems < queue.items.length then .error "Hàng đợi không hợp lệ."
    else do
      parseItems queue.sessionId [] queue.items
      parseQueues (queue.sessionId :: seen) queues

/-- What is read has the shape of what was written; its values are checked. -/
def parseOutbox (queues : List OutboxQueue) : Except String (List OutboxQueue) := do
  parseQueues [] queues
  return queues

/-! ## Changes -/

def setState (id : ℕ) (state : ItemState) (items : List OutboxItem) : List OutboxItem :=
  items.map fun item => if item.id = id then { item with state := state } else item

def setText (id : ℕ) (text : JsText) (items : List OutboxItem) : List OutboxItem :=
  items.map fun item => if item.id = id then { item with text := text } else item

def findItem (id : ℕ) (items : List OutboxItem) : Option OutboxItem := items.find? fun item => decide (item.id = id)

namespace OutboxSnapshot

variable (snapshot : OutboxSnapshot)

def items (sessionId : String) : List OutboxItem := ((snapshot.find? sessionId).map OutboxQueue.items).getD []

def enqueue (binding : OutboxBinding) (text : JsText) (id : ℕ) : Except String OutboxSnapshot :=
  let queue := (snapshot.find? binding.sessionId).getD ⟨binding.sessionId, false, none, []⟩
  if isBadText text then .error "Tin nhắn cần từ 1 đến 64.000 ký tự."
  else if maxItems ≤ queue.items.length then
    .error "Hàng đợi đã đủ 100 tin. Hãy xử lý hoặc bỏ bớt tin chờ."
  else if (findItem id queue.items).isSome then .ok snapshot
  else .ok (snapshot.upsert { queue with
    sessionId := binding.sessionId, items := queue.items ++ [⟨id, text, binding, .queued⟩] })

def pause (sessionId reason : String) : OutboxSnapshot :=
  snapshot.update sessionId fun queue => { queue with paused := true, reason := some reason }

def resume (sessionId : String) : Except String OutboxSnapshot :=
  if (snapshot.items sessionId).any fun item => decide (item.state ≠ .queued) then
    .error "Có tin chưa rõ kết quả gửi. Đối chiếu lịch sử và bỏ tin đó khỏi hàng đợi trước."
  else .ok (snapshot.update sessionId fun queue => { queue with paused := false, reason := none })

def edit (sessionId : String) (id : ℕ) (text : JsText) : Except String OutboxSnapshot :=
  if !(findItem id (snapshot.items sessionId)).any fun item => decide (item.state = .queued) then
    .error "Tin này không còn ở trạng thái chờ sửa."
  else if isBadText text then .error "Nội dung không hợp lệ."
  else .ok (snapshot.update sessionId fun queue => { queue with items := setText id text queue.items })

def remove (sessionId : String) (id : ℕ) : Except String OutboxSnapshot :=
  if (findItem id (snapshot.items sessionId)).any fun item => decide (item.state = .delivering) then
    .error "Đang chuyển tin; chưa thể bỏ."
  else .ok (snapshot.update sessionId fun queue =>
    { queue with items := queue.items.filter fun item => decide (item.id ≠ id) })

/-- A dispatch changes its item, which has to be there. -/
def withItem (sessionId : String) (id : ℕ) (f : OutboxQueue → OutboxQueue)
    (hf : ∀ queue, (f queue).sessionId = queue.sessionId := by intro _; rfl) : Except String OutboxSnapshot :=
  if (findItem id (snapshot.items sessionId)).isSome then .ok (snapshot.update sessionId f hf)
  else .error "TypeError"

/-- `sending` starts. -/
def claim (sessionId : String) (id : ℕ) : Except String OutboxSnapshot :=
  snapshot.withItem sessionId id fun queue => { queue with items := setState id .delivering queue.items }

def hold (sessionId : String) (id : ℕ) : Except String OutboxSnapshot :=
  snapshot.withItem sessionId id fun queue => { queue with
    items := setState id .queued queue.items, paused := true,
    reason := some "Phiên đã thay đổi. Tin chưa được gửi." }

def settle (sessionId : String) (id : ℕ) (invoked completed : Bool) : Except String OutboxSnapshot :=
  if invoked && completed then .ok (snapshot.update sessionId fun queue =>
    { queue with items := queue.items.filter fun item => decide (item.id ≠ id) })
  else snapshot.withItem sessionId id fun queue => { queue with
    items := setState id (if invoked then .uncertain else .queued) queue.items, paused := true,
    reason := some (if invoked then "Chưa xác nhận kết quả gửi. Đối chiếu lịch sử; không gửi lại tự động."
      else "Phiên chưa nhận tin. Tin chờ được giữ lại.") }

def deliveringToUncertain (item : OutboxItem) : OutboxItem :=
  if item.state = .delivering then { item with state := .uncertain } else item

/-- The memory-only hold after a failure. -/
def withHeld (sessionId reason : String) (id : ℕ) : OutboxSnapshot :=
  snapshot.update sessionId fun queue => { queue with
    paused := true, reason := some reason,
    items := queue.items.map fun item => if item.id = id then deliveringToUncertain item else item }

def restored : OutboxSnapshot :=
  snapshot.updateWhere (fun _ => true) fun queue => { queue with
    paused := true, reason := some "Wiii đã mở lại. Kiểm tra tin nhắn trước khi tiếp tục.",
    items := queue.items.map deliveringToUncertain }

end OutboxSnapshot

/-! ## State -/

inductive OutboxChange where
  | enqueue (binding : OutboxBinding) (text : JsText) (id : ℕ)
  | edit (sessionId : String) (id : ℕ) (text : JsText)
  | remove (sessionId : String) (id : ℕ)
  | pause (sessionId reason : String)
  deriving DecidableEq

inductive Txn where
  | plain (change : OutboxChange)
  | resume (sessionId : String) (call : ℕ)
  | dispatch (sessionId : String)
  deriving DecidableEq

/-- How far a dispatch is; `claiming`, `holding` and `settling` await their transactions. -/
inductive Phase where
  | claiming (item : OutboxItem)
  | claimed (item : OutboxItem) (error : Option String)
  | holding (item : OutboxItem)
  | sending (item : OutboxItem) (invoked : Bool)
  | settling (item : OutboxItem) (invoked completed : Bool)
  | closing (item : OutboxItem) (error : Option String)
  deriving DecidableEq

structure ResumeCall where
  sessionId : String
  /-- Whether its transaction succeeded. -/
  settled : Option Bool := none
  /-- Whether the call succeeded. -/
  completed : Option Bool := none
  overtaken : Bool := false
  deriving DecidableEq

def ResumeCall.settle (error : Option String) (call : ResumeCall) : ResumeCall :=
  { call with settled := some error.isNone }

/-- A pause is called during it. -/
def ResumeCall.overtake (sessionId : String) (call : ResumeCall) : ResumeCall :=
  if call.sessionId = sessionId then { call with overtaken := true } else call

/-- A dispatch goes on after its transaction. -/
def Phase.settle (error : Option String) : Phase → Phase
  | .claiming item => .claimed item error
  | .holding item => .closing item error
  | .settling item _ _ => .closing item error
  | phase => phase

/-- The start of a send: the item as marked, and the session's binding then. -/
structure Sent where
  sessionId : String
  item : OutboxItem
  current : OutboxBinding
  deriving DecidableEq

structure Outbox where
  disk : OutboxSnapshot := ∅
  snapshot : OutboxSnapshot := ∅
  ready : Bool := false
  error : Option String := none
  blocked : String → Bool := fun _ => false
  inFlight : String → Option Phase := fun _ => none
  tail : List Txn := []
  /-- What the first transaction is writing. -/
  running : Option OutboxSnapshot := none
  hydrating : Option OutboxSnapshot := none
  resumes : ℕ → Option ResumeCall := fun _ => none
  nextItem : ℕ := 0
  nextCall : ℕ := 0
  sends : List Sent := []
  accepted : String → ℕ → Bool := fun _ _ => false
  removed : String → ℕ → Bool := fun _ _ => false
  stored : String → ℕ → Bool := fun _ _ => false
  restored : String → Bool := fun _ => false

/-- The bindings, `canSend`, the answers and the failures come from outside. -/
inductive OutboxAct where
  | enqueue (binding : OutboxBinding) (text : JsText)
  | edit (sessionId : String) (id : ℕ) (text : JsText)
  | remove (sessionId : String) (id : ℕ)
  | pause (sessionId reason : String)
  | resume (sessionId : String) (call : ℕ)
  | begin
  | written
  | failed (message : String) (reached : Bool)
  | resumed (call : ℕ)
  | dispatch (sessionId : String) (current : Option OutboxBinding) (canSend : Bool)
  | proceed (sessionId : String) (current : Option OutboxBinding) (canSend : Bool)
  | accept (sessionId : String)
  | reply (sessionId : String) (completed : Bool)
  | threw (sessionId message : String)
  | conclude (sessionId : String)
  | hydrate
  | hydrated
  | hydrateFailed (message : String) (reached : Bool)
  | restart (reached : Bool)
  deriving DecidableEq

namespace Outbox

variable (o : Outbox)

/-! ## Transactions -/

def push (txn : Txn) : Outbox := { o with tail := o.tail ++ [txn] }

def applyChange (snapshot : OutboxSnapshot) : OutboxChange → Except String OutboxSnapshot
  | .enqueue binding text id => snapshot.enqueue binding text id
  | .edit sessionId id text => snapshot.edit sessionId id text
  | .remove sessionId id => snapshot.remove sessionId id
  | .pause sessionId reason => .ok (snapshot.pause sessionId reason)

def applyPhase (snapshot : OutboxSnapshot) (sessionId : String) : Option Phase → Except String OutboxSnapshot
  | some (.claiming item) => snapshot.claim sessionId item.id
  | some (.holding item) => snapshot.hold sessionId item.id
  | some (.settling item invoked completed) => snapshot.settle sessionId item.id invoked completed
  | _ => .error "TypeError"

def applyTxn : Txn → Except String OutboxSnapshot
  | .plain change => applyChange o.snapshot change
  | .resume sessionId _ => o.snapshot.resume sessionId
  | .dispatch sessionId => applyPhase o.snapshot sessionId (o.inFlight sessionId)

def finish (txn : Txn) (rest : List Txn) (error : Option String) : Outbox :=
  let o := { o with tail := rest, running := none, error := error }
  match txn with
  | .plain _ => o
  | .resume _ call => { o with
      resumes := update o.resumes call ((o.resumes call).map (ResumeCall.settle error)) }
  | .dispatch sessionId => { o with
      inFlight := update o.inFlight sessionId ((o.inFlight sessionId).map (Phase.settle error)) }

/-- The first transaction starts: what it writes, or that it is refused. -/
def begin : Option Outbox :=
  match o.tail, o.running with
  | txn :: rest, none =>
    if !o.ready then some (o.finish txn rest (some "Chưa đọc được hàng đợi."))
    else match o.applyTxn txn with
      | .error message => some (o.finish txn rest (some message))
      | .ok next => some { o with running := some next }
  | _, _ => none

def isStored (next : OutboxSnapshot) (sessionId : String) (id : ℕ) : Bool :=
  decide (id ∈ (next.items sessionId).map OutboxItem.id)

def written : Option Outbox :=
  match o.tail, o.running with
  | txn :: rest, some next =>
    let o := { o with
      disk := next
      snapshot := next
      stored := fun sessionId id => o.stored sessionId id || isStored next sessionId id
      restored := fun sessionId => o.restored sessionId && match txn with
        | .resume resumedId _ => decide (sessionId ≠ resumedId)
        | _ => true }
    some (o.finish txn rest none)
  | _, _ => none

def failed (message : String) (reached : Bool) : Option Outbox :=
  match o.tail, o.running with
  | txn :: rest, some next =>
    some ({ o with disk := if reached then next else o.disk }.finish txn rest (some message))
  | _, _ => none

/-! ## Calls -/

def enqueue (binding : OutboxBinding) (text : JsText) : Outbox :=
  { o with nextItem := o.nextItem + 1 }.push (.plain (.enqueue binding text o.nextItem))

def remove (sessionId : String) (id : ℕ) : Outbox :=
  { o with removed := update o.removed sessionId (update (o.removed sessionId) id true) }.push
    (.plain (.remove sessionId id))

/-- The gate is closed before the queue is. -/
def pause (sessionId reason : String) : Outbox :=
  { o with
    blocked := update o.blocked sessionId true
    resumes := fun call => (o.resumes call).map (ResumeCall.overtake sessionId) }.push
    (.plain (.pause sessionId reason))

def resume (sessionId : String) (call : ℕ) : Option Outbox :=
  if call = o.nextCall then some ({ o with
    nextCall := o.nextCall + 1
    resumes := update o.resumes call (some { sessionId := sessionId }) }.push (.resume sessionId call))
  else none

/-- The rest of `resume`, after its transaction. -/
def resumed (call : ℕ) : Option Outbox :=
  match o.resumes call with
  | some c =>
    if c.completed.isSome then none
    else match c.settled with
      | none => none
      | some ok => some { o with
          resumes := update o.resumes call (some { c with completed := some ok })
          blocked := if ok then update o.blocked c.sessionId false else o.blocked }
  | none => none

/-! ## Dispatch -/

def changedReason : String :=
  "Dự án, tác vụ hoặc model đã đổi. Kiểm tra lại tin chờ; không tự gửi sang ngữ cảnh mới."

def nextQueued (sessionId : String) (canSend : Bool) : Option OutboxItem :=
  (o.snapshot.find? sessionId).bind fun queue =>
    if !o.ready || o.error.isSome || queue.paused || o.blocked sessionId || (o.inFlight sessionId).isSome ||
      !canSend then none
    else queue.items.head?.filter fun item => decide (item.state = .queued)

def dispatch (sessionId : String) (current : Option OutboxBinding) (canSend : Bool) : Outbox :=
  match o.nextQueued sessionId canSend with
  | none => o
  | some item =>
    if current = some item.binding then
      { o with inFlight := update o.inFlight sessionId (some (.claiming item)) }.push (.dispatch sessionId)
    else o.pause sessionId changedReason

/-- The item is sent as it is now, or held back. -/
def proceed (sessionId : String) (current : Option OutboxBinding) (canSend : Bool) : Option Outbox :=
  match o.inFlight sessionId with
  | some (.claimed item none) =>
    if o.blocked sessionId || !canSend || decide (current ≠ some item.binding) then
      some ({ o with inFlight := update o.inFlight sessionId (some (.holding item)) }.push (.dispatch sessionId))
    else match findItem item.id (o.snapshot.items sessionId) with
      | none => some { o with inFlight := update o.inFlight sessionId (some (.closing item (some "TypeError"))) }
      | some durable => some { o with
          inFlight := update o.inFlight sessionId (some (.sending item false))
          sends := o.sends ++ [⟨sessionId, durable, item.binding⟩] }
  | _ => none

def accept (sessionId : String) : Option Outbox :=
  match o.inFlight sessionId with
  | some (.sending item _) => some { o with
      inFlight := update o.inFlight sessionId (some (.sending item true))
      accepted := update o.accepted sessionId (update (o.accepted sessionId) item.id true) }
  | _ => none

def reply (sessionId : String) (completed : Bool) : Option Outbox :=
  match o.inFlight sessionId with
  | some (.sending item invoked) => some ({ o with
      inFlight := update o.inFlight sessionId (some (.settling item invoked completed)) }.push (.dispatch sessionId))
  | _ => none

def threw (sessionId message : String) : Option Outbox :=
  match o.inFlight sessionId with
  | some (.sending item _) => some { o with
      inFlight := update o.inFlight sessionId (some (.closing item (some message))) }
  | _ => none

def caught (sessionId message : String) (item : OutboxItem) : Outbox :=
  let error := "Không hoàn tất chuyển tin; hàng đợi đã dừng. " ++ message
  { o with
    blocked := update o.blocked sessionId true
    error := some error
    snapshot := o.snapshot.withHeld sessionId error item.id }

/-- The `catch` and the `finally` of a dispatch. -/
def conclude (sessionId : String) : Option Outbox :=
  match o.inFlight sessionId with
  | some (.claimed item (some message)) | some (.closing item (some message)) =>
    some { o.caught sessionId message item with inFlight := update o.inFlight sessionId none }
  | some (.closing _ none) => some { o with inFlight := update o.inFlight sessionId none }
  | _ => none

/-! ## Hydration and restart -/

/-- At most one hydration is under way. -/
def hydrate : Option Outbox :=
  if o.ready ∨ o.hydrating.isSome then none
  else match parseOutbox o.disk.rows with
    | .error message => some { o with error := some message }
    | .ok _ => some { o with hydrating := some o.disk.restored }

def hydrated : Option Outbox :=
  o.hydrating.map fun next => { o with
    disk := next
    snapshot := next
    ready := true
    error := none
    hydrating := none
    stored := fun sessionId id => o.stored sessionId id || isStored next sessionId id
    restored := fun sessionId => (next.find? sessionId).isSome }

def hydrateFailed (message : String) (reached : Bool) : Option Outbox :=
  o.hydrating.map fun next => { o with
    disk := if reached then next else o.disk
    error := some message
    hydrating := none }

def writing : Option OutboxSnapshot := o.running.or o.hydrating

def restart (reached : Bool) : Outbox :=
  { disk := if reached then o.writing.getD o.disk else o.disk
    nextItem := o.nextItem
    nextCall := o.nextCall
    sends := o.sends
    accepted := o.accepted
    removed := o.removed
    stored := o.stored }

def step : OutboxAct → Option Outbox
  | .enqueue binding text => some (o.enqueue binding text)
  | .edit sessionId id text => some (o.push (.plain (.edit sessionId id text)))
  | .remove sessionId id => some (o.remove sessionId id)
  | .pause sessionId reason => some (o.pause sessionId reason)
  | .resume sessionId call => o.resume sessionId call
  | .begin => o.begin
  | .written => o.written
  | .failed message reached => o.failed message reached
  | .resumed call => o.resumed call
  | .dispatch sessionId current canSend => some (o.dispatch sessionId current canSend)
  | .proceed sessionId current canSend => o.proceed sessionId current canSend
  | .accept sessionId => o.accept sessionId
  | .reply sessionId completed => o.reply sessionId completed
  | .threw sessionId message => o.threw sessionId message
  | .conclude sessionId => o.conclude sessionId
  | .hydrate => o.hydrate
  | .hydrated => o.hydrated
  | .hydrateFailed message reached => o.hydrateFailed message reached
  | .restart reached => some (o.restart reached)

/-- The session that a step calls `pause` for; a dispatch does when the binding changed. -/
def pauses : OutboxAct → Option String
  | .pause sessionId _ => some sessionId
  | .dispatch sessionId current canSend =>
    if (o.nextQueued sessionId canSend).any fun item => decide (current ≠ some item.binding) then some sessionId
    else none
  | _ => none

def Step (o : Outbox) (act : OutboxAct) (o' : Outbox) : Prop := o.step act = some o'

def run : Outbox → List OutboxAct → Option Outbox
  | o, [] => some o
  | o, act :: acts => (o.step act).bind fun o => run o acts

theorem run_of_run {acts : List OutboxAct} {p p' : Outbox} (h : p.run acts = some p') : Run Step p acts p' := by
  induction acts generalizing p with
  | nil =>
    cases h
    exact .nil _
  | cons act acts ih =>
    obtain ⟨q, hs, h⟩ := Option.bind_eq_some_iff.1 h
    exact .cons hs (ih h)

end Outbox

end Wiii.NekoChill
