import Wiii.Service.OrderedLog
import Wiii.Service.Payload

/-!
# Dispatch and wake

`native_chat_dispatch` and `native_stream_dispatch` write a turn of the conversation into the event log, and `wake`
reads it again.
-/

namespace Wiii.Service

open Payload (sanitizePayload)

structure ChatRequest where
  sessionId : Option String
  userId : String
  organizationId : Option String := none
  message : String
  role : String
  domainId : Option String := none

/-- What the chat service answers; the two lists are those of its metadata. -/
structure ChatResponse where
  message : String
  toolCalls : List PyValue := []
  toolsUsed : List PyValue := []
  agentType : String

namespace Dispatch

variable (lib : Runtime)

/-- `session_id or f"native::{user_id}"`, and the same for a stream. -/
def sessionId (fallback : String) (request : ChatRequest) : String :=
  if request.sessionId.getD "" = "" then fallback ++ request.userId else request.sessionId.getD ""

def textOrNone : Option String → PyValue
  | some text => .str text
  | none => .none

def truthy : PyValue → Bool
  | .none => false
  | .bool b => b
  | .int n => n ≠ 0
  | .float bits => bits ≠ 0 && bits ≠ 0x8000000000000000
  | .str s => s ≠ ""
  | .list items => !items.isEmpty
  | .dict fields => !fields.isEmpty

def toText : PyValue → String
  | .str s => s
  | value => lib.toStr value

def declared (response : ChatResponse) : List PyValue :=
  if response.toolCalls.isEmpty then response.toolsUsed else response.toolCalls

def serialiseToolCall (other : String) : PyValue → Payload
  | .dict fields => sanitizePayload lib fields
  | value => sanitizePayload lib [(other, .str (toText lib value))]

/-- `_serialise_tool_calls`. -/
def serialiseToolCalls (response : ChatResponse) : List Payload :=
  if response.toolCalls.isEmpty then response.toolsUsed.map (serialiseToolCall lib "name")
  else response.toolCalls.map (serialiseToolCall lib "raw")

def userPayload (request : ChatRequest) : Payload :=
  [("text", .str request.message), ("user_id", .str request.userId), ("role", .str request.role),
    ("domain_id", textOrNone request.domainId)]

def assistantPayload (response : ChatResponse) (durationMs : ℤ) : Payload :=
  [("text", .str response.message), ("status", .str "success"),
    ("tool_calls", .list ((serialiseToolCalls lib response).map .dict)), ("duration_ms", .int durationMs),
    ("agent_type", .str response.agentType)]

/-- `call.get("id") or call.get("name") or "unknown"`. -/
def callId (call : Payload) : PyValue :=
  if truthy ((call.get? "id").getD .none) then (call.get? "id").getD .none
  else if truthy ((call.get? "name").getD .none) then (call.get? "name").getD .none
  else .str "unknown"

def toolResultPayload (call : Payload) : Payload :=
  [("tool_call_id", .str (toText lib (callId call))), ("name", (call.get? "name").getD .none),
    ("content", .str (toText lib ((call.get? "result").getD ((call.get? "description").getD (.str "")))))]

def chatEvents (request : ChatRequest) (response : ChatResponse) (durationMs : ℤ) : List (String × Payload) :=
  [("user_message", userPayload request), ("assistant_message", assistantPayload lib response durationMs)] ++
    (serialiseToolCalls lib response).map fun call => ("tool_result", toolResultPayload lib call)

/-- The answer of a stream is what its chunks add up to, also where it fails. -/
def streamPayload (tokens : List String) (error : Option String) (durationMs : ℤ) : Payload :=
  [("text", .str (String.join tokens)), ("status", .str (if error.isNone then "success" else "error"))] ++
    error.toList.map (fun text => ("error", .str text)) ++
    [("duration_ms", .int durationMs), ("transport", .str "stream/v3")]

/-- The events of a streamed turn; calls are not among them. -/
def streamEvents (request : ChatRequest) (tokens : List String) (error : Option String) (durationMs : ℤ)
    (ledger : Option Payload) : List (String × Payload) :=
  [("user_message", userPayload request ++ [("transport", .str "stream/v3")]),
    ("assistant_message", streamPayload tokens error durationMs)] ++
    ledger.toList.map fun payload => ("runtime_flow_ledger", payload)

/-- The events are appended to the log one by one, at times that do not matter. -/
def write (L : OrderedLog Payload) (sessionId : String) (orgId : Option String) (now : ℤ) :
    List (String × Payload) → L.State → L.State
  | [], s => s
  | (eventType, payload) :: events, s =>
    write L sessionId orgId now events (L.append ⟨sessionId, eventType, payload, orgId, now⟩ s).2

def nativeChatDispatch (L : OrderedLog Payload) (s : L.State) (request : ChatRequest) (response : ChatResponse)
    (durationMs now : ℤ) : L.State :=
  write L (sessionId "native::" request) request.organizationId now (chatEvents lib request response durationMs) s

def nativeStreamDispatch (L : OrderedLog Payload) (s : L.State) (request : ChatRequest) (tokens : List String)
    (error : Option String) (durationMs now : ℤ) (ledger : Option Payload) : L.State :=
  write L (sessionId "native-stream::" request) request.organizationId now
    (streamEvents request tokens error durationMs ledger) s

end Dispatch

end Wiii.Service
