import Wiii.Service.EventLog
import Wiii.Service.Payload

/-!
# Waking a session

`wake` replays the events of a session into the messages of the conversation, the tool calls that wait for a result
and the subagents that are under way.  The messages of an event do not depend on the events before it
(`messages_applyEvent`), and the last number is the largest one (`latestSeq_replay`).
-/

namespace Wiii.Service

structure ToolCall where
  id : String
  name : String
  arguments : Payload := []

inductive MessageRole where
  | system
  | user
  | assistant
  | tool
  deriving DecidableEq

structure Message where
  role : MessageRole
  content : String := ""
  toolCallId : Option String := none
  toolCalls : Option (List ToolCall) := none

/-- `_coerce_task_provenance` and `_coerce_result_provenance` of subagent events. -/
structure Provenance where
  task : Payload → Payload
  result : Payload → Payload

structure SubagentRun where
  childSessionId : String
  result : Payload
  task : Option Payload := none

structure WakeState where
  sessionId : String
  orgId : Option String
  messages : List Message
  pendingToolCalls : List ToolCall
  latestSeq : ℕ
  eventCount : ℕ
  subagentRuns : List SubagentRun
  pendingSubagents : List (String × Payload)

/-- What the loop of `wake` has come to. -/
structure Replay where
  messages : List Message := []
  pending : List (String × ToolCall) := []
  latestSeq : ℕ := 0
  eventCount : ℕ := 0
  subagentRuns : List SubagentRun := []
  pendingSubagents : List (String × Payload) := []

namespace Wake

/-- `dict[key] = value`. -/
def setKey {α : Type} (key : String) (value : α) : List (String × α) → List (String × α)
  | [] => [(key, value)]
  | (k, v) :: rest => if k = key then (k, value) :: rest else (k, v) :: setKey key value rest

/-- `dict.pop(key, None)`. -/
def pop {α : Type} (key : String) (entries : List (String × α)) : List (String × α) :=
  entries.filter fun entry => decide (entry.1 ≠ key)

def textOf : Option PyValue → Option String
  | some (.str s) => some s
  | _ => none

def coerceText (payload : Payload) : String :=
  ((["text", "content", "message"].findSome? fun key => textOf (payload.get? key))).getD ""

/-- `ToolCall.model_validate`, where it does not fail. -/
def validateToolCall : PyValue → Option ToolCall
  | .dict fields =>
    match Payload.get? "id" fields, Payload.get? "name" fields, Payload.get? "arguments" fields with
    | some (.str id), some (.str name), none => some ⟨id, name, []⟩
    | some (.str id), some (.str name), some (.dict arguments) => some ⟨id, name, arguments⟩
    | _, _, _ => none
  | _ => none

def coerceToolCalls : Option PyValue → List ToolCall
  | some (.list items) => items.filterMap validateToolCall
  | _ => []

def coerceToolResultText (lib : Runtime) : Option PyValue → String
  | some (.str s) => s
  | some (.dict fields) => lib.dumps (.dict fields)
  | some (.list items) => lib.dumps (.list items)
  | _ => ""

/-- `_apply_user_message` and `_apply_system_message`. -/
def applyText (role : MessageRole) (payload : Payload) (r : Replay) : Replay :=
  let text := coerceText payload
  if text = "" then r else { r with messages := r.messages ++ [{ role := role, content := text }] }

/-- The calls that have an id wait for their results; the calls of earlier turns no longer do. -/
def pendingCalls (calls : List ToolCall) : List (String × ToolCall) :=
  calls.foldl (fun pending call => if call.id = "" then pending else setKey call.id call pending) []

def applyAssistantMessage (payload : Payload) (r : Replay) : Replay :=
  let text := coerceText payload
  let calls := coerceToolCalls (payload.get? "tool_calls")
  if text = "" ∧ calls = [] then r
  else { r with
    messages := r.messages ++
      [{ role := .assistant, content := text, toolCalls := if calls.isEmpty then none else some calls }]
    pending := pendingCalls calls }

def applyToolResult (lib : Runtime) (payload : Payload) (r : Replay) : Replay :=
  match textOf (payload.get? "tool_call_id") with
  | some id =>
    if id = "" then r
    else { r with
      messages := r.messages ++
        [{ role := .tool, content := coerceToolResultText lib (payload.get? "content"), toolCallId := some id }]
      pending := pop id r.pending }
  | none => r

def applySubagentStarted (prov : Provenance) (payload : Payload) (r : Replay) : Replay :=
  match textOf (payload.get? "child_session_id") with
  | some child =>
    if child = "" then r else { r with pendingSubagents := setKey child (prov.task payload) r.pendingSubagents }
  | none => r

def applySubagentCompleted (prov : Provenance) (payload : Payload) (r : Replay) : Replay :=
  match textOf (payload.get? "child_session_id") with
  | some child =>
    if child = "" then r
    else { r with
      pendingSubagents := pop child r.pendingSubagents
      subagentRuns := r.subagentRuns ++ [⟨child, prov.result payload, r.pendingSubagents.lookup child⟩] }
  | none => r

variable (lib : Runtime) (prov : Provenance)

/-- What the kind of an event does with its payload; other kinds are skipped. -/
def handle (eventType : String) (payload : Payload) (r : Replay) : Replay :=
  if eventType = "user_message" then applyText .user payload r
  else if eventType = "system_message" then applyText .system payload r
  else if eventType = "assistant_message" then applyAssistantMessage payload r
  else if eventType = "tool_result" then applyToolResult lib payload r
  else if eventType = "subagent_started" then applySubagentStarted prov payload r
  else if eventType = "subagent_completed" then applySubagentCompleted prov payload r
  else r

def applyEvent (r : Replay) (event : SessionEvent Payload) : Replay :=
  handle lib prov event.eventType (event.payload.sanitizePayload lib)
    { r with eventCount := r.eventCount + 1, latestSeq := max r.latestSeq event.seq }

def replay (events : List (SessionEvent Payload)) : Replay := events.foldl (applyEvent lib prov) {}

def wake (L : EventLog Payload) (s : L.State) (sessionId : String) (orgId : Option String) (sinceSeq : Option ℕ) :
    WakeState :=
  let r := replay lib prov (L.getEvents s sessionId orgId sinceSeq)
  { sessionId := sessionId
    orgId := orgId
    messages := r.messages
    pendingToolCalls := r.pending.map Prod.snd
    latestSeq := r.latestSeq
    eventCount := r.eventCount
    subagentRuns := r.subagentRuns
    pendingSubagents := r.pendingSubagents }

def eventMessages (event : SessionEvent Payload) : List Message := (applyEvent lib prov {} event).messages

/-! ## One event -/

theorem applyText_messages (role : MessageRole) (payload : Payload) (r : Replay) :
    (applyText role payload r).messages = r.messages ++ (applyText role payload {}).messages := by
  unfold applyText
  by_cases h : coerceText payload = ""
  · simp [h]
  · simp [h]

theorem applyAssistantMessage_messages (payload : Payload) (r : Replay) :
    (applyAssistantMessage payload r).messages = r.messages ++ (applyAssistantMessage payload {}).messages := by
  unfold applyAssistantMessage
  dsimp only
  by_cases h : coerceText payload = "" ∧ coerceToolCalls (payload.get? "tool_calls") = []
  · rw [if_pos h, if_pos h, List.append_nil]
  · rw [if_neg h, if_neg h]
    rfl

theorem applyToolResult_messages (payload : Payload) (r : Replay) :
    (applyToolResult lib payload r).messages = r.messages ++ (applyToolResult lib payload {}).messages := by
  unfold applyToolResult
  cases textOf (payload.get? "tool_call_id") with
  | none => exact (List.append_nil _).symm
  | some id =>
    by_cases h : id = ""
    · simp [h]
    · simp [h]

theorem applySubagentStarted_messages (payload : Payload) (r : Replay) :
    (applySubagentStarted prov payload r).messages = r.messages := by
  unfold applySubagentStarted
  split
  · split <;> rfl
  · rfl

theorem applySubagentCompleted_messages (payload : Payload) (r : Replay) :
    (applySubagentCompleted prov payload r).messages = r.messages := by
  unfold applySubagentCompleted
  split
  · split <;> rfl
  · rfl

theorem handle_messages (eventType : String) (payload : Payload) (r : Replay) :
    (handle lib prov eventType payload r).messages =
      r.messages ++ (handle lib prov eventType payload {}).messages := by
  unfold handle
  split_ifs
  · exact applyText_messages _ _ _
  · exact applyText_messages _ _ _
  · exact applyAssistantMessage_messages _ _
  · exact applyToolResult_messages _ _ _
  · rw [applySubagentStarted_messages, applySubagentStarted_messages, List.append_nil]
  · rw [applySubagentCompleted_messages, applySubagentCompleted_messages, List.append_nil]
  · exact (List.append_nil _).symm

theorem messages_applyEvent (r : Replay) (event : SessionEvent Payload) :
    (applyEvent lib prov r event).messages = r.messages ++ eventMessages lib prov event := by
  refine (handle_messages lib prov _ _ _).trans (congrArg (r.messages ++ ·) ?_)
  exact (handle_messages lib prov event.eventType _ { latestSeq := _, eventCount := _ }).symm

theorem handle_counters (eventType : String) (payload : Payload) (r : Replay) :
    (handle lib prov eventType payload r).latestSeq = r.latestSeq ∧
      (handle lib prov eventType payload r).eventCount = r.eventCount := by
  unfold handle applyText applyAssistantMessage applyToolResult applySubagentStarted applySubagentCompleted
  split_ifs
  · dsimp only; split <;> exact ⟨rfl, rfl⟩
  · dsimp only; split <;> exact ⟨rfl, rfl⟩
  · dsimp only; split <;> exact ⟨rfl, rfl⟩
  · split
    · split <;> exact ⟨rfl, rfl⟩
    · exact ⟨rfl, rfl⟩
  · split
    · split <;> exact ⟨rfl, rfl⟩
    · exact ⟨rfl, rfl⟩
  · split
    · split <;> exact ⟨rfl, rfl⟩
    · exact ⟨rfl, rfl⟩
  · exact ⟨rfl, rfl⟩

/-! ## A list of events -/

theorem messages_foldl (events : List (SessionEvent Payload)) (r : Replay) :
    (events.foldl (applyEvent lib prov) r).messages =
      r.messages ++ events.flatMap (eventMessages lib prov) := by
  induction events generalizing r with
  | nil => exact (List.append_nil _).symm
  | cons event events ih =>
    rw [List.foldl_cons, ih, messages_applyEvent, List.flatMap_cons, List.append_assoc]

theorem messages_replay (events : List (SessionEvent Payload)) :
    (replay lib prov events).messages = events.flatMap (eventMessages lib prov) := messages_foldl lib prov events {}

theorem latestSeq_foldl (events : List (SessionEvent Payload)) (r : Replay) :
    (events.foldl (applyEvent lib prov) r).latestSeq =
      events.foldl (fun seq event => max seq event.seq) r.latestSeq := by
  induction events generalizing r with
  | nil => rfl
  | cons event events ih =>
    rw [List.foldl_cons, ih, applyEvent, (handle_counters lib prov _ _ _).1]
    rfl

theorem latestSeq_replay {events : List (SessionEvent Payload)} {event : SessionEvent Payload}
    (h : (events ++ [event]).Pairwise fun a b => a.seq < b.seq) :
    (replay lib prov (events ++ [event])).latestSeq = event.seq := by
  rw [replay, latestSeq_foldl, List.foldl_append]
  have hle : events.foldl (fun seq event => max seq event.seq) 0 ≤ event.seq := by
    have hlt := fun a ha => (List.pairwise_append.1 h).2.2 a ha event (List.mem_singleton.2 rfl)
    clear h
    suffices hgen : ∀ n, n ≤ event.seq → events.foldl (fun seq event => max seq event.seq) n ≤ event.seq from
      hgen 0 (Nat.zero_le _)
    induction events with
    | nil => exact fun n hn => hn
    | cons a events ih =>
      intro n hn
      have ha := hlt a List.mem_cons_self
      exact ih (fun b hb => hlt b (List.mem_cons_of_mem _ hb)) _ (Nat.max_le.2 ⟨hn, Nat.le_of_lt ha⟩)
  exact Nat.max_eq_right hle

theorem eventCount_foldl (events : List (SessionEvent Payload)) (r : Replay) :
    (events.foldl (applyEvent lib prov) r).eventCount = r.eventCount + events.length := by
  induction events generalizing r with
  | nil => rfl
  | cons event events ih =>
    rw [List.foldl_cons, ih, applyEvent, (handle_counters lib prov _ _ _).2, List.length_cons]
    show r.eventCount + 1 + _ = _
    omega

theorem eventCount_replay (events : List (SessionEvent Payload)) :
    (replay lib prov events).eventCount = events.length := (eventCount_foldl lib prov events {}).trans (Nat.zero_add _)

theorem latestSeq_replay_nil : (replay lib prov []).latestSeq = 0 := rfl

end Wake

end Wiii.Service
