import Wiii.Service.Cleaning
import Wiii.Service.Dispatch
import Wiii.Service.WakeCursor

/-!
# A turn comes back

What the events of a turn do when they are replayed, one kind of event after the other, and from it what a wake reads
of a dispatched turn.
-/

namespace Wiii.Service

open Payload (sanitizePayload redactRuntimeSecretText sanitizeValue cleanLevel cleanItem Field plainKey
  parsedItem_of_not_json cleanItem_text)

namespace Wake

variable {lib : Runtime} (prov : Provenance)

/-! ## Events -/

/-- The messages of a turn; empty texts give none, and the answer names 64 calls at most. -/
def turnMessages (user answer : String) (calls : List (ToolCall × String)) : List Message :=
  (if user = "" then [] else [{ role := .user, content := user }]) ++
    (if answer = "" ∧ calls = [] then []
      else [{ role := .assistant, content := answer
              toolCalls := if calls = [] then none
                else some ((calls.take Payload.maxSanitizedItems).map Prod.fst) }]) ++
    calls.map fun call => { role := .tool, content := call.2, toolCallId := some call.1.id }

theorem head_turnMessages {user answer : String} {calls : List (ToolCall × String)} (h : user ≠ "") :
    (turnMessages user answer calls).head?.map Message.content = some user := by
  rw [turnMessages, if_neg h]
  rfl

theorem applyEvent_user {event : SessionEvent Payload} {text : String} (htype : event.eventType = "user_message")
    (htext : (sanitizePayload lib event.payload).get? "text" = some (.str text)) (r : Replay) :
    (applyEvent lib prov r event).messages =
        r.messages ++ (if text = "" then [] else [{ role := .user, content := text }]) ∧
      (applyEvent lib prov r event).pending = r.pending := by
  have hcoerce : coerceText (sanitizePayload lib event.payload) = text := by simp [coerceText, htext, textOf]
  simp only [applyEvent, handle, if_pos htype, applyText, hcoerce]
  split_ifs with hempty
  · exact ⟨(List.append_nil _).symm, rfl⟩
  · exact ⟨rfl, rfl⟩

theorem applyEvent_assistant {event : SessionEvent Payload} {text : String} {calls : List ToolCall}
    (htype : event.eventType = "assistant_message")
    (htext : (sanitizePayload lib event.payload).get? "text" = some (.str text))
    (hcalls : coerceToolCalls ((sanitizePayload lib event.payload).get? "tool_calls") = calls) (r : Replay) :
    (applyEvent lib prov r event).messages = r.messages ++ (if text = "" ∧ calls = [] then []
        else [{ role := .assistant, content := text, toolCalls := if calls = [] then none else some calls }]) ∧
      (applyEvent lib prov r event).pending =
        if text = "" ∧ calls = [] then r.pending else pendingCalls calls := by
  have hcoerce : coerceText (sanitizePayload lib event.payload) = text := by simp [coerceText, htext, textOf]
  simp only [applyEvent, handle, htype, applyAssistantMessage, hcoerce, hcalls]
  split_ifs with hempty <;> simp_all

theorem applyEvent_tool {event : SessionEvent Payload} {id text : String} (htype : event.eventType = "tool_result")
    (hid : (sanitizePayload lib event.payload).get? "tool_call_id" = some (.str id)) (hne : id ≠ "")
    (htext : coerceToolResultText lib ((sanitizePayload lib event.payload).get? "content") = text) (r : Replay) :
    (applyEvent lib prov r event).messages =
        r.messages ++ [{ role := .tool, content := text, toolCallId := some id }] ∧
      (applyEvent lib prov r event).pending = pop id r.pending := by
  simp [applyEvent, handle, htype, applyToolResult, hid, textOf, hne, htext]

structure IsResult (lib : Runtime) (event : SessionEvent Payload) (call : String × String) : Prop where
  type : event.eventType = "tool_result"
  id : (sanitizePayload lib event.payload).get? "tool_call_id" = some (.str call.1)
  nonempty : call.1 ≠ ""
  content : coerceToolResultText lib ((sanitizePayload lib event.payload).get? "content") = call.2

theorem foldl_results {events : List (SessionEvent Payload)} {calls : List (String × String)}
    (h : List.Forall₂ (IsResult lib) events calls) (r : Replay) :
    (events.foldl (applyEvent lib prov) r).messages =
        r.messages ++ calls.map (fun call => { role := .tool, content := call.2, toolCallId := some call.1 }) ∧
      (events.foldl (applyEvent lib prov) r).pending = (calls.map Prod.fst).foldl (fun p id => pop id p) r.pending := by
  induction h generalizing r with
  | nil => exact ⟨(List.append_nil _).symm, rfl⟩
  | @cons event call events calls hone _ ih =>
    obtain ⟨hmessages, hpending⟩ := applyEvent_tool prov hone.type hone.id hone.nonempty hone.content r
    rw [List.foldl_cons, (ih _).1, (ih _).2, hmessages, hpending]
    exact ⟨by simp, rfl⟩

theorem foldl_ledger {events : List (SessionEvent Payload)}
    (h : ∀ event ∈ events, event.eventType = "runtime_flow_ledger") (r : Replay) : (events.foldl (applyEvent lib prov) r).messages = r.messages ∧
      (events.foldl (applyEvent lib prov) r).pending = r.pending := by
  induction events generalizing r with
  | nil => exact ⟨rfl, rfl⟩
  | cons event events ih =>
    have hskipped : (applyEvent lib prov r event).messages = r.messages ∧
        (applyEvent lib prov r event).pending = r.pending := by
      simp [applyEvent, handle, h event List.mem_cons_self]
    rw [List.foldl_cons, (ih (fun e he => h e (List.mem_cons_of_mem _ he)) _).1,
      (ih (fun e he => h e (List.mem_cons_of_mem _ he)) _).2]
    exact hskipped

/-! ## Calls that wait -/

theorem mem_setKey {α : Type} {key : String} {value : α} {entries : List (String × α)} {entry : String × α}
    (h : entry ∈ setKey key value entries) : entry.1 = key ∨ entry ∈ entries := by
  induction entries with
  | nil =>
    rw [List.mem_singleton.1 h]
    exact Or.inl rfl
  | cons first rest ih =>
    obtain ⟨k, v⟩ := first
    rw [setKey] at h
    split_ifs at h with hk
    · rcases List.mem_cons.1 h with rfl | hrest
      · exact Or.inl hk
      · exact Or.inr (List.mem_cons_of_mem _ hrest)
    · rcases List.mem_cons.1 h with rfl | hrest
      · exact Or.inr List.mem_cons_self
      · exact (ih hrest).imp_right (List.mem_cons_of_mem _)

theorem mem_pendingCalls {calls : List ToolCall} {entry : String × ToolCall} (h : entry ∈ pendingCalls calls) :
    entry.1 ∈ calls.map ToolCall.id := by
  suffices hgen : ∀ entries, entry ∈ calls.foldl (fun pending call => if call.id = "" then pending
      else setKey call.id call pending) entries → entry ∈ entries ∨ entry.1 ∈ calls.map ToolCall.id from
    (hgen [] h).resolve_left List.not_mem_nil
  clear h
  induction calls with
  | nil => exact fun _ => Or.inl
  | cons call rest ih =>
    intro entries h
    rw [List.map_cons, List.mem_cons]
    rcases ih _ h with hentry | hrest
    · dsimp only at hentry
      split_ifs at hentry
      · exact Or.inl hentry
      · exact (mem_setKey hentry).elim (fun heq => Or.inr (Or.inl heq)) Or.inl
    · exact Or.inr (Or.inr hrest)

theorem foldl_pop_eq_nil {α : Type} {ids : List String} {entries : List (String × α)}
    (h : ∀ entry ∈ entries, entry.1 ∈ ids) : ids.foldl (fun p id => pop id p) entries = [] := by
  induction ids generalizing entries with
  | nil => exact List.eq_nil_iff_forall_not_mem.2 fun entry hentry => absurd (h entry hentry) List.not_mem_nil
  | cons id ids ih =>
    rw [List.foldl_cons]
    apply ih
    intro entry hentry
    simp only [pop, List.mem_filter, decide_eq_true_eq] at hentry
    exact (List.mem_cons.1 (h entry hentry.1)).resolve_left hentry.2

/-! ## A turn -/

/-- Events that hold a turn: the message, the answer with its calls, the results in order. -/
structure IsTurn (lib : Runtime) (user answer : String) (calls : List (ToolCall × String))
    (question reply : SessionEvent Payload) (results : List (SessionEvent Payload)) : Prop where
  question_type : question.eventType = "user_message"
  question_text : (sanitizePayload lib question.payload).get? "text" = some (.str user)
  reply_type : reply.eventType = "assistant_message"
  reply_text : (sanitizePayload lib reply.payload).get? "text" = some (.str answer)
  reply_calls : coerceToolCalls ((sanitizePayload lib reply.payload).get? "tool_calls") =
    (calls.take Payload.maxSanitizedItems).map Prod.fst
  results : List.Forall₂ (IsResult lib) results (calls.map fun call => (call.1.id, call.2))

/-- A turn adds its messages, and no call waits unless it had no answer. -/
theorem IsTurn.replayed {user answer : String} {calls : List (ToolCall × String)} {question reply : SessionEvent Payload}
    {results : List (SessionEvent Payload)} (h : IsTurn lib user answer calls question reply results) (r : Replay) :
    ((question :: reply :: results).foldl (applyEvent lib prov) r).messages =
        r.messages ++ turnMessages user answer calls ∧
      ((question :: reply :: results).foldl (applyEvent lib prov) r).pending =
        if answer = "" ∧ calls = [] then r.pending else [] := by
  obtain ⟨hquestion, hkept⟩ := applyEvent_user prov h.question_type h.question_text r
  obtain ⟨hreply, hpending⟩ := applyEvent_assistant prov h.reply_type h.reply_text h.reply_calls
    (applyEvent lib prov r question)
  obtain ⟨hresults, hpopped⟩ := foldl_results prov h.results
    (applyEvent lib prov (applyEvent lib prov r question) reply)
  have hnil : (calls.take Payload.maxSanitizedItems).map Prod.fst = [] ↔ calls = [] := by
    simp [Payload.maxSanitizedItems]
  rw [List.foldl_cons, List.foldl_cons, hresults, hreply, hquestion, hpopped, hpending, hkept]
  simp only [hnil]
  constructor
  · simp only [turnMessages, List.append_assoc, List.map_map, Function.comp_def]
  · split_ifs with hempty
    · rw [hempty.2]
      rfl
    · apply foldl_pop_eq_nil
      intro entry hentry
      have hid := mem_pendingCalls hentry
      rw [List.map_map, List.mem_map] at hid ⊢
      obtain ⟨call, hcall, heq⟩ := hid
      exact ⟨call, List.mem_of_mem_take hcall, heq⟩

/-- A wake gives what an earlier one gave, and behind it a turn of which no call waits. -/
def TurnAdded (before after : WakeState) (user answer : String) (calls : List (ToolCall × String)) : Prop :=
  after.messages = before.messages ++ turnMessages user answer calls ∧
    after.pendingToolCalls = if answer = "" ∧ calls = [] then before.pendingToolCalls else []

theorem IsTurn.turnAdded {L : EventLog Payload} {s t : L.State} {sessionId user answer : String}
    {orgId : Option String} {calls : List (ToolCall × String)} {question reply : SessionEvent Payload}
    {results : List (SessionEvent Payload)} (ledger : List (SessionEvent Payload))
    (h : IsTurn lib user answer calls question reply results)
    (hledger : ∀ event ∈ ledger, event.eventType = "runtime_flow_ledger")
    (hevents : L.getEvents t sessionId orgId none =
      L.getEvents s sessionId orgId none ++ (question :: reply :: results ++ ledger)) :
    TurnAdded (wake lib prov L s sessionId orgId none) (wake lib prov L t sessionId orgId none) user answer calls := by
  have hreplay : replay lib prov (L.getEvents t sessionId orgId none) = ledger.foldl (applyEvent lib prov)
      ((question :: reply :: results).foldl (applyEvent lib prov)
        (replay lib prov (L.getEvents s sessionId orgId none))) := by
    rw [hevents, replay, List.foldl_append, List.foldl_append]
    rfl
  obtain ⟨hmessages, hpending⟩ := h.replayed prov (replay lib prov (L.getEvents s sessionId orgId none))
  obtain ⟨hskipped, hkept⟩ := foldl_ledger prov hledger ((question :: reply :: results).foldl (applyEvent lib prov)
    (replay lib prov (L.getEvents s sessionId orgId none)))
  simp only [TurnAdded, wake, hreplay]
  rw [hskipped, hkept, hmessages, hpending]
  refine ⟨rfl, ?_⟩
  split_ifs
  · rfl
  · rfl

end Wake

namespace Dispatch

/-! ## Declared calls -/

/-- A call of the metadata in the shape of `ToolCall`; it may have other fields. -/
structure DeclaredCall where
  fields : Payload
  id : String
  name : String
  arguments : Option Payload
  nonempty : id ≠ ""
  hasId : Field fields "id" (.str id)
  hasName : Field fields "name" (.str name)
  hasArguments : arguments.elim ("arguments" ∉ fields.map Prod.fst) fun entries =>
    Field fields "arguments" (.dict entries)

/-- No text vanishes: what is replaced is replaced by a text. -/
def KeepsText (lib : Runtime) : Prop := ∀ text ≠ "", (lib.redactSecretText text).1 ≠ ""

theorem KeepsText.redact {lib : Runtime} (h : KeepsText lib) {text : String} (hne : text ≠ "") (n : ℕ) :
    (redactRuntimeSecretText lib)^[n] text ≠ "" := by
  induction n with
  | zero => exact hne
  | succ n ih =>
    rw [Function.iterate_succ_apply']
    exact h _ (PyText.take_ne_empty (by decide) ih)

variable (lib : Runtime)

namespace DeclaredCall

variable (call : DeclaredCall)

/-- The call that is woken after `n` passes of the log. -/
def woken (n : ℕ) : ToolCall :=
  { id := (redactRuntimeSecretText lib)^[n + 2] call.id
    name := (redactRuntimeSecretText lib)^[n + 2] call.name
    arguments := (call.arguments.map fun entries => (cleanLevel lib 5)^[n + 1] (cleanLevel lib 7 entries)).getD [] }

def resultText : String :=
  toText lib (((sanitizePayload lib call.fields).get? "result").getD
    (((sanitizePayload lib call.fields).get? "description").getD (.str "")))

/-- The text of the result that is woken after `n` passes of the log. -/
def wokenResult (n : ℕ) : String :=
  Wake.coerceToolResultText lib
    (some ((cleanItem lib (sanitizeValue lib 8) "content")^[n + 1] (.str (call.resultText lib))))

theorem id_serialised :
    Field (cleanLevel lib 8 call.fields) "id" (.str (redactRuntimeSecretText lib call.id)) := by
  have h := call.hasId.cleanAll lib (plainKey (by decide)) 8 1
  rwa [cleanItem_text 7 1 fun _ _ => parsedItem_of_not_json (by decide)] at h

theorem name_serialised :
    Field (cleanLevel lib 8 call.fields) "name" (.str (redactRuntimeSecretText lib call.name)) := by
  have h := call.hasName.cleanAll lib (plainKey (by decide)) 8 1
  rwa [cleanItem_text 7 1 fun _ _ => parsedItem_of_not_json (by decide)] at h

theorem validate_woken (n : ℕ) : Wake.validateToolCall
    ((sanitizeValue lib 7)^[n + 1] (.dict (cleanLevel lib 8 call.fields))) = some (call.woken lib n) := by
  have hid := ((call.id_serialised lib).cleanAll lib (plainKey (by decide)) 6 (n + 1)).get?
  have hname := ((call.name_serialised lib).cleanAll lib (plainKey (by decide)) 6 (n + 1)).get?
  rw [cleanItem_text 5 (n + 1) fun _ _ => parsedItem_of_not_json (by decide), ← Function.iterate_succ_apply]
    at hid hname
  rw [Payload.sanitizeValue_dict 6, Wake.validateToolCall, hid, hname]
  have hkey : Payload.PlainKey lib "arguments" := plainKey (by decide)
  have harguments := call.hasArguments
  rw [woken]
  cases hcase : call.arguments with
  | none =>
    rw [hcase] at harguments
    have habsent := Payload.not_mem_cleanAll (Payload.get?_eq_none_iff.1
      (Payload.not_mem_cleanDict (sanitizeValue lib 8) harguments hkey)) hkey 6 (n + 1)
    rw [Payload.get?_eq_none_iff.2 habsent]
    rfl
  | some entries =>
    rw [hcase] at harguments
    have hserialised := harguments.cleanAll lib hkey 8 1
    rw [Payload.cleanItem_dict 7 1, Function.iterate_one, Function.iterate_one] at hserialised
    have hfield := (hserialised.cleanAll lib hkey 6 (n + 1)).get?
    rw [Payload.cleanItem_dict 5 (n + 1)] at hfield
    rw [hfield]
    rfl

theorem callId_serialised (hlib : KeepsText lib) :
    callId (cleanLevel lib 8 call.fields) = .str (redactRuntimeSecretText lib call.id) := by
  have hne : redactRuntimeSecretText lib call.id ≠ "" := hlib.redact call.nonempty 1
  rw [callId, (call.id_serialised lib).get?, Option.getD_some, if_pos (by simpa [truthy] using hne)]

/-- A text that is not read as JSON on the way is woken as the other texts are. -/
theorem wokenResult_of_text {text : String} (n : ℕ) (hresult : Field call.fields "result" (.str text))
    (hplain : ∀ i ≤ n + 1, Payload.parseJsonString lib ((redactRuntimeSecretText lib)^[i] text) = none) :
    call.wokenResult lib n = (redactRuntimeSecretText lib)^[n + 2] text := by
  have hserialised := hresult.cleanAll lib (plainKey (by decide)) 8 1
  rw [cleanItem_text 7 1 fun i hi => (Payload.parsedItem_of_json (by decide) _).trans (hplain i (by omega))]
    at hserialised
  have htext : call.resultText lib = redactRuntimeSecretText lib text := by
    have hget : (sanitizePayload lib call.fields).get? "result" = some (.str (redactRuntimeSecretText lib text)) :=
      hserialised.get?
    rw [resultText, hget, Option.getD_some, toText]
  rw [wokenResult, htext, cleanItem_text 7 (n + 1), ← Function.iterate_succ_apply]
  · rfl
  · intro i hi
    rw [← Function.iterate_succ_apply, Payload.parsedItem_of_json (by decide)]
    exact hplain (i + 1) (by omega)

end DeclaredCall

/-! ## Payloads -/

variable {lib}

theorem serialiseToolCalls_eq {response : ChatResponse} {calls : List DeclaredCall}
    (h : declared response = calls.map fun call => .dict call.fields) :
    serialiseToolCalls lib response = calls.map fun call => cleanLevel lib 8 call.fields := by
  have hdict : ∀ other, (calls.map fun call => PyValue.dict call.fields).map (serialiseToolCall lib other) =
      calls.map fun call => cleanLevel lib 8 call.fields := fun other => by
    rw [List.map_map]
    rfl
  rw [declared] at h
  rw [serialiseToolCalls]
  split_ifs at h ⊢
  · rw [h, hdict]
  · rw [h, hdict]

theorem get?_woken {event : SessionEvent Payload} {fields : Payload} {key : String} {value : PyValue} {n : ℕ}
    (hpayload : event.payload = (sanitizePayload lib)^[n] fields) (hfield : Field fields key value)
    (hkey : Payload.PlainKey lib key) : (sanitizePayload lib event.payload).get? key =
      some ((cleanItem lib (sanitizeValue lib 8) key)^[n + 1] value) := by
  rw [hpayload, ← Function.iterate_succ_apply' (sanitizePayload lib)]
  exact (hfield.cleanAll lib hkey 8 (n + 1)).get?

theorem text_woken {event : SessionEvent Payload} {fields : Payload} {key text : String} {n : ℕ}
    (hpayload : event.payload = (sanitizePayload lib)^[n] fields) (hfield : Field fields key (.str text))
    (hkey : Payload.PlainKey lib key) (hjson : key ∉ Payload.jsonStringKeys) :
    (sanitizePayload lib event.payload).get? key = some (.str ((redactRuntimeSecretText lib)^[n + 1] text)) := by
  rw [get?_woken hpayload hfield hkey, cleanItem_text 7 (n + 1) fun _ _ => parsedItem_of_not_json hjson]

theorem userPayload_text (request : ChatRequest) (rest : Payload)
    (h : ((userPayload request ++ rest).map Prod.fst).Nodup) :
    Field (userPayload request ++ rest) "text" (.str request.message) := ⟨h, rfl⟩

theorem assistantPayload_text (response : ChatResponse) (durationMs : ℤ) :
    Field (assistantPayload lib response durationMs) "text" (.str response.message) := ⟨by simp [assistantPayload], rfl⟩

theorem assistantPayload_calls {response : ChatResponse} {calls : List DeclaredCall}
    (h : declared response = calls.map fun call => .dict call.fields) (durationMs : ℤ) :
    Field (assistantPayload lib response durationMs) "tool_calls"
      (.list (calls.map fun call => .dict (cleanLevel lib 8 call.fields))) := by
  refine ⟨by simp [assistantPayload], ?_⟩
  rw [assistantPayload, serialiseToolCalls_eq h, List.map_map]
  rfl

theorem calls_woken {event : SessionEvent Payload} {response : ChatResponse} {calls : List DeclaredCall} {n : ℕ}
    {durationMs : ℤ} (h : declared response = calls.map fun call => .dict call.fields)
    (hpayload : event.payload = (sanitizePayload lib)^[n] (assistantPayload lib response durationMs)) :
    Wake.coerceToolCalls ((sanitizePayload lib event.payload).get? "tool_calls") =
      (calls.take Payload.maxSanitizedItems).map fun call => call.woken lib n := by
  rw [get?_woken hpayload (assistantPayload_calls h durationMs) (plainKey (by decide)), Payload.cleanItem_list 7 n,
    Wake.coerceToolCalls, ← List.map_take, List.map_map, List.filterMap_map]
  rw [List.filterMap_congr fun call _ => call.validate_woken lib n]
  exact congrFun List.filterMap_eq_map _

theorem isResult_woken {event : SessionEvent Payload} (hlib : KeepsText lib) (call : DeclaredCall) {n : ℕ}
    (htype : event.eventType = "tool_result")
    (hpayload : event.payload = (sanitizePayload lib)^[n] (toolResultPayload lib (cleanLevel lib 8 call.fields))) :
    Wake.IsResult lib event ((call.woken lib n).id, call.wokenResult lib n) := by
  have hnodup : ((toolResultPayload lib (cleanLevel lib 8 call.fields)).map Prod.fst).Nodup := by
    simp [toolResultPayload]
  have hid : Field (toolResultPayload lib (cleanLevel lib 8 call.fields)) "tool_call_id"
      (.str (redactRuntimeSecretText lib call.id)) := by
    refine ⟨hnodup, ?_⟩
    rw [toolResultPayload, call.callId_serialised lib hlib]
    rfl
  have hcontent : Field (toolResultPayload lib (cleanLevel lib 8 call.fields)) "content"
      (.str (call.resultText lib)) := ⟨hnodup, rfl⟩
  refine ⟨htype, ?_, hlib.redact call.nonempty (n + 2), ?_⟩
  · rw [text_woken hpayload hid (plainKey (by decide)) (by decide), ← Function.iterate_succ_apply]
    rfl
  · rw [get?_woken hpayload hcontent (plainKey (by decide))]
    rfl

/-! ## The logs -/

/-- The two logs, with the payloads that a reader gets. -/
inductive Backend where
  | inMemory
  | postgres

namespace Backend

/-- The log in Postgres sanitizes a payload again when it reads it. -/
def passes : Backend → ℕ
  | inMemory => 1
  | postgres => 2

def log (lib : Runtime) : Backend → OrderedLog Payload
  | inMemory => InMemorySessionEventLog.orderedLog (sanitizePayload lib)
  | postgres => PostgresSessionEventLog.orderedLog (sanitizePayload lib)^[2]

theorem append_log (b : Backend) (request : Append Payload) (s : (b.log lib).State) :
    ((b.log lib).append request s).1.eventType = request.eventType ∧
      ((b.log lib).append request s).1.payload = (sanitizePayload lib)^[b.passes] request.payload := by
  cases b with
  | inMemory => exact ⟨rfl, rfl⟩
  | postgres => exact ⟨rfl, rfl⟩

end Backend

def Written (lib : Runtime) (b : Backend) (event : SessionEvent Payload) (entry : String × Payload) : Prop :=
  event.eventType = entry.1 ∧ event.payload = (sanitizePayload lib)^[b.passes] entry.2

theorem getEvents_write (b : Backend) {s : (b.log lib).State} (hs : (b.log lib).Ordered s) (sessionId : String)
    {orgId reader : Option String} (hreader : reader.all (orgId = some ·)) (now : ℤ)
    (entries : List (String × Payload)) : ∃ written, List.Forall₂ (Written lib b) written entries ∧
      (b.log lib).getEvents (write (b.log lib) sessionId orgId now entries s) sessionId reader none =
        (b.log lib).getEvents s sessionId reader none ++ written := by
  induction entries generalizing s with
  | nil => exact ⟨[], .nil, (List.append_nil _).symm⟩
  | cons entry entries ih =>
    obtain ⟨eventType, payload⟩ := entry
    obtain ⟨written, hwritten, hevents⟩ := ih ((b.log lib).ordered_append _ s hs)
    refine ⟨_ :: written, .cons (b.append_log ⟨sessionId, eventType, payload, orgId, now⟩ s) hwritten, ?_⟩
    rw [write, hevents, (b.log lib).getEvents_append _ s _ _ hs, if_pos ⟨rfl, hreader⟩, List.append_assoc]
    rfl

/-! ## Both dispatches -/

theorem isTurn_chat {b : Backend} (hlib : KeepsText lib) {request : ChatRequest} {response : ChatResponse}
    {calls : List DeclaredCall} (hcalls : declared response = calls.map fun call => .dict call.fields) {durationMs : ℤ}
    {written : List (SessionEvent Payload)}
    (h : List.Forall₂ (Written lib b) written (chatEvents lib request response durationMs)) :
    ∃ question reply results, written = question :: reply :: results ∧
      Wake.IsTurn lib ((redactRuntimeSecretText lib)^[b.passes + 1] request.message)
        ((redactRuntimeSecretText lib)^[b.passes + 1] response.message)
        (calls.map fun call => (call.woken lib b.passes, call.wokenResult lib b.passes)) question reply results := by
  rw [chatEvents, serialiseToolCalls_eq hcalls, List.map_map, List.cons_append, List.cons_append,
    List.nil_append] at h
  obtain ⟨question, rest, hquestion, hrest, rfl⟩ := List.forall₂_cons_right_iff.1 h
  obtain ⟨reply, results, hreply, hresults, rfl⟩ := List.forall₂_cons_right_iff.1 hrest
  refine ⟨question, reply, results, rfl, ?_⟩
  have huser : Field (userPayload request) "text" (.str request.message) :=
    userPayload_text request [] (by simp [userPayload])
  refine ⟨hquestion.1, text_woken hquestion.2 huser (plainKey (by decide)) (by decide), hreply.1,
    text_woken hreply.2 (assistantPayload_text response durationMs) (plainKey (by decide)) (by decide), ?_, ?_⟩
  · rw [calls_woken hcalls hreply.2, ← List.map_take, List.map_map]
    rfl
  · rw [List.map_map, List.forall₂_map_right_iff]
    rw [List.forall₂_map_right_iff] at hresults
    exact hresults.imp fun event call hwritten => isResult_woken hlib call hwritten.1 hwritten.2

theorem isTurn_stream {b : Backend} {request : ChatRequest} {tokens : List String} {error : Option String}
    {durationMs : ℤ} {ledger : Option Payload} {written : List (SessionEvent Payload)}
    (h : List.Forall₂ (Written lib b) written (streamEvents request tokens error durationMs ledger)) :
    ∃ question reply rest, written = question :: reply :: rest ∧
      (∀ event ∈ rest, event.eventType = "runtime_flow_ledger") ∧
      Wake.IsTurn lib ((redactRuntimeSecretText lib)^[b.passes + 1] request.message)
        ((redactRuntimeSecretText lib)^[b.passes + 1] (String.join tokens)) [] question reply [] := by
  rw [streamEvents, List.cons_append, List.cons_append, List.nil_append] at h
  obtain ⟨question, events, hquestion, hrest, rfl⟩ := List.forall₂_cons_right_iff.1 h
  obtain ⟨reply, rest, hreply, hledger, rfl⟩ := List.forall₂_cons_right_iff.1 hrest
  have huser : Field (userPayload request ++ [("transport", .str "stream/v3")]) "text" (.str request.message) :=
    userPayload_text request _ (by simp [userPayload])
  have hnodup : ((streamPayload tokens error durationMs).map Prod.fst).Nodup := by
    cases error <;> simp [streamPayload]
  have hnone : "tool_calls" ∉ (streamPayload tokens error durationMs).map Prod.fst := by
    cases error <;> simp [streamPayload]
  refine ⟨question, reply, rest, rfl, ?_, hquestion.1,
    text_woken hquestion.2 huser (plainKey (by decide)) (by decide), hreply.1,
    text_woken hreply.2 ⟨hnodup, rfl⟩ (plainKey (by decide)) (by decide), ?_, .nil⟩
  · intro event hevent
    rw [List.forall₂_map_right_iff] at hledger
    clear h hrest
    generalize ledger.toList = payloads at hledger
    induction hledger with
    | nil => cases hevent
    | cons hone _ ih =>
      rcases List.mem_cons.1 hevent with rfl | hmem
      · exact hone.1
      · exact ih hmem
  · have habsent : (sanitizePayload lib reply.payload).get? "tool_calls" = none := by
      rw [hreply.2, ← Function.iterate_succ_apply' (sanitizePayload lib)]
      exact Payload.get?_eq_none_iff.2 (Payload.not_mem_cleanAll hnone (plainKey (by decide)) 8 (b.passes + 1))
    rw [habsent]
    rfl

theorem iterate_redact {text : String} (hlength : text.length ≤ Payload.maxSanitizedString)
    (hclean : (lib.redactSecretText text).1 = text) (n : ℕ) : (redactRuntimeSecretText lib)^[n] text = text := by
  apply Function.iterate_fixed
  rw [redactRuntimeSecretText, PyText.take_of_length_le hlength, hclean]

/-- What a wake gives after a turn that was dispatched to a log in order. -/
theorem chat_woken (b : Backend) (prov : Provenance) (hlib : KeepsText lib) {s : (b.log lib).State}
    (hs : (b.log lib).Ordered s) (request : ChatRequest) (reader : Option String)
    (hreader : reader.all (request.organizationId = some ·)) (response : ChatResponse) (calls : List DeclaredCall)
    (hcalls : declared response = calls.map fun call => .dict call.fields) (durationMs now : ℤ) :
    Wake.TurnAdded (Wake.wake lib prov (b.log lib).toEventLog s (sessionId "native::" request) reader none)
      (Wake.wake lib prov (b.log lib).toEventLog (nativeChatDispatch lib (b.log lib) s request response durationMs now)
        (sessionId "native::" request) reader none)
      ((redactRuntimeSecretText lib)^[b.passes + 1] request.message)
      ((redactRuntimeSecretText lib)^[b.passes + 1] response.message)
      (calls.map fun call => (call.woken lib b.passes, call.wokenResult lib b.passes)) := by
  obtain ⟨written, hwritten, hevents⟩ := getEvents_write b hs (sessionId "native::" request) hreader now
    (chatEvents lib request response durationMs)
  obtain ⟨question, reply, results, rfl, hturn⟩ := isTurn_chat hlib hcalls hwritten
  apply hturn.turnAdded prov [] fun _ hevent => absurd hevent List.not_mem_nil
  rw [List.append_nil]
  exact hevents

theorem stream_woken (b : Backend) (prov : Provenance) {s : (b.log lib).State} (hs : (b.log lib).Ordered s)
    (request : ChatRequest) {reader : Option String} (hreader : reader.all (request.organizationId = some ·))
    (tokens : List String) (error : Option String) (durationMs now : ℤ) (ledger : Option Payload) :
    Wake.TurnAdded (Wake.wake lib prov (b.log lib).toEventLog s (sessionId "native-stream::" request) reader none)
      (Wake.wake lib prov (b.log lib).toEventLog
        (nativeStreamDispatch (b.log lib) s request tokens error durationMs now ledger)
        (sessionId "native-stream::" request) reader none)
      ((redactRuntimeSecretText lib)^[b.passes + 1] request.message)
      ((redactRuntimeSecretText lib)^[b.passes + 1] (String.join tokens)) [] := by
  obtain ⟨written, hwritten, hevents⟩ := getEvents_write b hs (sessionId "native-stream::" request) hreader now
    (streamEvents request tokens error durationMs ledger)
  obtain ⟨question, reply, rest, rfl, hledger, hturn⟩ := isTurn_stream hwritten
  exact hturn.turnAdded prov rest hledger hevents

open Wake.Caller (plain)

def question (message : String) : ChatRequest :=
  { sessionId := some "s", userId := "u", message := message, role := "student" }

def search : DeclaredCall where
  fields := [("id", .str "c"), ("name", .str "search"), ("arguments", .dict []), ("result", .str "found")]
  id := "c"
  name := "search"
  arguments := some []
  nonempty := by decide
  hasId := ⟨by simp, rfl⟩
  hasName := ⟨by simp, rfl⟩
  hasArguments := ⟨by simp, rfl⟩

def answer (calls : List DeclaredCall) : ChatResponse :=
  { message := "answer", toolCalls := calls.map fun call => .dict call.fields, agentType := "rag" }

theorem keepsText_plain : KeepsText plain.lib := fun _ h => h

/-- A message of 4001 characters with nothing like a secret in it. -/
def long : String := String.ofList (List.replicate 4001 'a')

end Dispatch

end Wiii.Service
