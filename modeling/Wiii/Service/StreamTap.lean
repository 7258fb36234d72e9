import Wiii.Lib.Streams
import Wiii.Service.Dispatch

/-!
# The tap on a stream

`native_stream_dispatch` hands on the chunks of a stream, reads the tokens of the answer out of them on the side and
writes the turn to the log.  The generator has no `finally`: what follows the loop runs if the stream ends or raises an
ordinary exception, and not if the consumer closes the generator or cancels the task.
-/

namespace Wiii.Service

/-- An exception, as messages show it. -/
structure PyException where
  typeName : String
  text : String
  deriving DecidableEq

/-- `JSONDecodeError`, `TypeError`, or another exception such as `RecursionError`. -/
inductive LoadsError where
  | decode
  | other (exc : PyException)

namespace StreamTap

open PyText (isSpace strip)

/-- The text behind each place where `^` matches. -/
def lineStarts : Bool → List Char → List (List Char)
  | atStart, [] => if atStart then [[]] else []
  | atStart, c :: cs => (if atStart then [c :: cs] else []) ++ lineStarts (c = '\n') cs

/-- What follows a field name at the start of a line, and the spaces and line ends behind it. -/
def fieldRest (name : List Char) (line : List Char) : Option (List Char) :=
  if name.isPrefixOf line then some ((line.drop name.length).dropWhile isSpace) else none

/-- The group of `_EVENT_LINE.search`. -/
def eventName (chunk : String) : Option String :=
  (lineStarts true chunk.toList).findSome? fun line =>
    (fieldRest "event:".toList line).bind fun rest =>
      let name := rest.takeWhile fun c => !isSpace c
      if name.isEmpty then none else some (String.ofList name)

/-- The group of `_DATA_LINE.search`, stripped; blank is the same as no match. -/
def dataText (chunk : String) : Option String :=
  (lineStarts true chunk.toList).findSome? fun line =>
    (fieldRest "data:".toList line).bind fun rest =>
      let raw := strip (String.ofList (rest.takeWhile fun c => c ≠ '\n'))
      if raw = "" then none else some raw

variable (loads : String → Except LoadsError PyValue)

/-- The body of a chunk whose event is one of these; `none` where there is none. -/
def eventBody (names : List String) (chunk : String) : Except PyException (Option PyValue) :=
  match eventName chunk with
  | none => .ok none
  | some name =>
    if name ∈ names then
      match dataText chunk with
      | none => .ok none
      | some raw =>
        match loads raw with
        | .ok body => .ok (some body)
        | .error .decode => .ok none
        | .error (.other exc) => .error exc
    else .ok none

def answerContent : PyValue → Option String
  | .dict body =>
    match Payload.get? "content" body with
    | some (.str content) => if content = "" then none else some content
    | _ => none
  | _ => none

def flowLedger : PyValue → Option Payload
  | .dict body =>
    match Payload.get? "runtime_flow_ledger" body with
    | some (.dict ledger) => some ledger
    | _ => none
  | _ => none

/-- `_extract_answer_token`. -/
def extractAnswerToken (chunk : String) : Except PyException (Option String) :=
  (eventBody loads ["answer"] chunk).map (·.bind answerContent)

/-- `_extract_runtime_flow_ledger`. -/
def extractRuntimeFlowLedger (chunk : String) : Except PyException (Option Payload) :=
  (eventBody loads ["metadata", "done"] chunk).map (·.bind flowLedger)

/-- What the loop reads out of a chunk before it yields it. -/
structure ChunkNote where
  token : Option String
  ledger : Option Payload

def noteChunk (chunk : String) : Except PyException ChunkNote :=
  match extractAnswerToken loads chunk with
  | .error exc => .error exc
  | .ok token =>
    match extractRuntimeFlowLedger loads chunk with
    | .error exc => .error exc
    | .ok ledger => .ok ⟨token, ledger⟩

/-- The stream that is tapped: its chunks, and how it ends after them. -/
structure Inner where
  chunks : List String
  ending : Ending PyException

/-- It returns, raises `RuntimeError`, or the exception goes through that ended it. -/
inductive Leave where
  | returned
  | runtimeError (text : String)
  | cancelled
  deriving DecidableEq

structure Outcome where
  handed : List String
  events : List (String × Payload)
  left : Leave

def userEvent (request : ChatRequest) : String × Payload :=
  ("user_message", Dispatch.userPayload request ++ [("transport", .str "stream/v3")])

variable (lib : Runtime)

/-- `redact_runtime_secret_text(f"{type(exc).__name__}: {exc}")`. -/
def errorText (exc : PyException) : String :=
  (lib.redactSecretText (PyText.take Payload.maxSanitizedString (exc.typeName ++ ": " ++ exc.text))).1

def ledgerPayload (ledger : Payload) (status : String) (durationMs : ℤ) : Payload :=
  [("runtime_flow_ledger", .dict ledger), ("status", .str status), ("duration_ms", .int durationMs),
    ("transport", .str "stream/v3")]

def tokensOf (notes : List ChunkNote) : List String := notes.filterMap ChunkNote.token

def latestLedger (notes : List ChunkNote) : Option Payload := (notes.filterMap ChunkNote.ledger).getLast?

def finalise (request : ChatRequest) (durationMs : ℤ) (pass : Pass String ChunkNote) : Ending PyException → Outcome
  | .cancelled => ⟨pass.handed, [userEvent request], .cancelled⟩
  | .exhausted =>
    ⟨pass.handed,
      Dispatch.streamEvents request (tokensOf pass.notes) none durationMs
        ((latestLedger pass.notes).map fun ledger => ledgerPayload ledger "success" durationMs),
      .returned⟩
  | .raised exc =>
    ⟨pass.handed,
      Dispatch.streamEvents request (tokensOf pass.notes) (some (errorText lib exc)) durationMs
        ((latestLedger pass.notes).map fun ledger => ledgerPayload ledger "error" durationMs),
      .runtimeError (errorText lib exc)⟩

def nativeStreamDispatch (request : ChatRequest) (consumer : ℕ → Resumption) (inner : Inner) (durationMs : ℤ) :
    Outcome :=
  let loop := Pass.passOn (noteChunk loads) consumer inner.ending inner.chunks Pass.empty
  finalise lib request durationMs loop.1 loop.2

/-! ## What a faithful tap is -/

def answerTokens (chunks : List String) : List String :=
  chunks.filterMap fun chunk => (extractAnswerToken loads chunk).toOption.join

/-- The stream came to its end by itself. -/
def Succeeded (consumer : ℕ → Resumption) (inner : Inner) : Prop :=
  inner.ending = .exhausted ∧ ∀ i < inner.chunks.length, consumer i = .next

/-- The consumer gets the chunks up to its close, and the log one message of the user and one that closes the turn as it
ended. -/
structure FaithfulTap (request : ChatRequest) (consumer : ℕ → Resumption) (inner : Inner) (outcome : Outcome) :
    Prop where
  handed : outcome.handed = Pass.upToClose consumer 0 inner.chunks
  user : outcome.events.filter (·.1 = "user_message") = [userEvent request]
  closing : ∃ payload status, outcome.events.filter (·.1 = "assistant_message") = [("assistant_message", payload)] ∧
    Payload.get? "text" payload = some (.str (String.join (answerTokens loads outcome.handed))) ∧
    Payload.get? "status" payload = some (.str status) ∧ (status = "success" ↔ Succeeded consumer inner)

/-- The consumer goes on, nothing cancels the stream, and the parser raises nothing else. -/
def RunsThrough (consumer : ℕ → Resumption) (inner : Inner) : Prop :=
  (∀ i < inner.chunks.length, consumer i = .next) ∧ inner.ending ≠ .cancelled ∧
    ∀ chunk ∈ inner.chunks, ∃ note, noteChunk loads chunk = .ok note

variable {loads lib}

theorem token_of_note {chunk : String} {note : ChunkNote} (h : noteChunk loads chunk = .ok note) :
    (extractAnswerToken loads chunk).toOption.join = note.token := by
  unfold noteChunk at h
  split at h
  · exact nomatch h
  next token htoken =>
    split at h
    · exact nomatch h
    · cases h
      rw [htoken]
      rfl

theorem tokensOf_notes {chunks : List String} {notes : List ChunkNote}
    (h : chunks.map (noteChunk loads) = notes.map .ok) : tokensOf notes = answerTokens loads chunks := by
  induction chunks generalizing notes with
  | nil =>
    have hnil : notes = [] := by simpa using h.symm
    subst hnil
    rfl
  | cons chunk chunks ih =>
    cases notes with
    | nil => exact nomatch h
    | cons note notes =>
      rw [List.map_cons, List.map_cons] at h
      obtain ⟨hhead, htail⟩ := List.cons.inj h
      have hrest := ih htail
      unfold tokensOf answerTokens at hrest ⊢
      rw [List.filterMap_cons, List.filterMap_cons, token_of_note hhead, hrest]

/-- The log gets the events of a turn whose tokens were those of its chunks. -/
theorem nativeStreamDispatch_of_runsThrough {consumer : ℕ → Resumption} {inner : Inner}
    (h : RunsThrough loads consumer inner) (request : ChatRequest) (durationMs : ℤ) :
    ∃ notes, inner.chunks.map (noteChunk loads) = notes.map .ok ∧
      nativeStreamDispatch loads lib request consumer inner durationMs =
        finalise lib request durationMs ⟨inner.chunks, notes⟩ inner.ending := by
  obtain ⟨hnext, -, hnotes⟩ := h
  obtain ⟨notes, hmap, hrun⟩ := @Pass.passOn_through _ _ _ (noteChunk loads) consumer inner.ending inner.chunks
    Pass.empty hnotes (fun i hi => by
      rw [Pass.empty, List.length_nil, Nat.zero_add]
      exact hnext i hi)
  refine ⟨notes, hmap, ?_⟩
  rw [nativeStreamDispatch, hrun]
  rfl

theorem filter_user (request : ChatRequest) (tokens : List String) (error : Option String) (durationMs : ℤ)
    (ledger : Option Payload) :
    (Dispatch.streamEvents request tokens error durationMs ledger).filter (·.1 = "user_message") =
      [userEvent request] := by
  cases ledger <;> simp [Dispatch.streamEvents, userEvent]

theorem filter_assistant (request : ChatRequest) (tokens : List String) (error : Option String) (durationMs : ℤ)
    (ledger : Option Payload) :
    (Dispatch.streamEvents request tokens error durationMs ledger).filter (·.1 = "assistant_message") =
      [("assistant_message", Dispatch.streamPayload tokens error durationMs)] := by
  cases ledger <;> simp [Dispatch.streamEvents]

theorem streamPayload_text (tokens : List String) (error : Option String) (durationMs : ℤ) :
    Payload.get? "text" (Dispatch.streamPayload tokens error durationMs) = some (.str (String.join tokens)) := rfl

theorem streamPayload_status (tokens : List String) (error : Option String) (durationMs : ℤ) :
    Payload.get? "status" (Dispatch.streamPayload tokens error durationMs) =
      some (.str (if error.isNone then "success" else "error")) := by
  simp [Dispatch.streamPayload, Payload.get?_cons]

theorem not_cancelled_of_faithful {request : ChatRequest} {consumer : ℕ → Resumption} {inner : Inner} {durationMs : ℤ}
    (h : FaithfulTap loads request consumer inner (nativeStreamDispatch loads lib request consumer inner durationMs)) :
    (Pass.passOn (noteChunk loads) consumer inner.ending inner.chunks Pass.empty).2 ≠ .cancelled := by
  intro hcancelled
  obtain ⟨payload, status, hclosing, -⟩ := h.closing
  rw [nativeStreamDispatch, hcancelled] at hclosing
  simp [finalise, userEvent] at hclosing

theorem finalise_handed (request : ChatRequest) (durationMs : ℤ) (pass : Pass String ChunkNote)
    (ending : Ending PyException) : (finalise lib request durationMs pass ending).handed = pass.handed := by
  cases ending <;> rfl

/-- The tap is faithful iff it is not closed or cancelled and the parser raises nothing but what is caught. -/
theorem handed_on_faithfully_iff (loads : String → Except LoadsError PyValue) (lib : Runtime) (request : ChatRequest)
    (consumer : ℕ → Resumption) (inner : Inner) (durationMs : ℤ) :
    FaithfulTap loads request consumer inner (nativeStreamDispatch loads lib request consumer inner durationMs) ↔
      RunsThrough loads consumer inner := by
  constructor
  · intro h
    have hreached := @Pass.passOn_reached _ _ _ (noteChunk loads) consumer inner.ending inner.chunks Pass.empty
      (not_cancelled_of_faithful h) (by
        have hhanded := h.handed
        rw [nativeStreamDispatch, finalise_handed] at hhanded
        exact hhanded)
    rw [Pass.empty, List.length_nil] at hreached
    refine ⟨fun i hi => ?_, hreached.2⟩
    rw [← hreached.1 i hi, Nat.zero_add]
  · intro h
    obtain ⟨notes, hmap, hrun⟩ := @nativeStreamDispatch_of_runsThrough loads lib consumer inner h request durationMs
    have hclose : Pass.upToClose consumer 0 inner.chunks = inner.chunks :=
      Pass.upToClose_of_next fun i hi => by
        rw [Nat.zero_add]
        exact h.1 i hi
    rw [hrun]
    cases hending : inner.ending with
    | cancelled => exact absurd hending h.2.1
    | exhausted =>
      refine ⟨hclose.symm, filter_user .., _, "success", filter_assistant .., ?_, streamPayload_status .., ?_⟩
      · rw [streamPayload_text, tokensOf_notes hmap]
        rfl
      · exact ⟨fun _ => ⟨hending, h.1⟩, fun _ => rfl⟩
    | raised exc =>
      refine ⟨hclose.symm, filter_user .., _, "error", filter_assistant .., ?_, streamPayload_status .., ?_⟩
      · rw [streamPayload_text, tokensOf_notes hmap]
        rfl
      · refine ⟨fun hstatus => absurd hstatus (by decide), fun hsucceeded => ?_⟩
        exact nomatch hending.symm.trans hsucceeded.1

/-! ## A consumer that leaves -/

def greetingChunk : String := "event: answer\ndata: \x7b\"content\": \"hi\"\x7d\n\n"

/-- A parser that reads the data of one chunk. -/
def greetingLoads (raw : String) : Except LoadsError PyValue :=
  if raw = "\x7b\"content\": \"hi\"\x7d" then .ok (.dict [("content", .str "hi")]) else .error .decode

def greeting : ChatRequest := ⟨some "session", "reader", none, "hello", "student", none⟩

theorem greeting_closed (lib : Runtime) :
    nativeStreamDispatch greetingLoads lib greeting (fun _ => .close) ⟨[greetingChunk], .exhausted⟩ 5 =
      ⟨[greetingChunk], [userEvent greeting], .cancelled⟩ := by
  rfl

/-- The consumer has got the answer and leaves: the turn is never closed. -/
theorem turn_not_closed :
    answerTokens greetingLoads [greetingChunk] = ["hi"] ∧
      ¬ ∃ lib : Runtime, FaithfulTap greetingLoads greeting (fun _ => .close) ⟨[greetingChunk], .exhausted⟩
        (nativeStreamDispatch greetingLoads lib greeting (fun _ => .close) ⟨[greetingChunk], .exhausted⟩ 5) := by
  refine ⟨by decide +kernel, ?_⟩
  rintro ⟨lib, h⟩
  obtain ⟨payload, status, hclosing, -⟩ := h.closing
  rw [greeting_closed] at hclosing
  simp [userEvent] at hclosing

end StreamTap

end Wiii.Service
