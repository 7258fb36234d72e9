import Wiii.Neko.Runtime.System
import Wiii.Neko.Runtime.StderrTail

/-!
# The record of a process that ended

The runtime keeps the end of what a provider wrote to its stderr, up to 8192 bytes, and puts it into the
`process.exited` event, but the journal takes no string of more than 512.  So the event of an owned process is appended
exactly when the row of its session can be read, the storage serves the append and the text is short
(`exit_appended_iff`).
-/

namespace Wiii.Neko

open Program Journal Wiii.Neko.Runtime
open Computer (isWhitespace)

/-! ## The payload of the event -/

theorem length_toString_toInt_le (code : Int32) : (toString code.toInt).length ≤ 11 := by
  have hlow := code.le_toInt
  have hhigh := code.toInt_lt
  cases hcode : code.toInt with
  | ofNat n =>
    rw [hcode, Int.ofNat_eq_natCast] at hhigh
    exact (Nat.length_repr_le_iff (by decide)).2 (by omega)
  | negSucc n =>
    rw [hcode, Int.negSucc_eq] at hlow
    have h := (Nat.length_repr_le_iff (n := n + 1) (k := 10) (by decide)).2 (by omega)
    change ("-" ++ Nat.repr (n + 1)).length ≤ 11
    rw [String.length_append]
    change 1 + _ ≤ 11
    omega

/-- The payload of an exit is accepted exactly when the text of stderr in it is short. -/
theorem payloadValid_exitPayload {code : Option Int32} {reason : Option String}
    (hr : ∀ text ∈ reason, text.utf8ByteSize ≤ 64) (proven persisted : Bool) (tail : Option String) :
    PayloadValid (exitPayload (code.map Int32.toInt) reason proven persisted tail) ↔
      ∀ text ∈ tail, text.utf8ByteSize ≤ 512 := by
  have hcode : ((code.map Int32.toInt).map Value.number |>.getD .null).encodedLength ≤ 11 := by
    cases code with
    | none => decide
    | some code => exact length_toString_toInt_le code
  have hscalar : ((code.map Int32.toInt).map Value.number |>.getD .null).IsScalar ∧
      ∀ text, ((code.map Int32.toInt).map Value.number |>.getD .null) ≠ .string text := by
    cases code <;> simp [Value.IsScalar]
  have hkeys : Value.encodedString "exitCode" = 10 ∧ Value.encodedString "reason" = 8 ∧
      Value.encodedString "stderrTail" = 12 ∧ Value.encodedString "terminalStatePersisted" = 24 ∧
        Value.encodedString "terminationProven" = 19 := by decide
  have hsecret : isSecretKey "exitCode" = false ∧ isSecretKey "reason" = false ∧
      isSecretKey "stderrTail" = false ∧ isSecretKey "terminalStatePersisted" = false ∧
        isSecretKey "terminationProven" = false := by decide
  have hproven : (Value.bool proven).encodedLength ≤ 5 ∧ (Value.bool persisted).encodedLength ≤ 5 := by
    cases proven <;> cases persisted <;> decide
  have hbool (b : Bool) : (Value.bool b).IsScalar := trivial
  have hstring (text : String) : (Value.string text).IsScalar := trivial
  unfold exitPayload
  generalize ((code.map Int32.toInt).map Value.number |>.getD .null) = exit at hcode hscalar ⊢
  rw [payloadValid_object]
  · constructor
    · rintro ⟨h, -⟩ text rfl
      exact h ("stderrTail", .string text) (by simp) text rfl
    · intro h
      refine ⟨?_, ?_⟩
      · intro field hfield text htext
        simp only [List.mem_append, Option.mem_toList, Option.map_eq_some_iff,
          List.mem_cons, List.not_mem_nil, or_false] at hfield
        rcases hfield with ((rfl | ⟨r, hmem, rfl⟩) | ⟨t, hmem, rfl⟩) | rfl | rfl
        · exact absurd htext (hscalar.2 text)
        · cases htext
          exact (hr _ hmem).trans (by decide)
        · cases htext
          exact h _ hmem
        · cases htext
        · cases htext
      · have hreason : ∀ r ∈ reason, Value.encodedString r ≤ 386 := fun r hmem =>
          (Value.encodedString_le r).trans (by have := hr r hmem; omega)
        have htail : ∀ t ∈ tail, Value.encodedString t ≤ 3074 := fun t hmem =>
          (Value.encodedString_le t).trans (by have := h t hmem; omega)
        have hmax : maxEventPayloadBytes = 4096 := rfl
        have htext (text : String) : (Value.string text).encodedLength = Value.encodedString text := rfl
        have hcons (key : String) (value : Value) (rest : List (String × Value)) :
            Value.fieldsLength ((key, value) :: rest) =
              Value.encodedString key + 1 + value.encodedLength + 1 + Value.fieldsLength rest := rfl
        have hnil : Value.fieldsLength [] = 0 := rfl
        change 1 + max 1 (Value.fieldsLength _) ≤ maxEventPayloadBytes
        cases reason <;> cases tail <;>
          simp only [Option.mem_def, Option.some.injEq, forall_eq', Option.map_some, Option.map_none,
            Option.toList_some, Option.toList_none, List.cons_append, List.nil_append,
            List.append_nil, hcons, hnil, htext, hkeys] at hreason htail ⊢ <;>
          omega
  · cases reason <;> cases tail <;> simp
  · cases reason <;> cases tail <;> simp [hsecret, hscalar, hbool, hstring]

/-! ## Exits in the journal -/

def exitEvent : String := "process.exited"

def ControlEvent.isExit (event : ControlEvent) : Bool := event.eventType = exitEvent

namespace Database

/-- The recorded exits, oldest first. -/
def exits (db : Database) : List ControlEvent := db.events.rows.filter ControlEvent.isExit

variable {db db' : Database}

theorem exits_append {event : ControlEvent} (h : db'.events.rows = db.events.rows ++ [event]) :
    db'.exits = db.exits ++ if event.isExit then [event] else [] := by
  unfold exits
  rw [h, List.filter_append, List.filter_cons, List.filter_nil]

/-- No exit is recorded, and the session keeps its run. -/
structure Quiet (s : String) (db db' : Database) : Prop where
  exits : db'.exits = db.exits
  run : (db'.session s).map SessionRecord.runId = (db.session s).map SessionRecord.runId

theorem Quiet.refl (s : String) (db : Database) : Quiet s db db := ⟨rfl, rfl⟩

theorem Quiet.trans {s : String} {db₁ db₂ db₃ : Database} (h : Quiet s db₁ db₂) (h' : Quiet s db₂ db₃) :
    Quiet s db₁ db₃ :=
  ⟨h'.exits.trans h.exits, h'.run.trans h.run⟩

theorem Quiet.of_commits {s : String} {c : SessionCommit} {completion : Option (String × Value)}
    {failure : Option (String × String)} {tick : Tick} {row : SessionRecord}
    (htype : c.eventType = stateChanged) (h : Commits c completion failure tick db row db') :
    Quiet s db db' := by
  refine ⟨?_, ?_⟩
  · have hexit : (lifecycleEvent c row tick db).isExit = false := by
      simp only [ControlEvent.isExit, lifecycleEvent, nextEvent, htype]
      rfl
    rw [exits_append h.events, hexit]
    simp
  · rw [h.session s]
    by_cases hs : s = c.agentSessionId
    · rw [if_pos hs, hs, Option.map_map]
      rfl
    · rw [if_neg hs]

end Database

open Database

theorem exists_append {db : Database} {event : ControlEvent}
    (hseq : event.seq = db.latestSeq event.streamId + 1) : ∃ db', Appends db event db' := by
  obtain ⟨events, -, hrows⟩ := exists_insert hseq
  exact ⟨{ db with events }, hrows, rfl, rfl, rfl⟩

theorem call_quiet {α : Type} {s : String} {op : Tick → Database → Except String (α × Database)}
    (h : ∀ t db a db', op t db = .ok (a, db') → Quiet s db db') (w : World Database Runtime) :
    Quiet s w.durable (call op w).2.durable := by
  rcases call_cases op w with ⟨error, he, -⟩ | ⟨a, db, -, ho, he⟩
  · rw [he]
    exact .refl s _
  · rw [he]
    exact h _ _ _ _ ho

theorem commitFact_quiet {s : String} (cause : TerminalCause) {tick : Tick} {db db' : Database}
    {event : ControlEvent} (h : commitFact s cause.fact tick db = .ok (event, db')) : Quiet s db db' := by
  have htype := eventType_fact cause
  unfold commitFact at h
  split at h
  · obtain ⟨row, -, -, hcom⟩ := commitSessionEvent_ok_iff.1 h
    exact .of_commits htype hcom
  · split at h
    · obtain ⟨row, -, -, hcom⟩ := commitSessionEvent_ok_iff.1 h
      exact .of_commits htype hcom
    · obtain ⟨row, -, -, hcom⟩ := commitSessionEvent_ok_iff.1 h
      exact .of_commits htype hcom

theorem persistTerminalFact_quiet (s : String) (cause : TerminalCause) (w : World Database Runtime) :
    Quiet s w.durable (persistTerminalFact s cause.fact w).2.durable ∧
      (persistTerminalFact s cause.fact w).2.ticks = w.ticks.tail.tail := by
  have hretain : Quiet s w.durable
      (call (retainTerminalFact s cause.fact.requestId cause.fact.toValue) w).2.durable := by
    refine call_quiet ?_ w
    intro t db a db' h
    obtain ⟨-, -, -, rfl⟩ := retainTerminalFact_ok_iff.1 h
    exact ⟨rfl, rfl⟩
  unfold persistTerminalFact
  simp only [bind_apply, update_apply]
  generalize hfirst : call (retainTerminalFact s cause.fact.requestId cause.fact.toValue) w = first
  rw [hfirst] at hretain
  have hticks : first.2.ticks = w.ticks.tail := by rw [← hfirst]; rfl
  obtain ⟨retention, w₁⟩ := first
  generalize hheld : ({ w₁ with volatile := hold s cause.fact w₁.volatile } : World Database Runtime) = held
  have hcommit : Quiet s w₁.durable (call (commitFact s cause.fact) held).2.durable := by
    rw [← hheld]
    exact call_quiet (fun _ _ _ _ => commitFact_quiet cause) _
  have hcommitTicks : (call (commitFact s cause.fact) held).2.ticks = w₁.ticks.tail := by rw [← hheld]; rfl
  generalize call (commitFact s cause.fact) held = second at hcommit hcommitTicks ⊢
  have hend := hretain.trans hcommit
  have hendTicks : second.2.ticks = w.ticks.tail.tail := by rw [hcommitTicks, ← hticks]
  obtain ⟨answer, w₂⟩ := second
  cases answer with
  | ok _ => exact ⟨hend, hendTicks⟩
  | error _ =>
    cases retention with
    | ok _ => exact ⟨hend, hendTicks⟩
    | error _ => exact ⟨hend, hendTicks⟩

/-- The storage does not fail the call that `n` other calls precede. -/
def Serves (ticks : List Tick) (n : ℕ) : Prop := (ticks.getD n ⟨0, "", none⟩).fault = none

theorem serves_zero {w : World Database Runtime} : Serves w.ticks 0 ↔ (nextTick w).fault = none := by
  unfold Serves nextTick
  cases w.ticks <;> rfl

theorem serves_tail {ticks : List Tick} {n : ℕ} : Serves ticks.tail n ↔ Serves ticks (n + 1) := by
  unfold Serves
  cases ticks <;> simp

/-- One exit is appended for the session, to the stream of its run. -/
def RecordsExit (s : String) (db db' : Database) : Prop :=
  ∃ row event, db.session s = some row ∧ db'.exits = db.exits ++ [event] ∧ event.streamId = row.runId ∧
    event.agentSessionId = some s

/-- The row is read, and the append served: the second call of a terminal session, else the fourth. -/
def ExitServed (s : String) (db : Database) (ticks : List Tick) : Prop :=
  Serves ticks 0 ∧ ∃ row, db.session s = some row ∧ Serves ticks (if row.state.isTerminal then 1 else 3)

theorem emit_exits {run s : String} {payload : Value} {w : World Database Runtime}
    (hs : (w.durable.session s).isSome) :
    ∃ events, (emitControlEvent run "process.exited" s payload w).2.durable.exits = w.durable.exits ++ events ∧
      (events = [] ∧ ¬ (Serves w.ticks 0 ∧ PayloadValid payload) ∨
        Serves w.ticks 0 ∧ PayloadValid payload ∧
          ∃ event, events = [event] ∧ event.streamId = run ∧ event.agentSessionId = some s) := by
  unfold emitControlEvent
  rw [andThen_apply, serves_zero]
  rcases call_cases (appendEvent run "process.exited" run (some s) payload) w with
    ⟨error, he, hcause⟩ | ⟨event, db, hf, ho, he⟩
  · rw [he]
    refine ⟨[], (List.append_nil _).symm, .inl ⟨rfl, ?_⟩⟩
    rintro ⟨hserved, hvalid⟩
    rcases hcause with hf | ⟨-, ho⟩
    · rw [hserved] at hf
      cases hf
    · obtain ⟨db, happ⟩ := @exists_append w.durable
        (nextEvent w.durable run "process.exited" run (some s) payload (nextTick w)) rfl
      have hok := appendEvent_ok_iff.2 ⟨hvalid, fun s' hs' => Option.some.inj hs' ▸ hs, rfl, happ⟩
      rw [ho] at hok
      cases hok
  · obtain ⟨hvalid, -, rfl, happ⟩ := appendEvent_ok_iff.1 ho
    rw [he]
    refine ⟨_, exits_append happ.events, .inr ⟨hf, hvalid, _, rfl, rfl, rfl⟩⟩

/-- Whether an exit is recorded, in a state that agrees with an earlier one on exits and runs. -/
theorem recordsExit_emit {s : String} {payload : Value} {db : Database} {row : SessionRecord}
    {w : World Database Runtime} (hrow : db.session s = some row) (h : Quiet s db w.durable) :
    RecordsExit s db (emitControlEvent row.runId "process.exited" s payload w).2.durable ↔
      Serves w.ticks 0 ∧ PayloadValid payload := by
  have hs : (w.durable.session s).isSome := by
    rw [← Option.isSome_map, h.run, hrow]
    rfl
  obtain ⟨events, hexits, ⟨rfl, hnot⟩ | ⟨hserved, hvalid, event, rfl, hstream, hsession⟩⟩ :=
    @emit_exits row.runId s payload w hs
  · refine iff_of_false ?_ hnot
    rintro ⟨_, event, -, happended, -⟩
    rw [hexits, h.exits] at happended
    rw [List.append_nil] at happended
    exact List.cons_ne_nil event [] (List.self_eq_append_right.1 happended)
  · refine iff_of_true ⟨row, event, hrow, ?_, hstream, hsession⟩ ⟨hserved, hvalid⟩
    rw [hexits, h.exits]

theorem recordExit_iff (s : String) (cause : TerminalCause) (code : Option Int32) {reason : Option String}
    (hr : ∀ text ∈ reason, text.utf8ByteSize ≤ 64) (proven : Bool) (tail : Option String)
    (w : World Database Runtime) :
    RecordsExit s w.durable
        (recordExit s cause.fact (code.map Int32.toInt) reason proven tail w).2.durable ↔
      ExitServed s w.durable w.ticks ∧ ∀ text ∈ tail, text.utf8ByteSize ≤ 512 := by
  have hnone {db : Database} (h : db.exits = w.durable.exits) : ¬ RecordsExit s w.durable db := by
    rintro ⟨_, event, -, happended, -⟩
    rw [h] at happended
    exact List.cons_ne_nil event [] (List.self_eq_append_right.1 happended)
  unfold recordExit Runtime.readSession ExitServed
  rw [serves_zero]
  simp only [bind_apply]
  rcases call_cases (fun _ db => .ok (db.session s, db)) w with
    ⟨error, he, hcause⟩ | ⟨read, db, hf, ho, he⟩
  · -- the row is not read: the fact is held in memory and nothing is written
    rw [he]
    refine iff_of_false (hnone rfl) ?_
    rintro ⟨⟨hserved, -⟩, -⟩
    rcases hcause with hf | ⟨-, ho⟩
    · rw [hserved] at hf
      cases hf
    · cases ho
  · obtain ⟨rfl, rfl⟩ : w.durable.session s = read ∧ w.durable = db := by simpa using ho
    rw [he]
    cases hrow : w.durable.session s with
    | none =>
      refine iff_of_false (hnone rfl) ?_
      rintro ⟨⟨-, row, hsome, -⟩, -⟩
      cases hsome
    | some row =>
      simp only [sessionOrRetainTerminalFact, pure_apply, hf, true_and, Option.some.injEq,
        exists_eq_left']
      by_cases hterminal : row.state.isTerminal
      · simp only [hterminal, if_true]
        change RecordsExit s w.durable (emitControlEvent row.runId "process.exited" s
          (exitPayload (code.map Int32.toInt) reason proven true tail)
          { tickOff w with durable := w.durable }).2.durable ↔ _
        refine (@recordsExit_emit s _ w.durable row { tickOff w with durable := w.durable } hrow
          (.refl s _)).trans ?_
        rw [payloadValid_exitPayload hr]
        exact and_congr_left' serves_tail
      · simp only [hterminal, Bool.false_eq_true, if_false, bind_apply, pure_apply]
        obtain ⟨hquiet, hticks⟩ := persistTerminalFact_quiet s cause
          { tickOff w with durable := w.durable }
        refine (recordsExit_emit hrow hquiet).trans ?_
        rw [payloadValid_exitPayload hr, hticks]
        exact and_congr_left' (serves_tail.trans (serves_tail.trans serves_tail))

/-! ## The sections that end a process -/

/-- The section records an end: of a process its monitor took, or of one in the map. -/
inductive Ends (runtime : Runtime) (s : String) (stderrTail : Option String) : System.Event → Prop
  | exited {serial : ℕ} {code : Option Int32} {reason : ExitReason} {termination : Except String Unit}
      (h : ⟨⟨s, serial⟩, code.map Int32.toInt, reason⟩ ∈ runtime.exits) :
      Ends runtime s stderrTail
        (.finishProcessExit ⟨⟨s, serial⟩, code.map Int32.toInt, reason⟩ termination stderrTail)
  | protocolFailure {process : Process} {termination : Except String Unit}
      (h : runtime.process s = some process) :
      Ends runtime s stderrTail (.failProviderProtocol s termination stderrTail)

section

variable (sha256 : List UInt8 → String) (isAbsolute : String → Bool)

/-- What the section that ends a process does to the journal. -/
theorem ends_recordsExit_iff {σ : System} {s : String} {stderrTail : Option String} {event : System.Event}
    (h : Ends σ.runtime s stderrTail event) (ticks : List Tick) :
    RecordsExit s σ.journal (event.program sha256 isAbsolute (σ.world ticks)).2.durable ↔
      ExitServed s σ.journal ticks ∧ ∀ text ∈ stderrTail, text.utf8ByteSize ≤ 512 := by
  cases h with
  | @exited serial code reason termination =>
    have hnone : ∀ text ∈ (none : Option String), text.utf8ByteSize ≤ 64 := by simp
    let exit : Exit := ⟨⟨s, serial⟩, code.map Int32.toInt, reason⟩
    exact recordExit_iff s (.processExited reason termination) code hnone termination.isOk stderrTail
      ⟨σ.journal, (σ.runtime.endExit exit).noteTermination exit.process .monitor termination, ticks⟩
  | @protocolFailure process termination h =>
    have hprogram : (System.Event.program sha256 isAbsolute (.failProviderProtocol s termination stderrTail)
        (σ.world ticks)).2.durable = (recordExit s (TerminalCause.protocolFailure termination).fact none
          (some "provider_protocol_failure") termination.isOk stderrTail ⟨σ.journal,
            (σ.runtime.removeProcess s).noteTermination process .protocol termination, ticks⟩).2.durable := by
      change (failProviderProtocol s termination stderrTail (σ.world ticks)).2.durable = _
      unfold failProviderProtocol
      have hasks : (σ.world ticks).volatile.process s = some process := h
      simp only [bind_apply, asks_apply, hasks]
      rfl
    have hreason : ∀ text ∈ some "provider_protocol_failure", text.utf8ByteSize ≤ 64 := by
      rintro _ ⟨⟩
      decide
    rw [hprogram]
    exact recordExit_iff s (.protocolFailure termination) none hreason termination.isOk stderrTail ⟨_, _, _⟩

/-- Recorded exactly when the row is read, the storage serves the append and the kept stderr has at most 512 bytes. -/
theorem exit_appended_iff {σ σ' : System} {s : String} {reads : List StderrTail.Read} {event : System.Event}
    {ticks : List Tick} {answer : Except Failure Unit}
    (hend : Ends σ.runtime s (StderrTail.capture reads).snapshotLossy event)
    (hstep : System.Step sha256 isAbsolute σ ⟨event, ticks, answer⟩ σ') :
    RecordsExit s σ.journal σ'.journal ↔ ExitServed s σ.journal ticks ∧
      ∀ text ∈ retainedText (StderrTail.written reads), text.utf8ByteSize ≤ 512 := by
  obtain ⟨-, -, hjournal, -⟩ := hstep
  rw [← hjournal, ← snapshotLossy_capture]
  exact ends_recordsExit_iff sha256 isAbsolute hend ticks

/-- A runtime that owns the process of one running session. -/
def oneProcess : System where
  journal := { (∅ : Database) with
    sessions := (∅ : Table SessionRecord.agentSessionId).upsert
      ⟨"session", "task", "run", "local", "opencode", none, "/work", .running, .committed, "active", some 4711,
        0, 0⟩ }
  runtime := { Runtime.initial with
    up := true, processes := (∅ : Table Process.agentSessionId).upsert ⟨"session", 0⟩ }

/-- `n` letters on stderr, in one read. -/
def letters (n : ℕ) (h : n ≤ 4096) : StderrTail.Read := ⟨List.replicate n 0x61, by simpa using h⟩

theorem retainedText_letters {n : ℕ} (h : n ≤ 4096) (hpos : 0 < n) :
    retainedText (StderrTail.written [letters n h]) = some (.ofList (List.replicate n 'a')) := by
  have hwritten : StderrTail.written [letters n h] = List.replicate n 0x61 := by
    simp [StderrTail.written, letters]
  rw [hwritten]
  exact retainedText_replicate (by decide) (by decide) (h.trans (by decide)) hpos

theorem oneProcess_ends (stderrTail : Option String) :
    Ends oneProcess.runtime "session" stderrTail (.failProviderProtocol "session" (.ok ()) stderrTail) :=
  .protocolFailure (show oneProcess.runtime.process "session" = some ⟨"session", 0⟩ by decide)

/-- The section from that state, with a storage that fails no call. -/
def afterProtocolFailure (stderrTail : Option String) : System :=
  let after := ((System.Event.failProviderProtocol "session" (.ok ()) stderrTail).program sha256 isAbsolute
    (oneProcess.world [])).2
  ⟨after.durable, after.volatile⟩

theorem oneProcess_step (stderrTail : Option String) :
    System.Step sha256 isAbsolute oneProcess ⟨.failProviderProtocol "session" (.ok ()) stderrTail, [], .ok ()⟩
      (afterProtocolFailure sha256 isAbsolute stderrTail) :=
  ⟨rfl, rfl, rfl, rfl⟩

theorem oneProcess_served : ExitServed "session" oneProcess.journal [] :=
  ⟨rfl, _, rfl, rfl⟩

theorem oneProcess_recordsExit_iff (stderrTail : Option String) :
    RecordsExit "session" oneProcess.journal (afterProtocolFailure sha256 isAbsolute stderrTail).journal ↔
      ∀ text ∈ stderrTail, text.utf8ByteSize ≤ 512 :=
  (ends_recordsExit_iff sha256 isAbsolute (oneProcess_ends stderrTail) []).trans
    (and_iff_right oneProcess_served)

end

theorem exit_appended_short :
    RecordsExit "session" oneProcess.journal (afterProtocolFailure (fun _ => "") (fun _ => true)
      (StderrTail.capture [letters 3 (by decide)]).snapshotLossy).journal :=
  (exit_appended_iff _ _ (oneProcess_ends _) (oneProcess_step _ _ _)).2 ⟨oneProcess_served, by decide⟩

/-- 513 letters on stderr, and the exit is not recorded. -/
theorem exit_lost :
    let stderrTail := (StderrTail.capture [letters 513 (by decide)]).snapshotLossy
    Ends oneProcess.runtime "session" stderrTail (.failProviderProtocol "session" (.ok ()) stderrTail) ∧
      ¬ RecordsExit "session" oneProcess.journal
        (afterProtocolFailure (fun _ => "") (fun _ => true) stderrTail).journal := by
  refine ⟨oneProcess_ends _, fun h => ?_⟩
  have hshort := (oneProcess_recordsExit_iff _ _ _).1 h
  rw [snapshotLossy_capture, retainedText_letters (by decide) (by decide)] at hshort
  have hsize := hshort _ rfl
  rw [String.utf8ByteSize_ofList] at hsize
  have hlength := length_le_utf8Len (List.replicate 513 'a')
  rw [List.length_replicate] at hlength
  omega

end Wiii.Neko
