import Wiii.Service.OrderedLog
import Wiii.Service.Wake

/-!
# Waking from a cursor

The state that a wake without a new event returns has the last number 0, so the wake after it starts over and gives
every message a second time.  Where each wake after the first one that saw an event sees a new one, the increments give
what one wake of the whole log gives (`composes_iff`).
-/

namespace Wiii.Service

/-- What happens: an event of some session is appended, or the consumer wakes its session. -/
inductive CursorAct where
  | append (request : Append Payload)
  | wake

structure Consumer where
  cursor : Option ℕ := none
  messages : List Message := []

def Consumer.advance (consumer : Consumer) (state : WakeState) : Consumer :=
  ⟨some state.latestSeq, consumer.messages ++ state.messages⟩

namespace Wake

/-- The calls of `wake` of one consumer. -/
structure Caller where
  lib : Runtime
  prov : Provenance
  sessionId : String
  orgId : Option String := none

namespace Caller

variable (k : Caller) (L : OrderedLog Payload)

def events (s : L.State) : List (SessionEvent Payload) := L.getEvents s k.sessionId k.orgId none

def sees (request : Append Payload) : Prop :=
  request.sessionId = k.sessionId ∧ k.orgId.all (request.orgId = some ·) = true

instance : DecidablePred k.sees := fun _ => inferInstanceAs (Decidable (_ ∧ _))

def wake (s : L.State) (sinceSeq : Option ℕ) : WakeState :=
  Wake.wake k.lib k.prov L.toEventLog s k.sessionId k.orgId sinceSeq

/-- The increments give the messages of one wake of the whole log. -/
def Composes : Consumer → L.State → List CursorAct → Prop
  | _, _, [] => True
  | consumer, s, .append request :: acts => Composes consumer (L.append request s).2 acts
  | consumer, s, .wake :: acts =>
    let state := k.wake L s consumer.cursor
    (consumer.advance state).messages = (k.wake L s none).messages ∧
      (∀ cursor, consumer.cursor = some cursor → state.eventCount = 0 → state.latestSeq = cursor) ∧
      Composes (consumer.advance state) s acts

/-- After the first wake that saw an event (`seen`), an unseen one (`fresh`) precedes each wake. -/
def Fed : (seen fresh : Prop) → List CursorAct → Prop
  | _, _, [] => True
  | seen, fresh, .append request :: acts => Fed seen (fresh ∨ k.sees request) acts
  | seen, fresh, .wake :: acts => (seen → fresh) ∧ Fed (seen ∨ fresh) False acts

/-- The consumer has the messages of the events in `front`, and its cursor stands behind them. -/
structure Follows (consumer : Consumer) (s : L.State) (front back : List (SessionEvent Payload)) : Prop where
  ordered : L.Ordered s
  events : k.events L s = front ++ back
  messages : consumer.messages = front.flatMap (eventMessages k.lib k.prov)
  cursor : consumer.cursor.getD 0 = (front.getLast?.map SessionEvent.seq).getD 0
  asked : consumer.cursor = none → front = []

variable {k L} {consumer : Consumer} {s : L.State} {front back : List (SessionEvent Payload)}

theorem Follows.inOrder (h : k.Follows L consumer s front back) : InOrder (front ++ back) :=
  h.events ▸ L.inOrder_getEvents s k.sessionId k.orgId h.ordered

theorem wake_messages (sinceSeq : Option ℕ) : (k.wake L s sinceSeq).messages =
    (L.getEvents s k.sessionId k.orgId sinceSeq).flatMap (eventMessages k.lib k.prov) := messages_replay _ _ _

theorem Follows.getEvents (h : k.Follows L consumer s front back) :
    L.getEvents s k.sessionId k.orgId consumer.cursor = back := by
  have hevents : L.getEvents s k.sessionId k.orgId none = front ++ back := h.events
  cases hcursor : consumer.cursor with
  | none => rw [hevents, h.asked hcursor, List.nil_append]
  | some cursor =>
    rw [L.getEvents_since _ _ _ _ h.ordered, hevents, List.filter_append]
    have hlast := h.cursor
    rw [hcursor, Option.getD_some] at hlast
    have hfront : front.filter (fun event => decide (cursor < event.seq)) = [] := by
      rw [List.filter_eq_nil_iff]
      intro event hevent
      obtain ⟨init, last, rfl⟩ := List.eq_nil_or_concat front |>.resolve_left (List.ne_nil_of_mem hevent)
      have hrising := (List.pairwise_append.1 h.inOrder.rising).1
      simp only [List.concat_eq_append, List.getLast?_append, List.getLast?_singleton, Option.some_or, Option.map_some,
        Option.getD_some] at hlast hrising hevent
      rw [hlast, decide_eq_true_eq, Nat.not_lt]
      rcases List.mem_append.1 hevent with hinit | hend
      · exact Nat.le_of_lt ((List.pairwise_append.1 hrising).2.2 event hinit last (List.mem_singleton.2 rfl))
      · exact Nat.le_of_eq (congrArg SessionEvent.seq (List.mem_singleton.1 hend))
    have hback : back.filter (fun event => decide (cursor < event.seq)) = back := by
      rw [List.filter_eq_self]
      intro event hevent
      rw [decide_eq_true_eq, hlast]
      cases hend : front.getLast? with
      | none => exact h.inOrder.pos event (List.mem_append_right _ hevent)
      | some last =>
        exact (List.pairwise_append.1 h.inOrder.rising).2.2 last (List.mem_of_getLast? hend) event hevent
    rw [hfront, hback, List.nil_append]

theorem Follows.append (h : k.Follows L consumer s front back) (request : Append Payload) :
    k.Follows L consumer (L.append request s).2 front
      (back ++ if k.sees request then [(L.append request s).1] else []) := by
  refine ⟨L.ordered_append request s h.ordered, ?_, h.messages, h.cursor, h.asked⟩
  rw [Caller.events, L.getEvents_append request s _ _ h.ordered, ← List.append_assoc]
  exact congrArg (· ++ _) h.events

theorem Follows.advance (h : k.Follows L consumer s front back) (hfound : front = [] ∨ back ≠ []) :
    k.Follows L (consumer.advance (k.wake L s consumer.cursor)) s (front ++ back) [] := by
  refine ⟨h.ordered, by rw [List.append_nil]; exact h.events, ?_, ?_, fun hnone => (nomatch hnone)⟩
  · show consumer.messages ++ (k.wake L s consumer.cursor).messages = _
    rw [wake_messages, h.getEvents, h.messages, List.flatMap_append]
  · show (replay k.lib k.prov (L.getEvents s k.sessionId k.orgId consumer.cursor)).latestSeq = _
    rw [h.getEvents]
    rcases List.eq_nil_or_concat back with rfl | ⟨init, last, rfl⟩
    · have hfront : front = [] := hfound.resolve_right fun hne => hne rfl
      subst hfront
      rfl
    · have hrising := (List.pairwise_append.1 h.inOrder.rising).2.1
      rw [List.concat_eq_append] at hrising ⊢
      rw [latestSeq_replay k.lib k.prov hrising, ← List.append_assoc, List.getLast?_append]
      rfl

theorem Follows.lost (h : k.Follows L consumer s front []) (hfront : front ≠ []) :
    ∃ cursor, consumer.cursor = some cursor ∧ (k.wake L s consumer.cursor).eventCount = 0 ∧
      (k.wake L s consumer.cursor).latestSeq ≠ cursor := by
  have hevents := h.getEvents
  cases hcursor : consumer.cursor with
  | none => exact absurd (h.asked hcursor) hfront
  | some cursor =>
    rw [hcursor] at hevents
    refine ⟨cursor, rfl, ?_, ?_⟩
    · show (replay _ _ _).eventCount = 0
      rw [hevents]
      rfl
    · show (replay _ _ _).latestSeq ≠ cursor
      rw [hevents, latestSeq_replay_nil]
      have hlast := h.cursor
      rw [hcursor, Option.getD_some] at hlast
      obtain ⟨init, last, rfl⟩ := (List.eq_nil_or_concat front).resolve_left hfront
      rw [List.concat_eq_append, List.getLast?_append] at hlast
      have hpos := h.inOrder.pos last (List.mem_append_left _ (by simp))
      have hcursor' : cursor = last.seq := hlast
      omega

theorem composes_iff_of_follows (acts : List CursorAct) {seen fresh : Prop} (h : k.Follows L consumer s front back)
    (hseen : seen ↔ front ≠ []) (hfresh : fresh ↔ back ≠ []) :
    k.Composes L consumer s acts ↔ k.Fed seen fresh acts := by
  induction acts generalizing consumer s front back seen fresh with
  | nil => exact Iff.rfl
  | cons act acts ih =>
    cases act with
    | append request =>
      refine ih (h.append request) hseen ?_
      rw [hfresh]
      by_cases hsees : k.sees request
      · simp [hsees]
      · simp [hsees]
    | wake =>
      rw [Composes, Fed]
      by_cases hfound : front = [] ∨ back ≠ []
      · have hnext := h.advance hfound
        have hseen' : seen ∨ fresh ↔ front ++ back ≠ [] := by
          rw [hseen, hfresh]
          simp [Classical.or_iff_not_imp_left]
        have hfresh' : False ↔ ([] : List (SessionEvent Payload)) ≠ [] := by simp
        rw [ih hnext hseen' hfresh']
        refine ⟨fun hall => ⟨fun hs => ?_, hall.2.2⟩, fun hall => ⟨?_, ?_, hall.2⟩⟩
        · exact hfresh.2 (hfound.resolve_left (hseen.1 hs))
        · rw [hnext.messages, wake_messages]
          exact congrArg (List.flatMap _) h.events.symm
        · intro cursor hcursor hnone
          have hnil : back = [] := by
            have hcount : (replay k.lib k.prov (L.getEvents s k.sessionId k.orgId consumer.cursor)).eventCount = 0 :=
              hnone
            rw [h.getEvents, eventCount_replay] at hcount
            exact List.eq_nil_of_length_eq_zero hcount
          subst hnil
          have hfront : front = [] := hfound.resolve_right fun hne => hne rfl
          subst hfront
          have hzero := h.cursor
          rw [hcursor] at hzero
          have hlatest := hnext.cursor
          exact Eq.trans hlatest hzero.symm
      · obtain ⟨hfront, hback⟩ := not_or.1 hfound
        have hback := not_not.1 hback
        subst hback
        obtain ⟨cursor, hcursor, hcount, hlost⟩ := h.lost hfront
        refine iff_of_false (fun hall => hlost (hall.2.1 cursor hcursor hcount)) fun hall => ?_
        exact hfresh.1 (hall.1 (hseen.2 hfront)) rfl

theorem composes_iff (L : OrderedLog Payload) (k : Caller) {before : List (EventLog.Act Payload)} {s : L.State}
    (h : Run L.Step L.empty before s) (acts : List CursorAct) :
    k.Composes L {} s acts ↔ k.Fed False (k.events L s ≠ []) acts := by
  have hfollows : k.Follows L {} s [] (k.events L s) :=
    ⟨L.ordered_of_run h L.ordered_empty, rfl, rfl, rfl, fun _ => rfl⟩
  exact composes_iff_of_follows acts hfollows (by simp) Iff.rfl

/-- The increments compose where every wake after the first that saw an event sees another. -/
theorem increments_compose (k : Caller) {before before' : List (EventLog.Act Payload)}
    {s : InMemorySessionEventLog Payload} {rows : PostgresSessionEventLog Payload}
    (h : Run (InMemorySessionEventLog.eventLog (Payload.sanitizePayload k.lib)).Step
      InMemorySessionEventLog.empty before s)
    (h' : Run (PostgresSessionEventLog.eventLog (Payload.sanitizePayload k.lib)).Step
      (∅ : PostgresSessionEventLog Payload) before' rows)
    (acts : List CursorAct) :
    (k.Composes (InMemorySessionEventLog.orderedLog (Payload.sanitizePayload k.lib)) {} s acts ↔
        k.Fed False (k.events (InMemorySessionEventLog.orderedLog (Payload.sanitizePayload k.lib)) s ≠ []) acts) ∧
      (k.Composes (PostgresSessionEventLog.orderedLog (Payload.sanitizePayload k.lib)) {} rows acts ↔
        k.Fed False (k.events (PostgresSessionEventLog.orderedLog (Payload.sanitizePayload k.lib)) rows ≠ []) acts) :=
  ⟨composes_iff (InMemorySessionEventLog.orderedLog (Payload.sanitizePayload k.lib)) k h acts,
    composes_iff (PostgresSessionEventLog.orderedLog (Payload.sanitizePayload k.lib)) k h' acts⟩

/-- A consumer, with functions that do what Python's do on the keys and texts below. -/
def plain : Caller where
  lib :=
    { lowerTable := fun c => [c]
      redactSecretText := fun text => (text, 0)
      hashRuntimeIdentifier := fun _ => none
      loads := fun _ => none
      dumps := fun _ => ""
      toInt := fun _ => none
      toStr := fun _ => "" }
  prov := ⟨id, id⟩
  sessionId := "s"

def greeting : Append Payload := ⟨"s", "user_message", [("text", .str "hello")], none, 0⟩

theorem increments_compose_greeting :
    (plain.Composes (InMemorySessionEventLog.orderedLog (Payload.sanitizePayload plain.lib)) {}
        InMemorySessionEventLog.empty [.append greeting, .wake, .append greeting, .wake] ↔
      plain.Fed False (plain.events (InMemorySessionEventLog.orderedLog (Payload.sanitizePayload plain.lib))
        InMemorySessionEventLog.empty ≠ []) [.append greeting, .wake, .append greeting, .wake]) ∧
      (plain.Composes (PostgresSessionEventLog.orderedLog (Payload.sanitizePayload plain.lib)) {}
        (∅ : PostgresSessionEventLog Payload) [.append greeting, .wake, .append greeting, .wake] ↔
      plain.Fed False (plain.events (PostgresSessionEventLog.orderedLog (Payload.sanitizePayload plain.lib))
        (∅ : PostgresSessionEventLog Payload) ≠ []) [.append greeting, .wake, .append greeting, .wake]) :=
  increments_compose plain (.nil _) (.nil _) _

/-- The second wake finds nothing and moves the cursor from 1 to 0. -/
theorem cursor_lost :
    ¬ plain.Composes (InMemorySessionEventLog.orderedLog (Payload.sanitizePayload plain.lib)) {}
      InMemorySessionEventLog.empty [.append greeting, .wake, .wake] := by
  intro h
  exact absurd (h.2.2.2.1 1 (by decide +kernel) (by decide +kernel)) (by decide +kernel)

end Caller

end Wake

end Wiii.Service
