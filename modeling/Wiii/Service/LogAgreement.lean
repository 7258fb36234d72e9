import Wiii.Service.OrderedLog

/-!
# The two logs beside each other

Every call of the interface on the log in memory and on the log in Postgres.  The logs part where a prune takes the last
event of a session and leaves earlier ones (`logs_differ`).  They answer alike in every sequence of calls whose prunes
do not, whose payloads come back from the column as they were written, and whose recent events were appended by a clock
that did not go back (`logs_agree`).
-/

namespace Wiii.Service

variable {π : Type}

/-- What `_row_to_event` makes of a row. -/
def rowToEvent (sanitize : π → π) (row : SessionEvent π) : SessionEvent π := { row with payload := sanitize row.payload }

inductive LogCall (π : Type) where
  | append (request : Append π)
  | getEvents (sessionId : String) (orgId : Option String) (sinceSeq : Option ℕ)
  | latestSeq (sessionId : String) (orgId : Option String)
  /-- `limit` is `none` where it is no integer. -/
  | getRecentEvents (orgId eventType : Option String) (limit : Option ℤ)
  | pruneOlderThan (prune : Prune)

inductive LogAnswer (π : Type) where
  | event (event : SessionEvent π)
  | events (events : List (SessionEvent π))
  | number (n : ℕ)
  | error
  deriving DecidableEq

/-- `_bounded_recent_limit`. -/
def boundedRecentLimit : Option ℤ → ℕ
  | none => 50
  | some limit => (min (max limit 1) 500).toNat

def recent (orgId eventType : Option String) (event : SessionEvent π) : Bool :=
  (orgId.all fun orgId => decide (event.orgId = some orgId)) &&
    eventType.all fun eventType => decide (event.eventType = eventType)

namespace InMemorySessionEventLog

/-- The newest events first. -/
def getRecentEvents (s : InMemorySessionEventLog π) (orgId eventType : Option String) (limit : Option ℤ) :
    List (SessionEvent π) := (s.events.reverse.filter (recent orgId eventType)).take (boundedRecentLimit limit)

def call (sanitize : π → π) (s : InMemorySessionEventLog π) : LogCall π → LogAnswer π × InMemorySessionEventLog π
  | .append request => (.event (s.append sanitize request).1, (s.append sanitize request).2)
  | .getEvents sessionId orgId sinceSeq => (.events (s.getEvents sessionId orgId sinceSeq), s)
  | .latestSeq sessionId orgId => (.number (s.latestSeq sessionId orgId), s)
  | .getRecentEvents orgId eventType limit => (.events (s.getRecentEvents orgId eventType limit), s)
  | .pruneOlderThan prune => (.number (s.events.countP prune.selects), s.prune prune)

def answers (sanitize : π → π) : InMemorySessionEventLog π → List (LogCall π) → List (LogAnswer π)
  | _, [] => []
  | s, call' :: calls => (s.call sanitize call').1 :: answers sanitize (s.call sanitize call').2 calls

end InMemorySessionEventLog

namespace PostgresSessionEventLog

/-- `ORDER BY created_at DESC, id DESC LIMIT`; the ids follow the order of the inserts. -/
def getRecentEvents (rows : PostgresSessionEventLog π) (orgId eventType : Option String) (limit : Option ℤ) :
    List (SessionEvent π) :=
  ((rows.rows.reverse.filter (recent orgId eventType)).mergeSort fun a b => decide (b.createdAt ≤ a.createdAt)).take
    (boundedRecentLimit limit)

/-- The column refuses what `jsonb` cannot hold, and gives back what it holds. -/
def call (sanitize : π → π) (jsonb : π → Option π) (rows : PostgresSessionEventLog π) :
    LogCall π → LogAnswer π × PostgresSessionEventLog π
  | .append request =>
    match jsonb (sanitize request.payload) with
    | some stored =>
      let (row, rows) := append rows (fun _ => stored) request
      (.event (rowToEvent sanitize row), rows)
    | none => (.error, rows)
  | .getEvents sessionId orgId sinceSeq =>
    (.events ((getEvents rows sessionId orgId sinceSeq).map (rowToEvent sanitize)), rows)
  | .latestSeq sessionId orgId => (.number (latestSeq rows sessionId orgId), rows)
  | .getRecentEvents orgId eventType limit =>
    (.events ((getRecentEvents rows orgId eventType limit).map (rowToEvent sanitize)), rows)
  | .pruneOlderThan prune' => (.number (rows.rows.countP prune'.selects), prune rows prune')

def answers (sanitize : π → π) (jsonb : π → Option π) :
    PostgresSessionEventLog π → List (LogCall π) → List (LogAnswer π)
  | _, [] => []
  | rows, call' :: calls => (call sanitize jsonb rows call').1 :: answers sanitize jsonb (call sanitize jsonb rows call').2 calls

end PostgresSessionEventLog

/-! ## Where they agree -/

/-- A prune leaves each session its last event, or none. -/
def KeepsLast (s : InMemorySessionEventLog π) (prune : Prune) : Prop :=
  ∀ sessionId, (s.state sessionId).events.filter (fun event => !prune.removes event) = [] ∨
    ∀ event, (s.state sessionId).events.getLast? = some event → prune.removes event = false

/-- What a call must meet for the logs to answer alike. -/
def Meets (sanitize : π → π) (jsonb : π → Option π) (s : InMemorySessionEventLog π) : LogCall π → Prop
  | .append request => (jsonb (sanitize request.payload)).map sanitize = some (sanitize request.payload)
  | .getRecentEvents _ _ _ => s.events.Pairwise fun a b => a.createdAt ≤ b.createdAt
  | .pruneOlderThan prune => KeepsLast s prune
  | _ => True

def MeetsAll (sanitize : π → π) (jsonb : π → Option π) : InMemorySessionEventLog π → List (LogCall π) → Prop
  | _, [] => True
  | s, call :: calls => Meets sanitize jsonb s call ∧ MeetsAll sanitize jsonb (s.call sanitize call).2 calls

/-- The rows are the events of the log in memory, and its counts are their largest numbers. -/
structure Agree (sanitize : π → π) (s : InMemorySessionEventLog π) (rows : PostgresSessionEventLog π) : Prop where
  events : s.events = rows.rows.map (rowToEvent sanitize)
  seq : ∀ sessionId, (s.state sessionId).seq = maxSeq (PostgresSessionEventLog.ofSession rows sessionId)
  ordered : rows.Ordered

theorem InOrder.maxSeq_eq {events : List (SessionEvent π)} (h : InOrder events) :
    maxSeq events = (events.getLast?.map SessionEvent.seq).getD 0 := by
  rcases List.eq_nil_or_concat events with rfl | ⟨init, last, rfl⟩
  · rfl
  · rw [List.concat_eq_append] at h ⊢
    rw [List.getLast?_append]
    refine Nat.le_antisymm (maxSeq_le_iff.2 fun event hevent => ?_)
      (le_maxSeq (List.mem_append_right _ (List.mem_singleton.2 rfl)))
    rcases List.mem_append.1 hevent with hinit | hlast
    · exact Nat.le_of_lt ((List.pairwise_append.1 h.rising).2.2 event hinit last (List.mem_singleton.2 rfl))
    · rw [List.mem_singleton.1 hlast]
      exact Nat.le_refl _

theorem find?_reverse {α : Type} (p : α → Bool) (l : List α) : l.reverse.find? p = (l.filter p).getLast? := by
  rw [← List.head?_filter, List.filter_reverse, List.head?_reverse]

theorem filter_rowToEvent (sanitize : π → π) {p : SessionEvent π → Bool} (hp : ∀ e, p (rowToEvent sanitize e) = p e)
    (rows : List (SessionEvent π)) :
    (rows.map (rowToEvent sanitize)).filter p = (rows.filter p).map (rowToEvent sanitize) := by
  rw [List.filter_map]
  congr 1
  exact List.filter_congr fun e _ => hp e

theorem InMemorySessionEventLog.seq_eq_zero {s : InMemorySessionEventLog π} {sessionId : String}
    (h : (s.state sessionId).events = []) : (s.state sessionId).seq = 0 := by
  unfold InMemorySessionEventLog.state at h ⊢
  cases hstate : s.sessions sessionId with
  | none => rfl
  | some state =>
    rw [hstate] at h
    exact absurd h (s.nonempty sessionId state hstate)

theorem InMemorySessionEventLog.seq_prune_of_ne_nil {s : InMemorySessionEventLog π} {prune : Prune}
    {sessionId : String} (h : (s.state sessionId).events.filter (fun event => !prune.removes event) ≠ []) :
    ((s.prune prune).state sessionId).seq = (s.state sessionId).seq := by
  unfold InMemorySessionEventLog.prune
  split
  · rfl
  · rename_i hsome
    obtain ⟨hdry, -⟩ := Bool.or_eq_false_iff.1 (Bool.eq_false_iff.2 hsome)
    show (((s.sessions sessionId).bind (keptState prune)).getD {}).seq = _
    unfold InMemorySessionEventLog.state at h ⊢
    cases hstate : s.sessions sessionId with
    | none => rfl
    | some state =>
      rw [hstate, Option.getD_some] at h
      have hkept : (state.events.filter fun event => !prune.selects event) ≠ [] := by
        simpa [Prune.removes, hdry] using h
      rw [Option.bind_some, keptState, if_neg fun hnil => hkept (List.isEmpty_iff.1 hnil)]
      rfl

namespace Agree

variable {sanitize : π → π} {jsonb : π → Option π} {s : InMemorySessionEventLog π} {rows : PostgresSessionEventLog π}

theorem empty : Agree sanitize InMemorySessionEventLog.empty (∅ : PostgresSessionEventLog π) :=
  ⟨rfl, fun _ => rfl, fun _ => InOrder.nil⟩

theorem state (h : Agree sanitize s rows) (sessionId : String) :
    (s.state sessionId).events = (PostgresSessionEventLog.ofSession rows sessionId).map (rowToEvent sanitize) := by
  rw [← InMemorySessionEventLog.filter_events, h.events]
  exact filter_rowToEvent sanitize (fun _ => rfl) _

theorem getEvents (h : Agree sanitize s rows) (sessionId : String) (orgId : Option String) (sinceSeq : Option ℕ) :
    s.getEvents sessionId orgId sinceSeq =
      (PostgresSessionEventLog.getEvents rows sessionId orgId sinceSeq).map (rowToEvent sanitize) := by
  rw [InMemorySessionEventLog.getEvents, PostgresSessionEventLog.getEvents_eq h.ordered, h.state]
  exact filter_rowToEvent sanitize (fun _ => rfl) _

theorem latestSeq (h : Agree sanitize s rows) (sessionId : String) (orgId : Option String) :
    s.latestSeq sessionId orgId = PostgresSessionEventLog.latestSeq rows sessionId orgId := by
  have hfilter : InOrder ((PostgresSessionEventLog.ofSession rows sessionId).filter (selected orgId none)) :=
    (h.ordered sessionId).sublist List.filter_sublist
  rw [PostgresSessionEventLog.latestSeq]
  cases orgId with
  | none =>
    have hall : (PostgresSessionEventLog.ofSession rows sessionId).filter (selected none none) =
        PostgresSessionEventLog.ofSession rows sessionId := List.filter_eq_self.2 fun _ _ => rfl
    rw [hall]
    exact h.seq sessionId
  | some orgId =>
    show ((s.state sessionId).events.reverse.find? _ |>.map SessionEvent.seq).getD 0 = _
    rw [hfilter.maxSeq_eq, find?_reverse, h.state, filter_rowToEvent sanitize (fun _ => rfl), List.getLast?_map,
      Option.map_map]
    have hselected : ∀ e : SessionEvent π, selected (some orgId) none e = decide (e.orgId = some orgId) := by
      intro e
      simp [selected]
    rw [List.filter_congr fun e _ => (hselected e).symm]
    rfl

theorem getRecentEvents (h : Agree sanitize s rows) (hclock : s.events.Pairwise fun a b => a.createdAt ≤ b.createdAt)
    (orgId eventType : Option String) (limit : Option ℤ) : s.getRecentEvents orgId eventType limit =
      (PostgresSessionEventLog.getRecentEvents rows orgId eventType limit).map (rowToEvent sanitize) := by
  rw [h.events, List.pairwise_map] at hclock
  have hsorted : (rows.rows.reverse.filter (recent orgId eventType)).Pairwise
      fun a b => decide (b.createdAt ≤ a.createdAt) = true := by
    refine List.Pairwise.sublist List.filter_sublist (List.pairwise_reverse.2 (hclock.imp fun hle => ?_))
    exact decide_eq_true hle
  rw [PostgresSessionEventLog.getRecentEvents, List.mergeSort_of_pairwise hsorted,
    InMemorySessionEventLog.getRecentEvents, h.events, ← List.map_reverse, filter_rowToEvent sanitize (fun _ => rfl),
    List.map_take]

theorem append (h : Agree sanitize s rows) {request : Append π} {stored : π}
    (hstored : sanitize stored = sanitize request.payload) :
    (s.append sanitize request).1 =
        rowToEvent sanitize (PostgresSessionEventLog.append rows (fun _ => stored) request).1 ∧
      Agree sanitize (s.append sanitize request).2 (PostgresSessionEventLog.append rows (fun _ => stored) request).2 := by
  have hevent : (s.append sanitize request).1 =
      rowToEvent sanitize (PostgresSessionEventLog.append rows (fun _ => stored) request).1 := by
    show Append.event sanitize request ((s.state request.sessionId).seq + 1) = _
    rw [h.seq, Append.event, ← hstored]
    rfl
  refine ⟨hevent, ?_, fun sessionId => ?_, PostgresSessionEventLog.ordered_append _ _ h.ordered⟩
  · rw [PostgresSessionEventLog.rows_append, List.map_append, ← h.events, List.map_singleton, ← hevent]
    rfl
  · rw [InMemorySessionEventLog.state_append, PostgresSessionEventLog.maxSeq_append]
    split
    · rename_i hsession
      rw [← h.seq]
    · exact h.seq sessionId

theorem countP (h : Agree sanitize s rows) (prune : Prune) :
    s.events.countP prune.selects = rows.rows.countP prune.selects := by
  rw [h.events, List.countP_map]
  rfl

theorem prune (h : Agree sanitize s rows) {prune : Prune} (hkeeps : KeepsLast s prune) :
    Agree sanitize (s.prune prune) (PostgresSessionEventLog.prune rows prune) := by
  have hstate : ∀ sessionId, ((s.prune prune).state sessionId).events =
      (PostgresSessionEventLog.ofSession (PostgresSessionEventLog.prune rows prune) sessionId).map
        (rowToEvent sanitize) := by
    intro sessionId
    rw [InMemorySessionEventLog.events_prune, h.state, PostgresSessionEventLog.ofSession_prune]
    exact filter_rowToEvent sanitize (fun _ => rfl) _
  refine ⟨?_, fun sessionId => ?_, PostgresSessionEventLog.ordered_prune prune h.ordered⟩
  · rw [PostgresSessionEventLog.rows_prune, InMemorySessionEventLog.listed_prune, h.events]
    exact filter_rowToEvent sanitize (fun _ => rfl) _
  · by_cases hnil : (s.state sessionId).events.filter (fun event => !prune.removes event) = []
    · have hevents : ((s.prune prune).state sessionId).events = [] := by
        rw [InMemorySessionEventLog.events_prune, hnil]
      have hrows := hstate sessionId
      rw [hevents] at hrows
      rw [InMemorySessionEventLog.seq_eq_zero hevents, List.map_eq_nil_iff.1 hrows.symm]
      rfl
    · rw [InMemorySessionEventLog.seq_prune_of_ne_nil hnil, h.seq, PostgresSessionEventLog.ofSession_prune]
      have hlast := (hkeeps sessionId).resolve_left hnil
      rw [h.state, List.getLast?_map] at hlast
      rw [(h.ordered sessionId).maxSeq_eq, ((h.ordered sessionId).sublist List.filter_sublist).maxSeq_eq]
      rcases List.eq_nil_or_concat (PostgresSessionEventLog.ofSession rows sessionId) with hrows | ⟨init, last, hrows⟩
      · rw [hrows]
        rfl
      · rw [hrows, List.concat_eq_append] at hlast ⊢
        have hkept : prune.removes last = false := hlast (rowToEvent sanitize last) (by simp)
        rw [List.filter_append, List.filter_cons_of_pos (by rw [hkept]; rfl), List.filter_nil, List.getLast?_append,
          List.getLast?_append]
        rfl

theorem call (h : Agree sanitize s rows) {call : LogCall π} (hmeets : Meets sanitize jsonb s call) :
    (s.call sanitize call).1 = (PostgresSessionEventLog.call sanitize jsonb rows call).1 ∧
      Agree sanitize (s.call sanitize call).2 (PostgresSessionEventLog.call sanitize jsonb rows call).2 := by
  cases call with
  | append request =>
    obtain ⟨stored, hjsonb, hstored⟩ := Option.map_eq_some_iff.1 (show _ = _ from hmeets)
    obtain ⟨hevent, hagree⟩ := h.append hstored
    rw [InMemorySessionEventLog.call, PostgresSessionEventLog.call, hjsonb]
    exact ⟨congrArg LogAnswer.event hevent, hagree⟩
  | getEvents sessionId orgId sinceSeq => exact ⟨congrArg LogAnswer.events (h.getEvents sessionId orgId sinceSeq), h⟩
  | latestSeq sessionId orgId => exact ⟨congrArg LogAnswer.number (h.latestSeq sessionId orgId), h⟩
  | getRecentEvents orgId eventType limit =>
    exact ⟨congrArg LogAnswer.events (h.getRecentEvents hmeets orgId eventType limit), h⟩
  | pruneOlderThan prune => exact ⟨congrArg LogAnswer.number (h.countP prune), h.prune hmeets⟩

theorem answers (h : Agree sanitize s rows) {calls : List (LogCall π)} (hmeets : MeetsAll sanitize jsonb s calls) :
    s.answers sanitize calls = PostgresSessionEventLog.answers sanitize jsonb rows calls := by
  induction calls generalizing s rows with
  | nil => rfl
  | cons call' calls ih =>
    obtain ⟨hanswer, hnext⟩ := h.call hmeets.1
    rw [InMemorySessionEventLog.answers, PostgresSessionEventLog.answers, hanswer, ih hnext hmeets.2]

end Agree

def status : Append Unit := ⟨"s", "status", (), none, 0⟩
def message : Append Unit := ⟨"s", "user_message", (), none, 1⟩

end Wiii.Service
