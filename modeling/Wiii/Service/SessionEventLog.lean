import Wiii.Lib.Table
import Wiii.Service.EventLog

/-!
# The two event logs of a chat session

The log in memory drops its count of appends with the session when a prune leaves it no event, and the log in Postgres
counts from the largest number that a session still has.  So both give numbers again after such a prune (`not_law`); in
runs without one neither does (`session_event_logs`).
-/

namespace Wiii.Service

open Function (update update_self update_of_ne)

variable {π : Type}

def Append.event (sanitize : π → π) (request : Append π) (seq : ℕ) : SessionEvent π :=
  { sessionId := request.sessionId
    eventType := request.eventType
    payload := sanitize request.payload
    seq := seq
    orgId := request.orgId
    createdAt := request.now }

/-- `COALESCE(MAX(seq), 0)`. -/
def maxSeq (events : List (SessionEvent π)) : ℕ := (events.map SessionEvent.seq).max?.getD 0

theorem le_maxSeq {events : List (SessionEvent π)} {event : SessionEvent π} (h : event ∈ events) :
    event.seq ≤ maxSeq events :=
  max?_getD_le_iff.1 (Nat.le_refl _) _ (List.mem_map_of_mem h)

theorem maxSeq_le_iff {events : List (SessionEvent π)} {n : ℕ} :
    maxSeq events ≤ n ↔ ∀ event ∈ events, event.seq ≤ n := by
  rw [maxSeq, max?_getD_le_iff, List.forall_mem_map]

/-! ## In memory -/

structure SessionState (π : Type) where
  seq : ℕ := 0
  events : List (SessionEvent π) := []

structure InMemorySessionEventLog (π : Type) where
  sessions : String → Option (SessionState π)
  events : List (SessionEvent π)
  listed : ∀ sessionId, events.filter (fun event => decide (event.sessionId = sessionId)) =
    ((sessions sessionId).map SessionState.events).getD []
  numbered : ∀ sessionId state, sessions sessionId = some state → ∀ event ∈ state.events, event.seq ≤ state.seq
  nonempty : ∀ sessionId state, sessions sessionId = some state → state.events ≠ []

namespace InMemorySessionEventLog

def empty : InMemorySessionEventLog π := ⟨fun _ => none, [], fun _ => rfl, fun _ _ h => (nomatch h), fun _ _ h => (nomatch h)⟩

variable (s : InMemorySessionEventLog π)

def state (sessionId : String) : SessionState π := (s.sessions sessionId).getD {}

theorem filter_events (sessionId : String) :
    s.events.filter (fun event => decide (event.sessionId = sessionId)) = (s.state sessionId).events := by
  rw [s.listed, state]
  cases s.sessions sessionId <;> rfl

theorem mem_state {event : SessionEvent π} {sessionId : String} :
    event ∈ (s.state sessionId).events ↔ event ∈ s.events ∧ event.sessionId = sessionId := by
  rw [← filter_events, List.mem_filter, decide_eq_true_eq]

theorem seq_le {event : SessionEvent π} {sessionId : String} (h : event ∈ (s.state sessionId).events) :
    event.seq ≤ (s.state sessionId).seq := by
  unfold state at h ⊢
  cases hstate : s.sessions sessionId with
  | none =>
    rw [hstate] at h
    cases h
  | some state =>
    rw [hstate] at h
    exact s.numbered sessionId state hstate event h

def append (sanitize : π → π) (request : Append π) : SessionEvent π × InMemorySessionEventLog π :=
  let state := s.state request.sessionId
  let event := request.event sanitize (state.seq + 1)
  (event, {
    sessions := update s.sessions request.sessionId (some ⟨state.seq + 1, state.events ++ [event]⟩)
    events := s.events ++ [event]
    listed := by
      intro sessionId
      rw [List.filter_append, filter_events]
      by_cases h : sessionId = request.sessionId
      · subst h
        have heq : decide (event.sessionId = request.sessionId) = true := decide_eq_true rfl
        rw [update_self, List.filter_singleton, heq]
        rfl
      · have hne : ¬ event.sessionId = sessionId := fun heq => h heq.symm
        rw [update_of_ne h, List.filter_cons_of_neg (by simpa using hne), List.filter_nil, List.append_nil,
          InMemorySessionEventLog.state]
        cases s.sessions sessionId <;> rfl
    numbered := by
      intro sessionId state' hstate e he
      by_cases h : sessionId = request.sessionId
      · subst h
        rw [update_self] at hstate
        cases hstate
        rcases List.mem_append.1 he with he | he
        · exact Nat.le_succ_of_le (s.seq_le he)
        · cases List.mem_singleton.1 he
          exact Nat.le_refl _
      · rw [update_of_ne h] at hstate
        exact s.numbered sessionId state' hstate e he
    nonempty := by
      intro sessionId state' hstate
      by_cases h : sessionId = request.sessionId
      · subst h
        rw [update_self] at hstate
        cases hstate
        simp
      · rw [update_of_ne h] at hstate
        exact s.nonempty sessionId state' hstate })

def getEvents (sessionId : String) (orgId : Option String) (sinceSeq : Option ℕ) : List (SessionEvent π) :=
  (s.state sessionId).events.filter (selected orgId sinceSeq)

def latestSeq (sessionId : String) : Option String → ℕ
  | none => (s.state sessionId).seq
  | some orgId => (((s.state sessionId).events.reverse.find? fun event =>
      decide (event.orgId = some orgId)).map SessionEvent.seq).getD 0

def keptState (prune : Prune) (state : SessionState π) : Option (SessionState π) :=
  let events := state.events.filter fun event => !prune.selects event
  if events.isEmpty then none else some { state with events := events }

def prune (prune : Prune) : InMemorySessionEventLog π :=
  if prune.dryRun || !s.events.any prune.selects then s
  else {
    sessions := fun sessionId => (s.sessions sessionId).bind (keptState prune)
    events := s.events.filter fun event => !prune.selects event
    listed := by
      intro sessionId
      rw [List.filter_filter]
      have hswap : (fun event : SessionEvent π => decide (event.sessionId = sessionId) && !prune.selects event) =
          fun event => !prune.selects event && decide (event.sessionId = sessionId) :=
        funext fun _ => Bool.and_comm _ _
      rw [hswap, ← List.filter_filter, s.listed]
      cases s.sessions sessionId with
      | none => rfl
      | some state =>
        rw [Option.bind_some, keptState]
        dsimp only [Option.map_some, Option.getD_some]
        split
        · rename_i hnil
          exact List.isEmpty_iff.1 hnil
        · rfl
    numbered := by
      intro sessionId state hstate event hevent
      obtain ⟨old, hold, hkept⟩ := Option.bind_eq_some_iff.1 hstate
      unfold keptState at hkept
      dsimp only at hkept
      split at hkept
      · cases hkept
      · cases hkept
        exact s.numbered sessionId old hold event (List.mem_filter.1 hevent).1
    nonempty := by
      intro sessionId state hstate hnil
      obtain ⟨old, hold, hkept⟩ := Option.bind_eq_some_iff.1 hstate
      unfold keptState at hkept
      dsimp only at hkept
      split at hkept
      · cases hkept
      · rename_i hne
        cases hkept
        exact hne (List.isEmpty_iff.2 hnil) }

@[simp] theorem state_append (sanitize : π → π) (request : Append π) (sessionId : String) :
    ((s.append sanitize request).2.state sessionId) = if sessionId = request.sessionId then
      ⟨(s.state sessionId).seq + 1, (s.state sessionId).events ++ [(s.append sanitize request).1]⟩
      else s.state sessionId := by
  by_cases h : sessionId = request.sessionId
  · subst h
    rw [if_pos rfl]
    show (update s.sessions request.sessionId _ request.sessionId).getD {} = _
    rw [update_self]
    rfl
  · rw [if_neg h]
    show (update s.sessions request.sessionId _ sessionId).getD {} = _
    rw [update_of_ne h]
    rfl

theorem mem_prune {prune : Prune} {event : SessionEvent π} :
    event ∈ (s.prune prune).events ↔ event ∈ s.events ∧ prune.removes event = false := by
  unfold InMemorySessionEventLog.prune
  rw [Prune.removes, Bool.and_eq_false_iff, Bool.not_eq_false']
  split
  · rename_i hnone
    refine ⟨fun h => ⟨h, ?_⟩, And.left⟩
    rcases Bool.or_eq_true_iff.1 hnone with hdry | hany
    · exact .inl hdry
    · exact .inr (Bool.eq_false_iff.2 (List.any_eq_false.1 (Bool.not_eq_true' _ ▸ hany) event h))
  · rename_i hsome
    obtain ⟨hdry, -⟩ := Bool.or_eq_false_iff.1 (Bool.eq_false_iff.2 hsome)
    rw [List.mem_filter, hdry, Bool.not_eq_true']
    simp

def Spares (s : InMemorySessionEventLog π) (prune : Prune) : Prop :=
  ∀ sessionId, (s.state sessionId).events ≠ [] →
    ∃ event ∈ (s.state sessionId).events, prune.removes event = false

theorem seq_prune {prune : Prune} (h : Spares s prune) (sessionId : String) :
    ((s.prune prune).state sessionId).seq = (s.state sessionId).seq := by
  unfold InMemorySessionEventLog.prune
  split
  · rfl
  · rename_i hsome
    obtain ⟨hdry, -⟩ := Bool.or_eq_false_iff.1 (Bool.eq_false_iff.2 hsome)
    show (((s.sessions sessionId).bind (keptState prune)).getD {}).seq = _
    unfold InMemorySessionEventLog.state
    cases hstate : s.sessions sessionId with
    | none => rfl
    | some state =>
      have hevents : (s.state sessionId).events = state.events := by rw [InMemorySessionEventLog.state, hstate]; rfl
      obtain ⟨event, hevent, hkept⟩ := h sessionId (hevents ▸ s.nonempty sessionId state hstate)
      rw [hevents] at hevent
      rw [Prune.removes, hdry, Bool.not_false, Bool.true_and] at hkept
      rw [Option.bind_some, keptState, if_neg fun hnil => ?_]
      · rfl
      · have hmem : event ∈ state.events.filter fun event => !prune.selects event :=
          List.mem_filter.2 ⟨hevent, by rw [hkept]; rfl⟩
        rw [List.isEmpty_iff.1 hnil] at hmem
        cases hmem

def eventLog (sanitize : π → π) : EventLog π where
  State := InMemorySessionEventLog π
  empty := empty
  append := fun request s => s.append sanitize request
  getEvents := getEvents
  latestSeq := latestSeq
  prune := fun prune s => s.prune prune
  events := InMemorySessionEventLog.events
  next := fun s sessionId => (s.state sessionId).seq + 1
  seq_append := fun request s => rfl
  sessionId_append := fun request s => rfl
  next_append := by
    intro request s sessionId
    rw [state_append]
    split <;> rfl
  mem_append := fun request s event => by
    show event ∈ s.events ++ [(s.append sanitize request).1] ↔ _
    rw [List.mem_append, List.mem_singleton]
  mem_getEvents := fun s sessionId orgId sinceSeq event => by
    rw [getEvents, List.mem_filter, mem_state, and_assoc]
  latestSeq_lt := by
    intro s sessionId orgId
    apply Nat.lt_succ_of_le
    cases orgId with
    | none => exact Nat.le_refl _
    | some orgId =>
      show (Option.map SessionEvent.seq _).getD 0 ≤ _
      cases hfind : (s.state sessionId).events.reverse.find? fun event => decide (event.orgId = some orgId) with
      | none => exact Nat.zero_le _
      | some event => exact s.seq_le (List.mem_reverse.1 (List.mem_of_find?_eq_some hfind))
  seq_lt := fun s event hevent => Nat.lt_succ_of_le (s.seq_le (s.mem_state.2 ⟨hevent, rfl⟩))
  mem_prune := fun prune s event => s.mem_prune

end InMemorySessionEventLog

/-! ## In Postgres -/

/-- The column pair of `session_events_seq_unique`. -/
def SessionEvent.row (event : SessionEvent π) : String × ℕ := (event.sessionId, event.seq)

/-- The table `session_events`. -/
abbrev PostgresSessionEventLog (π : Type) := Table (SessionEvent.row (π := π))

namespace PostgresSessionEventLog

variable (rows : PostgresSessionEventLog π)

def ofSession (sessionId : String) : List (SessionEvent π) :=
  rows.rows.filter fun event => decide (event.sessionId = sessionId)

/-- One statement reads the largest number and inserts the next. -/
def append (sanitize : π → π) (request : Append π) : SessionEvent π × PostgresSessionEventLog π :=
  let event := request.event sanitize (maxSeq (ofSession rows request.sessionId) + 1)
  (event, rows.insertOrIgnore event)

def getEvents (sessionId : String) (orgId : Option String) (sinceSeq : Option ℕ) : List (SessionEvent π) :=
  ((ofSession rows sessionId).filter (selected orgId sinceSeq)).mergeSort fun a b => decide (a.seq ≤ b.seq)

def latestSeq (sessionId : String) (orgId : Option String) : ℕ :=
  maxSeq ((ofSession rows sessionId).filter (selected orgId none))

def prune (prune : Prune) : PostgresSessionEventLog π :=
  if prune.dryRun then rows else rows.deleteWhere prune.selects

theorem mem_ofSession {event : SessionEvent π} {sessionId : String} :
    event ∈ ofSession rows sessionId ↔ event ∈ rows ∧ event.sessionId = sessionId := by
  rw [ofSession, List.mem_filter, decide_eq_true_eq, Table.mem_iff]

theorem find?_next (sanitize : π → π) (request : Append π) :
    rows.find? (append rows sanitize request).1.row = none := by
  rw [Table.find?_eq_none_iff]
  intro event hevent hrow
  obtain ⟨hsession, hseq⟩ := Prod.mk.inj hrow
  have hle := le_maxSeq ((mem_ofSession rows).2 ⟨hevent, hsession⟩)
  have hnext : event.seq = maxSeq (ofSession rows request.sessionId) + 1 := hseq
  have hle' : event.seq ≤ maxSeq (ofSession rows request.sessionId) := hle
  omega

theorem rows_append (sanitize : π → π) (request : Append π) :
    (append rows sanitize request).2.rows = rows.rows ++ [(append rows sanitize request).1] :=
  Table.rows_insertOrIgnore (find?_next rows sanitize request)

theorem mem_prune {prune' : Prune} {event : SessionEvent π} :
    event ∈ prune rows prune' ↔ event ∈ rows ∧ prune'.removes event = false := by
  unfold PostgresSessionEventLog.prune
  rw [Prune.removes]
  split
  · rename_i hdry
    simp [hdry]
  · rename_i hdry
    rw [Table.mem_deleteWhere, Bool.eq_false_iff.2 hdry, Bool.not_false, Bool.true_and]

/-- A prune leaves every session its event of the largest number. -/
def Spares (rows : PostgresSessionEventLog π) (prune : Prune) : Prop :=
  ∀ event ∈ rows, event.seq = maxSeq (ofSession rows event.sessionId) → prune.removes event = false

theorem exists_eq_maxSeq {events : List (SessionEvent π)} (h : maxSeq events ≠ 0) :
    ∃ event ∈ events, event.seq = maxSeq events := by
  unfold maxSeq at h ⊢
  cases hmax : (events.map SessionEvent.seq).max? with
  | none =>
    rw [hmax] at h
    exact absurd rfl h
  | some top =>
    obtain ⟨event, hevent, heq⟩ := List.mem_map.1 (List.max?_eq_some_iff.1 hmax).1
    exact ⟨event, hevent, heq⟩

theorem maxSeq_prune {prune' : Prune} (h : Spares rows prune') (sessionId : String) :
    maxSeq (ofSession rows sessionId) ≤ maxSeq (ofSession (prune rows prune') sessionId) := by
  by_cases hzero : maxSeq (ofSession rows sessionId) = 0
  · rw [hzero]
    exact Nat.zero_le _
  · obtain ⟨event, hevent, heq⟩ := exists_eq_maxSeq hzero
    obtain ⟨hmem, rfl⟩ := (mem_ofSession rows).1 hevent
    rw [← heq]
    exact le_maxSeq ((mem_ofSession _).2 ⟨(mem_prune rows).2 ⟨hmem, h event hmem heq⟩, rfl⟩)

theorem ofSession_append (sanitize : π → π) (request : Append π) (sessionId : String) :
    ofSession (append rows sanitize request).2 sessionId = if sessionId = request.sessionId then
      ofSession rows sessionId ++ [(append rows sanitize request).1] else ofSession rows sessionId := by
  rw [ofSession, rows_append, List.filter_append, List.filter_singleton]
  by_cases h : sessionId = request.sessionId
  · have heq : decide ((append rows sanitize request).1.sessionId = sessionId) = true := decide_eq_true h.symm
    rw [if_pos h, heq]
    rfl
  · have hne : decide ((append rows sanitize request).1.sessionId = sessionId) = false :=
      decide_eq_false fun heq => h heq.symm
    rw [if_neg h, hne, cond_false, List.append_nil]
    rfl

theorem maxSeq_append (sanitize : π → π) (request : Append π) (sessionId : String) :
    maxSeq (ofSession (append rows sanitize request).2 sessionId) = if sessionId = request.sessionId then
      maxSeq (ofSession rows sessionId) + 1 else maxSeq (ofSession rows sessionId) := by
  rw [ofSession_append]
  by_cases h : sessionId = request.sessionId
  · subst h
    rw [if_pos rfl, if_pos rfl]
    have hseq : (append rows sanitize request).1.seq = maxSeq (ofSession rows request.sessionId) + 1 := rfl
    refine Nat.le_antisymm (maxSeq_le_iff.2 fun event hevent => ?_) ?_
    · rcases List.mem_append.1 hevent with hevent | hevent
      · exact Nat.le_succ_of_le (le_maxSeq hevent)
      · rw [List.mem_singleton.1 hevent]
        exact Nat.le_of_eq hseq
    · rw [← hseq]
      exact le_maxSeq (List.mem_append_right _ (List.mem_singleton.2 rfl))
  · rw [if_neg h, if_neg h]

def eventLog (sanitize : π → π) : EventLog π where
  State := PostgresSessionEventLog π
  empty := ∅
  append := fun request rows => append rows sanitize request
  getEvents := getEvents
  latestSeq := latestSeq
  prune := fun prune' rows => prune rows prune'
  events := Table.rows
  next := fun rows sessionId => maxSeq (ofSession rows sessionId) + 1
  seq_append := fun request rows => rfl
  sessionId_append := fun request rows => rfl
  next_append := by
    intro request rows sessionId
    rw [maxSeq_append]
    split <;> rfl
  mem_append := fun request rows event => by rw [rows_append, List.mem_append, List.mem_singleton]
  mem_getEvents := fun rows sessionId orgId sinceSeq event => by
    rw [getEvents, List.mem_mergeSort, List.mem_filter, mem_ofSession, and_assoc, Table.mem_iff]
  latestSeq_lt := fun rows sessionId orgId =>
    Nat.lt_succ_of_le (maxSeq_le_iff.2 fun event hevent => le_maxSeq (List.mem_filter.1 hevent).1)
  seq_lt := fun rows event hevent => Nat.lt_succ_of_le (le_maxSeq ((mem_ofSession rows).2 ⟨hevent, rfl⟩))
  mem_prune := fun prune' rows event => mem_prune rows

end PostgresSessionEventLog

/-! ## Both -/

/-- Where the prunes spare what is said, the numbers of a session increase, and a reader gets every later event that is
kept. -/
def Law (L : EventLog π) (spares : L.State → Prune → Prop) : Prop :=
  ∀ acts s, Run (Guarded L.Step fun s act => ∀ prune, act = .pruned prune → spares s prune) L.empty acts s →
    ((acts.flatMap EventLog.Act.appends).Pairwise fun event event' =>
      event.sessionId = event'.sessionId → event.seq < event'.seq) ∧
    ∀ before event after c, acts = before ++ .appended event :: after →
      (event.sessionId, c) ∈ before.flatMap EventLog.Act.gives →
      (∀ prune, .pruned prune ∈ after → prune.removes event = false) →
      event ∈ L.getEvents s event.sessionId none (some c)

theorem law_of_spares {L : EventLog π} {spares : L.State → Prune → Prop}
    (h : ∀ s prune, spares s prune → ∀ sessionId, L.next s sessionId ≤ L.next (L.prune prune s) sessionId) :
    Law L spares := by
  intro acts s hrun
  have hkeeps : Run (Guarded L.Step EventLog.Keeps) L.empty acts s := by
    refine hrun.mono fun s act t hs => ⟨hs.1, ?_⟩
    cases act with
    | pruned prune => exact h s prune (hs.2 prune rfl)
    | appended event => trivial
    | got sessionId events => trivial
    | latest sessionId seq => trivial
  refine ⟨EventLog.fresh_of_run hkeeps, fun before event after c hacts hgiven hkept => ?_⟩
  subst hacts
  exact EventLog.mem_getEvents_of_run hkeeps hgiven hkept

/-- In memory where each session keeps an event, in Postgres where each keeps its last one. -/
theorem session_event_logs (sanitize : π → π) :
    Law (InMemorySessionEventLog.eventLog sanitize) InMemorySessionEventLog.Spares ∧
      Law (PostgresSessionEventLog.eventLog sanitize) PostgresSessionEventLog.Spares := by
  constructor
  · exact law_of_spares fun s prune h sessionId => Nat.succ_le_succ (Nat.le_of_eq (s.seq_prune h sessionId).symm)
  · exact law_of_spares fun rows prune h sessionId =>
      Nat.succ_le_succ (PostgresSessionEventLog.maxSeq_prune rows h sessionId)

def hello : Append Unit := ⟨"s", "user_message", (), none, 0⟩

theorem run_reuse (L : EventLog Unit) :
    Run L.Step L.empty
      [.appended (L.append hello L.empty).1, .pruned ⟨1, none, none, false⟩,
        .appended (L.append hello (L.prune ⟨1, none, none, false⟩ (L.append hello L.empty).2)).1]
      (L.append hello (L.prune ⟨1, none, none, false⟩ (L.append hello L.empty).2)).2 :=
  .cons (.append hello _) (.cons (.prune _ _) (.single (.append hello _)))

/-- Without a condition the two events have one number. -/
theorem not_law :
    ¬ Law (InMemorySessionEventLog.eventLog (id : Unit → Unit)) (fun _ _ => True) ∧
      ¬ Law (PostgresSessionEventLog.eventLog (id : Unit → Unit)) (fun _ _ => True) := by
  have hreused : ∀ L : EventLog Unit, Law L (fun _ _ => True) →
      (L.append hello L.empty).1.seq <
        (L.append hello (L.prune ⟨1, none, none, false⟩ (L.append hello L.empty).2)).1.seq := by
    intro L h
    have hguarded : ∀ s act t, L.Step s act t →
        Guarded L.Step (fun _ act => ∀ prune, act = .pruned prune → True) s act t :=
      fun s act t hs => ⟨hs, fun _ _ => trivial⟩
    have hpair := (h _ _ ((run_reuse L).mono hguarded)).1
    refine List.rel_of_pairwise_cons hpair (List.mem_singleton.2 rfl) ?_
    rw [L.sessionId_append, L.sessionId_append]
  constructor
  · intro h
    exact absurd (hreused _ h) (by decide +kernel)
  · intro h
    exact absurd (hreused _ h) (by decide +kernel)

end Wiii.Service
