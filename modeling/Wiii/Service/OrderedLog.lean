import Wiii.Service.SessionEventLog

/-!
# Logs in order

What a reader of one session sees of either log: the events of the session stand in the order of their numbers, a
number to read from leaves out the events up to it, and an append adds its event at the end or, if the filter leaves
it out, nothing.
-/

namespace Wiii.Service

variable {π : Type}

structure InOrder (events : List (SessionEvent π)) : Prop where
  rising : events.Pairwise fun a b => a.seq < b.seq
  pos : ∀ event ∈ events, 0 < event.seq

namespace InOrder

theorem nil : InOrder ([] : List (SessionEvent π)) := ⟨List.Pairwise.nil, fun _ h => (nomatch h)⟩

theorem sublist {events events' : List (SessionEvent π)} (h : InOrder events) (hsub : events'.Sublist events) :
    InOrder events' := ⟨h.rising.sublist hsub, fun event hevent => h.pos event (hsub.subset hevent)⟩

theorem snoc {events : List (SessionEvent π)} {event : SessionEvent π} {seq : ℕ} (h : InOrder events)
    (hseq : event.seq = seq + 1) (hle : ∀ a ∈ events, a.seq ≤ seq) : InOrder (events ++ [event]) := by
  constructor
  · refine List.pairwise_append.2 ⟨h.rising, List.pairwise_singleton _ _, fun a ha b hb => ?_⟩
    rw [List.mem_singleton.1 hb, hseq]
    exact Nat.lt_succ_of_le (hle a ha)
  · intro a ha
    rcases List.mem_append.1 ha with ha | ha
    · exact h.pos a ha
    · rw [List.mem_singleton.1 ha, hseq]
      exact Nat.succ_pos seq

end InOrder

/-- A log that keeps the events of each session in the order of their numbers. -/
structure OrderedLog (π : Type) extends EventLog π where
  Ordered : State → Prop
  ordered_empty : Ordered empty
  ordered_append : ∀ request s, Ordered s → Ordered (append request s).2
  ordered_prune : ∀ prune' s, Ordered s → Ordered (prune prune' s)
  inOrder_getEvents : ∀ s sessionId orgId, Ordered s → InOrder (getEvents s sessionId orgId none)
  getEvents_since : ∀ s sessionId orgId c, Ordered s → getEvents s sessionId orgId (some c) =
    (getEvents s sessionId orgId none).filter fun event => decide (c < event.seq)
  getEvents_append : ∀ request s sessionId orgId, Ordered s → getEvents (append request s).2 sessionId orgId none =
    getEvents s sessionId orgId none ++ if request.sessionId = sessionId ∧ orgId.all (request.orgId = some ·) then
      [(append request s).1] else []

namespace OrderedLog

variable (L : OrderedLog π)

theorem ordered_of_run {acts : List (EventLog.Act π)} {s t : L.State} (h : Run L.Step s acts t) (hs : L.Ordered s) :
    L.Ordered t := by
  refine h.invariant (fun s act t hs h => ?_) hs
  cases h with
  | append request s => exact L.ordered_append request s hs
  | get s sessionId orgId sinceSeq => exact hs
  | latest s sessionId orgId => exact hs
  | prune prune s => exact L.ordered_prune prune s hs

end OrderedLog

theorem filter_selected_since (events : List (SessionEvent π)) (orgId : Option String) (c : ℕ) :
    events.filter (selected orgId (some c)) =
      (events.filter (selected orgId none)).filter fun event => decide (c < event.seq) := by
  rw [List.filter_filter]
  apply List.filter_congr
  intro event _
  simp [selected, Bool.and_comm]

theorem selected_append {orgId : Option String} {event : SessionEvent π} (request : Append π)
    (h : event.orgId = request.orgId) : selected orgId none event = orgId.all (request.orgId = some ·) := by
  simp [selected, h]

namespace InMemorySessionEventLog

def Ordered (s : InMemorySessionEventLog π) : Prop := ∀ sessionId, InOrder (s.state sessionId).events

theorem ordered_append {s : InMemorySessionEventLog π} (sanitize : π → π) (request : Append π) (h : Ordered s) :
    Ordered (s.append sanitize request).2 := by
  intro sessionId
  rw [state_append]
  split
  · rename_i heq
    subst heq
    exact (h _).snoc rfl fun a ha => s.seq_le ha
  · exact h sessionId

theorem listed_prune (s : InMemorySessionEventLog π) (prune' : Prune) :
    (s.prune prune').events = s.events.filter fun event => !prune'.removes event := by
  unfold InMemorySessionEventLog.prune
  split
  · rename_i hnone
    refine (List.filter_eq_self.2 fun event hevent => ?_).symm
    rw [Prune.removes]
    rcases Bool.or_eq_true_iff.1 hnone with hdry | hany
    · rw [hdry]
      rfl
    · have hany' : s.events.any prune'.selects = false := by simpa using hany
      rw [Bool.eq_false_iff.2 (List.any_eq_false.1 hany' event hevent), Bool.and_false]
      rfl
  · rename_i hsome
    obtain ⟨hdry, -⟩ := Bool.or_eq_false_iff.1 (Bool.eq_false_iff.2 hsome)
    apply List.filter_congr
    intro event _
    rw [Prune.removes, hdry, Bool.not_false, Bool.true_and]

theorem events_prune (s : InMemorySessionEventLog π) (prune' : Prune) (sessionId : String) :
    ((s.prune prune').state sessionId).events =
      (s.state sessionId).events.filter fun event => !prune'.removes event := by
  rw [← filter_events, ← filter_events, List.filter_filter, listed_prune, List.filter_filter]
  apply List.filter_congr
  intro event _
  exact Bool.and_comm _ _

theorem ordered_prune {s : InMemorySessionEventLog π} (prune' : Prune) (h : Ordered s) :
    Ordered (s.prune prune') := by
  intro sessionId
  rw [events_prune]
  exact (h sessionId).sublist List.filter_sublist

theorem getEvents_append (s : InMemorySessionEventLog π) (sanitize : π → π) (request : Append π) (sessionId : String)
    (orgId : Option String) : (s.append sanitize request).2.getEvents sessionId orgId none =
      s.getEvents sessionId orgId none ++ if request.sessionId = sessionId ∧ orgId.all (request.orgId = some ·) then
        [(s.append sanitize request).1] else [] := by
  rw [getEvents, state_append]
  by_cases hsession : sessionId = request.sessionId
  · rw [if_pos hsession, List.filter_append, List.filter_singleton, selected_append request rfl, getEvents]
    cases orgId.all (request.orgId = some ·) <;> simp [hsession]
  · rw [if_neg hsession, if_neg fun h => hsession h.1.symm, List.append_nil, getEvents]

def orderedLog (sanitize : π → π) : OrderedLog π where
  toEventLog := eventLog sanitize
  Ordered := Ordered
  ordered_empty := fun _ => InOrder.nil
  ordered_append := fun request _ h => ordered_append sanitize request h
  ordered_prune := fun prune' _ h => ordered_prune prune' h
  inOrder_getEvents := fun _ sessionId _ h => (h sessionId).sublist List.filter_sublist
  getEvents_since := fun _ _ orgId c _ => filter_selected_since _ orgId c
  getEvents_append := fun request s sessionId orgId _ => s.getEvents_append sanitize request sessionId orgId

end InMemorySessionEventLog

namespace PostgresSessionEventLog

def Ordered (rows : PostgresSessionEventLog π) : Prop := ∀ sessionId, InOrder (ofSession rows sessionId)

theorem ordered_append {rows : PostgresSessionEventLog π} (sanitize : π → π) (request : Append π) (h : Ordered rows) :
    Ordered (append rows sanitize request).2 := by
  intro sessionId
  rw [ofSession_append]
  split
  · rename_i heq
    subst heq
    exact (h _).snoc rfl fun a ha => le_maxSeq ha
  · exact h sessionId

theorem rows_prune (rows : PostgresSessionEventLog π) (prune' : Prune) :
    (prune rows prune').rows = rows.rows.filter fun event => !prune'.removes event := by
  unfold PostgresSessionEventLog.prune
  split
  · rename_i hdry
    refine (List.filter_eq_self.2 fun event _ => ?_).symm
    rw [Prune.removes, hdry]
    rfl
  · rename_i hdry
    apply List.filter_congr
    intro event _
    rw [Prune.removes, Bool.eq_false_iff.2 hdry, Bool.not_false, Bool.true_and]

theorem ofSession_prune (rows : PostgresSessionEventLog π) (prune' : Prune) (sessionId : String) :
    ofSession (prune rows prune') sessionId =
      (ofSession rows sessionId).filter fun event => !prune'.removes event := by
  rw [ofSession, rows_prune, ofSession, List.filter_filter, List.filter_filter]
  apply List.filter_congr
  intro event _
  exact Bool.and_comm _ _

theorem getEvents_eq {rows : PostgresSessionEventLog π} (h : Ordered rows) (sessionId : String)
    (orgId : Option String) (sinceSeq : Option ℕ) :
    getEvents rows sessionId orgId sinceSeq = (ofSession rows sessionId).filter (selected orgId sinceSeq) := by
  apply List.mergeSort_of_pairwise
  refine ((h sessionId).sublist List.filter_sublist).rising.imp fun hlt => ?_
  exact decide_eq_true (Nat.le_of_lt hlt)

theorem ordered_prune {rows : PostgresSessionEventLog π} (prune' : Prune) (h : Ordered rows) :
    Ordered (prune rows prune') := by
  intro sessionId
  rw [ofSession_prune]
  exact (h sessionId).sublist List.filter_sublist

theorem inOrder_getEvents {rows : PostgresSessionEventLog π} (h : Ordered rows) (sessionId : String)
    (orgId : Option String) : InOrder (getEvents rows sessionId orgId none) := by
  rw [getEvents_eq h]
  exact (h sessionId).sublist List.filter_sublist

theorem getEvents_since {rows : PostgresSessionEventLog π} (h : Ordered rows) (sessionId : String)
    (orgId : Option String) (c : ℕ) : getEvents rows sessionId orgId (some c) =
      (getEvents rows sessionId orgId none).filter fun event => decide (c < event.seq) := by
  rw [getEvents_eq h, getEvents_eq h, filter_selected_since]

theorem getEvents_append {rows : PostgresSessionEventLog π} (h : Ordered rows) (sanitize : π → π)
    (request : Append π) (sessionId : String) (orgId : Option String) :
    getEvents (append rows sanitize request).2 sessionId orgId none =
      getEvents rows sessionId orgId none ++ if request.sessionId = sessionId ∧ orgId.all (request.orgId = some ·) then
        [(append rows sanitize request).1] else [] := by
  rw [getEvents_eq (ordered_append sanitize request h), getEvents_eq h, ofSession_append]
  by_cases hsession : sessionId = request.sessionId
  · rw [if_pos hsession, List.filter_append, List.filter_singleton, selected_append request rfl]
    cases orgId.all (request.orgId = some ·) <;> simp [hsession]
  · rw [if_neg hsession, if_neg fun h => hsession h.1.symm, List.append_nil]

def orderedLog (sanitize : π → π) : OrderedLog π where
  toEventLog := eventLog sanitize
  Ordered := Ordered
  ordered_empty := fun _ => InOrder.nil
  ordered_append := fun request _ h => ordered_append sanitize request h
  ordered_prune := fun prune' _ h => ordered_prune prune' h
  inOrder_getEvents := fun _ sessionId orgId h => inOrder_getEvents h sessionId orgId
  getEvents_since := fun _ sessionId orgId c h => getEvents_since h sessionId orgId c
  getEvents_append := fun request _ sessionId orgId h => getEvents_append h sanitize request sessionId orgId

end PostgresSessionEventLog

end Wiii.Service
