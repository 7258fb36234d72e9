import Wiii.Lib.Run
import Mathlib.Data.Int.Notation

/-!
# Logs of numbered events

The two event logs of a chat session share an interface: an append gives the event the next number of its session, reads
filter by organisation and number, and a prune removes events.  `EventLog` is this interface with the laws that both
backends have.  Where no prune lowers the next number, numbers are never reused and no reader misses an event
(`EventLog.fresh_of_run`, `EventLog.mem_getEvents_of_run`).
-/

namespace Wiii.Service

/-- One entry of the log of a session; `createdAt` is in microseconds. -/
structure SessionEvent (π : Type) where
  sessionId : String
  eventType : String
  payload : π
  seq : ℕ
  orgId : Option String
  createdAt : ℤ
  deriving DecidableEq

/-- An append, with the time that its clock shows. -/
structure Append (π : Type) where
  sessionId : String
  eventType : String
  payload : π
  orgId : Option String := none
  now : ℤ

structure Prune where
  cutoff : ℤ
  orgId : Option String := none
  eventType : Option String := none
  dryRun : Bool := true

variable {π : Type}

def Prune.selects (prune : Prune) (event : SessionEvent π) : Bool :=
  (prune.orgId.all fun orgId => decide (event.orgId = some orgId)) &&
    (prune.eventType.all fun eventType => decide (event.eventType = eventType)) &&
    decide (event.createdAt < prune.cutoff)

def Prune.removes (prune : Prune) (event : SessionEvent π) : Bool := !prune.dryRun && prune.selects event

/-- The filters of `get_events` on the events of a session. -/
def selected (orgId : Option String) (sinceSeq : Option ℕ) (event : SessionEvent π) : Bool :=
  (orgId.all fun orgId => decide (event.orgId = some orgId)) &&
    (sinceSeq.all fun sinceSeq => decide (sinceSeq < event.seq))

/-- A backend: its `events`, and the `next` number of each session. -/
structure EventLog (π : Type) where
  State : Type
  empty : State
  append : Append π → State → SessionEvent π × State
  getEvents : State → String → Option String → Option ℕ → List (SessionEvent π)
  latestSeq : State → String → Option String → ℕ
  prune : Prune → State → State
  events : State → List (SessionEvent π)
  next : State → String → ℕ
  seq_append : ∀ request s, (append request s).1.seq = next s request.sessionId
  sessionId_append : ∀ request s, (append request s).1.sessionId = request.sessionId
  next_append : ∀ request s sessionId, next (append request s).2 sessionId =
    if sessionId = request.sessionId then next s sessionId + 1 else next s sessionId
  mem_append : ∀ request s event, event ∈ events (append request s).2 ↔
    event ∈ events s ∨ event = (append request s).1
  mem_getEvents : ∀ s sessionId orgId sinceSeq event, event ∈ getEvents s sessionId orgId sinceSeq ↔
    event ∈ events s ∧ event.sessionId = sessionId ∧ selected orgId sinceSeq event = true
  latestSeq_lt : ∀ s sessionId orgId, latestSeq s sessionId orgId < next s sessionId
  seq_lt : ∀ s, ∀ event ∈ events s, event.seq < next s event.sessionId
  mem_prune : ∀ prune' s event, event ∈ events (prune prune' s) ↔ event ∈ events s ∧ prune'.removes event = false

namespace EventLog

/-- What a client saw of a call. -/
inductive Act (π : Type) where
  | appended (event : SessionEvent π)
  | got (sessionId : String) (events : List (SessionEvent π))
  | latest (sessionId : String) (seq : ℕ)
  | pruned (prune : Prune)

namespace Act

def appends : Act π → List (SessionEvent π)
  | appended event => [event]
  | _ => []

/-- The numbers of sessions that the call gave to a client. -/
def gives : Act π → List (String × ℕ)
  | appended event => [(event.sessionId, event.seq)]
  | got sessionId events => events.map fun event => (sessionId, event.seq)
  | latest sessionId seq => [(sessionId, seq)]
  | pruned _ => []

end Act

variable (L : EventLog π)

inductive Step : L.State → Act π → L.State → Prop
  | append (request : Append π) (s : L.State) : Step s (.appended (L.append request s).1) (L.append request s).2
  | get (s : L.State) (sessionId : String) (orgId : Option String) (sinceSeq : Option ℕ) :
      Step s (.got sessionId (L.getEvents s sessionId orgId sinceSeq)) s
  | latest (s : L.State) (sessionId : String) (orgId : Option String) :
      Step s (.latest sessionId (L.latestSeq s sessionId orgId)) s
  | prune (prune : Prune) (s : L.State) : Step s (.pruned prune) (L.prune prune s)

variable {L} {s t : L.State} {act : Act π}

/-- No prune lowers the next number of a session. -/
def Keeps (s : L.State) : Act π → Prop
  | .pruned prune => ∀ sessionId, L.next s sessionId ≤ L.next (L.prune prune s) sessionId
  | _ => True

theorem next_mono (h : Guarded L.Step Keeps s act t) (sessionId : String) : L.next s sessionId ≤ L.next t sessionId := by
  obtain ⟨h, hkeeps⟩ := h
  cases h with
  | append request s =>
    rw [L.next_append]
    split <;> omega
  | get s sessionId' orgId sinceSeq => exact Nat.le_refl _
  | latest s sessionId' orgId => exact Nat.le_refl _
  | prune prune s => exact hkeeps sessionId

theorem gives_lt (h : Guarded L.Step Keeps s act t) : ∀ given ∈ act.gives, given.2 < L.next t given.1 := by
  intro given hgiven
  cases h.1 with
  | append request s =>
    cases List.mem_singleton.1 hgiven
    show (L.append request s).1.seq < L.next (L.append request s).2 (L.append request s).1.sessionId
    rw [L.seq_append, L.sessionId_append, L.next_append, if_pos rfl]
    omega
  | get s sessionId orgId sinceSeq =>
    obtain ⟨event, hevent, rfl⟩ := List.mem_map.1 hgiven
    obtain ⟨hmem, hsession, -⟩ := (L.mem_getEvents s sessionId orgId sinceSeq event).1 hevent
    have hlt := L.seq_lt s event hmem
    rw [hsession] at hlt
    exact hlt
  | latest s sessionId orgId =>
    cases List.mem_singleton.1 hgiven
    exact L.latestSeq_lt s sessionId orgId
  | prune prune s => cases hgiven

/-- The numbers of a session are given in order. -/
theorem fresh_of_run {acts : List (Act π)} (h : Run (Guarded L.Step Keeps) s acts t) :
    (acts.flatMap Act.appends).Pairwise fun event event' =>
      event.sessionId = event'.sessionId → event.seq < event'.seq := by
  refine h.pairwise_outputs (B := fun event s => event.seq < L.next s event.sessionId)
    (fun event s act t hlt hs => Nat.lt_of_lt_of_le hlt (next_mono hs _)) (fun s act t hs event hevent => ?_)
    (fun event s act t hlt hs event' hevent' hsession => ?_) fun s act t hs => ?_
  · have hgiven : (event.sessionId, event.seq) ∈ act.gives := by
      cases act with
      | appended event' =>
        cases List.mem_singleton.1 hevent
        exact List.mem_singleton.2 rfl
      | got sessionId events => cases hevent
      | latest sessionId seq => cases hevent
      | pruned prune => cases hevent
    exact gives_lt hs _ hgiven
  · cases hs.1 with
    | append request s =>
      cases List.mem_singleton.1 hevent'
      rw [L.sessionId_append] at hsession
      rw [L.seq_append, ← hsession]
      exact hlt
    | get s sessionId orgId sinceSeq => cases hevent'
    | latest s sessionId orgId => cases hevent'
    | prune prune s => cases hevent'
  · cases act with
    | appended event => exact List.pairwise_singleton _ _
    | got sessionId events => exact List.Pairwise.nil
    | latest sessionId seq => exact List.Pairwise.nil
    | pruned prune => exact List.Pairwise.nil

/-- An event stays until a prune removes it. -/
theorem mem_events_of_run {acts : List (Act π)} (h : Run L.Step s acts t) {event : SessionEvent π}
    (hkept : ∀ prune, .pruned prune ∈ acts → prune.removes event = false) (hmem : event ∈ L.events s) :
    event ∈ L.events t := by
  have hguarded := h.guard (P := fun act => ∀ prune, act = .pruned prune → prune.removes event = false)
    fun act hact prune heq => hkept prune (heq ▸ hact)
  refine hguarded.invariant (I := fun s => event ∈ L.events s) (fun s act t hmem hs => ?_) hmem
  cases hs.1 with
  | append request s => exact (L.mem_append request s event).2 (.inl hmem)
  | get s sessionId orgId sinceSeq => exact hmem
  | latest s sessionId orgId => exact hmem
  | prune prune s => exact (L.mem_prune prune s event).2 ⟨hmem, hs.2 prune rfl⟩

/-- Whoever reads from a number it was given on gets every later event that was not pruned. -/
theorem mem_getEvents_of_run {before after : List (Act π)} {event : SessionEvent π} {c : ℕ}
    (h : Run (Guarded L.Step Keeps) s (before ++ .appended event :: after) t)
    (hgiven : (event.sessionId, c) ∈ before.flatMap Act.gives)
    (hkept : ∀ prune, .pruned prune ∈ after → prune.removes event = false) :
    event ∈ L.getEvents t event.sessionId none (some c) := by
  obtain ⟨s₁, hbefore, hrest⟩ := h.of_append
  have hlt : c < L.next s₁ event.sessionId :=
    hbefore.outputs_kept (B := fun given s => given.2 < L.next s given.1) (fun _ _ _ hs => gives_lt hs)
      (fun given _ _ _ hlt hs => Nat.lt_of_lt_of_le hlt (next_mono hs _)) _ hgiven
  cases hrest with
  | cons hs hafter =>
    cases hs.1 with
    | append request =>
      have hmem := mem_events_of_run (hafter.mono fun _ _ _ hs => hs.1) hkept
        ((L.mem_append request s₁ _).2 (.inr rfl))
      refine (L.mem_getEvents t _ none (some c) _).2 ⟨hmem, rfl, ?_⟩
      rw [L.sessionId_append] at hlt
      simp only [selected, Option.all_none, Option.all_some, Bool.true_and, decide_eq_true_eq]
      rw [L.seq_append]
      exact hlt

end EventLog

end Wiii.Service
