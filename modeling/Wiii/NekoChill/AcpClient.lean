import Wiii.Lib.Run
import Wiii.NekoChill.JsValue

/-!
# The requests of the ACP client

A request waits in `pending` for a response with its id, its timer, the failure of its send, the exit of the agent, or
the disposal of the client, each a turn of the event loop of its own.  Every request is settled by the first of them that
comes after it (`settled_by_first`); one that is made after the exit has none behind it that has to come.
-/

namespace Wiii.NekoChill

/-! ## Frames -/

namespace JsValue

/-- `Boolean(value)` -/
def truthy : JsValue → Bool
  | undefined | null => false
  | bool b => b
  | number n => decide (n ≠ 0)
  | string text => !text.isEmpty
  | fraction | array _ | object _ => true

def isNullish (value : JsValue) : Bool := value.isUndefined || value.isNull

end JsValue

/-- What a response says; an error that is no object is a fault of the protocol. -/
inductive ResponseBody where
  | result (value : JsValue)
  | error (value : JsValue)
  | badError

/-- A line as `handleLine` takes it. -/
inductive Frame where
  | blank
  | malformed
  | agentRequest (id : JsValue) (method params : JsValue)
  | notification (method params : JsValue)
  | response (id : ℤ) (body : ResponseBody)
  | badId
  | neither

def responseBody (frame : JsValue) : ResponseBody :=
  match frame.own "error" with
  | .undefined => .result (frame.own "result")
  | .object fields => .error (.object fields)
  | _ => .badError

/-- The frame of a line; `parse` is `JSON.parse`, and nothing where it throws. -/
def readFrame (parse : JsText → Option JsValue) (line : JsText) : Frame :=
  match trimText line with
  | [] => .blank
  | trimmed =>
    match parse trimmed with
    | some (.object fields) =>
      let frame := JsValue.object fields
      let id := frame.own "id"
      let method := frame.own "method"
      if !id.isNullish && method.truthy then .agentRequest id method (frame.own "params")
      else if method.truthy then .notification method (frame.own "params")
      else if id.isNullish then .neither
      else
        match id with
        | .number n => .response n (responseBody frame)
        | _ => .badId
    | _ => .malformed

/-! ## The client -/

inductive TransportFault where
  | timeout
  | send
  | exit
  | disposed
deriving DecidableEq

/-- `AcpRpcError`, `AcpProtocolError` or `AcpTransportError`, with what they name. -/
inductive RequestOutcome where
  | resolved (result : JsValue)
  | rpcError (id : ℕ) (method : JsText) (error : JsValue)
  | protocolError (id : ℕ) (method : JsText)
  | transportError (reason : TransportFault) (method : JsText) (id : ℕ)

def ResponseBody.outcome (id : ℕ) (method : JsText) : ResponseBody → RequestOutcome
  | result value => .resolved value
  | error value => .rpcError id method value
  | badError => .protocolError id method

/-- `timed` if there is a timer to clear. -/
structure PendingRequest where
  id : ℕ
  method : JsText
  timed : Bool
deriving DecidableEq

inductive HandlerCall where
  | agentRequest (id method params : JsValue)
  | notification (method params : JsValue)
  | protocolError (message : String)

/-- With the closures that the event loop holds, and the promises that are settled. -/
structure AcpJsonRpcClient where
  nextId : ℕ := 1
  pending : List PendingRequest := []
  disposed : Bool := false
  timers : List (ℕ × JsText) := []
  sending : List (ℕ × JsText) := []
  settled : List (ℕ × RequestOutcome) := []

inductive ClientEvent where
  | request (method : JsText) (timed : Bool)
  | line (text : JsText)
  | timerFires (id : ℕ) (method : JsText)
  | sent (id : ℕ) (method : JsText)
  | sendFails (id : ℕ) (method : JsText)
  | exit
  | dispose

namespace AcpJsonRpcClient

def outcome (client : AcpJsonRpcClient) (id : ℕ) : Option RequestOutcome := client.settled.lookup id

/-- A call of `resolve` or `reject`. -/
def settle (id : ℕ) (outcome : RequestOutcome) (client : AcpJsonRpcClient) : AcpJsonRpcClient :=
  if (client.outcome id).isSome then client else { client with settled := (id, outcome) :: client.settled }

def entry? (client : AcpJsonRpcClient) (id : ℤ) : Option PendingRequest :=
  client.pending.find? fun entry => decide ((entry.id : ℤ) = id)

def deleteEntry (id : ℕ) (client : AcpJsonRpcClient) : AcpJsonRpcClient :=
  { client with pending := client.pending.filter fun entry => decide (entry.id ≠ id) }

def clearTimeout (id : ℕ) (client : AcpJsonRpcClient) : AcpJsonRpcClient :=
  { client with timers := client.timers.filter fun timer => decide (timer.1 ≠ id) }

def clearTimer (entry : PendingRequest) (client : AcpJsonRpcClient) : AcpJsonRpcClient :=
  if entry.timed then client.clearTimeout entry.id else client

/-- A client that is disposed gives back a promise that is rejected, and takes no id. -/
def request (method : JsText) (timed : Bool) (client : AcpJsonRpcClient) : AcpJsonRpcClient :=
  if client.disposed then client
  else
    { client with
      nextId := client.nextId + 1
      timers := if timed then client.timers ++ [(client.nextId, method)] else client.timers
      pending := client.pending ++ [⟨client.nextId, method, timed⟩]
      sending := client.sending ++ [(client.nextId, method)] }

def onTimeout (id : ℕ) (method : JsText) (client : AcpJsonRpcClient) : AcpJsonRpcClient :=
  let fired := client.clearTimeout id
  if (fired.entry? id).isSome then (fired.deleteEntry id).settle id (.transportError .timeout method id) else fired

def sendDone (id : ℕ) (client : AcpJsonRpcClient) : AcpJsonRpcClient :=
  { client with sending := client.sending.filter fun send => decide (send.1 ≠ id) }

def onSendError (id : ℕ) (method : JsText) (client : AcpJsonRpcClient) : AcpJsonRpcClient :=
  let cleared := match client.entry? id with
    | some entry => client.clearTimer entry
    | none => client
  ((cleared.sendDone id).deleteEntry id).settle id (.transportError .send method id)

def failEntry (reason : TransportFault) (client : AcpJsonRpcClient) (entry : PendingRequest) : AcpJsonRpcClient :=
  (client.clearTimer entry).settle entry.id (.transportError reason entry.method entry.id)

def failAllPending (reason : TransportFault) (client : AcpJsonRpcClient) : AcpJsonRpcClient :=
  { client.pending.foldl (failEntry reason) client with pending := [] }

def handleLine (parse : JsText → Option JsValue) (line : JsText) (client : AcpJsonRpcClient) :
    AcpJsonRpcClient × Option HandlerCall :=
  match readFrame parse line with
  | .blank => (client, none)
  | .malformed => (client, some (.protocolError "malformed JSON-RPC frame"))
  | .agentRequest id method params => (client, some (.agentRequest id method params))
  | .notification method params => (client, some (.notification method params))
  | .response id body =>
    match client.entry? id with
    | none => (client, some (.protocolError "response for unknown request id"))
    | some entry =>
      (((client.deleteEntry entry.id).clearTimer entry).settle entry.id (body.outcome entry.id entry.method), none)
  | .badId => (client, some (.protocolError "response for unknown request id"))
  | .neither => (client, some (.protocolError "frame with neither id nor method"))

def dispose (client : AcpJsonRpcClient) : AcpJsonRpcClient :=
  { client with disposed := true }.failAllPending .disposed

def Enabled (client : AcpJsonRpcClient) : ClientEvent → Prop
  | .timerFires id method => (id, method) ∈ client.timers
  | .sent id method | .sendFails id method => (id, method) ∈ client.sending
  | _ => True

def after (parse : JsText → Option JsValue) (client : AcpJsonRpcClient) : ClientEvent → AcpJsonRpcClient
  | .request method timed => client.request method timed
  | .line text => (client.handleLine parse text).1
  | .timerFires id method => client.onTimeout id method
  | .sent id _ => client.sendDone id
  | .sendFails id method => client.onSendError id method
  | .exit => client.failAllPending .exit
  | .dispose => client.dispose

def Step (parse : JsText → Option JsValue) (client : AcpJsonRpcClient) (event : ClientEvent) (next : AcpJsonRpcClient) :
    Prop :=
  client.Enabled event ∧ next = client.after parse event

/-! ## One request -/

/-- How a request with this id and method ends with this turn. -/
def outcomeOf (parse : JsText → Option JsValue) (id : ℕ) (method : JsText) : ClientEvent → Option RequestOutcome
  | .line text =>
    match readFrame parse text with
    | .response n body => if n = id then some (body.outcome id method) else none
    | _ => none
  | .timerFires i _ => if i = id then some (.transportError .timeout method id) else none
  | .sendFails i _ => if i = id then some (.transportError .send method id) else none
  | .exit => some (.transportError .exit method id)
  | .dispose => some (.transportError .disposed method id)
  | .request _ _ | .sent _ _ => none

/-- The request is in the state `o` says, and waits if and only if it is not settled. -/
structure Tracks (id : ℕ) (method : JsText) (timed : Bool) (o : Option RequestOutcome) (client : AcpJsonRpcClient) : Prop where
  lt : id < client.nextId
  timers : ∀ m, (id, m) ∈ client.timers → m = method
  sending : ∀ m, (id, m) ∈ client.sending → m = method
  outcome : client.outcome id = o
  waits : o = none → ⟨id, method, timed⟩ ∈ client.pending
  only : ∀ entry ∈ client.pending, entry.id = id → o = none ∧ entry = ⟨id, method, timed⟩

section

variable {parse : JsText → Option JsValue} {client next : AcpJsonRpcClient} {id i : ℕ} {method : JsText} {timed : Bool}
  {o : Option RequestOutcome} {out : RequestOutcome} {entry : PendingRequest} {reason : TransportFault}

theorem outcome_settle : (client.settle i out).outcome id =
    if id = i then some ((client.outcome id).getD out) else client.outcome id := by
  unfold settle
  split
  · rename_i hsome
    split
    · rename_i heq
      subst heq
      obtain ⟨old, hold⟩ := Option.isSome_iff_exists.1 hsome
      rw [hold]
      rfl
    · rfl
  · rename_i hnone
    rw [Option.not_isSome_iff_eq_none] at hnone
    by_cases heq : id = i
    · subst heq
      rw [if_pos rfl, hnone]
      exact List.lookup_cons_self
    · rw [if_neg heq, outcome, List.lookup_cons, beq_eq_false_iff_ne.2 heq]
      rfl

@[simp] theorem pending_settle : (client.settle i out).pending = client.pending := by
  unfold settle
  split <;> rfl

@[simp] theorem timers_settle : (client.settle i out).timers = client.timers := by
  unfold settle
  split <;> rfl

@[simp] theorem sending_settle : (client.settle i out).sending = client.sending := by
  unfold settle
  split <;> rfl

@[simp] theorem nextId_settle : (client.settle i out).nextId = client.nextId := by
  unfold settle
  split <;> rfl

@[simp] theorem pending_clearTimer : (client.clearTimer entry).pending = client.pending := by
  unfold clearTimer
  split <;> rfl

@[simp] theorem sending_clearTimer : (client.clearTimer entry).sending = client.sending := by
  unfold clearTimer
  split <;> rfl

@[simp] theorem nextId_clearTimer : (client.clearTimer entry).nextId = client.nextId := by
  unfold clearTimer
  split <;> rfl

@[simp] theorem outcome_clearTimer : (client.clearTimer entry).outcome id = client.outcome id := by
  unfold clearTimer
  split <;> rfl

theorem timers_clearTimeout : (client.clearTimeout i).timers ⊆ client.timers := List.filter_sublist.subset

theorem timers_clearTimer : (client.clearTimer entry).timers ⊆ client.timers := by
  unfold clearTimer
  split
  · exact timers_clearTimeout
  · exact List.Subset.refl _

theorem Tracks.frame (h : Tracks id method timed o client) (hnext : client.nextId ≤ next.nextId)
    (htimers : ∀ m, (id, m) ∈ next.timers → (id, m) ∈ client.timers)
    (hsending : ∀ m, (id, m) ∈ next.sending → (id, m) ∈ client.sending)
    (hpending : ∀ entry, entry.id = id → (entry ∈ next.pending ↔ entry ∈ client.pending))
    (houtcome : next.outcome id = client.outcome id) : Tracks id method timed o next where
  lt := Nat.lt_of_lt_of_le h.lt hnext
  timers m hm := h.timers m (htimers m hm)
  sending m hm := h.sending m (hsending m hm)
  outcome := houtcome.trans h.outcome
  waits ho := (hpending _ rfl).2 (h.waits ho)
  only entry hentry heq := h.only entry ((hpending entry heq).1 hentry) heq

theorem Tracks.close (h : Tracks id method timed o client) (hnext : client.nextId ≤ next.nextId)
    (htimers : ∀ m, (id, m) ∈ next.timers → (id, m) ∈ client.timers)
    (hsending : ∀ m, (id, m) ∈ next.sending → (id, m) ∈ client.sending)
    (hpending : ∀ entry ∈ next.pending, entry.id ≠ id) (houtcome : next.outcome id = some (o.getD out)) :
    Tracks id method timed (o.or (some out)) next where
  lt := Nat.lt_of_lt_of_le h.lt hnext
  timers m hm := h.timers m (htimers m hm)
  sending m hm := h.sending m (hsending m hm)
  outcome := by
    rw [houtcome]
    cases o <;> rfl
  waits ho := by cases o <;> cases ho
  only entry hentry heq := absurd heq (hpending entry hentry)

theorem Tracks.entry? (h : Tracks id method timed none client) : client.entry? id = some ⟨id, method, timed⟩ := by
  cases hentry : client.entry? id with
  | none =>
    have hnot := List.find?_eq_none.1 hentry _ (h.waits rfl)
    simp at hnot
  | some entry =>
    have heq : entry.id = id := by
      have hfound := List.find?_some (p := fun entry : PendingRequest => decide ((entry.id : ℤ) = id)) hentry
      exact Int.natCast_inj.1 (of_decide_eq_true hfound)
    rw [(h.only entry (List.mem_of_find?_eq_some hentry) heq).2]

theorem Tracks.entry?_eq_none (h : Tracks id method timed (some out) client) : client.entry? id = none := by
  refine List.find?_eq_none.2 fun entry hentry heq => ?_
  have heq : entry.id = id := Int.natCast_inj.1 (of_decide_eq_true heq)
  cases (h.only entry hentry heq).1

theorem Tracks.request (h : Tracks id method timed o client) (method' : JsText) (timed' : Bool) :
    Tracks id method timed o (client.request method' timed') := by
  unfold AcpJsonRpcClient.request
  split
  · exact h
  · have hne : id ≠ client.nextId := Nat.ne_of_lt h.lt
    refine h.frame (Nat.le_succ _) ?_ ?_ ?_ rfl
    · intro m hm
      dsimp only at hm
      split at hm
      · rcases List.mem_append.1 hm with hm | hm
        · exact hm
        · exact absurd (congrArg Prod.fst (List.mem_singleton.1 hm)) hne
      · exact hm
    · intro m hm
      rcases List.mem_append.1 hm with hm | hm
      · exact hm
      · exact absurd (congrArg Prod.fst (List.mem_singleton.1 hm)) hne
    · intro entry heq
      refine ⟨fun hentry => ?_, List.mem_append_left _⟩
      rcases List.mem_append.1 hentry with hentry | hentry
      · exact hentry
      · rw [List.mem_singleton] at hentry
        rw [hentry] at heq
        exact absurd heq.symm hne

theorem Tracks.sendDone (h : Tracks id method timed o client) (i : ℕ) : Tracks id method timed o (client.sendDone i) :=
  h.frame (Nat.le_refl _) (fun _ hm => hm) (fun _ hm => (List.mem_filter.1 hm).1) (fun _ _ => Iff.rfl) rfl

theorem Tracks.clearTimeout (h : Tracks id method timed o client) (i : ℕ) :
    Tracks id method timed o (client.clearTimeout i) :=
  h.frame (Nat.le_refl _) (fun _ hm => timers_clearTimeout hm) (fun _ hm => hm) (fun _ _ => Iff.rfl) rfl

theorem Tracks.clearTimer (h : Tracks id method timed o client) (entry : PendingRequest) :
    Tracks id method timed o (client.clearTimer entry) := by
  unfold AcpJsonRpcClient.clearTimer
  split
  · exact h.clearTimeout entry.id
  · exact h

theorem clearTimer_deleteEntry : (client.deleteEntry i).clearTimer entry = (client.clearTimer entry).deleteEntry i := by
  unfold AcpJsonRpcClient.clearTimer
  split <;> rfl

theorem Tracks.finish (h : Tracks id method timed o client) (i : ℕ) (out : RequestOutcome) :
    Tracks id method timed (o.or (if i = id then some out else none)) ((client.deleteEntry i).settle i out) := by
  have hnext : client.nextId ≤ ((client.deleteEntry i).settle i out).nextId := by
    rw [nextId_settle]
    exact Nat.le_refl _
  have htimers : ∀ m, (id, m) ∈ ((client.deleteEntry i).settle i out).timers → (id, m) ∈ client.timers := by
    intro m hm
    rwa [timers_settle] at hm
  have hsending : ∀ m, (id, m) ∈ ((client.deleteEntry i).settle i out).sending → (id, m) ∈ client.sending := by
    intro m hm
    rwa [sending_settle] at hm
  by_cases heq : i = id
  · subst heq
    rw [if_pos rfl]
    refine h.close hnext htimers hsending ?_ ?_
    · intro entry hentry
      rw [pending_settle] at hentry
      exact of_decide_eq_true (List.mem_filter.1 hentry).2
    · rw [outcome_settle, if_pos rfl, ← h.outcome]
      rfl
  · rw [if_neg heq, Option.or_none]
    refine h.frame hnext htimers hsending ?_ ?_
    · intro entry hid
      rw [pending_settle, deleteEntry, List.mem_filter, hid]
      exact ⟨And.left, fun hentry => ⟨hentry, decide_eq_true fun h => heq h.symm⟩⟩
    · rw [outcome_settle, if_neg fun h => heq h.symm]
      rfl

theorem outcome_failEntry (hsome : client.outcome id = some out) :
    (failEntry reason client entry).outcome id = some out := by
  rw [failEntry, outcome_settle, outcome_clearTimer, hsome]
  split <;> rfl

theorem frame_failEntries (entries : List PendingRequest) (client : AcpJsonRpcClient) :
    (entries.foldl (failEntry reason) client).nextId = client.nextId ∧
      (entries.foldl (failEntry reason) client).sending = client.sending ∧
      (entries.foldl (failEntry reason) client).timers ⊆ client.timers := by
  induction entries generalizing client with
  | nil => exact ⟨rfl, rfl, List.Subset.refl _⟩
  | cons entry entries ih =>
    obtain ⟨hnext, hsending, htimers⟩ := ih (failEntry reason client entry)
    refine ⟨?_, ?_, ?_⟩
    · rw [List.foldl_cons, hnext, failEntry, nextId_settle, nextId_clearTimer]
    · rw [List.foldl_cons, hsending, failEntry, sending_settle, sending_clearTimer]
    · refine List.Subset.trans htimers ?_
      rw [failEntry, timers_settle]
      exact timers_clearTimer

theorem kept_failEntries (entries : List PendingRequest) (hsome : client.outcome id = some out) :
    (entries.foldl (failEntry reason) client).outcome id = some out := by
  induction entries generalizing client with
  | nil => exact hsome
  | cons entry entries ih => exact ih (outcome_failEntry hsome)

theorem failed_failEntries {entries : List PendingRequest} (hnone : client.outcome id = none)
    (hmem : ⟨id, method, timed⟩ ∈ entries) (honly : ∀ entry ∈ entries, entry.id = id → entry = ⟨id, method, timed⟩) :
    (entries.foldl (failEntry reason) client).outcome id = some (.transportError reason method id) := by
  induction entries generalizing client with
  | nil => cases hmem
  | cons entry entries ih =>
    rw [List.forall_mem_cons] at honly
    by_cases heq : entry.id = id
    · refine kept_failEntries entries ?_
      rw [honly.1 heq, failEntry, outcome_settle, if_pos rfl, outcome_clearTimer, hnone]
      rfl
    · have hmem := (List.mem_cons.1 hmem).resolve_left fun h => heq (congrArg PendingRequest.id h).symm
      refine ih ?_ hmem honly.2
      rw [failEntry, outcome_settle, if_neg fun h => heq h.symm, outcome_clearTimer, hnone]

theorem Tracks.failAllPending (h : Tracks id method timed o client) (reason : TransportFault) :
    Tracks id method timed (o.or (some (.transportError reason method id))) (client.failAllPending reason) := by
  obtain ⟨hnext, hsending, htimers⟩ := @frame_failEntries reason client.pending client
  refine h.close (Nat.le_of_eq hnext.symm) (fun _ hm => htimers hm) (fun _ hm => ?_) (fun _ hentry => nomatch hentry) ?_
  · change _ ∈ (client.pending.foldl (failEntry reason) client).sending at hm
    rwa [hsending] at hm
  · change (client.pending.foldl (failEntry reason) client).outcome id = _
    cases o with
    | none => exact failed_failEntries h.outcome (h.waits rfl) fun entry hentry heq => (h.only entry hentry heq).2
    | some out => exact kept_failEntries _ h.outcome

theorem Tracks.handleLine (h : Tracks id method timed o client) (text : JsText) :
    Tracks id method timed (o.or (outcomeOf parse id method (.line text))) (client.handleLine parse text).1 := by
  have houtcome : outcomeOf parse id method (.line text) =
      match readFrame parse text with
      | .response n body => if n = id then some (body.outcome id method) else none
      | _ => none := rfl
  rw [houtcome]
  unfold AcpJsonRpcClient.handleLine
  cases hframe : readFrame parse text with
  | response n body =>
    dsimp only
    cases hentry : client.entry? n with
    | none =>
      -- an id that nothing waits for: unknown, or answered before
      have hkept : o.or (if n = id then some (body.outcome id method) else none) = o := by
        split
        · rename_i heq
          cases o with
          | none =>
            rw [heq, h.entry?] at hentry
            cases hentry
          | some _ => rfl
        · exact Option.or_none
      rw [hkept]
      exact h
    | some entry =>
      have hid : (entry.id : ℤ) = n := by
        exact of_decide_eq_true (List.find?_some (p := fun entry : PendingRequest => decide ((entry.id : ℤ) = n)) hentry)
      have hfinish := (h.clearTimer entry).finish entry.id (body.outcome entry.id entry.method)
      dsimp only
      rw [clearTimer_deleteEntry, ← hid]
      by_cases heq : entry.id = id
      · have hours := (h.only entry (List.mem_of_find?_eq_some hentry) heq).2
        rw [if_pos (congrArg Nat.cast heq)]
        rw [if_pos heq, hours] at hfinish
        rw [hours]
        exact hfinish
      · rw [if_neg fun h => heq (Int.natCast_inj.1 h)]
        rw [if_neg heq] at hfinish
        exact hfinish
  | _ =>
    rw [Option.or_none]
    exact h

theorem Tracks.onTimeout (h : Tracks id method timed o client) {m : JsText} (hfires : (i, m) ∈ client.timers) :
    Tracks id method timed (o.or (outcomeOf parse id method (.timerFires i m))) (client.onTimeout i m) := by
  have hfired := h.clearTimeout i
  unfold AcpJsonRpcClient.onTimeout outcomeOf
  dsimp only
  by_cases heq : i = id
  · subst heq
    rw [if_pos rfl, h.timers m hfires]
    cases o with
    | none =>
      have hentry := hfired.entry?
      rw [hentry, if_pos (Option.isSome_some)]
      have hfinish := hfired.finish i (.transportError .timeout method i)
      rwa [if_pos rfl] at hfinish
    | some out =>
      rw [hfired.entry?_eq_none, if_neg (by decide)]
      exact hfired
  · rw [if_neg heq, Option.or_none]
    split
    · have hfinish := hfired.finish i (.transportError .timeout m i)
      rwa [if_neg heq, Option.or_none] at hfinish
    · exact hfired

theorem Tracks.onSendError (h : Tracks id method timed o client) {m : JsText} (hfails : (i, m) ∈ client.sending) :
    Tracks id method timed (o.or (outcomeOf parse id method (.sendFails i m))) (client.onSendError i m) := by
  unfold AcpJsonRpcClient.onSendError outcomeOf
  dsimp only
  have hcleared : Tracks id method timed o
      (match client.entry? i with | some entry => client.clearTimer entry | none => client) := by
    split
    · exact h.clearTimer _
    · exact h
  have hfinish := (hcleared.sendDone i).finish i (.transportError .send m i)
  by_cases heq : i = id
  · subst heq
    rw [h.sending m hfails] at hfinish ⊢
    exact hfinish
  · rw [if_neg heq] at hfinish ⊢
    exact hfinish

theorem Tracks.step (h : Tracks id method timed o client) {event : ClientEvent} (hstep : Step parse client event next) :
    Tracks id method timed (o.or (outcomeOf parse id method event)) next := by
  obtain ⟨henabled, rfl⟩ := hstep
  cases event with
  | request method' timed' =>
    rw [outcomeOf, Option.or_none]
    exact h.request method' timed'
  | line text => exact h.handleLine text
  | timerFires i m => exact h.onTimeout henabled
  | sent i m =>
    rw [outcomeOf, Option.or_none]
    exact h.sendDone i
  | sendFails i m => exact h.onSendError henabled
  | exit => exact h.failAllPending .exit
  | dispose =>
    have hdisposed : Tracks id method timed o { client with disposed := true } := ⟨h.1, h.2, h.3, h.4, h.5, h.6⟩
    exact hdisposed.failAllPending .disposed

theorem Tracks.run (h : Tracks id method timed o client) {events : List ClientEvent}
    (hrun : Run (Step parse) client events next) :
    Tracks id method timed (o.or (events.findSome? (outcomeOf parse id method))) next := by
  induction hrun generalizing o with
  | nil client => rwa [List.findSome?_nil, Option.or_none]
  | @cons client turned last event events hstep _ ih =>
    have hlast := ih (h.step hstep)
    rw [Option.or_assoc] at hlast
    rw [List.findSome?_cons]
    cases hevent : outcomeOf parse id method event with
    | none => rwa [hevent, Option.none_or] at hlast
    | some out => rwa [hevent] at hlast

/-! ## The ids that were used -/

def ids (client : AcpJsonRpcClient) : List ℕ :=
  client.pending.map PendingRequest.id ++ client.timers.map Prod.fst ++ client.sending.map Prod.fst ++
    client.settled.map Prod.fst

def Used (client : AcpJsonRpcClient) : Prop := ∀ i ∈ client.ids, i < client.nextId

theorem mem_ids : i ∈ client.ids ↔ (∃ entry ∈ client.pending, entry.id = i) ∨ (∃ m, (i, m) ∈ client.timers) ∨
    (∃ m, (i, m) ∈ client.sending) ∨ ∃ out, (i, out) ∈ client.settled := by
  simp [ids]

theorem ids_subset (hpending : next.pending ⊆ client.pending) (htimers : next.timers ⊆ client.timers)
    (hsending : next.sending ⊆ client.sending) (hsettled : ∀ settled ∈ next.settled, settled.1 ∈ client.ids) :
    next.ids ⊆ client.ids := by
  intro i hi
  rcases mem_ids.1 hi with ⟨entry, hentry, rfl⟩ | ⟨m, hm⟩ | ⟨m, hm⟩ | ⟨out, hout⟩
  · exact mem_ids.2 (.inl ⟨entry, hpending hentry, rfl⟩)
  · exact mem_ids.2 (.inr (.inl ⟨m, htimers hm⟩))
  · exact mem_ids.2 (.inr (.inr (.inl ⟨m, hsending hm⟩)))
  · exact hsettled _ hout

theorem settled_mem_ids {settled : ℕ × RequestOutcome} (h : settled ∈ client.settled) : settled.1 ∈ client.ids :=
  mem_ids.2 (.inr (.inr (.inr ⟨settled.2, h⟩)))

theorem ids_settle (h : next.ids ⊆ client.ids) (hi : i ∈ client.ids) : (next.settle i out).ids ⊆ client.ids := by
  unfold settle
  split
  · exact h
  · intro j hj
    rcases mem_ids.1 hj with hentry | hm | hm | ⟨out', hout⟩
    · exact h (mem_ids.2 (.inl hentry))
    · exact h (mem_ids.2 (.inr (.inl hm)))
    · exact h (mem_ids.2 (.inr (.inr (.inl hm))))
    · rcases List.mem_cons.1 hout with heq | hout
      · cases heq
        exact hi
      · exact h (settled_mem_ids hout)

theorem ids_clearTimeout : (client.clearTimeout i).ids ⊆ client.ids :=
  ids_subset (List.Subset.refl _) timers_clearTimeout (List.Subset.refl _) fun _ h => settled_mem_ids h

theorem ids_clearTimer : (client.clearTimer entry).ids ⊆ client.ids := by
  unfold clearTimer
  split
  · exact ids_clearTimeout
  · exact List.Subset.refl _

theorem ids_deleteEntry : (client.deleteEntry i).ids ⊆ client.ids :=
  ids_subset List.filter_sublist.subset (List.Subset.refl _) (List.Subset.refl _) fun _ h => settled_mem_ids h

theorem ids_sendDone : (client.sendDone i).ids ⊆ client.ids :=
  ids_subset (List.Subset.refl _) (List.Subset.refl _) List.filter_sublist.subset fun _ h => settled_mem_ids h

theorem ids_failEntries {entries : List PendingRequest} (h : next.ids ⊆ client.ids)
    (hentries : entries ⊆ client.pending) : (entries.foldl (failEntry reason) next).ids ⊆ client.ids := by
  induction entries generalizing next with
  | nil => exact h
  | cons entry entries ih =>
    have hentry : entry.id ∈ client.ids := mem_ids.2 (.inl ⟨entry, hentries List.mem_cons_self, rfl⟩)
    exact ih (ids_settle (List.Subset.trans ids_clearTimer h) hentry) (List.subset_of_cons_subset hentries)

theorem ids_failAllPending : (client.failAllPending reason).ids ⊆ client.ids := by
  have hfailed : (client.pending.foldl (failEntry reason) client).ids ⊆ client.ids :=
    ids_failEntries (List.Subset.refl _) (List.Subset.refl _)
  refine List.Subset.trans ?_ hfailed
  exact ids_subset (List.nil_subset _) (List.Subset.refl _) (List.Subset.refl _) fun _ h => settled_mem_ids h

theorem ids_after {event : ClientEvent} (henabled : client.Enabled event) (h : ∀ m t, event ≠ .request m t) :
    (client.after parse event).ids ⊆ client.ids := by
  cases event with
  | request m t => exact absurd rfl (h m t)
  | line text =>
    change (client.handleLine parse text).1.ids ⊆ client.ids
    unfold AcpJsonRpcClient.handleLine
    split <;> try exact List.Subset.refl _
    split
    · exact List.Subset.refl _
    · rename_i entry hentry
      exact ids_settle (List.Subset.trans ids_clearTimer ids_deleteEntry)
        (mem_ids.2 (.inl ⟨entry, List.mem_of_find?_eq_some hentry, rfl⟩))
  | timerFires i m =>
    unfold after AcpJsonRpcClient.onTimeout
    dsimp only
    split
    · exact ids_settle (List.Subset.trans ids_deleteEntry ids_clearTimeout) (mem_ids.2 (.inr (.inl ⟨m, henabled⟩)))
    · exact ids_clearTimeout
  | sent i m => exact ids_sendDone
  | sendFails i m =>
    unfold after AcpJsonRpcClient.onSendError
    dsimp only
    refine ids_settle (List.Subset.trans ids_deleteEntry (List.Subset.trans ids_sendDone ?_))
      (mem_ids.2 (.inr (.inr (.inl ⟨m, henabled⟩))))
    split
    · exact ids_clearTimer
    · exact List.Subset.refl _
  | exit => exact ids_failAllPending
  | dispose => exact ids_failAllPending

theorem nextId_failAllPending : (client.failAllPending reason).nextId = client.nextId :=
  (frame_failEntries client.pending client).1

theorem nextId_after {event : ClientEvent} (h : ∀ m t, event ≠ .request m t) :
    (client.after parse event).nextId = client.nextId := by
  cases event with
  | request m t => exact absurd rfl (h m t)
  | line text =>
    change (client.handleLine parse text).1.nextId = client.nextId
    unfold AcpJsonRpcClient.handleLine
    split <;> try rfl
    split
    · rfl
    · rw [nextId_settle, nextId_clearTimer]
      rfl
  | timerFires i m =>
    unfold after AcpJsonRpcClient.onTimeout
    dsimp only
    split
    · exact nextId_settle
    · rfl
  | sent i m => rfl
  | sendFails i m =>
    unfold after AcpJsonRpcClient.onSendError
    dsimp only
    rw [nextId_settle]
    split
    · exact nextId_clearTimer
    · rfl
  | exit => exact nextId_failAllPending
  | dispose => exact nextId_failAllPending

theorem Used.request (h : client.Used) (m : JsText) (t : Bool) : (client.request m t).Used := by
  unfold AcpJsonRpcClient.request
  split
  · exact h
  · intro i hi
    have hold : i ∈ client.ids ∨ i = client.nextId := by
      rcases mem_ids.1 hi with ⟨entry, hentry, rfl⟩ | ⟨m', hm⟩ | ⟨m', hm⟩ | ⟨out, hout⟩
      · rcases List.mem_append.1 hentry with hentry | hentry
        · exact .inl (mem_ids.2 (.inl ⟨entry, hentry, rfl⟩))
        · exact .inr (congrArg PendingRequest.id (List.mem_singleton.1 hentry))
      · dsimp only at hm
        split at hm
        · rcases List.mem_append.1 hm with hm | hm
          · exact .inl (mem_ids.2 (.inr (.inl ⟨m', hm⟩)))
          · exact .inr (congrArg Prod.fst (List.mem_singleton.1 hm))
        · exact .inl (mem_ids.2 (.inr (.inl ⟨m', hm⟩)))
      · rcases List.mem_append.1 hm with hm | hm
        · exact .inl (mem_ids.2 (.inr (.inr (.inl ⟨m', hm⟩))))
        · exact .inr (congrArg Prod.fst (List.mem_singleton.1 hm))
      · exact .inl (mem_ids.2 (.inr (.inr (.inr ⟨out, hout⟩))))
    rcases hold with hold | rfl
    · exact Nat.lt_succ_of_lt (h i hold)
    · exact Nat.lt_succ_self _

theorem Used.step {event : ClientEvent} (h : client.Used) (hstep : Step parse client event next) : next.Used := by
  obtain ⟨henabled, rfl⟩ := hstep
  by_cases hrequest : ∃ m t, event = .request m t
  · obtain ⟨m, t, rfl⟩ := hrequest
    exact h.request m t
  · have hnot : ∀ m t, event ≠ .request m t := fun m t heq => hrequest ⟨m, t, heq⟩
    intro i hi
    rw [nextId_after hnot]
    exact h i (ids_after henabled hnot hi)

theorem used_new : ({} : AcpJsonRpcClient).Used := fun _ hi => nomatch hi

theorem Used.tracks (h : client.Used) (halive : client.disposed = false) (method : JsText) (timed : Bool) :
    Tracks client.nextId method timed none (client.request method timed) := by
  have hnew : client.nextId ∉ client.ids := fun hmem => Nat.lt_irrefl _ (h _ hmem)
  simp only [mem_ids, not_or, not_exists, not_and] at hnew
  obtain ⟨hpending, htimers, hsending, hsettled⟩ := hnew
  unfold AcpJsonRpcClient.request
  rw [if_neg (by rw [halive]; decide)]
  refine ⟨Nat.lt_succ_self _, ?_, ?_, ?_, fun _ => List.mem_append_right _ (List.mem_singleton_self _), ?_⟩
  · intro m hm
    dsimp only at hm
    split at hm
    · rcases List.mem_append.1 hm with hm | hm
      · exact absurd hm (htimers m)
      · exact congrArg Prod.snd (List.mem_singleton.1 hm)
    · exact absurd hm (htimers m)
  · intro m hm
    rcases List.mem_append.1 hm with hm | hm
    · exact absurd hm (hsending m)
    · exact congrArg Prod.snd (List.mem_singleton.1 hm)
  · cases hlookup : client.settled.lookup client.nextId with
    | none => exact hlookup
    | some out =>
      obtain ⟨before, after, hsplit, -⟩ := List.lookup_eq_some_iff.1 hlookup
      exact absurd (hsplit ▸ List.mem_append_right _ List.mem_cons_self) (hsettled out)
  · intro entry hentry heq
    rcases List.mem_append.1 hentry with hentry | hentry
    · exact absurd heq (hpending entry hentry)
    · exact ⟨rfl, List.mem_singleton.1 hentry⟩

end

/-! ## After the disposal -/

section

variable {parse : JsText → Option JsValue} {client next : AcpJsonRpcClient} {event : ClientEvent} {i : ℕ} {out : RequestOutcome}
  {entry : PendingRequest} {reason : TransportFault}

def Silent (client : AcpJsonRpcClient) : Prop := client.disposed = true → client.pending = []

@[simp] theorem disposed_settle : (client.settle i out).disposed = client.disposed := by
  unfold settle
  split <;> rfl

@[simp] theorem disposed_clearTimer : (client.clearTimer entry).disposed = client.disposed := by
  unfold clearTimer
  split <;> rfl

theorem disposed_failAllPending : (client.failAllPending reason).disposed = client.disposed := by
  change (client.pending.foldl (failEntry reason) client).disposed = client.disposed
  generalize client.pending = entries
  induction entries generalizing client with
  | nil => rfl
  | cons entry entries ih => rw [List.foldl_cons, ih, failEntry, disposed_settle, disposed_clearTimer]

theorem disposed_after : (client.after parse event).disposed = true ↔ client.disposed = true ∨ event = .dispose := by
  cases event with
  | request m t =>
    change (client.request m t).disposed = true ↔ _
    unfold AcpJsonRpcClient.request
    split <;> simp
  | line text =>
    change (client.handleLine parse text).1.disposed = true ↔ _
    unfold AcpJsonRpcClient.handleLine
    split <;> try simp
    split <;> simp [deleteEntry]
  | timerFires i m =>
    change (client.onTimeout i m).disposed = true ↔ _
    unfold AcpJsonRpcClient.onTimeout
    dsimp only
    split <;> simp [deleteEntry, clearTimeout]
  | sent i m => simp [after, sendDone]
  | sendFails i m =>
    change (client.onSendError i m).disposed = true ↔ _
    unfold AcpJsonRpcClient.onSendError
    dsimp only
    split <;> simp [deleteEntry, sendDone]
  | exit =>
    change (client.failAllPending .exit).disposed = true ↔ _
    rw [disposed_failAllPending]
    simp
  | dispose =>
    change ({ client with disposed := true }.failAllPending .disposed).disposed = true ↔ _
    rw [disposed_failAllPending]
    simp

theorem pending_after (h : ∀ m t, event ≠ .request m t) : (client.after parse event).pending ⊆ client.pending := by
  cases event with
  | request m t => exact absurd rfl (h m t)
  | line text =>
    change (client.handleLine parse text).1.pending ⊆ client.pending
    unfold AcpJsonRpcClient.handleLine
    split <;> try exact List.Subset.refl _
    split
    · exact List.Subset.refl _
    · rw [pending_settle, pending_clearTimer]
      exact List.filter_sublist.subset
  | timerFires i m =>
    change (client.onTimeout i m).pending ⊆ client.pending
    unfold AcpJsonRpcClient.onTimeout
    dsimp only
    split
    · rw [pending_settle]
      exact List.filter_sublist.subset
    · exact List.Subset.refl _
  | sent i m => exact List.Subset.refl _
  | sendFails i m =>
    change (client.onSendError i m).pending ⊆ client.pending
    unfold AcpJsonRpcClient.onSendError
    dsimp only
    rw [pending_settle]
    refine List.Subset.trans List.filter_sublist.subset ?_
    split
    · exact fun _ hentry => pending_clearTimer ▸ hentry
    · exact List.Subset.refl _
  | exit => exact List.nil_subset _
  | dispose => exact List.nil_subset _

theorem Silent.step (h : client.Silent) (hstep : Step parse client event next) : next.Silent := by
  obtain ⟨-, rfl⟩ := hstep
  intro hdisposed
  rcases disposed_after.1 hdisposed with hbefore | rfl
  · by_cases hrequest : ∃ m t, event = .request m t
    · obtain ⟨m, t, rfl⟩ := hrequest
      have hsame : client.request m t = client := if_pos hbefore
      exact (congrArg pending hsame).trans (h hbefore)
    · have hsub := @pending_after parse client event fun m t heq => hrequest ⟨m, t, heq⟩
      rw [h hbefore] at hsub
      exact List.subset_nil.1 hsub
  · rfl

theorem disposed_of_run {events : List ClientEvent} (hrun : Run (Step parse) client events next)
    (h : client.disposed = true ∨ .dispose ∈ events) : next.disposed = true := by
  induction hrun with
  | nil => exact h.resolve_right List.not_mem_nil
  | cons hstep _ ih =>
    obtain ⟨-, rfl⟩ := hstep
    refine ih ?_
    rw [disposed_after, List.mem_cons] at *
    rcases h with h | h | h
    · exact .inl (.inl h)
    · exact .inl (.inr h.symm)
    · exact .inr h

end

/-- A request is settled by the first turn behind it that concerns it; an exit or a disposal concerns all before. -/
theorem settled_by_first (parse : JsText → Option JsValue) {before events : List ClientEvent}
    {client asked last : AcpJsonRpcClient} {method : JsText} {timed : Bool} (hbefore : Run (Step parse) {} before client)
    (halive : client.disposed = false) (hask : Step parse client (.request method timed) asked)
    (hrun : Run (Step parse) asked events last) :
    last.outcome client.nextId = events.findSome? (outcomeOf parse client.nextId method) ∧
      ((∃ entry ∈ last.pending, entry.id = client.nextId) ↔ last.outcome client.nextId = none) ∧
      (.exit ∈ events ∨ .dispose ∈ events →
        (last.outcome client.nextId).isSome = true ∧ ∀ entry ∈ last.pending, entry.id ≠ client.nextId) ∧
      (.dispose ∈ events → last.pending = []) := by
  have hused := hbefore.invariant (fun _ _ _ h hstep => h.step hstep) used_new
  have hsilent : last.Silent :=
    ((hbefore.snoc hask).append hrun).invariant (fun _ _ _ h hstep => h.step hstep) fun _ => rfl
  obtain ⟨-, rfl⟩ := hask
  have hlast := (hused.tracks halive method timed).run hrun
  rw [Option.none_or] at hlast
  have hwaits : (∃ entry ∈ last.pending, entry.id = client.nextId) ↔ last.outcome client.nextId = none := by
    rw [hlast.outcome]
    constructor
    · rintro ⟨entry, hentry, heq⟩
      exact (hlast.only entry hentry heq).1
    · exact fun hnone => ⟨_, hlast.waits hnone, rfl⟩
  refine ⟨hlast.outcome, hwaits, fun hends => ?_, fun hdispose => hsilent (disposed_of_run hrun (.inr hdispose))⟩
  have hsome : (last.outcome client.nextId).isSome = true := by
    rw [hlast.outcome, List.findSome?_isSome_iff]
    exact hends.elim (fun hexit => ⟨_, hexit, rfl⟩) fun hdispose => ⟨_, hdispose, rfl⟩
  refine ⟨hsome, fun entry hentry heq => ?_⟩
  rw [hwaits.1 ⟨entry, hentry, heq⟩] at hsome
  cases hsome

/-- A response comes twice, and then the exit. -/
theorem settled_by_first_answered :
    let parse : JsText → Option JsValue := fun _ => some (.object [("id", .number 1), ("result", .bool true)])
    let events := [.sent 1 (js "initialize"), .line (js "x"), .line (js "x"), .exit]
    (events.foldl (after parse) (request (js "initialize") true {})).outcome 1 = some (.resolved (.bool true)) := by
  intro parse events
  have hrun : Run (Step parse) (request (js "initialize") true {}) events _ :=
    .cons ⟨List.mem_singleton_self _, rfl⟩ (.cons ⟨trivial, rfl⟩ (.cons ⟨trivial, rfl⟩ (.single ⟨trivial, rfl⟩)))
  exact (settled_by_first parse (.nil _) rfl ⟨trivial, rfl⟩ hrun).1

/-- A request made after the exit, whose send goes through, waits for an answer that no one gives. -/
theorem pending_after_exit : ∃ client,
    Run (Step fun _ => none) {} [.exit, .request (js "initialize") false, .sent 1 (js "initialize")] client ∧
      client.outcome 1 = none ∧ client.pending = [⟨1, js "initialize", false⟩] :=
  ⟨_, .cons ⟨trivial, rfl⟩ (.cons ⟨trivial, rfl⟩ (.single ⟨List.mem_singleton_self _, rfl⟩)), rfl, rfl⟩

end AcpJsonRpcClient

end Wiii.NekoChill
