import Wiii.NekoChill.OutboxQueues
import Wiii.NekoChill.OutboxSteps

/-!
# What the outbox keeps

Every copy of the queues is well formed and has every message that is still owed (`Sound`); a message in flight
is the first of its queue, marked as being delivered, in every copy (`Flight`); a queue that came from disk is
paused until it is resumed (`Quiet`).  `Kept` is the invariant of the runs of the outbox.
-/

namespace Wiii.NekoChill

open Function (update update_self update_of_ne)

/-! ## Transactions and phases -/

def Txn.added : Txn → Option ℕ
  | .plain (.enqueue _ _ id) => some id
  | _ => none

def Txn.extra (sessionId : String) : Txn → Option OutboxItem
  | .plain (.enqueue binding text id) =>
    if sessionId = binding.sessionId then some ⟨id, text, binding, .queued⟩ else none
  | _ => none

def Phase.item : Phase → OutboxItem
  | .claiming item | .claimed item _ | .holding item | .sending item _ | .settling item _ _ | .closing item _ => item

def Phase.isCalled : Phase → Bool
  | .claiming _ | .holding _ | .settling _ _ _ => true
  | _ => false

def Phase.isHeld : Phase → Bool
  | .claimed _ none | .holding _ | .sending _ _ | .settling _ _ _ => true
  | _ => false

/-- Whether the message was accepted in this dispatch. -/
def Phase.invoked? : Phase → Option Bool
  | .claiming _ | .claimed _ _ | .holding _ => some false
  | .sending _ invoked | .settling _ invoked _ => some invoked
  | .closing _ _ => none

namespace Outbox

variable {o o' : Outbox} {txn : Txn} {rest : List Txn} {sessionId : String} {next : OutboxSnapshot}

/-- The transaction is that of the dispatch of this message. -/
def Own (o : Outbox) (txn : Txn) (sessionId : String) (id : ℕ) : Prop :=
  txn = .dispatch sessionId ∧ ∃ phase, o.inFlight sessionId = some phase ∧ phase.item.id = id

/-- The transaction queues the message again. -/
def Free (o : Outbox) (txn : Txn) (sessionId : String) (id : ℕ) : Prop :=
  txn = .dispatch sessionId ∧ ∃ phase, o.inFlight sessionId = some phase ∧ phase.item.id = id ∧
    phase.invoked? = some false

def Gone (o : Outbox) (txn : Txn) (sessionId : String) (id : ℕ) : Prop :=
  txn = .plain (.remove sessionId id) ∨
    txn = .dispatch sessionId ∧ ∃ phase, o.inFlight sessionId = some phase ∧ phase.item.id = id ∧
      phase.invoked? = some true

theorem rewrites_applyTxn (h : o.applyTxn txn = .ok next) (hok : o.snapshot.Ok)
    (hfresh : ∀ id, txn.added = some id → ∀ sessionId, ∀ d ∈ o.snapshot.items sessionId, d.id < id)
    (sessionId : String) :
    Rewrites (o.Own txn sessionId) (o.Free txn sessionId) (o.Gone txn sessionId) (txn.extra sessionId)
      (o.snapshot.items sessionId) (next.items sessionId) ∧
    ∀ e, txn.extra sessionId = some e → isBadText e.text = false ∧ e.binding.sessionId = sessionId ∧
      (o.snapshot.items sessionId).length < maxItems ∧ txn.added = some e.id := by
  cases txn with
  | plain change =>
    cases change with
    | enqueue binding text id =>
      obtain ⟨htext, hroom, hrewrites⟩ := OutboxSnapshot.rewrites_enqueue h fun d hd =>
        Nat.ne_of_lt (hfresh id rfl _ d hd)
      refine ⟨hrewrites sessionId, fun e he => ?_⟩
      simp only [Txn.extra] at he
      split at he
      · rename_i heq
        cases he
        exact ⟨htext, heq.symm, heq ▸ hroom, rfl⟩
      · cases he
    | edit target id text => exact ⟨OutboxSnapshot.rewrites_edit h hok sessionId, nofun⟩
    | remove target id =>
      exact ⟨OutboxSnapshot.rewrites_remove h hok sessionId fun heq => .inl (heq ▸ rfl), nofun⟩
    | pause target reason =>
      cases h
      rw [OutboxSnapshot.items_pause]
      exact ⟨.refl _, nofun⟩
  | resume target call =>
    rw [(OutboxSnapshot.resume_eq_ok h).2]
    exact ⟨.refl _, nofun⟩
  | dispatch target =>
    refine ⟨?_, nofun⟩
    simp only [applyTxn] at h
    unfold applyPhase at h
    split at h
    · rename_i item hphase
      exact OutboxSnapshot.rewrites_claim h sessionId fun heq => ⟨heq ▸ rfl, _, heq ▸ hphase, rfl⟩
    · rename_i item hphase
      exact OutboxSnapshot.rewrites_hold h sessionId (fun heq => ⟨heq ▸ rfl, _, heq ▸ hphase, rfl⟩)
        fun heq => ⟨heq ▸ rfl, _, heq ▸ hphase, rfl, rfl⟩
    · rename_i item invoked completed hphase
      exact OutboxSnapshot.rewrites_settle h sessionId (fun heq => ⟨heq ▸ rfl, _, heq ▸ hphase, rfl⟩)
        (fun heq hinvoked => ⟨heq ▸ rfl, .settling item invoked completed, heq ▸ hphase, rfl, congrArg some hinvoked⟩)
        fun heq hinvoked _ =>
          .inr ⟨heq ▸ rfl, .settling item invoked completed, heq ▸ hphase, rfl, congrArg some hinvoked⟩
    · cases h

theorem isPaused_applyTxn (h : o.applyTxn txn = .ok next) (hpaused : o.snapshot.IsPaused sessionId)
    (hresume : ∀ call, txn ≠ .resume sessionId call) : next.IsPaused sessionId := by
  cases txn with
  | plain change =>
    cases change with
    | enqueue binding text id => exact hpaused.enqueue h
    | edit target id text =>
      simp only [applyTxn, applyChange, OutboxSnapshot.edit] at h
      split at h
      · cases h
      · split at h
        · cases h
        · cases h
          exact hpaused.update fun _ hqueue => hqueue
    | remove target id =>
      simp only [applyTxn, applyChange, OutboxSnapshot.remove] at h
      split at h
      · cases h
      · cases h
        exact hpaused.update fun _ hqueue => hqueue
    | pause target reason =>
      cases h
      exact hpaused.update fun _ _ => rfl
  | resume target call =>
    obtain ⟨rfl, -⟩ := OutboxSnapshot.resume_eq_ok h
    obtain ⟨queue, hfind, hqueue⟩ := hpaused
    have hne : sessionId ≠ target := fun heq => hresume call (heq ▸ rfl)
    exact ⟨queue, by rw [Table.find?_update, if_neg hne, hfind], hqueue⟩
  | dispatch target =>
    simp only [applyTxn] at h
    unfold applyPhase at h
    split at h
    · exact hpaused.withItem h fun _ hqueue => hqueue
    · exact hpaused.withItem h fun _ _ => rfl
    · unfold OutboxSnapshot.settle at h
      split at h
      · cases h
        exact hpaused.update fun _ hqueue => hqueue
      · exact hpaused.withItem h fun _ _ => rfl
    · cases h

/-! ## The invariant -/

/-- The ids that come into a copy later, by transactions called or messages to come. -/
def awaited (o : Outbox) (txns : List Txn) : List ℕ := txns.filterMap Txn.added ++ [o.nextItem]

structure Sound (o : Outbox) (txns : List Txn) (c : OutboxSnapshot) : Prop where
  ok : c.Ok
  fresh : ∀ sessionId, ∀ d ∈ c.items sessionId, ∀ id ∈ o.awaited txns, d.id < id
  accepted : ∀ sessionId, ∀ d ∈ c.items sessionId, o.accepted sessionId d.id = true → d.state ≠ .queued
  kept : ∀ sessionId id, o.stored sessionId id = true → o.accepted sessionId id = false →
    o.removed sessionId id = false → ∃ d ∈ c.items sessionId, d.id = id
  sent : ∀ sent ∈ o.sends, ∀ d ∈ c.items sent.sessionId, sent.item.id ≤ d.id

/-- The message is the first, and marked; its text may have been edited before. -/
def Held (c : OutboxSnapshot) (sessionId : String) (item : OutboxItem) (text : JsText) : Prop :=
  ∃ rest, c.items sessionId = { item with text := text, state := .delivering } :: rest

/-- The message is the first, if it is still there. -/
def AtLeast (c : OutboxSnapshot) (sessionId : String) (item : OutboxItem) : Prop :=
  ∀ d ∈ c.items sessionId, item.id ≤ d.id ∧ (d.id = item.id → d.binding = item.binding)

def IsOwn (o : Outbox) (sessionId : String) : Prop := o.tail.head? = some (.dispatch sessionId)

structure Flight (o : Outbox) (sessionId : String) (phase : Phase) : Prop where
  ready : o.ready = true
  accepted : ∀ invoked, phase.invoked? = some invoked → o.accepted sessionId phase.item.id = invoked
  waiting : ∀ item, phase = .claiming item → (∀ id ∈ o.awaited o.tail, item.id < id) ∧
    AtLeast o.snapshot sessionId item ∧ ∀ next, o.running = some next →
      (o.IsOwn sessionId → ∃ text, Held next sessionId item text) ∧
      (¬ o.IsOwn sessionId → AtLeast next sessionId item)
  held : phase.isHeld = true → ∃ text, Held o.disk sessionId phase.item text ∧
    Held o.snapshot sessionId phase.item text ∧
    ∀ next, o.running = some next → ¬ o.IsOwn sessionId → Held next sessionId phase.item text

/-- A queue that came from disk and was not resumed. -/
structure Quiet (o : Outbox) (sessionId : String) : Prop where
  landed : o.inFlight sessionId = none
  paused : o.snapshot.IsPaused sessionId
  running : ∀ next, o.running = some next → (∀ call, o.tail.head? ≠ some (.resume sessionId call)) →
    next.IsPaused sessionId

/-- What is written comes from the memory, and adds at the end. -/
def Derived (snapshot next : OutboxSnapshot) : Prop :=
  ∀ sessionId, ∀ d ∈ next.items sessionId,
    (∃ e ∈ snapshot.items sessionId, e.id = d.id ∧ e.binding = d.binding) ∨
      ∀ e ∈ snapshot.items sessionId, e.id < d.id

structure Running (o : Outbox) (next : OutboxSnapshot) : Prop where
  ready : o.ready = true
  tail : o.tail ≠ []
  sound : o.Sound o.tail.tail next
  derived : Derived o.snapshot next

structure Hydrating (o : Outbox) (next : OutboxSnapshot) : Prop where
  ready : o.ready = false
  sound : o.Sound o.tail next
  paused : ∀ sessionId queue, next.find? sessionId = some queue → queue.paused = true

structure Kept (o : Outbox) : Prop where
  running : ∀ next, o.running = some next → o.Running next
  hydrating : ∀ next, o.hydrating = some next → o.Hydrating next
  disk : o.Sound o.tail o.disk
  snapshot : o.ready = true → o.Sound o.tail o.snapshot
  awaited : (o.awaited o.tail).Pairwise (· < ·)
  accepted : ∀ sessionId id, o.accepted sessionId id = true → ∀ id' ∈ o.awaited o.tail, id < id'
  sent : ∀ sent ∈ o.sends, ∀ id ∈ o.awaited o.tail, sent.item.id < id
  inOrder : o.sends.Pairwise fun x y => x.sessionId = y.sessionId → x.item.id ≤ y.item.id
  removed : ∀ sessionId id, .plain (.remove sessionId id) ∈ o.tail → o.removed sessionId id = true
  called : ∀ sessionId, o.tail.count (.dispatch sessionId) =
    if (o.inFlight sessionId).any Phase.isCalled then 1 else 0
  flight : ∀ sessionId phase, o.inFlight sessionId = some phase → o.Flight sessionId phase
  restored : ∀ sessionId, o.restored sessionId = true → o.Quiet sessionId

theorem mem_awaited_of_added {id : ℕ} (h : txn.added = some id) : id ∈ o.awaited (txn :: rest) :=
  List.mem_append_left _ (List.mem_filterMap.2 ⟨txn, List.mem_cons_self, h⟩)

theorem mem_awaited_cons {id : ℕ} (h : id ∈ o.awaited rest) : id ∈ o.awaited (txn :: rest) := by
  obtain h | h := List.mem_append.1 h
  · obtain ⟨other, hmem, hadded⟩ := List.mem_filterMap.1 h
    exact List.mem_append_left _ (List.mem_filterMap.2 ⟨other, List.mem_cons_of_mem _ hmem, hadded⟩)
  · exact List.mem_append_right _ h

theorem awaited_cons_of_added {id : ℕ} (h : txn.added = some id) : o.awaited (txn :: rest) = id :: o.awaited rest := by
  rw [awaited, List.filterMap_cons, h]
  rfl

theorem Sound.tail {c : OutboxSnapshot} (h : o.Sound (txn :: rest) c) : o.Sound rest c :=
  ⟨h.ok, fun s d hd id hid => h.fresh s d hd id (mem_awaited_cons hid), h.accepted, h.kept, h.sent⟩

theorem Kept.sound_applyTxn (h : o.Kept) (hready : o.ready = true) (htail : o.tail = txn :: rest)
    (hnext : o.applyTxn txn = .ok next) : o.Sound rest next := by
  have hsnapshot := h.snapshot hready
  rw [htail] at hsnapshot
  have hfresh : ∀ id, txn.added = some id → ∀ s, ∀ d ∈ o.snapshot.items s, d.id < id :=
    fun id hid s d hd => hsnapshot.fresh s d hd id (mem_awaited_of_added hid)
  have hrewrites := rewrites_applyTxn hnext hsnapshot.ok hfresh
  refine ⟨fun s => ?_, fun s e he id hid => ?_, fun s e he haccepted hqueued => ?_,
    fun s id hstored haccepted hremoved => ?_, fun sent hsent e he => ?_⟩
  · refine (hrewrites s).1.itemsOk (hsnapshot.ok s) fun e he => ?_
    obtain ⟨htext, hbinding, hroom, hadded⟩ := (hrewrites s).2 e he
    exact ⟨htext, hbinding, hroom, hfresh e.id hadded s⟩
  · obtain ⟨d, hd, d', hrewrite, hde⟩ | hextra := (hrewrites s).1.mem he
    · rw [hrewrite.id e hde]
      exact hsnapshot.fresh s d hd id (mem_awaited_cons hid)
    · have hincreasing := h.awaited
      rw [htail, awaited_cons_of_added ((hrewrites s).2 e hextra).2.2.2] at hincreasing
      exact List.rel_of_pairwise_cons hincreasing hid
  · obtain ⟨d, hd, d', hrewrite, hde⟩ | hextra := (hrewrites s).1.mem he
    · have hid := hrewrite.id e hde
      rw [hid] at haccepted
      obtain hold | ⟨-, phase, hphase, hitem, hinvoked⟩ := hrewrite.queued e hde hqueued
      · exact hsnapshot.accepted s d hd haccepted hold
      · rw [← hitem, (h.flight s phase hphase).accepted false hinvoked] at haccepted
        cases haccepted
    · have hlt := h.accepted s e.id haccepted e.id (htail ▸ mem_awaited_of_added ((hrewrites s).2 e hextra).2.2.2)
      exact absurd hlt (Nat.lt_irrefl _)
  · obtain ⟨d, hd, rfl⟩ := hsnapshot.kept s id hstored haccepted hremoved
    refine (hrewrites s).1.exists_of_mem hd ?_
    rintro (hremove | ⟨-, phase, hphase, hitem, hinvoked⟩)
    · rw [h.removed s d.id (htail ▸ hremove ▸ List.mem_cons_self)] at hremoved
      cases hremoved
    · rw [← hitem, (h.flight s phase hphase).accepted true hinvoked] at haccepted
      cases haccepted
  · obtain ⟨d, hd, d', hrewrite, hde⟩ | hextra := (hrewrites _).1.mem he
    · rw [hrewrite.id e hde]
      exact hsnapshot.sent sent hsent d hd
    · exact Nat.le_of_lt (h.sent sent hsent e.id
        (htail ▸ mem_awaited_of_added ((hrewrites _).2 e hextra).2.2.2))

/-! ## A transaction starts -/

section

variable {c : OutboxSnapshot} {item : OutboxItem} {txns : List Txn}

structure SameLedger (o o' : Outbox) : Prop where
  nextItem : o'.nextItem = o.nextItem
  accepted : o'.accepted = o.accepted
  stored : o'.stored = o.stored
  removed : o'.removed = o.removed
  sends : o'.sends = o.sends

theorem SameLedger.awaited (h : SameLedger o o') (txns : List Txn) : o'.awaited txns = o.awaited txns := by
  rw [Outbox.awaited, Outbox.awaited, h.nextItem]

theorem Sound.same (h : o.Sound txns c) (hsame : SameLedger o o') : o'.Sound txns c := by
  refine ⟨h.ok, ?_, ?_, ?_, ?_⟩
  · rw [hsame.awaited]
    exact h.fresh
  · rw [hsame.accepted]
    exact h.accepted
  · rw [hsame.stored, hsame.accepted, hsame.removed]
    exact h.kept
  · rw [hsame.sends]
    exact h.sent

theorem Held.mem {text : JsText} (h : Held c sessionId item text) : ∃ d ∈ c.items sessionId, d.id = item.id := by
  obtain ⟨rest, hitems⟩ := h
  exact ⟨{ item with text := text, state := .delivering }, by rw [hitems]; exact List.mem_cons_self, rfl⟩

theorem Held.applyTxn {text : JsText} (h : Held o.snapshot sessionId item text) (hok : o.snapshot.Ok)
    (hfresh : ∀ id, txn.added = some id → ∀ s, ∀ d ∈ o.snapshot.items s, d.id < id)
    (hnext : o.applyTxn txn = .ok next) (hforeign : txn ≠ .dispatch sessionId) :
    Held next sessionId item text := by
  obtain ⟨rest, hitems⟩ := h
  have hrewrites := (rewrites_applyTxn hnext hok hfresh sessionId).1
  rw [hitems] at hrewrites
  obtain ⟨rest', hnew⟩ := hrewrites.head rfl fun hown => hforeign hown.1
  exact ⟨rest', hnew⟩

theorem AtLeast.applyTxn (h : AtLeast o.snapshot sessionId item) (hok : o.snapshot.Ok)
    (hfresh : ∀ id, txn.added = some id → ∀ s, ∀ d ∈ o.snapshot.items s, d.id < id)
    (hitem : ∀ id, txn.added = some id → item.id < id) (hnext : o.applyTxn txn = .ok next) :
    AtLeast next sessionId item := by
  obtain ⟨hrewrites, hextra⟩ := rewrites_applyTxn hnext hok hfresh sessionId
  intro e he
  obtain ⟨d, hd, d', hrewrite, hde⟩ | he := hrewrites.mem he
  · rw [hrewrite.id e hde, hrewrite.binding e hde]
    exact h d hd
  · have hlt := hitem e.id (hextra e he).2.2.2
    exact ⟨Nat.le_of_lt hlt, fun heq => absurd heq (Nat.ne_of_gt hlt)⟩

theorem AtLeast.claim (h : AtLeast o.snapshot sessionId item) (hok : o.snapshot.Ok)
    (hphase : o.inFlight sessionId = some (.claiming item)) (hnext : o.applyTxn (.dispatch sessionId) = .ok next) :
    ∃ text, Held next sessionId item text := by
  simp only [Outbox.applyTxn, hphase, applyPhase, OutboxSnapshot.claim] at hnext
  obtain ⟨hfound, rfl⟩ := OutboxSnapshot.withItem_eq_ok hnext
  obtain ⟨e, he⟩ := Option.isSome_iff_exists.1 hfound
  obtain ⟨hmem, hid⟩ := findItem_eq_some he
  cases hitems : o.snapshot.items sessionId with
  | nil => rw [hitems] at hmem; cases hmem
  | cons d rest =>
    have hsorted := hok sessionId
    rw [hitems] at hsorted hmem
    have hle := hsorted.head_le e hmem
    obtain ⟨hge, hbinding⟩ := h d (hitems ▸ List.mem_cons_self)
    have heq : d.id = item.id := by omega
    refine ⟨d.text, setState item.id .delivering rest, ?_⟩
    rw [OutboxSnapshot.items_update (F := setState item.id .delivering) (fun _ => rfl) rfl, if_pos rfl, hitems, setState,
      List.map_cons, if_pos heq, ← heq, ← hbinding heq]
    rfl

theorem Kept.start (h : o.Kept) (htail : o.tail = txn :: rest) (hready : o.ready = true) (hnext : o.applyTxn txn = .ok next) :
    Kept { o with running := some next } := by
  have hsame : SameLedger o { o with running := some next } := ⟨rfl, rfl, rfl, rfl, rfl⟩
  have hsnapshot := h.snapshot hready
  have hadded : ∀ id, txn.added = some id → id ∈ o.awaited o.tail := fun id hid => htail ▸ mem_awaited_of_added hid
  have hfresh : ∀ id, txn.added = some id → ∀ s, ∀ d ∈ o.snapshot.items s, d.id < id :=
    fun id hid s d hd => hsnapshot.fresh s d hd id (hadded id hid)
  have hown : ∀ s, o.IsOwn s ↔ txn = .dispatch s := fun s => by rw [IsOwn, htail, List.head?_cons, Option.some.injEq]
  refine ⟨fun other hother => ?_, fun other hother => ?_, h.disk.same hsame, fun _ => hsnapshot.same hsame, h.awaited,
    h.accepted, h.sent, h.inOrder, h.removed, h.called, fun s phase hphase => ?_, fun s hrestored => ?_⟩
  · cases hother
    refine ⟨hready, fun hnil => List.cons_ne_nil txn rest (htail.symm.trans hnil), ?_, fun s e he => ?_⟩
    · have hsound := (h.sound_applyTxn hready htail hnext).same hsame
      rwa [show rest = o.tail.tail by rw [htail]; rfl] at hsound
    · obtain ⟨hrewrites, hextra⟩ := rewrites_applyTxn hnext hsnapshot.ok hfresh s
      obtain ⟨d, hd, d', hrewrite, hde⟩ | he := hrewrites.mem he
      · exact .inl ⟨d, hd, (hrewrite.id e hde).symm, (hrewrite.binding e hde).symm⟩
      · exact .inr (hfresh e.id (hextra e he).2.2.2 s)
  · have hhydrating := h.hydrating other hother
    exact ⟨hhydrating.ready, hhydrating.sound.same hsame, hhydrating.paused⟩
  · have hflight := h.flight s phase hphase
    refine ⟨hready, hflight.accepted, fun item hclaiming => ?_, fun hheld => ?_⟩
    · obtain ⟨hitem, hleast, -⟩ := hflight.waiting item hclaiming
      refine ⟨hitem, hleast, fun other hother => ?_⟩
      cases hother
      constructor
      · intro hisOwn
        rw [(hown s).1 hisOwn] at hnext
        exact hleast.claim hsnapshot.ok (hclaiming ▸ hphase) hnext
      · intro _
        exact hleast.applyTxn hsnapshot.ok hfresh (fun id hid => hitem id (hadded id hid)) hnext
    · obtain ⟨text, hdisk, hmemory, -⟩ := hflight.held hheld
      refine ⟨text, hdisk, hmemory, fun other hother hforeign => ?_⟩
      cases hother
      exact hmemory.applyTxn hsnapshot.ok hfresh hnext fun heq => hforeign ((hown s).2 heq)
  · have hquiet := h.restored s hrestored
    refine ⟨hquiet.landed, hquiet.paused, fun other hother hresume => ?_⟩
    cases hother
    exact isPaused_applyTxn hnext hquiet.paused fun call heq => hresume call (by rw [htail, heq]; rfl)

/-! ## A transaction ends -/

def flightsAfter (o : Outbox) (error : Option String) : Txn → String → Option Phase
  | .dispatch sessionId => update o.inFlight sessionId ((o.inFlight sessionId).map (Phase.settle error))
  | _ => o.inFlight

theorem finish_eq (txn : Txn) (rest : List Txn) (error : Option String) : ∃ resumes, o.finish txn rest error = { o with
    tail := rest, running := none, error := error, resumes := resumes, inFlight := o.flightsAfter error txn } := by
  cases txn <;> exact ⟨_, rfl⟩

theorem flightsAfter_self (error : Option String) :
    o.flightsAfter error (.dispatch sessionId) sessionId = (o.inFlight sessionId).map (Phase.settle error) :=
  update_self _ _ _

theorem flightsAfter_of_ne {error : Option String} (h : txn ≠ .dispatch sessionId) :
    o.flightsAfter error txn sessionId = o.inFlight sessionId := by
  cases txn with
  | dispatch other => exact update_of_ne (fun heq : sessionId = other => h (heq ▸ rfl)) _ _
  | _ => rfl

theorem isCalled_settle (error : Option String) (phase : Phase) : (phase.settle error).isCalled = false := by
  cases phase <;> rfl

theorem Kept.called_head (h : o.Kept) (htail : o.tail = .dispatch sessionId :: rest) :
    ∃ phase, o.inFlight sessionId = some phase ∧ phase.isCalled = true ∧ rest.count (.dispatch sessionId) = 0 := by
  have hcount := h.called sessionId
  rw [htail, List.count_cons_self] at hcount
  split at hcount
  · rename_i hcalled
    obtain ⟨phase, hphase, hcalled⟩ := (Option.any_eq_true _ _).1 hcalled
    exact ⟨phase, hphase, hcalled, by omega⟩
  · omega

theorem Kept.called_after (h : o.Kept) (htail : o.tail = txn :: rest) (error : Option String) (sessionId : String) :
    rest.count (.dispatch sessionId) =
      if (o.flightsAfter error txn sessionId).any Phase.isCalled then 1 else 0 := by
  by_cases heq : txn = .dispatch sessionId
  · subst heq
    obtain ⟨phase, hphase, -, hcount⟩ := h.called_head htail
    rw [flightsAfter_self, hphase, hcount, Option.map_some, Option.any_some, isCalled_settle]
    rfl
  · rw [flightsAfter_of_ne heq, ← h.called sessionId, htail, List.count_cons_of_ne heq]

theorem Flight.settle {phase : Phase} {error : Option String} {disk snapshot : OutboxSnapshot}
    {stored : String → ℕ → Bool} {restored : String → Bool} {resumes : ℕ → Option ResumeCall}
    {flights : String → Option Phase} (h : o.Flight sessionId phase) (hcalled : phase.isCalled = true)
    (htail : o.tail = .dispatch sessionId :: rest)
    (hdone : error = none → o.running = some disk ∧ o.running = some snapshot) :
    Flight { o with
      disk := disk, snapshot := snapshot, stored := stored, restored := restored,
      tail := rest, running := none, error := error, resumes := resumes, inFlight := flights }
      sessionId (phase.settle error) := by
  have hown : o.IsOwn sessionId := by
    rw [IsOwn, htail]
    rfl
  cases phase with
  | claiming item =>
    refine ⟨h.ready, h.accepted, nofun, fun hheld => ?_⟩
    cases error with
    | none =>
      obtain ⟨-, -, hrun⟩ := h.waiting item rfl
      obtain ⟨hdisk, hsnapshot⟩ := hdone rfl
      obtain ⟨text, hheld⟩ := (hrun disk hdisk).1 hown
      cases hdisk.symm.trans hsnapshot
      exact ⟨text, hheld, hheld, nofun⟩
    | some message => cases hheld
  | claimed item error => cases hcalled
  | holding item => exact ⟨h.ready, nofun, nofun, nofun⟩
  | sending item invoked => cases hcalled
  | settling item invoked completed => exact ⟨h.ready, nofun, nofun, nofun⟩
  | closing item error => cases hcalled

theorem Kept.finish (h : o.Kept) (htail : o.tail = txn :: rest) {error : Option String}
    {disk snapshot : OutboxSnapshot} {stored : String → ℕ → Bool} {restored : String → Bool}
    (hdisk : disk = o.disk ∨ o.running = some disk) (hsnapshot : snapshot = o.snapshot ∨ o.running = some snapshot)
    (hdone : error = none → o.running = some disk ∧ o.running = some snapshot)
    (hstored : ∀ s id, stored s id = true → o.stored s id = true ∨
      o.running ≠ none ∧ (∃ d ∈ disk.items s, d.id = id) ∧ ∃ d ∈ snapshot.items s, d.id = id)
    (hrestored : ∀ s, restored s = true → o.restored s = true ∧ snapshot.IsPaused s) :
    Kept ({ o with disk := disk, snapshot := snapshot, stored := stored, restored := restored }.finish
      txn rest error) := by
  obtain ⟨resumes, heq⟩ := finish_eq (o := { o with
    disk := disk, snapshot := snapshot, stored := stored, restored := restored }) txn rest error
  rw [heq]
  have hrunning : ∀ c, o.running = some c → o.Sound rest c := fun c hc => by
    have hsound := (h.running c hc).sound
    rwa [htail] at hsound
  have hsounds : ∀ c, o.Sound rest c → (∀ s id, stored s id = true → o.stored s id = true ∨ ∃ d ∈ c.items s, d.id = id) →
      Sound { o with
        disk := disk, snapshot := snapshot, stored := stored, restored := restored,
        tail := rest, running := none, error := error, resumes := resumes,
        inFlight := o.flightsAfter error txn } rest c :=
    fun c hc hnew => ⟨hc.ok, hc.fresh, hc.accepted, fun s id hst haccepted hremoved =>
      (hnew s id hst).elim (fun hold => hc.kept s id hold haccepted hremoved) fun hmem => hmem, hc.sent⟩
  have hawaited : ∀ id, id ∈ o.awaited rest → id ∈ o.awaited o.tail := fun id hid => htail ▸ mem_awaited_cons hid
  have hsounddisk : o.Sound rest disk := by
    obtain rfl | hrun := hdisk
    · exact (htail ▸ h.disk).tail
    · exact hrunning disk hrun
  have hsoundmemory : o.ready = true → o.Sound rest snapshot := fun hready => by
    obtain rfl | hrun := hsnapshot
    · exact (htail ▸ h.snapshot hready).tail
    · exact hrunning snapshot hrun
  refine ⟨fun _ hother => (nomatch hother), fun other hother => ?_,
    hsounds _ hsounddisk fun s id hst => (hstored s id hst).imp_right fun hnew => hnew.2.1,
    fun hready => hsounds _ (hsoundmemory hready) fun s id hst => (hstored s id hst).imp_right fun hnew => hnew.2.2,
    ?_, fun s id hid id' hid' => h.accepted s id hid id' (hawaited id' hid'),
    fun sent hsent id hid => h.sent sent hsent id (hawaited id hid), h.inOrder,
    fun s id hmem => h.removed s id (htail ▸ List.mem_cons_of_mem _ hmem), h.called_after htail error,
    fun s phase hphase => ?_, fun s hs => ?_⟩
  · have hhydrating := h.hydrating other hother
    refine ⟨hhydrating.ready, hsounds _ (htail ▸ hhydrating.sound).tail fun s id hst => .inl ?_, hhydrating.paused⟩
    obtain hold | ⟨hrun, -⟩ := hstored s id hst
    · exact hold
    · obtain ⟨c, hc⟩ := Option.ne_none_iff_exists'.1 hrun
      exact absurd ((h.running c hc).ready.symm.trans hhydrating.ready) Bool.noConfusion
  · have hincreasing := h.awaited
    rw [htail] at hincreasing
    exact hincreasing.sublist (List.Sublist.append_right (List.Sublist.filterMap _ (List.sublist_cons_self _ _)) _)
  · by_cases hown : txn = .dispatch s
    · subst hown
      obtain ⟨old, hold, hcalled, -⟩ := h.called_head htail
      have hphase : o.flightsAfter error (.dispatch s) s = some phase := hphase
      rw [flightsAfter_self, hold, Option.map_some, Option.some.injEq] at hphase
      subst hphase
      exact (h.flight s old hold).settle hcalled htail hdone
    · have hphase : o.flightsAfter error txn s = some phase := hphase
      rw [flightsAfter_of_ne hown] at hphase
      have hforeign : ¬ o.IsOwn s := fun hisOwn => hown (by
        rw [IsOwn, htail] at hisOwn
        exact Option.some.inj hisOwn)
      have hflight := h.flight s phase hphase
      refine ⟨hflight.ready, hflight.accepted, fun item hitem => ?_, fun hheld => ?_⟩
      · obtain ⟨hlt, hleast, hrun⟩ := hflight.waiting item hitem
        refine ⟨fun id hid => hlt id (hawaited id hid), ?_, nofun⟩
        obtain rfl | hsnapshot := hsnapshot
        · exact hleast
        · exact (hrun _ hsnapshot).2 hforeign
      · obtain ⟨text, honDisk, hinMemory, hrun⟩ := hflight.held hheld
        refine ⟨text, ?_, ?_, nofun⟩
        · obtain rfl | hdisk := hdisk
          · exact honDisk
          · exact hrun _ hdisk hforeign
        · obtain rfl | hsnapshot := hsnapshot
          · exact hinMemory
          · exact hrun _ hsnapshot hforeign
  · obtain ⟨hold, hpaused⟩ := hrestored s hs
    have hlanded := (h.restored s hold).landed
    refine ⟨?_, hpaused, nofun⟩
    show o.flightsAfter error txn s = none
    by_cases hown : txn = .dispatch s
    · rw [hown, flightsAfter_self, hlanded]
      rfl
    · rw [flightsAfter_of_ne hown, hlanded]

end

/-! ## A call -/

section

variable {flights : String → Option Phase} {removed : String → ℕ → Bool} {nextItem id : ℕ} {txns : List Txn}

/-- A call adds nothing, or the next message. -/
def Adds (o : Outbox) (txn : Txn) (nextItem : ℕ) : Prop :=
  txn.added = none ∧ nextItem = o.nextItem ∨ txn.added = some o.nextItem ∧ nextItem = o.nextItem + 1

theorem Adds.awaited_eq (h : o.Adds txn nextItem) (txns : List Txn) : (txns ++ [txn]).filterMap Txn.added ++ [nextItem] =
    o.awaited txns ∨ (txns ++ [txn]).filterMap Txn.added ++ [nextItem] = o.awaited txns ++ [o.nextItem + 1] := by
  rw [awaited, List.filterMap_append, List.filterMap_cons, List.filterMap_nil]
  obtain ⟨hadded, rfl⟩ | ⟨hadded, rfl⟩ := h
  · exact .inl (by rw [hadded, List.append_nil])
  · exact .inr (by rw [hadded])

theorem Adds.exists_le (h : o.Adds txn nextItem) (hid : id ∈ (txns ++ [txn]).filterMap Txn.added ++ [nextItem]) :
    ∃ old ∈ o.awaited txns, old ≤ id := by
  obtain heq | heq := h.awaited_eq txns
  · exact ⟨id, heq ▸ hid, Nat.le_refl _⟩
  · rw [heq] at hid
    obtain hid | hid := List.mem_append.1 hid
    · exact ⟨id, hid, Nat.le_refl _⟩
    · rw [List.mem_singleton.1 hid]
      exact ⟨o.nextItem, List.mem_append_right _ (List.mem_singleton_self _), Nat.le_succ _⟩

theorem Adds.increasing (h : o.Adds txn nextItem) (hincreasing : (o.awaited txns).Pairwise (· < ·)) :
    ((txns ++ [txn]).filterMap Txn.added ++ [nextItem]).Pairwise (· < ·) := by
  obtain heq | heq := h.awaited_eq txns
  · rwa [heq]
  · rw [heq]
    refine List.pairwise_append.2 ⟨hincreasing, List.pairwise_singleton _ _, fun old hold new hnew => ?_⟩
    rw [List.mem_singleton.1 hnew]
    obtain hold | hold := List.mem_append.1 hold
    · have hlt := (List.pairwise_append.1 hincreasing).2.2 old hold o.nextItem (List.mem_singleton_self _)
      omega
    · rw [List.mem_singleton.1 hold]
      exact Nat.lt_succ_self _

theorem Sound.call {c : OutboxSnapshot} (h : o.Sound txns c) (hadds : o.Adds txn nextItem)
    (hremoved : ∀ s id, o.removed s id = true → removed s id = true) :
    Sound { o with tail := o.tail ++ [txn], nextItem := nextItem, removed := removed, inFlight := flights }
      (txns ++ [txn]) c := by
  refine ⟨h.ok, fun s d hd id hid => ?_, h.accepted, fun s id hstored haccepted hkept => ?_, h.sent⟩
  · obtain ⟨old, hold, hle⟩ := hadds.exists_le hid
    exact Nat.lt_of_lt_of_le (h.fresh s d hd old hold) hle
  · refine h.kept s id hstored haccepted ?_
    cases heq : o.removed s id with
    | false => rfl
    | true => exact (hremoved s id heq).symm.trans hkept

theorem Kept.call (h : o.Kept) (hadds : o.Adds txn nextItem)
    (hremoved : ∀ s id, o.removed s id = true → removed s id = true)
    (hremove : ∀ s id, txn = .plain (.remove s id) → removed s id = true)
    (hcalled : ∀ s, o.tail.count (.dispatch s) + [txn].count (.dispatch s) =
      if (flights s).any Phase.isCalled then 1 else 0)
    (hflight : ∀ s phase, flights s = some phase → o.Flight s phase)
    (hlanded : ∀ s, o.restored s = true → flights s = none) :
    Kept { o with tail := o.tail ++ [txn], nextItem := nextItem, removed := removed, inFlight := flights } := by
  have hhead : o.running ≠ none → (o.tail ++ [txn]).head? = o.tail.head? ∧ (o.tail ++ [txn]).tail = o.tail.tail ++ [txn] := by
    intro hrun
    obtain ⟨c, hc⟩ := Option.ne_none_iff_exists'.1 hrun
    obtain ⟨first, rest, heq⟩ := List.exists_cons_of_ne_nil (h.running c hc).tail
    rw [heq]
    exact ⟨rfl, rfl⟩
  have hlt : ∀ {n id : ℕ}, (∀ old ∈ o.awaited o.tail, n < old) →
      id ∈ (o.tail ++ [txn]).filterMap Txn.added ++ [nextItem] → n < id := fun hn hid => by
    obtain ⟨old, hold, hle⟩ := hadds.exists_le hid
    exact Nat.lt_of_lt_of_le (hn old hold) hle
  refine ⟨fun other hother => ?_, fun other hother => ?_, h.disk.call hadds hremoved,
    fun hready => (h.snapshot hready).call hadds hremoved, hadds.increasing h.awaited,
    fun s id hid id' hid' => hlt (h.accepted s id hid) hid', fun sent hsent id hid => hlt (h.sent sent hsent) hid, h.inOrder,
    fun s id hmem => ?_, fun s => (List.count_append).trans (hcalled s), fun s phase hphase => ?_, fun s hs => ?_⟩
  · have hrunning := h.running other hother
    refine ⟨hrunning.ready, by simp, ?_, hrunning.derived⟩
    show Sound _ (o.tail ++ [txn]).tail other
    rw [(hhead (by rw [hother]; exact Option.some_ne_none _)).2]
    exact hrunning.sound.call hadds hremoved
  · have hhydrating := h.hydrating other hother
    exact ⟨hhydrating.ready, hhydrating.sound.call hadds hremoved, hhydrating.paused⟩
  · obtain hmem | hmem := List.mem_append.1 hmem
    · exact hremoved s id (h.removed s id hmem)
    · exact hremove s id (List.mem_singleton.1 hmem).symm
  · have hold := hflight s phase hphase
    refine ⟨hold.ready, hold.accepted, fun item hitem => ?_, fun hheld => ?_⟩
    · obtain ⟨hbelow, hleast, hrun⟩ := hold.waiting item hitem
      refine ⟨fun id hid => hlt hbelow hid, hleast, fun other hother => ?_⟩
      have heq := (hhead (by rw [show o.running = some other from hother]; exact Option.some_ne_none _)).1
      unfold IsOwn at hrun ⊢
      rw [heq]
      exact hrun other hother
    · obtain ⟨text, hdisk, hmemory, hrun⟩ := hold.held hheld
      refine ⟨text, hdisk, hmemory, fun other hother => ?_⟩
      have heq := (hhead (by rw [show o.running = some other from hother]; exact Option.some_ne_none _)).1
      unfold IsOwn at hrun ⊢
      rw [heq]
      exact hrun other hother
  · have hquiet := h.restored s hs
    refine ⟨hlanded s hs, hquiet.paused, fun other hother => ?_⟩
    have heq := (hhead (by rw [show o.running = some other from hother]; exact Option.some_ne_none _)).1
    rw [heq]
    exact hquiet.running other hother

end

end Outbox

end Wiii.NekoChill
