import Wiii.Neko.AppEvents.History
import Wiii.Neko.Signal.Admission
import Wiii.Neko.Signal.Cursors
import Wiii.Neko.Signal.Dedupe

/-!
# Delivery of application events

One client synchronises, over and over, and may be dropped anywhere.  Meanwhile the bridges of the environments record
events and start anew, each time with a new name for the epoch, and others use the signal inbox.

Of each environment, the signals that arrived and the cursor follow the history from the cursor that the client started
from, in order (`events_delivered_once`).
-/

namespace Wiii.Neko.AppEvents.Delivery

open Signal (Platform Inbox SignalIngress SignalAdmission SignalCursorCheckpoint)
open Dialog

structure Shared where
  db : Inbox
  /-- The calls on the inbox so far. -/
  calls : List Signal.Call
  bridges : String → Option Bridge
  /-- What was recorded so far. -/
  histories : String → History

def arrivals (environmentId : String) (events : List Signal.Event) :
    List (SignalIngress × SignalAdmission) :=
  events.filterMap fun
    | .arrival input admission =>
      if input.sourceId = sourceId ∧ input.accountGrantRef = workstationAuthority environmentId then
        some (input, admission)
      else none
    | _ => none

namespace Shared

def events (s : Shared) : List Signal.Event := Signal.trace s.calls

def after (s : Shared) (call : Signal.Call) (db : Inbox) : Shared :=
  { s with db := db, calls := s.calls ++ [call] }

def seen (environmentId : String) (s : Shared) : List SignalIngress :=
  (arrivals environmentId s.events).map Prod.fst

def cursor (P : Platform) (environmentId : String) (s : Shared) : Option String :=
  Signal.movedTo P sourceId (workstationAuthority environmentId) s.events

theorem events_after (s : Shared) (call : Signal.Call) (db : Inbox) :
    (s.after call db).events = s.events ++ call.events := by
  simp [events, after, Signal.trace]

end Shared

def History.record (signals : List AppEventSignal) : History → History
  | [] => []
  | [epoch] => [⟨epoch.name, epoch.events ++ signals⟩]
  | epoch :: epoch' :: epochs => epoch :: record signals (epoch' :: epochs)

theorem record_append (past : History) (name : String) (events signals : List AppEventSignal) :
    History.record signals (past ++ [⟨name, events⟩]) = past ++ [⟨name, events ++ signals⟩] := by
  induction past with
  | nil => rfl
  | cons epoch past ih =>
    cases past with
    | nil => rfl
    | cons epoch' past =>
      rw [List.cons_append, List.cons_append, History.record, ← List.cons_append, ih]
      rfl

/-! ## Steps -/

section Steps

variable (P : Platform)

def Calls {α : Type} (op : Instant → Signal.Op) (wrap : α → Signal.Answer) (s : Shared)
    (answer : Except String α) (t : Shared) : Prop :=
  ∃ now db, Signal.Step P s.db ⟨op now, answer.map wrap⟩ db ∧
    t = s.after ⟨op now, answer.map wrap⟩ db

def effect : (r : Request) → Shared → Answer r → Shared → Prop
  | .cursor environmentId, s, answer, t => t = s ∧
      (answer = Signal.SignalInbox.cursor P sourceId (workstationAuthority environmentId) s.db ∨
        ∃ error, answer = .error error)
  | .appEventsPoll environmentId afterCursor limit waitMs, s, answer, t => t = s ∧
      ∀ batch, answer = .ok batch → checkPoll afterCursor limit waitMs = .ok () ∧
        ∃ b, s.bridges environmentId = some b ∧
          b.pollAppEvents ⟨environmentId, afterCursor, limit, waitMs⟩ = .ok batch
  | .ingestBatch inputs, s, answer, t =>
    Calls P (fun now => .ingestBatch inputs now) Signal.Answer.admissions s answer t
  | .advanceCursor environmentId sourceCursor gapDetected, s, answer, t =>
    Calls P (fun now => .advanceCursor sourceId (workstationAuthority environmentId) sourceCursor
      gapDetected now) Signal.Answer.checkpoint s answer t
  | _, s, _, t => t = s

/-- No workstation is revoked by the events. -/
def Spares (events : List Signal.Event) : Prop :=
  ∀ environmentId, .revoked (workstationAuthority environmentId) ∉ events

/-- An event is recorded, a bridge starts with an empty buffer, somebody else uses the inbox. -/
inductive Foreign : Shared → Shared → Prop
  | record {s : Shared} {environmentId : String} {b : Bridge} (hb : s.bridges environmentId = some b)
      (event : AccessibilityEvent) : Foreign s
        { s with
          bridges := Function.update s.bridges environmentId (some (b.recordAppEvent event))
          histories := Function.update s.histories environmentId
            (History.record (b.recorded event).toList (s.histories environmentId)) }
  | start (s : Shared) (environmentId : String) {name : String} (hname : IsEpoch name)
      (fresh : ∀ other, ∀ epoch ∈ s.histories other, epoch.name ≠ name) : Foreign s
        { s with
          bridges := Function.update s.bridges environmentId (some (Bridge.start name))
          histories := Function.update s.histories environmentId
            (s.histories environmentId ++ [⟨name, []⟩]) }
  | inbox {s : Shared} {call : Signal.Call} {db : Inbox} (hcall : Signal.Step P s.db call db)
      (hop : call.op.ForeignTo sourceId) (hspares : Spares call.events) :
      Foreign s (s.after call db)

def Starts (d : Sync Bool) : Prop := ∃ waitMs, d = syncActiveAppEvents P waitMs

abbrev Step : Solo Answer String Bool Shared → PoolEvent Answer → Solo Answer String Bool Shared →
    Prop :=
  Solo.Step (effect P) (Starts P) (Foreign P)

/-- Before anything was recorded or handed in.  The cursors may be anything. -/
structure Initial (s : Shared) : Prop where
  run : Run (Signal.Step P) .empty s.calls s.db
  spares : Spares s.events
  unseen : ∀ input admission, .arrival input admission ∈ s.events → input.sourceId ≠ sourceId
  bridges : ∀ environmentId, s.bridges environmentId = none
  histories : ∀ environmentId, s.histories environmentId = []

end Steps

end Wiii.Neko.AppEvents.Delivery

/-!
## What is delivered so far

The invariant of the system: the bridges mirror their current epochs, and of every environment the signals
handed in follow the history up to the cursor, in order (`Invariant`).  The others keep it
(`Invariant.foreign`), and so does the client as long as what it hands in goes on from there
(`Invariant.effect`).
-/

namespace Wiii.Neko.AppEvents.Delivery

open Signal (Platform Inbox SignalIngress SignalAdmission SignalCursorCheckpoint)
open Dialog

variable {P : Platform} {environmentId : String} {s t : Shared}

/-! ## Arrivals -/

theorem workstationAuthority_injective : Function.Injective workstationAuthority := by
  intro a b h
  simpa [workstationAuthority, toString] using h

theorem arrivals_append (environmentId : String) (events events' : List Signal.Event) :
    arrivals environmentId (events ++ events') =
      arrivals environmentId events ++ arrivals environmentId events' :=
  List.filterMap_append

theorem mem_arrivals {events : List Signal.Event} {x : SignalIngress × SignalAdmission} :
    x ∈ arrivals environmentId events ↔ .arrival x.1 x.2 ∈ events ∧ x.1.sourceId = sourceId ∧
      x.1.accountGrantRef = workstationAuthority environmentId := by
  rw [arrivals, List.mem_filterMap]
  constructor
  · rintro ⟨event, hmem, h⟩
    cases event with
    | arrival input admission =>
      rw [Option.ite_none_right_eq_some] at h
      obtain ⟨hown, heq⟩ := h
      cases heq
      exact ⟨hmem, hown⟩
    | _ => cases h
  · rintro ⟨hmem, hown⟩
    exact ⟨_, hmem, if_pos hown⟩

theorem mem_map_arrivals {events : List Signal.Event} {input : SignalIngress}
    {admission : SignalAdmission} (h : .arrival input admission ∈ events)
    (hsource : input.sourceId = sourceId)
    (haccount : input.accountGrantRef = workstationAuthority environmentId) :
    input ∈ (arrivals environmentId events).map Prod.fst :=
  List.mem_map.2 ⟨(input, admission), mem_arrivals.2 ⟨h, hsource, haccount⟩, rfl⟩

theorem arrivals_eq_nil {events : List Signal.Event}
    (h : ∀ input admission, .arrival input admission ∈ events → input.sourceId = sourceId →
      input.accountGrantRef ≠ workstationAuthority environmentId) :
    arrivals environmentId events = [] :=
  List.eq_nil_iff_forall_not_mem.2 fun x hx =>
    have ⟨hmem, hsource, haccount⟩ := mem_arrivals.1 hx
    h x.1 x.2 hmem hsource haccount

def Own (environmentId : String) (inputs : List SignalIngress) : Prop :=
  ∀ input ∈ inputs, input.sourceId = sourceId ∧
    input.accountGrantRef = workstationAuthority environmentId

theorem arrivals_ingest {inputs : List SignalIngress} {admissions : List SignalAdmission}
    (hown : Own environmentId inputs) (hlen : admissions.length = inputs.length) :
    (arrivals environmentId (List.zipWith Signal.arrivalEvents inputs admissions).flatten).map
      Prod.fst = inputs := by
  induction inputs generalizing admissions with
  | nil => rfl
  | cons input inputs ih =>
    cases admissions with
    | nil => simp at hlen
    | cons admission admissions =>
      obtain ⟨hinput, hinputs⟩ := List.forall_mem_cons.1 hown
      rw [List.zipWith_cons_cons, List.flatten_cons, arrivals_append, List.map_append,
        ih hinputs (by simpa using hlen)]
      simp [arrivals, Signal.arrivalEvents, hinput]

/-! ## The invariant -/

/-- The signals follow the history from the cursor at the start to the one now, in order. -/
structure Delivered (P : Platform) (environmentId : String) (h : History) (start : Option String)
    (seen : List SignalIngress) (c : Option String) : Prop where
  follows : Follows P environmentId h start seen c
  ordered : seen.Pairwise (Before h)
  reached : Reached h seen c

theorem Delivered.continues {h h' : History} {start c : Option String} {seen : List SignalIngress}
    (hd : Delivered P environmentId h start seen c) (hh : Continues h h') :
    Delivered P environmentId h' start seen c :=
  ⟨hd.follows.continues hh, hd.ordered.imp fun hb => hb.continues hh, hd.reached.continues hh⟩

/-- The account of the environment is short enough for the inbox. -/
def Sized (environmentId : String) : Prop := (workstationAuthority environmentId).utf8ByteSize ≤ 256

structure Invariant (P : Platform) (start : String → Option String) (s : Shared) : Prop where
  run : Run (Signal.Step P) .empty s.calls s.db
  spares : Spares s.events
  own : ∀ input admission, .arrival input admission ∈ s.events → input.sourceId = sourceId →
    ∃ environmentId, input.accountGrantRef = workstationAuthority environmentId
  wellFormed : ∀ environmentId, WellFormed (s.histories environmentId)
  apart : ∀ environmentId other, environmentId ≠ other → ∀ epoch ∈ s.histories environmentId,
    ∀ epoch' ∈ s.histories other, epoch.name ≠ epoch'.name
  current : ∀ environmentId b, s.bridges environmentId = some b → ∃ past signals,
    s.histories environmentId = past ++ [⟨b.epoch, signals⟩] ∧ b.Mirrors signals
  delivered : ∀ environmentId, Sized environmentId → Delivered P environmentId
    (s.histories environmentId) (start environmentId) (s.seen environmentId) (s.cursor P environmentId)

/-- The histories go on, and nobody else touches an environment's signals or cursor. -/
structure Later (P : Platform) (s t : Shared) : Prop where
  histories : ∀ environmentId, Continues (s.histories environmentId) (t.histories environmentId)
  seen : ∀ environmentId, t.seen environmentId = s.seen environmentId
  cursor : ∀ environmentId, Sized environmentId → t.cursor P environmentId = s.cursor P environmentId

theorem Later.refl (s : Shared) : Later P s s :=
  ⟨fun _ => .refl _, fun _ => rfl, fun _ _ => rfl⟩

theorem Later.trans {u : Shared} (h : Later P s t) (h' : Later P t u) : Later P s u :=
  ⟨fun e => (h.histories e).trans (h'.histories e), fun e => (h'.seen e).trans (h.seen e),
    fun e he => (h'.cursor e he).trans (h.cursor e he)⟩

theorem invariant_initial (h : Initial P s) :
    Invariant P (fun environmentId => s.cursor P environmentId) s where
  run := h.run
  spares := h.spares
  own := fun input admission hmem hsource => absurd hsource (h.unseen input admission hmem)
  wellFormed := fun environmentId => by
    rw [h.histories]
    exact wellFormed_nil
  apart := fun environmentId other _ epoch he => by
    rw [h.histories] at he
    cases he
  current := fun environmentId b hb => by
    rw [h.bridges] at hb
    cases hb
  delivered := fun environmentId _ => by
    have hseen : s.seen environmentId = [] := by
      rw [Shared.seen, arrivals_eq_nil fun input admission hmem hsource =>
        absurd hsource (h.unseen input admission hmem)]
      rfl
    rw [hseen]
    exact ⟨.refl _, .nil, by simp [Reached]⟩

section Keeps

variable {start : String → Option String}

theorem Invariant.goesOn (hs : Invariant P start s) (environmentId : String) {b : Bridge} {h : History}
    (hcontinues : Continues (s.histories environmentId) h) (hwell : WellFormed h)
    (hnames : ∀ epoch ∈ h, (∃ epoch' ∈ s.histories environmentId, epoch'.name = epoch.name) ∨
      ∀ other, ∀ epoch' ∈ s.histories other, epoch'.name ≠ epoch.name)
    (hcurrent : ∃ past signals, h = past ++ [⟨b.epoch, signals⟩] ∧ b.Mirrors signals)
    (ht : t = { s with
      bridges := Function.update s.bridges environmentId (some b)
      histories := Function.update s.histories environmentId h }) :
    Invariant P start t ∧ Later P s t := by
  subst ht
  have hothers : ∀ other, environmentId ≠ other → ∀ epoch ∈ h, ∀ epoch' ∈ s.histories other,
      epoch.name ≠ epoch'.name := by
    intro other hne epoch he epoch' he'
    rcases hnames epoch he with ⟨epoch₀, he₀, hname⟩ | hfresh
    · rw [← hname]
      exact hs.apart environmentId other hne epoch₀ he₀ epoch' he'
    · exact (hfresh other epoch' he').symm
  have hhistories : ∀ other, Continues (s.histories other)
      (Function.update s.histories environmentId h other) := by
    intro other
    by_cases heq : other = environmentId
    · subst heq
      rwa [Function.update_self]
    · rw [Function.update_of_ne heq]
      exact .refl _
  refine ⟨{ hs with
    wellFormed := fun other => ?_, apart := fun e₁ e₂ hne epoch he epoch' he' => ?_
    current := fun other b' hb' => ?_
    delivered := fun other hsized => (hs.delivered other hsized).continues (hhistories other) },
    ⟨hhistories, fun _ => rfl, fun _ _ => rfl⟩⟩
  · by_cases heq : other = environmentId
    · subst heq
      simpa using hwell
    · simpa [heq] using hs.wellFormed other
  · replace he : epoch ∈ Function.update s.histories environmentId h e₁ := he
    replace he' : epoch' ∈ Function.update s.histories environmentId h e₂ := he'
    by_cases h₁ : e₁ = environmentId
    · subst h₁
      rw [Function.update_self] at he
      rw [Function.update_of_ne (Ne.symm hne)] at he'
      exact hothers e₂ hne epoch he epoch' he'
    · rw [Function.update_of_ne h₁] at he
      by_cases h₂ : e₂ = environmentId
      · subst h₂
        rw [Function.update_self] at he'
        exact (hothers e₁ (Ne.symm hne) epoch' he' epoch he).symm
      · rw [Function.update_of_ne h₂] at he'
        exact hs.apart e₁ e₂ hne epoch he epoch' he'
  · by_cases heq : other = environmentId
    · subst heq
      simp only [Function.update_self, Option.some.injEq] at hb' ⊢
      subst hb'
      exact hcurrent
    · simp only [Function.update_of_ne heq] at hb' ⊢
      exact hs.current other b' hb'

theorem Invariant.called (hs : Invariant P start s) {call : Signal.Call} {db : Inbox}
    (hstep : Signal.Step P s.db call db) (hspares : Spares call.events)
    (hown : ∀ input admission, .arrival input admission ∈ call.events → input.sourceId = sourceId →
      ∃ environmentId, input.accountGrantRef = workstationAuthority environmentId)
    (hdelivered : ∀ environmentId, Sized environmentId → Delivered P environmentId
      (s.histories environmentId) (start environmentId) ((s.after call db).seen environmentId)
      ((s.after call db).cursor P environmentId)) : Invariant P start (s.after call db) where
  run := hs.run.snoc hstep
  spares := fun environmentId hmem => by
    rw [Shared.events_after] at hmem
    rcases List.mem_append.1 hmem with hmem | hmem
    · exact hs.spares environmentId hmem
    · exact hspares environmentId hmem
  own := fun input admission hmem hsource => by
    rw [Shared.events_after] at hmem
    rcases List.mem_append.1 hmem with hmem | hmem
    · exact hs.own input admission hmem hsource
    · exact hown input admission hmem hsource
  wellFormed := hs.wellFormed
  apart := hs.apart
  current := hs.current
  delivered := hdelivered

theorem seen_after (s : Shared) (call : Signal.Call) (db : Inbox) (environmentId : String) :
    (s.after call db).seen environmentId =
      s.seen environmentId ++ (arrivals environmentId call.events).map Prod.fst := by
  rw [Shared.seen, Shared.events_after, arrivals_append, List.map_append, Shared.seen]

theorem cursor_after_still {call : Signal.Call} (db : Inbox)
    (h : Signal.Still P sourceId (workstationAuthority environmentId) call.events) :
    (s.after call db).cursor P environmentId = s.cursor P environmentId := by
  rw [Shared.cursor, Shared.events_after, Signal.movedTo, Signal.lastMoved_append_still h,
    Shared.cursor, Signal.movedTo]

theorem Invariant.foreign (hC : P.CollisionFree) (hs : Invariant P start s) (h : Foreign P s t) :
    Invariant P start t ∧ Later P s t := by
  cases h with
  | @record environmentId b hb event =>
    obtain ⟨past, signals, hhistory, hmirrors⟩ := hs.current environmentId b hb
    have hwell := hs.wellFormed environmentId
    rw [hhistory] at hwell
    refine hs.goesOn environmentId ?_ ?_ ?_ ?_ rfl
    · rw [hhistory, record_append]
      exact continues_last _ _ _ _
    · rw [hhistory, record_append]
      refine hwell.record fun k signal hk => ?_
      cases hrecorded : b.recorded event with
      | none => simp [hrecorded] at hk
      | some signal' =>
        obtain ⟨hcursor, hid⟩ := Bridge.recorded_numbered hrecorded
        rw [hrecorded, Option.toList_some, List.getElem?_singleton] at hk
        split_ifs at hk with hzero
        cases hk
        rw [hzero, Nat.add_zero, ← hmirrors.sequence]
        exact ⟨hcursor, hid⟩
    · rw [hhistory, record_append]
      intro epoch he
      rcases List.mem_append.1 he with he | he
      · exact .inl ⟨epoch, List.mem_append_left _ he, rfl⟩
      · rw [List.mem_singleton.1 he]
        exact .inl ⟨⟨b.epoch, signals⟩, by simp, rfl⟩
    · rw [hhistory, record_append, Bridge.epoch_recordAppEvent]
      exact ⟨past, _, rfl, hmirrors.recordAppEvent event⟩
  | start environmentId hname fresh =>
    refine hs.goesOn environmentId (continues_append _ _)
      ((hs.wellFormed environmentId).start hname (fresh environmentId)) ?_
      ⟨_, [], rfl, Bridge.mirrors_start _⟩ rfl
    intro epoch he
    rcases List.mem_append.1 he with he | he
    · exact .inl ⟨epoch, he, rfl⟩
    · rw [List.mem_singleton.1 he]
      exact .inr fresh
  | @inbox call db hcall hop hspares =>
    obtain ⟨harrival, -⟩ := Signal.source_ne_of_foreignTo hop
    have hseen : ∀ environmentId, (s.after call db).seen environmentId = s.seen environmentId := by
      intro environmentId
      rw [seen_after, arrivals_eq_nil fun input admission hmem hsource =>
        absurd hsource (harrival input admission hmem), List.map_nil, List.append_nil]
    have hcursor : ∀ environmentId, Sized environmentId →
        (s.after call db).cursor P environmentId = s.cursor P environmentId := fun _ hsized =>
      cursor_after_still db (Signal.still_of_foreignTo hC hs.run hcall hop (by decide) hsized)
    refine ⟨hs.called hcall hspares (fun input admission hmem hsource =>
      absurd hsource (harrival input admission hmem)) fun environmentId hsized => ?_,
      ⟨fun _ => .refl _, hseen, hcursor⟩⟩
    rw [hseen, hcursor environmentId hsized]
    exact hs.delivered environmentId hsized

end Keeps

/-! ## The contract of the client -/

/-- What has to hold when the client hands in a page or moves a cursor. -/
def Allowed (P : Platform) : Request → Shared → Prop
  | .ingestBatch inputs, s => ∃ environmentId last, Own environmentId inputs ∧
      inputs.getLast? = some last ∧ Delivers P environmentId (s.histories environmentId)
        (s.seen environmentId) (s.cursor P environmentId) inputs last.sourceCursor
  | .advanceCursor environmentId cursor _, s => Delivers P environmentId
      (s.histories environmentId) (s.seen environmentId) (s.cursor P environmentId) [] cursor
  | _, _ => True

section Contract

variable {start : String → Option String}

theorem Delivered.delivers {h : History} {c c' : Option String} {seen inputs : List SignalIngress}
    {cursor : String} (hd : Delivered P environmentId h c seen c')
    (hnext : Delivers P environmentId h seen c' inputs cursor) :
    Delivered P environmentId h c (seen ++ inputs) (some cursor) :=
  ⟨hd.follows.trans hnext.follows, hnext.ordered, hnext.reached⟩

theorem ingested (hC : P.CollisionFree) (hrun : Run (Signal.Step P) .empty s.calls s.db)
    {inputs : List SignalIngress} {last : SignalIngress} {now : Instant}
    {admissions : List SignalAdmission} {db : Inbox} (hown : Own environmentId inputs)
    (hlast : inputs.getLast? = some last)
    (hstep : Signal.Step P s.db ⟨.ingestBatch inputs now, .ok (.admissions admissions)⟩ db) :
    let t := s.after ⟨.ingestBatch inputs now, .ok (.admissions admissions)⟩ db
    t.seen environmentId = s.seen environmentId ++ inputs ∧
      t.cursor P environmentId = some last.sourceCursor ∧
      ∀ other, other ≠ environmentId → t.seen other = s.seen other ∧
        (Sized other → t.cursor P other = s.cursor P other) := by
  intro t
  obtain ⟨hlen, -⟩ := Signal.complete_of_step hstep
  obtain ⟨hsource, haccount⟩ := hown last (List.mem_of_getLast? hlast)
  refine ⟨?_, ?_, fun other hne => ⟨?_, fun hsized => cursor_after_still db ?_⟩⟩
  · rw [seen_after]
    exact congrArg _ (arrivals_ingest hown hlen)
  · rw [Shared.cursor, Shared.events_after, Signal.movedTo]
    exact congrArg (Option.map _) (Signal.lastMoved_ingest hlast hlen hsource haccount _)
  · rw [seen_after, arrivals_eq_nil, List.map_nil, List.append_nil]
    intro input admission hmem _ heq
    obtain ⟨input', hi, ⟨admission', harrival⟩ | hmoved⟩ := Signal.mem_events_ingest hmem
    · cases harrival
      exact hne (workstationAuthority_injective (heq.symm.trans (hown input hi).2))
    · cases hmoved
  · refine Signal.still_of_ne hC (Signal.movesSized_of_step hrun hstep) (by decide) hsized ?_
    intro source account cursor gap hmem _ heq
    obtain ⟨input', hi, ⟨admission', harrival⟩ | hmoved⟩ := Signal.mem_events_ingest hmem
    · cases harrival
    · simp only [Signal.Event.moved.injEq] at hmoved
      obtain ⟨-, rfl, -⟩ := hmoved
      exact hne (workstationAuthority_injective (heq.symm.trans (hown input' hi).2))

theorem advanced (hC : P.CollisionFree) (hrun : Run (Signal.Step P) .empty s.calls s.db)
    {cursor : String} {gap : Bool} {now : Instant} {checkpoint : SignalCursorCheckpoint} {db : Inbox}
    (hstep : Signal.Step P s.db ⟨.advanceCursor sourceId (workstationAuthority environmentId) cursor
      gap now, .ok (.checkpoint checkpoint)⟩ db) :
    let t := s.after ⟨.advanceCursor sourceId (workstationAuthority environmentId) cursor gap now,
      .ok (.checkpoint checkpoint)⟩ db
    (∀ other, t.seen other = s.seen other) ∧ t.cursor P environmentId = some cursor ∧
      ∀ other, other ≠ environmentId → Sized other → t.cursor P other = s.cursor P other := by
  intro t
  refine ⟨fun other => ?_, ?_, fun other hne hsized => cursor_after_still db ?_⟩
  · rw [seen_after]
    exact List.append_nil _
  · rw [Shared.cursor, Shared.events_after]
    exact (Signal.movedTo_append_moved _ _ _ _ gap).trans (if_pos rfl)
  · refine Signal.still_of_ne hC (Signal.movesSized_of_step hrun hstep) (by decide) hsized ?_
    intro source account cursor' gap' hmem _ heq
    simp only [Signal.Call.events, List.mem_singleton, Signal.Event.moved.injEq] at hmem
    obtain ⟨-, rfl, -⟩ := hmem
    exact hne (workstationAuthority_injective heq.symm)

theorem Invariant.failed (hs : Invariant P start s) (op : Signal.Op) (error : String) :
    Invariant P start (s.after ⟨op, .error error⟩ s.db) := by
  have hevents : Signal.Call.events ⟨op, .error error⟩ = [] := by cases op <;> rfl
  refine hs.called (.failed _ op error) (by simp [Spares, hevents]) (by simp [hevents])
    fun other hsized => ?_
  rw [seen_after, cursor_after_still s.db (by simp [Signal.Still, hevents]), hevents]
  simpa [arrivals] using hs.delivered other hsized

theorem Invariant.effect (hC : P.CollisionFree) {r : Request} {a : Answer r}
    (hs : Invariant P start s) (hallowed : Allowed P r s) (h : effect P r s a t) :
    Invariant P start t := by
  cases r with
  | ingestBatch inputs =>
    obtain ⟨environmentId, last, hown, hlast, hdelivers⟩ := hallowed
    obtain ⟨now, db, hstep, rfl⟩ := h
    cases a with
    | error error =>
      cases hstep
      exact hs.failed _ error
    | ok admissions =>
      obtain ⟨hseen, hcursor, hothers⟩ := ingested hC hs.run hown hlast hstep
      show Invariant P start (s.after ⟨.ingestBatch inputs now, .ok (.admissions admissions)⟩ db)
      refine hs.called hstep (fun other hmem => ?_) (fun input admission hmem _ => ?_)
        fun other hsized => ?_
      · obtain ⟨input, hi, ⟨admission, harrival⟩ | hmoved⟩ := Signal.mem_events_ingest hmem
        · cases harrival
        · cases hmoved
      · obtain ⟨input', hi, ⟨admission', harrival⟩ | hmoved⟩ := Signal.mem_events_ingest hmem
        · cases harrival
          exact ⟨environmentId, (hown input hi).2⟩
        · cases hmoved
      · by_cases heq : other = environmentId
        · subst heq
          rw [hseen, hcursor]
          exact (hs.delivered other hsized).delivers hdelivers
        · rw [(hothers other heq).1, (hothers other heq).2 hsized]
          exact hs.delivered other hsized
  | advanceCursor environmentId cursor gap =>
    obtain ⟨now, db, hstep, rfl⟩ := h
    cases a with
    | error error =>
      cases hstep
      exact hs.failed _ error
    | ok checkpoint =>
      obtain ⟨hseen, hcursor, hothers⟩ := advanced hC hs.run hstep
      show Invariant P start (s.after ⟨.advanceCursor sourceId (workstationAuthority environmentId)
        cursor gap now, .ok (.checkpoint checkpoint)⟩ db)
      refine hs.called hstep (by simp [Spares, Signal.Call.events]) (by simp [Signal.Call.events]) fun other hsized => ?_
      rw [hseen]
      by_cases heq : other = environmentId
      · subst heq
        rw [hcursor, ← List.append_nil (s.seen other)]
        exact (hs.delivered other hsized).delivers hallowed
      · rw [hothers other heq hsized]
        exact hs.delivered other hsized
  | cursor | appEventsPoll =>
    obtain ⟨rfl, -⟩ := h
    exact hs
  | activeEnvironmentIds | stopped | requireLiveEnvironment | now =>
    cases h
    exact hs

end Contract

def contract (hC : P.CollisionFree) (start : String → Option String) : Contract Answer Shared where
  effect := effect P
  inv := Invariant P start
  later := Later P
  allowed := Allowed P
  refl := .refl
  trans := .trans
  sound := fun hs hallowed h => hs.effect hC hallowed h

end Wiii.Neko.AppEvents.Delivery
