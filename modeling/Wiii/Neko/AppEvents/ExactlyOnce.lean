import Wiii.Neko.AppEvents.Progress

/-!
# Every event once, or a gap

What the client polls goes on from where its cursor stands (`Fresh`), so it keeps to the contract
(`safe_syncActiveAppEvents`).  In every run the signals of an environment follow its history, in order
(`events_delivered_once`).  A client without a cursor starts with the epoch that it first polls (`first_poll_misses`).
-/

namespace Wiii.Neko.AppEvents.Delivery

open Signal (Platform Inbox SignalIngress SignalAdmission SignalCursorCheckpoint reference)
open Signal.reference (clock)
open Dialog

variable {P : Platform} {environmentId : String} {s t : Shared} {start : String → Option String}

/-! ## What is polled -/

def GoesOn (P : Platform) (environmentId : String) (inputs : List SignalIngress) (cursor : String)
    (s : Shared) : Prop :=
  Own environmentId inputs ∧ Delivers P environmentId (s.histories environmentId)
    (s.seen environmentId) (s.cursor P environmentId) inputs cursor

theorem GoesOn.later {inputs : List SignalIngress} {cursor : String} (hsized : Sized environmentId)
    (h : GoesOn P environmentId inputs cursor s) (hst : Later P s t) :
    GoesOn P environmentId inputs cursor t := by
  refine ⟨h.1, ?_⟩
  rw [hst.seen, hst.cursor environmentId hsized]
  exact h.2.continues (hst.histories environmentId)

structure Fresh (P : Platform) (environmentId : String) (batch : WatcherBatch) (s : Shared) : Prop where
  events : (batch.gapDetected = true → batch.events ≠ []) → ∀ inputs,
    List.Forall₂ (OfEvent P environmentId batch.gapDetected) batch.events inputs →
      GoesOn P environmentId inputs batch.cursor s
  gap : batch.gapDetected = true → batch.events = [] → ∀ now,
    GoesOn P environmentId [gapInput P environmentId batch.cursor now] batch.cursor s

theorem own_of_ofEvent {gapDetected : Bool} {events : List AppEventSignal}
    {inputs : List SignalIngress}
    (h : List.Forall₂ (OfEvent P environmentId gapDetected) events inputs) :
    Own environmentId inputs := by
  induction h with
  | nil => simp [Own]
  | cons hi _ ih => exact List.forall_mem_cons.2 ⟨⟨hi.fields.1, hi.fields.2.1⟩, ih⟩

theorem fresh_of_poll (hs : Invariant P start s) (hsized : Sized environmentId) {b : Bridge}
    (hb : s.bridges environmentId = some b) {limit waitMs : ℕ} {batch : WatcherBatch}
    (hpoll : b.pollAppEvents ⟨environmentId, s.cursor P environmentId, limit, waitMs⟩ = .ok batch) :
    Fresh P environmentId batch s := by
  obtain ⟨past, signals, hhistory, hmirrors⟩ := hs.current environmentId b hb
  obtain ⟨first, hpage⟩ := hmirrors.pollAppEvents hpoll
  have hd := hs.delivered environmentId hsized
  have hlast : (s.histories environmentId)[past.length]? = some ⟨b.epoch, signals⟩ := by
    rw [hhistory]
    simp
  have hlength : (s.histories environmentId).length = past.length + 1 := by
    rw [hhistory]
    simp
  have hwell := hs.wellFormed environmentId
  exact ⟨fun hne inputs hinputs => ⟨own_of_ofEvent hinputs,
    page_delivers hpage hlast hlength hwell hd.ordered hd.reached hinputs hne⟩,
    fun hgap hnil now => ⟨by simp [Own, gapInput],
      gap_delivers hpage hlast hlength hwell hd.ordered hd.reached hgap hnil now⟩⟩

theorem sized_of_cursor {db : Inbox} {answer : Option SignalCursorCheckpoint}
    (h : Signal.SignalInbox.cursor P sourceId (workstationAuthority environmentId) db = .ok answer) :
    Sized environmentId := by
  obtain ⟨-, h⟩ := bind_unit_ok_iff.1 h
  obtain ⟨ha, -⟩ := bind_unit_ok_iff.1 h
  exact Signal.size_of_boundedIdentifier ha

/-- What the inbox answers for the cursor of an environment is where the client left it. -/
theorem Invariant.cursor_eq (hC : P.CollisionFree) (hD : P.Decrypts) (hs : Invariant P start s)
    {answer : Option SignalCursorCheckpoint}
    (h : Signal.SignalInbox.cursor P sourceId (workstationAuthority environmentId) s.db = .ok answer) :
    answer.map SignalCursorCheckpoint.sourceCursor = s.cursor P environmentId :=
  Signal.cursor_eq_movedTo hC hD hs.run (hs.spares environmentId) h

/-! ## The client -/

section Client

variable (hC : P.CollisionFree) (start)

theorem safe_pageInputs {batch : WatcherBatch} (hsized : Sized environmentId)
    (h : Fresh P environmentId batch s) :
    Safe (contract hC start) (fun inputs t => GoesOn P environmentId inputs batch.cursor t)
      (pageInputs P environmentId batch) s := by
  refine safe_ofExcept_bind fun inputs hinputs => ?_
  have hall := forall₂_eventInputs hinputs
  split_ifs with hgap
  · rw [Bool.and_eq_true, List.isEmpty_iff] at hgap
    obtain ⟨hgap, rfl⟩ := hgap
    have hnil := List.forall₂_nil_right_iff.1 hall
    exact safe_request_bind fun t hst _ => ⟨trivial, fun now u hu _ => by
      cases hu
      exact safe_pure fun v huv _ => (h.gap hgap hnil now).later hsized (hst.trans huv)⟩
  · refine safe_pure fun t hst _ => (h.events (fun hg hnil => hgap ?_) inputs hall).later hsized hst
    rw [hnil] at hall
    rw [hg, List.forall₂_nil_left_iff.1 hall]
    rfl

theorem safe_handIn {batch : WatcherBatch} {inputs : List SignalIngress} (hsized : Sized environmentId)
    (h : GoesOn P environmentId inputs batch.cursor s) :
    Safe (contract hC start) (fun _ t => t.cursor P environmentId = some batch.cursor)
      (handIn environmentId batch inputs) s := by
  unfold handIn
  split_ifs with hempty hlast
  · rw [List.isEmpty_iff.1 hempty] at h
    refine safe_request_bind fun t hst ht => ⟨(h.later hsized hst).2, fun a u hu _ => ?_⟩
    refine safe_ofExcept_bind fun checkpoint hchecked => ?_
    subst hchecked
    obtain ⟨now, db, hstep, rfl⟩ := hu
    obtain ⟨-, hcursor, -⟩ := advanced hC ht.run hstep
    exact safe_pure fun v huv _ => (huv.cursor environmentId hsized).trans hcursor
  · exact safe_fail _
  · rw [List.isEmpty_iff] at hempty
    obtain ⟨last, hlast'⟩ := Option.isSome_iff_exists.1 (List.getLast?_isSome.2 hempty)
    rw [not_not, hlast', Option.map_some, Option.getD_some] at hlast
    rw [← hlast] at h
    refine safe_request_bind fun t hst ht => ?_
    have hnow := h.later hsized hst
    refine ⟨⟨environmentId, last, hnow.1, hlast', hnow.2⟩, fun a u hu _ => ?_⟩
    cases a with
    | error error => exact safe_fail error
    | ok admissions =>
      obtain ⟨now, db, hstep, rfl⟩ := hu
      obtain ⟨-, hcursor, -⟩ := ingested hC ht.run hnow.1 hlast' hstep
      rw [hlast] at hcursor
      exact safe_pure fun v huv _ => (huv.cursor environmentId hsized).trans hcursor

theorem safe_materialize {batch : WatcherBatch} (hsized : Sized environmentId)
    (h : Fresh P environmentId batch s) :
    Safe (contract hC start) (fun _ t => t.cursor P environmentId = some batch.cursor)
      (materialize P environmentId batch) s := by
  refine Safe.bind ((safe_pageInputs start hC hsized h).mono fun inputs t _ hgoes => ?_)
  refine Safe.bind ((safe_handIn start hC hsized hgoes).mono fun admissions u _ hcursor => ?_)
  exact safe_pure fun v huv _ => (huv.cursor environmentId hsized).trans hcursor

theorem safe_syncPages (hsized : Sized environmentId) (wait : ℕ) {pageIndices : List ℕ}
    {c : Option String} (hc : s.cursor P environmentId = c) :
    Safe (contract hC start) (fun _ _ => True)
      (syncPages P environmentId wait pageIndices c) s := by
  induction pageIndices generalizing s c with
  | nil => exact safe_pure fun _ _ _ => trivial
  | cons pageIndex pageIndices ih =>
    refine safe_request_bind fun t hst ht => ⟨trivial, fun a u hu hinv => ?_⟩
    obtain ⟨rfl, hanswer⟩ := hu
    refine safe_ofExcept_bind fun batch hbatch => ?_
    obtain ⟨-, b, hb, hpoll⟩ := hanswer batch hbatch
    rw [← hc, ← hst.cursor environmentId hsized] at hpoll
    refine Safe.bind ((safe_materialize start hC hsized (fresh_of_poll ht hsized hb hpoll)).mono
      fun _ v _ hcursor => ?_)
    split_ifs
    · exact safe_pure fun _ _ _ => trivial
    · exact ih hcursor

theorem safe_syncEnvironments (hD : P.Decrypts) (perEnvironmentWait waitRemainder : ℕ)
    {environmentIds : List String} (index : ℕ) (active : Bool) :
    Safe (contract hC start) (fun _ _ => True)
      (syncEnvironments P perEnvironmentWait waitRemainder environmentIds index active) s := by
  induction environmentIds generalizing s index active with
  | nil => exact safe_pure fun _ _ _ => trivial
  | cons environmentId environmentIds ih =>
    refine safe_request_bind fun t hst ht => ⟨trivial, fun stopped u hu _ => ?_⟩
    cases hu
    by_cases hstopped : stopped = true
    · rw [if_pos hstopped]
      exact safe_pure fun _ _ _ => trivial
    · rw [if_neg hstopped]
      refine safe_request_bind fun u htu hu => ⟨trivial, fun a v hv _ => ?_⟩
      cases hv
      refine safe_ofExcept_bind fun state _ => ?_
      by_cases hready : state ≠ .ready
      · rw [if_pos hready]
        exact ih _ _
      · rw [if_neg hready]
        refine safe_request_bind fun w huw hw => ⟨trivial, fun answer x hx _ => ?_⟩
        obtain ⟨rfl, hanswer⟩ := hx
        refine safe_ofExcept_bind fun checkpoint hcheckpoint => ?_
        have hcursor := (hanswer.resolve_right (by simp [hcheckpoint])).symm.trans hcheckpoint
        exact Safe.bind ((safe_syncPages start hC (sized_of_cursor hcursor) _
          (hw.cursor_eq hC hD hcursor).symm).mono fun _ _ _ _ => ih _ _)

theorem safe_syncActiveAppEvents (hD : P.Decrypts) (waitMs : ℕ) :
    Safe (contract hC start) (fun _ _ => True) (syncActiveAppEvents P waitMs) s := by
  refine safe_request_bind fun t hst ht => ⟨trivial, fun a u hu _ => ?_⟩
  refine safe_ofExcept_bind fun environmentIds _ => ?_
  split_ifs
  · exact safe_pure fun _ _ _ => trivial
  · exact safe_syncEnvironments start hC hD _ _ _ _

end Client

/-! ## Every run -/

theorem Invariant.sized (hs : Invariant P start s) {input : SignalIngress}
    {admission : SignalAdmission} (h : .arrival input admission ∈ s.events)
    (haccount : input.accountGrantRef = workstationAuthority environmentId) :
    Sized environmentId := by
  have := (Signal.sized_of_validateIngress (Signal.valid_of_arrival hs.run h)).accountGrantRef
  rwa [haccount] at this

theorem Invariant.not_deduplicated (hC : P.CollisionFree) (hs : Invariant P start s)
    {x : SignalIngress × SignalAdmission} (hx : x ∈ arrivals environmentId s.events) :
    x.2.outcome ≠ .deduplicated := by
  intro hd
  obtain ⟨hmem, hsource, haccount⟩ := mem_arrivals.1 hx
  obtain ⟨pre, post, hsplit⟩ := List.append_of_mem hmem
  obtain ⟨input', hlast, hsource', hkey⟩ := Signal.droppedKnown_of_run hC hs.run pre x.1 x.2
    ⟨post, by
      rw [List.append_assoc]
      exact hsplit.symm⟩ hd
  obtain ⟨event, hevent, hadmits⟩ := List.mem_filterMap.1 (List.mem_of_getLast? hlast)
  obtain ⟨admission', rfl, -, -⟩ := Signal.admitsKey_eq_some_iff.1 hadmits
  have hmem' : .arrival input' admission' ∈ s.events := by
    rw [hsplit]
    exact List.mem_append_left _ hevent
  obtain ⟨other, haccount'⟩ := hs.own input' admission' hmem' (hsource'.trans hsource)
  have hseen : x.1 ∈ s.seen environmentId := List.mem_map_of_mem hx
  have hseen' : input' ∈ s.seen other :=
    mem_map_arrivals hmem' (hsource'.trans hsource) haccount'
  have hdelivered := hs.delivered environmentId (hs.sized hmem haccount)
  have hdelivered' := hs.delivered other (hs.sized hmem' haccount')
  have hwell := hs.wellFormed environmentId
  have hwell' := hs.wellFormed other
  obtain ⟨epoch, he, n, hkeyed⟩ := hdelivered.follows.keyed hwell hseen
  obtain ⟨epoch', he', n', hkeyed'⟩ := hdelivered'.follows.keyed hwell' hseen'
  obtain ⟨hname, hn⟩ := hkeyed.unique hkeyed' (hwell.isEpoch epoch he) (hwell'.isEpoch epoch' he')
    hkey.symm
  by_cases heq : environmentId = other
  · subst heq
    refine not_before_of_sourceCursor_eq hwell ?_ (x := input') (y := x.1) ?_
    · rw [hkeyed.1, hkeyed'.1, hname, hn]
    · have hordered := hdelivered.ordered
      rw [Shared.seen, hsplit, arrivals_append, List.map_append, List.pairwise_append] at hordered
      exact hordered.2.2 input' (mem_map_arrivals hevent (hsource'.trans hsource) haccount') x.1
        (mem_map_arrivals (List.mem_cons_self ..) hsource haccount)
  · exact hs.apart environmentId other heq epoch he epoch' he' hname

/-! ## Computed answers -/

/-- The answer to a request: one workstation is active and ready, and nothing fails. -/
def respond (P : Platform) (now : Instant) : (r : Request) → Shared → Option (Answer r × Shared)
  | .activeEnvironmentIds, s => some (.ok ["w"], s)
  | .stopped, s => some (false, s)
  | .requireLiveEnvironment _, s => some (.ok .ready, s)
  | .cursor environmentId, s =>
    some (Signal.SignalInbox.cursor P sourceId (workstationAuthority environmentId) s.db, s)
  | .appEventsPoll environmentId afterCursor limit waitMs, s =>
    match checkPoll afterCursor limit waitMs, s.bridges environmentId with
    | .ok (), some b => some (b.pollAppEvents ⟨environmentId, afterCursor, limit, waitMs⟩, s)
    | _, _ => none
  | .now, s => some (now, s)
  | .ingestBatch inputs, s =>
    match (Signal.Op.ingestBatch inputs now).apply P s.db with
    | .ok (.admissions admissions, db) => some (.ok admissions,
      s.after ⟨.ingestBatch inputs now, .ok (.admissions admissions)⟩ db)
    | _ => none
  | .advanceCursor environmentId sourceCursor gapDetected, s =>
    let op := Signal.Op.advanceCursor sourceId (workstationAuthority environmentId) sourceCursor gapDetected
      now
    match op.apply P s.db with
    | .ok (.checkpoint checkpoint, db) => some (.ok checkpoint,
      s.after ⟨op, .ok (.checkpoint checkpoint)⟩ db)
    | _ => none

theorem effect_respond (now : Instant) (r : Request) (s : Shared) (a : Answer r) (t : Shared)
    (h : respond P now r s = some (a, t)) : effect P r s a t := by
  cases r with
  | activeEnvironmentIds | stopped | requireLiveEnvironment | now =>
    obtain ⟨rfl, rfl⟩ := Prod.mk.inj (Option.some.inj h)
    rfl
  | cursor environmentId =>
    obtain ⟨rfl, rfl⟩ := Prod.mk.inj (Option.some.inj h)
    exact ⟨rfl, .inl rfl⟩
  | appEventsPoll environmentId afterCursor limit waitMs =>
    dsimp only [respond] at h
    split at h
    · rename_i b hcheck hb
      obtain ⟨rfl, rfl⟩ := Prod.mk.inj (Option.some.inj h)
      exact ⟨rfl, fun batch hbatch => ⟨hcheck, b, hb, hbatch⟩⟩
    · cases h
  | ingestBatch inputs =>
    dsimp only [respond] at h
    split at h
    · rename_i admissions db happly
      obtain ⟨rfl, rfl⟩ := Prod.mk.inj (Option.some.inj h)
      exact ⟨now, db, .committed happly, rfl⟩
    · cases h
  | advanceCursor environmentId cursor gap =>
    dsimp only [respond] at h
    split at h
    · rename_i checkpoint db happly
      obtain ⟨rfl, rfl⟩ := Prod.mk.inj (Option.some.inj h)
      exact ⟨now, db, .committed happly, rfl⟩
    · cases h

def Shared.nothing : Shared := ⟨.empty, [], fun _ => none, fun _ => []⟩

theorem initial_nothing (P : Platform) : Initial P .nothing where
  run := .nil _
  spares := by simp [Spares, Shared.events, Shared.nothing, Signal.trace]
  unseen := by simp [Shared.events, Shared.nothing, Signal.trace]
  bridges := fun _ => rfl
  histories := fun _ => rfl

def edited : AccessibilityEvent where
  launcher := some ⟨"writer", "app:writer"⟩
  type := "object:text-changed:insert"
  now := clock 8 0 0

def firstEpoch : String := "0123456789abcdef"
def secondEpoch : String := "fedcba9876543210"

def started (name : String) (s : Shared) : Shared :=
  { s with
    bridges := Function.update s.bridges "w" (some (Bridge.start name))
    histories := Function.update s.histories "w" (s.histories "w" ++ [⟨name, []⟩]) }

def oneRecorded : Shared :=
  let s := started firstEpoch .nothing
  let b := Bridge.start firstEpoch
  { s with
    bridges := Function.update s.bridges "w" (some (b.recordAppEvent edited))
    histories := Function.update s.histories "w"
      (History.record (b.recorded edited).toList (s.histories "w")) }

theorem run_oneRecorded (P : Platform) :
    ∃ es, Run (Step P) ⟨.nothing, none⟩ es ⟨oneRecorded, none⟩ := by
  have hb : (started firstEpoch .nothing).bridges "w" = some (Bridge.start firstEpoch) := by
    simp [started]
  exact ⟨_, .cons (.other none (.start .nothing "w" (by decide) (by simp [Shared.nothing])))
    (.cons (.other none (.record hb edited)) (.nil _))⟩

theorem name_oneRecorded {other : String} {epoch : Epoch} (h : epoch ∈ oneRecorded.histories other) :
    epoch.name = firstEpoch := by
  by_cases hw : other = "w"
  · subst hw
    simp [oneRecorded, started, Shared.nothing, History.record] at h
    rw [h]
  · simp [oneRecorded, started, Shared.nothing, hw] at h

def synced (s : Shared) : Option (Sync Bool × Shared) :=
  Solo.turns (respond reference) (List.replicate 6 (clock 8 0 1)) (syncActiveAppEvents reference 1000) s

theorem run_synced {s t : Shared} {d : Sync Bool} (h : synced s = some (d, t)) :
    ∃ es, Run (Step reference) ⟨s, none⟩ es ⟨t, some d⟩ := by
  obtain ⟨es, hrun⟩ : ∃ es, Run (Step reference)
      ⟨s, some (syncActiveAppEvents reference 1000)⟩ es ⟨t, some d⟩ :=
    Solo.run_turns effect_respond h
  exact ⟨_, .cons (.start s _ ⟨1000, rfl⟩) hrun⟩

/-! ## Runs of the system -/

/-- In every run the signals of each environment follow its history from the first cursor to the last: in order, each
the next event or a gap, and none dropped as a duplicate. -/
theorem events_delivered_once (hC : P.CollisionFree) (hD : P.Decrypts) {s₀ : Shared}
    {es : List (PoolEvent Answer)} {p : Solo Answer String Bool Shared} (initial : Initial P s₀)
    (hrun : Run (Step P) ⟨s₀, none⟩ es p) (environmentId : String) :
    (∀ x ∈ arrivals environmentId p.shared.events, x.2.outcome ≠ .deduplicated) ∧
      (p.shared.seen environmentId).Pairwise (Before (p.shared.histories environmentId)) ∧
      ∃ c, Follows P environmentId (p.shared.histories environmentId) (s₀.cursor P environmentId)
          (p.shared.seen environmentId) c ∧
        ∀ answer, Signal.SignalInbox.cursor P sourceId (workstationAuthority environmentId)
          p.shared.db = .ok answer → answer.map SignalCursorCheckpoint.sourceCursor = c := by
  have hs : Invariant P (fun e => s₀.cursor P e) p.shared := by
    refine (Solo.sound (c := contract hC fun e => s₀.cursor P e) ?_ (fun s t hs hf => hs.foreign hC hf)
      (invariant_initial initial) hrun).inv
    rintro d ⟨waitMs, rfl⟩ s -
    exact safe_syncActiveAppEvents _ hC hD waitMs
  refine ⟨fun x hx => hs.not_deduplicated hC hx, ?_⟩
  by_cases hsized : Sized environmentId
  · have hd := hs.delivered environmentId hsized
    exact ⟨hd.ordered, _, hd.follows, fun answer h => hs.cursor_eq hC hD h⟩
  · have hseen : p.shared.seen environmentId = [] := by
      rw [Shared.seen, arrivals_eq_nil fun input admission hmem _ haccount =>
        hsized (hs.sized hmem haccount)]
      rfl
    rw [hseen]
    exact ⟨.nil, _, .refl _, fun answer h => absurd (sized_of_cursor h) hsized⟩

theorem events_delivered_once_oneRecorded :
    ∃ es p, Run (Step reference) ⟨.nothing, none⟩ es p ∧
      (p.shared.seen "w").map SignalIngress.sourceCursor = ["atspi:0123456789abcdef:1"] ∧
      (∀ x ∈ arrivals "w" p.shared.events, x.2.outcome ≠ .deduplicated) ∧
      (p.shared.seen "w").Pairwise (Before (p.shared.histories "w")) ∧
      ∃ c, Follows reference "w" (p.shared.histories "w") none (p.shared.seen "w") c ∧
        ∀ answer, Signal.SignalInbox.cursor reference sourceId (workstationAuthority "w")
          p.shared.db = .ok answer → answer.map SignalCursorCheckpoint.sourceCursor = c := by
  have hseen : (synced oneRecorded).map (fun q => (q.2.seen "w").map SignalIngress.sourceCursor) =
      some ["atspi:0123456789abcdef:1"] := by
    decide +kernel
  obtain ⟨⟨d, t⟩, hsynced, hseen⟩ := Option.map_eq_some_iff.1 hseen
  obtain ⟨es, hrecorded⟩ := run_oneRecorded reference
  obtain ⟨es', hrun⟩ := run_synced hsynced
  exact ⟨_, _, hrecorded.append hrun, hseen, events_delivered_once reference.collisionFree
    reference.decrypts (initial_nothing reference) (hrecorded.append hrun) "w"⟩

/-- The bridge starts anew before the first poll, and the client goes on without a gap. -/
theorem first_poll_misses :
    ∃ es p, Run (Step reference) ⟨.nothing, none⟩ es p ∧
      (p.shared.histories "w").map (fun epoch => (epoch.name, epoch.events.length)) =
        [(firstEpoch, 1), (secondEpoch, 0)] ∧
      p.shared.events = [.moved sourceId (workstationAuthority "w")
        (appEventCursor secondEpoch 0) false] := by
  have hsync : (synced (started secondEpoch oneRecorded)).map (fun q =>
      ((q.2.histories "w").map fun epoch => (epoch.name, epoch.events.length), q.2.events)) =
        some ([(firstEpoch, 1), (secondEpoch, 0)], [.moved sourceId (workstationAuthority "w")
          (appEventCursor secondEpoch 0) false]) := by
    decide +kernel
  obtain ⟨⟨d, t⟩, hsynced, hstate⟩ := Option.map_eq_some_iff.1 hsync
  obtain ⟨hhistories, hevents⟩ := Prod.mk.inj hstate
  obtain ⟨es, hrecorded⟩ := run_oneRecorded reference
  obtain ⟨es', hrun⟩ := run_synced hsynced
  have hstarted : Step reference ⟨oneRecorded, none⟩ .foreign
      ⟨started secondEpoch oneRecorded, none⟩ := by
    refine .other none (.start oneRecorded "w" (by decide) fun other epoch he => ?_)
    rw [name_oneRecorded he]
    decide
  exact ⟨_, _, hrecorded.append (.cons hstarted hrun), hhistories, hevents⟩

end Wiii.Neko.AppEvents.Delivery
