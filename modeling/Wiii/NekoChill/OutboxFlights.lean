import Wiii.NekoChill.OutboxKeeping

/-!
# Dispatches and restarts keep the outbox

The steps of a dispatch outside its transactions, and the hydration after a restart, keep the invariant; so
every run does (`kept_of_run`).
-/

namespace Wiii.NekoChill

open Function (update update_self update_of_ne)

namespace Outbox

section

variable {o o' : Outbox} {txn : Txn} {rest : List Txn} {sessionId : String} {next : OutboxSnapshot}
variable {flights : String → Option Phase}

theorem mark_mono {f : String → ℕ → Bool} {s s' : String} {id id' : ℕ} (h : f s' id' = true) :
    update f s (update (f s) id true) s' id' = true := by
  by_cases hs : s' = s
  · subst hs
    by_cases hid : id' = id
    · rw [update_self, hid, update_self]
    · rw [update_self, update_of_ne hid, h]
  · rw [update_of_ne hs, h]

theorem mark_self (f : String → ℕ → Bool) (s : String) (id : ℕ) : update f s (update (f s) id true) s id = true := by
  rw [update_self, update_self]

/-! ## A dispatch goes on -/

theorem Kept.move (h : o.Kept) {disk : OutboxSnapshot} {hydrating : Option OutboxSnapshot} {blocked : String → Bool}
    {error : Option String} {resumes : ℕ → Option ResumeCall} {nextCall : ℕ} (hdisk : o.Sound o.tail disk)
    (hhydrating : ∀ next, hydrating = some next → o.Hydrating next)
    (hcalled : ∀ s, (flights s).any Phase.isCalled = (o.inFlight s).any Phase.isCalled)
    (hflight : ∀ s phase, flights s = some phase → o.Flight s phase ∧ disk = o.disk)
    (hlanded : ∀ s, o.restored s = true → flights s = none) : Kept { o with
      disk := disk, hydrating := hydrating, blocked := blocked, error := error, resumes := resumes
      nextCall := nextCall, inFlight := flights } := by
  have hsame : SameLedger o { o with
    disk := disk, hydrating := hydrating, blocked := blocked, error := error, resumes := resumes
    nextCall := nextCall, inFlight := flights } := ⟨rfl, rfl, rfl, rfl, rfl⟩
  refine ⟨fun other hother => ?_, fun other hother => ?_, hdisk.same hsame, fun hready => (h.snapshot hready).same hsame,
    h.awaited, h.accepted, h.sent, h.inOrder, h.removed, fun s => ?_, fun s phase hphase => ?_, fun s hs => ?_⟩
  · have hrunning := h.running other hother
    exact ⟨hrunning.ready, hrunning.tail, hrunning.sound.same hsame, hrunning.derived⟩
  · have hnext := hhydrating other hother
    exact ⟨hnext.ready, hnext.sound.same hsame, hnext.paused⟩
  · show o.tail.count _ = if (flights s).any Phase.isCalled then 1 else 0
    rw [hcalled, h.called]
  · obtain ⟨hold, rfl⟩ := hflight s phase hphase
    exact ⟨hold.ready, hold.accepted, hold.waiting, hold.held⟩
  · have hquiet := h.restored s hs
    exact ⟨hlanded s hs, hquiet.paused, hquiet.running⟩

theorem Kept.advance (h : o.Kept)
    (hcalled : ∀ s, (flights s).any Phase.isCalled = (o.inFlight s).any Phase.isCalled)
    (hflight : ∀ s phase, flights s = some phase → o.Flight s phase)
    (hlanded : ∀ s, o.restored s = true → flights s = none) : Kept { o with inFlight := flights } :=
  h.move h.disk h.hydrating hcalled (fun s phase hphase => ⟨hflight s phase hphase, rfl⟩) hlanded

theorem Kept.frame (h : o.Kept) {blocked : String → Bool} {error : Option String} {resumes : ℕ → Option ResumeCall}
    {nextCall : ℕ} :
    Kept { o with blocked := blocked, error := error, resumes := resumes, nextCall := nextCall } :=
  h.move h.disk h.hydrating (fun _ => rfl) (fun s phase hphase => ⟨h.flight s phase hphase, rfl⟩)
    fun s hs => (h.restored s hs).landed

theorem Kept.not_isOwn (h : o.Kept) (hcalled : (o.inFlight sessionId).any Phase.isCalled = false) :
    ¬ o.IsOwn sessionId := by
  intro hown
  obtain ⟨rest, htail⟩ := List.head?_eq_some_iff.1 hown
  obtain ⟨phase, hphase, hcalled', -⟩ := h.called_head htail
  rw [hphase, Option.any_some, hcalled'] at hcalled
  cases hcalled

/-- Between its transactions the message is marked in every copy. -/
structure HeldInAll (o : Outbox) (sessionId : String) (item : OutboxItem) (text : JsText) : Prop where
  ready : o.ready = true
  disk : Held o.disk sessionId item text
  snapshot : Held o.snapshot sessionId item text
  running : ∀ next, o.running = some next → Held next sessionId item text

theorem Kept.heldInAll (h : o.Kept) {phase : Phase} (hphase : o.inFlight sessionId = some phase)
    (hheld : phase.isHeld = true) (hcalled : phase.isCalled = false) :
    ∃ text, o.HeldInAll sessionId phase.item text := by
  have hflight := h.flight sessionId phase hphase
  obtain ⟨text, hdisk, hsnapshot, hrunning⟩ := hflight.held hheld
  have hforeign : ¬ o.IsOwn sessionId := h.not_isOwn (by rw [hphase, Option.any_some, hcalled])
  exact ⟨text, hflight.ready, hdisk, hsnapshot, fun next hnext => hrunning next hnext hforeign⟩

theorem Held.least {c : OutboxSnapshot} {item d : OutboxItem} {text : JsText} (h : Held c sessionId item text)
    (hok : c.Ok)
    (hd : d ∈ c.items sessionId) : item.id ≤ d.id ∧ (d.id = item.id → d.state = .delivering) := by
  obtain ⟨rest, hitems⟩ := h
  have hsorted := hok sessionId
  rw [hitems] at hd hsorted
  refine ⟨hsorted.head_le d hd, fun heq => ?_⟩
  rw [hsorted.eq_of_id hd List.mem_cons_self heq]

theorem HeldInAll.kept {item : OutboxItem} {text : JsText} (hall : o.HeldInAll sessionId item text) (h : o.Kept)
    {sends : List Sent} {accepted : String → ℕ → Bool}
    (hsound : ∀ c txns, Held c sessionId item text → o.Sound txns c →
      Sound { o with sends := sends, accepted := accepted, inFlight := flights } txns c)
    (haccepted : ∀ s id, accepted s id = true → ∀ id' ∈ o.awaited o.tail, id < id')
    (hsent : ∀ sent ∈ sends, ∀ id ∈ o.awaited o.tail, sent.item.id < id)
    (hinOrder : sends.Pairwise fun x y => x.sessionId = y.sessionId → x.item.id ≤ y.item.id)
    (hcalled : ∀ s, (flights s).any Phase.isCalled = (o.inFlight s).any Phase.isCalled)
    (hflight : ∀ s phase, flights s = some phase →
      Flight { o with sends := sends, accepted := accepted, inFlight := flights } s phase)
    (hlanded : ∀ s, o.restored s = true → flights s = none) :
    Kept { o with sends := sends, accepted := accepted, inFlight := flights } := by
  refine ⟨fun other hother => ?_, fun other hother => ?_, hsound _ _ hall.disk h.disk,
    fun hready => hsound _ _ hall.snapshot (h.snapshot hready), h.awaited, haccepted, hsent, hinOrder, h.removed,
    fun s => ?_, hflight, fun s hs => ?_⟩
  · have hrunning := h.running other hother
    exact ⟨hrunning.ready, hrunning.tail, hsound _ _ (hall.running other hother) hrunning.sound, hrunning.derived⟩
  · exact absurd (hall.ready.symm.trans (h.hydrating other hother).ready) Bool.noConfusion
  · show o.tail.count _ = if (flights s).any Phase.isCalled then 1 else 0
    rw [hcalled, h.called]
  · have hquiet := h.restored s hs
    exact ⟨hlanded s hs, hquiet.paused, hquiet.running⟩

theorem any_isCalled_update {phase phase' : Phase} (hphase : o.inFlight sessionId = some phase)
    (hcalled : phase'.isCalled = phase.isCalled) (s : String) :
    (update o.inFlight sessionId (some phase') s).any Phase.isCalled = (o.inFlight s).any Phase.isCalled := by
  by_cases heq : s = sessionId
  · rw [heq, update_self, hphase, Option.any_some, Option.any_some, hcalled]
  · rw [update_of_ne heq]

theorem Kept.landed_update {phase : Phase} {phase' : Option Phase} (h : o.Kept)
    (hphase : o.inFlight sessionId = some phase) {s : String} (hs : o.restored s = true) :
    update o.inFlight sessionId phase' s = none := by
  have hlanded := (h.restored s hs).landed
  have hne : s ≠ sessionId := fun heq => by
    rw [heq, hphase] at hlanded
    cases hlanded
  rw [update_of_ne hne, hlanded]

theorem Kept.send (h : o.Kept) {item durable : OutboxItem}
    (hphase : o.inFlight sessionId = some (.claimed item none))
    (hdurable : findItem item.id (o.snapshot.items sessionId) = some durable) : Kept { o with
      inFlight := update o.inFlight sessionId (some (.sending item false))
      sends := o.sends ++ [⟨sessionId, durable, item.binding⟩] } := by
  obtain ⟨text, hall⟩ : ∃ text, o.HeldInAll sessionId item text := h.heldInAll hphase rfl rfl
  have hsnapshot := h.snapshot hall.ready
  obtain ⟨hmem, hid⟩ := findItem_eq_some hdurable
  have hsends : ∀ {P : Sent → Prop}, (∀ sent ∈ o.sends, P sent) → P ⟨sessionId, durable, item.binding⟩ →
      ∀ sent ∈ o.sends ++ [⟨sessionId, durable, item.binding⟩], P sent := fun hold hnew sent hsent =>
    (List.mem_append.1 hsent).elim (hold sent) fun hlast => List.mem_singleton.1 hlast ▸ hnew
  refine hall.kept h (fun c txns hheld hsound => ⟨hsound.ok, hsound.fresh, hsound.accepted, hsound.kept,
    hsends hsound.sent fun d hd => ?_⟩) h.accepted (hsends h.sent fun id' hid' => hsnapshot.fresh _ durable hmem id' hid')
    ?_ (any_isCalled_update hphase rfl) (fun s phase hs => ?_) fun s hs => h.landed_update hphase hs
  · exact hid ▸ (hheld.least hsound.ok hd).1
  · refine List.pairwise_append.2 ⟨h.inOrder, List.pairwise_singleton _ _, fun old hold new hnew hsession => ?_⟩
    rw [List.mem_singleton.1 hnew] at hsession ⊢
    exact hsnapshot.sent old hold durable (hsession ▸ hmem)
  · by_cases heq : s = sessionId
    · subst heq
      rw [show update o.inFlight s (some (.sending item false)) s = _ from update_self _ _ _, Option.some.injEq] at hs
      subst hs
      have hflight := h.flight s _ hphase
      exact ⟨hflight.ready, hflight.accepted, nofun, fun _ => hflight.held rfl⟩
    · rw [show update o.inFlight sessionId (some (.sending item false)) s = _ from update_of_ne heq _ _] at hs
      have hflight := h.flight s phase hs
      exact ⟨hflight.ready, hflight.accepted, hflight.waiting, hflight.held⟩

theorem Kept.accept (h : o.Kept) {item : OutboxItem} {invoked : Bool}
    (hphase : o.inFlight sessionId = some (.sending item invoked)) : Kept { o with
      inFlight := update o.inFlight sessionId (some (.sending item true))
      accepted := update o.accepted sessionId (update (o.accepted sessionId) item.id true) } := by
  obtain ⟨text, hall⟩ : ∃ text, o.HeldInAll sessionId item text := h.heldInAll hphase rfl rfl
  have haccepted : ∀ {s id}, update o.accepted sessionId (update (o.accepted sessionId) item.id true) s id = true →
      o.accepted s id = true ∨ s = sessionId ∧ id = item.id := fun {s id} hnew => by
    by_cases hs : s = sessionId
    · subst hs
      rw [update_self] at hnew
      by_cases hid : id = item.id
      · exact .inr ⟨rfl, hid⟩
      · rw [update_of_ne hid] at hnew
        exact .inl hnew
    · rw [update_of_ne hs] at hnew
      exact .inl hnew
  refine hall.kept h (fun c txns hheld hsound => ⟨hsound.ok, hsound.fresh, fun s d hd hnew => ?_,
    fun s id hstored hnew hremoved => ?_, hsound.sent⟩) (fun s id hnew id' hid' => ?_) h.sent h.inOrder
    (any_isCalled_update hphase rfl) (fun s phase hs => ?_) fun s hs => h.landed_update hphase hs
  · obtain hold | ⟨rfl, hid⟩ := haccepted hnew
    · exact hsound.accepted s d hd hold
    · rw [(hheld.least hsound.ok hd).2 hid]
      exact nofun
  · refine hsound.kept s id hstored ?_ hremoved
    cases hold : o.accepted s id with
    | false => rfl
    | true => exact (mark_mono hold).symm.trans hnew
  · obtain hold | ⟨rfl, hid⟩ := haccepted hnew
    · exact h.accepted s id hold id' hid'
    · obtain ⟨d, hd, hdid⟩ := hall.disk.mem
      rw [hid, ← hdid]
      exact h.disk.fresh s d hd id' hid'
  · by_cases heq : s = sessionId
    · subst heq
      rw [show update o.inFlight s (some (.sending item true)) s = _ from update_self _ _ _, Option.some.injEq] at hs
      subst hs
      have hflight := h.flight s _ hphase
      refine ⟨hflight.ready, fun invoked hinvoked => ?_, nofun, fun _ => hflight.held rfl⟩
      cases hinvoked
      exact mark_self _ _ _
    · rw [show update o.inFlight sessionId (some (.sending item true)) s = _ from update_of_ne heq _ _] at hs
      have hflight := h.flight s phase hs
      refine ⟨hflight.ready, fun invoked hinvoked => ?_, hflight.waiting, hflight.held⟩
      show update o.accepted sessionId _ s phase.item.id = invoked
      rw [update_of_ne heq]
      exact hflight.accepted invoked hinvoked

/-! ## A dispatch ends -/

theorem Sound.rewrite {c c' : OutboxSnapshot} {txns : List Txn} {own : String → ℕ → Prop} (h : o.Sound txns c)
    (hrewrites : ∀ s, Rewrites (own s) (fun _ => False) (fun _ => False) none (c.items s) (c'.items s)) :
    o.Sound txns c' := by
  have hmem : ∀ s, ∀ e ∈ c'.items s, ∃ d ∈ c.items s, e.id = d.id ∧ (e.state = .queued → d.state = .queued) := by
    intro s e he
    obtain ⟨d, hd, d', hrewrite, hde⟩ | hextra := (hrewrites s).mem he
    · exact ⟨d, hd, hrewrite.id e hde, fun hqueued => (hrewrite.queued e hde hqueued).resolve_right fun hfalse => hfalse⟩
    · cases hextra
  refine ⟨fun s => (hrewrites s).itemsOk (h.ok s) nofun, fun s e he id' hid' => ?_, fun s e he haccepted hqueued => ?_,
    fun s id' hstored haccepted hremoved => ?_, fun sent hsent e he => ?_⟩
  · obtain ⟨d, hd, hid, -⟩ := hmem s e he
    exact hid ▸ h.fresh s d hd id' hid'
  · obtain ⟨d, hd, hid, hstate⟩ := hmem s e he
    exact h.accepted s d hd (hid ▸ haccepted) (hstate hqueued)
  · obtain ⟨d, hd, rfl⟩ := h.kept s id' hstored haccepted hremoved
    exact (hrewrites s).exists_of_mem hd fun hfalse => hfalse
  · obtain ⟨d, hd, hid, -⟩ := hmem _ e he
    exact hid ▸ h.sent sent hsent d hd

theorem Kept.hold (h : o.Kept) (hready : o.ready = true) (hlanded : o.inFlight sessionId = none) (reason : String)
    (id : ℕ) : Kept { o with snapshot := o.snapshot.withHeld sessionId reason id } := by
  have hsame : SameLedger o { o with snapshot := o.snapshot.withHeld sessionId reason id } := ⟨rfl, rfl, rfl, rfl, rfl⟩
  have hrewrites : ∀ s, Rewrites (fun d => s = sessionId ∧ d = id) (fun _ => False) (fun _ => False) none
      (o.snapshot.items s) ((o.snapshot.withHeld sessionId reason id).items s) := fun s =>
    o.snapshot.rewrites_withHeld reason s fun heq => ⟨heq, rfl⟩
  refine ⟨fun other hother => ?_, fun other hother => ?_, h.disk.same hsame,
    fun hready => ((h.snapshot hready).rewrite hrewrites).same hsame, h.awaited, h.accepted, h.sent, h.inOrder, h.removed,
    h.called, fun s phase hphase => ?_, fun s hs => ?_⟩
  · have hrunning := h.running other hother
    refine ⟨hrunning.ready, hrunning.tail, hrunning.sound.same hsame, fun s d hd => ?_⟩
    obtain ⟨g, hitems, hg⟩ := hrewrites s
    rw [Option.toList_none, List.append_nil] at hitems
    show (∃ e ∈ (o.snapshot.withHeld sessionId reason id).items s, e.id = d.id ∧ e.binding = d.binding) ∨
      ∀ e ∈ (o.snapshot.withHeld sessionId reason id).items s, e.id < d.id
    rw [hitems]
    obtain ⟨e, he, hid, hbinding⟩ | habove := hrunning.derived s d hd
    · cases he' : g e with
      | none => exact absurd ((hg e he).gone he') fun hfalse => hfalse
      | some e' =>
        exact .inl ⟨e', List.mem_filterMap.2 ⟨e, he, he'⟩, ((hg e he).id e' he').trans hid,
          ((hg e he).binding e' he').trans hbinding⟩
    · refine .inr fun e he => ?_
      obtain ⟨d', hd', hde⟩ := List.mem_filterMap.1 he
      exact (hg d' hd').id e hde ▸ habove d' hd'
  · have hhydrating := h.hydrating other hother
    exact ⟨hhydrating.ready, hhydrating.sound.same hsame, hhydrating.paused⟩
  · have hold := h.flight s phase hphase
    have hne : s ≠ sessionId := fun heq => by
      rw [heq, show o.inFlight sessionId = none from hlanded] at hphase
      cases hphase
    have hitems : (o.snapshot.withHeld sessionId reason id).items s = o.snapshot.items s := by
      unfold OutboxSnapshot.items OutboxSnapshot.withHeld
      rw [Table.find?_update, if_neg hne]
    refine ⟨hready, hold.accepted, fun item hitem => ?_, fun hheld => ?_⟩
    · obtain ⟨hbelow, hleast, hrun⟩ := hold.waiting item hitem
      exact ⟨hbelow, fun d hd => hleast d (hitems ▸ hd), hrun⟩
    · obtain ⟨text, hdisk, ⟨rest, hmemory⟩, hrun⟩ := hold.held hheld
      exact ⟨text, hdisk, ⟨rest, hitems.trans hmemory⟩, hrun⟩
  · have hquiet := h.restored s hs
    exact ⟨hquiet.landed, hquiet.paused.withHeld reason, hquiet.running⟩

theorem Kept.land (h : o.Kept) {phase : Phase} (hphase : o.inFlight sessionId = some phase)
    (hcalled : phase.isCalled = false) : Kept { o with inFlight := update o.inFlight sessionId none } := by
  refine h.advance (fun s => ?_) (fun s phase' hs => ?_) fun s hs => h.landed_update hphase hs
  · by_cases heq : s = sessionId
    · rw [heq, update_self, hphase, Option.any_some, hcalled]
      rfl
    · rw [update_of_ne heq]
  · by_cases heq : s = sessionId
    · rw [heq, update_self] at hs
      cases hs
    · rw [update_of_ne heq] at hs
      exact h.flight s phase' hs

theorem Kept.change (h : o.Kept) {phase phase' : Phase} (hphase : o.inFlight sessionId = some phase)
    (hcalled : phase'.isCalled = phase.isCalled) (hflight : o.Flight sessionId phase') :
    Kept { o with inFlight := update o.inFlight sessionId (some phase') } := by
  refine h.advance (any_isCalled_update hphase hcalled) (fun s other hs => ?_) fun s hs => h.landed_update hphase hs
  by_cases heq : s = sessionId
  · subst heq
    rw [update_self, Option.some.injEq] at hs
    exact hs ▸ hflight
  · rw [update_of_ne heq] at hs
    exact h.flight s other hs

theorem Kept.not_restored (h : o.Kept) {phase : Phase} (hphase : o.inFlight sessionId = some phase) :
    o.restored sessionId = false := by
  cases hs : o.restored sessionId with
  | false => rfl
  | true => exact absurd ((h.restored sessionId hs).landed.symm.trans hphase) nofun

theorem Kept.follow (h : o.Kept) {phase : Phase} (hidle : (o.inFlight sessionId).any Phase.isCalled = false)
    (hnew : o.restored sessionId = false) (hcalled : phase.isCalled = true) (hflight : o.Flight sessionId phase) :
    Kept ({ o with inFlight := update o.inFlight sessionId (some phase) }.push (.dispatch sessionId)) := by
  have hcounts : ∀ s, o.tail.count (.dispatch s) + [Txn.dispatch sessionId].count (.dispatch s) =
      if (update o.inFlight sessionId (some phase) s).any Phase.isCalled then 1 else 0 := fun s => by
    have hcount := h.called s
    by_cases heq : s = sessionId
    · subst heq
      rw [hidle] at hcount
      rw [hcount, update_self, Option.any_some, hcalled, List.count_singleton_self]
      rfl
    · have hne : Txn.dispatch sessionId ≠ .dispatch s := fun h => heq (by cases h; rfl)
      rw [hcount, update_of_ne heq, List.count_cons_of_ne hne, List.count_nil, Nat.add_zero]
  have hflights : ∀ s other, update o.inFlight sessionId (some phase) s = some other → o.Flight s other := by
    intro s other hs
    by_cases heq : s = sessionId
    · subst heq
      rw [update_self, Option.some.injEq] at hs
      exact hs ▸ hflight
    · rw [update_of_ne heq] at hs
      exact h.flight s other hs
  refine h.call (.inl ⟨rfl, rfl⟩) (fun _ _ hold => hold) nofun hcounts hflights fun s hs => ?_
  have hne : s ≠ sessionId := fun heq => by
    rw [heq, hnew] at hs
    cases hs
  exact (update_of_ne hne _ _).trans (h.restored s hs).landed

/-! ## Hydration and restart -/

theorem Kept.hydrate (h : o.Kept) (hready : o.ready = false) :
    Kept { o with hydrating := some o.disk.restored } := by
  refine h.move h.disk (fun next hnext => ?_) (fun _ => rfl) (fun s phase hphase => ⟨h.flight s phase hphase, rfl⟩)
    fun s hs => (h.restored s hs).landed
  cases hnext
  exact ⟨hready, h.disk.rewrite o.disk.rewrites_restored, fun _ _ => OutboxSnapshot.paused_restored⟩

theorem Kept.not_ready (h : o.Kept) (hready : o.ready = false) :
    o.running = none ∧ ∀ s, o.inFlight s = none := by
  constructor
  · by_contra hne
    obtain ⟨c, hc⟩ := Option.ne_none_iff_exists'.1 hne
    exact absurd ((h.running c hc).ready.symm.trans hready) Bool.noConfusion
  · intro s
    by_contra hne
    obtain ⟨phase, hphase⟩ := Option.ne_none_iff_exists'.1 hne
    exact absurd ((h.flight s phase hphase).ready.symm.trans hready) Bool.noConfusion

theorem isStored_iff {id : ℕ} : isStored next sessionId id = true ↔ ∃ d ∈ next.items sessionId, d.id = id := by
  rw [isStored, decide_eq_true_eq, List.mem_map]

theorem Kept.hydrated (h : o.Kept) (hnext : o.hydrating = some next) : Kept { o with
    disk := next
    snapshot := next
    ready := true
    error := none
    hydrating := none
    stored := fun sessionId id => o.stored sessionId id || isStored next sessionId id
    restored := fun sessionId => (next.find? sessionId).isSome } := by
  have hhydrating := h.hydrating next hnext
  obtain ⟨hidle, hlanded⟩ := h.not_ready hhydrating.ready
  have hsound : Sound { o with
      disk := next
      snapshot := next
      ready := true
      error := none
      hydrating := none
      stored := fun sessionId id => o.stored sessionId id || isStored next sessionId id
      restored := fun sessionId => (next.find? sessionId).isSome } o.tail next := by
    refine ⟨hhydrating.sound.ok, hhydrating.sound.fresh, hhydrating.sound.accepted, fun s id hstored haccepted hremoved => ?_,
      hhydrating.sound.sent⟩
    obtain hold | hnew := (Bool.or_eq_true _ _).mp hstored
    · exact hhydrating.sound.kept s id hold haccepted hremoved
    · exact isStored_iff.1 hnew
  refine ⟨fun other hother => ?_, fun _ hother => (nomatch hother), hsound, fun _ => hsound, h.awaited, h.accepted, h.sent,
    h.inOrder, h.removed, h.called, fun s phase hphase => ?_, fun s hs => ⟨hlanded s, ?_, fun other hother => ?_⟩⟩
  · exact absurd (hidle.symm.trans hother) nofun
  · exact absurd ((hlanded s).symm.trans hphase) nofun
  · obtain ⟨queue, hfind⟩ := Option.isSome_iff_exists.1 hs
    exact ⟨queue, hfind, hhydrating.paused s queue hfind⟩
  · exact absurd (hidle.symm.trans hother) nofun

theorem Kept.hydrateFailed (h : o.Kept) (hnext : o.hydrating = some next) (reached : Bool) (message : String) :
    Kept { o with
      disk := if reached then next else o.disk
      error := some message
      hydrating := none } := by
  have hhydrating := h.hydrating next hnext
  refine h.move ?_ nofun (fun _ => rfl) (fun s phase hphase => ?_) fun s hs => (h.restored s hs).landed
  · cases reached with
    | true => exact hhydrating.sound
    | false => exact h.disk
  · exact absurd (((h.not_ready hhydrating.ready).2 s).symm.trans hphase) nofun

theorem awaited_nil {txns : List Txn} {id : ℕ} (h : id ∈ o.awaited []) : id ∈ o.awaited txns :=
  List.mem_append_right _ h

theorem Kept.restart (h : o.Kept) (reached : Bool) : (o.restart reached).Kept := by
  have hdrop : ∀ {txns c}, o.Sound txns c → Sound (o.restart reached) [] c := fun hc =>
    ⟨hc.ok, fun s d hd id hid => hc.fresh s d hd id (awaited_nil hid), hc.accepted, hc.kept, hc.sent⟩
  have hdisk : Sound (o.restart reached) [] (o.restart reached).disk := by
    show Sound _ [] (if reached then o.writing.getD o.disk else o.disk)
    cases reached with
    | false => exact hdrop h.disk
    | true =>
      cases hrunning : o.running with
      | some next =>
        rw [if_pos rfl, writing, hrunning]
        exact hdrop (h.running next hrunning).sound
      | none =>
        cases hhydrating : o.hydrating with
        | some next =>
          rw [if_pos rfl, writing, hrunning, hhydrating]
          exact hdrop (h.hydrating next hhydrating).sound
        | none =>
          rw [if_pos rfl, writing, hrunning, hhydrating]
          exact hdrop h.disk
  exact ⟨nofun, nofun, hdisk, nofun, List.pairwise_singleton _ _,
    fun s id hid id' hid' => h.accepted s id hid id' (awaited_nil hid'),
    fun sent hsent id hid => h.sent sent hsent id (awaited_nil hid), h.inOrder, nofun, fun _ => rfl, nofun, nofun⟩

theorem kept_empty : Kept {} := by
  have hempty : Sound {} [] ∅ := ⟨fun s => ⟨Nat.zero_le _, nofun, nofun, List.Pairwise.nil⟩, nofun, nofun, nofun, nofun⟩
  exact ⟨nofun, nofun, hempty, nofun, List.pairwise_singleton _ _, nofun, nofun, List.Pairwise.nil, nofun, fun _ => rfl,
    nofun, nofun⟩

/-! ## Steps and runs -/

theorem Kept.count_call (h : o.Kept) (hdispatch : ∀ s, txn ≠ .dispatch s) (s : String) :
    o.tail.count (.dispatch s) + [txn].count (.dispatch s) =
      if (o.inFlight s).any Phase.isCalled then 1 else 0 := by
  rw [List.count_cons_of_ne (hdispatch s), List.count_nil, Nat.add_zero, h.called]

theorem Kept.push (h : o.Kept) (hadded : txn.added = none) (hdispatch : ∀ s, txn ≠ .dispatch s)
    (hremove : ∀ s id, txn ≠ .plain (.remove s id)) : (o.push txn).Kept :=
  h.call (.inl ⟨hadded, rfl⟩) (fun _ _ hold => hold) (fun s id heq => absurd heq (hremove s id))
    (h.count_call hdispatch) h.flight fun s hs => (h.restored s hs).landed

theorem Kept.enqueue (h : o.Kept) (binding : OutboxBinding) (text : JsText) : (o.enqueue binding text).Kept :=
  h.call (.inr ⟨rfl, rfl⟩) (fun _ _ hold => hold) (fun _ _ => nofun) (h.count_call fun _ => nofun) h.flight
    fun s hs => (h.restored s hs).landed

theorem Kept.remove (h : o.Kept) (sessionId : String) (id : ℕ) : (o.remove sessionId id).Kept := by
  refine h.call (.inl ⟨rfl, rfl⟩) (fun _ _ => mark_mono) (fun s id' heq => ?_) (h.count_call fun _ => nofun) h.flight
    fun s hs => (h.restored s hs).landed
  cases heq
  exact mark_self _ _ _

theorem Kept.pause (h : o.Kept) (sessionId reason : String) : (o.pause sessionId reason).Kept :=
  h.frame.push rfl (fun _ => nofun) fun _ _ => nofun

theorem Kept.claim (h : o.Kept) {canSend : Bool} {item : OutboxItem}
    (hnext : o.nextQueued sessionId canSend = some item) :
    Kept ({ o with inFlight := update o.inFlight sessionId (some (.claiming item)) }.push (.dispatch sessionId)) := by
  obtain ⟨queue, hfind, hready, -, hpaused, -, hlanded, hhead, hqueued⟩ := nextQueued_eq_some hnext
  have hsnapshot := h.snapshot hready
  obtain ⟨rest, hitems⟩ := List.head?_eq_some_iff.1 hhead
  rw [← OutboxSnapshot.items_of_find? hfind] at hitems
  have hmem : item ∈ o.snapshot.items sessionId := hitems ▸ List.mem_cons_self
  have hidle : (o.inFlight sessionId).any Phase.isCalled = false := by
    rw [hlanded]
    rfl
  have hleast : AtLeast o.snapshot sessionId item := fun d hd => by
    have hsorted := hsnapshot.ok sessionId
    refine ⟨?_, fun hid => by rw [hsorted.eq_of_id hd hmem hid]⟩
    rw [hitems] at hsorted hd
    exact hsorted.head_le d hd
  refine h.follow hidle ?_ rfl ⟨hready, fun invoked hinvoked => ?_, fun other hother => ?_, nofun⟩
  · cases hs : o.restored sessionId with
    | false => rfl
    | true =>
      obtain ⟨queue', hfind', hpaused'⟩ := (h.restored sessionId hs).paused
      cases hfind.symm.trans hfind'
      exact hpaused'.symm.trans hpaused
  · cases hinvoked
    cases haccepted : o.accepted sessionId item.id with
    | false => exact haccepted
    | true => exact absurd hqueued (hsnapshot.accepted sessionId item hmem haccepted)
  · cases hother
    refine ⟨hsnapshot.fresh sessionId item hmem, hleast, fun next hnext =>
      ⟨fun hown => absurd hown (h.not_isOwn hidle), fun _ d hd => ?_⟩⟩
    obtain ⟨e, he, hid, hbinding⟩ | habove := (h.running next hnext).derived sessionId d hd
    · rw [← hid, ← hbinding]
      exact hleast e he
    · have hlt := habove item hmem
      exact ⟨Nat.le_of_lt hlt, fun hid => absurd hid (Nat.ne_of_gt hlt)⟩

theorem Kept.caught (h : o.Kept) {phase : Phase} (hphase : o.inFlight sessionId = some phase)
    (hcalled : phase.isCalled = false) (message : String) (item : OutboxItem) :
    Kept { o.caught sessionId message item with inFlight := update o.inFlight sessionId none } :=
  ((h.land hphase hcalled).hold (h.flight sessionId phase hphase).ready (update_self _ _ _) _ item.id).frame

theorem kept_step {act : OutboxAct} (h : o.Kept) (hstep : o.step act = some o') : o'.Kept := by
  cases act with
  | enqueue binding text =>
    cases hstep
    exact h.enqueue binding text
  | edit sessionId id text =>
    cases hstep
    exact h.push rfl (fun _ => nofun) fun _ _ => nofun
  | remove sessionId id =>
    cases hstep
    exact h.remove sessionId id
  | pause sessionId reason =>
    cases hstep
    exact h.pause sessionId reason
  | resume sessionId call =>
    obtain ⟨-, rfl⟩ := resume_eq_some hstep
    exact h.frame.push rfl (fun _ => nofun) fun _ _ => nofun
  | begin =>
    obtain ⟨txn, rest, htail, -, ⟨error, rfl⟩ | ⟨next, hready, hnext, rfl⟩⟩ := begin_eq_some hstep
    · exact h.finish htail (.inl rfl) (.inl rfl) nofun (fun _ _ hold => .inl hold)
        fun s hs => ⟨hs, (h.restored s hs).paused⟩
    · exact h.start htail hready hnext
  | written =>
    obtain ⟨txn, rest, next, htail, hrunning, rfl⟩ := written_eq_some hstep
    refine h.finish htail (.inr hrunning) (.inr hrunning) (fun _ => ⟨hrunning, hrunning⟩) (fun s id hstored => ?_)
      fun s hs => ?_
    · obtain hold | hnew := (Bool.or_eq_true _ _).mp hstored
      · exact .inl hold
      · have hmem := isStored_iff.1 hnew
        exact .inr ⟨fun hnone => absurd (hrunning.symm.trans hnone) nofun, hmem, hmem⟩
    · obtain ⟨hold, hother⟩ := (Bool.and_eq_true _ _).mp hs
      refine ⟨hold, (h.restored s hold).running next hrunning fun call hhead => ?_⟩
      rw [htail] at hhead
      cases hhead
      exact absurd rfl (of_decide_eq_true hother)
  | failed message reached =>
    obtain ⟨txn, rest, next, htail, hrunning, rfl⟩ := failed_eq_some hstep
    refine h.finish htail ?_ (.inl rfl) nofun (fun _ _ hold => .inl hold) fun s hs => ⟨hs, (h.restored s hs).paused⟩
    cases reached with
    | true => exact .inr hrunning
    | false => exact .inl rfl
  | resumed call =>
    obtain ⟨c, ok, -, -, -, rfl⟩ := resumed_eq_some hstep
    exact h.frame
  | dispatch sessionId current canSend =>
    cases hstep
    obtain ⟨-, heq⟩ | ⟨-, item, hitem, -, heq⟩ | ⟨-, heq⟩ := o.dispatch_cases sessionId current canSend
    · exact heq.symm ▸ h
    · exact heq.symm ▸ h.claim hitem
    · exact heq.symm ▸ h.pause sessionId changedReason
  | proceed sessionId current canSend =>
    obtain ⟨item, hphase, rfl | ⟨error, rfl⟩ | ⟨durable, -, -, hdurable, rfl⟩⟩ := proceed_eq_some hstep
    · have hflight := h.flight sessionId _ hphase
      obtain ⟨text, hall⟩ := h.heldInAll hphase rfl rfl
      exact h.follow (by rw [hphase]; rfl) (h.not_restored hphase) rfl ⟨hflight.ready, hflight.accepted, nofun,
        fun _ => ⟨text, hall.disk, hall.snapshot, fun next hnext _ => hall.running next hnext⟩⟩
    · have hflight := h.flight sessionId _ hphase
      exact h.change hphase rfl ⟨hflight.ready, nofun, nofun, nofun⟩
    · exact h.send hphase hdurable
  | accept sessionId =>
    obtain ⟨item, invoked, hphase, rfl⟩ := accept_eq_some hstep
    exact h.accept hphase
  | reply sessionId completed =>
    obtain ⟨item, invoked, hphase, rfl⟩ := reply_eq_some hstep
    have hflight := h.flight sessionId _ hphase
    obtain ⟨text, hall⟩ := h.heldInAll hphase rfl rfl
    exact h.follow (by rw [hphase]; rfl) (h.not_restored hphase) rfl ⟨hflight.ready, hflight.accepted, nofun,
      fun _ => ⟨text, hall.disk, hall.snapshot, fun next hnext _ => hall.running next hnext⟩⟩
  | threw sessionId message =>
    obtain ⟨item, invoked, hphase, rfl⟩ := threw_eq_some hstep
    have hflight := h.flight sessionId _ hphase
    exact h.change hphase rfl ⟨hflight.ready, nofun, nofun, nofun⟩
  | conclude sessionId =>
    obtain ⟨item, message, hphase | hphase, rfl⟩ | ⟨item, hphase, rfl⟩ := conclude_eq_some hstep
    · exact h.caught hphase rfl message item
    · exact h.caught hphase rfl message item
    · exact h.land hphase rfl
  | hydrate =>
    obtain ⟨hready, -, ⟨error, rfl⟩ | rfl⟩ := hydrate_eq_some hstep
    · exact h.frame
    · exact h.hydrate hready
  | hydrated =>
    obtain ⟨next, hnext, rfl⟩ := hydrated_eq_some hstep
    exact h.hydrated hnext
  | hydrateFailed message reached =>
    obtain ⟨next, hnext, rfl⟩ := hydrateFailed_eq_some hstep
    exact h.hydrateFailed hnext reached message
  | restart reached =>
    cases hstep
    exact h.restart reached

theorem kept_of_run {acts : List OutboxAct} (h : Run Step {} acts o) : o.Kept :=
  h.invariant (fun _ _ _ hkept hstep => kept_step hkept hstep) kept_empty

end

end Outbox

end Wiii.NekoChill

/-!
## Delivery by the outbox

Over every run with failing writes and restarts: what is written is read back, no stored message is lost before it was
accepted or removed, and a send is of the first message of its queue, which was not accepted before (`delivery_of_run`).
A session that had no queue on disk is sent to without a resume (`sent_unresumed`).
-/

namespace Wiii.NekoChill.Outbox

variable {o o' : Outbox} {acts : List OutboxAct} {act : OutboxAct}

/-- A copy of the queues that is on disk or on its way there. -/
def IsWritten (o : Outbox) (c : OutboxSnapshot) : Prop :=
  c = o.disk ∨ o.running = some c ∨ o.hydrating = some c

structure Due (o : Outbox) (sent : Sent) : Prop where
  unaccepted : o.accepted sent.sessionId sent.item.id = false
  onDisk : (o.disk.items sent.sessionId).head? = some sent.item
  inMemory : (o.snapshot.items sent.sessionId).head? = some sent.item
  binding : sent.current = sent.item.binding ∧ sent.current.sessionId = sent.sessionId
  resumed : o.restored sent.sessionId = false

theorem Kept.due (h : o.Kept) (hstep : Step o act o') {sent : Sent} (hsent : o'.sends = o.sends ++ [sent]) :
    o.Due sent := by
  obtain heq | ⟨sessionId, item, durable, hphase, -, hdurable, rfl⟩ := sends_step hstep
  · rw [heq] at hsent
    exact absurd hsent (by simp)
  · have heq : sent = ⟨sessionId, durable, item.binding⟩ := by simpa using hsent.symm
    subst heq
    have hflight := h.flight sessionId _ hphase
    obtain ⟨text, hall⟩ := h.heldInAll hphase rfl rfl
    obtain ⟨hmem, hid⟩ := findItem_eq_some hdurable
    obtain ⟨rest, hsnapshot⟩ := hall.snapshot
    obtain ⟨rest', hdisk⟩ := hall.disk
    have hok := (h.snapshot hall.ready).ok sessionId
    have hitem : durable = { item with text := text, state := .delivering } :=
      hok.eq_of_id hmem (by rw [hsnapshot]; exact List.mem_cons_self) hid
    refine ⟨?_, ?_, ?_, ⟨?_, ?_⟩, h.not_restored hphase⟩
    · rw [hid]
      exact hflight.accepted false rfl
    · rw [hdisk, hitem]
      rfl
    · rw [hsnapshot, hitem]
      rfl
    · rw [hitem]
    · have hbinding := hok.binding durable hmem
      rwa [hitem] at hbinding

theorem Kept.isWritten (h : o.Kept) {c : OutboxSnapshot} (hc : o.IsWritten c) : c.Ok := by
  obtain rfl | hc | hc := hc
  · exact h.disk.ok
  · exact (h.running c hc).sound.ok
  · exact (h.hydrating c hc).sound.ok

/-- The outbox over any run. -/
theorem delivery_of_run (h : Run Step {} acts o) :
    (∀ c, o.IsWritten c → parseOutbox c.rows = .ok c.rows) ∧
    (∀ sessionId id, o.stored sessionId id = true → o.accepted sessionId id = true ∨ o.removed sessionId id = true ∨
      ∃ item ∈ o.disk.items sessionId, item.id = id) ∧
    (o.sends.Pairwise fun x y => x.sessionId = y.sessionId → x.item.id ≤ y.item.id) ∧
    ∀ act o' sent, Step o act o' → o'.sends = o.sends ++ [sent] → o.Due sent := by
  have hkept := kept_of_run h
  refine ⟨fun c hc => OutboxSnapshot.parseOutbox_of_ok (hkept.isWritten hc), fun sessionId id hstored => ?_,
    hkept.inOrder, fun act o' sent hstep hsent => hkept.due hstep hsent⟩
  cases haccepted : o.accepted sessionId id with
  | true => exact .inl rfl
  | false =>
    cases hremoved : o.removed sessionId id with
    | true => exact .inr (.inl rfl)
    | false => exact .inr (.inr (hkept.disk.kept sessionId id hstored haccepted hremoved))

def exampleMessage : OutboxItem := ⟨0, [104, 105], ⟨"s", "/work", "legacy", "model"⟩, .delivering⟩

def claimedMessage : List OutboxAct :=
  [.hydrate, .hydrated, .enqueue exampleMessage.binding exampleMessage.text, .begin, .written,
    .dispatch "s" (some exampleMessage.binding) true, .begin, .written]

/-- The first message is sent, accepted and taken out. -/
theorem delivery_of_run_message : ∃ acts o o', Run Step {} acts o ∧
    Step o (.proceed "s" (some exampleMessage.binding) true) o' ∧ o.stored "s" 0 = true ∧
    o.Due ⟨"s", exampleMessage, exampleMessage.binding⟩ ∧ parseOutbox o.disk.rows = .ok o.disk.rows := by
  have hrun : ((run {} claimedMessage).any fun o =>
      (o.step (.proceed "s" (some exampleMessage.binding) true)).any fun o' => decide (o.stored "s" 0 = true ∧
        o.sends = [] ∧ o'.sends = [⟨"s", exampleMessage, exampleMessage.binding⟩])) = true := by
    decide +kernel
  simp only [Option.any_eq_true, decide_eq_true_eq] at hrun
  obtain ⟨o, ho, o', ho', hstored, hnone, hone⟩ := hrun
  obtain ⟨hparse, -, -, hdue⟩ := delivery_of_run (run_of_run ho)
  exact ⟨_, o, o', run_of_run ho, ho', hstored, hdue _ o' _ ho' (by rw [hone, hnone]; rfl), hparse o.disk (.inl rfl)⟩

/-- The session had no queue when the outbox was hydrated; its message is sent and nobody has resumed. -/
theorem sent_unresumed : ∃ acts o, Run Step {} acts o ∧ .hydrated ∈ acts ∧
    (∀ sessionId call, .resume sessionId call ∉ acts) ∧
    o.sends = [⟨"s", exampleMessage, exampleMessage.binding⟩] := by
  have hrun : (run {} (claimedMessage ++ [.proceed "s" (some exampleMessage.binding) true])).any fun o =>
      decide (o.sends = [⟨"s", exampleMessage, exampleMessage.binding⟩]) := by
    decide +kernel
  obtain ⟨o, ho, hsends⟩ := (Option.any_eq_true _ _).1 hrun
  exact ⟨_, o, run_of_run ho, by simp [claimedMessage], by simp [claimedMessage], of_decide_eq_true hsends⟩

end Wiii.NekoChill.Outbox
