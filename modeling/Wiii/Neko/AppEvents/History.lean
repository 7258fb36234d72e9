import Wiii.Neko.AppEvents.Inbox
import Mathlib.Data.List.Forall2

/-!
# What was recorded, and who follows it

A history is what a bridge recorded, epoch after epoch.  Signals follow it when each is the event right after the cursor
before it, unless it tells of a gap (`Follows`); and they are in order when the places that their cursors name ascend
(`Before`).  What a poll of the current epoch hands out does both (`Page.delivers`).
-/

namespace Wiii.Neko.AppEvents

open Signal (Platform SignalIngress)

structure Epoch where
  name : String
  events : List AppEventSignal
  deriving DecidableEq

/-- The epochs of a bridge, the current one last. -/
abbrev History := List Epoch

/-- The epochs have distinct names, and their events the ids and cursors of their numbers. -/
structure WellFormed (h : History) : Prop where
  isEpoch : ∀ epoch ∈ h, IsEpoch epoch.name
  distinct : (h.map Epoch.name).Nodup
  numbered : ∀ epoch ∈ h, ∀ (n : ℕ) event, epoch.events[n]? = some event →
    event.cursor = appEventCursor epoch.name (n + 1) ∧ event.eventId = eventId epoch.name (n + 1)

/-- The later history has more events in some epochs, and more epochs. -/
def Continues (h h' : History) : Prop :=
  ∀ (i : ℕ) (epoch : Epoch), h[i]? = some epoch → ∃ epoch' : Epoch, h'[i]? = some epoch' ∧
    epoch'.name = epoch.name ∧
    epoch.events <+: epoch'.events

/-- The cursor names the number `n` of the epoch at the place `i`. -/
def Place (h : History) (cursor : String) (i n : ℕ) : Prop :=
  ∃ epoch : Epoch, h[i]? = some epoch ∧ readCursor cursor = some (epoch.name, n)

def Before (h : History) (x y : SignalIngress) : Prop :=
  ∃ i n j m, Place h x.sourceCursor i n ∧ Place h y.sourceCursor j m ∧ (i < j ∨ i = j ∧ n < m)

/-- The signals follow the history from one cursor to another. -/
inductive Follows (P : Platform) (environmentId : String) (h : History) :
    Option String → List SignalIngress → Option String → Prop
  | refl (c : Option String) : Follows P environmentId h c [] c
  | quiet {c c' : Option String} {inputs : List SignalIngress} {epoch : Epoch} {n : ℕ} {cursor : String}
      (hf : Follows P environmentId h c inputs c') (he : epoch ∈ h) (hs : Stands c' epoch.name n)
      (hc : readCursor cursor = some (epoch.name, n)) : Follows P environmentId h c inputs (some cursor)
  | event {c c' : Option String} {inputs : List SignalIngress} {epoch : Epoch} {n : ℕ}
      {event : AppEventSignal} {input : SignalIngress} {gapDetected : Bool}
      (hf : Follows P environmentId h c inputs c') (he : epoch ∈ h) (hs : Stands c' epoch.name n)
      (hn : epoch.events[n]? = some event) (hi : OfEvent P environmentId gapDetected event input) :
      Follows P environmentId h c (inputs ++ [input]) (some event.cursor)
  | gap {c c' : Option String} {inputs : List SignalIngress} {epoch : Epoch} {event : AppEventSignal}
      {input : SignalIngress} (hf : Follows P environmentId h c inputs c') (he : epoch ∈ h)
      (hn : event ∈ epoch.events) (hi : OfEvent P environmentId true event input) :
      Follows P environmentId h c (inputs ++ [input]) (some event.cursor)
  | restart {c c' : Option String} {inputs : List SignalIngress} {epoch : Epoch}
      (hf : Follows P environmentId h c inputs c') (he : epoch ∈ h) (observedAt : Instant) :
      Follows P environmentId h c
        (inputs ++ [gapInput P environmentId (appEventCursor epoch.name 0) observedAt])
        (some (appEventCursor epoch.name 0))

/-! ## Well-formed histories -/

theorem wellFormed_nil : WellFormed [] := ⟨by simp, by simp, by simp⟩

theorem WellFormed.start {h : History} {name : String} (hwell : WellFormed h) (hname : IsEpoch name)
    (fresh : ∀ epoch ∈ h, epoch.name ≠ name) : WellFormed (h ++ [⟨name, []⟩]) where
  isEpoch := by
    intro epoch he
    rcases List.mem_append.1 he with he | he
    · exact hwell.isEpoch epoch he
    · rw [List.mem_singleton.1 he]
      exact hname
  distinct := by
    rw [List.map_append, List.map_singleton, List.nodup_append]
    refine ⟨hwell.distinct, by simp, fun other hmem name' hname' => ?_⟩
    obtain ⟨epoch, he, rfl⟩ := List.mem_map.1 hmem
    rw [List.mem_singleton.1 hname']
    exact fresh epoch he
  numbered := by
    intro epoch he n event hn
    rcases List.mem_append.1 he with he | he
    · exact hwell.numbered epoch he n event hn
    · rw [List.mem_singleton.1 he] at hn
      simp at hn

theorem WellFormed.record {past : History} {name : String} {signals more : List AppEventSignal}
    (hwell : WellFormed (past ++ [⟨name, signals⟩]))
    (hmore : ∀ (k : ℕ) event, more[k]? = some event →
      event.cursor = appEventCursor name (signals.length + k + 1) ∧
        event.eventId = eventId name (signals.length + k + 1)) :
    WellFormed (past ++ [⟨name, signals ++ more⟩]) where
  isEpoch := by
    intro epoch he
    rcases List.mem_append.1 he with he | he
    · exact hwell.isEpoch epoch (List.mem_append_left _ he)
    · rw [List.mem_singleton.1 he]
      exact hwell.isEpoch ⟨name, signals⟩ (by simp)
  distinct := by simpa using hwell.distinct
  numbered := by
    intro epoch he n event hn
    rcases List.mem_append.1 he with he | he
    · exact hwell.numbered epoch (List.mem_append_left _ he) n event hn
    · rw [List.mem_singleton.1 he] at hn ⊢
      rcases lt_or_ge n signals.length with hlt | hge
      · rw [List.getElem?_append_left hlt] at hn
        exact hwell.numbered ⟨name, signals⟩ (by simp) n event hn
      · rw [List.getElem?_append_right hge] at hn
        have hnumber : signals.length + (n - signals.length) + 1 = n + 1 := by omega
        rw [← hnumber]
        exact hmore _ _ hn

/-! ## Histories that continue -/

theorem getElem?_of_initial {α : Type} {l l' : List α} {n : ℕ} {a : α} (h : l <+: l')
    (hn : l[n]? = some a) : l'[n]? = some a := by
  obtain ⟨more, rfl⟩ := h
  rw [List.getElem?_append_left (List.getElem?_eq_some_iff.1 hn).1, hn]

theorem Continues.refl (h : History) : Continues h h :=
  fun _ epoch hi => ⟨epoch, hi, rfl, List.prefix_rfl⟩

section Continues

variable {P : Platform} {environmentId : String} {h h' h'' : History} {epoch : Epoch}

theorem Continues.trans (hh : Continues h h') (hh' : Continues h' h'') : Continues h h'' := by
  intro i epoch hi
  obtain ⟨epoch', hi', hname, hinitial⟩ := hh i epoch hi
  obtain ⟨epoch'', hi'', hname', hinitial'⟩ := hh' i epoch' hi'
  exact ⟨epoch'', hi'', hname'.trans hname, hinitial.trans hinitial'⟩

theorem Continues.mem (hh : Continues h h') (he : epoch ∈ h) :
    ∃ epoch' ∈ h', epoch'.name = epoch.name ∧ epoch.events <+: epoch'.events := by
  obtain ⟨i, hi⟩ := List.mem_iff_getElem?.1 he
  obtain ⟨epoch', hi', hsame⟩ := hh i epoch hi
  exact ⟨epoch', List.mem_of_getElem? hi', hsame⟩

theorem continues_append (h more : History) : Continues h (h ++ more) := by
  intro i epoch hi
  exact ⟨epoch, by rw [List.getElem?_append_left (List.getElem?_eq_some_iff.1 hi).1, hi], rfl,
    List.prefix_rfl⟩

theorem continues_last (h : History) (name : String) (events more : List AppEventSignal) :
    Continues (h ++ [⟨name, events⟩]) (h ++ [⟨name, events ++ more⟩]) := by
  intro i epoch hi
  rcases lt_or_ge i h.length with hlt | hge
  · rw [List.getElem?_append_left hlt] at hi ⊢
    exact ⟨epoch, hi, rfl, List.prefix_rfl⟩
  · rw [List.getElem?_append_right hge] at hi ⊢
    obtain ⟨hlt, heq⟩ := List.getElem?_eq_some_iff.1 hi
    have hzero : i - h.length = 0 := by simpa using hlt
    simp only [hzero, List.getElem_cons_zero] at heq
    subst heq
    exact ⟨⟨name, events ++ more⟩, by simp [hzero], rfl, List.prefix_append ..⟩

theorem Place.continues {cursor : String} {i n : ℕ} (hp : Place h cursor i n)
    (hh : Continues h h') : Place h' cursor i n := by
  obtain ⟨epoch, hi, hread⟩ := hp
  obtain ⟨epoch', hi', hname, -⟩ := hh i epoch hi
  exact ⟨epoch', hi', by rw [hread, hname]⟩

theorem Before.continues {x y : SignalIngress} (hb : Before h x y) (hh : Continues h h') :
    Before h' x y := by
  obtain ⟨i, n, j, m, hx, hy, hlt⟩ := hb
  exact ⟨i, n, j, m, hx.continues hh, hy.continues hh, hlt⟩

theorem Follows.continues {c c' : Option String} {inputs : List SignalIngress}
    (hf : Follows P environmentId h c inputs c') (hh : Continues h h') :
    Follows P environmentId h' c inputs c' := by
  induction hf with
  | refl => exact .refl c
  | quiet _ he hs hc ih =>
    obtain ⟨epoch', he', hname, -⟩ := hh.mem he
    rw [← hname] at hs hc
    exact .quiet ih he' hs hc
  | event _ he hs hn hi ih =>
    obtain ⟨epoch', he', hname, hinitial⟩ := hh.mem he
    rw [← hname] at hs
    exact .event ih he' hs (getElem?_of_initial hinitial hn) hi
  | gap _ he hn hi ih =>
    obtain ⟨epoch', he', -, hinitial⟩ := hh.mem he
    exact .gap ih he' (hinitial.subset hn) hi
  | restart _ he observedAt ih =>
    obtain ⟨epoch', he', hname, -⟩ := hh.mem he
    rw [← hname]
    exact .restart ih he' observedAt

theorem Follows.trans {c c' c'' : Option String} {inputs inputs' : List SignalIngress}
    (hf : Follows P environmentId h c inputs c') (hf' : Follows P environmentId h c' inputs' c'') :
    Follows P environmentId h c (inputs ++ inputs') c'' := by
  induction hf' with
  | refl => rwa [List.append_nil]
  | quiet _ he hs hc ih => exact .quiet ih he hs hc
  | event _ he hs hn hi ih =>
    rw [← List.append_assoc]
    exact .event ih he hs hn hi
  | gap _ he hn hi ih =>
    rw [← List.append_assoc]
    exact .gap ih he hn hi
  | restart _ he observedAt ih =>
    rw [← List.append_assoc]
    exact .restart ih he observedAt

/-! ## Keys -/

/-- The dedupe key is that of an event, or gap, at its number of the epoch its cursor names. -/
def Keyed (epoch : Epoch) (n : ℕ) (input : SignalIngress) : Prop :=
  input.sourceCursor = appEventCursor epoch.name n ∧
    (input.dedupeKey = eventId epoch.name n ∨
      input.dedupeKey = s!"reconcile:{appEventCursor epoch.name n}")

theorem Follows.keyed (hwell : WellFormed h) {c c' : Option String} {inputs : List SignalIngress}
    (hf : Follows P environmentId h c inputs c') {input : SignalIngress} (hi : input ∈ inputs) :
    ∃ epoch ∈ h, ∃ n, Keyed epoch n input := by
  have ofEvent : ∀ {epoch : Epoch} {n : ℕ} {event gapDetected}, epoch ∈ h →
      epoch.events[n]? = some event → OfEvent P environmentId gapDetected event input →
        ∃ epoch ∈ h, ∃ n, Keyed epoch n input := by
    intro epoch n event gapDetected he hn hevent
    obtain ⟨hcursor, hid⟩ := hwell.numbered epoch he n event hn
    obtain ⟨-, -, hcursor', hkey, -⟩ := hevent.fields
    exact ⟨epoch, he, n + 1, hcursor'.trans hcursor, .inl (hkey.trans hid)⟩
  induction hf with
  | refl => cases hi
  | quiet _ _ _ _ ih => exact ih hi
  | event _ he _ hn hevent ih =>
    rcases List.mem_append.1 hi with hi | hi
    · exact ih hi
    · rw [← List.mem_singleton.1 hi] at hevent
      exact ofEvent he hn hevent
  | gap _ he hmem hevent ih =>
    rcases List.mem_append.1 hi with hi | hi
    · exact ih hi
    · rw [← List.mem_singleton.1 hi] at hevent
      obtain ⟨n, hn⟩ := List.mem_iff_getElem?.1 hmem
      exact ofEvent he hn hevent
  | restart _ he observedAt ih =>
    rcases List.mem_append.1 hi with hi | hi
    · exact ih hi
    · rw [List.mem_singleton.1 hi]
      exact ⟨_, he, 0, rfl, .inr rfl⟩

theorem Keyed.unique {epoch epoch' : Epoch} {n n' : ℕ} {x y : SignalIngress} (hx : Keyed epoch n x)
    (hy : Keyed epoch' n' y) (he : IsEpoch epoch.name) (he' : IsEpoch epoch'.name)
    (hkey : x.dedupeKey = y.dedupeKey) : epoch.name = epoch'.name ∧ n = n' := by
  have hcursor : appEventCursor epoch.name n = appEventCursor epoch'.name n' := by
    rcases hx.2 with hx | hx <;> rcases hy.2 with hy | hy
    all_goals rw [hx, hy] at hkey
    · exact appEventCursor_of_eventId hkey
    · rw [← String.toList_inj] at hkey
      simp [eventId, toString] at hkey
    · rw [← String.toList_inj] at hkey
      simp [eventId, toString] at hkey
    · simpa [toString] using hkey
  have hread := readCursor_appEventCursor he n
  rw [hcursor, readCursor_appEventCursor he' n'] at hread
  obtain ⟨hname, hn⟩ := Prod.mk.inj (Option.some.inj hread)
  exact ⟨hname.symm, hn.symm⟩

theorem not_before_of_sourceCursor_eq (hwell : WellFormed h) {x y : SignalIngress}
    (heq : x.sourceCursor = y.sourceCursor) : ¬ Before h x y := by
  rintro ⟨i, n, j, m, ⟨epoch, hi, hread⟩, ⟨epoch', hj, hread'⟩, hlt⟩
  rw [heq, hread'] at hread
  obtain ⟨hname, rfl⟩ := Prod.mk.inj (Option.some.inj hread)
  have hlength := (List.getElem?_eq_some_iff.1 hi).1
  have hij : i = j := by
    refine (List.getElem?_inj ?_ hwell.distinct).1 ?_
    · simpa using hlength
    · rw [List.getElem?_map, List.getElem?_map, hi, hj, Option.map_some, Option.map_some, hname]
  omega

end Continues

/-! ## What a page delivers -/

/-- The cursor is not before the place of any of the signals. -/
def Reached (h : History) (inputs : List SignalIngress) (c : Option String) : Prop :=
  ∀ input ∈ inputs, ∃ cursor i n j m, c = some cursor ∧ Place h input.sourceCursor i n ∧
    Place h cursor j m ∧ (i < j ∨ i = j ∧ n ≤ m)

/-- After `seen`, the inputs follow the history from the cursor `c` to the new one, all in order. -/
structure Delivers (P : Platform) (environmentId : String) (h : History) (seen : List SignalIngress)
    (c : Option String) (inputs : List SignalIngress) (cursor : String) : Prop where
  follows : Follows P environmentId h c inputs (some cursor)
  ordered : (seen ++ inputs).Pairwise (Before h)
  reached : Reached h (seen ++ inputs) (some cursor)

section Delivers

variable {P : Platform} {environmentId : String} {h h' : History} {epoch : Epoch}
  {seen inputs : List SignalIngress} {c : Option String} {events : List AppEventSignal} {start : ℕ}
  {gapDetected : Bool}

theorem Reached.continues (hr : Reached h inputs c) (hh : Continues h h') : Reached h' inputs c := by
  intro input hi
  obtain ⟨cursor, i, n, j, m, hc, hx, hy, hle⟩ := hr input hi
  exact ⟨cursor, i, n, j, m, hc, hx.continues hh, hy.continues hh, hle⟩

theorem Delivers.continues {cursor : String} (hd : Delivers P environmentId h seen c inputs cursor)
    (hh : Continues h h') : Delivers P environmentId h' seen c inputs cursor :=
  ⟨hd.follows.continues hh, hd.ordered.imp fun hb => hb.continues hh, hd.reached.continues hh⟩

theorem getElem?_of_initial_drop {event : AppEventSignal}
    (hinitial : event :: events <+: epoch.events.drop start) :
    epoch.events[start]? = some event ∧ events <+: epoch.events.drop (start + 1) := by
  have hfirst := getElem?_of_initial hinitial (n := 0) rfl
  rw [List.getElem?_drop, Nat.add_zero] at hfirst
  refine ⟨hfirst, ?_⟩
  rw [← List.drop_drop]
  obtain ⟨more, hmore⟩ := hinitial
  exact ⟨more, by rw [← hmore]; rfl⟩

theorem follows_events (hwell : WellFormed h) (he : epoch ∈ h)
    (hinitial : events <+: epoch.events.drop start)
    (hs : Stands c epoch.name start ∨ gapDetected = true)
    (hinputs : List.Forall₂ (OfEvent P environmentId gapDetected) events inputs) :
    Follows P environmentId h c inputs
      (if inputs = [] then c else some (appEventCursor epoch.name (start + events.length))) := by
  induction hinputs generalizing start c with
  | nil => exact .refl c
  | @cons event input events inputs hi hrest ih =>
    obtain ⟨hn, hinitial'⟩ := getElem?_of_initial_drop hinitial
    obtain ⟨hcursor, -⟩ := hwell.numbered epoch he start event hn
    have hfirst : Follows P environmentId h c [input] (some event.cursor) := by
      rcases hs with hs | rfl
      · exact .event (.refl c) he hs hn hi
      · exact .gap (.refl c) he (List.mem_of_getElem? hn) hi
    rw [hcursor] at hfirst
    have hstands : Stands (some (appEventCursor epoch.name (start + 1))) epoch.name (start + 1) :=
      readCursor_appEventCursor (hwell.isEpoch epoch he) _
    have hfollows := hfirst.trans (ih hinitial' (.inl hstands))
    rw [if_neg (List.cons_ne_nil _ _), List.length_cons, Nat.add_comm events.length,
      ← Nat.add_assoc]
    split_ifs at hfollows with hnil
    · subst hnil
      cases hrest
      exact hfollows
    · exact hfollows

theorem places_events (hwell : WellFormed h) {i : ℕ} (he : h[i]? = some epoch)
    (hinitial : events <+: epoch.events.drop start)
    (hinputs : List.Forall₂ (OfEvent P environmentId gapDetected) events inputs) :
    (∀ input ∈ inputs, ∃ n, Place h input.sourceCursor i n ∧ start < n ∧ n ≤ start + events.length) ∧
      inputs.Pairwise (Before h) := by
  induction hinputs generalizing start with
  | nil => exact ⟨by simp, .nil⟩
  | @cons event input events inputs hi hrest ih =>
    obtain ⟨hn, hinitial'⟩ := getElem?_of_initial_drop hinitial
    have hmem := List.mem_of_getElem? he
    obtain ⟨hcursor, -⟩ := hwell.numbered epoch hmem start event hn
    have hplace : Place h input.sourceCursor i (start + 1) := by
      refine ⟨epoch, he, ?_⟩
      rw [hi.fields.2.2.1, hcursor]
      exact readCursor_appEventCursor (hwell.isEpoch epoch hmem) _
    obtain ⟨hplaces, hpairwise⟩ := ih hinitial'
    rw [List.length_cons]
    refine ⟨List.forall_mem_cons.2 ⟨⟨start + 1, hplace, by omega, by omega⟩, fun x hx => ?_⟩,
      List.pairwise_cons.2 ⟨fun x hx => ?_, hpairwise⟩⟩
    · obtain ⟨n, hx', hlt, hle⟩ := hplaces x hx
      exact ⟨n, hx', by omega, by omega⟩
    · obtain ⟨n, hx', hlt, -⟩ := hplaces x hx
      exact ⟨i, start + 1, i, n, hplace, hx', .inr ⟨rfl, hlt⟩⟩

theorem before_page {batch : WatcherBatch} (hpage : Bridge.Page c epoch.name epoch.events batch start)
    {i : ℕ} (he : h[i]? = some epoch) (hlast : h.length = i + 1)
    (hreached : Reached h seen c) {x : SignalIngress} (hx : x ∈ seen) :
    ∃ j n, Place h x.sourceCursor j n ∧ (j < i ∨ j = i ∧ n ≤ start) ∧
      (batch.gapDetected = true → batch.events = [] → j < i) := by
  obtain ⟨cursor, j, n, k, m, rfl, hplace, ⟨epoch', hk, hread⟩, hle⟩ := hreached x hx
  have hki : k ≤ i := by
    have := (List.getElem?_eq_some_iff.1 hk).1
    omega
  refine ⟨j, n, hplace, ?_, fun hgap hnil => ?_⟩
  all_goals
    rcases hki.lt_or_eq with hlt | rfl
  · omega
  · rw [he] at hk
    cases hk
    have := hpage.after cursor m rfl hread
    omega
  · omega
  · rw [he] at hk
    cases hk
    exact absurd hread ((hpage.empty hgap hnil).2 cursor m rfl)

theorem page_delivers {batch : WatcherBatch}
    (hpage : Bridge.Page c epoch.name epoch.events batch start) {i : ℕ} (he : h[i]? = some epoch)
    (hlast : h.length = i + 1) (hwell : WellFormed h) (hordered : seen.Pairwise (Before h))
    (hreached : Reached h seen c)
    (hinputs : List.Forall₂ (OfEvent P environmentId batch.gapDetected) batch.events inputs)
    (hne : batch.gapDetected = true → batch.events ≠ []) :
    Delivers P environmentId h seen c inputs batch.cursor := by
  have hmem := List.mem_of_getElem? he
  obtain ⟨limit, hevents⟩ := hpage.events
  have hinitial : batch.events <+: epoch.events.drop start := hevents ▸ List.take_prefix ..
  have hread := readCursor_appEventCursor (hwell.isEpoch epoch hmem) (start + batch.events.length)
  rw [← hpage.cursor] at hread
  have hstands : Stands c epoch.name start ∨ batch.gapDetected = true := by
    cases hgap : batch.gapDetected with
    | false => exact .inl (hpage.stands hgap)
    | true => exact .inr rfl
  have hfollows := follows_events hwell hmem hinitial hstands hinputs
  obtain ⟨hplaces, hpairwise⟩ := places_events hwell he hinitial hinputs
  refine ⟨?_, List.pairwise_append.2 ⟨hordered, hpairwise, fun x hx y hy => ?_⟩, fun x hx => ?_⟩
  · split_ifs at hfollows with hnil
    · subst hnil
      have hnone := List.forall₂_nil_right_iff.1 hinputs
      have hs := hstands.resolve_right fun hgap => hne hgap hnone
      rw [hnone, List.length_nil, Nat.add_zero] at hread
      exact .quiet (.refl c) hmem hs hread
    · rwa [hpage.cursor]
  · obtain ⟨j, n, hplace, hle, -⟩ := before_page hpage he hlast hreached hx
    obtain ⟨m, hplace', hlt, -⟩ := hplaces y hy
    exact ⟨j, n, i, m, hplace, hplace', by omega⟩
  · have hplace' : Place h batch.cursor i (start + batch.events.length) := ⟨epoch, he, hread⟩
    rcases List.mem_append.1 hx with hx | hx
    · obtain ⟨j, n, hplace, hle, -⟩ := before_page hpage he hlast hreached hx
      exact ⟨_, j, n, i, _, rfl, hplace, hplace', by omega⟩
    · obtain ⟨n, hplace, -, hle⟩ := hplaces x hx
      exact ⟨_, i, n, i, _, rfl, hplace, hplace', .inr ⟨rfl, hle⟩⟩

theorem gap_delivers {batch : WatcherBatch}
    (hpage : Bridge.Page c epoch.name epoch.events batch start) {i : ℕ} (he : h[i]? = some epoch)
    (hlast : h.length = i + 1) (hwell : WellFormed h) (hordered : seen.Pairwise (Before h))
    (hreached : Reached h seen c) (hgap : batch.gapDetected = true) (hnil : batch.events = [])
    (observedAt : Instant) :
    Delivers P environmentId h seen c [gapInput P environmentId batch.cursor observedAt]
      batch.cursor := by
  have hmem := List.mem_of_getElem? he
  have hcursor : batch.cursor = appEventCursor epoch.name 0 := by
    rw [hpage.cursor, hnil, (hpage.empty hgap hnil).1]
    rfl
  have hplace' : Place h batch.cursor i 0 := by
    refine ⟨epoch, he, ?_⟩
    rw [hcursor]
    exact readCursor_appEventCursor (hwell.isEpoch epoch hmem) 0
  have hbefore : ∀ x ∈ seen, ∃ j n, Place h x.sourceCursor j n ∧ j < i := by
    intro x hx
    obtain ⟨j, n, hplace, -, hlt⟩ := before_page hpage he hlast hreached hx
    exact ⟨j, n, hplace, hlt hgap hnil⟩
  refine ⟨?_, List.pairwise_append.2 ⟨hordered, List.pairwise_singleton .., fun x hx y hy => ?_⟩,
    fun x hx => ?_⟩
  · rw [hcursor]
    exact .restart (.refl c) hmem observedAt
  · rw [List.mem_singleton] at hy
    subst hy
    obtain ⟨j, n, hplace, hlt⟩ := hbefore x hx
    exact ⟨j, n, i, 0, hplace, hplace', .inl hlt⟩
  · rcases List.mem_append.1 hx with hx | hx
    · obtain ⟨j, n, hplace, hlt⟩ := hbefore x hx
      exact ⟨_, j, n, i, 0, rfl, hplace, hplace', .inl hlt⟩
    · rw [List.mem_singleton] at hx
      subst hx
      exact ⟨_, i, 0, i, 0, rfl, hplace', hplace', .inr ⟨rfl, le_rfl⟩⟩

end Delivers

end Wiii.Neko.AppEvents
