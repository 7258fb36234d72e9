import Wiii.Neko.Computer.Effects

/-!
# Sequence numbers of a computer's stream

The next number of a stream is read off the events that are there.  As long as an environment is not deleted, the
numbers of its stream increase, and a client that follows the pages is given every event that was appended after it got
its cursor (`numbers_increase`).  One that is deleted and made again starts over (`recreated_stream_restarts`).
-/

namespace Wiii.Neko.Computer

open ComputerJournal

variable {newV4 : ℕ → String} {db db' : ComputerJournal} {environmentId : String}

/-- The events that are there after a call and were not before. -/
def appended (db db' : ComputerJournal) : List ComputerEvent :=
  db'.events.rows.filter fun event => decide (event ∉ db.events.rows)

def Appending (newV4 : ℕ → String) (db : ComputerJournal) (label : Call × List ComputerEvent)
    (db' : ComputerJournal) : Prop :=
  Step newV4 db label.1 db' ∧ label.2 = appended db db'

/-- The call does not delete the environment. -/
def Keeps (environmentId : String) (_ : ComputerJournal) (label : Call × List ComputerEvent) : Prop :=
  label.1 ≠ ⟨.deleteEnvironment environmentId, .ok .done⟩

/-- The calls of runs that do not delete the environment. -/
abbrev Keeping (newV4 : ℕ → String) (environmentId : String) :
    ComputerJournal → Call × List ComputerEvent → ComputerJournal → Prop :=
  Guarded (Appending newV4) (Keeps environmentId)

/-- A cursor starts at 0, and moves to the end of a page or to an event that was sent. -/
inductive Cursor (newV4 : ℕ → String) (environmentId : String) : ComputerJournal → ℕ → Prop
  | start (db : ComputerJournal) : Cursor newV4 environmentId db 0
  | page {db : ComputerJournal} {cursor limit : ℕ} {page : ComputerReplayPage} :
      Cursor newV4 environmentId db cursor → db.replay environmentId cursor limit = .ok page →
      Cursor newV4 environmentId db page.nextAfterSeq
  | sent {db : ComputerJournal} {event : ComputerEvent} : event ∈ db.events →
      event.streamId = streamIdOf environmentId → Cursor newV4 environmentId db event.seq
  | later {db db' : ComputerJournal} {label : Call × List ComputerEvent} {cursor : ℕ} :
      Reachable newV4 db → Cursor newV4 environmentId db cursor → Keeping newV4 environmentId db label db' →
      Cursor newV4 environmentId db' cursor

/-- What a client is given that asks for the next page until there are no more. -/
inductive Pages (environmentId : String) (db : ComputerJournal) : ℕ → List ComputerEvent → Prop
  | last {cursor limit : ℕ} {page : ComputerReplayPage} : db.replay environmentId cursor limit = .ok page →
      page.hasMore = false → Pages environmentId db cursor page.events
  | more {cursor limit : ℕ} {page : ComputerReplayPage} {events : List ComputerEvent} :
      db.replay environmentId cursor limit = .ok page → page.hasMore = true →
      Pages environmentId db page.nextAfterSeq events → Pages environmentId db cursor (page.events ++ events)

/-! ## What a call does to the events -/

theorem ComputerJournal.Logged.events (h : Logged db db') : ∃ tail, Extends db.events db'.events tail := by
  obtain ⟨events, tail, drawn, hextends, -, rfl⟩ := h
  exact ⟨tail, hextends⟩

/-- A call appends events, or deletes those of an environment. -/
theorem Step.events {call : Call} (h : Step newV4 db call db') :
    (∃ tail, Extends db.events db'.events tail) ∨
    ∃ deleted, call = ⟨.deleteEnvironment deleted, .ok .done⟩ ∧
      db'.events = db.events.deleteWhere fun event => decide (event.environmentId = deleted) := by
  cases h with
  | failed op error => exact .inl ⟨[], .refl _⟩
  | @committed db' op answer now happly =>
    have hsame : ∃ tail, Extends db.events db.events tail := ⟨[], .refl _⟩
    cases op <;> simp only [Op.apply, map_ok_iff, Prod.mk.injEq] at happly
    case recoverIncomplete =>
      cases happly
      exact .inl hsame
    all_goals obtain ⟨⟨x, db₁⟩, hop, rfl, rfl⟩ := happly
    case beginRequest =>
      rcases (beginRequest_ok_iff.1 hop).2 with ⟨_, _, _, rfl⟩ | ⟨_, _, _, rfl⟩ <;> exact .inl hsame
    case markSideEffectStarted | completeRequest | failRequest =>
      rw [(advanceRequest_ok_iff.1 hop).2]
      exact .inl hsame
    case markUnknownOutcome => exact .inl (markUnknownOutcome_ok hop).2.events
    case adoptLegacyCoworker =>
      rcases adoptLegacyCoworker_ok hop with rfl | ⟨_, _, _, _, _, _, _, hlogged⟩
      · exact .inl hsame
      · exact .inl hlogged.events
    case grantProject =>
      obtain ⟨-, -, _, _, -, -, -, rfl⟩ := grantProject_ok_iff.1 hop
      exact .inl hsame
    case activateCoworkerProject => exact .inl (activateCoworkerProject_ok hop).events
    case revokeProject =>
      rcases revokeProject_ok hop with ⟨-, rfl, -⟩ | ⟨_, _, _, _, hlogged⟩
      · exact .inl hsame
      · exact .inl hlogged.events
    case deleteEnvironment deleted =>
      obtain ⟨-, rfl⟩ := deleteEnvironment_ok_iff.1 hop
      exact .inr ⟨deleted, rfl, rfl⟩
    case upsertEnvironment =>
      obtain ⟨-, _, -, -, hlogged⟩ := upsertEnvironment_ok hop
      exact .inl hlogged.events
    case setEnvironmentState => exact .inl (setEnvironmentState_ok hop).events
    case acquireSeat =>
      obtain ⟨_, -, -, -, hlogged⟩ := acquireSeat_ok hop
      exact .inl hlogged.events
    case releaseSeat => exact .inl (releaseSeat_ok hop).2.2.events
    case appendEvent => exact .inl (appendEvent_ok hop).events

def Sorted (db : ComputerJournal) : Prop := ∀ e ∈ db.events, e.streamId = streamIdOf e.environmentId

theorem streamIdOf_inj {environmentId environmentId' : String} :
    streamIdOf environmentId = streamIdOf environmentId' ↔ environmentId = environmentId' :=
  String.append_right_inj "computer:"

theorem Extends.mem_iff {events events' : Table ComputerEvent.position} {tail : List ComputerEvent}
    (h : Extends events events' tail) {e : ComputerEvent} : e ∈ events' ↔ e ∈ events ∨ e ∈ tail := by
  rw [Table.mem_iff, h.rows, List.mem_append, Table.mem_iff]

theorem sorted_empty : Sorted ∅ := fun e he => absurd he (Table.not_mem_empty e)

theorem Step.sorted {call : Call} (hs : Sorted db) (h : Step newV4 db call db') : Sorted db' := by
  intro e he
  rcases h.events with ⟨tail, hextends⟩ | ⟨deleted, -, hdeleted⟩
  · rcases hextends.mem_iff.1 he with he | he
    · exact hs e he
    · exact hextends.streams e he
  · rw [hdeleted, Table.mem_deleteWhere] at he
    exact hs e he.1

theorem Extends.appended_eq {tail : List ComputerEvent} (h : Extends db.events db'.events tail) :
    appended db db' = tail := by
  have hnodup : (db.events.rows ++ tail).Nodup := by
    rw [← h.rows]
    exact List.Nodup.of_map _ db'.events.nodup
  have hdisjoint := List.disjoint_of_nodup_append hnodup
  unfold appended
  rw [h.rows, List.filter_append, List.filter_eq_nil_iff.2, List.nil_append, List.filter_eq_self]
  · intro e he
    rw [decide_eq_true_eq]
    exact fun h' => hdisjoint h' he
  · intro e he
    rw [decide_eq_true_eq, not_not]
    exact he

/-! ## Calls that do not delete the environment -/

namespace Keeping

variable {label : Call × List ComputerEvent} (h : Keeping newV4 environmentId db label db')
include h

theorem mem_events (hs : Sorted db) {e : ComputerEvent} (hstream : e.streamId = streamIdOf environmentId)
    (he : e ∈ db.events ∨ e ∈ label.2) : e ∈ db'.events := by
  obtain ⟨⟨hstep, hlabel⟩, hkeeps⟩ := h
  rw [hlabel] at he
  rcases hstep.events with ⟨tail, hextends⟩ | ⟨deleted, hcall, hdeleted⟩
  · rw [hextends.appended_eq] at he
    exact hextends.mem_iff.2 he
  · rcases he with he | he
    · rw [hdeleted, Table.mem_deleteWhere]
      refine ⟨he, decide_eq_false fun hdel => hkeeps ?_⟩
      rw [hs e he, streamIdOf_inj] at hstream
      rw [hcall, ← hdel, hstream]
    · exact (List.mem_filter.1 he).1

theorem latestSeq_le (hs : Sorted db) :
    db.latestSeq (streamIdOf environmentId) ≤ db'.latestSeq (streamIdOf environmentId) := by
  rw [latestSeq_le_iff]
  intro e he hstream
  rw [← hstream]
  exact seq_le_latestSeq (mem_events h hs hstream (.inl he))

theorem lt_of_mem {e : ComputerEvent} (hstream : e.streamId = streamIdOf environmentId) (he : e ∈ label.2) :
    db.latestSeq (streamIdOf environmentId) < e.seq := by
  obtain ⟨⟨hstep, hlabel⟩, -⟩ := h
  rw [hlabel] at he
  rcases hstep.events with ⟨tail, hextends⟩ | ⟨deleted, -, hdeleted⟩
  · rw [hextends.appended_eq] at he
    have hle : db.latestSeq (streamIdOf environmentId) ≤ e.seq - 1 := by
      rw [latestSeq_le_iff]
      intro e' he' hstream'
      exact Nat.le_sub_one_of_lt (hextends.after e' he' e he (hstream'.trans hstream.symm))
    have hpos := hextends.positive e he
    omega
  · obtain ⟨he, hnew⟩ := List.mem_filter.1 he
    rw [hdeleted] at he
    rw [decide_eq_true_eq] at hnew
    exact absurd (Table.mem_deleteWhere.1 he).1 hnew

theorem pairwise : label.2.Pairwise Increases := by
  obtain ⟨⟨hstep, hlabel⟩, -⟩ := h
  rw [hlabel]
  rcases hstep.events with ⟨tail, hextends⟩ | ⟨deleted, -, hdeleted⟩
  · rw [hextends.appended_eq]
    exact hextends.inner
  · have hnil : appended db db' = [] := by
      refine List.filter_eq_nil_iff.2 fun e he => ?_
      rw [hdeleted] at he
      rw [decide_eq_true_eq, not_not]
      exact (Table.mem_deleteWhere.1 he).1
    rw [hnil]
    exact .nil

end Keeping

/-! ## Pages -/

/-- The events of a stream after a cursor, in the order of their numbers. -/
def following (environmentId : String) (cursor : ℕ) (db : ComputerJournal) : List ComputerEvent :=
  List.insertionSort (fun e e' : ComputerEvent => e.seq ≤ e'.seq) (db.events.rows.filter fun event =>
    decide (event.streamId = streamIdOf environmentId) && decide (cursor < event.seq))

theorem mem_following {cursor : ℕ} {e : ComputerEvent} :
    e ∈ following environmentId cursor db ↔
      e ∈ db.events ∧ e.streamId = streamIdOf environmentId ∧ cursor < e.seq := by
  unfold following
  rw [List.mem_insertionSort, List.mem_filter, Bool.and_eq_true, decide_eq_true_eq, decide_eq_true_eq, Table.mem_iff]

theorem following_pairwise (environmentId : String) (cursor : ℕ) (db : ComputerJournal) :
    (following environmentId cursor db).Pairwise fun e e' => e.seq < e'.seq := by
  have hnodup : (following environmentId cursor db).Pairwise fun e e' => e.position ≠ e'.position := by
    have hrows : ((db.events.rows.filter fun event => decide (event.streamId = streamIdOf environmentId) &&
        decide (cursor < event.seq)).map ComputerEvent.position).Nodup :=
      (List.filter_sublist.map _).nodup db.events.nodup
    exact List.pairwise_map.1 (((List.perm_insertionSort _ _).map _).nodup_iff.2 hrows)
  have hle : (following environmentId cursor db).Pairwise fun e e' => e.seq ≤ e'.seq :=
    List.pairwise_insertionSort _ _
  refine (hle.and hnodup).imp_of_mem fun {e e'} he he' h => ?_
  have hstream : e.streamId = e'.streamId := (mem_following.1 he).2.1.trans (mem_following.1 he').2.1.symm
  refine lt_of_le_of_ne h.1 fun hseq => h.2 ?_
  exact Prod.ext hstream hseq

/-- How many events a page has at most. -/
def pageSize (limit : ℕ) : ℕ := max 1 (min limit maxReplayLimit)

/-- A page is the first events after its cursor, at least one if there are any. -/
theorem replay_ok_iff {cursor limit : ℕ} {page : ComputerReplayPage} :
    db.replay environmentId cursor limit = .ok page ↔ cursor < 2 ^ 63 ∧
      page = {
        streamId := streamIdOf environmentId
        events := (following environmentId cursor db).take (pageSize limit)
        nextAfterSeq := (((following environmentId cursor db).take (pageSize limit)).getLast?.map
          ComputerEvent.seq).getD cursor
        hasMore := decide (pageSize limit < (following environmentId cursor db).length) } := by
  unfold replay
  dsimp only
  rw [ite_error_ok_iff, not_le, Except.ok.injEq, ← following, ← pageSize, List.take_take,
    min_eq_left (Nat.le_succ (pageSize limit)), List.length_take]
  refine and_congr_right fun _ => ?_
  have hmore : decide (pageSize limit < min (pageSize limit + 1) (following environmentId cursor db).length) =
      decide (pageSize limit < (following environmentId cursor db).length) := by
    apply decide_eq_decide.2
    omega
  rw [hmore]
  exact eq_comm

theorem mem_following_nextAfterSeq {cursor limit : ℕ} {page : ComputerReplayPage}
    (h : db.replay environmentId cursor limit = .ok page) {e : ComputerEvent}
    (he : e ∈ following environmentId cursor db) (hpage : e ∉ page.events) :
    e ∈ following environmentId page.nextAfterSeq db := by
  obtain ⟨-, rfl⟩ := replay_ok_iff.1 h
  dsimp only at hpage ⊢
  obtain ⟨hmem, hstream, hcursor⟩ := mem_following.1 he
  refine mem_following.2 ⟨hmem, hstream, ?_⟩
  cases hlast : ((following environmentId cursor db).take (pageSize limit)).getLast? with
  | none => exact hcursor
  | some last =>
    have hdrop : e ∈ (following environmentId cursor db).drop (pageSize limit) := by
      rw [← List.take_append_drop (pageSize limit) (following environmentId cursor db)] at he
      exact (List.mem_append.1 he).resolve_left hpage
    have hpairwise := following_pairwise environmentId cursor db
    rw [← List.take_append_drop (pageSize limit) (following environmentId cursor db)] at hpairwise
    exact (List.pairwise_append.1 hpairwise).2.2 last (List.mem_of_getLast? hlast) e hdrop

/-- A client that follows the pages is given every event after its cursor. -/
theorem Pages.mem {cursor : ℕ} {events : List ComputerEvent} (h : Pages environmentId db cursor events)
    {e : ComputerEvent} (he : e ∈ following environmentId cursor db) : e ∈ events := by
  induction h with
  | last hpage hmore =>
    obtain ⟨-, rfl⟩ := replay_ok_iff.1 hpage
    rw [decide_eq_false_iff_not, not_lt] at hmore
    dsimp only
    rwa [List.take_of_length_le hmore]
  | @more cursor limit page events hpage hmore _ ih =>
    by_cases hmem : e ∈ page.events
    · exact List.mem_append_left _ hmem
    · exact List.mem_append_right _ (ih (mem_following_nextAfterSeq hpage he hmem))

theorem nextAfterSeq_cases {cursor limit : ℕ} {page : ComputerReplayPage}
    (h : db.replay environmentId cursor limit = .ok page) :
    page.nextAfterSeq = cursor ∧ page.hasMore = false ∨
      ∃ last ∈ following environmentId cursor db, page.nextAfterSeq = last.seq := by
  obtain ⟨-, rfl⟩ := replay_ok_iff.1 h
  dsimp only
  cases hlast : ((following environmentId cursor db).take (pageSize limit)).getLast? with
  | none =>
    have hsize : 1 ≤ pageSize limit := le_max_left _ _
    rw [List.getLast?_eq_none_iff, List.take_eq_nil_iff] at hlast
    have hnil : following environmentId cursor db = [] := hlast.resolve_left (by omega)
    refine .inl ⟨rfl, decide_eq_false ?_⟩
    rw [hnil]
    exact Nat.not_lt_zero _
  | some last => exact .inr ⟨last, List.mem_of_mem_take (List.mem_of_getLast? hlast), rfl⟩

theorem seq_le_of_mem_following {cursor : ℕ} {e : ComputerEvent} (he : e ∈ following environmentId cursor db) :
    e.seq ≤ db.latestSeq (streamIdOf environmentId) := by
  obtain ⟨hmem, hstream, -⟩ := mem_following.1 he
  rw [← hstream]
  exact seq_le_latestSeq hmem

theorem exists_pages (hbound : db.latestSeq (streamIdOf environmentId) < 2 ^ 63) {cursor : ℕ}
    (hcursor : cursor ≤ db.latestSeq (streamIdOf environmentId)) (limit : ℕ) :
    ∃ events, Pages environmentId db cursor events := by
  induction hleft : db.latestSeq (streamIdOf environmentId) - cursor using Nat.strong_induction_on
    generalizing cursor with
  | _ left ih =>
    subst hleft
    obtain ⟨page, hpage⟩ : ∃ page, db.replay environmentId cursor limit = .ok page :=
      ⟨_, replay_ok_iff.2 ⟨hcursor.trans_lt hbound, rfl⟩⟩
    rcases nextAfterSeq_cases hpage with ⟨-, hlast⟩ | ⟨last, hlast, hnext⟩
    · exact ⟨_, .last hpage hlast⟩
    · have hle := seq_le_of_mem_following hlast
      have hlt := (mem_following.1 hlast).2.2
      rw [← hnext] at hle hlt
      obtain ⟨events, hevents⟩ := ih _ (by omega) hle rfl
      cases hmore : page.hasMore with
      | true => exact ⟨_, .more hpage hmore hevents⟩
      | false => exact ⟨_, .last hpage hmore⟩

/-! ## Runs -/

theorem Reachable.sorted (h : Reachable newV4 db) : Sorted db :=
  Reaches.invariant (fun _ _ _ hs hstep => hstep.sorted hs) h sorted_empty

theorem Cursor.le_latestSeq {cursor : ℕ} (h : Cursor newV4 environmentId db cursor) :
    cursor ≤ db.latestSeq (streamIdOf environmentId) := by
  induction h with
  | start => exact Nat.zero_le _
  | page _ hpage ih =>
    rcases nextAfterSeq_cases hpage with ⟨hnext, -⟩ | ⟨last, hlast, hnext⟩
    · exact hnext ▸ ih
    · exact hnext ▸ seq_le_of_mem_following hlast
  | sent he hstream => exact hstream ▸ seq_le_latestSeq he
  | later hdb _ hkeeping ih => exact ih.trans (hkeeping.latestSeq_le hdb.sorted)

/-- Two events of the stream of the environment, one appended before the other. -/
def IncreasesOn (environmentId : String) (e e' : ComputerEvent) : Prop :=
  e.streamId = streamIdOf environmentId → e'.streamId = streamIdOf environmentId → e.seq < e'.seq

/-- In every run that keeps the environment its numbers increase, and a client that follows the pages is given every
later event. -/
theorem numbers_increase (newV4 : ℕ → String) (environmentId : String) {db db' : ComputerJournal}
    {before after : List (Call × List ComputerEvent)} (h₁ : Run (Keeping newV4 environmentId) ∅ before db)
    (h₂ : Run (Keeping newV4 environmentId) db after db') :
    ((before ++ after).flatMap Prod.snd).Pairwise (IncreasesOn environmentId) ∧
    ∀ cursor, Cursor newV4 environmentId db cursor →
      (db'.latestSeq (streamIdOf environmentId) < 2 ^ 63 → ∃ events, Pages environmentId db' cursor events) ∧
      ∀ events, Pages environmentId db' cursor events →
        ∀ event ∈ after.flatMap Prod.snd, event.streamId = streamIdOf environmentId → event ∈ events := by
  have hsorted : ∀ s label t, Sorted s → Keeping newV4 environmentId s label t → Sorted t :=
    fun _ _ _ hs hstep => hstep.1.1.sorted hs
  have hmem : ∀ s label t, Keeping newV4 environmentId s label t → ∀ e ∈ label.2, e ∈ t.events := by
    rintro s label t ⟨⟨-, hlabel⟩, -⟩ e he
    rw [hlabel] at he
    exact (List.mem_filter.1 he).1
  constructor
  · refine ((h₁.append h₂).under hsorted sorted_empty).pairwise_outputs
      (B := fun e s => e.streamId = streamIdOf environmentId → e ∈ s.events) ?_ ?_ ?_ ?_
    · exact fun e s label t he hstep hstream =>
        hstep.1.mem_events hstep.2 hstream (.inl (he hstream))
    · exact fun s label t hstep e he _ => hmem s label t hstep.1 e he
    · intro e s label t he hstep e' he' hstream hstream'
      have hle := seq_le_latestSeq (he hstream)
      rw [hstream] at hle
      exact hle.trans_lt (hstep.1.lt_of_mem hstream' he')
    · intro s label t hstep
      exact hstep.1.pairwise.imp fun hlt hstream hstream' => hlt (hstream.trans hstream'.symm)
  · intro cursor hcursor
    have hdb : Sorted db := h₁.invariant hsorted sorted_empty
    have h₂' := h₂.under hsorted hdb
    have hbound : cursor ≤ db'.latestSeq (streamIdOf environmentId) :=
      h₂'.invariant (I := fun s => cursor ≤ s.latestSeq (streamIdOf environmentId))
        (fun s label t hle hstep => hle.trans (hstep.1.latestSeq_le hstep.2)) hcursor.le_latestSeq
    refine ⟨fun hsmall => exists_pages hsmall hbound 1, fun events hpages event hevent hstream => ?_⟩
    refine hpages.mem (mem_following.2 ⟨?_, hstream, ?_⟩)
    · refine h₂'.outputs_kept (B := fun e s => e.streamId = streamIdOf environmentId → e ∈ s.events) ?_ ?_
        event hevent hstream
      · exact fun s label t hstep e he _ => hmem s label t hstep.1 e he
      · exact fun e s label t he hstep hstream => hstep.1.mem_events hstep.2 hstream (.inl (he hstream))
    · refine h₂'.outputs (P := fun e => e.streamId = streamIdOf environmentId → cursor < e.seq)
        (Q := fun s => cursor ≤ s.latestSeq (streamIdOf environmentId)) ?_ ?_ hcursor.le_latestSeq
        event hevent hstream
      · exact fun s label t hle hstep => hle.trans (hstep.1.latestSeq_le hstep.2)
      · exact fun s label t hle hstep e he hstream => hle.trans_lt (hstep.1.lt_of_mem hstream he)

def log (newV4 : ℕ → String) : List (Op × Timestamp) → ComputerJournal → List (Call × List ComputerEvent)
  | [], _ => []
  | (op, now) :: ops, db =>
    let db' := (perform newV4 op now db).2
    ((perform newV4 op now db).1, appended db db') :: log newV4 ops db'

theorem run_log (newV4 : ℕ → String) (ops : List (Op × Timestamp)) (db : ComputerJournal) :
    Run (Appending newV4) db (log newV4 ops db) (execute newV4 ops db) := by
  induction ops generalizing db with
  | nil => exact .nil db
  | cons op ops ih => exact .cons ⟨step_perform newV4 op.1 op.2 db, rfl⟩ (ih _)

theorem run_log_keeping (newV4 : ℕ → String) {ops : List (Op × Timestamp)} {environmentId : String}
    (hops : ∀ op ∈ ops, op.1 ≠ .deleteEnvironment environmentId) (db : ComputerJournal) :
    Run (Keeping newV4 environmentId) db (log newV4 ops db) (execute newV4 ops db) := by
  induction ops generalizing db with
  | nil => exact .nil db
  | cons op ops ih =>
    have hop : (perform newV4 op.1 op.2 db).1.op = op.1 := by
      unfold perform
      split <;> rfl
    refine .cons ⟨⟨step_perform newV4 op.1 op.2 db, rfl⟩, fun hdelete => ?_⟩
      (ih (fun op' h => hops op' (List.mem_cons_of_mem _ h)) _)
    exact hops op List.mem_cons_self (hop.symm.trans (congrArg Call.op hdelete))

section Example

def exampleId (n : ℕ) : String := String.ofList (List.replicate n 'i')

def exampleResources : ComputerResources := ⟨"4", 8589934592, 512, 1073741824, 2147483648⟩

def prepares (environmentId : String) : List (Op × Timestamp) :=
  [(.upsertEnvironment environmentId "site" "/work/site" .preparing exampleResources "computer.preparing", 1),
    (.setEnvironmentState environmentId .ready "computer.ready", 2)]

theorem numbers_increase_ready :
    ((log exampleId (prepares "computer-a") ∅ ++ log exampleId [(.setEnvironmentState "computer-a" .suspended
      "computer.suspended", 3)] (execute exampleId (prepares "computer-a") ∅)).flatMap Prod.snd).map
        ComputerEvent.seq = [1, 2, 3] ∧
    ((log exampleId (prepares "computer-a") ∅ ++ log exampleId [(.setEnvironmentState "computer-a" .suspended
      "computer.suspended", 3)] (execute exampleId (prepares "computer-a") ∅)).flatMap Prod.snd).Pairwise
        (IncreasesOn "computer-a") :=
  ⟨by decide, (numbers_increase exampleId "computer-a" (run_log_keeping exampleId (by simp [prepares]) ∅)
    (run_log_keeping exampleId (by simp) _)).1⟩

def recreates (environmentId : String) : List (Op × Timestamp) :=
  [(.deleteEnvironment environmentId, 3),
    (.upsertEnvironment environmentId "site" "/work/site" .preparing exampleResources "computer.preparing", 4)]

/-- The environment is deleted and made again: its numbers start over, and the replay from 2 returns nothing. -/
theorem recreated_stream_restarts :
    let before := execute exampleId (prepares "computer-a") ∅
    let after := execute exampleId (recreates "computer-a") before
    Run (Appending exampleId) ∅ (log exampleId (prepares "computer-a") ∅) before ∧
    Run (Appending exampleId) before (log exampleId (recreates "computer-a") before) after ∧
    Cursor exampleId "computer-a" before 2 ∧
    ((log exampleId (prepares "computer-a") ∅ ++ log exampleId (recreates "computer-a") before).flatMap
      Prod.snd).map (fun e => (e.streamId, e.seq)) =
        [("computer:computer-a", 1), ("computer:computer-a", 2), ("computer:computer-a", 1)] ∧
    (after.replay "computer-a" 2 500).map ComputerReplayPage.events = .ok [] := by
  refine ⟨run_log .., run_log .., ?_, by decide, by decide⟩
  have hpage : ((execute exampleId (prepares "computer-a") ∅).replay "computer-a" 0 500).map
      ComputerReplayPage.nextAfterSeq = .ok 2 := by decide
  obtain ⟨page, hreplay, hnext⟩ := map_ok_iff.1 hpage
  exact hnext ▸ .page (.start _) hreplay

end Example

end Wiii.Neko.Computer
