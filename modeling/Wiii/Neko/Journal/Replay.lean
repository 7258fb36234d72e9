import Wiii.Lib.Paging
import Wiii.Neko.Journal.Sequence

/-!
# Reading a stream to its end

A client asks for page after page from the sequence number it was given last, until a page says that there are no more.
The events of a stream are stored in ascending order (`Reachable.inOrder`), so what the client has, then what lies above
its cursor, is what lies above the first cursor (`Reading.asks`).  A limit that the journal does not take is refused, so
a client that sends no other never ends (`refused_for_ever`).
-/

namespace Wiii.Neko

open Journal Database
open Paging (Ordered above page)

variable {db db' : Database} {tick : Tick} {streamId : String} {after limit : ℕ}

namespace Database

def stream (streamId : String) (db : Database) : List ControlEvent :=
  db.events.rows.filter fun event => decide (event.streamId = streamId)

/-- The retained events of a stream above a sequence number. -/
def following (streamId : String) (after : ℕ) (db : Database) : List ControlEvent :=
  above ControlEvent.seq after (db.stream streamId)

def InOrder (db : Database) : Prop := ∀ streamId, Ordered ControlEvent.seq (db.stream streamId)

theorem mem_stream {event : ControlEvent} : event ∈ db.stream streamId ↔ event ∈ db.events ∧ event.streamId = streamId := by
  simp [stream, Table.mem_iff]

end Database

/-! ## The order of the events -/

theorem inOrder_append {assigned : List ControlEvent} (h : db.InOrder) (hone : assigned.length ≤ 1)
    (hseq : ∀ event ∈ assigned, event.seq = db.latestSeq event.streamId + 1)
    (hrows : db'.events.rows = db.events.rows ++ assigned) : db'.InOrder := by
  intro streamId
  have hstream : db'.stream streamId =
      db.stream streamId ++ assigned.filter fun event => decide (event.streamId = streamId) := by
    unfold Database.stream
    rw [hrows, List.filter_append]
  rw [hstream]
  refine List.pairwise_append.2 ⟨h streamId, ?_, fun old hold new hnew => ?_⟩
  · refine List.Pairwise.filter _ ?_
    match assigned, hone with
    | [], _ => exact List.Pairwise.nil
    | [event], _ => exact List.pairwise_singleton _ _
  · obtain ⟨hnew, hid⟩ := List.mem_filter.1 hnew
    obtain ⟨hmem, hstreamId⟩ := mem_stream.1 hold
    rw [hseq new hnew, of_decide_eq_true hid, ← hstreamId]
    exact Nat.lt_succ_of_le (seq_le_latestSeq hmem)

theorem inOrder_maintained {terminalNow requestNow : Timestamp} (h : db.InOrder) :
    (maintained terminalNow requestNow tick db).InOrder := by
  intro streamId
  have hkept := (h streamId).filter fun event => !prunesEvent db (tick.now - days eventRetentionDays) event
  unfold Database.stream maintained
  simp only [Table.updateWhere, Table.deleteWhere, List.filter_map]
  rw [Ordered, List.pairwise_map]
  refine (List.Pairwise.imp ?_ hkept).sublist ?_
  · intro a b hab
    split_ifs <;> exact hab
  · rw [Database.stream, List.filter_filter, List.filter_filter]
    refine (List.filter_congr fun event _ => ?_).symm ▸ List.Sublist.refl _
    simp only [Function.comp_apply]
    split_ifs <;> exact Bool.and_comm _ _

theorem Call.assigned_length_le (call : Call) : call.assigned.length ≤ 1 := by
  unfold Call.assigned
  split <;> simp

theorem Step.inOrder {call : Call} (h : Step db call db') (hdb : db.InOrder) : db'.InOrder := by
  rcases h.events.2 with hrows | ⟨-, t, r, hop⟩
  · exact inOrder_append hdb call.assigned_length_le h.events.1 hrows
  · rcases h.cases with ⟨rfl, -⟩ | ⟨answer, -, happly⟩
    · exact hdb
    · rw [hop] at happly
      simp only [Op.apply, startupMaintenance_eq, Except.map, Except.ok.injEq, Prod.mk.injEq] at happly
      obtain ⟨-, rfl⟩ := happly
      exact inOrder_maintained hdb

theorem Reachable.inOrder (h : Reachable db) : db.InOrder :=
  h.invariant (fun _ => List.Pairwise.nil) fun _ _ _ hdb hstep => hstep.inOrder hdb

/-! ## One page -/

/-- The limits that `replay` takes. -/
def acceptsLimit (limit : ℕ) : Bool := 1 ≤ limit && limit ≤ maxReplayLimit

theorem replay_ok_iff (hdb : db.InOrder) {answered : ReplayPage} :
    replay streamId after limit db = .ok answered ↔ acceptsLimit limit ∧ after < 2 ^ 63 ∧
      answered = {
        streamId
        events := (db.following streamId after).take limit
        nextAfterSeq := (((db.following streamId after).take limit).getLast?.map ControlEvent.seq).getD after
        hasMore := decide (limit < (db.following streamId after).length) } := by
  have hrows : (db.events.rows.filter fun event =>
      decide (event.streamId = streamId) && decide (after < event.seq)).insertionSort
        (fun a b => a.seq ≤ b.seq) = db.following streamId after := by
    have hfilter : db.following streamId after = db.events.rows.filter fun event =>
        decide (event.streamId = streamId) && decide (after < event.seq) := by
      rw [Database.following, above, Database.stream, List.filter_filter]
      exact List.filter_congr fun _ _ => Bool.and_comm _ _
    rw [← hfilter]
    exact List.Pairwise.insertionSort_eq (((hdb streamId).above after).imp Nat.le_of_lt)
  have hmore : decide (limit < ((db.following streamId after).take (limit + 1)).length) =
      decide (limit < (db.following streamId after).length) := by
    rw [List.length_take]
    apply decide_eq_decide.2
    omega
  unfold replay
  rw [bind_unit_ok_iff, bind_unit_ok_iff, ensure_ok_iff, ensure_ok_iff, hrows]
  dsimp only
  rw [hmore, List.take_take, Nat.min_eq_left (Nat.le_succ limit), decide_eq_true_eq, acceptsLimit]
  simp only [pure, Except.pure, Except.ok.injEq, eq_comm]

theorem replay_page (hdb : db.InOrder) {answered : ReplayPage} (h : replay streamId after limit db = .ok answered) :
    answered.events = (page ControlEvent.seq after limit (db.stream streamId)).1 ∧
      (page ControlEvent.seq after limit (db.stream streamId)).2 =
        if answered.hasMore then some answered.nextAfterSeq else none := by
  obtain ⟨haccepts, -, rfl⟩ := (replay_ok_iff hdb).1 h
  have hpos : 1 ≤ limit := of_decide_eq_true (Bool.and_eq_true_iff.1 haccepts).1
  unfold page
  rw [← Database.following]
  dsimp only
  by_cases hmore : limit < (db.following streamId after).length
  · rw [if_pos (by rw [List.length_take]; omega), List.take_take, Nat.min_eq_left (Nat.le_succ limit),
      if_pos (decide_eq_true hmore)]
    cases hlast : ((db.following streamId after).take limit).getLast? with
    | none =>
      rw [List.getLast?_eq_none_iff, List.take_eq_nil_iff] at hlast
      rcases hlast with hzero | hnil
      · omega
      · rw [hnil] at hmore
        cases hmore
    | some last => exact ⟨rfl, rfl⟩
  · rw [if_neg (by rw [List.length_take]; omega), if_neg (by simpa using hmore),
      List.take_of_length_le (by omega), List.take_of_length_le (by omega)]
    exact ⟨rfl, rfl⟩

theorem nextAfterSeq_le {answered : ReplayPage} (hdb : db.InOrder) (h : replay streamId after limit db = .ok answered) :
    answered.nextAfterSeq ≤ max after (db.latestSeq streamId) := by
  obtain ⟨-, -, rfl⟩ := (replay_ok_iff hdb).1 h
  dsimp only
  cases hlast : ((db.following streamId after).take limit).getLast? with
  | none => exact le_max_left _ _
  | some last =>
    have hmem := (Paging.mem_above.1 (List.mem_of_mem_take (List.mem_of_getLast? hlast))).1
    obtain ⟨hevent, hstream⟩ := mem_stream.1 hmem
    exact le_max_of_le_right (hstream ▸ seq_le_latestSeq hevent)

/-! ## A client -/

/-- The number that was given last, the events so far, and whether there are more. -/
structure PageReader where
  cursor : ℕ
  received : List ControlEvent := []
  finished : Bool := false

/-- An error leaves the client where it is. -/
def PageReader.take (reader : PageReader) : Except String ReplayPage → PageReader
  | .error _ => reader
  | .ok answered => ⟨answered.nextAfterSeq, reader.received ++ answered.events, !answered.hasMore⟩

def PageReader.ask (streamId : String) (db : Database) (reader : PageReader) (limit : ℕ) : PageReader :=
  if reader.finished then reader else reader.take (replay streamId reader.cursor limit db)

inductive ReadAct where
  | write (call : Call)
  | ask (limit : ℕ)
  /-- The journal could not be read. -/
  | askFailed

/-- The client asks while the journal is written; maintenance runs at its opening only. -/
inductive ReadStep (streamId : String) : Database × PageReader → ReadAct → Database × PageReader → Prop
  | write {db db' : Database} {reader : PageReader} {call : Call} (step : Step db call db')
      (opened : ∀ terminalNow requestNow, call.op ≠ .startupMaintenance terminalNow requestNow) :
    ReadStep streamId (db, reader) (.write call) (db', reader)
  | ask {db : Database} {reader : PageReader} {limit : ℕ} :
    ReadStep streamId (db, reader) (.ask limit) (db, reader.ask streamId db limit)
  | askFailed {db : Database} {reader : PageReader} : ReadStep streamId (db, reader) .askFailed (db, reader)

variable {reader : PageReader} {start : ℕ}

/-- What the client has, then what lies above its cursor, is what lies above its first cursor. -/
structure Reading (streamId : String) (start : ℕ) (db : Database) (reader : PageReader) : Prop where
  inOrder : db.InOrder
  sorted : Ordered ControlEvent.seq reader.received
  cursor : reader.cursor ≤ max start (db.latestSeq streamId)
  rest : reader.finished = false → ∀ now, Ordered ControlEvent.seq now → db.stream streamId <+: now →
    above ControlEvent.seq start now = reader.received ++ above ControlEvent.seq reader.cursor now

namespace Reading

theorem init (hdb : db.InOrder) : Reading streamId start db { cursor := start } where
  inOrder := hdb
  sorted := List.Pairwise.nil
  cursor := le_max_left _ _
  rest _ _ _ _ := rfl

theorem write {call : Call} (h : Reading streamId start db reader) (hstep : Step db call db')
    (hopened : ∀ t r, call.op ≠ .startupMaintenance t r) : Reading streamId start db' reader where
  inOrder := hstep.inOrder h.inOrder
  sorted := h.sorted
  cursor := h.cursor.trans (max_le_max le_rfl (hstep.latestSeq_le streamId))
  rest hunfinished now hnow hprefix := by
    refine h.rest hunfinished now hnow (List.IsPrefix.trans ?_ hprefix)
    rcases hstep.events.2 with hrows | ⟨-, t, r, hop⟩
    · unfold Database.stream
      rw [hrows, List.filter_append]
      exact List.prefix_append _ _
    · exact absurd hop (hopened t r)

/-- The page that ends the reading brings what was still missing. -/
theorem received_eq {answered : ReplayPage} (h : Reading streamId start db reader) (hunfinished : reader.finished = false)
    (hpage : replay streamId reader.cursor limit db = .ok answered) (hlast : answered.hasMore = false) :
    reader.received ++ answered.events = db.following streamId start := by
  obtain ⟨haccepts, -, -⟩ := (replay_ok_iff h.inOrder).1 hpage
  have hpos : 1 ≤ limit := of_decide_eq_true (Bool.and_eq_true_iff.1 haccepts).1
  obtain ⟨hevents, hcursor⟩ := replay_page h.inOrder hpage
  rw [hlast] at hcursor
  rw [hevents, Paging.page_of_none hcursor hpos]
  exact (h.rest hunfinished _ (h.inOrder streamId) List.prefix_rfl).symm

theorem ask (h : Reading streamId start db reader) (limit : ℕ) :
    Reading streamId start db (reader.ask streamId db limit) := by
  unfold PageReader.ask
  cases hfinished : reader.finished with
  | true => exact h
  | false =>
    rw [if_neg Bool.false_ne_true]
    cases hpage : replay streamId reader.cursor limit db with
    | error error => exact h
    | ok answered =>
      obtain ⟨hevents, hcursor⟩ := replay_page h.inOrder hpage
      have hle : answered.nextAfterSeq ≤ max start (db.latestSeq streamId) :=
        (nextAfterSeq_le h.inOrder hpage).trans (max_le h.cursor (le_max_right _ _))
      cases hmore : answered.hasMore with
      | true =>
        rw [hmore, if_pos rfl] at hcursor
        have hrest : ∀ now, Ordered ControlEvent.seq now → db.stream streamId <+: now →
            above ControlEvent.seq start now =
              (reader.received ++ answered.events) ++ above ControlEvent.seq answered.nextAfterSeq now := by
          intro now hnow hprefix
          rw [h.rest hfinished now hnow hprefix, Paging.above_eq_page_append hnow hprefix hcursor, ← hevents,
            List.append_assoc]
        refine ⟨h.inOrder, ?_, hle, fun _ => hrest⟩
        have hall := hrest _ (h.inOrder streamId) List.prefix_rfl
        exact ((h.inOrder streamId).above start).of_isPrefix ⟨_, hall.symm⟩
      | false =>
        refine ⟨h.inOrder, ?_, hle, fun hunfinished => ?_⟩
        · show Ordered ControlEvent.seq (reader.received ++ answered.events)
          rw [h.received_eq hfinished hpage hmore]
          exact (h.inOrder streamId).above start
        · simp [PageReader.take, hmore] at hunfinished

theorem step {act : ReadAct} {now : Database × PageReader} (h : Reading streamId start db reader)
    (hstep : ReadStep streamId (db, reader) act now) : Reading streamId start now.1 now.2 := by
  cases hstep with
  | write hstep hopened => exact h.write hstep hopened
  | ask => exact h.ask _
  | askFailed => exact h

theorem ask_progress (h : Reading streamId start db reader) (hunfinished : reader.finished = false)
    (hlimit : acceptsLimit limit) (hcursor : reader.cursor < 2 ^ 63) :
    (reader.ask streamId db limit).finished = true ∨
      (db.following streamId (reader.ask streamId db limit).cursor).length <
        (db.following streamId reader.cursor).length := by
  obtain ⟨answered, hpage⟩ : ∃ answered, replay streamId reader.cursor limit db = .ok answered :=
    ⟨_, (replay_ok_iff h.inOrder).2 ⟨hlimit, hcursor, rfl⟩⟩
  unfold PageReader.ask
  rw [if_neg (by rw [hunfinished]; exact Bool.false_ne_true), hpage]
  cases hmore : answered.hasMore with
  | false => exact Or.inl (by simp [PageReader.take, hmore])
  | true =>
    have hnext := (replay_page h.inOrder hpage).2
    rw [hmore, if_pos rfl] at hnext
    obtain ⟨first, last, -, hitems, -⟩ := Paging.page_of_some hnext
    have hsplit : db.following streamId reader.cursor = (first ++ [last]) ++ db.following streamId answered.nextAfterSeq :=
      hitems ▸ Paging.above_eq_page_append (h.inOrder streamId) List.prefix_rfl hnext
    refine Or.inr ?_
    show (db.following streamId answered.nextAfterSeq).length < _
    rw [hsplit, List.length_append, List.length_append, List.length_singleton]
    omega

end Reading

theorem finished_foldl (h : reader.finished = true) (limits : List ℕ) :
    limits.foldl (PageReader.ask streamId db) reader = reader := by
  induction limits with
  | nil => rfl
  | cons limit limits ih =>
    have hask : reader.ask streamId db limit = reader := by
      rw [PageReader.ask, if_pos h]
    rw [List.foldl_cons, hask, ih]

theorem finished_of_accepted (h : Reading streamId start db reader) (hstart : start < 2 ^ 63)
    (hlatest : db.latestSeq streamId < 2 ^ 63) (limits : List ℕ)
    (hmany : (db.following streamId reader.cursor).length < limits.countP acceptsLimit) :
    (limits.foldl (PageReader.ask streamId db) reader).finished = true := by
  induction limits generalizing reader with
  | nil => cases hmany
  | cons limit limits ih =>
    rw [List.foldl_cons]
    cases hfinished : reader.finished with
    | true =>
      have hask : reader.ask streamId db limit = reader := by
        rw [PageReader.ask, if_pos hfinished]
      rw [hask, finished_foldl hfinished]
      exact hfinished
    | false =>
      by_cases hlimit : acceptsLimit limit
      · rw [List.countP_cons_of_pos hlimit] at hmany
        have hcursor : reader.cursor < 2 ^ 63 := h.cursor.trans_lt (max_lt hstart hlatest)
        rcases h.ask_progress hfinished hlimit hcursor with hdone | hless
        · rw [finished_foldl hdone]
          exact hdone
        · exact ih (h.ask limit) (by omega)
      · rw [List.countP_cons_of_neg hlimit] at hmany
        have hask : reader.ask streamId db limit = reader := by
          unfold PageReader.ask
          rw [if_neg (by rw [hfinished]; exact Bool.false_ne_true)]
          cases hpage : replay streamId reader.cursor limit db with
          | error error => rfl
          | ok answered => exact absurd ((replay_ok_iff h.inOrder).1 hpage).1 hlimit
        rw [hask]
        exact ih h hmany

/-- Whatever is appended between the pages, the last page completes the retained events above the first cursor, in
order; limits and cursors out of range are refused; and the pages end once the appends do. -/
theorem replay_complete {acts : List ReadAct} (hdb : Reachable db)
    (h : Run (ReadStep streamId) (db, { cursor := start }) acts (db', reader)) :
    Ordered ControlEvent.seq reader.received ∧
      (∀ limit, reader.finished = false → (reader.ask streamId db' limit).finished = true →
        (reader.ask streamId db' limit).received = db'.following streamId start) ∧
      (∀ limit, acceptsLimit limit = false ∨ 2 ^ 63 ≤ reader.cursor →
        ∃ error, replay streamId reader.cursor limit db' = .error error) ∧
      (start < 2 ^ 63 → db'.latestSeq streamId < 2 ^ 63 → ∀ limits : List ℕ,
        (db'.following streamId reader.cursor).length < limits.countP acceptsLimit →
        (limits.foldl (PageReader.ask streamId db') reader).finished = true) := by
  let I (s : Database × PageReader) : Prop := Reading streamId start s.1 s.2
  have hstep : ∀ s act t, I s → ReadStep streamId s act t → I t := fun _ _ _ hs hact => Reading.step hs hact
  have hreading : Reading streamId start db' reader := h.invariant hstep (Reading.init hdb.inOrder)
  refine ⟨hreading.sorted, fun limit hunfinished hdone => ?_, fun limit hrefused => ?_, finished_of_accepted hreading⟩
  · unfold PageReader.ask at hdone ⊢
    rw [if_neg (by rw [hunfinished]; exact Bool.false_ne_true)] at hdone ⊢
    cases hpage : replay streamId reader.cursor limit db' with
    | error error =>
      rw [hpage, PageReader.take, hunfinished] at hdone
      cases hdone
    | ok answered =>
      rw [hpage] at hdone
      exact hreading.received_eq hunfinished hpage (by simpa [PageReader.take] using hdone)
  · cases hpage : replay streamId reader.cursor limit db' with
    | error error => exact ⟨error, rfl⟩
    | ok answered =>
      obtain ⟨haccepts, hrange, -⟩ := (replay_ok_iff hreading.inOrder).1 hpage
      rcases hrefused with hlimit | hbeyond
      · rw [hlimit] at haccepts
        cases haccepts
      · omega

/-- Three events, the last of them appended between two pages. -/
theorem replay_complete_three :
    let note (id : String) (now : ℤ) : Op × Tick := (.appendEvent "run" "note" "run" none .null, ⟨now, id, none⟩)
    let before := perform ∅ [note "e1" 1, note "e2" 2]
    let after := perform before [note "e3" 3]
    let first := PageReader.ask "run" before { cursor := 0 } 1
    (first.finished, ((first.ask "run" after 2).received.map ControlEvent.seq)) = (false, [1, 2, 3]) ∧
      (first.ask "run" after 2).received = after.following "run" 0 := by
  intro note before after first
  let append : Call := ⟨(note "e3" 3).1, (note "e3" 3).2, (Program.transact (note "e3" 3).1.apply (note "e3" 3).2 before).1⟩
  have happended : Step before append after := rfl
  have hrun : Run (ReadStep "run") (before, { cursor := 0 }) [.ask 1, .write append] (after, first) := by
    refine .cons .ask (.single (.write happended ?_))
    intro _ _ hop
    cases hop
  refine ⟨rfl, (replay_complete (reachable_perform [note "e1" 1, note "e2" 2]) hrun).2.1 2 rfl rfl⟩

/-- A client that asks for pages of no events is refused each time. -/
theorem refused_for_ever :
    let db := perform ∅ [(.appendEvent "run" "note" "run" none .null, ⟨1, "e1", none⟩)]
    (db.following "run" 0).length = 1 ∧
      ¬ ∃ n, ((List.replicate n 0).foldl (PageReader.ask "run" db) { cursor := 0 }).finished = true := by
  intro db
  refine ⟨rfl, ?_⟩
  rintro ⟨n, hn⟩
  have hrefused : ((List.replicate n 0).foldl (PageReader.ask "run" db) { cursor := 0 }).finished = false := by
    induction n with
    | zero => rfl
    | succ n ih => exact ih hn
  rw [hrefused] at hn
  cases hn

end Wiii.Neko
