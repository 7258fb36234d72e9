import Wiii.Desktop.SemanticStreamBuffer

/-!
# Server-sent events

The server writes events of a few lines each, with a comment now and then to keep the connection alive, and the client
reads what comes of them in chunks.  However the text is cut, each event is handled once and in order
(`stream_received`).
-/

namespace Wiii.Desktop.Sse

open NekoChill

def carriageReturn : UInt16 := unitOf '\r'

def joinLines (lines : List JsText) : JsText := List.intercalate [newline] lines

/-! ## The client -/

/-- `.replace(/\r\n/g, "\n").replace(/\r/g, "\n")` -/
def normalizeChunk : JsText → JsText
  | [] => []
  | [unit] => [if unit = carriageReturn then newline else unit]
  | unit :: next :: rest =>
    if unit = carriageReturn then
      if next = newline then newline :: normalizeChunk rest else newline :: normalizeChunk (next :: rest)
    else unit :: normalizeChunk (next :: rest)

/-- The text before and behind the first `\n\n`. -/
def cutEvent : JsText → Option (JsText × JsText)
  | unit :: next :: rest =>
    if unit = newline ∧ next = newline then some ([], rest)
    else (cutEvent (next :: rest)).map fun cut => (unit :: cut.1, cut.2)
  | _ => none

theorem cutEvent_eq {text event rest : JsText} (h : cutEvent text = some (event, rest)) :
    text = event ++ newline :: newline :: rest := by
  fun_induction cutEvent text generalizing event with
  | case1 unit next rest' hbreak =>
    obtain ⟨rfl, rfl⟩ := hbreak
    cases h
    rfl
  | case2 unit next rest' hbreak ih =>
    obtain ⟨cut, hcut, heq⟩ := Option.map_eq_some_iff.1 h
    cases heq
    rw [ih hcut]
    rfl
  | case3 => cases h

/-- The events whose ends are there, and what is left. -/
def splitEvents (buffer : JsText) : List JsText × JsText :=
  match _hcut : cutEvent buffer with
  | none => ([], buffer)
  | some (event, rest) => (event :: (splitEvents rest).1, (splitEvents rest).2)
termination_by buffer.length
decreasing_by
  all_goals
    rw [cutEvent_eq _hcut, List.length_append]
    exact Nat.lt_add_left _ (Nat.lt_add_of_pos_right Nat.two_pos)

/-- What the lines of an event have said. -/
structure Fields where
  eventType : JsText := []
  dataLines : List JsText := []
  lastEventId : Option JsText

def after (mark : String) (line : JsText) : Option JsText :=
  if (js mark).isPrefixOf line then some (line.drop (js mark).length) else none

def readLine (fields : Fields) (line : JsText) : Fields :=
  match after "event: " line with
  | some rest => { fields with eventType := trimText rest }
  | none =>
    match (after "data: " line).or (after "data:" line) with
    | some rest => { fields with dataLines := fields.dataLines ++ [rest] }
    | none =>
      match (after "id: " line).or (after "id:" line) with
      | some rest => { fields with lastEventId := some (trimText rest) }
      | none => fields

/-- What is handed to `dispatchEvent`, or a call of `onKeepAlive`. -/
inductive Handled (γ : Type) where
  | keepAlive
  | event (eventType : JsText) (data : γ)

structure State (γ : Type) where
  lastEventId : Option JsText := none
  sawDone : Bool := false
  eventOrder : List JsText := []
  handled : List (Handled γ) := []

variable {γ : Type} (parse : JsText → Option γ)

def dispatchLines (s : State γ) (lines : List JsText) : State γ :=
  if lines.all fun line => (js ":").isPrefixOf (trimText line) then
    { s with eventOrder := s.eventOrder ++ [js "keepalive"], handled := s.handled ++ [.keepAlive] }
  else
    let fields := lines.foldl readLine { lastEventId := s.lastEventId }
    let s := { s with lastEventId := fields.lastEventId }
    if fields.eventType = [] ∨ fields.dataLines = [] then s
    else
      match parse (joinLines fields.dataLines) with
      | none => s
      | some data =>
        { s with
          sawDone := s.sawDone || decide (fields.eventType = js "done")
          eventOrder := s.eventOrder ++ [fields.eventType]
          handled := s.handled ++ [.event fields.eventType data] }

def dispatchEventString (s : State γ) (eventStr : JsText) : State γ :=
  dispatchLines parse s ((trimText eventStr).splitOn newline)

def dispatchAll (s : State γ) (events : List JsText) : State γ :=
  (events.filter fun event => !isBlank event).foldl (dispatchEventString parse) s

/-- With the buffer beside the rest of the state. -/
def parseBufferedEvents (flushTail : Bool) (buffer : JsText) (s : State γ) : JsText × State γ :=
  let (events, rest) := splitEvents (normalizeChunk buffer)
  let s := dispatchAll parse s events
  if flushTail && !isBlank rest then ([], dispatchEventString parse s rest) else (rest, s)

def receive (reading : JsText × State γ) (chunk : JsText) : JsText × State γ :=
  parseBufferedEvents parse false (reading.1 ++ normalizeChunk chunk) reading.2

def parseSSEStream (chunks : List JsText) : State γ :=
  let (buffer, s) := chunks.foldl (receive parse) ([], {})
  (parseBufferedEvents parse true buffer s).2

/-! ## The server -/

/-- What `format_sse` is given, with the JSON text, or a keep-alive comment. -/
inductive Sent where
  | keepAlive
  | event (event data : JsText) (eventId : Option JsText)

def Sent.lines : Sent → List JsText
  | keepAlive => [js ": keepalive"]
  | event name data eventId => (eventId.map (js "id: " ++ ·)).toList ++ [js "event: " ++ name, js "data: " ++ data]

def formatSse (sent : Sent) : JsText := joinLines sent.lines ++ [newline, newline]

def HasEnds (text : JsText) : Prop := text.head?.all isJsSpace = false ∧ text.getLast?.all isJsSpace = false

/-- One line without spaces around it. -/
structure Word (text : JsText) : Prop where
  ends : HasEnds text
  noNewline : newline ∉ text
  noReturn : carriageReturn ∉ text

def Sent.Plain : Sent → Prop
  | keepAlive => True
  | event name data eventId => Word name ∧ Word data ∧ ∀ id ∈ eventId, Word id

/-- What the client does for it. -/
def State.handle (s : State γ) : Sent → State γ
  | .keepAlive => { s with eventOrder := s.eventOrder ++ [js "keepalive"], handled := s.handled ++ [.keepAlive] }
  | .event name data eventId =>
    let s := { s with lastEventId := eventId.or s.lastEventId }
    match parse data with
    | none => s
    | some value =>
      { s with
        sawDone := s.sawDone || decide (name = js "done")
        eventOrder := s.eventOrder ++ [name]
        handled := s.handled ++ [.event name value] }

variable {parse}

/-! ## The events of a text -/

theorem normalizeChunk_eq {text : JsText} (h : carriageReturn ∉ text) : normalizeChunk text = text := by
  fun_induction normalizeChunk text with
  | case1 => rfl
  | case2 unit => rw [if_neg fun hunit => h (List.mem_singleton.2 hunit.symm)]
  | case3 | case4 => exact absurd List.mem_cons_self h
  | case5 unit next rest hunit ih => rw [ih fun hmem => h (List.mem_cons_of_mem unit hmem)]

theorem cutEvent_append {text event rest : JsText} (h : cutEvent text = some (event, rest)) (later : JsText) :
    cutEvent (text ++ later) = some (event, rest ++ later) := by
  fun_induction cutEvent text generalizing event with
  | case1 unit next rest' hbreak =>
    cases h
    exact if_pos hbreak
  | case2 unit next rest' hbreak ih =>
    obtain ⟨cut, hcut, heq⟩ := Option.map_eq_some_iff.1 h
    cases heq
    exact (if_neg hbreak).trans (congrArg _ (ih hcut))
  | case3 => cases h

theorem splitEvents_some {text event rest : JsText} (h : cutEvent text = some (event, rest)) :
    splitEvents text = (event :: (splitEvents rest).1, (splitEvents rest).2) := by
  rw [splitEvents]
  split
  next hcut => cases h.symm.trans hcut
  next hcut =>
    cases h.symm.trans hcut
    rfl

theorem splitEvents_none {text : JsText} (h : cutEvent text = none) : splitEvents text = ([], text) := by
  rw [splitEvents]
  split
  · rfl
  next hcut => cases h.symm.trans hcut

/-- The events of a text are the same when it comes in two. -/
theorem splitEvents_append (text later : JsText) : splitEvents (text ++ later) =
    ((splitEvents text).1 ++ (splitEvents ((splitEvents text).2 ++ later)).1,
      (splitEvents ((splitEvents text).2 ++ later)).2) := by
  fun_induction splitEvents text with
  | case1 text hcut => rfl
  | case2 text event rest hcut ih =>
    rw [splitEvents_some (cutEvent_append hcut later), ih]
    rfl

theorem splitEvents_suffix (text : JsText) : (splitEvents text).2 <:+ text := by
  fun_induction splitEvents text with
  | case1 text hcut => exact List.suffix_rfl
  | case2 text event rest hcut ih =>
    rw [cutEvent_eq hcut]
    exact ih.trans ⟨event ++ [newline, newline], by simp⟩

theorem foldl_receive (chunks : List JsText) {text : JsText} (s : State γ) (h : carriageReturn ∉ text ++ chunks.flatten) :
    chunks.foldl (receive parse) ((splitEvents text).2, dispatchAll parse s (splitEvents text).1) =
      ((splitEvents (text ++ chunks.flatten)).2, dispatchAll parse s (splitEvents (text ++ chunks.flatten)).1) := by
  induction chunks generalizing text with
  | nil => rw [List.flatten_nil, List.append_nil, List.foldl_nil]
  | cons chunk chunks ih =>
    rw [List.flatten_cons, ← List.append_assoc] at h ⊢
    have hchunk : carriageReturn ∉ chunk := fun hmem => h (List.mem_append_left _ (List.mem_append_right _ hmem))
    have hbuffer : carriageReturn ∉ (splitEvents text).2 ++ chunk := fun hmem =>
      h (List.mem_append_left _ ((List.append_sublist_append_right chunk |>.2 (splitEvents_suffix text).sublist).subset hmem))
    rw [← ih h, List.foldl_cons]
    have hreceive : receive parse ((splitEvents text).2, dispatchAll parse s (splitEvents text).1) chunk =
        ((splitEvents (text ++ chunk)).2, dispatchAll parse s (splitEvents (text ++ chunk)).1) := by
      rw [splitEvents_append, receive, normalizeChunk_eq hchunk, parseBufferedEvents, normalizeChunk_eq hbuffer]
      simp only [dispatchAll, List.filter_append, List.foldl_append, Bool.false_and]
      rfl
    rw [hreceive]

/-! ## The lines of an event -/

theorem joinLines_cons (line next : JsText) (lines : List JsText) :
    joinLines (line :: next :: lines) = line ++ [newline] ++ joinLines (next :: lines) := List.intercalate_cons_cons

theorem dropWhile_of_head {text : JsText} (h : text.head?.all isJsSpace = false) : text.dropWhile isJsSpace = text := by
  cases text with
  | nil => rfl
  | cons unit rest => exact List.dropWhile_cons_of_neg (Bool.eq_false_iff.1 h)

theorem HasEnds.trim {text : JsText} (h : HasEnds text) : trimText text = text := by
  rw [trimText, dropWhile_of_head h.1, dropWhile_of_head (List.head?_reverse ▸ h.2), List.reverse_reverse]

theorem HasEnds.after {mark text : JsText} (hmark : mark.head?.all isJsSpace = false) (h : HasEnds text) :
    HasEnds (mark ++ text) := by
  cases mark with
  | nil => cases hmark
  | cons unit mark =>
    refine ⟨hmark, ?_⟩
    have hlast := h.2
    rw [List.getLast?_append]
    cases hunit : text.getLast? with
    | none => rw [hunit] at hlast; cases hlast
    | some last => rwa [hunit] at hlast

theorem Word.after {mark text : JsText} (h : Word text)
    (hmark : mark.head?.all isJsSpace = false ∧ newline ∉ mark ∧ carriageReturn ∉ mark) : Word (mark ++ text) where
  ends := h.ends.after hmark.1
  noNewline := fun hmem => (List.mem_append.1 hmem).elim hmark.2.1 h.noNewline
  noReturn := fun hmem => (List.mem_append.1 hmem).elim hmark.2.2 h.noReturn

theorem Sent.Plain.words {sent : Sent} (h : sent.Plain) : ∀ line ∈ sent.lines, Word line := by
  cases sent with
  | keepAlive => exact List.forall_mem_singleton.2 ⟨⟨by decide, by decide⟩, by decide, by decide⟩
  | event name data eventId =>
    intro line hline
    rcases List.mem_append.1 hline with hline | hline
    · obtain ⟨id, hid, rfl⟩ := Option.map_eq_some_iff.1 (Option.mem_toList.1 hline)
      exact (h.2.2 id hid).after (by decide)
    · rcases List.mem_pair.1 hline with rfl | rfl
      · exact h.1.after (by decide)
      · exact h.2.1.after (by decide)

theorem joined_words {lines : List JsText} (hne : lines ≠ []) (h : ∀ line ∈ lines, Word line) :
    HasEnds (joinLines lines) ∧ carriageReturn ∉ joinLines lines := by
  induction lines with
  | nil => exact absurd rfl hne
  | cons line lines ih =>
    have hline := h line List.mem_cons_self
    cases lines with
    | nil =>
      rw [joinLines, List.intercalate_singleton]
      exact ⟨hline.ends, hline.noReturn⟩
    | cons next lines =>
      obtain ⟨hends, hreturn⟩ := ih (List.cons_ne_nil next lines) fun l hl => h l (List.mem_cons_of_mem line hl)
      rw [joinLines_cons]
      refine ⟨hends.after ?_, fun hmem => ?_⟩
      · have hfirst := hline.ends.1
        cases line with
        | nil => cases hfirst
        | cons unit rest => exact hfirst
      · rcases List.mem_append.1 hmem with hmem | hmem
        · exact (List.mem_append.1 hmem).elim hline.noReturn (by decide)
        · exact hreturn hmem

theorem cutEvent_cons {unit : UInt16} (text : JsText) (h : unit ≠ newline) :
    cutEvent (unit :: text) = (cutEvent text).map fun cut => (unit :: cut.1, cut.2) := by
  cases text with
  | nil => rfl
  | cons next rest => exact if_neg fun hbreak => h hbreak.1

theorem cutEvent_line {line : JsText} (text : JsText) (h : newline ∉ line) :
    cutEvent (line ++ text) = (cutEvent text).map fun cut => (line ++ cut.1, cut.2) := by
  induction line with
  | nil => exact (congrFun Option.map_id (cutEvent text)).symm
  | cons unit line ih =>
    rw [List.cons_append, cutEvent_cons _ fun heq => h (heq ▸ List.mem_cons_self),
      ih fun hmem => h (List.mem_cons_of_mem unit hmem), Option.map_map]
    rfl

theorem cutEvent_joinLines (line : JsText) (lines : List JsText) (rest : JsText) (h : ∀ l ∈ line :: lines, Word l) :
    cutEvent (joinLines (line :: lines) ++ newline :: newline :: rest) = some (joinLines (line :: lines), rest) := by
  induction lines generalizing line with
  | nil =>
    rw [joinLines, List.intercalate_singleton, cutEvent_line _ (h line List.mem_cons_self).noNewline]
    exact congrArg some (Prod.ext (List.append_nil line) rfl)
  | cons next lines ih =>
    have hnext := ih next fun l hl => h l (List.mem_cons_of_mem line hl)
    -- no line is empty, so that the newline in between ends no event
    obtain ⟨unit, tail, hunit⟩ : ∃ unit tail, joinLines (next :: lines) = unit :: tail ∧ unit ≠ newline := by
      have hends := (joined_words (List.cons_ne_nil next lines) fun l hl => h l (List.mem_cons_of_mem line hl)).1.1
      cases hjoined : joinLines (next :: lines) with
      | nil => rw [hjoined] at hends; cases hends
      | cons unit tail =>
        rw [hjoined] at hends
        exact ⟨unit, tail, rfl, by rintro rfl; cases hends⟩
    rw [joinLines_cons, List.append_assoc, List.append_assoc, cutEvent_line _ (h line List.mem_cons_self).noNewline]
    rw [hunit.1, List.cons_append] at hnext
    rw [hunit.1, List.cons_append, List.nil_append, List.cons_append, cutEvent, if_neg fun hbreak => hunit.2 hbreak.2, hnext]
    rw [List.append_assoc]
    rfl

variable {sent : List Sent}

theorem Sent.lines_ne_nil (sent : Sent) : sent.lines ≠ [] := by
  cases sent with
  | keepAlive => exact List.cons_ne_nil _ _
  | event name data eventId => exact List.append_ne_nil_of_right_ne_nil _ (List.cons_ne_nil _ _)

theorem splitEvents_formats (h : ∀ item ∈ sent, item.Plain) :
    splitEvents (sent.flatMap formatSse) = (sent.map fun item => joinLines item.lines, []) := by
  induction sent with
  | nil => exact splitEvents_none rfl
  | cons item sent ih =>
    have hwords := (h item List.mem_cons_self).words
    obtain ⟨line, others, hlines⟩ := List.exists_cons_of_ne_nil item.lines_ne_nil
    rw [hlines] at hwords
    have hcut := cutEvent_joinLines line others (sent.flatMap formatSse) hwords
    rw [List.flatMap_cons, formatSse, List.append_assoc, List.map_cons, hlines]
    refine (splitEvents_some hcut).trans ?_
    rw [ih fun item' hitem' => h item' (List.mem_cons_of_mem _ hitem')]

theorem dispatchLines_lines {item : Sent} (h : item.Plain) (s : State γ) :
    dispatchLines parse s item.lines = s.handle parse item := by
  cases item with
  | keepAlive => exact if_pos (by decide)
  | event name data eventId =>
    obtain ⟨hname, hdata, hid⟩ := h
    have hcomment : ((Sent.event name data eventId).lines.all fun line => (js ":").isPrefixOf (trimText line)) = false := by
      refine List.all_eq_false.2 ⟨_, List.mem_append_right _ List.mem_cons_self, ?_⟩
      rw [(hname.after (by decide)).ends.trim]
      exact Bool.false_ne_true
    have hfields : (Sent.event name data eventId).lines.foldl readLine { lastEventId := s.lastEventId } =
        ⟨name, [data], eventId.or s.lastEventId⟩ := by
      have hrest : ∀ id, [js "event: " ++ name, js "data: " ++ data].foldl readLine { lastEventId := id } = ⟨name, [data], id⟩ :=
        fun id => (show _ = (⟨trimText name, [data], id⟩ : Fields) from rfl).trans (by rw [hname.ends.trim])
      cases eventId with
      | none => exact hrest _
      | some id =>
        refine Eq.trans ?_ (hrest (some id))
        exact congrArg (fun id => [js "event: " ++ name, js "data: " ++ data].foldl readLine { lastEventId := some id })
          (hid id rfl).ends.trim
    have hne : name ≠ [] := by rintro rfl; cases hname.ends.1
    rw [dispatchLines, hcomment, if_neg Bool.false_ne_true, hfields]
    refine (if_neg (not_or.2 ⟨hne, List.cons_ne_nil data []⟩)).trans ?_
    rw [joinLines, List.intercalate_singleton]
    rfl

theorem dispatchAll_formats (h : ∀ item ∈ sent, item.Plain) (s : State γ) :
    dispatchAll parse s (sent.map fun item => joinLines item.lines) = sent.foldl (State.handle parse) s := by
  have hends := fun item hitem => (joined_words (Sent.lines_ne_nil item) (h item hitem).words).1
  have hkept : ∀ event ∈ sent.map fun item => joinLines item.lines, (!isBlank event) = true := by
    intro event hevent
    obtain ⟨item, hitem, rfl⟩ := List.mem_map.1 hevent
    have hfirst := (hends item hitem).1
    cases hjoined : joinLines item.lines with
    | nil => rw [hjoined] at hfirst; cases hfirst
    | cons unit rest =>
      rw [hjoined] at hfirst
      rw [isBlank, List.all_cons, show isJsSpace unit = false from hfirst]
      rfl
  rw [dispatchAll, List.filter_eq_self.2 hkept, List.foldl_map]
  refine List.foldl_ext _ _ _ fun s item hitem => ?_
  rw [dispatchEventString, (hends item hitem).trim, joinLines,
    List.splitOn_intercalate newline (fun line hline => ((h item hitem).words line hline).noNewline) item.lines_ne_nil]
  exact dispatchLines_lines (h item hitem) s

/-- However what the server writes is cut, the client handles each event, and once. -/
theorem stream_received {chunks : List JsText} (hsent : ∀ item ∈ sent, item.Plain)
    (hchunks : chunks.flatten = sent.flatMap formatSse) :
    parseSSEStream parse chunks = sent.foldl (State.handle parse) {} := by
  have hreturn : carriageReturn ∉ chunks.flatten := by
    rw [hchunks, List.mem_flatMap]
    rintro ⟨item, hitem, hmem⟩
    exact (List.mem_append.1 hmem).elim (joined_words item.lines_ne_nil (hsent item hitem).words).2 (by decide)
  have hread := @foldl_receive _ parse chunks [] {} hreturn
  rw [splitEvents_none rfl, List.nil_append, hchunks, splitEvents_formats hsent, dispatchAll_formats hsent] at hread
  rw [parseSSEStream, show chunks.foldl (receive parse) ([], {}) = _ from hread]
  change (parseBufferedEvents parse true [] _).2 = _
  rw [parseBufferedEvents, normalizeChunk, splitEvents_none rfl]
  rfl

theorem stream_received_pieces : parseSSEStream some [js ": keepalive\n", js "\nid: 7\nevent: done\nda", js "ta: {}\n\n"] =
    ⟨some (js "7"), true, [js "keepalive", js "done"], [.keepAlive, .event (js "done") (js "{}")]⟩ :=
  (@stream_received _ some [.keepAlive, .event (js "done") (js "{}") (some (js "7"))] _
    (List.forall_mem_cons.2 ⟨trivial, List.forall_mem_singleton.2 ⟨⟨⟨by decide, by decide⟩, by decide, by decide⟩,
      ⟨⟨by decide, by decide⟩, by decide, by decide⟩,
      fun id hid => Option.mem_some_iff.1 hid ▸ ⟨⟨by decide, by decide⟩, by decide, by decide⟩⟩⟩) (by decide)).trans rfl

end Wiii.Desktop.Sse
