import Wiii.Lib.Streams
import Wiii.NekoChill.JsValue

/-!
# The buffer of a streamed answer

`SemanticStreamBuffer` collects the pieces of an answer as they arrive and flushes it by blocks of Markdown.  Behind it
is a machine that reads unit by unit (`Reading.read`), and which does not know of pieces at all.
-/

namespace Wiii.Desktop

open NekoChill

def unitOf (c : Char) : UInt16 := c.toNat.toUInt16

def newline : UInt16 := unitOf '\n'

/-- `[\t ]` -/
def isTabOrSpace (unit : UInt16) : Bool := decide (unit = unitOf '\t') || decide (unit = unitOf ' ')

/-! ## The patterns

None of them looks for a blank after the indentation, so that the indentation is all blanks at the start. -/

/-- What follows `^[\t ]{0,3}`. -/
def afterIndent (line : JsText) : Option JsText :=
  if (line.takeWhile isTabOrSpace).length ≤ 3 then some (line.dropWhile isTabOrSpace) else none

/-- The longest `marker*` at the start. -/
def markers (marker : Char) (text : JsText) : JsText := text.takeWhile fun unit => decide (unit = unitOf marker)

def atxHeading (line : JsText) : Bool :=
  (afterIndent line).any fun rest =>
    let marks := markers '#' rest
    decide (1 ≤ marks.length ∧ marks.length ≤ 6) && (rest.drop marks.length).head?.all isTabOrSpace

def setextHeading (line : JsText) : Bool :=
  (afterIndent line).any fun rest => ['=', '-'].any fun marker =>
    let marks := markers marker rest
    decide (1 ≤ marks.length) && (rest.drop marks.length).all isTabOrSpace

def thematicBreak (line : JsText) : Bool :=
  (afterIndent line).any fun rest => ['*', '-', '_'].any fun marker =>
    decide (rest.head? = some (unitOf marker)) && decide (3 ≤ rest.count (unitOf marker)) &&
      rest.all fun unit => decide (unit = unitOf marker) || isTabOrSpace unit

/-- The group that `FENCE_OPEN` captures. -/
def fenceOpen (line : JsText) : Option JsText :=
  (afterIndent line).bind fun rest =>
    (['`', '~'].map fun marker => markers marker rest).find? fun marks => decide (3 ≤ marks.length)

def isDigit (unit : UInt16) : Bool := decide (unitOf '0' ≤ unit ∧ unit ≤ unitOf '9')

/-- What follows `[-+*]|\d{1,9}[.)]`. -/
def afterBullet : JsText → Option JsText
  | [] => none
  | unit :: rest =>
    if (js "-+*").contains unit then some rest
    else
      let digits := (unit :: rest).takeWhile isDigit
      match (unit :: rest).dropWhile isDigit with
      | [] => none
      | mark :: rest =>
        if 1 ≤ digits.length ∧ digits.length ≤ 9 ∧ (js ".)").contains mark = true then some rest else none

def listItem (line : JsText) : Bool :=
  ((afterIndent line).bind afterBullet).any fun rest => rest.head?.any isTabOrSpace

/-- `completeLine.replace(/\r?\n$/u, "")` -/
def withoutBreak (completeLine : JsText) : JsText :=
  match completeLine.reverse with
  | last :: rest =>
    if last = newline then
      match rest with
      | before :: rest' => if before = unitOf '\r' then rest'.reverse else rest.reverse
      | [] => []
    else completeLine
  | [] => []

/-! ## The block that is being read -/

structure Block where
  contentLines : ℕ := 0
  fence : Option JsText := none
  inList : Bool := false
  listSeparator : Bool := false
deriving DecidableEq

namespace Block

def completesBlock (block : Block) (line : JsText) : Bool × Block :=
  match block.fence with
  | some fence =>
    let trimmed := trimText line
    let closed := decide (fence.length ≤ trimmed.length) && trimmed.all fun unit => decide (fence.head? = some unit)
    (closed && !block.inList, if closed then { block with fence := none } else block)
  | none =>
    match fenceOpen line with
    | some fence => (false, { block with fence := some fence })
    | none =>
      if block.inList || (listItem line && !thematicBreak line) then
        (false, { block with inList := true, listSeparator := isBlank line })
      else if block.contentLines = 0 then
        if isBlank line then (false, block)
        else (atxHeading line || thematicBreak line, { block with contentLines := 1 })
      else
        (isBlank line || (decide (block.contentLines + 1 = 2) && setextHeading line),
          { block with contentLines := block.contentLines + 1 })

/-- A line that starts something new after a list; it is flushed without it. -/
def endsList (block : Block) (line : JsText) : Bool :=
  block.inList && block.listSeparator && block.fence.isNone && !isBlank line && !line.head?.any isTabOrSpace &&
    !listItem line

end Block

/-! ## The buffer -/

structure SemanticStreamBuffer extends Block where
  chunks : List JsText := []
  lineChunks : List JsText := []
  pendingLength : ℤ := 0
deriving DecidableEq

namespace SemanticStreamBuffer

def pending (buffer : SemanticStreamBuffer) : ℤ := buffer.pendingLength

def discard (_ : SemanticStreamBuffer) : SemanticStreamBuffer := {}

/-- The text that the buffer holds: what `drain` joins. -/
def pendingText (buffer : SemanticStreamBuffer) : JsText := buffer.chunks.flatten ++ buffer.lineChunks.flatten

def drain (buffer : SemanticStreamBuffer) : List JsText × SemanticStreamBuffer :=
  if buffer.pendingLength = 0 then ([], buffer) else ([buffer.pendingText], buffer.discard)

def addFragment (buffer : SemanticStreamBuffer) (fragment : JsText) : SemanticStreamBuffer :=
  { buffer with
    lineChunks := buffer.lineChunks ++ [fragment]
    pendingLength := buffer.pendingLength + fragment.length }

def flushList (buffer : SemanticStreamBuffer) (completeLine line : JsText) : List JsText × SemanticStreamBuffer :=
  if buffer.toBlock.endsList line then
    let drained := { buffer with pendingLength := buffer.pendingLength - completeLine.length }.drain
    (drained.1, { drained.2 with pendingLength := completeLine.length })
  else ([], buffer)

def pushLine (buffer : SemanticStreamBuffer) (completeLine line : JsText) : List JsText × SemanticStreamBuffer :=
  let block := buffer.toBlock.completesBlock line
  let pushed := { buffer with toBlock := block.2, chunks := buffer.chunks ++ [completeLine] }
  if block.1 then pushed.drain else ([], pushed)

/-- What `push` does once the line is complete. -/
def closeLine (buffer : SemanticStreamBuffer) : List JsText × SemanticStreamBuffer :=
  let completeLine := buffer.lineChunks.flatten
  let line := withoutBreak completeLine
  let before := { buffer with lineChunks := [] }.flushList completeLine line
  let after := before.2.pushLine completeLine line
  (before.1 ++ after.1, after.2)

/-- One turn of the loop of `push`. -/
def pushFragment (buffer : SemanticStreamBuffer) (fragment : JsText) : List JsText × SemanticStreamBuffer :=
  if fragment.getLast? = some newline then (buffer.addFragment fragment).closeLine
  else ([], buffer.addFragment fragment)

end SemanticStreamBuffer

/-- The slices that the loop of `push` takes, each with its newline. -/
def fragments : JsText → List JsText
  | [] => []
  | unit :: rest =>
    if unit = newline then [unit] :: fragments rest
    else
      match fragments rest with
      | [] => [[unit]]
      | fragment :: others => (unit :: fragment) :: others

namespace SemanticStreamBuffer

def push (buffer : SemanticStreamBuffer) (text : JsText) : List JsText × SemanticStreamBuffer :=
  Transducer.run pushFragment buffer (fragments text)

end SemanticStreamBuffer

inductive BufferCall where
  | push (text : JsText)
  | drain
deriving DecidableEq

def SemanticStreamBuffer.call : Transducer SemanticStreamBuffer BufferCall JsText
  | buffer, .push text => buffer.push text
  | buffer, .drain => buffer.drain

/-! ## Unit by unit -/

/-- The buffer without the seams between its chunks. -/
structure Reading extends Block where
  text : JsText := []
  line : JsText := []

namespace Reading

def drain (reading : Reading) : List JsText × Reading :=
  if reading.text ++ reading.line = [] then ([], reading) else ([reading.text ++ reading.line], {})

def flushList (reading : Reading) (line : JsText) : List JsText × Reading :=
  if reading.toBlock.endsList line then { reading with line := [] }.drain else ([], { reading with line := [] })

def pushLine (reading : Reading) (completeLine line : JsText) : List JsText × Reading :=
  let block := reading.toBlock.completesBlock line
  let pushed := { reading with toBlock := block.2, text := reading.text ++ completeLine }
  if block.1 then pushed.drain else ([], pushed)

def closeLine (reading : Reading) : List JsText × Reading :=
  let line := withoutBreak reading.line
  let before := reading.flushList line
  let after := before.2.pushLine reading.line line
  (before.1 ++ after.1, after.2)

/-- A unit, or a drain. -/
def read : Transducer Reading (Option UInt16) JsText
  | reading, none => reading.drain
  | reading, some unit =>
    let reading := { reading with line := reading.line ++ [unit] }
    if unit = newline then reading.closeLine else ([], reading)

end Reading

/-- The units pushed, and `none` for a drain. -/
def BufferCall.symbols : BufferCall → List (Option UInt16)
  | push text => text.map some
  | drain => [none]

def BufferCall.text : BufferCall → JsText
  | push text => text
  | drain => []

theorem flatten_fragments (text : JsText) : (fragments text).flatten = text := by
  induction text with
  | nil => rfl
  | cons unit rest ih =>
    unfold fragments
    split
    · rw [List.flatten_cons, ih, List.singleton_append]
    · split
      · rename_i heq
        rw [heq] at ih
        rw [← ih]
        rfl
      · rename_i heq
        rw [heq] at ih
        rw [← ih]
        rfl

theorem exists_of_mem_fragments {text fragment : JsText} (h : fragment ∈ fragments text) :
    ∃ init last, fragment = init ++ [last] ∧ newline ∉ init := by
  induction text generalizing fragment with
  | nil => cases h
  | cons unit rest ih =>
    unfold fragments at h
    split at h
    · rcases List.mem_cons.1 h with rfl | h
      · exact ⟨[], unit, rfl, List.not_mem_nil⟩
      · exact ih h
    · rename_i hunit
      split at h
      · rw [List.mem_singleton] at h
        exact ⟨[], unit, h, List.not_mem_nil⟩
      · rename_i next others heq
        rcases List.mem_cons.1 h with rfl | h
        · obtain ⟨init, last, rfl, hinit⟩ := ih (heq ▸ List.mem_cons_self)
          refine ⟨unit :: init, last, rfl, ?_⟩
          rw [List.mem_cons, not_or]
          exact ⟨fun h => hunit h.symm, hinit⟩
        · exact ih (heq ▸ List.mem_cons_of_mem _ h)

namespace SemanticStreamBuffer

def reading (buffer : SemanticStreamBuffer) : Reading :=
  { toBlock := buffer.toBlock, text := buffer.chunks.flatten, line := buffer.lineChunks.flatten }

def Exact (buffer : SemanticStreamBuffer) : Prop := buffer.pendingLength = buffer.pendingText.length

theorem exact_new : Exact {} := rfl

variable {buffer : SemanticStreamBuffer}

theorem reading_drain (h : buffer.Exact) :
    buffer.reading.drain = (buffer.drain.1, buffer.drain.2.reading) ∧ buffer.drain.2.Exact := by
  have hempty : buffer.pendingLength = 0 ↔ buffer.reading.text ++ buffer.reading.line = [] := by
    rw [h, ← List.length_eq_zero_iff]
    exact Int.natCast_eq_zero
  unfold drain Reading.drain
  by_cases hzero : buffer.pendingLength = 0
  · rw [if_pos hzero, if_pos (hempty.1 hzero)]
    exact ⟨rfl, h⟩
  · rw [if_neg hzero, if_neg fun heq => hzero (hempty.2 heq)]
    exact ⟨rfl, exact_new⟩

theorem reading_pushLine {completeLine : JsText} (line : JsText) (hlines : buffer.lineChunks = [])
    (h : buffer.pendingLength = buffer.chunks.flatten.length + completeLine.length) :
    buffer.reading.pushLine completeLine line =
        ((buffer.pushLine completeLine line).1, (buffer.pushLine completeLine line).2.reading) ∧
      (buffer.pushLine completeLine line).2.Exact := by
  have hexact : Exact { buffer with
      toBlock := (buffer.toBlock.completesBlock line).2, chunks := buffer.chunks ++ [completeLine] } := by
    simp [Exact, pendingText, hlines, h]
  have hreading : reading { buffer with
        toBlock := (buffer.toBlock.completesBlock line).2, chunks := buffer.chunks ++ [completeLine] } =
      { buffer.reading with
        toBlock := (buffer.toBlock.completesBlock line).2, text := buffer.reading.text ++ completeLine } := by
    simp [reading]
  unfold pushLine Reading.pushLine
  dsimp only
  by_cases hcompletes : (buffer.toBlock.completesBlock line).1 = true
  · rw [if_pos hcompletes, show buffer.reading.toBlock = buffer.toBlock from rfl, if_pos hcompletes, ← hreading]
    exact reading_drain hexact
  · rw [if_neg hcompletes, show buffer.reading.toBlock = buffer.toBlock from rfl, if_neg hcompletes, ← hreading]
    exact ⟨rfl, hexact⟩

theorem reading_flushList {completeLine : JsText} (line : JsText) (hlines : buffer.lineChunks = [])
    (h : buffer.pendingLength = buffer.chunks.flatten.length + completeLine.length) :
    buffer.reading.flushList line =
        ((buffer.flushList completeLine line).1, (buffer.flushList completeLine line).2.reading) ∧
      (buffer.flushList completeLine line).2.lineChunks = [] ∧
      (buffer.flushList completeLine line).2.pendingLength =
        (buffer.flushList completeLine line).2.chunks.flatten.length + completeLine.length := by
  have hreading : { buffer.reading with line := [] } = buffer.reading := by
    simp [reading, hlines]
  unfold flushList Reading.flushList
  rw [hreading]
  by_cases hends : buffer.toBlock.endsList line = true
  · rw [if_pos hends, show buffer.reading.toBlock = buffer.toBlock from rfl, if_pos hends]
    dsimp only
    have hexact : Exact { buffer with pendingLength := buffer.pendingLength - completeLine.length } := by
      simp only [Exact, pendingText, hlines, h, List.flatten_nil, List.append_nil]
      omega
    obtain ⟨hdrain, hafter⟩ := reading_drain hexact
    refine ⟨hdrain, ?_⟩
    unfold drain
    split
    · rename_i hzero
      refine ⟨hlines, ?_⟩
      dsimp only at hzero ⊢
      omega
    · exact ⟨rfl, (Int.zero_add _).symm⟩
  · rw [if_neg hends, show buffer.reading.toBlock = buffer.toBlock from rfl, if_neg hends]
    exact ⟨rfl, hlines, h⟩

theorem reading_closeLine (h : buffer.Exact) :
    buffer.reading.closeLine = (buffer.closeLine.1, buffer.closeLine.2.reading) ∧ buffer.closeLine.2.Exact := by
  have hlength : buffer.pendingLength = buffer.chunks.flatten.length + buffer.lineChunks.flatten.length := by
    rw [h, pendingText, List.length_append, Int.natCast_add]
  let line := withoutBreak buffer.lineChunks.flatten
  obtain ⟨hflush, hlines, hafter⟩ := @reading_flushList { buffer with lineChunks := [] } _ line rfl hlength
  obtain ⟨hpush, hexact⟩ := reading_pushLine line hlines hafter
  refine ⟨?_, hexact⟩
  have hsame : buffer.reading.flushList line = { buffer with lineChunks := [] }.reading.flushList line := rfl
  unfold closeLine Reading.closeLine
  dsimp only
  rw [show buffer.reading.line = buffer.lineChunks.flatten from rfl, hsame, hflush, hpush]

theorem exact_addFragment (h : buffer.Exact) (fragment : JsText) : (buffer.addFragment fragment).Exact := by
  simp only [Exact, addFragment, pendingText] at h ⊢
  simp [h, Int.add_assoc]

theorem reading_addFragment (fragment : JsText) :
    (buffer.addFragment fragment).reading = { buffer.reading with line := buffer.reading.line ++ fragment } := by
  simp [addFragment, reading]

end SemanticStreamBuffer

open Transducer

theorem Reading.read_units (reading : Reading) {units : JsText} (h : newline ∉ units) :
    read.run reading (units.map some) = ([], { reading with line := reading.line ++ units }) := by
  induction units generalizing reading with
  | nil => simp
  | cons unit units ih =>
    rw [List.mem_cons, not_or] at h
    have hread : read reading (some unit) = ([], { reading with line := reading.line ++ [unit] }) :=
      if_neg fun heq => h.1 heq.symm
    rw [List.map_cons, run_cons, hread, ih _ h.2]
    simp

namespace SemanticStreamBuffer

variable {buffer : SemanticStreamBuffer}

theorem read_pushFragment (h : buffer.Exact) {fragment init : JsText} {last : UInt16}
    (hfragment : fragment = init ++ [last]) (hinit : newline ∉ init) :
    Reading.read.run buffer.reading (fragment.map some) =
        ((buffer.pushFragment fragment).1, (buffer.pushFragment fragment).2.reading) ∧
      (buffer.pushFragment fragment).2.Exact := by
  have hadd := exact_addFragment h fragment
  have hreading : { buffer.reading with line := (buffer.reading.line ++ init) ++ [last] } =
      (buffer.addFragment fragment).reading := by
    rw [reading_addFragment, hfragment, List.append_assoc]
  have hlast : fragment.getLast? = some last := by
    rw [hfragment, List.getLast?_concat]
  have hrun : Reading.read.run buffer.reading (fragment.map some) =
      if last = newline then (buffer.addFragment fragment).reading.closeLine
      else ([], (buffer.addFragment fragment).reading) := by
    rw [hfragment, List.map_append, run_append, Reading.read_units _ hinit, ← hfragment, ← hreading]
    simp [run_cons, Reading.read]
  rw [hrun, pushFragment, hlast]
  by_cases hnewline : last = newline
  · rw [if_pos hnewline, if_pos (congrArg some hnewline)]
    exact reading_closeLine hadd
  · rw [if_neg hnewline, if_neg fun heq => hnewline (Option.some.inj heq)]
    exact ⟨rfl, hadd⟩

theorem read_push (h : buffer.Exact) (text : JsText) :
    Reading.read.run buffer.reading (text.map some) = ((buffer.push text).1, (buffer.push text).2.reading) ∧
      (buffer.push text).2.Exact := by
  have hpieces : ∀ buffer : SemanticStreamBuffer, ∀ fragment ∈ fragments text, buffer.Exact →
      Reading.read.runs (List.map some) buffer.reading fragment =
          ((buffer.pushFragment fragment).1, (buffer.pushFragment fragment).2.reading) ∧
        (buffer.pushFragment fragment).2.Exact := by
    intro buffer fragment hmem hexact
    obtain ⟨init, last, hfragment, hinit⟩ := exists_of_mem_fragments hmem
    exact read_pushFragment hexact hfragment hinit
  have hrun := run_view hpieces h
  rw [runs_eq, ← List.map_flatMap, List.flatMap_id', flatten_fragments] at hrun
  exact hrun

theorem read_call (h : buffer.Exact) (input : BufferCall) :
    Reading.read.run buffer.reading input.symbols = ((buffer.call input).1, (buffer.call input).2.reading) ∧
      (buffer.call input).2.Exact := by
  cases input with
  | push text => exact read_push h text
  | drain =>
    obtain ⟨hdrain, hexact⟩ := reading_drain h
    refine ⟨?_, hexact⟩
    rw [BufferCall.symbols, run_cons, run_nil, List.append_nil]
    exact hdrain

theorem read_calls (calls : List BufferCall) :
    Reading.read.run {} (calls.flatMap BufferCall.symbols) =
        ((call.run {} calls).1, (call.run {} calls).2.reading) ∧
      (call.run {} calls).2.Exact := by
  have hcalls : ∀ buffer : SemanticStreamBuffer, ∀ input ∈ calls, buffer.Exact →
      Reading.read.runs BufferCall.symbols buffer.reading input =
          ((buffer.call input).1, (buffer.call input).2.reading) ∧
        (buffer.call input).2.Exact :=
    fun buffer input _ h => read_call h input
  have hrun := run_view hcalls exact_new
  rw [runs_eq] at hrun
  exact hrun

end SemanticStreamBuffer

namespace Reading

def content (reading : Reading) : JsText := reading.text ++ reading.line

theorem content_drain (reading : Reading) :
    reading.drain.1.flatten ++ reading.drain.2.content = reading.content := by
  unfold drain content
  split
  · rfl
  · simp

theorem content_flushList (reading : Reading) (line : JsText) :
    (reading.flushList line).1.flatten ++ (reading.flushList line).2.text = reading.text ∧
      (reading.flushList line).2.line = [] := by
  unfold flushList drain
  split
  · dsimp only
    split <;> simp
  · exact ⟨rfl, rfl⟩

theorem content_pushLine (reading : Reading) (completeLine line : JsText) (hline : reading.line = []) :
    (reading.pushLine completeLine line).1.flatten ++ (reading.pushLine completeLine line).2.content =
      reading.text ++ completeLine := by
  unfold pushLine
  dsimp only
  split
  · rw [content_drain, content, hline, List.append_nil]
  · simp [content, hline]

theorem content_closeLine (reading : Reading) :
    reading.closeLine.1.flatten ++ reading.closeLine.2.content = reading.content := by
  obtain ⟨hflush, hline⟩ := content_flushList reading (withoutBreak reading.line)
  unfold closeLine
  dsimp only
  rw [List.flatten_append, List.append_assoc, content_pushLine _ _ _ hline, ← List.append_assoc, hflush,
    content]

theorem content_read (reading : Reading) (symbol : Option UInt16) :
    (reading.read symbol).1.flatten ++ (reading.read symbol).2.content = reading.content ++ symbol.toList := by
  cases symbol with
  | none => simpa [read] using content_drain reading
  | some unit =>
    unfold read
    dsimp only
    split
    · rw [content_closeLine, content, content, ← List.append_assoc]
      rfl
    · simp [content]

end Reading

theorem BufferCall.symbols_text (input : BufferCall) : input.symbols.flatMap Option.toList = input.text := by
  cases input with
  | push text => simp [symbols, BufferCall.text, List.flatMap_map]
  | drain => rfl

namespace SemanticStreamBuffer

theorem lossless_and_unchunked (calls : List BufferCall) :
    let after := call.run {} calls
    after.1.flatten ++ after.2.pendingText = calls.flatMap BufferCall.text ∧
      after.2.pending = after.2.pendingText.length ∧
      ∀ calls', calls'.flatMap BufferCall.symbols = calls.flatMap BufferCall.symbols →
        (call.run {} calls').1 = after.1 ∧ (call.run {} calls').2.pendingText = after.2.pendingText := by
  intro after
  obtain ⟨hread, hexact⟩ := read_calls calls
  have hcontent := run_content Reading.content_read {} (calls.flatMap BufferCall.symbols)
  rw [hread] at hcontent
  refine ⟨?_, hexact, ?_⟩
  · rw [List.flatMap_assoc] at hcontent
    simp only [BufferCall.symbols_text] at hcontent
    exact hcontent
  · intro calls' hsame
    have hread' := (read_calls calls').1
    rw [hsame, hread, Prod.mk.injEq] at hread'
    exact ⟨hread'.1.symm, congrArg Reading.content hread'.2.symm⟩

/-- A heading and a list, whole and in pieces that end within their lines; the list is flushed by what follows it. -/
theorem lossless_and_unchunked_list :
    let whole := [.push (js "# A\n- b\n\nc\nd")]
    let pieces := [.push (js "# "), .push (js "A\n-"), .push (js " b\n\n"), .push (js "c\nd")]
    (call.run {} pieces).1 = (call.run {} whole).1 ∧
      (call.run {} whole).1 = [js "# A\n", js "- b\n\n"] ∧ (call.run {} whole).2.pendingText = js "c\nd" := by
  intro whole pieces
  refine ⟨((lossless_and_unchunked whole).2.2 pieces ?_).1, ?_, ?_⟩ <;> decide

end SemanticStreamBuffer

end Wiii.Desktop
