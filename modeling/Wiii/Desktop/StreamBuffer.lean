import Wiii.NekoChill.JsValue

/-!
# The pacing of a streamed answer

`StreamBuffer` takes the pieces of an answer as they arrive and gives a few characters to every frame of the display.
How many is computed in floats, and words may be found by a segmenter of the platform; both are parameters.  Whatever
they say, nothing that was pushed is lost, repeated or left behind (`run_delivers`).
-/

namespace Wiii.Desktop.StreamBuffer

open NekoChill

structure Config where
  initialHoldMs : ℤ
  /-- The characters meant for a frame, from the number of the frame, whether the stream has ended, and what waits. -/
  targetChars : ℕ → Bool → ℕ → ℕ
  /-- The lengths of the segments of a text. -/
  segmenter : Option (JsText → List ℕ)

structure State where
  buffer : JsText := []
  holdTimer : Bool := false
  started : Bool := false
  /-- A frame is requested for as long as the loop runs. -/
  running : Bool := false
  frameCount : ℕ := 0
  streamEnded : Bool := false
  /-- The calls of `onFlush` since the last discard. -/
  flushed : List JsText := []
  /-- What was pushed since the last discard. -/
  pushed : JsText := []

variable (c : Config)

/-! ## Where a frame ends -/

def snapRange : ℕ := 6

def snapToSegment (count pending : ℕ) : ℕ → List ℕ → ℕ
  | _, [] => count
  | pos, segment :: segments =>
    if count ≤ pos + segment then
      if pos + segment - count < snapRange then min (pos + segment) pending else count
    else snapToSegment count pending (pos + segment) segments

def isBoundary (unit : UInt16) : Bool := (js " \n\t,.!?;:)]").contains unit

/-- The best end so far and its distance, behind one more unit. -/
def snapStep (buffer : JsText) (count : ℕ) (best : ℕ × ℕ) (i : ℕ) : ℕ × ℕ :=
  if buffer[i]?.any isBoundary then
    let distance := if count ≤ i then i - count else count - i + 1
    if distance < best.2 then (i + 1, distance) else best
  else best

def snapToWordBoundary (buffer : JsText) (count : ℕ) : ℕ :=
  if buffer.length ≤ count then count
  else
    match c.segmenter with
    | some segment => snapToSegment count buffer.length 0 (segment (buffer.take (min buffer.length (count + snapRange))))
    | none =>
      let first := max 1 (count - snapRange)
      let last := min buffer.length (count + snapRange)
      max 1 ((List.range' first (last + 1 - first)).foldl (snapStep buffer count) (count, snapRange + 1)).1

def mdPairs : List JsText := [js "```", js "**", js "__", js "~~", js "``", js "`"]

def tokenEnd (buffer : JsText) (count : ℕ) (token : JsText) : Option ℕ := do
  let windowStart := count + 1 - token.length
  let window := (buffer.take (min buffer.length (count + token.length - 1))).drop windowStart
  let tokenPos ← (List.range (window.length + 1)).find? fun i => token.isPrefixOf (window.drop i)
  let start := windowStart + tokenPos
  if start < count ∧ count < start + token.length then some (min (start + token.length) buffer.length) else none

def avoidMarkdownBreak (buffer : JsText) (count : ℕ) : ℕ :=
  if buffer.length ≤ count then count else (mdPairs.findSome? (tokenEnd buffer count)).getD count

def frameChars (s : State) : ℕ :=
  let clamp := fun count => max 1 (min count s.buffer.length)
  let count := clamp (c.targetChars (s.frameCount + 1) s.streamEnded s.buffer.length)
  clamp (avoidMarkdownBreak s.buffer (snapToWordBoundary c s.buffer count))

/-! ## The operations -/

inductive Act where
  | push (chunk : JsText)
  /-- The timer of the initial hold fires. -/
  | hold
  | frame
  | endStream
  | drain
  | discard

namespace State

def push (s : State) (chunk : JsText) : State :=
  if chunk = [] then s
  else
    let s := { s with buffer := s.buffer ++ chunk, pushed := s.pushed ++ chunk }
    if !s.started && !s.holdTimer then
      if c.initialHoldMs ≤ 0 then { s with started := true, running := true } else { s with holdTimer := true }
    else if s.started then { s with running := true }
    else s

def hold (s : State) : State :=
  if s.holdTimer then { s with started := true, holdTimer := false, running := true } else s

def endStream (s : State) : State :=
  let s := { s with streamEnded := true }
  if s.started then s else { s with holdTimer := false, started := true, running := true }

def drain (s : State) : State :=
  let s := { s with running := false, holdTimer := false, started := true }
  if s.buffer = [] then s else { s with buffer := [], flushed := s.flushed ++ [s.buffer] }

def tick (s : State) : State :=
  if s.buffer = [] then { s with running := false }
  else
    let rest := s.buffer.drop (frameChars c s)
    { s with
      frameCount := s.frameCount + 1
      buffer := rest
      flushed := s.flushed ++ [s.buffer.take (frameChars c s)]
      running := !rest.isEmpty }

def step (s : State) : Act → State
  | .push chunk => s.push c chunk
  | .hold => s.hold
  | .frame => if s.running then s.tick c else s
  | .endStream => s.endStream
  | .drain => s.drain
  | .discard => {}

end State

def run (acts : List Act) : State := acts.foldl (State.step c) {}

/-! ## What a frame gives -/

variable {c}

theorem snapToSegment_le (count pending pos : ℕ) (segments : List ℕ) :
    snapToSegment count pending pos segments ≤ count + 7 := by
  induction segments generalizing pos with
  | nil => exact Nat.le_add_right count 7
  | cons segment segments ih =>
    rw [snapToSegment, snapRange]
    split
    · split <;> omega
    · exact ih _

theorem snapToWordBoundary_le (buffer : JsText) {count : ℕ} (hcount : 1 ≤ count) :
    snapToWordBoundary c buffer count ≤ count + 7 := by
  unfold snapToWordBoundary
  split
  · exact Nat.le_add_right count 7
  · split
    · exact snapToSegment_le _ _ _ _
    · refine Nat.max_le.2 ⟨by omega, ?_⟩
      refine List.foldlRecOn (motive := fun best : ℕ × ℕ => best.1 ≤ count + 7) _ _ (Nat.le_add_right count 7) ?_
      intro best hbest i hi
      rw [List.mem_range'_1, snapRange] at hi
      unfold snapStep
      split
      · generalize (if count ≤ i then i - count else count - i + 1) = distance
        dsimp only
        split
        · change i + 1 ≤ count + 7
          omega
        · exact hbest
      · exact hbest

theorem tokenEnd_le {buffer token : JsText} {count e : ℕ} (h : tokenEnd buffer count token = some e) :
    e < count + token.length := by
  simp only [tokenEnd, Option.bind_eq_bind, Option.bind_eq_some_iff] at h
  obtain ⟨tokenPos, -, h⟩ := h
  split at h
  next hacross =>
    cases h
    omega
  · cases h

theorem avoidMarkdownBreak_le (buffer : JsText) (count : ℕ) : avoidMarkdownBreak buffer count ≤ count + 2 := by
  have hshort : ∀ token ∈ mdPairs, token.length ≤ 3 := by decide
  unfold avoidMarkdownBreak
  split
  · exact Nat.le_add_right count 2
  · cases hfound : mdPairs.findSome? (tokenEnd buffer count) with
    | none => exact Nat.le_add_right count 2
    | some e =>
      obtain ⟨token, htoken, hend⟩ := List.exists_of_findSome?_eq_some hfound
      have hlength := hshort token htoken
      have hlt := tokenEnd_le hend
      change e ≤ count + 2
      omega

theorem one_le_frameChars (s : State) : 1 ≤ frameChars c s := Nat.le_max_left ..

/-- What snapping to the end of a word and of a token adds to the characters that were meant. -/
theorem frameChars_le (s : State) :
    frameChars c s ≤ max 1 (c.targetChars (s.frameCount + 1) s.streamEnded s.buffer.length) + 9 := by
  have hword := fun count (hcount : 1 ≤ count) => snapToWordBoundary_le (c := c) s.buffer hcount
  have htoken := avoidMarkdownBreak_le s.buffer
  simp only [frameChars]
  generalize c.targetChars (s.frameCount + 1) s.streamEnded s.buffer.length = meant
  have hword := hword (max 1 (min meant s.buffer.length)) (Nat.le_max_left ..)
  have htoken := htoken (snapToWordBoundary c s.buffer (max 1 (min meant s.buffer.length)))
  omega

/-! ## Runs -/

structure Kept (s : State) : Prop where
  lossless : s.flushed.flatten ++ s.buffer = s.pushed
  /-- Nothing waits for nothing. -/
  awaited : s.buffer ≠ [] → s.holdTimer = true ∨ s.running = true

variable {s : State}

namespace Kept

theorem push (h : Kept s) (chunk : JsText) : Kept (s.push c chunk) := by
  have hlossless : s.flushed.flatten ++ (s.buffer ++ chunk) = s.pushed ++ chunk := by
    rw [← List.append_assoc, h.lossless]
  unfold State.push
  dsimp only
  split
  · exact h
  split
  · split
    · exact ⟨hlossless, fun _ => .inr rfl⟩
    · exact ⟨hlossless, fun _ => .inl rfl⟩
  next hwaits =>
    split
    · exact ⟨hlossless, fun _ => .inr rfl⟩
    next hstarted => exact ⟨hlossless, fun _ => .inl (by simpa [hstarted] using hwaits)⟩

theorem tick (h : Kept s) : Kept (s.tick c) := by
  unfold State.tick
  split
  next hempty => exact ⟨h.lossless, fun hbuffer => absurd hempty hbuffer⟩
  · refine ⟨?_, fun hrest => .inr (by simpa using hrest)⟩
    rw [List.flatten_append, List.flatten_singleton, List.append_assoc, List.take_append_drop]
    exact h.lossless

theorem drain (h : Kept s) : Kept s.drain := by
  unfold State.drain
  dsimp only
  split
  next hempty => exact ⟨h.lossless, fun hbuffer => absurd hempty hbuffer⟩
  · refine ⟨?_, fun hbuffer => absurd rfl hbuffer⟩
    rw [List.flatten_append, List.flatten_singleton, List.append_nil]
    exact h.lossless

theorem step (h : Kept s) (act : Act) : Kept (s.step c act) := by
  cases act with
  | push chunk => exact h.push chunk
  | hold =>
    change Kept s.hold
    unfold State.hold
    split
    · exact ⟨h.lossless, fun _ => .inr rfl⟩
    · exact h
  | frame =>
    change Kept (if s.running then s.tick c else s)
    split
    · exact h.tick
    · exact h
  | endStream =>
    change Kept s.endStream
    unfold State.endStream
    dsimp only
    split
    · exact ⟨h.lossless, h.awaited⟩
    · exact ⟨h.lossless, fun _ => .inr rfl⟩
  | drain => exact h.drain
  | discard => exact ⟨rfl, fun hbuffer => absurd rfl hbuffer⟩

end Kept

theorem Kept.foldl (h : Kept s) (acts : List Act) : Kept (acts.foldl (State.step c) s) :=
  List.foldlRecOn acts _ h fun _ h act _ => h.step act

theorem frame_drops (h : s.buffer ≠ [] → s.running = true) : (s.step c .frame).buffer = s.buffer.drop (frameChars c s) ∧
    (s.step c .frame).pushed = s.pushed ∧ ((s.step c .frame).buffer ≠ [] → (s.step c .frame).running = true) := by
  by_cases hrunning : s.running = true
  · have hframe : s.step c .frame = s.tick c := if_pos hrunning
    rw [hframe, State.tick]
    split
    next hempty => exact ⟨by rw [hempty, List.drop_nil], rfl, fun hrest => absurd hempty hrest⟩
    · exact ⟨rfl, rfl, fun hrest => by simpa using hrest⟩
  · have hframe : s.step c .frame = s := if_neg hrunning
    have hempty : s.buffer = [] := by_contra fun hbuffer => hrunning (h hbuffer)
    rw [hframe]
    exact ⟨by rw [hempty, List.drop_nil], rfl, fun hrest => absurd hempty hrest⟩

theorem frames_flush (n : ℕ) (h : s.buffer ≠ [] → s.running = true) (hn : s.buffer.length ≤ n) :
    ((List.replicate n Act.frame).foldl (State.step c) s).buffer = [] ∧
      ((List.replicate n Act.frame).foldl (State.step c) s).pushed = s.pushed := by
  induction n generalizing s with
  | zero => exact ⟨List.length_eq_zero_iff.1 (Nat.le_zero.1 hn), rfl⟩
  | succ n ih =>
    obtain ⟨hbuffer, hpushed, hrunning⟩ := frame_drops (c := c) h
    have hone := one_le_frameChars (c := c) s
    rw [List.replicate_succ, List.foldl_cons, ← hpushed]
    refine ih hrunning ?_
    rw [hbuffer, List.length_drop]
    omega

/-- Nothing is lost, repeated or left behind, and no frame is more than nine characters over. -/
theorem run_delivers (acts : List Act) (idle : ℕ) :
    let s := run c acts
    let later := (Act.hold :: List.replicate (s.buffer.length + idle) .frame).foldl (State.step c) s
    s.flushed.flatten ++ s.buffer = s.pushed ∧ later.flushed.flatten = s.pushed ∧
      s.buffer.length ≤ (s.tick c).buffer.length + max 1 (c.targetChars (s.frameCount + 1) s.streamEnded s.buffer.length) + 9 := by
  have h : Kept (run c acts) := Kept.foldl ⟨rfl, fun hbuffer => absurd rfl hbuffer⟩ acts
  revert h
  generalize run c acts = s
  intro h
  refine ⟨h.lossless, ?_, ?_⟩
  · have hheld : (s.hold.buffer ≠ [] → s.hold.running = true) ∧ s.hold.buffer = s.buffer ∧ s.hold.pushed = s.pushed := by
      unfold State.hold
      split
      · exact ⟨fun _ => rfl, rfl, rfl⟩
      next hhold => exact ⟨fun hbuffer => (h.awaited hbuffer).resolve_left hhold, rfl, rfl⟩
    obtain ⟨hrunning, hbuffer, hpushed⟩ := hheld
    obtain ⟨hempty, hsame⟩ := frames_flush (c := c) (s.buffer.length + idle) hrunning (by rw [hbuffer]; omega)
    have hlossless := ((h.step (c := c) .hold).foldl (c := c) (.replicate (s.buffer.length + idle) .frame)).lossless
    rwa [show s.step c .hold = s.hold from rfl, hempty, hsame, hpushed, List.append_nil] at hlossless
  · unfold State.tick
    have hchars := frameChars_le (c := c) s
    split
    · exact Nat.le_add_right_of_le (Nat.le_add_right _ _)
    · simp only [List.length_drop]
      omega

end Wiii.Desktop.StreamBuffer
