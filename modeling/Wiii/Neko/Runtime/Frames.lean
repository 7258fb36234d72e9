import Wiii.Lib.Streams
import Wiii.Neko.Runtime.Requests
import Mathlib.Data.List.TakeWhile

/-!
# The frames of a provider

The writer ends each frame with a newline, and the reader collects the bytes the transport hands over, chunk by chunk,
up to the next newline, within a limit.  What it gives is a function of the bytes alone (`readFrames_eq`), and what the
writer wrote is read back (`provider_frames`).
-/

namespace Wiii.Neko

def maxProviderFrameBytes : ℕ := 4 * 1024 * 1024

def newline : UInt8 := 10

def carriageReturn : UInt8 := 13

/-- Why a frame is refused. -/
inductive FrameError
  | unterminated
  | oversized
  | notUtf8
  deriving DecidableEq

/-- What one read of the transport gives; a read of no bytes is the end of the stream. -/
abbrev Chunk := { chunk : List UInt8 // chunk ≠ [] }

def stream (chunks : List Chunk) : List UInt8 := chunks.flatMap Subtype.val

/-! ## The writer and the reader -/

/-- What the writer sends for its jobs, one after the other. -/
def spawnWriter (frames : List String) : List UInt8 := frames.flatMap fun line => bytes line ++ [newline]

/-- The buffer after some of its bytes were consumed. -/
def consume (take : ℕ) : List Chunk → List Chunk
  | [] => []
  | available :: later => if h : available.1.drop take = [] then later else ⟨available.1.drop take, h⟩ :: later

def pop (byte : UInt8) (frame : List UInt8) : List UInt8 :=
  if frame.getLast? = some byte then frame.dropLast else frame

def fromUtf8 (frame : List UInt8) : Except FrameError String :=
  match String.fromUTF8? ⟨frame.toArray⟩ with
  | some line => .ok line
  | none => .error .notUtf8

/-- The loop of a read, with the bytes so far; a chunk without a newline is consumed whole. -/
def readLoop (maxBytes : ℕ) : List UInt8 → List Chunk → Except FrameError (Option String) × List Chunk
  | frame, [] => (if frame.isEmpty then .ok none else .error .unterminated, [])
  | frame, available :: later =>
    let position := available.1.findIdx? (· == newline)
    let take := position.elim available.1.length (· + 1)
    let payloadBytes := position.getD take
    if frame.length + payloadBytes > maxBytes then (.error .oversized, available :: later)
    else if position.isSome then
      ((fromUtf8 (pop carriageReturn (pop newline (frame ++ available.1.take take)))).map some,
        consume take (available :: later))
    else readLoop maxBytes (frame ++ available.1.take take) later

def readBoundedFrame (maxBytes : ℕ) (chunks : List Chunk) : Except FrameError (Option String) × List Chunk :=
  readLoop maxBytes [] chunks

/-! ## The next frame of a stream -/

/-- What is read off a whole stream, and what is left of it after a frame. -/
def nextFrame (maxBytes : ℕ) (input : List UInt8) : Except FrameError (Option String) × List UInt8 :=
  if maxBytes < (input.takeWhile (· != newline)).length then (.error .oversized, input)
  else match input.dropWhile (· != newline) with
    | [] => (if input.isEmpty then .ok none else .error .unterminated, [])
    | _ :: rest => ((fromUtf8 (pop carriageReturn (input.takeWhile (· != newline)))).map some, rest)

variable {maxBytes : ℕ} {payload rest : List UInt8}

theorem ne_newline (h : newline ∉ payload) : ∀ byte ∈ payload, (byte != newline) = true := by
  intro byte hbyte
  refine bne_iff_ne.2 fun heq => h ?_
  rwa [heq] at hbyte

theorem takeWhile_of_notMem (h : newline ∉ payload) : payload.takeWhile (· != newline) = payload :=
  List.takeWhile_eq_self_iff.2 (ne_newline h)

theorem takeWhile_line (h : newline ∉ payload) :
    (payload ++ newline :: rest).takeWhile (· != newline) = payload := by
  rw [List.takeWhile_append_of_pos (ne_newline h), List.takeWhile_cons_of_neg (by simp), List.append_nil]

theorem dropWhile_line (h : newline ∉ payload) :
    (payload ++ newline :: rest).dropWhile (· != newline) = newline :: rest := by
  rw [List.dropWhile_append_of_pos (ne_newline h), List.dropWhile_cons_of_neg (by simp)]

theorem findIdx?_of_notMem (h : newline ∉ payload) : payload.findIdx? (· == newline) = none :=
  List.findIdx?_eq_none_iff.2 fun byte hbyte => by simpa using ne_newline h byte hbyte

theorem findIdx?_line (h : newline ∉ payload) :
    (payload ++ newline :: rest).findIdx? (· == newline) = some payload.length := by
  rw [List.findIdx?_append, findIdx?_of_notMem h, List.findIdx?_cons]
  simp

theorem notMem_or_line (input : List UInt8) :
    newline ∉ input ∨ ∃ payload rest, input = payload ++ newline :: rest ∧ newline ∉ payload := by
  by_cases h : newline ∈ input
  · exact .inr (List.eq_append_cons_of_mem h)
  · exact .inl h

theorem nextFrame_of_notMem (h : newline ∉ payload) :
    nextFrame maxBytes payload =
      if maxBytes < payload.length then (.error .oversized, payload)
      else (if payload.isEmpty then .ok none else .error .unterminated, []) := by
  rw [nextFrame, takeWhile_of_notMem h, List.dropWhile_eq_nil_iff.2 (ne_newline h)]

theorem nextFrame_line (h : newline ∉ payload) :
    nextFrame maxBytes (payload ++ newline :: rest) =
      if maxBytes < payload.length then (.error .oversized, payload ++ newline :: rest)
      else ((fromUtf8 (pop carriageReturn payload)).map some, rest) := by
  rw [nextFrame, takeWhile_line h, dropWhile_line h]

theorem nextFrame_of_lt (h : newline ∉ payload) (hlt : maxBytes < payload.length) :
    nextFrame maxBytes (payload ++ rest) = (.error .oversized, payload ++ rest) := by
  refine if_pos (hlt.trans_le ?_)
  rw [List.takeWhile_append_of_pos (ne_newline h), List.length_append]
  exact Nat.le_add_right _ _

theorem length_nextFrame {line : String} (h : (nextFrame maxBytes payload).1 = .ok (some line)) :
    (nextFrame maxBytes payload).2.length < payload.length := by
  rcases notMem_or_line payload with hnot | ⟨payload, rest, rfl, hnot⟩
  · rw [nextFrame_of_notMem hnot] at h
    split_ifs at h
    all_goals cases h
  · rw [nextFrame_line hnot] at h ⊢
    split_ifs at h ⊢
    show rest.length < _
    rw [List.length_append, List.length_cons]
    omega

/-! ## Reading chunk by chunk -/

variable {chunks later : List Chunk} {available : Chunk} {frame : List UInt8}

theorem stream_cons : stream (available :: later) = available.1 ++ stream later := rfl

theorem stream_consume (take : ℕ) (h : take ≤ available.1.length) :
    stream (consume take (available :: later)) = (stream (available :: later)).drop take := by
  rw [stream_cons, List.drop_append_of_le_length h, consume]
  split_ifs with hall
  · rw [hall, List.nil_append]
  · rfl

theorem pop_append (byte : UInt8) (frame : List UInt8) : pop byte (frame ++ [byte]) = frame := by
  rw [pop, if_pos List.getLast?_concat, List.dropLast_concat]

/-- The loop reads the next frame of the bytes it holds and the bytes still to come. -/
theorem readLoop_eq (h : newline ∉ frame) (hle : frame.length ≤ maxBytes) :
    (readLoop maxBytes frame chunks).1 = (nextFrame maxBytes (frame ++ stream chunks)).1 ∧
      ∀ line, (readLoop maxBytes frame chunks).1 = .ok (some line) →
        stream (readLoop maxBytes frame chunks).2 = (nextFrame maxBytes (frame ++ stream chunks)).2 := by
  induction chunks generalizing frame with
  | nil =>
    have hstream : frame ++ stream [] = frame := List.append_nil frame
    rw [hstream, nextFrame_of_notMem h, if_neg (not_lt.2 hle)]
    exact ⟨rfl, fun _ _ => rfl⟩
  | cons available later ih =>
    rw [stream_cons, ← List.append_assoc]
    rcases notMem_or_line available.1 with hnot | ⟨payload, rest, hline, hnot⟩
    · -- no newline in this chunk: it joins the frame, if the frame stays within the limit
      have hframe : newline ∉ frame ++ available.1 := by simp [h, hnot]
      rw [readLoop, findIdx?_of_notMem hnot]
      simp only [Option.elim_none, Option.getD_none, List.take_length, Option.isSome_none, Bool.false_eq_true, if_false]
      split_ifs with hlt
      · rw [nextFrame_of_lt hframe (by rw [List.length_append]; exact hlt)]
        exact ⟨rfl, fun _ hok => by cases hok⟩
      · exact ih hframe (by rw [List.length_append]; exact not_lt.1 hlt)
    · -- the frame ends in this chunk
      have hframe : newline ∉ frame ++ payload := by simp [h, hnot]
      have hcut : frame ++ available.1 ++ stream later = frame ++ payload ++ newline :: (rest ++ stream later) := by
        rw [hline]
        simp
      have htake : available.1.take (payload.length + 1) = payload ++ [newline] := by
        rw [hline, List.take_length_add_append]
        rfl
      rw [hcut, nextFrame_line hframe, readLoop, hline, findIdx?_line hnot, ← hline]
      simp only [Option.elim_some, Option.getD_some, Option.isSome_some, if_true, htake, List.length_append]
      split_ifs with hlt
      · exact ⟨rfl, fun _ hok => by cases hok⟩
      · rw [← List.append_assoc, pop_append]
        refine ⟨rfl, fun _ _ => ?_⟩
        have hle : payload.length + 1 ≤ available.1.length := by
          rw [hline]
          simp
        have hdrop : (payload ++ newline :: rest).drop (payload.length + 1) = rest := by
          rw [List.drop_length_add_append]
          rfl
        dsimp only
        rw [stream_consume _ hle, stream_cons, List.drop_append_of_le_length hle, hline, hdrop]

theorem readBoundedFrame_eq :
    (readBoundedFrame maxBytes chunks).1 = (nextFrame maxBytes (stream chunks)).1 ∧
      ∀ line, (readBoundedFrame maxBytes chunks).1 = .ok (some line) →
        stream (readBoundedFrame maxBytes chunks).2 = (nextFrame maxBytes (stream chunks)).2 :=
  readLoop_eq List.not_mem_nil (Nat.zero_le _)

theorem length_readBoundedFrame {line : String} (h : (readBoundedFrame maxBytes chunks).1 = .ok (some line)) :
    (stream (readBoundedFrame maxBytes chunks).2).length < (stream chunks).length := by
  rw [readBoundedFrame_eq.2 line h]
  rw [readBoundedFrame_eq.1] at h
  exact length_nextFrame h

def spawnReader (maxBytes : ℕ) : Reader (List Chunk) String FrameError where
  next := readBoundedFrame maxBytes
  size chunks := (stream chunks).length
  shrinks _ _ := length_readBoundedFrame

def streamReader (maxBytes : ℕ) : Reader (List UInt8) String FrameError where
  next := nextFrame maxBytes
  size := List.length
  shrinks _ _ := length_nextFrame

/-- The frames of a session, up to the end of the stream or the first one refused. -/
def readFrames (maxBytes : ℕ) (chunks : List Chunk) : List String × Option FrameError :=
  (spawnReader maxBytes).drain chunks

theorem readFrames_eq (maxBytes : ℕ) (chunks : List Chunk) :
    readFrames maxBytes chunks = (streamReader maxBytes).drain (stream chunks) :=
  (spawnReader maxBytes).drain_eq (streamReader maxBytes) stream (fun _ => readBoundedFrame_eq.1)
    (fun _ line h => readBoundedFrame_eq.2 line h) chunks

/-! ## What was written -/

theorem mem_utf8EncodeChar {c : Char} {byte : UInt8} (h : byte ∈ String.utf8EncodeChar c) (hlt : byte.toNat < 0x80) :
    c.toNat = byte.toNat := by
  have hval : c.val.toNat = c.toNat := rfl
  unfold String.utf8EncodeChar at h
  simp only [hval] at h
  split_ifs at h
  all_goals simp only [List.mem_cons, List.not_mem_nil, or_false] at h
  · rw [h, UInt8.toNat_ofNat']
    omega
  · rcases h with rfl | rfl <;> rw [UInt8.toNat_ofNat'] at hlt <;> omega
  · rcases h with rfl | rfl | rfl <;> rw [UInt8.toNat_ofNat'] at hlt <;> omega
  · rcases h with rfl | rfl | rfl | rfl <;> rw [UInt8.toNat_ofNat'] at hlt <;> omega

theorem mem_of_mem_bytes {s : String} {c : Char} {byte : UInt8} (h : byte ∈ bytes s) (hbyte : byte.toNat = c.toNat)
    (hlt : byte.toNat < 0x80) : c ∈ s.toList := by
  rw [← String.ofList_toList (s := s), bytes_ofList] at h
  obtain ⟨d, hd, hmem⟩ := List.mem_flatMap.1 h
  have heq : c = d := Char.toNat_inj.1 (by rw [← hbyte, mem_utf8EncodeChar hmem hlt])
  rwa [heq]

theorem fromUtf8_bytes (s : String) : fromUtf8 (bytes s) = .ok s := by
  have hvalid : s.toByteArray.IsValidUTF8 := s.isValidUTF8
  have hfrom : String.fromUTF8? s.toByteArray = some s := by
    rw [String.fromUTF8?, dif_pos hvalid]
    rfl
  show (match String.fromUTF8? s.toByteArray with
    | some line => Except.ok line
    | none => .error FrameError.notUtf8) = _
  rw [hfrom]

theorem validateProviderFrame_ok {line : String} (h : validateProviderFrame line = .ok ()) :
    line.utf8ByteSize ≤ 1024 * 1024 ∧ '\r' ∉ line.toList ∧ '\n' ∉ line.toList := by
  unfold validateProviderFrame at h
  split_ifs at h with hsize hline
  rw [Bool.or_eq_true, not_or, decide_eq_true_eq, not_lt] at hsize
  rw [Bool.not_eq_true, List.any_eq_false] at hline
  exact ⟨hsize.2, fun hmem => hline _ hmem (by decide), fun hmem => hline _ hmem (by decide)⟩

theorem pop_of_notMem {byte : UInt8} (h : byte ∉ payload) : pop byte payload = payload :=
  if_neg fun hlast => h (List.mem_of_getLast? hlast)

/-- An accepted frame is read back, and the rest of the stream is left. -/
theorem nextFrame_written {line : String} (h : validateProviderFrame line = .ok ()) :
    nextFrame maxProviderFrameBytes (bytes line ++ newline :: rest) = (.ok (some line), rest) := by
  obtain ⟨hsize, hcr, hlf⟩ := validateProviderFrame_ok h
  have hnewline : newline ∉ bytes line := fun hmem => hlf (mem_of_mem_bytes hmem rfl (by decide))
  have hreturn : carriageReturn ∉ bytes line := fun hmem => hcr (mem_of_mem_bytes hmem rfl (by decide))
  rw [nextFrame_line hnewline, if_neg, pop_of_notMem hreturn, fromUtf8_bytes]
  · rfl
  · rw [length_bytes, maxProviderFrameBytes]
    omega

/-- What the writer sent for accepted frames is those frames, and then the end of the stream. -/
theorem drain_spawnWriter {frames : List String} (h : ∀ line ∈ frames, validateProviderFrame line = .ok ()) :
    (streamReader maxProviderFrameBytes).drain (spawnWriter frames) = (frames, none) := by
  induction frames with
  | nil => exact Reader.drain_none rfl
  | cons line frames ih =>
    have hwritten : spawnWriter (line :: frames) = bytes line ++ newline :: spawnWriter frames := by
      simp [spawnWriter]
    have hnext : (streamReader maxProviderFrameBytes).next (bytes line ++ newline :: spawnWriter frames) =
        (.ok (some line), spawnWriter frames) := nextFrame_written (h line (List.mem_cons_self ..))
    rw [hwritten, Reader.drain_some (congrArg Prod.fst hnext), hnext]
    dsimp only
    rw [ih fun line hline => h line (List.mem_cons_of_mem _ hline)]

/-! ## What is read -/

theorem fromUtf8_eq_ok {line : String} (h : fromUtf8 payload = .ok line) : payload = bytes line := by
  unfold fromUtf8 String.fromUTF8? at h
  split_ifs at h with hvalid
  cases h
  rfl

theorem fromUtf8_eq_error {error : FrameError} (h : fromUtf8 payload = .error error) :
    error = .notUtf8 ∧ ∀ line, payload ≠ bytes line := by
  refine ⟨?_, fun line hline => ?_⟩
  · unfold fromUtf8 at h
    split at h
    all_goals cases h
    rfl
  · rw [hline, fromUtf8_bytes] at h
    cases h

/-- A line within the limit that is the text, but for a carriage return at its end. -/
def IsFrame (maxBytes : ℕ) (payload : List UInt8) (line : String) : Prop :=
  newline ∉ payload ∧ payload.length ≤ maxBytes ∧ pop carriageReturn payload = bytes line

/-- What is left of the stream where reading stops. -/
def Stops (maxBytes : ℕ) : Option FrameError → List UInt8 → Prop
  | none, rest => rest = []
  | some .unterminated, rest => rest ≠ [] ∧ newline ∉ rest ∧ rest.length ≤ maxBytes
  | some .oversized, rest => maxBytes < (rest.takeWhile (· != newline)).length
  | some .notUtf8, rest => ∃ payload later, rest = payload ++ newline :: later ∧ newline ∉ payload ∧
      payload.length ≤ maxBytes ∧ ∀ line, pop carriageReturn payload ≠ bytes line

theorem nextFrame_some {line : String} {input : List UInt8} (h : (nextFrame maxBytes input).1 = .ok (some line)) :
    ∃ payload, input = payload ++ newline :: (nextFrame maxBytes input).2 ∧ IsFrame maxBytes payload line := by
  rcases notMem_or_line input with hnot | ⟨payload, rest, rfl, hnot⟩
  · rw [nextFrame_of_notMem hnot] at h
    split_ifs at h
    all_goals cases h
  · rw [nextFrame_line hnot] at h ⊢
    split_ifs at h ⊢ with hlt
    cases htext : fromUtf8 (pop carriageReturn payload) with
    | error error =>
      rw [htext] at h
      cases h
    | ok text =>
      rw [htext] at h
      cases h
      exact ⟨payload, rfl, hnot, not_lt.1 hlt, fromUtf8_eq_ok htext⟩

theorem nextFrame_none {input : List UInt8} (h : (nextFrame maxBytes input).1 = .ok none) : input = [] := by
  rcases notMem_or_line input with hnot | ⟨payload, rest, rfl, hnot⟩
  · rw [nextFrame_of_notMem hnot] at h
    split_ifs at h with hlt hempty
    exact List.isEmpty_iff.1 hempty
  · rw [nextFrame_line hnot] at h
    split_ifs at h
    cases htext : fromUtf8 (pop carriageReturn payload) with
    | error error =>
      rw [htext] at h
      cases h
    | ok text =>
      rw [htext] at h
      cases h

theorem nextFrame_error {input : List UInt8} {error : FrameError} (h : (nextFrame maxBytes input).1 = .error error) :
    Stops maxBytes (some error) input := by
  rcases notMem_or_line input with hnot | ⟨payload, rest, rfl, hnot⟩
  · rw [nextFrame_of_notMem hnot] at h
    split_ifs at h with hlt hempty
    · cases h
      rwa [Stops, takeWhile_of_notMem hnot]
    · cases h
      exact ⟨fun hnil => hempty (List.isEmpty_iff.2 hnil), hnot, not_lt.1 hlt⟩
  · rw [nextFrame_line hnot] at h
    split_ifs at h with hlt
    · cases h
      rwa [Stops, takeWhile_line hnot]
    · cases htext : fromUtf8 (pop carriageReturn payload) with
      | error refused =>
        rw [htext] at h
        cases h
        obtain ⟨rfl, hnone⟩ := fromUtf8_eq_error htext
        exact ⟨payload, rest, rfl, hnot, not_lt.1 hlt, hnone⟩
      | ok text =>
        rw [htext] at h
        cases h

/-- The stream is the lines of the frames that were read, whole, and where reading stopped. -/
theorem drain_streamReader (maxBytes : ℕ) (input : List UInt8) :
    ∃ payloads rest, input = payloads.flatMap (· ++ [newline]) ++ rest ∧
      List.Forall₂ (IsFrame maxBytes) payloads ((streamReader maxBytes).drain input).1 ∧
        Stops maxBytes ((streamReader maxBytes).drain input).2 rest := by
  induction input using (streamReader maxBytes).induction with
  | item input line h ih =>
    obtain ⟨payload, hinput, hframe⟩ := nextFrame_some h
    obtain ⟨payloads, rest, hrest, hframes, hstops⟩ := ih
    rw [Reader.drain_some h]
    refine ⟨payload :: payloads, rest, ?_, .cons hframe hframes, hstops⟩
    have hleft : (nextFrame maxBytes input).2 = payloads.flatMap (· ++ [newline]) ++ rest := hrest
    rw [hinput, hleft]
    simp
  | none input h =>
    rw [Reader.drain_none h]
    exact ⟨[], input, rfl, .nil, nextFrame_none h⟩
  | error input error h =>
    rw [Reader.drain_error h]
    exact ⟨[], input, rfl, .nil, nextFrame_error h⟩

/-- However the bytes are cut, written frames are read back, and any stream is read to the same frames and end. -/
theorem provider_frames (maxBytes : ℕ) (chunks : List Chunk) :
    (∀ frames, (∀ line ∈ frames, validateProviderFrame line = .ok ()) → stream chunks = spawnWriter frames →
        readFrames maxProviderFrameBytes chunks = (frames, none)) ∧
      (∀ chunks', stream chunks' = stream chunks → readFrames maxBytes chunks' = readFrames maxBytes chunks) ∧
      ∃ payloads rest, stream chunks = payloads.flatMap (· ++ [newline]) ++ rest ∧
        List.Forall₂ (IsFrame maxBytes) payloads (readFrames maxBytes chunks).1 ∧
          Stops maxBytes (readFrames maxBytes chunks).2 rest := by
  refine ⟨fun frames haccepted hwritten => ?_, fun chunks' hsame => ?_, ?_⟩
  · rw [readFrames_eq, hwritten, drain_spawnWriter haccepted]
  · rw [readFrames_eq, readFrames_eq, hsame]
  · rw [readFrames_eq]
    exact drain_streamReader maxBytes (stream chunks)

/-- Two frames, one cut before its newline and one inside. -/
theorem provider_frames_two :
    readFrames maxProviderFrameBytes [⟨[97], by decide⟩, ⟨[10, 98], by decide⟩, ⟨[99, 10], by decide⟩] =
      (["a", "bc"], none) :=
  (provider_frames 0 _).1 ["a", "bc"] (by decide) (by decide)

end Wiii.Neko
