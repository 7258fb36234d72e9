import Mathlib.Data.List.TakeWhile
import Wiii.Neko.Computer.WorkPlane

/-!
# The tail of a provider's error output

Of the bytes that a provider writes to its standard error the last ones are retained, and whether some are missing is
remembered.  The flag is also set when the first bytes come in one chunk that fills the tail, and never for a tail
without room (`exact_iff`).  What is shown is a lossy reading of the bytes as text (`snapshotLossy_capture`).
-/

namespace Wiii.Neko

open Computer (isWhitespace)

/-! ## Lossy UTF-8 -/

/-- How many bytes follow the first byte of a sequence, and the range of the first of them. -/
def continuationsOf (b : ℕ) : Option (ℕ × ℕ × ℕ) :=
  if 0xC2 ≤ b ∧ b ≤ 0xDF then some (1, 0x80, 0xBF)
  else if b = 0xE0 then some (2, 0xA0, 0xBF)
  else if b = 0xED then some (2, 0x80, 0x9F)
  else if 0xE1 ≤ b ∧ b ≤ 0xEF then some (2, 0x80, 0xBF)
  else if b = 0xF0 then some (3, 0x90, 0xBF)
  else if 0xF1 ≤ b ∧ b ≤ 0xF3 then some (3, 0x80, 0xBF)
  else if b = 0xF4 then some (3, 0x80, 0x8F)
  else none

/-- At most `n` continuation bytes, the first of them in the given range. -/
def takeContinuations : ℕ → ℕ → ℕ → List UInt8 → List UInt8
  | n + 1, low, high, b :: rest =>
    if low ≤ b.toNat ∧ b.toNat ≤ high then b :: takeContinuations n 0x80 0xBF rest else []
  | _, _, _, _ => []

/-- The character read at a byte, and how many bytes after it belong to it. -/
def lossyChar (b : UInt8) (rest : List UInt8) : Char × ℕ :=
  if b.toNat < 0x80 then (Char.ofNat b.toNat, 0)
  else match continuationsOf b.toNat with
    | none => ('\uFFFD', 0)
    | some (n, low, high) =>
      let taken := takeContinuations n low high rest
      if taken.length = n then
        (Char.ofNat (taken.foldl (fun code c => code * 64 + c.toNat % 64) (b.toNat % 2 ^ (6 - n))), n)
      else ('\uFFFD', taken.length)

/-- The characters of the bytes, after the given number of bytes that are read already. -/
def lossyChars : ℕ → List UInt8 → List Char
  | _, [] => []
  | skip + 1, _ :: rest => lossyChars skip rest
  | 0, b :: rest => (lossyChar b rest).1 :: lossyChars (lossyChar b rest).2 rest

/-- `String::from_utf8_lossy`. -/
def fromUtf8Lossy (bytes : List UInt8) : List Char := lossyChars 0 bytes

example : fromUtf8Lossy [0x61, 0xE2, 0x80, 0xA6, 0xF0, 0x9F, 0x98, 0x62, 0xC0] =
    ['a', '…', '\uFFFD', 'b', '\uFFFD'] := by decide

theorem fromUtf8Lossy_replicate {b : UInt8} (h : b.toNat < 0x80) (n : ℕ) :
    fromUtf8Lossy (List.replicate n b) = List.replicate n (Char.ofNat b.toNat) := by
  unfold fromUtf8Lossy
  induction n with
  | zero => rfl
  | succ n ih =>
    have hchar : lossyChar b (List.replicate n b) = (Char.ofNat b.toNat, 0) := if_pos h
    rw [List.replicate_succ, List.replicate_succ, lossyChars, hchar, ih]

/-- `str::trim`. -/
def trimChars (text : List Char) : List Char :=
  ((text.dropWhile isWhitespace).reverse.dropWhile isWhitespace).reverse

theorem trimChars_replicate {c : Char} (h : isWhitespace c = false) (n : ℕ) :
    trimChars (List.replicate n c) = List.replicate n c := by
  have hkeep : (List.replicate n c).dropWhile isWhitespace = List.replicate n c :=
    List.dropWhile_eq_self_iff.2 fun hpos => by simp [h]
  unfold trimChars
  rw [hkeep, List.reverse_replicate, hkeep, List.reverse_replicate]

/-! ## The end of stderr -/

def maxProviderStderrBytes : ℕ := 8 * 1024

def truncationMarker : String := "…[truncated]\n"

structure StderrTail where
  maxBytes : ℕ
  bytes : List UInt8
  truncated : Bool
  bounded : bytes.length ≤ maxBytes

namespace StderrTail

def new (maxBytes : ℕ) : StderrTail := ⟨maxBytes, [], false, Nat.zero_le _⟩

/-- The last `n` elements of a list. -/
def keepLast (n : ℕ) (l : List UInt8) : List UInt8 := l.drop (l.length - n)

/-- A chunk that fills the buffer replaces it; otherwise the front makes room for it. -/
def extend (tail : StderrTail) (chunk : List UInt8) : StderrTail :=
  if chunk.isEmpty ∨ tail.maxBytes = 0 then tail
  else if h : tail.maxBytes ≤ chunk.length then
    { maxBytes := tail.maxBytes, bytes := chunk.drop (chunk.length - tail.maxBytes), truncated := true
      bounded := by rw [List.length_drop]; omega }
  else
    let overflow := tail.bytes.length + chunk.length - tail.maxBytes
    { maxBytes := tail.maxBytes, bytes := tail.bytes.drop overflow ++ chunk
      truncated := tail.truncated || decide (0 < overflow)
      bounded := by
        have := tail.bounded
        rw [List.length_append, List.length_drop]
        omega }

def snapshotLossy (tail : StderrTail) : Option String :=
  if tail.bytes.isEmpty then none
  else
    let trimmed := trimChars (fromUtf8Lossy tail.bytes)
    if trimmed.isEmpty then none
    else if tail.truncated then some (truncationMarker ++ .ofList trimmed)
    else some (.ofList trimmed)

/-- What one read of the pipe gives: the buffer has 4096 bytes. -/
abbrev Read := { chunk : List UInt8 // chunk.length ≤ 4096 }

/-- The buffer after the reads of the capture thread. -/
def capture (reads : List Read) : StderrTail :=
  reads.foldl (fun tail read => tail.extend read.1) (new maxProviderStderrBytes)

def written (reads : List Read) : List UInt8 := reads.flatMap Subtype.val

def collect (maxBytes : ℕ) (chunks : List (List UInt8)) : StderrTail := chunks.foldl extend (new maxBytes)

variable {tail : StderrTail} {chunk : List UInt8} {maxBytes : ℕ} {chunks : List (List UInt8)}

/-! ## One chunk -/

theorem maxBytes_extend (tail : StderrTail) (chunk : List UInt8) : (tail.extend chunk).maxBytes = tail.maxBytes := by
  unfold extend
  split
  · rfl
  · split <;> rfl

theorem extend_of_skip (h : chunk = [] ∨ tail.maxBytes = 0) : tail.extend chunk = tail :=
  if_pos (h.imp List.isEmpty_iff.2 id)

theorem extend_of_whole (hmax : 0 < tail.maxBytes) (h : tail.maxBytes ≤ chunk.length) :
    (tail.extend chunk).bytes = keepLast tail.maxBytes chunk ∧ (tail.extend chunk).truncated = true := by
  have hskip : ¬ (chunk.isEmpty ∨ tail.maxBytes = 0) := by
    rw [List.isEmpty_iff]
    rintro (rfl | hzero)
    · simp at h
      omega
    · omega
  unfold extend
  rw [if_neg hskip, dif_pos h]
  exact ⟨rfl, rfl⟩

theorem extend_of_part (hchunk : chunk ≠ []) (h : chunk.length < tail.maxBytes) :
    (tail.extend chunk).bytes = tail.bytes.drop (tail.bytes.length + chunk.length - tail.maxBytes) ++ chunk ∧
      (tail.extend chunk).truncated =
        (tail.truncated || decide (tail.maxBytes < tail.bytes.length + chunk.length)) := by
  have hskip : ¬ (chunk.isEmpty ∨ tail.maxBytes = 0) := by
    rw [List.isEmpty_iff]
    rintro (hnil | hzero)
    · exact hchunk hnil
    · omega
  unfold extend
  rw [if_neg hskip, dif_neg (by omega)]
  refine ⟨rfl, congrArg (tail.truncated || ·) (decide_eq_decide.2 ?_)⟩
  omega

/-! ## Appending to a list of which the end is kept -/

theorem keepLast_zero (l : List UInt8) : keepLast 0 l = [] := List.drop_eq_nil_of_le le_rfl

theorem keepLast_append_of_le {n : ℕ} (seen : List UInt8) {more : List UInt8} (h : n ≤ more.length) :
    keepLast n (seen ++ more) = keepLast n more := by
  unfold keepLast
  rw [List.length_append, List.drop_append, List.drop_eq_nil_of_le (by omega), List.nil_append]
  congr 1
  omega

theorem keepLast_append_of_lt {n : ℕ} (seen : List UInt8) {more : List UInt8} (h : more.length < n) :
    keepLast n (seen ++ more) = (keepLast n seen).drop ((keepLast n seen).length + more.length - n) ++ more := by
  unfold keepLast
  have hzero : seen.length + more.length - n - seen.length = 0 := by omega
  rw [List.length_append, List.drop_append, hzero, List.drop_zero, List.drop_drop, List.length_drop]
  congr 2
  omega

/-! ## Runs -/

structure After (maxBytes : ℕ) (chunks : List (List UInt8)) (tail : StderrTail) : Prop where
  maxBytes_eq : tail.maxBytes = maxBytes
  bytes : tail.bytes = keepLast maxBytes chunks.flatten
  truncated : tail.truncated = true ↔ 0 < maxBytes ∧
    (maxBytes < chunks.flatten.length ∨ chunks.flatten.length = maxBytes ∧ ∃ chunk ∈ chunks, chunk.length = maxBytes)

theorem length_le_flatten (h : chunk ∈ chunks) : chunk.length ≤ chunks.flatten.length :=
  (List.sublist_flatten_of_mem h).length_le

theorem After.extend (h : After maxBytes chunks tail) (chunk : List UInt8) :
    After maxBytes (chunks ++ [chunk]) (tail.extend chunk) := by
  obtain ⟨hmax, hbytes, htruncated⟩ := h
  have hflatten : (chunks ++ [chunk]).flatten = chunks.flatten ++ chunk := by simp
  have hlength : tail.bytes.length = min chunks.flatten.length maxBytes := by
    rw [hbytes, keepLast, List.length_drop]
    omega
  refine ⟨(maxBytes_extend tail chunk).trans hmax, ?_, ?_⟩
  · rw [hflatten]
    by_cases hskip : chunk = [] ∨ tail.maxBytes = 0
    · rw [extend_of_skip hskip, hbytes]
      rcases hskip with rfl | hzero
      · rw [List.append_nil]
      · rw [← hmax, hzero, keepLast_zero, keepLast_zero]
    · rw [not_or] at hskip
      by_cases hwhole : tail.maxBytes ≤ chunk.length
      · rw [(extend_of_whole (by omega) hwhole).1, keepLast_append_of_le _ (hmax ▸ hwhole), hmax]
      · rw [(extend_of_part hskip.1 (by omega)).1, keepLast_append_of_lt _ (by omega), hbytes, hmax]
  · rw [hflatten, List.length_append]
    by_cases hskip : chunk = [] ∨ tail.maxBytes = 0
    · rw [extend_of_skip hskip, htruncated]
      rcases hskip with rfl | hzero
      · refine and_congr_right fun hpos => ?_
        simp only [List.length_nil, Nat.add_zero, List.mem_append, List.mem_singleton]
        refine or_congr_right (and_congr_right fun _ => exists_congr fun chunk => and_congr_left fun hlen => ?_)
        refine (or_iff_left ?_).symm
        rintro rfl
        rw [List.length_nil] at hlen
        omega
      · omega
    · rw [not_or] at hskip
      by_cases hwhole : tail.maxBytes ≤ chunk.length
      · refine iff_of_true (extend_of_whole (by omega) hwhole).2 ⟨by omega, ?_⟩
        by_cases hmore : maxBytes < chunks.flatten.length + chunk.length
        · exact Or.inl hmore
        · exact Or.inr ⟨by omega, chunk, by simp, by omega⟩
      · have hpos : 0 < chunk.length := List.length_pos_iff.2 hskip.1
        rw [(extend_of_part hskip.1 (by omega)).2, Bool.or_eq_true, htruncated, decide_eq_true_eq, hlength, hmax]
        constructor
        · rintro (⟨hmax', hmore | ⟨hfull, -⟩⟩ | hmore)
          · exact ⟨hmax', by omega⟩
          · exact ⟨hmax', by omega⟩
          · exact ⟨by omega, by omega⟩
        · rintro ⟨hmax', hmore | ⟨hfull, whole, hmem, hwhole'⟩⟩
          · exact Or.inr (by omega)
          · -- a chunk of the whole length leaves no room for another byte
            rcases List.mem_append.1 hmem with hold | hnew
            · have hle := length_le_flatten hold
              omega
            · cases List.mem_singleton.1 hnew
              omega

theorem after_collect (maxBytes : ℕ) (chunks : List (List UInt8)) :
    After maxBytes chunks (collect maxBytes chunks) := by
  induction chunks using List.reverseRecOn with
  | nil => exact ⟨rfl, by simp [collect, new, keepLast], by simp [collect, new]⟩
  | append_singleton chunks chunk ih =>
    rw [collect, List.foldl_append]
    exact ih.extend chunk

/-! ## What the capture thread leaves -/

/-- The buffer holds the end of the content, and knows whether it is all of it. -/
structure Holds (content : List UInt8) (tail : StderrTail) : Prop where
  maxBytes : tail.maxBytes = maxProviderStderrBytes
  bytes : tail.bytes = keepLast maxProviderStderrBytes content
  truncated : tail.truncated = decide (maxProviderStderrBytes < content.length)

/-- A read is shorter than the buffer, so the flag is right after every read. -/
theorem holds_capture (reads : List Read) : Holds (written reads) (capture reads) := by
  have hcollect : capture reads = collect maxProviderStderrBytes (reads.map Subtype.val) := by
    rw [collect, List.foldl_map, capture]
  have hwritten : written reads = (reads.map Subtype.val).flatten := List.flatMap_def
  obtain ⟨hmax, hbytes, htruncated⟩ := after_collect maxProviderStderrBytes (reads.map Subtype.val)
  refine ⟨hcollect ▸ hmax, by rw [hcollect, hbytes, hwritten], ?_⟩
  rw [hcollect, hwritten, Bool.eq_iff_iff, htruncated, decide_eq_true_eq]
  constructor
  · rintro ⟨-, hmore | ⟨-, chunk, hchunk, hlength⟩⟩
    · exact hmore
    · obtain ⟨read, -, rfl⟩ := List.mem_map.1 hchunk
      have hread := read.2
      have hcap : maxProviderStderrBytes = 8192 := rfl
      omega
  · exact fun hmore => ⟨by decide, Or.inl hmore⟩

/-- The retained bytes are the last ones of all, and the flag says whether there were more. -/
def Exact (maxBytes : ℕ) (chunks : List (List UInt8)) : Prop :=
  (collect maxBytes chunks).bytes = keepLast maxBytes chunks.flatten ∧
    ((collect maxBytes chunks).truncated = true ↔ maxBytes < chunks.flatten.length)

/-- Exact unless the tail has no room for what came, or what came is one chunk of exactly the size of the tail. -/
theorem exact_iff (maxBytes : ℕ) (chunks : List (List UInt8)) :
    Exact maxBytes chunks ↔ (maxBytes = 0 → chunks.flatten = []) ∧
      (0 < maxBytes → chunks.flatten.length = maxBytes → ∀ chunk ∈ chunks, chunk.length ≠ maxBytes) := by
  obtain ⟨-, hbytes, htruncated⟩ := after_collect maxBytes chunks
  rw [Exact, and_iff_right hbytes, htruncated]
  constructor
  · intro h
    refine ⟨fun hzero => ?_, fun hpos hfull chunk hmem hwhole => ?_⟩
    · by_contra hne
      have hlt : maxBytes < chunks.flatten.length := by
        rw [hzero]
        exact List.length_pos_iff.2 hne
      have hpos := (h.2 hlt).1
      omega
    · have hlt := h.1 ⟨hpos, Or.inr ⟨hfull, chunk, hmem, hwhole⟩⟩
      omega
  · rintro ⟨hroom, hwhole⟩
    constructor
    · rintro ⟨hpos, hmore | ⟨hfull, chunk, hmem, hlen⟩⟩
      · exact hmore
      · exact absurd hlen (hwhole hpos hfull chunk hmem)
    · intro hmore
      refine ⟨?_, Or.inl hmore⟩
      by_contra hzero
      rw [hroom (by omega)] at hmore
      cases hmore

/-- Four bytes for a tail of four. -/
theorem not_exact : ¬ Exact 4 [[97, 98, 99, 100]] := by
  rintro ⟨-, h⟩
  exact absurd (h.1 rfl) (by decide)

end StderrTail

/-- The last 8192 bytes of stderr as trimmed text, behind a marker if more was written. -/
def retainedText (content : List UInt8) : Option String :=
  let trimmed := trimChars (fromUtf8Lossy (StderrTail.keepLast maxProviderStderrBytes content))
  if trimmed.isEmpty then none
  else if maxProviderStderrBytes < content.length then some (truncationMarker ++ .ofList trimmed)
  else some (.ofList trimmed)

theorem snapshotLossy_capture (reads : List StderrTail.Read) :
    (StderrTail.capture reads).snapshotLossy = retainedText (StderrTail.written reads) := by
  obtain ⟨-, hbytes, htruncated⟩ := StderrTail.holds_capture reads
  unfold StderrTail.snapshotLossy retainedText
  rw [htruncated, hbytes]
  simp only [decide_eq_true_eq]
  by_cases hempty : StderrTail.keepLast maxProviderStderrBytes (StderrTail.written reads) = []
  · simp [hempty, fromUtf8Lossy, lossyChars, trimChars]
  · rw [if_neg (by simpa using hempty)]

theorem retainedText_replicate {b : UInt8} (hb : b.toNat < 0x80) (hspace : isWhitespace (Char.ofNat b.toNat) = false)
    {n : ℕ} (hn : n ≤ maxProviderStderrBytes) (hpos : 0 < n) :
    retainedText (List.replicate n b) = some (.ofList (List.replicate n (Char.ofNat b.toNat))) := by
  have hkeep : StderrTail.keepLast maxProviderStderrBytes (List.replicate n b) = List.replicate n b := by
    rw [StderrTail.keepLast, List.length_replicate, Nat.sub_eq_zero_of_le hn, List.drop_zero]
  have hne : (List.replicate n (Char.ofNat b.toNat)).isEmpty = false := by
    rw [List.isEmpty_eq_false_iff, Ne, List.replicate_eq_nil_iff]
    omega
  unfold retainedText
  rw [hkeep, fromUtf8Lossy_replicate hb, trimChars_replicate hspace, List.length_replicate]
  simp only [hne, Bool.false_eq_true, if_false, if_neg (Nat.not_lt.2 hn)]

end Wiii.Neko
