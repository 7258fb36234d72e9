import Mathlib.Data.List.Infix
import Wiii.Lib.Rfc3339
import Wiii.Neko.Digest
import Wiii.Neko.Signal.Model

/-!
# What the signal inbox is built on

The libraries the inbox calls, as the fields of a `Platform`, and what is relied on of each: `CollisionFree`,
`Decrypts`, `Fresh`, `Rfc3339`.  The functions of the inbox that use nothing else follow.
-/

namespace Wiii.Neko.Signal

abbrev Nonce := {bytes : List UInt8 // bytes.length = 24}

structure PrivateSignalFields where
  accountGrantRef : String
  resourceRef : String
  sourceCursor : String
  deriving DecidableEq

structure Platform where
  /-- The key of the inbox, as it enters the digests. -/
  digestKey : List UInt8
  sha256 : List UInt8 → List UInt8
  /-- The UUIDs in the order in which they are drawn. -/
  newV4 : ℕ → String
  /-- The nonces in the order in which they are drawn. -/
  randomNonce : ℕ → Nonce
  /-- The cipher under the key of the inbox: nonce, associated data, plaintext. -/
  encrypt : List UInt8 → List UInt8 → List UInt8 → List UInt8
  /-- Its inverse: nonce, associated data, ciphertext. -/
  decrypt : List UInt8 → List UInt8 → List UInt8 → Option (List UInt8)
  toVec : PrivateSignalFields → List UInt8
  fromSlice : List UInt8 → Option PrivateSignalFields
  parseFromRfc3339 : String → Option Instant
  toRfc3339Millis : Instant → String
  plusSeconds : Instant → ℕ → Instant

namespace Platform

variable (P : Platform)

def CollisionFree : Prop := Function.Injective P.sha256

/-- No UUID is drawn twice. -/
def Fresh : Prop := Function.Injective P.newV4

/-- The cipher opens what it sealed under one nonce and data; the codec reads what it wrote. -/
structure Decrypts : Prop where
  cipher : ∀ nonce aad ciphertext plaintext, P.decrypt nonce aad ciphertext = some plaintext ↔
    ciphertext = P.encrypt nonce aad plaintext
  codec : ∀ fields, P.fromSlice (P.toVec fields) = some fields

/-- `YYYY-MM-DDTHH:MM:SS.mmmZ`, with a signed year where four digits do not hold it. -/
structure Rfc3339 : Prop where
  write : ∀ t : Instant, t.FourDigit → P.toRfc3339Millis t = t.text
  writeFar : ∀ t : Instant, ¬ t.FourDigit → ∃ sign ∈ ['+', '-'], ∃ rest,
    P.toRfc3339Millis t = .ofList (sign :: rest)
  read : ∀ t : Instant, t.FourDigit → P.parseFromRfc3339 t.text = some t.floorMillis

/-! ## Time -/

def timestamp (value : Instant) : String := P.toRfc3339Millis value

def parseTimestamp (value field : String) : Except String Instant :=
  match P.parseFromRfc3339 value with
  | some parsed => .ok parsed
  | none => .error s!"Signal Inbox {field} must be an RFC3339 timestamp"

theorem parseTimestamp_ok_iff {P : Platform} {value field : String} {t : Instant} :
    P.parseTimestamp value field = .ok t ↔ P.parseFromRfc3339 value = some t := by
  unfold Platform.parseTimestamp
  cases P.parseFromRfc3339 value <;> simp

/-! ## Digests and associated data -/

def digest (parts : List String) : List UInt8 :=
  P.sha256 (P.digestKey ++ frameBe (parts.map bytes))

theorem digest_injective {P : Platform} (hP : P.CollisionFree) {parts parts' : List String}
    (hb : ∀ part ∈ parts, part.utf8ByteSize < 2 ^ 64)
    (hb' : ∀ part ∈ parts', part.utf8ByteSize < 2 ^ 64) (h : P.digest parts = P.digest parts') :
    parts = parts' := by
  have hframe := List.append_cancel_left (hP h)
  refine List.map_injective_iff.2 (fun _ _ => bytes_injective) (frameBe_injective ?_ ?_ hframe)
  · simpa [length_bytes] using hb
  · simpa [length_bytes] using hb'

/-- The hexadecimal digits of the first twelve bytes. -/
def shortDigest (value : List UInt8) : String :=
  .ofList <| (value.take 12).flatMap fun byte =>
    [Nat.digitChar (byte.toNat / 16), Nat.digitChar (byte.toNat % 16)]

def aad (signalId : String) (seq : ℕ) (updatedAt : String) : List UInt8 :=
  bytes s!"wiii-signal-inbox-v1\x00{signalId}\x00{seq}\x00{updatedAt}"

def decryptPrivate (recordId : String) (seq : ℕ) (cipherAt : String)
    (nonce ciphertext : List UInt8) : Except String PrivateSignalFields :=
  if nonce.length ≠ 24 then .error "Signal Inbox nonce is invalid"
  else
    match P.decrypt nonce (aad recordId seq cipherAt) ciphertext with
    | none => .error "decrypt Signal Inbox private fields failed"
    | some plaintext =>
      match P.fromSlice plaintext with
      | none => .error "decode Signal Inbox private fields failed"
      | some fields => .ok fields

/-- What is sealed for a record opens under the data of that record. -/
theorem decryptPrivate_encrypt {P : Platform} (hP : P.Decrypts) (recordId : String) (seq : ℕ)
    (cipherAt : String) (nonce : Nonce) (fields : PrivateSignalFields) :
    P.decryptPrivate recordId seq cipherAt nonce
      (P.encrypt nonce (aad recordId seq cipherAt) (P.toVec fields)) = .ok fields := by
  unfold decryptPrivate
  rw [if_neg (not_not.2 nonce.2), (hP.cipher _ _ _ _).2 rfl]
  simp only [hP.codec]

end Platform

/-! ## Validation -/

/-- `char::is_control`. -/
def isControl (c : Char) : Bool := c.val < 0x20 || (0x7f ≤ c.val && c.val < 0xa0)

/-- `str::contains`. -/
def containsText (value part : String) : Bool := decide (part.toList <:+: value.toList)

def boundedOpaque (value field : String) (max : ℕ) : Except String Unit :=
  if value.isEmpty || decide (max < value.utf8ByteSize) || value.toList.any isControl ||
      containsText value "://" || containsText value "\n" || containsText value "\r" then
    .error s!"Signal Inbox {field} is invalid"
  else .ok ()

/-- `is_ascii_alphanumeric`, or one of `.`, `_`, `:`, `-`. -/
def isIdentifierByte (byte : UInt8) : Bool :=
  (0x30 ≤ byte && byte ≤ 0x39) || (0x41 ≤ byte && byte ≤ 0x5a) || (0x61 ≤ byte && byte ≤ 0x7a) ||
    byte = 0x2e || byte = 0x5f || byte = 0x3a || byte = 0x2d

def boundedIdentifier (value field : String) (max : ℕ) : Except String Unit := do
  boundedOpaque value field max
  if (bytes value).all isIdentifierByte then .ok ()
  else .error s!"Signal Inbox {field} is invalid"

theorem size_of_boundedOpaque {value field : String} {max : ℕ}
    (h : boundedOpaque value field max = .ok ()) : value.utf8ByteSize ≤ max := by
  unfold boundedOpaque at h
  split at h
  · cases h
  · rename_i hc
    simp only [Bool.or_eq_true, decide_eq_true_eq, not_or] at hc
    omega

theorem size_of_boundedIdentifier {value field : String} {max : ℕ}
    (h : boundedIdentifier value field max = .ok ()) : value.utf8ByteSize ≤ max := by
  unfold boundedIdentifier at h
  cases ho : boundedOpaque value field max with
  | error e => rw [ho] at h; cases h
  | ok _ => exact size_of_boundedOpaque ho

namespace Platform

variable (P : Platform)

/-- Ninety days. -/
def maxTtlSeconds : ℕ := 90 * 24 * 60 * 60

def validateIngress (input : SignalIngress) : Except String Unit := do
  boundedIdentifier input.sourceId "sourceId" 96
  boundedIdentifier input.accountGrantRef "accountGrantRef" 256
  boundedIdentifier input.appId "appId" 64
  boundedIdentifier input.resourceRef "resourceRef" 256
  boundedOpaque input.sourceCursor "sourceCursor" 1024
  boundedOpaque input.dedupeKey "dedupeKey" 512
  let observed ← P.parseTimestamp input.observedAt "observedAt"
  let available ← P.parseTimestamp input.availability "availableAt"
  let expires ← P.parseTimestamp input.expiresAt "expiresAt"
  if expires ≤ observed ∨ expires ≤ available then
    .error "Signal Inbox expiresAt must follow observedAt and availableAt"
  else if P.plusSeconds observed maxTtlSeconds < expires then
    .error "Signal Inbox TTL cannot exceed 90 days"
  else .ok ()

end Platform

end Wiii.Neko.Signal

/-!
## A platform that can be computed

`reference` has every property that is relied on of a platform, and its functions can be evaluated:
the hash is the identity, the cipher writes the nonce and the associated data before the plaintext,
the codec writes the fields one after the other, and date-times are RFC 3339.
-/

namespace Wiii.Neko.Signal

/-- The code points of a text, three bytes each after a 1, and a 0 at its end. -/
def encodeText : List Char → List UInt8
  | [] => [0]
  | c :: cs => 1 :: UInt8.ofNat (c.toNat / 65536) :: UInt8.ofNat (c.toNat / 256) ::
      UInt8.ofNat c.toNat :: encodeText cs

/-- The first text of the bytes, and the bytes after it. -/
def decodeText : List UInt8 → Option (List Char × List UInt8)
  | 0 :: rest => some ([], rest)
  | 1 :: a :: b :: c :: rest =>
    (decodeText rest).map fun x =>
      (Char.ofNat ((a.toNat * 256 + b.toNat) * 256 + c.toNat) :: x.1, x.2)
  | _ => none

theorem decodeText_encodeText (cs : List Char) (rest : List UInt8) :
    decodeText (encodeText cs ++ rest) = some (cs, rest) := by
  induction cs with
  | nil => rfl
  | cons c cs ih =>
    have hc : c.toNat < 0x110000 := by
      rcases c.valid with h | h
      · exact h.trans (by decide)
      · exact h.2
    have hn : ((c.toNat / 65536 % 256) * 256 + c.toNat / 256 % 256) * 256 + c.toNat % 256 =
        c.toNat := by
      omega
    simp only [encodeText, List.cons_append, decodeText, ih, Option.map_some, UInt8.toNat_ofNat',
      Nat.reducePow, hn, Char.ofNat_toNat]

def encodeFields (fields : PrivateSignalFields) : List UInt8 :=
  encodeText fields.accountGrantRef.toList ++ (encodeText fields.resourceRef.toList ++
    encodeText fields.sourceCursor.toList)

def decodeFields (plaintext : List UInt8) : Option PrivateSignalFields := do
  let (account, rest) ← decodeText plaintext
  let (resource, rest) ← decodeText rest
  let (cursor, _) ← decodeText rest
  some ⟨.ofList account, .ofList resource, .ofList cursor⟩

theorem decodeFields_encodeFields (fields : PrivateSignalFields) :
    decodeFields (encodeFields fields) = some fields := by
  have hlast := decodeText_encodeText fields.sourceCursor.toList []
  rw [List.append_nil] at hlast
  simp [decodeFields, encodeFields, decodeText_encodeText, hlast]

/-- The text of any instant, with a signed year where four digits do not hold it. -/
def writeInstant (t : Instant) : String :=
  if t.FourDigit then t.text
  else .ofList ((if 0 ≤ t.date.year then '+' else '-') ::
    (toString t.date.year.natAbs).toList)

def reference : Platform where
  digestKey := []
  sha256 := id
  newV4 n := .ofList (List.replicate n '0')
  randomNonce n := ⟨List.replicate 24 (UInt8.ofNat n), List.length_replicate⟩
  encrypt nonce aad plaintext := (nonce ++ aad) ++ plaintext
  decrypt nonce aad ciphertext :=
    if (nonce ++ aad) <+: ciphertext then some (ciphertext.drop (nonce ++ aad).length) else none
  toVec := encodeFields
  fromSlice := decodeFields
  parseFromRfc3339 := Rfc3339.parse
  toRfc3339Millis := writeInstant
  plusSeconds := Instant.plusSeconds

namespace reference

theorem collisionFree : reference.CollisionFree := fun _ _ h => h

theorem fresh : reference.Fresh := by
  intro n m h
  have hlen := congrArg (fun s : String => s.toList.length) h
  simpa [reference] using hlen

theorem decrypts : reference.Decrypts where
  cipher := by
    intro nonce aad ciphertext plaintext
    simp only [reference]
    split_ifs with h
    · obtain ⟨rest, rfl⟩ := h
      simp
    · simp only [false_iff]
      rintro rfl
      exact h (List.prefix_append _ _)
  codec := decodeFields_encodeFields

theorem rfc3339 : reference.Rfc3339 where
  write := fun t ht => if_pos ht
  writeFar := by
    intro t ht
    refine ⟨_, ?_, _, if_neg ht⟩
    split_ifs <;> simp
  read := fun _ ht => Rfc3339.parse_text ht

/-- A time of one day. -/
def clock (hour : Fin 24) (minute : Fin 60) (second : Fin 61) : Instant :=
  ⟨⟨2026, 8, 31, by decide, by decide, daysIn_pos 2026 8, by decide⟩, hour, minute, second, 0⟩

/-- A change of a message in a mailbox, to be handled within a day. -/
def mail (accountGrantRef resourceRef sourceCursor dedupeKey : String) : SignalIngress where
  sourceId := "gmail.history.v1"
  accountGrantRef := accountGrantRef
  appId := "gmail"
  resourceRef := resourceRef
  kind := .contentChanged
  sourceCursor := sourceCursor
  dedupeKey := dedupeKey
  observedAt := "2026-08-31T08:00:00.000Z"
  availableAt := none
  expiresAt := "2026-09-01T08:00:00.000Z"
  priorityClass := .normal
  contentAvailable := true
  gapDetected := false

end reference

end Wiii.Neko.Signal
