import Wiii.Lib.Framing

/-!
# The digest of an operation's target

A request identity is bound to the digest of its logical target.  The parts of the target are
framed with their lengths before they are hashed, so two targets share a digest only if the hash
collides on their framings (`digestTarget_ne`).  The hash is a parameter.
-/

namespace Wiii.Neko

def bytes (s : String) : List UInt8 := s.toUTF8.data.toList

theorem bytes_injective {s t : String} (h : bytes s = bytes t) : s = t := by
  rw [← String.toByteArray_inj]
  exact ByteArray.ext (Array.toList_inj.1 h)

theorem length_bytes (s : String) : (bytes s).length = s.utf8ByteSize := rfl

theorem bytes_ofList (cs : List Char) : bytes (.ofList cs) = cs.flatMap String.utf8EncodeChar := by
  rw [bytes, String.toUTF8_eq_toByteArray, String.toByteArray_ofList, List.utf8Encode,
    List.data_toByteArray]

def framedTarget (parts : List String) : List UInt8 := frame (parts.map bytes)

def digestTarget (sha256 : List UInt8 → String) (parts : List String) : String :=
  "sha256:" ++ sha256 (framedTarget parts)

theorem digestTarget_ne {sha256 : List UInt8 → String} {parts parts' : List String}
    (hb : ∀ part ∈ parts, part.utf8ByteSize < 2 ^ 64)
    (hb' : ∀ part ∈ parts', part.utf8ByteSize < 2 ^ 64)
    (free : sha256 (framedTarget parts) = sha256 (framedTarget parts') →
      framedTarget parts = framedTarget parts') (hne : parts ≠ parts') :
    digestTarget sha256 parts ≠ digestTarget sha256 parts' := by
  intro h
  have hs : sha256 (framedTarget parts) = sha256 (framedTarget parts') := by
    simpa [digestTarget] using h
  refine hne (List.map_injective_iff.2 (fun _ _ => bytes_injective) (frame_injective ?_ ?_ (free hs)))
  · simpa [length_bytes] using hb
  · simpa [length_bytes] using hb'

end Wiii.Neko
