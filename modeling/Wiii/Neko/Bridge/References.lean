import Wiii.Lib.Base64
import Wiii.Neko.Bridge.Paths
import Wiii.Neko.Computer.WorkPlane

/-!
# References to Project files

A reference is the base64 text of a path.  The bridge reads at most 500 characters of base64 and at most 240 characters
of path, but it writes references of any length.  `roundTrips_iff_fits` says which paths come back.  A reference that
is read need not be the one that would be written (`encodeRef_eq_iff`).
-/

namespace Wiii.Neko.Bridge

open Computer (startsWith)
open Text

/-! ## Writing and reading -/

def refOf (token : List Char) : String := "work:file:" ++ String.ofList token

def encodeRef (relative : Text) : Except String String :=
  relative.encode.map fun bytes => refOf (Base64.encode bytes)

def tokenOf (resourceRef : String) : List Char := resourceRef.toList.drop 10

def decodeRef (resourceRef : String) : Except String Text :=
  let token := tokenOf resourceRef
  if !startsWith "work:file:" resourceRef then .error "invalid_resource_ref: expected a Project file resource"
  else if token = [] ∨ 500 < token.length ∨ ¬ token.all (fun c => (Base64.digit? c).isSome) then
    .error "invalid_resource_ref: malformed file identity"
  else match (Base64.decode token).bind decode? with
    | some text => .ok text
    | none => .error "invalid_resource_ref: malformed file identity"

variable {casefold : Text → Text} {path : List Text} {reference : String} {text : Text}

theorem toList_refOf (token : List Char) : (refOf token).toList = "work:file:".toList ++ token := by
  rw [refOf, String.toList_append, @String.toList_ofList token]

@[simp] theorem tokenOf_refOf (token : List Char) : tokenOf (refOf token) = token := by
  rw [tokenOf, toList_refOf]
  rfl

theorem startsWith_refOf (token : List Char) : startsWith "work:file:" (refOf token) = true := by
  rw [startsWith, toList_refOf, List.isPrefixOf_iff_prefix]
  exact List.prefix_append _ _

theorem refOf_tokenOf (h : startsWith "work:file:" reference = true) : refOf (tokenOf reference) = reference := by
  rw [startsWith, List.isPrefixOf_iff_prefix] at h
  obtain ⟨token, htoken⟩ := h
  apply String.toList_inj.1
  rw [toList_refOf, tokenOf, ← htoken]
  rfl

theorem encodeRef_eq_ok_iff :
    encodeRef text = .ok reference ↔ ∃ bytes, text.encode = .ok bytes ∧ refOf (Base64.encode bytes) = reference :=
  map_ok_iff

theorem decodeRef_eq_ok_iff :
    decodeRef reference = .ok text ↔ startsWith "work:file:" reference = true ∧ tokenOf reference ≠ [] ∧
      (tokenOf reference).length ≤ 500 ∧ (∀ c ∈ tokenOf reference, (Base64.digit? c).isSome = true) ∧
      ∃ bytes, Base64.decode (tokenOf reference) = some bytes ∧ decode? bytes = some text := by
  unfold decodeRef
  simp only [ite_error_ok_iff, not_or, Nat.not_lt, not_not, Bool.not_eq_true', Bool.not_eq_false]
  constructor
  · rintro ⟨hstart, ⟨hne, hlen, hdigits⟩, h⟩
    split at h
    · rename_i t ht
      cases h
      exact ⟨hstart, hne, hlen, List.all_eq_true.1 hdigits, Option.bind_eq_some_iff.1 ht⟩
    · cases h
  · rintro ⟨hstart, hne, hlen, hdigits, bytes, hbytes, htext⟩
    refine ⟨hstart, ⟨hne, hlen, List.all_eq_true.2 hdigits⟩, ?_⟩
    rw [hbytes, Option.bind_some, htext]

/-! ## Which paths come back -/

/-- The reference of the path is accepted, and names the path. -/
def RoundTrips (casefold : Text → Text) (path : List Text) : Prop :=
  ∃ reference, encodeRef (posix path) = .ok reference ∧ Computer.WorkPlane.validateResourceRef reference = .ok () ∧
    (decodeRef reference >>= logicalPath casefold) = .ok path

/-- UTF-8 of at most 375 bytes, at most 240 characters and no backslash. -/
def fits (path : List Text) : Bool :=
  match (posix path).encode with
  | .ok bytes => decide (bytes.length ≤ 375 ∧ (posix path).length ≤ 240 ∧ backslash ∉ posix path)
  | .error _ => false

theorem ofDigit_ascii (d : Fin 64) : (Base64.ofDigit d).utf8Size = 1 ∧
    ((Base64.ofDigit d).isAlphanum || Base64.ofDigit d = '-' || Base64.ofDigit d = '_') = true := by
  have hall : Base64.alphabet.all (fun c => c.utf8Size == 1 && (c.isAlphanum || c = '-' || c = '_')) = true := by
    rw [Base64.alphabet_eq]
    rfl
  have hd := List.all_eq_true.1 hall (Base64.ofDigit d) (List.get_mem _ _)
  rw [Bool.and_eq_true, beq_iff_eq] at hd
  exact hd

theorem utf8ByteSize_ofList (cs : List Char) : (String.ofList cs).utf8ByteSize = (cs.map Char.utf8Size).sum := by
  induction cs with
  | nil => rfl
  | cons c cs ih =>
    have hcons : String.ofList (c :: cs) = String.singleton c ++ String.ofList cs := by
      apply String.toList_inj.1
      simp
    rw [hcons, String.utf8ByteSize_append, String.utf8ByteSize_singleton, ih, List.map_cons, List.sum_cons]

theorem utf8ByteSize_ascii {cs : List Char} (h : ∀ c ∈ cs, c.utf8Size = 1) :
    (String.ofList cs).utf8ByteSize = cs.length := by
  rw [utf8ByteSize_ofList, List.map_congr_left h]
  clear h
  induction cs with
  | nil => rfl
  | cons c cs ih => rw [List.map_cons, List.sum_cons, ih, List.length_cons, Nat.add_comm]

theorem length_encode {text : Text} {cs : List Char} {bytes : List UInt8} (hcs : scalars? text = some cs)
    (h : text.encode = .ok bytes) : bytes.length = (cs.map Char.utf8Size).sum := by
  rw [encode, hcs] at h
  cases h
  rw [Array.length_toList, ← utf8ByteSize_ofList]
  exact String.size_toByteArray

theorem utf8ByteSize_refOf_encode (bytes : List UInt8) :
    (refOf (Base64.encode bytes)).utf8ByteSize = 10 + (4 * bytes.length + 2) / 3 := by
  have hsize : (String.ofList (Base64.encode bytes)).utf8ByteSize = (Base64.encode bytes).length := by
    refine utf8ByteSize_ascii fun c hc => ?_
    obtain ⟨d, -, rfl⟩ := List.mem_map.1 hc
    exact (ofDigit_ascii d).1
  rw [refOf, String.utf8ByteSize_append, hsize, Base64.length_encode]
  rfl

theorem validateResourceRef_encode {bytes : List UInt8} :
    Computer.WorkPlane.validateResourceRef (refOf (Base64.encode bytes)) = .ok () ↔ bytes.length ≤ 376 := by
  have hne : refOf (Base64.encode bytes) ≠ "work:project" := by
    intro heq
    have hstart := startsWith_refOf (Base64.encode bytes)
    rw [heq] at hstart
    revert hstart
    decide
  have hall : ((refOf (Base64.encode bytes)).toList.drop 10).all
      (fun c => c.isAlphanum || c = '-' || c = '_') = true := by
    rw [← tokenOf, tokenOf_refOf]
    refine List.all_eq_true.2 fun c hc => ?_
    obtain ⟨d, -, rfl⟩ := List.mem_map.1 hc
    exact (ofDigit_ascii d).2
  unfold Computer.WorkPlane.validateResourceRef
  rw [hall, startsWith_refOf, utf8ByteSize_refOf_encode]
  constructor
  · intro h
    split at h
    · rename_i hc
      have hsize := hc.resolve_left hne
      simp only [Bool.true_and, Bool.and_true, decide_eq_true_eq] at hsize
      omega
    · cases h
  · intro hlen
    have hsize : 10 + (4 * bytes.length + 2) / 3 ≤ 512 := by omega
    rw [if_pos (.inr (by simp only [Bool.and_true, decide_eq_true hsize]))]

/-- A path comes back if and only if it fits. -/
theorem roundTrips_iff_fits (h : IsFilePath casefold path) : RoundTrips casefold path ↔ fits path = true := by
  unfold fits
  constructor
  · rintro ⟨reference, hencode, -, hnames⟩
    obtain ⟨bytes, hbytes, rfl⟩ := encodeRef_eq_ok_iff.1 hencode
    obtain ⟨text, hdecode, hlogical⟩ := bind_ok_iff.1 hnames
    obtain ⟨-, -, hlen, -, bytes', hbytes', htext⟩ := decodeRef_eq_ok_iff.1 hdecode
    rw [tokenOf_refOf, Base64.decode_encode] at hbytes'
    cases hbytes'
    rw [decode?_encode hbytes] at htext
    cases htext
    rw [tokenOf_refOf, Base64.length_encode] at hlen
    rw [hbytes]
    exact decide_eq_true ⟨by omega, (logicalPath_posix_iff h).1 hlogical⟩
  · intro hfits
    split at hfits
    · rename_i bytes hbytes
      obtain ⟨hlen, hlogical⟩ := of_decide_eq_true hfits
      have hlogical := (logicalPath_posix_iff h).2 hlogical
      have hne : bytes ≠ [] := by
        rintro rfl
        have hnil : decode? [] = some (posix path) := decode?_encode hbytes
        exact (logicalPath_eq_ok_iff.1 hlogical).1 (Option.some.inj hnil).symm
      refine ⟨_, encodeRef_eq_ok_iff.2 ⟨bytes, hbytes, rfl⟩, validateResourceRef_encode.2 (by omega),
        bind_ok_iff.2 ⟨posix path, decodeRef_eq_ok_iff.2 ?_, hlogical⟩⟩
      rw [tokenOf_refOf]
      refine ⟨startsWith_refOf _, fun hnil => ?_, ?_, fun c => Base64.digit?_of_mem_encode, bytes,
        Base64.decode_encode bytes, decode?_encode hbytes⟩
      · have hlength := Base64.length_encode bytes
        rw [hnil] at hlength
        have hpos := List.length_pos_iff.2 hne
        simp only [List.length_nil] at hlength
        omega
      · rw [Base64.length_encode]
        omega
    · cases hfits

/-! ## Which references are the ones that would be written -/

def isPlain (text : Text) : Bool :=
  decide (backslash ∉ text) && (text.splitOn slash).all fun segment => decide (segment ≠ [] ∧ segment ≠ lit ".")

def isCanonicalRef (reference : String) : Bool :=
  Base64.isCanonical (tokenOf reference) && match decodeRef reference with
    | .ok text => isPlain text
    | .error _ => false

theorem posix_purePosixPath (h : isPlain text = true) : posix (purePosixPath (withSlashes text)) = text := by
  obtain ⟨hback, hsegments⟩ := Bool.and_eq_true_iff.1 h
  rw [withSlashes_of_not_mem (of_decide_eq_true hback), purePosixPath,
    List.filter_eq_self.2 (List.all_eq_true.1 hsegments)]
  exact List.intercalate_splitOn slash

theorem isPlain_posix (h : IsFilePath casefold path) (hback : backslash ∉ posix path) :
    isPlain (posix path) = true := by
  refine Bool.and_eq_true_iff.2 ⟨decide_eq_true hback, List.all_eq_true.2 fun segment hmem => ?_⟩
  rw [posix, List.splitOn_intercalate slash (fun part hp => (h.parts part hp).2.2) h.ne_nil] at hmem
  exact decide_eq_true ⟨(h.parts segment hmem).1, (h.parts segment hmem).2.1⟩

theorem encodeRef_eq_iff (h : (decodeRef reference >>= logicalPath casefold) = .ok path) :
    encodeRef (posix path) = .ok reference ↔ isCanonicalRef reference = true := by
  obtain ⟨text, hdecode, hlogical⟩ := bind_ok_iff.1 h
  obtain ⟨hstart, hne, -, -, bytes, hbytes, htext⟩ := decodeRef_eq_ok_iff.1 hdecode
  obtain ⟨hvalue, -, -, -, -, -, hpath⟩ := logicalPath_eq_ok_iff.1 hlogical
  rw [encodeRef_eq_ok_iff, isCanonicalRef, hdecode, Bool.and_eq_true, ← Base64.encode_eq_iff hbytes]
  constructor
  · rintro ⟨bytes', hbytes', rfl⟩
    rw [tokenOf_refOf, Base64.decode_encode] at hbytes
    cases hbytes
    rw [decode?_encode hbytes'] at htext
    cases htext
    have hpathne : path ≠ [] := by
      rintro rfl
      exact hvalue rfl
    obtain ⟨hfile, hback⟩ := isFilePath_of_logicalPath hlogical hpathne
    exact ⟨(tokenOf_refOf _).symm, isPlain_posix hfile hback⟩
  · rintro ⟨htoken, hplain⟩
    rw [← hpath, posix_purePosixPath hplain]
    exact ⟨bytes, encode_of_decode? htext, by rw [htoken, refOf_tokenOf hstart]⟩

/-! ## The references of a project -/

/-- The paths of files that the bridge lists or writes to. -/
inductive Reported (casefold : Text → Text) : List Text → Prop
  | listed {root : Tree} {paths : List (List Text)} {path : List Text} (h : listFiles casefold root = .ok paths)
      (hmem : path ∈ paths) : Reported casefold path
  | effect {root : Tree} {value : Text} {path : List Text}
      (h : resolveRelative casefold root value false = .ok path) : Reported casefold path

/-- Both sides accept the reference, and it names the path. -/
def Names (casefold : Text → Text) (reference : String) (path : List Text) : Prop :=
  Computer.WorkPlane.validateResourceRef reference = .ok () ∧
    (decodeRef reference >>= logicalPath casefold) = .ok path

theorem Reported.isFilePath (h : Reported casefold path) : IsFilePath casefold path := by
  cases h with
  | listed h hmem => exact isFilePath_of_listFiles h hmem
  | effect h => exact isFilePath_of_resolveRelative h

/-- A reported path comes back iff it fits, and a reference is accepted iff it is the one written for its file. -/
theorem references_iff (casefold : Text → Text) :
    (∀ path, Reported casefold path → (RoundTrips casefold path ↔ fits path = true)) ∧
      (∀ reference path, Names casefold reference path →
        (encodeRef (posix path) = .ok reference ↔ isCanonicalRef reference = true)) ∧
      ∀ reference reference' path, Names casefold reference path → Names casefold reference' path →
        isCanonicalRef reference = true → isCanonicalRef reference' = true → reference = reference' := by
  refine ⟨fun path h => roundTrips_iff_fits h.isFilePath, fun reference path h => encodeRef_eq_iff h.2, ?_⟩
  intro reference reference' path h h' hc hc'
  have hencode := (encodeRef_eq_iff h.2).2 hc
  rw [(encodeRef_eq_iff h'.2).2 hc'] at hencode
  exact (Except.ok.inj hencode).symm

/-- A name of 80 letters, 240 bytes long. -/
def longName : Name := ⟨List.replicate 80 (.scalar 'ế'), by decide +kernel⟩

/-- A path of 161 characters has a reference that is not accepted, and two references name one file. -/
theorem references_mismatch :
    (∃ (root : Tree) (value : Text) (path : List Text), value.length = 161 ∧
      resolveRelative id root value false = .ok path ∧ ¬ RoundTrips id path) ∧
      ∃ path, Names id "work:file:YQ" path ∧ Names id "work:file:YR" path := by
  constructor
  · have hpath : resolveRelative id (.directory longName .nil .nil) (posix [longName.val, longName.val]) false =
        .ok [longName.val, longName.val] := by decide +kernel
    refine ⟨_, _, _, by decide +kernel, hpath, fun hback => ?_⟩
    have hfits := (roundTrips_iff_fits (isFilePath_of_resolveRelative hpath)).1 hback
    have hcs : scalars? (posix [longName.val, longName.val]) =
        some (List.replicate 80 'ế' ++ '/' :: List.replicate 80 'ế') := by decide +kernel
    unfold fits at hfits
    split at hfits
    · rename_i bytes hbytes
      have hsum : ((List.replicate 80 'ế' ++ '/' :: List.replicate 80 'ế').map Char.utf8Size).sum = 481 := by
        decide +kernel
      rw [length_encode hcs hbytes, hsum] at hfits
      exact absurd (of_decide_eq_true hfits).1 (by decide)
    · cases hfits
  · exact ⟨[lit "a"], ⟨by decide +kernel, by decide +kernel⟩, by decide +kernel, by decide +kernel⟩

end Wiii.Neko.Bridge
