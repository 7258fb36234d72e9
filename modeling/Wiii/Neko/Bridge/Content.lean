import Mathlib
import Wiii.Lib.Streams
import Wiii.Neko.Bridge.References

/-!
# Paging the content of a file

A page of a file starts at most at byte 10000000, but it may say that the next one starts behind that; so a file can be
read to its end, whatever limits its reader asks for, if and only if it is no longer than 10000001 bytes
(`content_paging_iff`).  The hash of the revisions and the case maps are parameters.
-/

namespace Wiii.Neko.Bridge

open Text

/-! ## Files -/

/-- A project, with the bytes of its files. -/
structure Project where
  tree : Tree
  contents : List Text → List UInt8

section

variable (sha256 : List UInt8 → String)

def fileRevision (project : Project) (path : List Text) : String := "sha256:" ++ sha256 (project.contents path)

end

/-- A string of a request, `none` where it is absent or no string. -/
def requiredString (key : String) (maximum : ℕ) (candidate : Option Text) : Except String Text :=
  match candidate with
  | none => .error s!"invalid_{key}: expected non-empty bounded string"
  | some text =>
    if text = [] ∨ maximum < text.length then .error s!"invalid_{key}: expected non-empty bounded string"
    else .ok text

def boundedInteger (value minimum maximum : ℤ) (label : String) : Except String ℕ :=
  if value < minimum ∨ maximum < value then
    .error s!"invalid_{label}: expected integer between {minimum} and {maximum}"
  else .ok value.toNat

/-- A reference with a surrogate has the scheme at most. -/
def decodeResourceRef (resourceRef : Text) : Except String Text :=
  match scalars? resourceRef with
  | some cs => decodeRef (String.ofList cs)
  | none =>
    if (lit "work:file:").isPrefixOf resourceRef then .error "invalid_resource_ref: malformed file identity"
    else .error "invalid_resource_ref: expected a Project file resource"

inductive ResourceType where
  | workbook
  | file
  deriving DecidableEq

section

variable (casefold lower : Text → Text)

def pathFromRef (root : Tree) (resourceRef : Text) : Except String (List Text) := do
  let relative ← decodeResourceRef resourceRef
  resolveRelative casefold root relative true

def resourceType (path : List Text) : ResourceType :=
  if lower (suffix (path.getLast?.getD [])) ∈ [".ods", ".xlsx", ".xls"].map lit then .workbook else .file

end

/-! ## The query -/

structure ContentQuery where
  resourceRef : Option Text
  offset : Option ℤ := none
  maxBytes : Option ℤ := none

def maxQueryBytes : ℕ := 64 * 1024

/-- The largest offset a query takes. -/
def maxOffset : ℕ := 10000000

structure FileResource where
  ref : String
  resourceType : ResourceType
  name : Text
  revision : String
  path : Text
  sizeBytes : ℕ

structure ContentPage where
  resource : FileResource
  offset : ℕ
  content : Option Text
  contentBase64 : Option (List Char)
  truncated : Bool
  nextOffset : Option ℕ

section

variable (casefold lower : Text → Text) (sha256 : List UInt8 → String)

def fileResource (project : Project) (path : List Text) : Except String FileResource := do
  let ref ← encodeRef (posix path)
  return {
    ref
    resourceType := resourceType lower path
    name := path.getLast?.getD []
    revision := fileRevision sha256 project path
    path := posix path
    sizeBytes := (project.contents path).length }

def contentFile (root : Tree) (resourceRef : Option Text) : Except String (List Text) := do
  let resourceRef ← requiredString "resourceRef" 512 resourceRef
  let path ← pathFromRef casefold root resourceRef
  if resourceType lower path = .workbook then
    .error "unsupported_view: use spreadsheet view for workbook resources"
  else .ok path

/-- `seek`, and `read` of one byte more than the page has. -/
def contentPage (resource : FileResource) (contents : List UInt8) (offset limit : ℕ) : ContentPage :=
  let payload := (contents.drop offset).take (limit + 1)
  let truncated := decide (limit < payload.length)
  let page := payload.take limit
  { resource
    offset
    content := decode? page
    contentBase64 := if decode? page = none then some (Base64.encodePadded page) else none
    truncated
    nextOffset := if truncated then some (offset + page.length) else none }

def queryContent (project : Project) (request : ContentQuery) : Except String ContentPage := do
  let path ← contentFile casefold lower project.tree request.resourceRef
  let offset ← boundedInteger (request.offset.getD 0) 0 maxOffset "offset"
  let limit ← boundedInteger (request.maxBytes.getD maxQueryBytes) 1 maxQueryBytes "maxBytes"
  let resource ← fileResource lower sha256 project path
  if fileRevision sha256 project path ≠ resource.revision then
    .error "source_changed: file changed during read; query again"
  else .ok (contentPage resource (project.contents path) offset limit)

end

def ContentPage.bytes? (page : ContentPage) : Option (List UInt8) :=
  match page.content, page.contentBase64 with
  | some text, _ => text.encode.toOption
  | none, some digits => Base64.decodePadded digits
  | none, none => none

/-! ## One page -/

section

variable {casefold lower : Text → Text} {sha256 : List UInt8 → String} {project : Project} {resourceRef : Option Text}
  {path : List Text} {resource : FileResource} {contents : List UInt8} {offset limit : ℕ}

/-- A page carries the bytes of its range, whether they are text or not. -/
theorem bytes?_contentPage :
    (contentPage resource contents offset limit).bytes? = some ((contents.drop offset).take limit) := by
  have hpage : ((contents.drop offset).take (limit + 1)).take limit = (contents.drop offset).take limit := by
    rw [List.take_take, Nat.min_eq_left (Nat.le_succ limit)]
  unfold contentPage ContentPage.bytes?
  dsimp only
  rw [hpage]
  cases hdecode : decode? ((contents.drop offset).take limit) with
  | none =>
    rw [if_pos rfl]
    exact Base64.decodePadded_encodePadded _
  | some text =>
    dsimp only
    rw [encode_of_decode? hdecode]
    rfl

theorem nextOffset_contentPage : (contentPage resource contents offset limit).nextOffset =
    if offset + limit < contents.length then some (offset + limit) else none := by
  unfold contentPage
  simp only [List.length_take, List.length_drop, decide_eq_true_eq]
  by_cases hmore : offset + limit < contents.length
  · rw [if_pos (by omega), if_pos hmore]
    congr 2
    omega
  · rw [if_neg (by omega), if_neg hmore]

theorem boundedInteger_eq_ok {value minimum maximum : ℤ} {label : String} {n : ℕ} :
    boundedInteger value minimum maximum label = .ok n ↔ (minimum ≤ value ∧ value ≤ maximum) ∧ value.toNat = n := by
  rw [boundedInteger, ite_error_ok_iff, not_or, not_lt, not_lt, Except.ok.injEq]

theorem fileResource_revision (h : fileResource lower sha256 project path = .ok resource) :
    resource.revision = fileRevision sha256 project path := by
  obtain ⟨ref, -, hresource⟩ := bind_ok_iff.1 h
  cases hresource
  rfl

theorem scalar_of_decodeResourceRef {reference text : Text} (h : decodeResourceRef reference = .ok text) :
    ∀ c ∈ text, ∃ d, c = .scalar d := by
  unfold decodeResourceRef at h
  split at h
  · obtain ⟨-, -, -, -, bytes, -, hdecode⟩ := decodeRef_eq_ok_iff.1 h
    obtain ⟨s, -, rfl⟩ := Option.map_eq_some_iff.1 hdecode
    intro c hc
    obtain ⟨d, -, rfl⟩ := List.mem_map.1 hc
    exact ⟨d, rfl⟩
  · split at h
    all_goals cases h

theorem exists_encode {text : Text} (h : ∀ c ∈ text, ∃ d, c = .scalar d) : ∃ bytes, text.encode = .ok bytes := by
  have hscalars : ∃ cs, scalars? text = some cs := by
    induction text with
    | nil => exact ⟨[], rfl⟩
    | cons c text ih =>
      obtain ⟨d, rfl⟩ := h c List.mem_cons_self
      obtain ⟨cs, hcs⟩ := ih fun c hc => h c (List.mem_cons_of_mem _ hc)
      exact ⟨d :: cs, by rw [scalars?, hcs, Option.map_some]⟩
  obtain ⟨cs, hcs⟩ := hscalars
  exact ⟨_, by rw [encode, hcs]⟩

theorem exists_encode_posix {root : Tree} {reference : Text} (h : pathFromRef casefold root reference = .ok path) :
    ∃ bytes, (posix path).encode = .ok bytes := by
  obtain ⟨relative, hdecode, hresolve⟩ := bind_ok_iff.1 h
  simp only [resolveRelative, bind_ok_iff, ite_error_ok_iff] at hresolve
  obtain ⟨parts, hlogical, -, -, -, -, hparts⟩ := hresolve
  cases hparts
  obtain ⟨-, -, -, -, -, -, rfl⟩ := logicalPath_eq_ok_iff.1 hlogical
  refine exists_encode fun c hc => ?_
  rcases mem_posix hc with rfl | ⟨part, hpart, hmem⟩
  · exact ⟨'/', rfl⟩
  · obtain ⟨d, hd, rfl⟩ := List.mem_map.1 ((of_mem_purePosixPath hpart).2.2.2 c hmem)
    split
    · exact ⟨'/', rfl⟩
    · exact scalar_of_decodeResourceRef hdecode d hd

theorem exists_fileResource (h : contentFile casefold lower project.tree resourceRef = .ok path) :
    ∃ resource, fileResource lower sha256 project path = .ok resource := by
  obtain ⟨reference, -, h⟩ := bind_ok_iff.1 h
  obtain ⟨named, hpath, h⟩ := bind_ok_iff.1 h
  obtain ⟨-, hnamed⟩ := ite_error_ok_iff.1 h
  cases hnamed
  obtain ⟨bytes, hbytes⟩ := exists_encode_posix hpath
  exact ⟨_, bind_ok_iff.2 ⟨_, encodeRef_eq_ok_iff.2 ⟨bytes, hbytes, rfl⟩, rfl⟩⟩

theorem queryContent_eq_ok_iff {request : ContentQuery} {page : ContentPage}
    (h : contentFile casefold lower project.tree request.resourceRef = .ok path) :
    queryContent casefold lower sha256 project request = .ok page ↔
      ∃ offset limit resource, boundedInteger (request.offset.getD 0) 0 maxOffset "offset" = .ok offset ∧
        boundedInteger (request.maxBytes.getD maxQueryBytes) 1 maxQueryBytes "maxBytes" = .ok limit ∧
          fileResource lower sha256 project path = .ok resource ∧
            contentPage resource (project.contents path) offset limit = page := by
  unfold queryContent
  rw [h]
  constructor
  · intro hok
    obtain ⟨_, hpath, hok⟩ := bind_ok_iff.1 hok
    cases hpath
    obtain ⟨offset, hoffset, hok⟩ := bind_ok_iff.1 hok
    obtain ⟨limit, hlimit, hok⟩ := bind_ok_iff.1 hok
    obtain ⟨resource, hresource, hok⟩ := bind_ok_iff.1 hok
    obtain ⟨-, hpage⟩ := ite_error_ok_iff.1 hok
    exact ⟨offset, limit, resource, hoffset, hlimit, hresource, Except.ok.inj hpage⟩
  · rintro ⟨offset, limit, resource, hoffset, hlimit, hresource, rfl⟩
    refine bind_ok_iff.2 ⟨path, rfl, bind_ok_iff.2 ⟨offset, hoffset, bind_ok_iff.2 ⟨limit, hlimit,
      bind_ok_iff.2 ⟨resource, hresource, ite_error_ok_iff.2 ⟨?_, rfl⟩⟩⟩⟩⟩
    rw [fileResource_revision hresource]
    exact fun hne => hne rfl

/-! ## Following the pages -/

abbrev PageLimit := { limit : ℕ // 1 ≤ limit ∧ limit ≤ maxQueryBytes }

theorem boundedInteger_limit (limit : PageLimit) :
    boundedInteger limit.1 1 maxQueryBytes "maxBytes" = .ok limit.1 :=
  boundedInteger_eq_ok.2 ⟨⟨Int.ofNat_le.2 limit.2.1, Int.ofNat_le.2 limit.2.2⟩, Int.toNat_natCast _⟩

theorem boundedInteger_offset : boundedInteger offset 0 maxOffset "offset" =
    if maxOffset < offset then .error "invalid_offset: expected integer between 0 and 10000000" else .ok offset := by
  unfold boundedInteger
  by_cases hlt : maxOffset < offset
  · rw [if_pos (.inr (Int.ofNat_lt.2 hlt)), if_pos hlt]
    rfl
  · rw [if_neg, if_neg hlt, Int.toNat_natCast]
    omega

variable (casefold lower sha256 project resourceRef)

/-- The page at the offset the reader stands at, with the limit it asks for this time. -/
def nextPage (limits : ℕ → PageLimit) :
    Option ℕ × ℕ → Except String (Option ContentPage) × (Option ℕ × ℕ)
  | (none, n) => (.ok none, (none, n))
  | (some offset, n) =>
    match queryContent casefold lower sha256 project
        { resourceRef, offset := some offset, maxBytes := some (limits n).1 } with
    | .ok page => (.ok (some page), (page.nextOffset, n + 1))
    | .error error => (.error error, (some offset, n))

variable {casefold lower sha256 project resourceRef} {limits : ℕ → PageLimit} {n : ℕ} {page : ContentPage}

theorem queryContent_at (h : contentFile casefold lower project.tree resourceRef = .ok path) :
    queryContent casefold lower sha256 project
        { resourceRef, offset := some (offset : ℤ), maxBytes := some ((limits n).1 : ℤ) } = .ok page ↔
      offset ≤ maxOffset ∧ ∃ resource, fileResource lower sha256 project path = .ok resource ∧
        contentPage resource (project.contents path) offset (limits n).1 = page := by
  rw [queryContent_eq_ok_iff h]
  dsimp only [Option.getD_some]
  rw [boundedInteger_offset, boundedInteger_limit]
  constructor
  · rintro ⟨offset', limit, resource, hoffset, hlimit, hresource, rfl⟩
    obtain ⟨hle, hsame⟩ := ite_error_ok_iff.1 hoffset
    cases hsame
    cases hlimit
    exact ⟨not_lt.1 hle, resource, hresource, rfl⟩
  · rintro ⟨hle, resource, hresource, rfl⟩
    exact ⟨offset, _, resource, if_neg (not_lt.2 hle), rfl, hresource, rfl⟩

theorem nextPage_some (h : contentFile casefold lower project.tree resourceRef = .ok path)
    (hpage : (nextPage casefold lower sha256 project resourceRef limits (some offset, n)).1 = .ok (some page)) :
    page.bytes? = some (((project.contents path).drop offset).take (limits n).1) ∧
      (nextPage casefold lower sha256 project resourceRef limits (some offset, n)).2 =
        (if offset + (limits n).1 < (project.contents path).length then some (offset + (limits n).1) else none, n + 1) := by
  rw [nextPage] at hpage ⊢
  cases hquery : queryContent casefold lower sha256 project
      { resourceRef, offset := some (offset : ℤ), maxBytes := some ((limits n).1 : ℤ) } with
  | error error =>
    rw [hquery] at hpage
    cases hpage
  | ok answered =>
    rw [hquery] at hpage
    cases hpage
    obtain ⟨-, resource, -, rfl⟩ := (queryContent_at h).1 hquery
    exact ⟨bytes?_contentPage, by dsimp only; rw [nextOffset_contentPage]⟩

/-- A reader that follows the pages of a file, with a limit for each. -/
def pageReader (h : contentFile casefold lower project.tree resourceRef = .ok path) (sha256 : List UInt8 → String)
    (limits : ℕ → PageLimit) : Reader (Option ℕ × ℕ) ContentPage String where
  next := nextPage casefold lower sha256 project resourceRef limits
  size place := place.1.elim 0 fun offset => (project.contents path).length - offset + 1
  shrinks := by
    rintro ⟨_ | offset, n⟩ page hpage
    · cases hpage
    · rw [(nextPage_some h hpage).2]
      have hlimit := (limits n).2.1
      split_ifs with hmore
      · simp only [Option.elim_some]
        omega
      · exact Nat.succ_pos _

def Carry (pages : List ContentPage) (contents : List UInt8) : Prop :=
  ∃ parts : List (List UInt8), pages.map ContentPage.bytes? = parts.map some ∧ parts.flatten = contents

/-- The pages from the start of a file to the one that names no next one are its bytes. -/
def ReadsWhole (h : contentFile casefold lower project.tree resourceRef = .ok path) (sha256 : List UInt8 → String)
    (limits : ℕ → PageLimit) : Prop :=
  ((pageReader h sha256 limits).drain (some 0, 0)).2 = none ∧
    Carry ((pageReader h sha256 limits).drain (some 0, 0)).1 (project.contents path)

def left (contents : List UInt8) (place : Option ℕ × ℕ) : List UInt8 := place.1.elim [] contents.drop

variable {h : contentFile casefold lower project.tree resourceRef = .ok path} {place : Option ℕ × ℕ}

theorem left_nextPage (hpage : ((pageReader h sha256 limits).next place).1 = .ok (some page)) :
    ∃ part, page.bytes? = some part ∧
      left (project.contents path) place = part ++ left (project.contents path) ((pageReader h sha256 limits).next place).2 := by
  obtain ⟨_ | offset, n⟩ := place
  · cases hpage
  · obtain ⟨hbytes, hrest⟩ := nextPage_some h hpage
    refine ⟨_, hbytes, ?_⟩
    show _ = _ ++ left _ (nextPage casefold lower sha256 project resourceRef limits (some offset, n)).2
    rw [hrest]
    show (project.contents path).drop offset = _
    split_ifs with hmore
    · show _ = _ ++ (project.contents path).drop _
      rw [← List.drop_drop, List.take_append_drop]
    · show _ = _ ++ []
      rw [List.append_nil, List.take_of_length_le]
      rw [List.length_drop]
      omega

/-- What was read is a beginning of what there was, and all of it when nothing was refused. -/
theorem drain_pageReader (h : contentFile casefold lower project.tree resourceRef = .ok path)
    (sha256 : List UInt8 → String) (limits : ℕ → PageLimit) (place : Option ℕ × ℕ) :
    ∃ contents, Carry ((pageReader h sha256 limits).drain place).1 contents ∧
      contents <+: left (project.contents path) place ∧
        (((pageReader h sha256 limits).drain place).2 = none → contents = left (project.contents path) place) := by
  induction place using (pageReader h sha256 limits).induction with
  | item place page hpage ih =>
    obtain ⟨part, hpart, hleft⟩ := left_nextPage hpage
    obtain ⟨_, ⟨parts, hparts, rfl⟩, hprefix, hall⟩ := ih
    rw [Reader.drain_some hpage, hleft]
    refine ⟨part ++ parts.flatten, ⟨part :: parts, ?_, rfl⟩, ?_, fun hnone => by rw [hall hnone]⟩
    · rw [List.map_cons, hpart, hparts, List.map_cons]
    · exact (List.prefix_append_right_inj part).2 hprefix
  | none place hnone =>
    rw [Reader.drain_none hnone]
    refine ⟨[], ⟨[], rfl, rfl⟩, List.nil_prefix, fun _ => ?_⟩
    obtain ⟨_ | offset, n⟩ := place
    · rfl
    · have hread : (nextPage casefold lower sha256 project resourceRef limits (some offset, n)).1 = .ok none := hnone
      rw [nextPage] at hread
      split at hread
      all_goals cases hread
  | error place error herror =>
    rw [Reader.drain_error herror]
    exact ⟨[], ⟨[], rfl, rfl⟩, List.nil_prefix, fun hnone => by cases hnone⟩

theorem next_pageReader (h : contentFile casefold lower project.tree resourceRef = .ok path)
    (sha256 : List UInt8 → String) (limits : ℕ → PageLimit) (n : ℕ) (hle : offset ≤ maxOffset) :
    ∃ page, ((pageReader h sha256 limits).next (some offset, n)).1 = .ok (some page) := by
  obtain ⟨resource, hresource⟩ : ∃ resource, fileResource lower sha256 project path = .ok resource :=
    exists_fileResource h
  refine ⟨contentPage resource (project.contents path) offset (limits n).1, ?_⟩
  show (nextPage casefold lower sha256 project resourceRef limits (some offset, n)).1 = _
  rw [nextPage, (queryContent_at h).2 ⟨hle, resource, hresource, rfl⟩]

theorem next_pageReader_refused (h : contentFile casefold lower project.tree resourceRef = .ok path)
    (sha256 : List UInt8 → String) (limits : ℕ → PageLimit) (n : ℕ) (hlt : maxOffset < offset) :
    ∃ error, ((pageReader h sha256 limits).next (some offset, n)).1 = .error error := by
  show ∃ error, (nextPage casefold lower sha256 project resourceRef limits (some offset, n)).1 = .error error
  rw [nextPage]
  cases hquery : queryContent casefold lower sha256 project
      { resourceRef, offset := some (offset : ℤ), maxBytes := some ((limits n).1 : ℤ) } with
  | error error => exact ⟨error, rfl⟩
  | ok page => exact absurd ((queryContent_at h).1 hquery).1 (not_le.2 hlt)

theorem drain_pageReader_short (h : contentFile casefold lower project.tree resourceRef = .ok path)
    (sha256 : List UInt8 → String) (limits : ℕ → PageLimit) (hshort : (project.contents path).length ≤ maxOffset + 1) (place : Option ℕ × ℕ)
    (hplace : ∀ offset ∈ place.1, offset ≤ maxOffset) : ((pageReader h sha256 limits).drain place).2 = none := by
  induction place using (pageReader h sha256 limits).induction with
  | item place page hpage ih =>
    rw [Reader.drain_some hpage]
    refine ih fun next hnext => ?_
    obtain ⟨_ | offset, n⟩ := place
    · cases hpage
    · have hrest : ((pageReader h sha256 limits).next (some offset, n)).2 = _ := (nextPage_some h hpage).2
      rw [hrest] at hnext
      dsimp only at hnext
      split_ifs at hnext with hmore
      · cases hnext
        omega
      · cases hnext
  | none place hnone => rw [Reader.drain_none hnone]
  | error place error herror =>
    obtain ⟨_ | offset, n⟩ := place
    · cases herror
    · obtain ⟨page, hpage⟩ := next_pageReader h sha256 limits n (hplace offset rfl)
      rw [hpage] at herror
      cases herror

def oneByte : PageLimit := ⟨1, by decide⟩

theorem drain_pageReader_long (h : contentFile casefold lower project.tree resourceRef = .ok path)
    (sha256 : List UInt8 → String) (hlong : maxOffset + 1 < (project.contents path).length) (n : ℕ)
    (hle : offset ≤ maxOffset + 1) : ((pageReader h sha256 fun _ => oneByte).drain (some offset, n)).2 ≠ none := by
  induction hleft : maxOffset + 1 - offset generalizing offset n with
  | zero =>
    obtain ⟨error, herror⟩ := next_pageReader_refused h sha256 (fun _ => oneByte) n (show maxOffset < offset by omega)
    rw [Reader.drain_error herror]
    exact fun hnone => by cases hnone
  | succ k ih =>
    obtain ⟨page, hpage⟩ := next_pageReader h sha256 (fun _ => oneByte) n (show offset ≤ maxOffset by omega)
    have hrest : ((pageReader h sha256 fun _ => oneByte).next (some offset, n)).2 =
        (some (offset + 1), n + 1) := by
      refine (nextPage_some h hpage).2.trans ?_
      rw [if_pos (show offset + oneByte.1 < (project.contents path).length by change offset + 1 < _; omega)]
      rfl
    rw [Reader.drain_some hpage, hrest]
    exact ih (n + 1) (by omega) (by omega)

/-- Read whole, whatever limits are asked for, if and only if it has at most 10000001 bytes. -/
theorem content_paging_iff (h : contentFile casefold lower project.tree resourceRef = .ok path)
    (sha256 : List UInt8 → String) :
    (∀ limits, ReadsWhole h sha256 limits) ↔ (project.contents path).length ≤ 10000001 := by
  constructor
  · intro hwhole
    by_contra hlong
    exact drain_pageReader_long h sha256 (not_le.1 hlong) 0 (Nat.zero_le _) (hwhole fun _ => oneByte).1
  · intro hshort limits
    have hnone := drain_pageReader_short h sha256 limits hshort (some 0, 0)
      fun offset hoffset => by cases hoffset; exact Nat.zero_le _
    obtain ⟨contents, hcarry, -, hall⟩ := drain_pageReader h sha256 limits (some 0, 0)
    refine ⟨hnone, ?_⟩
    rw [hall hnone] at hcarry
    exact hcarry

def oneFile (contents : List UInt8) : Project where
  tree := .file ⟨lit "a", by decide +kernel⟩ .nil
  contents _ := contents

theorem contentFile_oneFile :
    contentFile id id (oneFile []).tree (some (lit "work:file:YQ")) = .ok [lit "a"] := by decide +kernel

/-- A file of two bytes is read whole, byte by byte. -/
theorem content_paging_two :
    @ReadsWhole id id (oneFile [104, 105]) _ _ contentFile_oneFile (fun _ => "") fun _ => oneByte :=
  (@content_paging_iff id id (oneFile [104, 105]) _ _ contentFile_oneFile fun _ => "").2 (by decide) _

/-- A page of a file of 10000002 bytes names a next page that is refused. -/
theorem content_paging_refused : ¬ ∀ limits,
    @ReadsWhole id id (oneFile (List.replicate 10000002 0)) _ _ contentFile_oneFile (fun _ => "") limits := by
  intro hwhole
  have hlong : maxOffset + 1 < (List.replicate 10000002 (0 : UInt8)).length := by
    rw [List.length_replicate, maxOffset]
    omega
  exact @drain_pageReader_long id id (oneFile (List.replicate 10000002 0)) _ _ 0 contentFile_oneFile (fun _ => "") hlong 0
    (Nat.zero_le _) (hwhole fun _ => oneByte).1

end

end Wiii.Neko.Bridge
