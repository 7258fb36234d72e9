import Wiii.Lib.Except
import Mathlib.Data.List.Lex

/-!
# Project paths

The strings of the bridge are those of Python: the name of a file that is not UTF-8 has lone surrogates in it,
and such a string cannot be encoded.  Case folding is a parameter, `casefold`; only the protected names and the
order of a listing depend on it.
-/

namespace Wiii.Neko.Bridge

/-! ## Strings -/

inductive PyChar where
  | scalar (c : Char)
  | surrogate (n : ℕ)
  deriving DecidableEq

abbrev Text := List PyChar

instance : LawfulBEq Text := inferInstance

namespace Text

def ofChars (cs : List Char) : Text := cs.map .scalar

def lit (s : String) : Text := ofChars s.toList

/-- The characters, if no surrogate is among them. -/
def scalars? : Text → Option (List Char)
  | [] => some []
  | .scalar c :: text => (scalars? text).map (c :: ·)
  | .surrogate _ :: _ => none

/-- `encode("utf-8")`. -/
def encode (text : Text) : Except String (List UInt8) :=
  match scalars? text with
  | some cs => .ok (String.ofList cs).toByteArray.data.toList
  | none => .error "work_plane_failed"

/-- `decode("utf-8")`. -/
def decode? (bytes : List UInt8) : Option Text :=
  (String.fromUTF8? ⟨bytes.toArray⟩).map fun s => ofChars s.toList

def codePoint : PyChar → ℕ
  | .scalar c => c.toNat
  | .surrogate n => 0xD800 + n

/-- The order of strings, by code points. -/
def le (a b : Text) : Bool := decide (a.map codePoint ≤ b.map codePoint)

theorem scalars?_ofChars (cs : List Char) : scalars? (ofChars cs) = some cs := by
  induction cs with
  | nil => rfl
  | cons c cs ih =>
    show (scalars? (ofChars cs)).map (c :: ·) = _
    rw [ih]
    rfl

theorem ofChars_of_scalars? {text : Text} {cs : List Char} (h : scalars? text = some cs) :
    ofChars cs = text := by
  induction text generalizing cs with
  | nil =>
    cases h
    rfl
  | cons c text ih =>
    cases c with
    | surrogate n => cases h
    | scalar c =>
      obtain ⟨cs', hcs, rfl⟩ := Option.map_eq_some_iff.1 h
      show PyChar.scalar c :: ofChars cs' = _
      rw [ih hcs]

theorem decode?_encode {text : Text} {bytes : List UInt8} (h : encode text = .ok bytes) :
    decode? bytes = some text := by
  unfold encode at h
  split at h
  · rename_i cs hcs
    cases h
    have hvalid : (String.ofList cs).toByteArray.IsValidUTF8 := (String.ofList cs).isValidUTF8
    have hfrom : String.fromUTF8? (String.ofList cs).toByteArray = some (String.ofList cs) := by
      rw [String.fromUTF8?, dif_pos hvalid]
      rfl
    rw [decode?, hfrom, Option.map_some, String.toList_ofList, ofChars_of_scalars? hcs]
  · cases h

theorem encode_lit (s : String) : encode (lit s) = .ok s.toByteArray.data.toList := by
  rw [encode, lit, scalars?_ofChars]
  show Except.ok (String.ofList s.toList).toByteArray.data.toList = _
  rw [String.ofList_toList]

theorem encode_of_decode? {text : Text} {bytes : List UInt8} (h : decode? bytes = some text) :
    encode text = .ok bytes := by
  obtain ⟨s, hs, rfl⟩ := Option.map_eq_some_iff.1 h
  unfold String.fromUTF8? at hs
  split at hs
  · cases hs
    exact encode_lit _
  · cases hs

end Text

open Text

/-! ## Paths -/

def slash : PyChar := .scalar '/'

def backslash : PyChar := .scalar '\\'

def nul : PyChar := .scalar (Char.ofNat 0)

/-- `as_posix`. -/
def posix (path : List Text) : Text := [slash].intercalate path

/-- The parts of a relative `PurePosixPath`. -/
def purePosixPath (value : Text) : List Text :=
  (value.splitOn slash).filter fun part => decide (part ≠ [] ∧ part ≠ lit ".")

/-- `suffix`. -/
def suffix (name : Text) : Text :=
  let last := name.reverse.takeWhile fun c => decide (c ≠ .scalar '.')
  if last ≠ [] ∧ last.length + 1 < name.length then .scalar '.' :: last.reverse else []

def protectedNames : List String :=
  [".git", ".ssh", ".aws", ".azure", ".gnupg", ".npmrc", ".pypirc", ".wiii-perf-secret"]

section

variable (casefold : Text → Text)

def protectedPath (path : List Text) : Bool :=
  path.any fun part =>
    decide (casefold part ∈ protectedNames.map lit) || (lit ".env").isPrefixOf (casefold part) ||
      decide (casefold (suffix part) ∈ [".pem", ".key", ".p12", ".pfx"].map lit)

/-- `replace("\\", "/")`. -/
def withSlashes (value : Text) : Text := value.map fun c => if c = backslash then slash else c

def logicalPath (value : Text) : Except String (List Text) :=
  let parts := purePosixPath (withSlashes value)
  if value = [] ∨ 240 < value.length ∨ nul ∈ value then .error "invalid_path: logical Project path is invalid"
  else if (withSlashes value).head? = some slash ∨ lit ".." ∈ parts then
    .error "path_escape: path must stay inside the granted Project"
  else if protectedPath casefold parts then
    .error "protected_path: credential and repository metadata are not Work Plane resources"
  else .ok parts

end

/-! ## The files of a project -/

def IsName (name : Text) : Prop :=
  name ≠ [] ∧ slash ∉ name ∧ nul ∉ name ∧ name ≠ lit "." ∧ name ≠ lit ".."

instance (name : Text) : Decidable (IsName name) := inferInstanceAs (Decidable (_ ∧ _))

abbrev Name := { name : Text // IsName name }

/-- The entries of a directory, each followed by the rest. -/
inductive Tree where
  | nil
  | file (name : Name) (rest : Tree)
  | symlink (name : Name) (rest : Tree)
  | directory (name : Name) (entries rest : Tree)

inductive Kind where
  | file
  | symlink
  | directory
  deriving DecidableEq

namespace Tree

def kindAt : Tree → List Text → Option Kind
  | _, [] => some .directory
  | nil, _ :: _ => none
  | file name rest, part :: path =>
    if part = name.val then (if path = [] then some .file else none) else rest.kindAt (part :: path)
  | symlink name rest, part :: path =>
    if part = name.val then (if path = [] then some .symlink else none) else rest.kindAt (part :: path)
  | directory name entries rest, part :: path =>
    if part = name.val then entries.kindAt path else rest.kindAt (part :: path)

variable (casefold : Text → Text)

/-- `os.walk`, without symlinks and protected paths. -/
def walk (current : List Text) : Tree → List (List Text)
  | nil => []
  | file name rest =>
    if protectedPath casefold (current ++ [name.val]) then rest.walk current
    else (current ++ [name.val]) :: rest.walk current
  | symlink _ rest => rest.walk current
  | directory name entries rest =>
    (if protectedPath casefold (current ++ [name.val]) then [] else entries.walk (current ++ [name.val])) ++
      rest.walk current

end Tree

section

variable (casefold : Text → Text)

def maxFiles : ℕ := 10000

def listFiles (root : Tree) : Except String (List (List Text)) :=
  let paths := root.walk casefold []
  if maxFiles < paths.length then .error "project_too_large: Work Plane supports at most 10000 files"
  else .ok (paths.mergeSort fun a b => Text.le (casefold (posix a)) (casefold (posix b)))

/-- No directory on the way is a symlink, and the parent is a place of the project. -/
def resolveRelative (root : Tree) (value : Text) (mustExist : Bool) : Except String (List Text) := do
  let path ← logicalPath casefold value
  if path.inits.any fun path => decide (root.kindAt path = some .symlink) then
    .error "symlink_forbidden: Work Plane does not follow Project symlinks"
  else if mustExist && decide (root.kindAt path ≠ some .file) then
    .error "resource_not_found: Project file does not exist"
  else if path = [] then .error "path_escape: path must stay inside the granted Project"
  else if root.kindAt path.dropLast = none then
    .error "parent_not_found: destination parent must already exist"
  else .ok path

end

/-! ## What a path can be -/

theorem of_mem_splitOnP {p : PyChar → Bool} {text segment : Text} (h : segment ∈ text.splitOnP p) :
    ∀ c ∈ segment, c ∈ text ∧ p c = false := by
  induction text generalizing segment with
  | nil =>
    rw [List.splitOnP_nil, List.mem_singleton] at h
    simp [h]
  | cons c text ih =>
    rw [List.splitOnP_cons_eq_if_modifyHead] at h
    obtain ⟨first, rest, hsplit⟩ := List.exists_cons_of_ne_nil (List.splitOnP_ne_nil p text)
    split at h
    · rcases List.mem_cons.1 h with rfl | h
      · simp
      · exact fun c' hc' => (ih h c' hc').imp (List.mem_cons_of_mem _) id
    · rename_i hc
      rw [hsplit, List.modifyHead_cons, List.mem_cons] at h
      rw [hsplit] at ih
      rcases h with rfl | h
      · intro c' hc'
        rcases List.mem_cons.1 hc' with rfl | hc'
        · exact ⟨List.mem_cons_self, Bool.eq_false_iff.2 hc⟩
        · exact (ih List.mem_cons_self c' hc').imp (List.mem_cons_of_mem _) id
      · exact fun c' hc' => (ih (List.mem_cons_of_mem _ h) c' hc').imp (List.mem_cons_of_mem _) id

theorem backslash_not_mem_withSlashes (value : Text) : backslash ∉ withSlashes value := by
  intro h
  obtain ⟨c, -, hc⟩ := List.mem_map.1 h
  split at hc
  · cases hc
  · rename_i hne
    exact hne hc

theorem withSlashes_of_not_mem {value : Text} (h : backslash ∉ value) : withSlashes value = value := by
  unfold withSlashes
  conv_rhs => rw [← List.map_id value]
  refine List.map_congr_left fun c hc => ?_
  have hne : c ≠ backslash := fun heq => h (heq ▸ hc)
  rw [if_neg hne, id]

theorem of_mem_purePosixPath {value part : Text} (h : part ∈ purePosixPath value) :
    part ≠ [] ∧ part ≠ lit "." ∧ slash ∉ part ∧ ∀ c ∈ part, c ∈ value := by
  obtain ⟨hmem, hkept⟩ := List.mem_filter.1 h
  obtain ⟨hne, hdot⟩ := of_decide_eq_true hkept
  have hsplit := of_mem_splitOnP hmem
  exact ⟨hne, hdot, fun hs => by simpa using (hsplit slash hs).2, fun c hc => (hsplit c hc).1⟩

theorem purePosixPath_posix {path : List Text} (hne : path ≠ [])
    (hparts : ∀ part ∈ path, part ≠ [] ∧ part ≠ lit "." ∧ slash ∉ part) : purePosixPath (posix path) = path := by
  rw [purePosixPath, posix, List.splitOn_intercalate slash (fun part hp => (hparts part hp).2.2) hne,
    List.filter_eq_self]
  exact fun part hp => decide_eq_true ⟨(hparts part hp).1, (hparts part hp).2.1⟩

theorem mem_posix {path : List Text} {c : PyChar} (h : c ∈ posix path) : c = slash ∨ ∃ part ∈ path, c ∈ part := by
  induction path with
  | nil => cases h
  | cons part path ih =>
    cases path with
    | nil => exact .inr ⟨part, List.mem_cons_self, by simpa [posix] using h⟩
    | cons next path =>
      rw [posix, List.intercalate_cons_cons] at h
      rcases List.mem_append.1 h with h | h
      · rcases List.mem_append.1 h with h | h
        · exact .inr ⟨part, List.mem_cons_self, h⟩
        · exact .inl (List.mem_singleton.1 h)
      · exact (ih h).imp id fun ⟨part', hp, hc⟩ => ⟨part', List.mem_cons_of_mem _ hp, hc⟩

theorem head?_posix {path : List Text} (hparts : ∀ part ∈ path, part ≠ [] ∧ slash ∉ part) :
    (posix path).head? ≠ some slash := by
  cases path with
  | nil => exact fun h => nomatch h
  | cons part path =>
    obtain ⟨hne, hs⟩ := hparts part List.mem_cons_self
    obtain ⟨c, part', rfl⟩ := List.exists_cons_of_ne_nil hne
    have hc : c ≠ slash := fun heq => hs (heq ▸ List.mem_cons_self)
    cases path with
    | nil => simpa [posix] using hc
    | cons next path => simpa [posix, List.intercalate_cons_cons] using hc

section

variable {casefold : Text → Text} {value : Text} {path : List Text}

structure IsFilePath (casefold : Text → Text) (path : List Text) : Prop where
  ne_nil : path ≠ []
  names : ∀ part ∈ path, IsName part
  unprotected : protectedPath casefold path = false

theorem IsFilePath.parts (h : IsFilePath casefold path) :
    ∀ part ∈ path, part ≠ [] ∧ part ≠ lit "." ∧ slash ∉ part := by
  intro part hp
  obtain ⟨hne, hs, -, hdot, -⟩ := h.names part hp
  exact ⟨hne, hdot, hs⟩

theorem logicalPath_eq_ok_iff :
    logicalPath casefold value = .ok path ↔ value ≠ [] ∧ value.length ≤ 240 ∧ nul ∉ value ∧
      (withSlashes value).head? ≠ some slash ∧ lit ".." ∉ path ∧ protectedPath casefold path = false ∧
      purePosixPath (withSlashes value) = path := by
  unfold logicalPath
  simp only [ite_error_ok_iff, Except.ok.injEq, not_or, Nat.not_lt, Bool.not_eq_true]
  constructor
  · rintro ⟨⟨hne, hlen, hnul⟩, ⟨hhead, hdots⟩, hprotected, rfl⟩
    exact ⟨hne, hlen, hnul, hhead, hdots, hprotected, rfl⟩
  · rintro ⟨hne, hlen, hnul, hhead, hdots, hprotected, rfl⟩
    exact ⟨⟨hne, hlen, hnul⟩, ⟨hhead, hdots⟩, hprotected, rfl⟩

theorem isFilePath_of_logicalPath (h : logicalPath casefold value = .ok path) (hne : path ≠ []) :
    IsFilePath casefold path ∧ backslash ∉ posix path := by
  obtain ⟨-, -, hnul, -, hdots, hprotected, rfl⟩ := logicalPath_eq_ok_iff.1 h
  have hchar : ∀ part ∈ purePosixPath (withSlashes value), ∀ c ∈ part, c ∈ withSlashes value :=
    fun part hp => (of_mem_purePosixPath hp).2.2.2
  refine ⟨⟨hne, fun part hp => ?_, hprotected⟩, fun hmem => ?_⟩
  · obtain ⟨hpart, hdot, hs, -⟩ := of_mem_purePosixPath hp
    refine ⟨hpart, hs, fun hn => hnul ?_, hdot, fun heq => hdots (heq ▸ hp)⟩
    obtain ⟨c, hc, heq⟩ := List.mem_map.1 (hchar part hp nul hn)
    split at heq
    · cases heq
    · exact heq ▸ hc
  · rcases mem_posix hmem with heq | ⟨part, hp, hc⟩
    · cases heq
    · exact backslash_not_mem_withSlashes value (hchar part hp backslash hc)

theorem logicalPath_posix_iff (h : IsFilePath casefold path) :
    logicalPath casefold (posix path) = .ok path ↔ (posix path).length ≤ 240 ∧ backslash ∉ posix path := by
  constructor
  · intro hok
    exact ⟨(logicalPath_eq_ok_iff.1 hok).2.1, (isFilePath_of_logicalPath hok h.ne_nil).2⟩
  · rintro ⟨hlen, hback⟩
    have hparse : purePosixPath (posix path) = path := purePosixPath_posix h.ne_nil h.parts
    rw [logicalPath_eq_ok_iff, withSlashes_of_not_mem hback]
    refine ⟨fun hnil => h.ne_nil ?_, hlen, fun hnul => ?_, head?_posix fun part hp => ?_, fun hdots => ?_,
      h.unprotected, hparse⟩
    · rw [← hparse, hnil]
      rfl
    · rcases mem_posix hnul with heq | ⟨part, hp, hc⟩
      · cases heq
      · exact (h.names part hp).2.2.1 hc
    · exact ⟨(h.parts part hp).1, (h.parts part hp).2.2⟩
    · exact (h.names _ hdots).2.2.2.2 rfl

theorem isFilePath_of_walk {root : Tree} {current : List Text} (hcurrent : ∀ part ∈ current, IsName part)
    (h : path ∈ root.walk casefold current) : IsFilePath casefold path := by
  have hnext : ∀ name : Name, ∀ part ∈ current ++ [name.val], IsName part := by
    intro name part hp
    rcases List.mem_append.1 hp with hp | hp
    · exact hcurrent part hp
    · exact List.mem_singleton.1 hp ▸ name.property
  induction root generalizing current with
  | nil => cases h
  | file name rest ih =>
    unfold Tree.walk at h
    split at h
    · exact ih hcurrent h hnext
    · rename_i hprotected
      rcases List.mem_cons.1 h with rfl | h
      · exact ⟨by simp, hnext name, by simpa using hprotected⟩
      · exact ih hcurrent h hnext
  | symlink name rest ih => exact ih hcurrent h hnext
  | directory name entries rest ihe ih =>
    unfold Tree.walk at h
    rcases List.mem_append.1 h with h | h
    · split at h
      · cases h
      · refine ihe (hnext name) h fun name' part hp => ?_
        rcases List.mem_append.1 hp with hp | hp
        · exact hnext name part hp
        · exact List.mem_singleton.1 hp ▸ name'.property
    · exact ih hcurrent h hnext

theorem isFilePath_of_listFiles {root : Tree} {paths : List (List Text)} (h : listFiles casefold root = .ok paths)
    (hmem : path ∈ paths) : IsFilePath casefold path := by
  unfold listFiles at h
  dsimp only at h
  split at h
  · cases h
  · cases h
    exact isFilePath_of_walk (by simp) (List.mem_mergeSort.1 hmem)

theorem isFilePath_of_resolveRelative {root : Tree} {mustExist : Bool}
    (h : resolveRelative casefold root value mustExist = .ok path) : IsFilePath casefold path := by
  simp only [resolveRelative, bind_ok_iff, ite_error_ok_iff] at h
  obtain ⟨parts, hlogical, -, -, hne, -, hparts⟩ := h
  cases hparts
  exact (isFilePath_of_logicalPath hlogical hne).1

end

end Wiii.Neko.Bridge
