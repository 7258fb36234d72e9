import Wiii.Lib.Occurrences
import Wiii.Neko.Bridge.Content

/-!
# Patching a file

A patch replaces a text that is to stand once in the file.  The bridge counts occurrences without overlaps, so a text
that overlaps itself can be counted once and stand at several positions; then a patch replaces the first
(`execute_patch_exact_iff`).

No other program writes to the project while a patch runs.
-/

namespace Wiii.Neko.Bridge

open Text Occurrences

structure PatchRequest where
  targetRef : Option Text
  ifRevision : Option Text
  expectedText : Option Text
  replacement : Option Text

structure Rejection where
  code : String
  detail : String
  revision : String
  evidence : List String
  recovery : String

inductive PatchResponse where
  | rejected (rejection : Rejection)
  | completed (beforeRevision afterRevision : String)

inductive PatchPlan where
  | reject (rejection : Rejection)
  | write (path : List Text) (before : String) (updated : List UInt8)

def maxFileBytes : ℕ := 128 * 1024

def staleRevision (current : String) : Rejection where
  code := "stale_revision"
  detail := "The source changed; query the resource before retrying."
  revision := current
  evidence := ["revision_mismatch"]
  recovery := "query_resource"

/-- `ensure_revision`. -/
def ensureRevision (ifRevision : Option Text) (current : String) : Except String (Option Rejection) := do
  let expected ← requiredString "ifRevision" 96 ifRevision
  return if lit current = expected then none else some (staleRevision current)

def boundedReplacement (replacement : Option Text) : Except String Text :=
  match replacement with
  | none => .error "invalid_replacement: replacement must be bounded UTF-8 text"
  | some text => do
    let bytes ← text.encode
    if maxFileBytes < bytes.length then .error "invalid_replacement: replacement must be bounded UTF-8 text"
    else .ok text

namespace Project

/-- `atomic_write`: the file is replaced as a whole. -/
def atomicWrite (project : Project) (path : List Text) (payload : List UInt8) : Project :=
  { project with contents := fun other => if other = path then payload else project.contents other }

end Project

section

variable (casefold lower : Text → Text) (sha256 : List UInt8 → String)

def patchTarget (root : Tree) (targetRef : Option Text) : Except String (List Text) := do
  let targetRef ← requiredString "targetRef" 512 targetRef
  let path ← pathFromRef casefold root targetRef
  if resourceType lower path = .file then .ok path
  else .error "unsupported_resource: text patch requires a normal Project file"

def patchText (payload : List UInt8) : Except String Text :=
  if maxFileBytes < payload.length then .error "resource_too_large: text patch supports files up to 131072 bytes"
  else match decode? payload with
    | some text => .ok text
    | none => .error "unsupported_encoding: text patch requires UTF-8"

def planPatch (project : Project) (request : PatchRequest) : Except String PatchPlan := do
  let path ← patchTarget casefold lower project.tree request.targetRef
  let before := fileRevision sha256 project path
  match ← ensureRevision request.ifRevision before with
  | some stale => .ok (.reject stale)
  | none =>
    let text ← patchText (project.contents path)
    let expected ← requiredString "expectedText" maxQueryBytes request.expectedText
    let replacement ← boundedReplacement request.replacement
    if count expected text ≠ 1 then
      .ok (.reject ⟨"patch_ambiguous", "Expected text must occur exactly once.", before,
        [s!"match_count:{count expected text}"], "query_resource"⟩)
    else
      let updated ← Text.encode (replaceFirst expected replacement text)
      if maxFileBytes < updated.length then .error "result_too_large: patched file exceeds 131072 bytes"
      else if fileRevision sha256 project path ≠ before then
        let changed := ⟨"stale_revision", "File changed.", before, [], "query_resource"⟩
        let stale ← ensureRevision request.ifRevision (fileRevision sha256 project path)
        .ok (.reject (stale.getD changed))
      else .ok (.write path before updated)

def executePatch (project : Project) (request : PatchRequest) : Except String PatchResponse × Project :=
  match planPatch casefold lower sha256 project request with
  | .error error => (.error error, project)
  | .ok (.reject rejection) => (.ok (.rejected rejection), project)
  | .ok (.write path before updated) =>
    let project := project.atomicWrite path updated
    (.ok (.completed before (fileRevision sha256 project path)), project)

end

/-! ## Bytes of a text -/

namespace Text

variable {a b text : Text} {encoded : List UInt8}

theorem scalars?_append : scalars? (a ++ b) = (scalars? a).bind fun cs => (scalars? b).map (cs ++ ·) := by
  induction a with
  | nil =>
    show scalars? b = ((scalars? b).map fun ds => [] ++ ds)
    simp
  | cons c a ih =>
    cases c with
    | surrogate n => rfl
    | scalar c =>
      show (scalars? (a ++ b)).map (c :: ·) = ((scalars? a).map (c :: ·)).bind _
      rw [ih]
      cases scalars? a with
      | none => rfl
      | some cs =>
        cases scalars? b with
        | none => rfl
        | some ds => rfl

theorem encode_eq_ok_iff : text.encode = .ok encoded ↔
    ∃ cs, scalars? text = some cs ∧ cs.flatMap String.utf8EncodeChar = encoded := by
  unfold encode
  cases scalars? text with
  | none => simp
  | some cs =>
    have hbytes : (String.ofList cs).toByteArray.data.toList = cs.flatMap String.utf8EncodeChar := bytes_ofList cs
    dsimp only
    rw [hbytes]
    simp

theorem encode_append_iff : (a ++ b).encode = .ok encoded ↔
    ∃ front back, a.encode = .ok front ∧ b.encode = .ok back ∧ front ++ back = encoded := by
  simp only [encode_eq_ok_iff, scalars?_append]
  constructor
  · rintro ⟨es, hes, rfl⟩
    obtain ⟨cs, hcs, hds⟩ := Option.bind_eq_some_iff.1 hes
    obtain ⟨ds, hb, rfl⟩ := Option.map_eq_some_iff.1 hds
    exact ⟨_, _, ⟨cs, hcs, rfl⟩, ⟨ds, hb, rfl⟩, List.flatMap_append.symm⟩
  · rintro ⟨_, _, ⟨cs, hcs, rfl⟩, ⟨ds, hds, rfl⟩, rfl⟩
    exact ⟨cs ++ ds, by rw [hcs, hds]; rfl, List.flatMap_append⟩

end Text

/-! ## What a patch does -/

section

variable {casefold lower : Text → Text} {sha256 : List UInt8 → String} {project : Project} {request : PatchRequest}
  {path path' : List Text} {text text' expected expected' replacement replacement' : Text} {updated : List UInt8}

/-- The request names a text file at its revision, and its texts are within their bounds. -/
structure Admits (casefold lower : Text → Text) (sha256 : List UInt8 → String) (project : Project)
    (request : PatchRequest) (path : List Text) (text expected replacement : Text) : Prop where
  target : patchTarget casefold lower project.tree request.targetRef = .ok path
  revision : requiredString "ifRevision" 96 request.ifRevision = .ok (lit (fileRevision sha256 project path))
  text : patchText (project.contents path) = .ok text
  expected : requiredString "expectedText" maxQueryBytes request.expectedText = .ok expected
  replacement : boundedReplacement request.replacement = .ok replacement

theorem Admits.unique (h : Admits casefold lower sha256 project request path text expected replacement)
    (h' : Admits casefold lower sha256 project request path' text' expected' replacement') :
    path' = path ∧ text' = text ∧ expected' = expected ∧ replacement' = replacement := by
  have hpath : path' = path := Except.ok.inj (h'.target.symm.trans h.target)
  subst hpath
  exact ⟨rfl, Except.ok.inj (h'.text.symm.trans h.text), Except.ok.inj (h'.expected.symm.trans h.expected),
    Except.ok.inj (h'.replacement.symm.trans h.replacement)⟩

theorem requiredString_ne_nil {key : String} {maximum : ℕ} {candidate : Option Text}
    (h : requiredString key maximum candidate = .ok text) : text ≠ [] := by
  unfold requiredString at h
  split at h
  · cases h
  · split_ifs at h with hbad
    cases h
    exact fun hnil => hbad (.inl hnil)

theorem Admits.expected_ne_nil (h : Admits casefold lower sha256 project request path text expected replacement) :
    expected ≠ [] :=
  requiredString_ne_nil h.expected

theorem ensureRevision_eq_none {ifRevision : Option Text} {current : String} :
    ensureRevision ifRevision current = .ok none ↔ requiredString "ifRevision" 96 ifRevision = .ok (lit current) := by
  unfold ensureRevision
  rw [bind_ok_iff]
  constructor
  · rintro ⟨revision, hrevision, hnone⟩
    split_ifs at hnone with heq
    · rwa [heq]
    · cases hnone
  · exact fun h => ⟨_, h, by rw [if_pos rfl]; rfl⟩

theorem planPatch_eq_write_iff {before : String} :
    planPatch casefold lower sha256 project request = .ok (.write path before updated) ↔
      fileRevision sha256 project path = before ∧
        ∃ text expected replacement, Admits casefold lower sha256 project request path text expected replacement ∧
          count expected text = 1 ∧ Text.encode (replaceFirst expected replacement text) = .ok updated ∧
            updated.length ≤ maxFileBytes := by
  unfold planPatch
  constructor
  · intro h
    obtain ⟨target, htarget, h⟩ := bind_ok_iff.1 h
    obtain ⟨stale, hstale, h⟩ := bind_ok_iff.1 h
    cases stale with
    | some stale => cases h
    | none =>
      obtain ⟨text, htext, h⟩ := bind_ok_iff.1 h
      obtain ⟨expected, hexpected, h⟩ := bind_ok_iff.1 h
      obtain ⟨replacement, hreplacement, h⟩ := bind_ok_iff.1 h
      by_cases hcount : count expected text = 1
      · rw [if_neg (not_not.2 hcount)] at h
        obtain ⟨bytes, hbytes, h⟩ := bind_ok_iff.1 h
        obtain ⟨hsize, h⟩ := ite_error_ok_iff.1 h
        rw [if_neg (not_not.2 rfl)] at h
        cases h
        exact ⟨rfl, text, expected, replacement, ⟨htarget, ensureRevision_eq_none.1 hstale, htext, hexpected,
          hreplacement⟩, hcount, hbytes, not_lt.1 hsize⟩
      · rw [if_pos hcount] at h
        cases h
  · rintro ⟨rfl, text, expected, replacement, hadmits, hcount, hbytes, hsize⟩
    refine bind_ok_iff.2 ⟨path, hadmits.target, bind_ok_iff.2 ⟨none, ensureRevision_eq_none.2 hadmits.revision,
      bind_ok_iff.2 ⟨text, hadmits.text, bind_ok_iff.2 ⟨expected, hadmits.expected,
      bind_ok_iff.2 ⟨replacement, hadmits.replacement, ?_⟩⟩⟩⟩⟩
    rw [if_neg (not_not.2 hcount)]
    refine bind_ok_iff.2 ⟨updated, hbytes, ite_error_ok_iff.2 ⟨not_lt.2 hsize, ?_⟩⟩
    rw [if_neg (not_not.2 rfl)]

/-- The expected text stands at one position, and the bytes have the replacement there. -/
def Patches (casefold lower : Text → Text) (sha256 : List UInt8 → String) (project : Project)
    (request : PatchRequest) (path : List Text) (updated : List UInt8) : Prop :=
  ∃ text expected replacement position front old new back,
    Admits casefold lower sha256 project request path text expected replacement ∧
      OccursAt expected text position ∧ (∀ other, OccursAt expected text other → other = position) ∧
        Text.encode (text.take position) = .ok front ∧ expected.encode = .ok old ∧ replacement.encode = .ok new ∧
          Text.encode (text.drop (position + expected.length)) = .ok back ∧
            project.contents path = front ++ old ++ back ∧ updated = front ++ new ++ back ∧
              updated.length ≤ maxFileBytes

def wasCompleted : Except String PatchResponse → Bool
  | .ok (.completed _ _) => true
  | _ => false

/-- The file is patched at the one position, or nothing is written. -/
def IsExact (casefold lower : Text → Text) (sha256 : List UInt8 → String) (project : Project)
    (request : PatchRequest) (result : Except String PatchResponse × Project) : Prop :=
  (∃ path updated, Patches casefold lower sha256 project request path updated ∧ wasCompleted result.1 = true ∧
      result.2 = project.atomicWrite path updated) ∨
    ((∀ path updated, ¬ Patches casefold lower sha256 project request path updated) ∧
      wasCompleted result.1 = false ∧ result.2 = project)

/-- The request is in order, and several positions of the text all overlap the first. -/
def Clashes (casefold lower : Text → Text) (sha256 : List UInt8 → String) (project : Project)
    (request : PatchRequest) : Prop :=
  ∃ path text expected replacement updated,
    Admits casefold lower sha256 project request path text expected replacement ∧ Crowded expected text ∧
      Text.encode (replaceFirst expected replacement text) = .ok updated ∧ updated.length ≤ maxFileBytes

theorem patchText_eq_ok {payload : List UInt8} (h : patchText payload = .ok text) : text.encode = .ok payload := by
  obtain ⟨-, h⟩ := ite_error_ok_iff.1 h
  split at h
  · rename_i decoded hdecoded
    cases h
    exact encode_of_decode? hdecoded
  · cases h

theorem eq_of_occursAt {position : ℕ} (h : OccursAt expected text position) :
    text = text.take position ++ expected ++ text.drop (position + expected.length) := by
  obtain ⟨after, hafter⟩ := h
  rw [← List.drop_drop, ← hafter, List.drop_left, List.append_assoc, hafter, List.take_append_drop]

theorem patches_iff : Patches casefold lower sha256 project request path updated ↔
    ∃ text expected replacement, Admits casefold lower sha256 project request path text expected replacement ∧
      (∃! position, OccursAt expected text position) ∧
        Text.encode (replaceFirst expected replacement text) = .ok updated ∧ updated.length ≤ maxFileBytes := by
  constructor
  · rintro ⟨text, expected, replacement, position, front, old, new, back, hadmits, hoccurs, hunique, hfront, -, hnew,
      hback, -, rfl, hsize⟩
    refine ⟨text, expected, replacement, hadmits, ⟨position, hoccurs, hunique⟩, ?_, hsize⟩
    rw [replaceFirst_eq replacement hoccurs fun other hother => (hunique other hother).ge]
    exact encode_append_iff.2 ⟨_, _, encode_append_iff.2 ⟨front, new, hfront, hnew, rfl⟩, hback, rfl⟩
  · rintro ⟨text, expected, replacement, hadmits, ⟨position, hoccurs, hunique⟩, hupdated, hsize⟩
    rw [replaceFirst_eq replacement hoccurs fun other hother => (hunique other hother).ge] at hupdated
    obtain ⟨start, back, hstart, hback, rfl⟩ := encode_append_iff.1 hupdated
    obtain ⟨front, new, hfront, hnew, rfl⟩ := encode_append_iff.1 hstart
    have htext := patchText_eq_ok hadmits.text
    rw [eq_of_occursAt hoccurs] at htext
    obtain ⟨start', back', hstart', hback', hcontents⟩ := encode_append_iff.1 htext
    obtain ⟨front', old, hfront', hold, rfl⟩ := encode_append_iff.1 hstart'
    cases hfront.symm.trans hfront'
    cases hback.symm.trans hback'
    exact ⟨text, expected, replacement, position, front, old, new, back, hadmits, hoccurs, hunique, hfront, hold, hnew,
      hback, hcontents.symm, rfl, hsize⟩

theorem executePatch_of_forall_ne
    (h : ∀ path before updated, planPatch casefold lower sha256 project request ≠ .ok (.write path before updated)) :
    wasCompleted (executePatch casefold lower sha256 project request).1 = false ∧
      (executePatch casefold lower sha256 project request).2 = project := by
  unfold executePatch
  split
  · exact ⟨rfl, rfl⟩
  · exact ⟨rfl, rfl⟩
  · rename_i path before updated hplan
    exact absurd hplan (h path before updated)

theorem executePatch_of_plan {before : String}
    (h : planPatch casefold lower sha256 project request = .ok (.write path before updated)) :
    wasCompleted (executePatch casefold lower sha256 project request).1 = true ∧
      (executePatch casefold lower sha256 project request).2 = project.atomicWrite path updated := by
  rw [executePatch, h]
  exact ⟨rfl, rfl⟩

theorem isExact_of_patches (h : Patches casefold lower sha256 project request path updated) :
    IsExact casefold lower sha256 project request (executePatch casefold lower sha256 project request) := by
  obtain ⟨text, expected, replacement, hadmits, hunique, hupdated, hsize⟩ := patches_iff.1 h
  have hcount := count_eq_one_of_unique hadmits.expected_ne_nil hunique
  have hplan := planPatch_eq_write_iff.2 ⟨rfl, text, expected, replacement, hadmits, hcount, hupdated, hsize⟩
  exact .inl ⟨path, updated, h, executePatch_of_plan hplan⟩

/-- A patch is exact unless the expected text stands at several positions that all overlap the first. -/
theorem execute_patch_exact_iff (casefold lower : Text → Text) (sha256 : List UInt8 → String) (project : Project)
    (request : PatchRequest) :
    IsExact casefold lower sha256 project request (executePatch casefold lower sha256 project request) ↔
      ¬ Clashes casefold lower sha256 project request := by
  constructor
  · rintro hexact ⟨path, text, expected, replacement, updated, hadmits, hcrowded, hupdated, hsize⟩
    obtain ⟨hcount, hmany⟩ := (crowded_iff hadmits.expected_ne_nil).1 hcrowded
    have hplan := planPatch_eq_write_iff.2 ⟨rfl, text, expected, replacement, hadmits, hcount, hupdated, hsize⟩
    rcases hexact with ⟨path', updated', hpatches, -⟩ | ⟨-, hnot, -⟩
    · obtain ⟨text', expected', replacement', hadmits', hunique, -⟩ := patches_iff.1 hpatches
      obtain ⟨-, rfl, rfl, -⟩ := hadmits.unique hadmits'
      exact hmany hunique
    · rw [(executePatch_of_plan hplan).1] at hnot
      cases hnot
  · intro hclear
    by_cases h : ∃ path updated, Patches casefold lower sha256 project request path updated
    · obtain ⟨path, updated, h⟩ := h
      exact isExact_of_patches h
    · rw [not_exists] at h
      simp only [not_exists] at h
      refine .inr ⟨h, executePatch_of_forall_ne fun path before updated hplan => ?_⟩
      obtain ⟨-, text, expected, replacement, hadmits, hcount, hupdated, hsize⟩ := planPatch_eq_write_iff.1 hplan
      by_cases hunique : ∃! position, OccursAt expected text position
      · exact h path updated (patches_iff.2 ⟨text, expected, replacement, hadmits, hunique, hupdated, hsize⟩)
      · exact hclear ⟨path, text, expected, replacement, updated, hadmits,
          (crowded_iff hadmits.expected_ne_nil).2 ⟨hcount, hunique⟩, hupdated, hsize⟩

/-- A file of three letters, two positions of the expected text and one count: the first position is replaced. -/
theorem execute_patch_overlap :
    let request : PatchRequest := ⟨some (lit "work:file:YQ"), some (lit "sha256:"), some (lit "aa"), some (lit "b")⟩
    ¬ IsExact id id (fun _ => "") (oneFile [97, 97, 97]) request
      (executePatch id id (fun _ => "") (oneFile [97, 97, 97]) request) := by
  intro request hexact
  have hadmits : Admits id id (fun _ => "") (oneFile [97, 97, 97]) request [lit "a"] (lit "aaa") (lit "aa") (lit "b") :=
    ⟨by decide +kernel, by decide +kernel, by decide +kernel, by decide +kernel, by decide +kernel⟩
  have hcount : count (lit "aa") (lit "aaa") = 1 := by decide +kernel
  have hupdated : Text.encode (replaceFirst (lit "aa") (lit "b") (lit "aaa")) = .ok [98, 97] := by decide +kernel
  have hplan := planPatch_eq_write_iff.2 ⟨rfl, _, _, _, hadmits, hcount, hupdated, by decide⟩
  rcases hexact with ⟨path, updated, hpatches, -⟩ | ⟨-, hnot, -⟩
  · obtain ⟨text, expected, replacement, hadmits', hunique, -⟩ := patches_iff.1 hpatches
    obtain ⟨-, rfl, rfl, -⟩ := hadmits.unique hadmits'
    have hzero : OccursAt (lit "aa") (lit "aaa") 0 := by decide +kernel
    have hone : OccursAt (lit "aa") (lit "aaa") 1 := by decide +kernel
    cases hunique.unique hzero hone
  · rw [(executePatch_of_plan hplan).1] at hnot
    cases hnot

end

end Wiii.Neko.Bridge
