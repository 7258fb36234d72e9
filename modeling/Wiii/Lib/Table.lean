import Mathlib.Data.List.Nodup

/-!
# Keyed tables

A `Table key` is a list of rows whose keys are pairwise distinct: a database table with a unique index on `key`.  The
uniqueness is a field, so no operation can build a table that violates its index.  Each operation comes with the lemma
that says what a later lookup returns.
-/

namespace Wiii

/-- Rows in insertion order, no two with the same key. -/
structure Table {ρ κ : Type} (key : ρ → κ) where
  /-- The rows, oldest insert first. -/
  rows : List ρ
  /-- The unique index. -/
  nodup : (rows.map key).Nodup

namespace Table

variable {ρ κ : Type} {key : ρ → κ}

@[ext] theorem ext {t u : Table key} (h : t.rows = u.rows) : t = u := by
  cases t; cases u; cases h; rfl

instance : EmptyCollection (Table key) := ⟨⟨[], List.nodup_nil⟩⟩

instance : Inhabited (Table key) := ⟨∅⟩

instance : Membership ρ (Table key) := ⟨fun t r => r ∈ t.rows⟩

theorem mem_iff {t : Table key} {r : ρ} : r ∈ t ↔ r ∈ t.rows := Iff.rfl

@[simp] theorem rows_empty : (∅ : Table key).rows = [] := rfl

@[simp] theorem not_mem_empty (r : ρ) : r ∉ (∅ : Table key) := by
  simp [mem_iff]

theorem eq_of_key_eq {t : Table key} {r s : ρ} (hr : r ∈ t) (hs : s ∈ t) (h : key r = key s) :
    r = s :=
  List.inj_on_of_nodup_map t.nodup hr hs h

/-! ## Deleting -/

/-- `DELETE … WHERE p`. -/
def deleteWhere (t : Table key) (p : ρ → Bool) : Table key :=
  ⟨t.rows.filter (fun r => !p r), (List.filter_sublist.map key).nodup t.nodup⟩

@[simp] theorem mem_deleteWhere {t : Table key} {p : ρ → Bool} {r : ρ} :
    r ∈ t.deleteWhere p ↔ r ∈ t ∧ p r = false := by
  simp [mem_iff, deleteWhere]

theorem deleteWhere_eq_self {t : Table key} {p : ρ → Bool} (h : ∀ r ∈ t, p r = false) :
    t.deleteWhere p = t := by
  apply ext
  simp only [deleteWhere]
  rw [List.filter_eq_self]
  intro r hr
  simp [h r hr]

/-- Only the `n` rows inserted last stay. -/
def keepLast (t : Table key) (n : ℕ) : Table key :=
  ⟨t.rows.drop (t.rows.length - n), ((List.drop_sublist _ _).map key).nodup t.nodup⟩

theorem mem_of_mem_keepLast {t : Table key} {n : ℕ} {r : ρ} (h : r ∈ t.keepLast n) : r ∈ t :=
  List.mem_of_mem_drop h

/-! ## Updating -/

/-- `UPDATE … SET f WHERE p`, for an `f` that leaves the key alone. -/
def updateWhere (t : Table key) (p : ρ → Bool) (f : ρ → ρ)
    (hf : ∀ r, key (f r) = key r := by intro _; rfl) : Table key :=
  ⟨t.rows.map (fun r => if p r then f r else r), by
    have h : (key ∘ fun r => if p r then f r else r) = key := by
      funext r
      by_cases hp : p r <;> simp [hp, hf]
    rw [List.map_map, h]
    exact t.nodup⟩

theorem mem_updateWhere {t : Table key} {p : ρ → Bool} {f : ρ → ρ}
    (hf : ∀ r, key (f r) = key r) {r : ρ} :
    r ∈ t.updateWhere p f hf ↔ ∃ s ∈ t, (if p s then f s else s) = r := by
  simp [mem_iff, updateWhere]

theorem updateWhere_eq_self {t : Table key} {p : ρ → Bool} {f : ρ → ρ}
    {hf : ∀ r, key (f r) = key r} (h : ∀ r ∈ t, p r = false) : t.updateWhere p f hf = t := by
  apply ext
  simp only [updateWhere]
  conv_rhs => rw [← List.map_id t.rows]
  apply List.map_congr_left
  intro r hr
  simp [h r hr]

theorem updateWhere_of_fixed {t : Table key} {p : ρ → Bool} {f : ρ → ρ}
    {hf : ∀ r, key (f r) = key r} (h : ∀ r ∈ t, p r = true → f r = r) : t.updateWhere p f hf = t := by
  apply ext
  simp only [updateWhere]
  conv_rhs => rw [← List.map_id t.rows]
  apply List.map_congr_left
  intro r hr
  by_cases hp : p r = true
  · rw [if_pos hp, h r hr hp, id]
  · rw [if_neg hp, id]

variable [DecidableEq κ]

/-! ## Looking up -/

/-- `SELECT … WHERE key = k`. -/
def find? (t : Table key) (k : κ) : Option ρ :=
  t.rows.find? (fun r => decide (key r = k))

@[simp] theorem find?_empty (k : κ) : (∅ : Table key).find? k = none := rfl

theorem find?_eq_some_iff {t : Table key} {k : κ} {r : ρ} :
    t.find? k = some r ↔ r ∈ t ∧ key r = k := by
  constructor
  · intro h
    exact ⟨List.mem_of_find?_eq_some h, by simpa using List.find?_some h⟩
  · rintro ⟨hr, rfl⟩
    unfold find?
    cases h : t.rows.find? (fun s => decide (key s = key r)) with
    | none => simpa using List.find?_eq_none.1 h r hr
    | some s =>
      have hs : key s = key r := by simpa using List.find?_some h
      rw [eq_of_key_eq (List.mem_of_find?_eq_some h) hr hs]

theorem find?_eq_none_iff {t : Table key} {k : κ} :
    t.find? k = none ↔ ∀ r ∈ t, key r ≠ k := by
  simp [find?, mem_iff]

theorem mem_of_find? {t : Table key} {k : κ} {r : ρ} (h : t.find? k = some r) : r ∈ t :=
  (find?_eq_some_iff.1 h).1

theorem key_of_find? {t : Table key} {k : κ} {r : ρ} (h : t.find? k = some r) : key r = k :=
  (find?_eq_some_iff.1 h).2

theorem find?_of_mem {t : Table key} {r : ρ} (h : r ∈ t) : t.find? (key r) = some r :=
  find?_eq_some_iff.2 ⟨h, rfl⟩

@[simp] theorem find?_updateWhere (t : Table key) (p : ρ → Bool) (f : ρ → ρ)
    (hf : ∀ r, key (f r) = key r) (k : κ) :
    (t.updateWhere p f hf).find? k = (t.find? k).map (fun r => if p r then f r else r) := by
  have hk : ∀ r, key (if p r then f r else r) = key r := fun r => by
    by_cases hp : p r <;> simp [hp, hf]
  simp only [find?, updateWhere, List.find?_map, Function.comp_def, hk]

@[simp] theorem find?_deleteWhere (t : Table key) (p : ρ → Bool) (k : κ) :
    (t.deleteWhere p).find? k = (t.find? k).filter (fun r => !p r) := by
  cases h : t.find? k with
  | none =>
    have h' := find?_eq_none_iff.1 h
    rw [Option.filter_none, find?_eq_none_iff]
    exact fun r hr => h' r (mem_deleteWhere.1 hr).1
  | some r =>
    obtain ⟨hr, rfl⟩ := find?_eq_some_iff.1 h
    by_cases hp : p r = true
    · simp only [Option.filter_some, hp, Bool.not_true, Bool.false_eq_true, if_false]
      rw [find?_eq_none_iff]
      intro s hs hk
      obtain ⟨hs, hps⟩ := mem_deleteWhere.1 hs
      rw [eq_of_key_eq hs hr hk, hp] at hps
      cases hps
    · simp only [Bool.not_eq_true] at hp
      simp only [Option.filter_some, hp, Bool.not_false, if_true]
      exact find?_of_mem (mem_deleteWhere.2 ⟨hr, hp⟩)

/-- `UPDATE … SET f WHERE key = k`. -/
def update (t : Table key) (k : κ) (f : ρ → ρ) (hf : ∀ r, key (f r) = key r := by intro _; rfl) :
    Table key :=
  t.updateWhere (fun r => decide (key r = k)) f hf

theorem find?_update (t : Table key) (k : κ) (f : ρ → ρ) (hf : ∀ r, key (f r) = key r) (k' : κ) :
    (t.update k f hf).find? k' = if k' = k then (t.find? k).map f else t.find? k' := by
  rw [update, find?_updateWhere]
  cases h : t.find? k' with
  | none =>
    by_cases hk : k' = k
    · subst hk; simp [h]
    · simp [hk]
  | some r =>
    have hr := key_of_find? h
    by_cases hk : k' = k
    · subst hk; simp [h, hr]
    · simp [hk, hr]

/-- `DELETE … WHERE key = k`. -/
def delete (t : Table key) (k : κ) : Table key :=
  t.deleteWhere (fun r => decide (key r = k))

theorem find?_delete (t : Table key) (k k' : κ) :
    (t.delete k).find? k' = if k' = k then none else t.find? k' := by
  rw [delete, find?_deleteWhere]
  cases h : t.find? k' with
  | none => simp
  | some r =>
    have hr := key_of_find? h
    by_cases hk : k' = k <;> simp [hk, hr]

theorem perm_delete [DecidableEq ρ] {t : Table key} {k : κ} {r : ρ} (h : t.find? k = some r) :
    t.rows.Perm (r :: (t.delete k).rows) := by
  obtain ⟨hr, rfl⟩ := find?_eq_some_iff.1 h
  have herase : (t.delete (key r)).rows = t.rows.erase r := by
    rw [(List.Nodup.of_map key t.nodup).erase_eq_filter]
    refine List.filter_congr fun s hs => ?_
    by_cases e : key s = key r
    · simp [eq_of_key_eq hs hr e]
    · simp [e, show s ≠ r from fun h => e (congrArg key h)]
  rw [herase]
  exact List.perm_cons_erase hr

/-! ## Inserting -/

/-- `INSERT`: refused when the key is taken. -/
def insert? (t : Table key) (r : ρ) : Option (Table key) :=
  if h : t.find? (key r) = none then
    some ⟨t.rows ++ [r], by
      rw [List.map_append, List.nodup_append]
      refine ⟨t.nodup, List.nodup_singleton _, ?_⟩
      intro k hk k' hk' e
      obtain ⟨s, hs, rfl⟩ := List.mem_map.1 hk
      rw [List.map_singleton, List.mem_singleton] at hk'
      exact find?_eq_none_iff.1 h s hs (e.trans hk')⟩
  else none

theorem insert?_eq_some_iff {t u : Table key} {r : ρ} :
    t.insert? r = some u ↔ t.find? (key r) = none ∧ u.rows = t.rows ++ [r] := by
  unfold insert?
  split_ifs with h
  · constructor
    · rintro ⟨rfl⟩
      exact ⟨h, rfl⟩
    · rintro ⟨-, hu⟩
      exact congrArg some (ext hu.symm)
  · simp [h]

theorem insert?_eq_none_iff {t : Table key} {r : ρ} :
    t.insert? r = none ↔ t.find? (key r) ≠ none := by
  unfold insert?
  split_ifs with h <;> simp [h]

theorem find?_of_rows_append {t u : Table key} {r : ρ} (hn : t.find? (key r) = none)
    (hu : u.rows = t.rows ++ [r]) (k : κ) :
    u.find? k = if k = key r then some r else t.find? k := by
  unfold find? at hn ⊢
  rw [hu, List.find?_append]
  by_cases hk : k = key r
  · subst hk; simp [hn]
  · have hne : ¬ key r = k := fun e => hk e.symm
    simp [hk, hne]

theorem find?_insert? {t u : Table key} {r : ρ} (h : t.insert? r = some u) (k : κ) :
    u.find? k = if k = key r then some r else t.find? k :=
  find?_of_rows_append (insert?_eq_some_iff.1 h).1 (insert?_eq_some_iff.1 h).2 k

theorem mem_insert? {t u : Table key} {r : ρ} (h : t.insert? r = some u) {s : ρ} :
    s ∈ u ↔ s ∈ t ∨ s = r := by
  simp [mem_iff, (insert?_eq_some_iff.1 h).2]

/-- `INSERT OR IGNORE`: the row that is there stays. -/
def insertOrIgnore (t : Table key) (r : ρ) : Table key := (t.insert? r).getD t

theorem insertOrIgnore_of_find? {t : Table key} {r s : ρ} (h : t.find? (key r) = some s) :
    t.insertOrIgnore r = t := by
  have hnone : t.insert? r = none := insert?_eq_none_iff.2 (by rw [h]; exact Option.some_ne_none s)
  rw [insertOrIgnore, hnone, Option.getD_none]

theorem rows_insertOrIgnore {t : Table key} {r : ρ} (h : t.find? (key r) = none) :
    (t.insertOrIgnore r).rows = t.rows ++ [r] := by
  obtain ⟨u, hu⟩ := Option.ne_none_iff_exists'.1 fun hnone => insert?_eq_none_iff.1 hnone h
  rw [insertOrIgnore, hu, Option.getD_some]
  exact (insert?_eq_some_iff.1 hu).2

theorem find?_insertOrIgnore (t : Table key) (r : ρ) (k : κ) :
    (t.insertOrIgnore r).find? k = if k = key r then some ((t.find? k).getD r) else t.find? k := by
  cases h : t.find? (key r) with
  | some s =>
    rw [insertOrIgnore_of_find? h]
    by_cases hk : k = key r
    · rw [if_pos hk, hk, h, Option.getD_some]
    · rw [if_neg hk]
  | none =>
    rw [find?_of_rows_append h (rows_insertOrIgnore h)]
    by_cases hk : k = key r
    · rw [if_pos hk, if_pos hk, hk, h, Option.getD_none]
    · rw [if_neg hk, if_neg hk]

theorem find?_insertOrIgnore_self {t : Table key} {r : ρ} (h : t.find? (key r) = none) :
    (t.insertOrIgnore r).find? (key r) = some r := by
  rw [find?_insertOrIgnore, if_pos rfl, h, Option.getD_none]

/-- A valid row is inserted unless its key is taken; then the stored row is the answer, if it is the same. -/
inductive Put {ε : Type} (valid : Except ε Unit) (t : Table key) (new : ρ) (same : ρ → Prop) :
    Except ε ρ → Table key → Prop
  | invalid {error : ε} (h : valid = .error error) : Put valid t new same (.error error) t
  | inserted (hvalid : valid = .ok ()) (h : t.find? (key new) = none) :
    Put valid t new same (.ok new) (t.insertOrIgnore new)
  | again {row : ρ} (hvalid : valid = .ok ()) (h : t.find? (key new) = some row) (hsame : same row) :
    Put valid t new same (.ok row) t
  | collided {row : ρ} (error : ε) (h : t.find? (key new) = some row) (hno : ¬ same row) :
    Put valid t new same (.error error) t

namespace Put

variable {ε : Type} {valid : Except ε Unit} {t t' : Table key} {new row : ρ} {same : ρ → Prop} {answer : Except ε ρ}

theorem rows (h : Put valid t new same answer t') :
    t'.rows = t.rows ∨ t'.rows = t.rows ++ [new] := by
  cases h with
  | inserted hvalid hfind => exact .inr (rows_insertOrIgnore hfind)
  | invalid | again | collided => exact .inl rfl

theorem rows_isPrefix (h : Put valid t new same answer t') : t.rows <+: t'.rows := by
  rcases h.rows with heq | heq
  · exact heq ▸ List.prefix_rfl
  · exact heq ▸ List.prefix_append _ _

theorem recorded (hnew : same new) (h : Put valid t new same (.ok row) t') : valid = .ok () ∧ row ∈ t' ∧ same row := by
  cases h with
  | inserted hvalid hfind => exact ⟨hvalid, mem_of_find? (find?_insertOrIgnore_self hfind), hnew⟩
  | again hvalid hfind hsame => exact ⟨hvalid, mem_of_find? hfind, hsame⟩

theorem eq_ok (h : Put valid t new same answer t') (hvalid : valid = .ok ()) (hfind : t.find? (key new) = some row)
    (hsame : same row) : answer = .ok row ∧ t' = t := by
  cases h with
  | invalid herror => cases herror.symm.trans hvalid
  | inserted _ hnone => cases hnone.symm.trans hfind
  | again _ hsome _ => exact ⟨congrArg _ (Option.some.inj (hsome.symm.trans hfind)), rfl⟩
  | collided _ hsome hno => exact absurd (Option.some.inj (hfind.symm.trans hsome) ▸ hsame) hno

theorem eq_error (h : Put valid t new same answer t') (hfind : t.find? (key new) = some row) (hno : ¬ same row) :
    ∃ error, answer = .error error ∧ t' = t := by
  cases h with
  | invalid _ | collided _ _ _ => exact ⟨_, rfl, rfl⟩
  | inserted _ hnone => cases hnone.symm.trans hfind
  | again _ hsome hsame => exact absurd (Option.some.inj (hsome.symm.trans hfind) ▸ hsame) hno

end Put

/-- `INSERT … ON CONFLICT (key) DO UPDATE`: replace the row with this key, else append. -/
def upsert (t : Table key) (r : ρ) : Table key :=
  (t.insert? r).getD ⟨t.rows.map (fun s => if key s = key r then r else s), by
    have h : (key ∘ fun s => if key s = key r then r else s) = key := by
      funext s
      by_cases hs : key s = key r <;> simp [hs]
    rw [List.map_map, h]
    exact t.nodup⟩

theorem find?_upsert (t : Table key) (r : ρ) (k : κ) :
    (t.upsert r).find? k = if k = key r then some r else t.find? k := by
  unfold upsert
  cases h : t.insert? r with
  | some u => exact find?_insert? h k
  | none =>
    obtain ⟨s, hs⟩ := Option.ne_none_iff_exists'.1 (insert?_eq_none_iff.1 h)
    have hk : ∀ s, key (if key s = key r then r else s) = key s := fun s => by
      by_cases e : key s = key r <;> simp [e]
    simp only [Option.getD_none, find?, List.find?_map, Function.comp_def, hk]
    change (t.find? k).map _ = if k = key r then some r else t.find? k
    by_cases e : k = key r
    · subst e
      simp [hs, key_of_find? hs]
    · cases hf : t.find? k with
      | none => simp [e]
      | some s' => simp [e, key_of_find? hf]

theorem rows_upsert {t : Table key} {r : ρ} (h : t.find? (key r) = none) : (t.upsert r).rows = t.rows ++ [r] := by
  obtain ⟨u, hu⟩ := Option.ne_none_iff_exists'.1 fun hnone => insert?_eq_none_iff.1 hnone h
  rw [upsert, hu, Option.getD_some]
  exact (insert?_eq_some_iff.1 hu).2

theorem mem_upsert {t : Table key} {r s : ρ} :
    s ∈ t.upsert r ↔ s = r ∨ (s ∈ t ∧ key s ≠ key r) := by
  have hself : s ∈ t.upsert r ↔ (t.upsert r).find? (key s) = some s := by
    simp [find?_eq_some_iff]
  rw [hself, find?_upsert]
  by_cases e : key s = key r
  · simp only [e, if_true, Option.some.injEq, ne_eq, not_true_eq_false, and_false, or_false]
    exact eq_comm
  · have hne : s ≠ r := fun h => e (h ▸ rfl)
    simp [e, hne, find?_eq_some_iff]

end Table

theorem max?_getD_le_iff {values : List ℕ} {n : ℕ} : values.max?.getD 0 ≤ n ↔ ∀ m ∈ values, m ≤ n := by
  cases h : values.max? with
  | none =>
    rw [List.max?_eq_none_iff.1 h]
    simp
  | some top =>
    obtain ⟨htop, hmax⟩ := List.max?_eq_some_iff.1 h
    rw [Option.getD_some]
    exact ⟨fun hn m hm => Nat.le_trans (hmax m hm) hn, fun hall => hall top htop⟩

end Wiii
