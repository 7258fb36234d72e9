import Mathlib.Data.List.Basic

/-!
# Paging an append-only log by key

A log is a list whose keys increase.  `page key after limit log` is what a keyset pager answers, and `Follows` is a
reader that takes one page after the other while the log grows at its end.  What such a reader has gathered, with what
its cursor leaves, is what lies above its first cursor in the log as it is now (`Follows.above_eq`).
-/

namespace Wiii.Paging

variable {α : Type} (key : α → ℕ)

def above (after : ℕ) (log : List α) : List α := log.filter fun a => decide (after < key a)

def Ordered (log : List α) : Prop := log.Pairwise fun a b => key a < key b

/-- One page, and the cursor of the next one if there is one. -/
def page (after limit : ℕ) (log : List α) : List α × Option ℕ :=
  let items := (above key after log).take (limit + 1)
  if limit < items.length then (items.take limit, (items.take limit).getLast?.map key)
  else (items, none)

def rest (log : List α) : Option ℕ → List α
  | none => []
  | some after => above key after log

/-- A reader of a growing log: its start, what it gathered, where it stands, and its pages. -/
inductive Follows : List α → ℕ → List α → Option ℕ → List α → ℕ → Prop
  | last {log : List α} {after limit : ℕ} : 0 < limit →
      Follows log after (page key after limit log).1 (page key after limit log).2 log 1
  | more {log log' now : List α} {after limit cursor n : ℕ} {items : List α} {next : Option ℕ} :
      0 < limit → (page key after limit log).2 = some cursor → log <+: log' →
      Follows log' cursor items next now n →
      Follows log after ((page key after limit log).1 ++ items) next now (n + 1)

variable {key}

/-! ## One page -/

theorem mem_above {after : ℕ} {log : List α} {a : α} : a ∈ above key after log ↔ a ∈ log ∧ after < key a := by
  simp [above]

theorem Ordered.above {log : List α} (h : Ordered key log) (after : ℕ) : Ordered key (above key after log) :=
  h.filter _

theorem Ordered.of_isPrefix {log now : List α} (h : Ordered key now) (hg : log <+: now) : Ordered key log :=
  h.sublist hg.sublist

theorem above_isPrefix {log now : List α} (hg : log <+: now) (after : ℕ) :
    above key after log <+: above key after now :=
  hg.filter _

theorem page_of_none {after limit : ℕ} {log : List α} (h : (page key after limit log).2 = none)
    (hlimit : 0 < limit) : (page key after limit log).1 = above key after log := by
  unfold page at h ⊢
  by_cases hlen : limit < ((above key after log).take (limit + 1)).length
  · rw [if_pos hlen, Option.map_eq_none_iff, List.getLast?_eq_none_iff] at h
    have hzero : (((above key after log).take (limit + 1)).take limit).length = 0 := by rw [h]; rfl
    rw [List.length_take] at hzero
    omega
  · rw [if_neg hlen]
    rw [List.length_take] at hlen
    exact List.take_of_length_le (by omega)

theorem page_of_some {after limit cursor : ℕ} {log : List α}
    (h : (page key after limit log).2 = some cursor) :
    ∃ start a, above key after log = start ++ a :: (above key after log).drop limit ∧
      (page key after limit log).1 = start ++ [a] ∧ key a = cursor := by
  unfold page at h ⊢
  by_cases hlen : limit < ((above key after log).take (limit + 1)).length
  · rw [if_pos hlen] at h ⊢
    have htake : ((above key after log).take (limit + 1)).take limit = (above key after log).take limit := by
      rw [List.take_take, Nat.min_eq_left (Nat.le_succ limit)]
    simp only [htake] at h ⊢
    obtain ⟨a, ha, rfl⟩ := Option.map_eq_some_iff.1 h
    obtain ⟨start, hstart⟩ := List.getLast?_eq_some_iff.1 ha
    refine ⟨start, a, ?_, hstart, rfl⟩
    conv_lhs => rw [← List.take_append_drop limit (above key after log), hstart]
    rw [List.append_assoc, List.singleton_append]
  · rw [if_neg hlen] at h
    cases h

theorem above_of_eq_append {log start left : List α} {a : α} {after : ℕ} (ho : Ordered key log)
    (h : above key after log = start ++ a :: left) : above key (key a) log = left := by
  have hordered : Ordered key (start ++ a :: left) := h ▸ ho.above after
  obtain ⟨-, hleft, hstart⟩ := List.pairwise_append.1 hordered
  have hafter : after < key a := (mem_above.1 (h ▸ List.mem_append_right start List.mem_cons_self)).2
  -- a key above that of `a` is above the cursor
  have hnarrow : above key (key a) log = above key (key a) (above key after log) := by
    unfold above
    rw [List.filter_filter]
    apply List.filter_congr
    intro b _
    by_cases hb : key a < key b
    · simp [hb, Nat.lt_trans hafter hb]
    · simp [hb]
  rw [hnarrow, h]
  unfold above
  have hbefore : start.filter (fun b => decide (key a < key b)) = [] := by
    rw [List.filter_eq_nil_iff]
    intro b hb
    simpa using Nat.le_of_lt (hstart b hb a List.mem_cons_self)
  have hbehind : left.filter (fun b => decide (key a < key b)) = left := by
    rw [List.filter_eq_self]
    intro b hb
    simpa using List.rel_of_pairwise_cons hleft hb
  rw [List.filter_append, hbefore, List.filter_cons, if_neg (by simp), hbehind, List.nil_append]

theorem above_eq_page_append {log now : List α} {after limit cursor : ℕ} (ho : Ordered key now)
    (hg : log <+: now) (h : (page key after limit log).2 = some cursor) :
    above key after now = (page key after limit log).1 ++ above key cursor now := by
  obtain ⟨start, a, hsplit, hpage, rfl⟩ := page_of_some h
  obtain ⟨more, hmore⟩ := above_isPrefix hg after
  have hnow : above key after now = start ++ a :: ((above key after log).drop limit ++ more) := by
    conv_lhs => rw [← hmore, hsplit]
    rw [List.append_assoc, List.cons_append]
  rw [above_of_eq_append ho hnow, hpage, hnow, List.append_assoc, List.singleton_append]

/-! ## Following the cursors -/

namespace Follows

variable {log now items : List α} {after n : ℕ} {next : Option ℕ}

theorem grows (h : Follows key log after items next now n) : log <+: now := by
  induction h with
  | last _ => exact List.prefix_rfl
  | more _ _ hg _ ih => exact hg.trans ih

theorem above_eq (h : Follows key log after items next now n) (ho : Ordered key now) :
    above key after now = items ++ rest key now next := by
  induction h with
  | @last log after limit hlimit =>
    cases hnext : (page key after limit log).2 with
    | none =>
      show _ = _ ++ []
      rw [page_of_none hnext hlimit, List.append_nil]
    | some cursor => exact above_eq_page_append ho List.prefix_rfl hnext
  | more _ hnext hg hrest ih =>
    rw [above_eq_page_append ho (hg.trans hrest.grows) hnext, ih ho, List.append_assoc]

theorem length_le (h : Follows key log after items next now n) (hnext : next ≠ none) : n ≤ items.length := by
  induction h with
  | @last log after limit _ =>
    obtain ⟨cursor, hcursor⟩ := Option.ne_none_iff_exists'.1 hnext
    obtain ⟨start, a, -, hpage, -⟩ := page_of_some hcursor
    simp [hpage]
  | more _ hcursor _ _ ih =>
    obtain ⟨start, a, -, hpage, -⟩ := page_of_some hcursor
    have hn := ih hnext
    rw [List.length_append, hpage, List.length_append, List.length_singleton]
    omega

theorem ordered (h : Follows key log after items next now n) (ho : Ordered key now) : Ordered key items :=
  (ho.above after).of_isPrefix ⟨_, (h.above_eq ho).symm⟩

theorem mem_of_mem {a : α} (h : Follows key log after items next now n) (ho : Ordered key now)
    (ha : a ∈ above key after log) (hdone : next = none ∨ (above key after log).length ≤ n) : a ∈ items := by
  by_cases hnext : next = none
  · have heq := h.above_eq ho
    rw [hnext] at heq
    have hmem := (above_isPrefix h.grows after).subset ha
    rwa [heq, rest, List.append_nil] at hmem
  · have hlen : (above key after log).length ≤ items.length :=
      Nat.le_trans (hdone.resolve_left hnext) (h.length_le hnext)
    have hitems : items <+: above key after now := ⟨_, (h.above_eq ho).symm⟩
    exact (List.prefix_of_prefix_length_le (above_isPrefix h.grows after) hitems hlen).subset ha

end Follows

end Wiii.Paging
