import Mathlib.Data.List.Basic

/-!
# Rules that refuse or change what passes them

A rule refuses its subject or lets it through, changed or not.  A list of rules is a rule again (`all`), in whichever
way it is bracketed (`all_flatMap`).  A list that is run for what its last member says (`lastSays`) does the same where
nothing is changed, or where the last member changes something (`lastSays_eq_all_iff`).
-/

namespace Wiii

/-- `none` where the subject is refused, else whether it was changed and what it is now. -/
abbrev Rule (α : Type*) := α → Option (Bool × α)

namespace Rule

variable {α β : Type*}

def pass : Rule α := fun a => some (false, a)

def andThen (r s : Rule α) : Rule α := fun a => (r a).bind fun v => (s v.2).map fun w => (v.1 || w.1, w.2)

def all (rules : List (Rule α)) : Rule α := rules.foldr andThen pass

def applied (a : α) (r : Rule α) : α :=
  match r a with
  | some (true, a') => a'
  | _ => a

def piped (rules : List (Rule α)) (a : α) : α := rules.foldl applied a

def Lawful (r : Rule α) : Prop := ∀ a a', r a = some (false, a') → a' = a

variable {r s t : Rule α} {rules rules' : List (Rule α)} {a a' : α} {changed : Bool}

theorem pass_andThen : pass.andThen r = r := by
  funext a
  simp [andThen, pass]

theorem andThen_pass : r.andThen pass = r := by
  funext a
  cases hr : r a <;> simp [andThen, pass, hr]

theorem andThen_assoc : (r.andThen s).andThen t = r.andThen (s.andThen t) := by
  funext a
  cases hr : r a with
  | none => simp [andThen, hr]
  | some v =>
    cases hs : s v.2 with
    | none => simp [andThen, hr, hs]
    | some w => cases ht : t w.2 <;> simp [andThen, hr, hs, ht, Bool.or_assoc]

theorem all_cons : all (r :: rules) = r.andThen (all rules) := rfl

theorem all_append : all (rules ++ rules') = (all rules).andThen (all rules') := by
  induction rules with
  | nil => exact pass_andThen.symm
  | cons r rules ih => rw [List.cons_append, all_cons, all_cons, ih, andThen_assoc]

theorem all_flatMap (f : β → List (Rule α)) (items : List β) :
    all (items.flatMap f) = all (items.map fun item => all (f item)) := by
  induction items with
  | nil => rfl
  | cons item items ih => rw [List.flatMap_cons, all_append, ih, List.map_cons, all_cons]

theorem Lawful.applied_eq (h : r.Lawful) (heq : r a = some (changed, a')) : applied a r = a' := by
  unfold applied
  cases changed with
  | true => rw [heq]
  | false => rw [heq, h _ _ heq]

theorem Lawful.andThen (hr : r.Lawful) (hs : s.Lawful) : (r.andThen s).Lawful := by
  intro a a' heq
  simp only [Rule.andThen, Option.bind_eq_some_iff, Option.map_eq_some_iff, Prod.mk.injEq, Bool.or_eq_false_iff] at heq
  obtain ⟨⟨changed, b⟩, hb, ⟨changed', b'⟩, hb', ⟨rfl, rfl⟩, rfl⟩ := heq
  rw [hs _ _ hb', hr _ _ hb]

theorem lawful_all (h : ∀ r ∈ rules, r.Lawful) : (all rules).Lawful := by
  induction rules with
  | nil =>
    intro a a' heq
    exact (congrArg Prod.snd (Option.some.inj heq)).symm
  | cons r rules ih =>
    rw [List.forall_mem_cons] at h
    exact h.1.andThen (ih h.2)

/-! ## What the members do -/

/-- One of the rules, given the subject as its predecessors left it, does what `p` says. -/
def Somewhere (p : Option (Bool × α) → Prop) (rules : List (Rule α)) (a : α) : Prop :=
  ∃ before r after, rules = before ++ r :: after ∧ p (r (piped before a))

def Refuses (v : Option (Bool × α)) : Prop := v = none

def Changes (v : Option (Bool × α)) : Prop := ∃ a, v = some (true, a)

variable {p : Option (Bool × α) → Prop}

theorem not_somewhere_nil : ¬ Somewhere p ([] : List (Rule α)) a := by
  rintro ⟨before, r, after, heq, -⟩
  exact absurd heq.symm (List.append_ne_nil_of_right_ne_nil _ (List.cons_ne_nil _ _))

theorem somewhere_cons : Somewhere p (r :: rules) a ↔ p (r a) ∨ Somewhere p rules (applied a r) := by
  constructor
  · rintro ⟨_ | ⟨first, before⟩, s, after, heq, hs⟩
    · cases heq
      exact .inl hs
    · cases heq
      exact .inr ⟨before, s, after, rfl, hs⟩
  · rintro (h | ⟨before, s, after, rfl, hs⟩)
    · exact ⟨[], r, rules, rfl, h⟩
    · exact ⟨r :: before, s, after, rfl, hs⟩

theorem not_refuses_some (v : Bool × α) : ¬ Refuses (some v) := fun heq => nomatch heq

theorem changes_some (a : α) : Changes (some (changed, a)) ↔ changed = true := by
  constructor
  · rintro ⟨b, heq⟩
    exact congrArg Prod.fst (Option.some.inj heq)
  · rintro rfl
    exact ⟨a, rfl⟩

theorem all_eq_none_iff (h : ∀ r ∈ rules, r.Lawful) : all rules a = none ↔ Somewhere Refuses rules a := by
  induction rules generalizing a with
  | nil => exact ⟨fun heq => (nomatch heq), fun h => absurd h not_somewhere_nil⟩
  | cons r rules ih =>
    rw [List.forall_mem_cons] at h
    rw [somewhere_cons, all_cons, andThen]
    cases hr : r a with
    | none => exact ⟨fun _ => .inl rfl, fun _ => rfl⟩
    | some w =>
      rw [Option.bind_some, Option.map_eq_none_iff, ih h.2, h.1.applied_eq hr]
      exact ⟨.inr, fun h => h.resolve_left (not_refuses_some w)⟩

theorem of_all_eq_some (h : ∀ r ∈ rules, r.Lawful) (heq : all rules a = some (changed, a')) :
    (changed = true ↔ Somewhere Changes rules a) ∧ a' = piped rules a := by
  induction rules generalizing a changed with
  | nil =>
    cases heq
    exact ⟨⟨fun heq => (nomatch heq), fun h => absurd h not_somewhere_nil⟩, rfl⟩
  | cons r rules ih =>
    rw [List.forall_mem_cons] at h
    simp only [all_cons, andThen, Option.bind_eq_some_iff, Option.map_eq_some_iff, Prod.mk.injEq] at heq
    obtain ⟨⟨now, b⟩, hr, ⟨later, c⟩, hlater, rfl, rfl⟩ := heq
    have hb := h.1.applied_eq hr
    obtain ⟨hlaterIff, hc⟩ := ih h.2 hlater
    refine ⟨?_, ?_⟩
    · rw [somewhere_cons, hr, changes_some, hb, Bool.or_eq_true, hlaterIff]
    · rw [piped, List.foldl_cons, hb]
      exact hc

theorem all_iff (h : ∀ r ∈ rules, r.Lawful) (v : Option (Bool × α)) : v = all rules a ↔
    (v = none ↔ Somewhere Refuses rules a) ∧
      ∀ changed a', v = some (changed, a') → (changed = true ↔ Somewhere Changes rules a) ∧ a' = piped rules a := by
  constructor
  · rintro rfl
    exact ⟨all_eq_none_iff h, fun _ _ => of_all_eq_some h⟩
  · rintro ⟨hnone, hsome⟩
    rw [← all_eq_none_iff h] at hnone
    cases hw : all rules a with
    | none => exact hnone.2 hw
    | some w =>
      obtain ⟨hchanged, hpiped⟩ := of_all_eq_some h hw
      cases hv : v with
      | none =>
        rw [hnone.1 hv] at hw
        cases hw
      | some w' =>
        obtain ⟨hchanged', hpiped'⟩ := hsome w'.1 w'.2 hv
        have hfst : w'.1 = w.1 := Bool.eq_iff_iff.2 (hchanged'.trans hchanged.symm)
        have hsnd : w'.2 = w.2 := hpiped'.trans hpiped.symm
        rw [Prod.ext hfst hsnd]

/-! ## The word of the last member -/

/-- A run that hands on what is changed and ends with what the last member says. -/
def lastSays : List (Rule α) → α → Bool × α → Option (Bool × α)
  | [], _, said => some said
  | r :: rules, a, _ => (r a).bind fun v => lastSays rules (if v.1 then v.2 else a) v

def LastChanges (rules : List (Rule α)) (a : α) : Prop :=
  ∃ before r, rules = before ++ [r] ∧ Changes (r (piped before a))

def EndsWell (rules : List (Rule α)) (a : α) : Prop :=
  Somewhere Refuses rules a ∨ ¬ Somewhere Changes rules a ∨ LastChanges rules a

theorem LastChanges.somewhere (h : LastChanges rules a) : Somewhere Changes rules a := by
  obtain ⟨before, r, heq, hr⟩ := h
  exact ⟨before, r, [], heq, hr⟩

theorem lastChanges_cons : LastChanges (r :: rules) a ↔
    (rules = [] ∧ Changes (r a)) ∨ LastChanges rules (applied a r) := by
  constructor
  · rintro ⟨_ | ⟨first, before⟩, s, heq, hs⟩
    · cases heq
      exact .inl ⟨rfl, hs⟩
    · cases heq
      exact .inr ⟨before, s, rfl, hs⟩
  · rintro (⟨rfl, h⟩ | ⟨before, s, rfl, hs⟩)
    · exact ⟨[], r, rfl, h⟩
    · exact ⟨r :: before, s, rfl, hs⟩

theorem not_lastChanges_nil : ¬ LastChanges ([] : List (Rule α)) a := fun h => not_somewhere_nil h.somewhere

theorem Lawful.handed (h : r.Lawful) (heq : r a = some (changed, a')) : (if changed then a' else a) = a' := by
  cases changed with
  | true => rfl
  | false => exact (h _ _ heq).symm

theorem lastSays_cases (h : ∀ r ∈ rules, r.Lawful) (said : Bool) :
    (all rules a = none ∧ lastSays rules a (said, a) = none) ∨
      ∃ changed told a', all rules a = some (changed, a') ∧ lastSays rules a (said, a) = some (told, a') ∧
        (told = true ↔ (rules = [] ∧ said = true) ∨ LastChanges rules a) := by
  induction rules generalizing a said with
  | nil => exact .inr ⟨false, said, a, rfl, rfl, by simp [not_lastChanges_nil]⟩
  | cons r rules ih =>
    rw [List.forall_mem_cons] at h
    cases hr : r a with
    | none => exact .inl ⟨by rw [all_cons, andThen, hr]; rfl, by rw [lastSays, hr]; rfl⟩
    | some w =>
      obtain ⟨now, b⟩ := w
      have hlast : lastSays (r :: rules) a (said, a) = lastSays rules b (now, b) := by
        rw [lastSays, hr, Option.bind_some, h.1.handed hr]
      have hall : all (r :: rules) a = (all rules b).map fun w => (now || w.1, w.2) := by
        rw [all_cons, andThen, hr, Option.bind_some]
      rw [hlast, hall, lastChanges_cons, hr, changes_some, h.1.applied_eq hr]
      rcases @ih b h.2 now with ⟨hnone, htells⟩ | ⟨changed, told, c, hsome, htells, htold⟩
      · exact .inl ⟨by rw [hnone]; rfl, htells⟩
      · refine .inr ⟨now || changed, told, c, by rw [hsome]; rfl, htells, ?_⟩
        simpa using htold

/-- The last member speaks for the list in the runs that end well, and in no others. -/
theorem lastSays_eq_all_iff (h : ∀ r ∈ rules, r.Lawful) :
    lastSays rules a (false, a) = all rules a ↔ EndsWell rules a := by
  rw [EndsWell, ← all_eq_none_iff h]
  rcases lastSays_cases (a := a) h false with ⟨hnone, htells⟩ | ⟨changed, told, a', hsome, htells, htold⟩
  · rw [hnone, htells]
    exact ⟨fun _ => .inl rfl, fun _ => rfl⟩
  · have hchanged := (of_all_eq_some h hsome).1
    rw [htells, hsome, Option.some.injEq, Prod.mk.injEq, eq_self_iff_true, and_true, Bool.eq_iff_iff, htold, hchanged]
    constructor
    · intro hiff
      by_cases hsomewhere : Somewhere Changes rules a
      · exact .inr (.inr ((hiff.2 hsomewhere).resolve_left fun h => absurd h.2 Bool.false_ne_true))
      · exact .inr (.inl hsomewhere)
    · rintro (hnone | hnot | hlast)
      · cases hnone
      · exact ⟨fun h => h.elim (fun h => absurd h.2 Bool.false_ne_true) LastChanges.somewhere, fun h => absurd h hnot⟩
      · exact ⟨fun _ => hlast.somewhere, fun _ => .inr hlast⟩

/-- The rules say the same, as far as a run gets. -/
def Agree : List (Rule α) → List (Rule α) → α → Prop
  | [], [], _ => True
  | r :: rules, s :: rules', a => r a = s a ∧ ∀ v, s a = some v → Agree rules rules' v.2
  | _, _, _ => False

theorem Agree.lastSays_eq (h : Agree rules rules' a) (hlawful : ∀ r ∈ rules', r.Lawful) (said : Bool) :
    lastSays rules a (said, a) = lastSays rules' a (said, a) := by
  induction rules generalizing rules' a said with
  | nil =>
    cases rules' with
    | nil => rfl
    | cons => exact h.elim
  | cons r rules ih =>
    cases rules' with
    | nil => exact h.elim
    | cons s rules' =>
      rw [List.forall_mem_cons] at hlawful
      rw [lastSays, lastSays, h.1]
      cases hs : s a with
      | none => rfl
      | some v =>
        rw [Option.bind_some, Option.bind_some, hlawful.1.handed hs]
        exact ih (h.2 v hs) hlawful.2 v.1

end Rule

end Wiii
