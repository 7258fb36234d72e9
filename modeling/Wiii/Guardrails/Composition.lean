import Wiii.Lib.Rule
import Wiii.Service.Payload

/-!
# Guardrails at the tool boundary

A guardrail lets a tool call through, denies it or rewrites it.  `compose` runs a list of them on what their
predecessors left and answers with the result of the last one, so a composition may say `allow` of a call that it has
rewritten.  It is right where the last member speaks for all of them (`composition_faithful_iff`).
-/

namespace Wiii.Guardrails

open Service (Payload PyValue)

inductive GuardrailDecision where
  | allow
  | deny
  | modify
deriving DecidableEq

structure ToolCall where
  id : String
  name : String
  arguments : Payload := []

structure GuardrailResult where
  decision : GuardrailDecision
  toolCall : ToolCall
  reason : Option String := none
  metadata : Payload := []

/-- An exception that `check` raises. -/
structure PyException where
  type : String
  text : String

/-- What `compose` is given: anything with a name and a `check` that keeps nothing. -/
structure Check where
  name : String := "ToolGuardrail"
  check : ToolCall → Payload → Except PyException GuardrailResult

/-- A single rule.  One that allows a call carries the original. -/
structure ToolGuardrail extends Check where
  carries : ∀ call context result, check call context = .ok result → result.decision = .allow → result.toolCall = call

def composeFrom (context : Payload) : List Check → ToolCall → GuardrailResult → GuardrailResult
  | [], _, lastResult => lastResult
  | guardrail :: rest, current, _ =>
    match guardrail.check current context with
    | .error exc =>
      { decision := .deny
        toolCall := current
        reason := some (guardrail.name ++ " crashed; failing closed")
        metadata := [("error", .str (exc.type ++ ": " ++ exc.text))] }
    | .ok result =>
      if result.decision = .deny then result
      else composeFrom context rest (if result.decision = .modify then result.toolCall else current) result

def compose (guardrails : List Check) (toolCall : ToolCall) (context : Option Payload) : GuardrailResult :=
  composeFrom (context.getD []) guardrails toolCall { decision := .allow, toolCall := toolCall }

/-- A guardrail, or the composition of some. -/
inductive Guard where
  | rule (guardrail : ToolGuardrail)
  | composed (guards : List Guard)

namespace Guard

mutual

/-- A composition as a guardrail: its check is `compose`. -/
def toCheck : Guard → Check
  | rule guardrail => guardrail.toCheck
  | composed guards => { name := "composed", check := fun call context => .ok (compose (toChecks guards) call (some context)) }

def toChecks : List Guard → List Check
  | [] => []
  | guard :: guards => guard.toCheck :: toChecks guards

end

mutual

/-- The guardrails of a composition, in their order. -/
def leaves : Guard → List ToolGuardrail
  | rule guardrail => [guardrail]
  | composed guards => leavesAll guards

def leavesAll : List Guard → List ToolGuardrail
  | [] => []
  | guard :: guards => guard.leaves ++ leavesAll guards

end

end Guard

/-! ## What a result says -/

/-- `none` for a denied call, else whether it was modified and the call to go on with. -/
def GuardrailResult.verdict (result : GuardrailResult) : Option (Bool × ToolCall) :=
  match result.decision with
  | .deny => none
  | .modify => some (true, result.toolCall)
  | .allow => some (false, result.toolCall)

/-- A check that raises denies the call. -/
def Check.verdict (guardrail : Check) (context : Payload) : Rule ToolCall := fun call =>
  match guardrail.check call context with
  | .error _ => none
  | .ok result => result.verdict

theorem ToolGuardrail.lawful (guardrail : ToolGuardrail) (context : Payload) :
    (guardrail.toCheck.verdict context).Lawful := by
  intro call call' h
  unfold Check.verdict at h
  split at h
  · cases h
  · rename_i result hcheck
    unfold GuardrailResult.verdict at h
    split at h
    · cases h
    · cases h
    · rename_i hallow
      cases h
      exact guardrail.carries call context result hcheck hallow

theorem verdict_composeFrom (context : Payload) (guardrails : List Check) (current : ToolCall)
    (lastResult : GuardrailResult) {said : Bool × ToolCall} (h : lastResult.verdict = some said) :
    (composeFrom context guardrails current lastResult).verdict =
      Rule.lastSays (guardrails.map fun guardrail => guardrail.verdict context) current said := by
  induction guardrails generalizing current lastResult said with
  | nil => exact h
  | cons guardrail rest ih =>
    rw [List.map_cons, Rule.lastSays, composeFrom, Check.verdict]
    cases hcheck : guardrail.check current context with
    | error exc => rfl
    | ok result =>
      dsimp only
      cases hdecision : result.decision with
      | deny =>
        have hverdict : result.verdict = none := by
          rw [GuardrailResult.verdict, hdecision]
        rw [if_pos rfl, hverdict]
        rfl
      | allow =>
        have hverdict : result.verdict = some (false, result.toolCall) := by
          rw [GuardrailResult.verdict, hdecision]
        rw [if_neg (by decide), if_neg (by decide), ih current result hverdict, hverdict]
        rfl
      | modify =>
        have hverdict : result.verdict = some (true, result.toolCall) := by
          rw [GuardrailResult.verdict, hdecision]
        rw [if_neg (by decide), if_pos rfl, ih result.toolCall result hverdict, hverdict]
        rfl

theorem verdict_compose (guardrails : List Check) (call : ToolCall) (context : Payload) :
    (compose guardrails call (some context)).verdict =
      Rule.lastSays (guardrails.map fun guardrail => guardrail.verdict context) call (false, call) :=
  verdict_composeFrom context guardrails call _ rfl

/-! ## Compositions -/

namespace Guard

variable (context : Payload)

def verdict (guard : Guard) : Rule ToolCall := guard.toCheck.verdict context

def rules (guard : Guard) : List (Rule ToolCall) := guard.leaves.map fun guardrail => guardrail.toCheck.verdict context

/-- A composition denies where one of its members does, and otherwise reports a modification where one has made one,
with the call that all have made. -/
def Composes (rules : List (Rule ToolCall)) (call : ToolCall) (verdict : Option (Bool × ToolCall)) : Prop :=
  (verdict = none ↔ Rule.Somewhere Rule.Refuses rules call) ∧
    ∀ modified call', verdict = some (modified, call') →
      (modified = true ↔ Rule.Somewhere Rule.Changes rules call) ∧ call' = Rule.piped rules call

mutual

/-- This composition, and each of those inside it that runs, does what is asked of it. -/
def Faithful : Guard → ToolCall → Prop
  | rule _, _ => True
  | composed guards, call =>
    FaithfulAll guards call ∧ Composes ((composed guards).rules context) call ((composed guards).verdict context call)

def FaithfulAll : List Guard → ToolCall → Prop
  | [], _ => True
  | guard :: guards, call =>
    guard.Faithful call ∧
      ∀ v, guard.verdict context call = some v → FaithfulAll guards (if v.1 then v.2 else call)

end

mutual

/-- One guardrail denies, none modifies, or one in the last member does, and so inside. -/
def EndsWell : Guard → ToolCall → Prop
  | rule _, _ => True
  | composed guards, call =>
    EndsWellAll guards call ∧ Rule.EndsWell (guards.map fun guard => Rule.all (guard.rules context)) call

def EndsWellAll : List Guard → ToolCall → Prop
  | [], _ => True
  | guard :: guards, call =>
    guard.EndsWell call ∧ ∀ v, Rule.all (guard.rules context) call = some v → EndsWellAll guards v.2

end

theorem toChecks_eq (guards : List Guard) : toChecks guards = guards.map toCheck := by
  induction guards with
  | nil => rfl
  | cons guard guards ih => rw [toChecks, ih, List.map_cons]

theorem leavesAll_eq (guards : List Guard) : leavesAll guards = guards.flatMap leaves := by
  induction guards with
  | nil => rfl
  | cons guard guards ih => rw [leavesAll, ih, List.flatMap_cons]

theorem lawful_rules (guard : Guard) : ∀ r ∈ guard.rules context, r.Lawful := by
  intro r hr
  obtain ⟨guardrail, -, rfl⟩ := List.mem_map.1 hr
  exact guardrail.lawful context

theorem all_rules_rule (guardrail : ToolGuardrail) :
    Rule.all ((rule guardrail).rules context) = guardrail.toCheck.verdict context :=
  Rule.andThen_pass

/-- Bracketing does not change what the guardrails do. -/
theorem all_rules_composed (guards : List Guard) : Rule.all ((composed guards).rules context) =
    Rule.all (guards.map fun guard => Rule.all (guard.rules context)) := by
  rw [← Rule.all_flatMap, rules, leaves, leavesAll_eq, List.map_flatMap]
  rfl

theorem verdict_composed (guards : List Guard) (call : ToolCall) : (composed guards).verdict context call =
    Rule.lastSays (guards.map fun guard => guard.verdict context) call (false, call) := by
  have h := verdict_compose (toChecks guards) call context
  rw [toChecks_eq, List.map_map] at h
  rw [verdict, toCheck, Check.verdict, toChecks_eq]
  exact h

variable {context}

theorem composes_iff (guard : Guard) (call : ToolCall) (v : Option (Bool × ToolCall)) :
    Composes (guard.rules context) call v ↔ v = Rule.all (guard.rules context) call :=
  (Rule.all_iff (lawful_rules context guard) v).symm

theorem Faithful.verdict_eq {guard : Guard} {call : ToolCall} (h : guard.Faithful context call) :
    guard.verdict context call = Rule.all (guard.rules context) call := by
  cases guard with
  | rule guardrail => rw [all_rules_rule]; rfl
  | composed guards =>
    rw [Faithful] at h
    exact (composes_iff _ _ _).1 h.2

theorem handed (guard : Guard) {call : ToolCall} {v : Bool × ToolCall}
    (h : Rule.all (guard.rules context) call = some v) : (if v.1 then v.2 else call) = v.2 :=
  (Rule.lawful_all (lawful_rules context guard)).handed h

theorem FaithfulAll.agree {guards : List Guard} {call : ToolCall} (h : FaithfulAll context guards call) :
    Rule.Agree (guards.map fun guard => guard.verdict context) (guards.map fun guard => Rule.all (guard.rules context))
      call := by
  induction guards generalizing call with
  | nil => trivial
  | cons guard guards ih =>
    rw [FaithfulAll] at h
    refine ⟨h.1.verdict_eq, fun v hv => ih ?_⟩
    have hnext := h.2 v (h.1.verdict_eq.trans hv)
    rwa [handed guard hv] at hnext

mutual

theorem faithful_iff : ∀ (guard : Guard) (call : ToolCall), guard.Faithful context call ↔ guard.EndsWell context call
  | rule _, _ => by rw [Faithful, EndsWell]
  | composed guards, call => by
    have hlawful : ∀ r ∈ guards.map fun guard => Rule.all (guard.rules context), r.Lawful := by
      intro r hr
      obtain ⟨guard, -, rfl⟩ := List.mem_map.1 hr
      exact Rule.lawful_all (lawful_rules context guard)
    rw [Faithful, EndsWell, composes_iff, ← faithfulAll_iff guards call, verdict_composed, all_rules_composed]
    refine and_congr_right fun h => ?_
    rw [h.agree.lastSays_eq hlawful, Rule.lastSays_eq_all_iff hlawful]

theorem faithfulAll_iff : ∀ (guards : List Guard) (call : ToolCall),
    FaithfulAll context guards call ↔ EndsWellAll context guards call
  | [], _ => by rw [FaithfulAll, EndsWellAll]
  | guard :: guards, call => by
    rw [FaithfulAll, EndsWellAll, ← faithful_iff guard call]
    refine and_congr_right fun h => forall_congr' fun v => ?_
    rw [h.verdict_eq]
    refine imp_congr_right fun hv => ?_
    rw [handed guard hv, faithfulAll_iff guards v.2]

end

/-- Two compositions of the same guardrails are right, and say the same, if and only if both end well. -/
theorem composition_faithful_iff (context : Payload) (guard guard' : Guard) (call : ToolCall)
    (h : guard.leaves = guard'.leaves) :
    (guard.Faithful context call ∧ guard'.Faithful context call ∧
        guard.verdict context call = guard'.verdict context call) ↔
      guard.EndsWell context call ∧ guard'.EndsWell context call := by
  rw [← faithful_iff, ← faithful_iff]
  constructor
  · rintro ⟨hfaithful, hfaithful', -⟩
    exact ⟨hfaithful, hfaithful'⟩
  · rintro ⟨hfaithful, hfaithful'⟩
    have hrules : guard.rules context = guard'.rules context := by
      rw [rules, h, rules]
    exact ⟨hfaithful, hfaithful', by rw [hfaithful.verdict_eq, hfaithful'.verdict_eq, hrules]⟩

/-- A guardrail that takes the arguments away, and one that only looks. -/
def mask : ToolGuardrail where
  check call _ := .ok <|
    if call.arguments.isEmpty then { decision := .allow, toolCall := call }
    else { decision := .modify, toolCall := { call with arguments := [] } }
  carries call _ result h hallow := by
    cases h
    split at hallow
    · rename_i hempty
      rw [if_pos hempty]
    · cases hallow

def look : ToolGuardrail where
  check call _ := .ok { decision := .allow, toolCall := call }
  carries call _ result h _ := by
    cases h
    rfl

def secretCall : ToolCall := ⟨"c1", "search", [("q", .str "my secret")]⟩

/-- The guardrail that modifies stands last, with and without a composition of its own. -/
theorem composition_faithful_iff_mask :
    (composed [rule look, rule mask]).verdict [] secretCall =
      (composed [rule look, composed [rule mask]]).verdict [] secretCall := by
  have hflat : (composed [rule look, rule mask]).EndsWell [] secretCall := by
    refine ⟨⟨trivial, fun v _ => ⟨trivial, fun _ _ => trivial⟩⟩, .inr (.inr ?_)⟩
    exact ⟨[_], _, rfl, _, rfl⟩
  have hnested : (composed [rule look, composed [rule mask]]).EndsWell [] secretCall := by
    refine ⟨⟨trivial, fun v hv => ⟨⟨⟨trivial, fun _ _ => trivial⟩, .inr (.inr ?_)⟩, fun _ _ => trivial⟩⟩, .inr (.inr ?_)⟩
    · cases hv
      exact ⟨[], _, rfl, _, rfl⟩
    · exact ⟨[_], _, rfl, _, rfl⟩
  have hleaves : (composed [rule look, rule mask]).leaves = (composed [rule look, composed [rule mask]]).leaves := rfl
  exact ((composition_faithful_iff [] _ _ secretCall hleaves).2 ⟨hflat, hnested⟩).2.2

/-- The modification of an inner composition is not reported, and so it is lost. -/
theorem modification_lost :
    let flat := composed [rule mask, rule look, rule look]
    let nested := composed [composed [rule mask, rule look], rule look]
    nested.leaves = flat.leaves ∧ flat.verdict [] secretCall = some (false, { secretCall with arguments := [] }) ∧
      nested.verdict [] secretCall = some (false, secretCall) ∧ ¬ flat.Faithful [] secretCall := by
  intro flat nested
  refine ⟨rfl, rfl, rfl, fun h => ?_⟩
  have hreported := h.verdict_eq
  have hall : Rule.all (flat.rules []) secretCall = some (true, { secretCall with arguments := [] }) := rfl
  rw [hall, show flat.verdict [] secretCall = some (false, { secretCall with arguments := [] }) from rfl,
    Option.some.injEq, Prod.mk.injEq] at hreported
  exact Bool.false_ne_true hreported.1

end Guard

end Wiii.Guardrails
