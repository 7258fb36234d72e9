import Wiii.Lib.Json
import Mathlib.Data.List.Infix

/-!
# The durable payload check

`validatePayload` is the check that every control event passes before it is stored.  A flat object passes exactly when
its strings have at most 512 bytes and its encoding at most 4096 (`payloadValid_object`).
-/

namespace Wiii.Neko

def maxEventPayloadBytes : ℕ := 4 * 1024

def secretNeedles : List String :=
  ["authorization", "cookie", "credential", "password", "secret", "token", "apikey"]

/-- A field name in lower case, without `-` and `_`. -/
def normalizedKey (key : String) : List Char :=
  (key.toList.map Char.toLower).filter fun c => !(c = '-' || c = '_')

def isSecretKey (key : String) : Bool :=
  secretNeedles.any fun needle => decide (needle.toList <:+: normalizedKey key)

namespace Payload

mutual

def visit : Value → ℕ → Except String Unit
  | value, depth =>
    if depth > 4 then .error "Neko control event payload is too deeply nested"
    else match value with
      | .string s =>
        if s.utf8ByteSize > 512 then .error "Neko control event string exceeds the durable limit"
        else .ok ()
      | .array values =>
        if values.length > 32 then .error "Neko control event array exceeds the durable limit"
        else visitItems values (depth + 1)
      | .object values =>
        if values.length > 32 then .error "Neko control event object exceeds the durable limit"
        else visitFields values (depth + 1)
      | _ => .ok ()

def visitItems : List Value → ℕ → Except String Unit
  | [], _ => .ok ()
  | value :: values, depth =>
    match visit value depth with
    | .error error => .error error
    | .ok () => visitItems values depth

def visitFields : List (String × Value) → ℕ → Except String Unit
  | [], _ => .ok ()
  | (key, value) :: values, depth =>
    if isSecretKey key then .error "secret-like Neko control event fields are forbidden"
    else match visit value depth with
      | .error error => .error error
      | .ok () => visitFields values depth

end

end Payload

/-- The check of a control event's payload before it is stored. -/
def validatePayload (value : Value) : Except String Unit :=
  match Payload.visit value 0 with
  | .error error => .error error
  | .ok () =>
    if value.encodedLength > maxEventPayloadBytes then
      .error "Neko control event payload exceeds the durable limit"
    else .ok ()

def PayloadValid (value : Value) : Prop := validatePayload value = .ok ()

instance (value : Value) : Decidable (PayloadValid value) :=
  match h : validatePayload value with
  | .ok () => isTrue h
  | .error _ => isFalse (by simp [PayloadValid, h])

theorem payloadValid_iff (value : Value) :
    PayloadValid value ↔
      Payload.visit value 0 = .ok () ∧ value.encodedLength ≤ maxEventPayloadBytes := by
  unfold PayloadValid validatePayload
  cases Payload.visit value 0 with
  | error error => simp
  | ok _ =>
    by_cases h : value.encodedLength > maxEventPayloadBytes
    · simp [h]
    · simp [h, Nat.le_of_not_gt h]

/-! ## Flat objects -/

namespace Payload

theorem visit_scalar {value : Value} (h : value.IsScalar) {depth : ℕ} (hd : depth ≤ 4) :
    visit value depth = .ok () ↔ ∀ s, value = .string s → s.utf8ByteSize ≤ 512 := by
  have hd' : ¬ depth > 4 := Nat.not_lt.2 hd
  cases value with
  | string s =>
    unfold visit
    by_cases hs : s.utf8ByteSize > 512
    · simp [hd', hs, Nat.not_le.2 hs]
    · simp [hd', hs, Nat.le_of_not_gt hs]
  | array _ => exact h.elim
  | object _ => exact h.elim
  | null | bool _ | number _ => unfold visit; simp [hd']

theorem visitFields_flat {fields : List (String × Value)} {depth : ℕ} (hd : depth ≤ 4)
    (hf : ∀ f ∈ fields, isSecretKey f.1 = false ∧ f.2.IsScalar) :
    visitFields fields depth = .ok () ↔
      ∀ f ∈ fields, ∀ s, f.2 = .string s → s.utf8ByteSize ≤ 512 := by
  induction fields with
  | nil => simp [visitFields]
  | cons f fields ih =>
    obtain ⟨key, value⟩ := f
    obtain ⟨hk, hv⟩ := hf _ List.mem_cons_self
    have ih' := ih fun g hg => hf g (List.mem_cons_of_mem _ hg)
    have hvisit := visit_scalar hv hd
    rw [visitFields, if_neg (by simpa using hk), List.forall_mem_cons, ← hvisit, ← ih']
    cases visit value depth <;> simp

end Payload

theorem payloadValid_object {fields : List (String × Value)} (hlen : fields.length ≤ 32)
    (hf : ∀ f ∈ fields, isSecretKey f.1 = false ∧ f.2.IsScalar) :
    PayloadValid (.object fields) ↔
      (∀ f ∈ fields, ∀ s, f.2 = .string s → s.utf8ByteSize ≤ 512) ∧
        (Value.object fields).encodedLength ≤ maxEventPayloadBytes := by
  rw [payloadValid_iff, ← Payload.visitFields_flat (show 1 ≤ 4 by decide) hf]
  unfold Payload.visit
  simp [Nat.not_lt.2 hlen]

end Wiii.Neko
