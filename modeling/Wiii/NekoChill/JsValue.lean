import Mathlib.Algebra.Group.Int.Defs
import Mathlib.Algebra.GroupWithZero.Nat
import Mathlib.Tactic.Common

/-!
# Strings and values of JavaScript

A string is a list of UTF-16 code units, which need not be paired.  A value is what a reader of persisted or
received data can be given; of the numbers that are no integers no two are told apart.
-/

namespace Wiii.NekoChill

/-- A string in UTF-16 code units. -/
abbrev JsText := List UInt16

/-- The code units that `trim` removes. -/
def isJsSpace (unit : UInt16) : Bool :=
  decide (unit ∈ [9, 10, 11, 12, 13, 32, 0xA0, 0x1680, 0x2028, 0x2029, 0x202F, 0x205F, 0x3000, 0xFEFF]) ||
    decide (0x2000 ≤ unit ∧ unit ≤ 0x200A)

def isBlank (text : JsText) : Bool := text.all isJsSpace

/-- `trim` -/
def trimText (text : JsText) : JsText := ((text.dropWhile isJsSpace).reverse.dropWhile isJsSpace).reverse

/-- `/[\u0000-\u001f\u007f]/` -/
def isControl (unit : UInt16) : Bool := decide (unit ≤ 0x1F) || decide (unit = 0x7F)

def isHighSurrogate (unit : UInt16) : Bool := decide (0xD800 ≤ unit ∧ unit ≤ 0xDBFF)

def isLowSurrogate (unit : UInt16) : Bool := decide (0xDC00 ≤ unit ∧ unit ≤ 0xDFFF)

/-- The length of `TextEncoder.encode`; a surrogate without its pair is encoded as U+FFFD. -/
def utf8Length : JsText → ℕ
  | [] => 0
  | [unit] => if unit < 0x80 then 1 else if unit < 0x800 then 2 else 3
  | unit :: next :: rest =>
    if isHighSurrogate unit && isLowSurrogate next then utf8Length rest + 4
    else utf8Length (next :: rest) + if unit < 0x80 then 1 else if unit < 0x800 then 2 else 3

/-- A literal of the source. -/
def js (s : String) : JsText := s.toList.map fun c => c.toNat.toUInt16

/-- What is checked of every text: `text` and `validText`. -/
def isText (maxBytes : ℕ) (text : JsText) : Bool :=
  !isBlank text && decide (text.length ≤ maxBytes) && !text.any isControl && decide (utf8Length text ≤ maxBytes)

inductive JsValue where
  | undefined
  | null
  | bool (b : Bool)
  | number (n : ℤ)
  | fraction
  | string (text : JsText)
  | array (items : List JsValue)
  | object (fields : List (String × JsValue))

namespace JsValue

def isNull : JsValue → Bool
  | null => true
  | _ => false

def isUndefined : JsValue → Bool
  | undefined => true
  | _ => false

def isNumber (n : ℤ) : JsValue → Bool
  | number m => decide (m = n)
  | _ => false

def isString (s : String) : JsValue → Bool
  | string text => decide (text = js s)
  | _ => false

/-- `own`: a data property of an object that is no array. -/
def own (value : JsValue) (key : String) : JsValue :=
  match value with
  | object fields => (fields.lookup key).getD undefined
  | _ => undefined

def readText (maxBytes : ℕ) : JsValue → Option JsText
  | string text => if isText maxBytes text then some text else none
  | _ => none

theorem readText_eq_some {maxBytes : ℕ} {value : JsValue} {text : JsText} (h : value.readText maxBytes = some text) :
    isText maxBytes text = true := by
  unfold readText at h
  split at h
  · split at h
    · cases h
      assumption
    · cases h
  · cases h

theorem readText_string {maxBytes : ℕ} {text : JsText} (h : isText maxBytes text = true) :
    (string text).readText maxBytes = some text := if_pos h

theorem isString_self (s : String) : (string (js s)).isString s = true := decide_eq_true rfl

end JsValue

end Wiii.NekoChill
