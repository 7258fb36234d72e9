import Mathlib.Data.Rat.Defs
import Wiii.NekoChill.JsValue

/-!
# Data that is written as JSON

An object of the program that is saved is a tree of data; a property that is `undefined` is absent.  JSON has no
number that is not finite and writes `null` for it, so a value is read back as it was written exactly when every
number of it is finite (`jsonRoundTrip_eq_self`).
-/

namespace Wiii.NekoChill

/-- A number of JavaScript; the two zeros are not told apart. -/
inductive JsNumber where
  | finite (value : ℚ)
  | infinity (negative : Bool)
  | nan
  deriving DecidableEq

namespace JsNumber

def isFinite : JsNumber → Bool
  | finite _ => true
  | _ => false

def isInteger : JsNumber → Bool
  | finite value => decide (value.den = 1)
  | _ => false

/-- `Number.isSafeInteger` -/
def isSafeInteger : JsNumber → Bool
  | finite value => decide (value.den = 1) && decide (-(2 ^ 53 : ℤ) < value.num) && decide (value.num < 2 ^ 53)
  | _ => false

def ofNat (n : ℕ) : JsNumber := finite n

end JsNumber

inductive JsData where
  | null
  | bool (b : Bool)
  | number (n : JsNumber)
  | text (units : JsText)
  | list (items : List JsData)
  | record (fields : List (String × JsData))

namespace JsData

/-! ## JSON -/

mutual

/-- What `JSON.parse` gives of what `JSON.stringify` wrote. -/
def jsonRoundTrip : JsData → JsData
  | number n => if n.isFinite then number n else null
  | list items => list (jsonItems items)
  | record fields => record (jsonFields fields)
  | data => data

def jsonItems : List JsData → List JsData
  | [] => []
  | item :: items => item.jsonRoundTrip :: jsonItems items

def jsonFields : List (String × JsData) → List (String × JsData)
  | [] => []
  | (key, value) :: fields => (key, value.jsonRoundTrip) :: jsonFields fields

end

/-! ## Reading -/

/-- A property; `none` where it is undefined. -/
def get (key : String) : JsData → Option JsData
  | record fields => fields.lookup key
  | _ => none

def isRecord : JsData → Bool
  | record _ => true
  | _ => false

end JsData

open JsData

/-! ## The type of a property -/

def isTextValue : Option JsData → Bool
  | some (.text _) => true
  | _ => false

def isNamed : Option JsData → Bool
  | some (.text units) => !units.isEmpty
  | _ => false

def isTextOrNull : Option JsData → Bool
  | some (.text _) | some .null => true
  | _ => false

def isBoolean : Option JsData → Bool
  | some (.bool _) => true
  | _ => false

def isNumberValue : Option JsData → Bool
  | some (.number _) => true
  | _ => false

def isFiniteNumber : Option JsData → Bool
  | some (.number n) => n.isFinite
  | _ => false

def isOneOf (names : List String) : Option JsData → Bool
  | some (.text units) => (names.map js).contains units
  | _ => false

/-- The property is undefined, or passes the check. -/
def isAbsentOr (check : Option JsData → Bool) : Option JsData → Bool
  | none => true
  | value => check value

def isListOf (check : JsData → Bool) : Option JsData → Bool
  | some (.list items) => items.all check
  | _ => false

def optional (key : String) (value : Option JsData) : List (String × JsData) :=
  (value.map fun value => (key, value)).toList

end Wiii.NekoChill
