import Mathlib.Data.List.Sort
import Wiii.Lib.Except
import Wiii.Lib.Json
import Wiii.Neko.Signal.Platform

/-!
# Work Plane transactions

The request and the result of a Work Plane transaction, and the check of a resource reference.
-/

namespace Wiii.Neko.Computer

structure WorkPlaneTransactionRequest where
  requestId : String
  environmentId : String
  projectId : String
  capabilityId : String
  capabilityVersion : String
  targetRef : String
  ifRevision : String
  input : Value
  deriving DecidableEq

inductive WorkTransactionOutcome where
  | completed
  | rejected
  deriving DecidableEq

structure WorkChange where
  resourceRef : String
  kind : String
  beforeRevision : Option String
  afterRevision : Option String
  deriving DecidableEq

structure WorkPlaneTransactionResult where
  protocolVersion : String
  outcome : WorkTransactionOutcome
  code : Option String
  detail : String
  capabilityId : String
  targetRef : String
  beforeRevision : String
  afterRevision : String
  changes : List WorkChange
  evidence : List String
  reversible : Bool
  recovery : Option String
  deriving DecidableEq

/-! ## Validation -/

/-- `char::is_whitespace`. -/
def isWhitespace (c : Char) : Bool :=
  (0x9 ≤ c.toNat && c.toNat ≤ 0xd) || (0x2000 ≤ c.toNat && c.toNat ≤ 0x200a) ||
    decide (c.toNat ∈ [0x20, 0x85, 0xa0, 0x1680, 0x2028, 0x2029, 0x202f, 0x205f, 0x3000])

def startsWith (text value : String) : Bool := text.toList.isPrefixOf value.toList

namespace WorkPlane

def validateResourceRef (value : String) : Except String Unit :=
  if value = "work:project" ∨ (startsWith "work:file:" value && decide (value.utf8ByteSize ≤ 512) &&
      (value.toList.drop 10).all fun c => c.isAlphanum || c = '-' || c = '_') = true then .ok ()
  else .error "Work Plane resourceRef is invalid"

end WorkPlane

end Wiii.Neko.Computer
