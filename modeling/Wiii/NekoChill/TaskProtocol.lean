import Wiii.NekoChill.JsValue

/-!
# Roots and receipts of the task protocol

A root is compared under the platform of the root it is compared with (`canonicalRootsEqual`): the relation is reflexive
and transitive but not symmetric.  A receipt is read from any value (`receiptValue`), and one that was read is read
again as it is.  `lower` stands for `toLowerCase`.
-/

namespace Wiii.NekoChill

/-! ## Roots -/

def backslash : UInt16 := 0x5C

def slash : UInt16 := 0x2F

def isSeparator (unit : UInt16) : Bool := decide (unit = backslash) || decide (unit = slash)

def isLetter (unit : UInt16) : Bool :=
  decide (0x41 ≤ unit ∧ unit ≤ 0x5A) || decide (0x61 ≤ unit ∧ unit ≤ 0x7A)

/-- `/^[a-z]:[\\/]/i` -/
def isDriveRoot : JsText → Bool
  | letter :: colon :: separator :: _ => isLetter letter && decide (colon = 0x3A) && isSeparator separator
  | _ => false

/-- `/^\\\\[^\\/]+[\\/][^\\/]+/` -/
def isUncRoot : JsText → Bool
  | a :: b :: rest =>
    decide (a = backslash) && decide (b = backslash) && match rest.span fun unit => !isSeparator unit with
      | (_ :: _, _ :: share :: _) => !isSeparator share
      | _ => false
  | _ => false

/-- `/^(?:[A-Za-z]:[\\/]|\\\\[^\\]+\\[^\\]+(?:\\|$)|\/)/` -/
def isAbsoluteWorkspacePath : JsText → Bool
  | path => isDriveRoot path || decide (path.head? = some slash) || match path with
    | a :: b :: rest =>
      decide (a = backslash) && decide (b = backslash) &&
        match rest.span fun unit => decide (unit ≠ backslash) with
        | (_ :: _, _ :: share :: _) => decide (share ≠ backslash)
        | _ => false
    | _ => false

/-- `/^\\\\\?\\/`, and with `UNC\` after it, whatever its case. -/
def withoutWindowsVerbatimPrefix (root : JsText) : JsText :=
  match root with
  | 0x5C :: 0x5C :: 0x3F :: 0x5C :: rest =>
    match rest with
    | u :: n :: c :: 0x5C :: share =>
      if u ∈ [0x55, 0x75] ∧ n ∈ [0x4E, 0x6E] ∧ c ∈ [0x43, 0x63] then backslash :: backslash :: share else rest
    | _ => rest
  | _ => root

def looksLikeCanonicalWindowsRoot (root : JsText) : Bool :=
  isDriveRoot (withoutWindowsVerbatimPrefix root) || isUncRoot (withoutWindowsVerbatimPrefix root)

def trimBackslashes (path : JsText) : JsText := (path.reverse.dropWhile fun unit => decide (unit = backslash)).reverse

inductive Platform where
  | windows
  | posix

section

variable (lower : JsText → JsText)

def canonicalRootIdentity (root : JsText) : Platform → JsText
  | .posix => root
  | .windows =>
    let plain := (withoutWindowsVerbatimPrefix root).map fun unit => if unit = slash then backslash else unit
    if !looksLikeCanonicalWindowsRoot plain then root
    else
      let folded := lower plain
      match folded with
      | letter :: 0x3A :: 0x5C :: rest =>
        if (0x61 ≤ letter ∧ letter ≤ 0x7A) ∧ rest.all fun unit => decide (unit = backslash) then
          [letter, 0x3A, backslash]
        else trimBackslashes folded
      | _ => trimBackslashes folded

def platformOf (root : JsText) : Platform := if looksLikeCanonicalWindowsRoot root then .windows else .posix

def canonicalRootsEqual (root authorizedRoot : JsText) : Bool :=
  decide (canonicalRootIdentity lower root (platformOf authorizedRoot) =
    canonicalRootIdentity lower authorizedRoot (platformOf authorizedRoot))

variable {lower} {a b c : JsText}

@[simp] theorem canonicalRootsEqual_refl (a : JsText) : canonicalRootsEqual lower a a = true := decide_eq_true rfl

theorem eq_of_canonicalRootsEqual (h : canonicalRootsEqual lower a b = true)
    (hposix : looksLikeCanonicalWindowsRoot b = false) : a = b := by
  have h := of_decide_eq_true h
  rwa [platformOf, hposix] at h

theorem canonicalRootsEqual_trans (hab : canonicalRootsEqual lower a b = true)
    (hbc : canonicalRootsEqual lower b c = true) : canonicalRootsEqual lower a c = true := by
  cases hb : looksLikeCanonicalWindowsRoot b with
  | false => rwa [eq_of_canonicalRootsEqual hab hb]
  | true =>
    cases hc : looksLikeCanonicalWindowsRoot c with
    | false =>
      rw [eq_of_canonicalRootsEqual hbc hc, hc] at hb
      cases hb
    | true =>
      have hab := of_decide_eq_true hab
      have hbc := of_decide_eq_true hbc
      simp only [platformOf, hb, hc] at hab hbc
      refine decide_eq_true ?_
      rw [platformOf, hc]
      exact hab.trans hbc

end

/-- `\\srv\share` is equal to none but itself under POSIX; `//srv/share` equals it under Windows. -/
example : canonicalRootsEqual id (js "//srv/share") (js "\\\\srv\\share") = true ∧
    canonicalRootsEqual id (js "\\\\srv\\share") (js "//srv/share") = false := by
  decide +kernel

/-! ## Receipts -/

def protocolMode : String := "fixed-active-task"

def maxSafeInteger : ℤ := 2 ^ 53 - 1

inductive NekoTaskProtocolFailure where
  | missingReceipt
  | invalidReceipt
  | identityCollision
  | invalidLabel
  | invalidSessionId
  | rootMismatch
  | taskMismatch
  | labelMismatch
  | activationMismatch
  | sessionMismatch
  deriving DecidableEq

inductive MappingFailure where
  | invalidHost
  | invalidMapping
  | invalidTransition
  | missingRootProof
  | rootMismatch
  | taskMismatch
  | activationMismatch
  deriving DecidableEq

/-- `NekoTaskProtocolError` and `NekoTaskMappingError`. -/
inductive TaskError where
  | protocol (reason : NekoTaskProtocolFailure)
  | mapping (reason : MappingFailure)
  deriving DecidableEq

structure NekoTaskReceipt where
  id : JsText
  label : JsText
  root : JsText
  activationEpoch : ℤ
  activationId : JsText
  deriving DecidableEq

def isEpoch (n : ℤ) : Bool := decide (0 < n ∧ n ≤ maxSafeInteger)

def readEpoch : JsValue → Option ℤ
  | .number n => if isEpoch n then some n else none
  | _ => none

def readReceipt (value : JsValue) : Option NekoTaskReceipt :=
  if (value.own "version").isNumber 1 && (value.own "mode").isString protocolMode then do
    let id ← (value.own "id").readText 256
    let label ← (value.own "label").readText 256
    let root ← (value.own "root").readText 32768
    let activationEpoch ← readEpoch (value.own "activationEpoch")
    let activationId ← (value.own "activationId").readText 256
    return ⟨id, label, root, activationEpoch, activationId⟩
  else none

/-- `validateNekoTaskReceipt` -/
def receiptValue (value : JsValue) : Except TaskError NekoTaskReceipt :=
  if value.isUndefined then .error (.protocol .missingReceipt)
  else match readReceipt value with
    | none => .error (.protocol .invalidReceipt)
    | some receipt =>
      if receipt.id = receipt.activationId then .error (.protocol .identityCollision) else .ok receipt

namespace NekoTaskReceipt

def toValue (receipt : NekoTaskReceipt) : JsValue := .object [
  ("version", .number 1), ("mode", .string (js protocolMode)), ("id", .string receipt.id),
  ("label", .string receipt.label), ("root", .string receipt.root),
  ("activationEpoch", .number receipt.activationEpoch), ("activationId", .string receipt.activationId)]

structure Ok (receipt : NekoTaskReceipt) : Prop where
  id : isText 256 receipt.id = true
  label : isText 256 receipt.label = true
  root : isText 32768 receipt.root = true
  activationEpoch : isEpoch receipt.activationEpoch = true
  activationId : isText 256 receipt.activationId = true
  distinct : receipt.id ≠ receipt.activationId

end NekoTaskReceipt

theorem readEpoch_eq_some {value : JsValue} {n : ℤ} (h : readEpoch value = some n) : isEpoch n = true := by
  unfold readEpoch at h
  split at h
  · split at h
    · cases h
      assumption
    · cases h
  · cases h

theorem receiptValue_eq_ok {value : JsValue} {receipt : NekoTaskReceipt} (h : receiptValue value = .ok receipt) :
    receipt.Ok := by
  unfold receiptValue at h
  split at h
  · cases h
  · split at h
    · cases h
    · rename_i read hread
      split at h
      · cases h
      · rename_i hne
        cases h
        unfold readReceipt at hread
        split at hread
        · simp only [Option.bind_eq_bind, Option.bind_eq_some_iff, Option.pure_def, Option.some.injEq] at hread
          obtain ⟨id, hid, label, hlabel, root, hroot, activationEpoch, hepoch, activationId, hactivation, rfl⟩ := hread
          exact ⟨JsValue.readText_eq_some hid, JsValue.readText_eq_some hlabel, JsValue.readText_eq_some hroot,
            readEpoch_eq_some hepoch, JsValue.readText_eq_some hactivation, hne⟩
        · cases hread

theorem receiptValue_toValue {receipt : NekoTaskReceipt} (h : receipt.Ok) : receiptValue receipt.toValue = .ok receipt := by
  have hread : readReceipt receipt.toValue = some receipt := by
    have hid : (receipt.toValue.own "id").readText 256 = some receipt.id := JsValue.readText_string h.id
    have hlabel : (receipt.toValue.own "label").readText 256 = some receipt.label := JsValue.readText_string h.label
    have hroot : (receipt.toValue.own "root").readText 32768 = some receipt.root := JsValue.readText_string h.root
    have hepoch : readEpoch (receipt.toValue.own "activationEpoch") = some receipt.activationEpoch :=
      if_pos h.activationEpoch
    have hactivation : (receipt.toValue.own "activationId").readText 256 = some receipt.activationId :=
      JsValue.readText_string h.activationId
    have hguard : ((receipt.toValue.own "version").isNumber 1 &&
        (receipt.toValue.own "mode").isString protocolMode) = true := by
      rw [Bool.and_eq_true]
      exact ⟨rfl, JsValue.isString_self protocolMode⟩
    unfold readReceipt
    rw [if_pos hguard, hid, hlabel, hroot, hepoch, hactivation]
    rfl
  rw [receiptValue, hread]
  exact if_neg h.distinct

/-! ## Receipts of a running task -/

def parseNekoTaskReceipt (envelope : JsValue) : Except TaskError NekoTaskReceipt :=
  receiptValue ((envelope.own "_meta").own "neko.task")

section

variable (lower : JsText → JsText)

def assertNekoTaskCurrentReceipt (envelope : JsValue) (expected : NekoTaskReceipt) :
    Except TaskError NekoTaskReceipt := do
  let current ← receiptValue expected.toValue
  let receipt ← parseNekoTaskReceipt envelope
  if !canonicalRootsEqual lower receipt.root current.root then .error (.protocol .rootMismatch)
  else if receipt.id ≠ current.id then .error (.protocol .taskMismatch)
  else if receipt.label ≠ current.label then .error (.protocol .labelMismatch)
  else if receipt.activationEpoch ≠ current.activationEpoch ∨ receipt.activationId ≠ current.activationId then
    .error (.protocol .activationMismatch)
  else .ok receipt

def sessionIdFrom (envelope : JsValue) (receipt : NekoTaskReceipt) : Except TaskError JsText :=
  match (envelope.own "sessionId").readText 256 with
  | none => .error (.protocol .invalidSessionId)
  | some sessionId =>
    if sessionId = receipt.id ∨ sessionId = receipt.activationId then .error (.protocol .identityCollision)
    else .ok sessionId

def assertNekoTaskEventBinding (params : JsValue) (expectedSessionId : JsText) (expected : NekoTaskReceipt) :
    Except TaskError NekoTaskReceipt := do
  let receipt ← assertNekoTaskCurrentReceipt lower params expected
  let sessionId ← sessionIdFrom params receipt
  if !isText 256 expectedSessionId ∨ sessionId ≠ expectedSessionId then .error (.protocol .sessionMismatch)
  else .ok receipt

end

/-- `/^\/task\s+(new|use)(?:\s|$)/`, and nothing without a task. -/
def isFixedTaskCommand (text : JsText) (fixedLane : Bool) : Bool :=
  fixedLane && match trimText text with
    | 0x2F :: 0x74 :: 0x61 :: 0x73 :: 0x6B :: space :: rest =>
      isJsSpace space && match rest.dropWhile isJsSpace with
        | a :: b :: c :: after =>
          (decide ([a, b, c] = js "new") || decide ([a, b, c] = js "use")) && (after.head?.map isJsSpace).getD true
        | _ => false
    | _ => false

example : isFixedTaskCommand (js " /task  new x") true = true ∧ isFixedTaskCommand (js "/task newer") true = false := by
  decide +kernel

end Wiii.NekoChill
