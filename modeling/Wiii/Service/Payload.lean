import Wiii.Lib.PyText

/-!
# Payloads of session events

A payload is a dictionary of JSON values.  Before it is stored, and again when it is read, `sanitizePayload` cuts it to
bounded depth, number of items and length of texts, drops the keys that look like secrets, hashes user ids and replaces
what looks like a secret inside a text.
-/

namespace Wiii.Service

/-- A JSON value as Python has it; a floating point number is its bits. -/
inductive PyValue where
  | none
  | bool (b : Bool)
  | int (n : ℤ)
  | float (bits : BitVec 64)
  | str (s : String)
  | list (items : List PyValue)
  | dict (fields : List (String × PyValue))

instance : Inhabited PyValue := ⟨.none⟩

/-- A dictionary: its keys in the order in which they were set first. -/
abbrev Payload := List (String × PyValue)

namespace Payload

/-- `payload.get(key)`. -/
def get? (key : String) (payload : Payload) : Option PyValue := payload.lookup key

/-- `payload[key] = value`. -/
def set (key : String) (value : PyValue) : Payload → Payload
  | [] => [(key, value)]
  | (k, v) :: rest => if k = key then (k, value) :: rest else (k, v) :: set key value rest

@[simp] theorem get?_nil (key : String) : get? key [] = Option.none := rfl

theorem get?_cons (key k : String) (v : PyValue) (rest : Payload) :
    get? key ((k, v) :: rest) = if key = k then some v else get? key rest := by
  rw [get?, List.lookup_cons]
  by_cases h : key = k
  · rw [if_pos h, beq_iff_eq.2 h]
  · rw [if_neg h, beq_eq_false_iff_ne.2 h]
    rfl

@[simp] theorem get?_set (key key' : String) (value : PyValue) (payload : Payload) :
    get? key' (set key value payload) = if key' = key then some value else get? key' payload := by
  induction payload with
  | nil => rw [set, get?_cons]
  | cons field rest ih =>
    obtain ⟨k, v⟩ := field
    rw [set]
    by_cases hk : k = key
    · subst hk
      rw [if_pos rfl, get?_cons, get?_cons]
      split <;> rfl
    · rw [if_neg hk, get?_cons, get?_cons, ih]
      by_cases h : key' = k
      · subst h
        rw [if_pos rfl, if_neg hk, if_pos rfl]
      · rw [if_neg h, if_neg h]

end Payload

/-- What the payload functions call of Python and of the patterns for secrets. -/
structure Runtime where
  lowerTable : CaseTable
  /-- `_redact_secret_text`: the text, and how many parts were replaced. -/
  redactSecretText : String → String × ℕ
  /-- `hash_runtime_identifier`. -/
  hashRuntimeIdentifier : PyValue → Option String
  /-- `json.loads`, where it does not fail. -/
  loads : String → Option PyValue
  /-- `json.dumps` with sorted keys. -/
  dumps : PyValue → String
  /-- `int(value)`, where it does not fail. -/
  toInt : PyValue → Option ℤ
  /-- `str(value)`. -/
  toStr : PyValue → String

namespace Payload

def maxSanitizedDepth : ℕ := 8
def maxSanitizedItems : ℕ := 64
def maxSanitizedString : ℕ := 4000

def sensitiveKeyMarkers : List String :=
  ["access_token", "ak_secret", "api_key", "apikey", "approval_token", "authorization", "bearer", "client_secret",
    "connection_id", "connection_ref", "cookie", "credential", "external_account_ref", "image_base64", "page_id",
    "password", "private_key", "provider_payload", "raw_provider", "refresh_token", "secret", "token", "vault_ref"]

def controlKeys : List String := ["__proto__", "constructor", "prototype"]
def jsonStringKeys : List String := ["content", "result", "tool_result", "payload"]

def normalizeKey (lib : Runtime) (key : String) : String :=
  PyText.replace '.' '_' (PyText.replace '-' '_' (PyText.lower lib.lowerTable (PyText.strip key)))

def looksSensitiveKey (key : String) : Bool := sensitiveKeyMarkers.any (PyText.contains key)

def isSafePresenceFlag (key : String) : PyValue → Bool
  | .bool _ => key.endsWith "_present" || key.endsWith "_configured" || key.endsWith "_enabled"
  | _ => false

/-- `value in (None, "", [], {})`. -/
def isBlank : PyValue → Bool
  | .none => true
  | .str s => s.isEmpty
  | .list items => items.isEmpty
  | .dict fields => fields.isEmpty
  | _ => false

def parseJsonString (lib : Runtime) (value : String) : Option PyValue :=
  let text := PyText.strip value
  match text.toList with
  | '[' :: _ | '{' :: _ => lib.loads text
  | _ => Option.none

/-- `redact_runtime_secret_text`. -/
def redactRuntimeSecretText (lib : Runtime) (text : String) : String :=
  (lib.redactSecretText (PyText.take maxSanitizedString text)).1

def redactions (lib : Runtime) : PyValue → ℕ
  | .str s => (lib.redactSecretText (PyText.take maxSanitizedString s)).2
  | _ => 0

structure Cleaned where
  fields : Payload := []
  redacted : ℕ := 0

/-- What a text under a key that may hold JSON is parsed to. -/
def parsedItem (lib : Runtime) (key : String) : PyValue → Option PyValue
  | .str s => if key ∈ jsonStringKeys then parseJsonString lib s else Option.none
  | _ => Option.none

variable (lib : Runtime)

/-- One turn of the loop over the items; `sanitize` is the call one level down. -/
def cleanField (sanitize : PyValue → PyValue) (c : Cleaned) (field : String × PyValue) : Cleaned :=
  let (key, item) := field
  let normalized := normalizeKey lib key
  if normalized = "" ∨ normalized ∈ controlKeys then c
  else if normalized = "user_id" then
    match lib.hashRuntimeIdentifier item with
    | some hash => { c with fields := set "user_id_hash" (.str hash) c.fields }
    | Option.none => c
  else if normalized = "redacted_secret_count" then
    match lib.toInt item with
    | some n => { c with fields := set "redacted_secret_count" (.int n) c.fields }
    | Option.none => c
  else if looksSensitiveKey normalized then
    if isSafePresenceFlag normalized item then { c with fields := set key item c.fields }
    else if isBlank item then c
    else { c with redacted := c.redacted + 1 }
  else
    match parsedItem lib normalized item with
    | some parsed => { c with fields := set key (sanitize parsed) c.fields }
    | Option.none => ⟨set key (sanitize item) c.fields, c.redacted + redactions lib item⟩

/-- `int(fields.get("redacted_secret_count") or 0)`, of what was set there. -/
def redactedSecretCount (fields : Payload) : ℤ :=
  match get? "redacted_secret_count" fields with
  | some (.int n) => n
  | _ => 0

def Cleaned.done (c : Cleaned) : Payload :=
  if c.redacted = 0 then c.fields
  else set "redacted_secret_count" (.int (redactedSecretCount c.fields + c.redacted)) c.fields

def cleanDict (sanitize : PyValue → PyValue) (fields : Payload) : Payload :=
  ((fields.take maxSanitizedItems).foldl (cleanField lib sanitize) {}).done

/-- `sanitize_runtime_payload` with the levels that are left. -/
def sanitizeValue : ℕ → PyValue → PyValue
  | 0, _ => .str "<truncated>"
  | levels + 1, .dict fields => .dict (cleanDict lib (sanitizeValue levels) fields)
  | levels + 1, .list items => .list ((items.take maxSanitizedItems).map (sanitizeValue levels))
  | _ + 1, .str s => .str (redactRuntimeSecretText lib s)
  | _ + 1, value => value

/-- `sanitize_runtime_payload` of a dictionary, which gives one. -/
def sanitizePayload (fields : Payload) : Payload := cleanDict lib (sanitizeValue lib maxSanitizedDepth) fields

end Payload

end Wiii.Service
