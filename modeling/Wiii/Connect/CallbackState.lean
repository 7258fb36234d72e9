import Mathlib
import Wiii.Connect.Records
import Wiii.Lib.Base64
import Wiii.Service.Payload

/-!
# Signed callback states

A state is made when a connection is started, and verified when the provider calls back: a payload and its signature,
both in URL-safe base64.  Whatever is presented is split and its signature is compared before anything of it is read.
-/

namespace Wiii.Connect

open Service (Payload PyValue)

structure StateCall where
  providerSlug : String
  organizationId : String
  userId : String
  issuedAt : ℤ
  nonce : String
  deriving DecidableEq

inductive StateReason where
  | missingState
  | stateSecretMissing
  | invalidStateFormat
  | invalidStateSignature
  | invalidStatePayload
  | stateProviderMismatch
  | invalidStateTime
  | stateExpired
  | stateUserMissing
  | valid
  deriving DecidableEq

/-- `WiiiConnectCallbackStateClaims`. -/
structure CallbackClaims where
  valid : Bool := false
  reason : StateReason := .missingState
  providerSlug : String := ""
  organizationId : String := ""
  userId : String := ""
  issuedAt : ℤ := 0
  deriving DecidableEq

inductive StateError where
  /-- A text is not ASCII that is to be encoded as ASCII. -/
  | unicodeEncode
  /-- `compare_digest` was given a text that is not ASCII. -/
  | typeError
  /-- The payload has no `get`. -/
  | attributeError
  deriving DecidableEq

/-- The functions of the language and of its libraries that a state is made and verified with. -/
structure StateLibrary where
  lowerTable : CaseTable
  /-- `hmac.new(secret, message, sha256).digest()`. -/
  hmac : List UInt8 → List UInt8 → List UInt8
  /-- `json.dumps`, with sorted keys, in UTF-8. -/
  dumps : Payload → List UInt8
  /-- `json.loads` of bytes in UTF-8. -/
  loads : List UInt8 → Option PyValue
  /-- `urlsafe_b64decode` with the padding put in. -/
  b64decode : List Char → Option (List UInt8)
  /-- `str(value or "")` of a value that is no string. -/
  str : PyValue → String
  /-- `int` of a value that is no integer, where it gives one. -/
  int : PyValue → Option ℤ

def isAscii (text : List Char) : Bool := text.all fun c => decide (c.toNat < 128)

def asciiBytes (text : List Char) : List UInt8 := text.map fun c => UInt8.ofNat c.toNat

def payloadPart (text : String) : List Char := text.toList.takeWhile (· ≠ '.')

def signaturePart (text : String) : List Char := (text.toList.dropWhile (· ≠ '.')).drop 1

namespace StateLibrary

variable (L : StateLibrary)

def normalizeSlug (value : String) : String := normalizeProviderSlug L.lowerTable value

/-- `str(value or "")`. -/
def textOf : Option PyValue → String
  | none => ""
  | some (.str text) => text
  | some value => L.str value

/-- `_safe_int`. -/
def safeInt : Option PyValue → ℤ
  | some (.int n) => n
  | some value => (L.int value).getD 0
  | none => 0

/-- The payload of a state, with its keys in order. -/
def statePayload (call : StateCall) : Payload :=
  [("iat", .int call.issuedAt), ("n", .str call.nonce), ("o", .str (PyText.strip call.organizationId)),
    ("p", .str (L.normalizeSlug call.providerSlug)), ("u", .str (PyText.strip call.userId)), ("v", .int 1)]

def payloadText (call : StateCall) : List Char := Base64.encode (L.dumps (L.statePayload call))

def signature (payload : List Char) (secret : String) : List Char :=
  Base64.encode (L.hmac secret.toUTF8.data.toList (asciiBytes payload))

/-- `build_wiii_connect_callback_state`. -/
def buildCallbackState (call : StateCall) (secret : String) : String :=
  if secret = "" then ""
  else if L.normalizeSlug call.providerSlug = "" ∨ PyText.strip call.userId = "" then ""
  else String.ofList (L.payloadText call ++ '.' :: L.signature (L.payloadText call) secret)

def readPayload (fields : Payload) (provider : String) (now maxAge : ℤ) : CallbackClaims :=
  let callbackProvider := L.normalizeSlug (L.textOf (fields.get? "p"))
  let issuedAt := L.safeInt (fields.get? "iat")
  let userId := PyText.strip (L.textOf (fields.get? "u"))
  if callbackProvider ≠ L.normalizeSlug provider then
    { reason := .stateProviderMismatch, providerSlug := callbackProvider }
  else if issuedAt = 0 ∨ now + 60 < issuedAt then { reason := .invalidStateTime, providerSlug := callbackProvider }
  else if maxAge < now - issuedAt then
    { reason := .stateExpired, providerSlug := callbackProvider, issuedAt := issuedAt }
  else if userId = "" then { reason := .stateUserMissing, providerSlug := callbackProvider, issuedAt := issuedAt }
  else
    { valid := true
      reason := .valid
      providerSlug := callbackProvider
      organizationId := PyText.strip (L.textOf (fields.get? "o"))
      userId := userId
      issuedAt := issuedAt }

/-- `verify_wiii_connect_callback_state`. -/
def verifyCallbackState (state : Option String) (provider secret : String) (now maxAge : ℤ) :
    Except StateError CallbackClaims :=
  let text := PyText.strip (state.getD "")
  if text = "" then .ok { reason := .missingState }
  else if secret = "" then .ok { reason := .stateSecretMissing }
  else if '.' ∉ text.toList then .ok { reason := .invalidStateFormat }
  else if isAscii (payloadPart text) = false then .error .unicodeEncode
  else if isAscii (signaturePart text) = false then .error .typeError
  else if signaturePart text ≠ L.signature (payloadPart text) secret then .ok { reason := .invalidStateSignature }
  else
    match (L.b64decode (payloadPart text)).bind L.loads with
    | none => .ok { reason := .invalidStatePayload }
    | some (.dict fields) => .ok (L.readPayload fields provider now maxAge)
    | some _ => .error .attributeError

/-! ## What is asked of a verification -/

/-- A slug that is normalised stays as it is, and what is encoded is read back. -/
structure Documented : Prop where
  slug : ∀ text, L.normalizeSlug (L.normalizeSlug text) = L.normalizeSlug text
  json : ∀ call, L.loads (L.dumps (L.statePayload call)) = some (.dict (L.statePayload call))
  base64 : ∀ bytes, L.b64decode (Base64.encode bytes) = some bytes

/-- It is under a state, or under the payload of another token, which names no user. -/
def Unforgeable (secret text : String) : Prop :=
  signaturePart text = L.signature (payloadPart text) secret →
    (∃ call, L.buildCallbackState call secret ≠ "" ∧ payloadPart text = L.payloadText call) ∨
      ∃ fields : Payload, (L.b64decode (payloadPart text)).bind L.loads = some (.dict fields) ∧ fields.get? "u" = none

/-- A state that was made with the secret for the provider, within the window. -/
def MadeFor (text provider secret : String) (now maxAge : ℤ) (call : StateCall) : Prop :=
  text ≠ "" ∧ L.buildCallbackState call secret = text ∧ L.normalizeSlug call.providerSlug = L.normalizeSlug provider ∧
    call.issuedAt ≤ now + 60 ∧ now - call.issuedAt ≤ maxAge

/-- The verification answers, accepts exactly what was made, and names whom it was made for. -/
def VerifiesRight (state : Option String) (provider secret : String) (now maxAge : ℤ) : Prop :=
  ∃ claims, L.verifyCallbackState state provider secret now maxAge = .ok claims ∧
    (claims.valid = true ↔ ∃ call, L.MadeFor (PyText.strip (state.getD "")) provider secret now maxAge call) ∧
    ∀ call, L.MadeFor (PyText.strip (state.getD "")) provider secret now maxAge call →
      claims.userId = call.userId ∧ claims.organizationId = call.organizationId

variable {L} {call : StateCall} {provider secret text : String} {now maxAge : ℤ}

/-! ## The parts of a state -/

theorem isAscii_encode (bytes : List UInt8) : ∀ c ∈ Base64.encode bytes, c.toNat < 128 ∧ c ≠ '.' := by
  intro c hc
  have hall : Base64.alphabet.all (fun c => decide (c.toNat < 128 ∧ c ≠ '.')) = true := by
    rw [Base64.alphabet_eq]
    decide
  obtain ⟨d, -, rfl⟩ := List.mem_map.1 hc
  exact of_decide_eq_true (List.all_eq_true.1 hall _ (List.get_mem _ _))

theorem buildCallbackState_eq (h : L.buildCallbackState call secret ≠ "") : secret ≠ "" ∧
    L.normalizeSlug call.providerSlug ≠ "" ∧ PyText.strip call.userId ≠ "" ∧ L.buildCallbackState call secret =
      String.ofList (L.payloadText call ++ '.' :: L.signature (L.payloadText call) secret) := by
  unfold buildCallbackState at h ⊢
  by_cases hsecret : secret = ""
  · rw [if_pos hsecret] at h
    exact absurd rfl h
  · rw [if_neg hsecret] at h ⊢
    by_cases hblank : L.normalizeSlug call.providerSlug = "" ∨ PyText.strip call.userId = ""
    · rw [if_pos hblank] at h
      exact absurd rfl h
    · rw [if_neg hblank]
      exact ⟨hsecret, fun hslug => hblank (Or.inl hslug), fun huser => hblank (Or.inr huser), rfl⟩

theorem parts_of_built (h : L.buildCallbackState call secret = text) (hne : text ≠ "") :
    '.' ∈ text.toList ∧ payloadPart text = L.payloadText call ∧
      signaturePart text = L.signature (L.payloadText call) secret := by
  obtain ⟨-, -, -, heq⟩ := buildCallbackState_eq (h ▸ hne)
  have hlist : text.toList = L.payloadText call ++ '.' :: L.signature (L.payloadText call) secret := by
    rw [← h, heq, String.toList_ofList]
  have hdots : ∀ c ∈ L.payloadText call, decide (c ≠ '.') = true :=
    fun c hc => decide_eq_true (isAscii_encode _ c hc).2
  refine ⟨by simp [hlist], ?_, ?_⟩
  · rw [payloadPart, hlist, List.takeWhile_append_of_pos hdots, List.takeWhile_cons_of_neg (by simp), List.append_nil]
  · rw [signaturePart, hlist, List.dropWhile_append_of_pos hdots, List.dropWhile_cons_of_neg (by simp), List.drop_one,
      List.tail_cons]

theorem isAscii_of_forall {chars : List Char} (h : ∀ c ∈ chars, c.toNat < 128) : isAscii chars = true :=
  List.all_eq_true.2 fun c hc => decide_eq_true (h c hc)

theorem toList_eq_parts (h : '.' ∈ text.toList) : text.toList = payloadPart text ++ '.' :: signaturePart text := by
  obtain ⟨front, back, hlist, hfront⟩ := List.eq_append_cons_of_mem h
  have hdots : ∀ c ∈ front, decide (c ≠ '.') = true := fun c hc => decide_eq_true fun hdot => hfront (hdot ▸ hc)
  rw [payloadPart, signaturePart, hlist, List.takeWhile_append_of_pos hdots, List.takeWhile_cons_of_neg (by simp),
    List.append_nil, List.dropWhile_append_of_pos hdots, List.dropWhile_cons_of_neg (by simp), List.drop_one, List.tail_cons]

theorem isAscii_iff_parts (h : '.' ∈ text.toList) : isAscii text.toList = true ↔
    isAscii (payloadPart text) = true ∧ isAscii (signaturePart text) = true := by
  have hlist := toList_eq_parts h
  generalize payloadPart text = payload at hlist
  generalize signaturePart text = sig at hlist
  rw [hlist]
  simp [isAscii]

/-! ## What is read of a state that was made -/

theorem readPayload_statePayload (hL : L.Documented) (call : StateCall) (provider : String) (now maxAge : ℤ) :
    ((L.readPayload (L.statePayload call) provider now maxAge).valid = true ↔
      L.normalizeSlug call.providerSlug = L.normalizeSlug provider ∧ call.issuedAt ≠ 0 ∧ call.issuedAt ≤ now + 60 ∧
        now - call.issuedAt ≤ maxAge ∧ PyText.strip call.userId ≠ "") ∧
    ((L.readPayload (L.statePayload call) provider now maxAge).valid = true →
      (L.readPayload (L.statePayload call) provider now maxAge).userId = PyText.strip call.userId ∧
        (L.readPayload (L.statePayload call) provider now maxAge).organizationId = PyText.strip call.organizationId) := by
  have hprovider : L.textOf ((L.statePayload call).get? "p") = L.normalizeSlug call.providerSlug := rfl
  have horganization : L.textOf ((L.statePayload call).get? "o") = PyText.strip call.organizationId := rfl
  have huser : L.textOf ((L.statePayload call).get? "u") = PyText.strip call.userId := rfl
  have hissued : L.safeInt ((L.statePayload call).get? "iat") = call.issuedAt := rfl
  unfold readPayload
  rw [hprovider, horganization, huser, hissued, hL.slug, PyText.strip_strip, PyText.strip_strip]
  dsimp only
  split_ifs with hslug htime hage hblank
  · exact ⟨iff_of_false (by decide) fun h => hslug h.1, nofun⟩
  · refine ⟨iff_of_false (by decide) ?_, nofun⟩
    rintro ⟨-, hzero, hnow, -⟩
    omega
  · refine ⟨iff_of_false (by decide) ?_, nofun⟩
    rintro ⟨-, -, -, hwindow, -⟩
    omega
  · exact ⟨iff_of_false (by decide) fun h => h.2.2.2.2 hblank, nofun⟩
  · refine ⟨iff_of_true rfl ⟨not_not.1 hslug, ?_, ?_, ?_, hblank⟩, fun _ => ⟨rfl, rfl⟩⟩ <;> omega

theorem verify_of_built (hL : L.Documented) {state : Option String} (hstate : PyText.strip (state.getD "") = text)
    (h : L.buildCallbackState call secret = text) (hne : text ≠ "") :
    L.verifyCallbackState state provider secret now maxAge =
      .ok (L.readPayload (L.statePayload call) provider now maxAge) := by
  obtain ⟨hsecret, -, -, -⟩ := buildCallbackState_eq (h ▸ hne)
  obtain ⟨hdot, hpayload, hsignature⟩ := parts_of_built h hne
  have hpayloadAscii : isAscii (L.payloadText call) = true :=
    isAscii_of_forall fun c hc => (isAscii_encode _ c hc).1
  have hsignatureAscii : isAscii (L.signature (L.payloadText call) secret) = true :=
    isAscii_of_forall fun c hc => (isAscii_encode _ c hc).1
  have hread : (L.b64decode (L.payloadText call)).bind L.loads = some (.dict (L.statePayload call)) := by
    rw [payloadText, hL.base64, Option.bind_some, hL.json]
  unfold verifyCallbackState
  rw [hstate]
  dsimp only
  rw [if_neg hne, if_neg hsecret, if_neg (not_not.2 hdot), hpayload, hsignature, hpayloadAscii, hsignatureAscii, hread]
  simp

/-! ## The claim of a verification -/

/-- What is read is ASCII, and nothing was made at second zero or for a name with white space around it. -/
def ReadsAsMade (L : StateLibrary) (state : Option String) (provider secret : String) (now maxAge : ℤ) : Prop :=
  (secret ≠ "" → '.' ∈ (PyText.strip (state.getD "")).toList → isAscii (PyText.strip (state.getD "")).toList = true) ∧
    ∀ call, L.MadeFor (PyText.strip (state.getD "")) provider secret now maxAge call →
      call.issuedAt ≠ 0 ∧ PyText.strip call.userId = call.userId ∧ PyText.strip call.organizationId = call.organizationId

theorem verify_of_not_made (hL : L.Documented) {state : Option String} (hstate : PyText.strip (state.getD "") = text)
    (hunforgeable : L.Unforgeable secret text) (hascii : secret ≠ "" → '.' ∈ text.toList → isAscii text.toList = true)
    (hnone : ∀ call, ¬ L.MadeFor text provider secret now maxAge call) :
    ∃ claims, L.verifyCallbackState state provider secret now maxAge = .ok claims ∧ claims.valid = false := by
  by_cases hgood : secret ≠ "" ∧ '.' ∈ text.toList ∧ signaturePart text = L.signature (payloadPart text) secret
  · obtain ⟨hsecret, hdot, hsignature⟩ := hgood
    have hne : text ≠ "" := by
      rintro rfl
      cases hdot
    rcases hunforgeable hsignature with ⟨call, hcall, hpayload⟩ | ⟨fields, hfields, huser⟩
    · have htext : L.buildCallbackState call secret = text := by
        rw [(buildCallbackState_eq hcall).2.2.2, ← hpayload, ← hsignature, ← toList_eq_parts hdot, String.ofList_toList]
      refine ⟨_, verify_of_built hL hstate htext hne, ?_⟩
      rw [← Bool.not_eq_true]
      intro hvalid
      obtain ⟨hslug, -, hnow, hwindow, -⟩ := (readPayload_statePayload hL call provider now maxAge).1.1 hvalid
      exact hnone call ⟨hne, htext, hslug, hnow, hwindow⟩
    · obtain ⟨hpayloadAscii, hsignatureAscii⟩ := (isAscii_iff_parts hdot).1 (hascii hsecret hdot)
      refine ⟨L.readPayload fields provider now maxAge, ?_, ?_⟩
      · unfold verifyCallbackState
        rw [hstate]
        dsimp only
        rw [if_neg hne, if_neg hsecret, if_neg (not_not.2 hdot), hpayloadAscii, hsignatureAscii,
          if_neg (not_not.2 hsignature), hfields]
        simp
      · have hblank : PyText.strip (L.textOf (fields.get? "u")) = "" := by
          rw [huser]
          show PyText.strip "" = ""
          decide
        unfold readPayload
        dsimp only
        rw [hblank, if_pos rfl]
        split_ifs <;> rfl
  · unfold verifyCallbackState
    rw [hstate]
    dsimp only
    by_cases hblank : text = ""
    · exact ⟨_, if_pos hblank, rfl⟩
    by_cases hsecret : secret = ""
    · exact ⟨_, by rw [if_neg hblank, if_pos hsecret], rfl⟩
    by_cases hdot : '.' ∈ text.toList
    · obtain ⟨hpayloadAscii, hsignatureAscii⟩ := (isAscii_iff_parts hdot).1 (hascii hsecret hdot)
      refine ⟨{ reason := .invalidStateSignature }, ?_, rfl⟩
      rw [if_neg hblank, if_neg hsecret, if_neg (not_not.2 hdot), hpayloadAscii, hsignatureAscii,
        if_pos fun hsignature => hgood ⟨hsecret, hdot, hsignature⟩]
      simp
    · exact ⟨_, by rw [if_neg hblank, if_neg hsecret, if_pos hdot], rfl⟩

end StateLibrary

/-! ## A state that is verified -/

def someCall : StateCall :=
  { providerSlug := "facebook", organizationId := "org", userId := "user", issuedAt := 1700000000, nonce := "n" }

def someJson : List UInt8 :=
  "\x7b\"iat\":1700000000,\"n\":\"n\",\"o\":\"org\",\"p\":\"facebook\",\"u\":\"user\",\"v\":1\x7d".toUTF8.data.toList

def codes (text : String) : List ℕ := text.toList.map Char.toNat

def ofCodes (codes : List ℕ) : String := String.ofList (codes.map Char.ofNat)

theorem ofCodes_codes (text : String) : ofCodes (codes text) = text := by
  have hid : Char.ofNat ∘ Char.toNat = id := funext Char.ofNat_toNat
  rw [ofCodes, codes, List.map_map, hid, List.map_id, String.ofList_toList]

abbrev StateFields := ℤ × List ℕ × List ℕ × List ℕ × List ℕ

def stateFields (payload : Payload) : StateFields :=
  let int : Option PyValue → ℤ
    | some (.int n) => n
    | _ => 0
  let text : Option PyValue → List ℕ
    | some (.str text) => codes text
    | _ => []
  (int (payload.get? "iat"), text (payload.get? "n"), text (payload.get? "o"), text (payload.get? "p"),
    text (payload.get? "u"))

def ofStateFields : StateFields → Payload
  | (iat, nonce, organization, provider, user) =>
    [("iat", .int iat), ("n", .str (ofCodes nonce)), ("o", .str (ofCodes organization)), ("p", .str (ofCodes provider)),
      ("u", .str (ofCodes user)), ("v", .int 1)]

/-- A library that is right about the state below; other payloads it writes in its own way. -/
def someLibrary : StateLibrary :=
  { lowerTable := fun c => [c]
    hmac := fun _ _ => [152, 155, 173, 60, 2, 10, 253, 44, 161, 201, 9, 151, 43, 41, 79, 111, 165, 71, 248, 124, 160, 211,
      173, 175, 137, 96, 137, 13, 181, 249, 46, 187]
    dumps := fun payload =>
      if stateFields payload = (1700000000, codes "n", codes "org", codes "facebook", codes "user") then someJson
      else List.replicate (Encodable.encode (stateFields payload)) 0
    loads := fun bytes =>
      if bytes = someJson then
        some (.dict (ofStateFields (1700000000, codes "n", codes "org", codes "facebook", codes "user")))
      else (@Encodable.decode StateFields _ bytes.length).map fun fields => .dict (ofStateFields fields)
    b64decode := Base64.decode
    str := fun _ => ""
    int := fun _ => none }

theorem ofStateFields_statePayload (call : StateCall) :
    ofStateFields (stateFields (someLibrary.statePayload call)) = someLibrary.statePayload call := by
  simp only [ofStateFields, stateFields, StateLibrary.statePayload, Payload.get?, List.lookup]
  simp [ofCodes_codes]

def slugChar (c : Char) : Char :=
  let lowered := if c.toNat < 128 then c.toLower else c
  if lowered = '-' then '_' else lowered

theorem normalizeSlug_eq (text : String) :
    someLibrary.normalizeSlug text = String.ofList ((PyText.strip text).toList.map slugChar) := by
  have hlower : ∀ l : List Char, (l.flatMap fun c => if c.toNat < 128 then [c.toLower] else [c]) =
      l.map fun c => if c.toNat < 128 then c.toLower else c := by
    intro l
    induction l with
    | nil => rfl
    | cons c l ih =>
      rw [List.flatMap_cons, List.map_cons, ih]
      split_ifs <;> rfl
  unfold StateLibrary.normalizeSlug normalizeProviderSlug PyText.replace PyText.lower
  rw [String.toList_ofList]
  simp only [someLibrary]
  rw [hlower, List.map_map]
  rfl

theorem slugChar_cases (c : Char) : PyText.isSpace (slugChar c) = PyText.isSpace c ∧ slugChar (slugChar c) = slugChar c := by
  have hascii : ∀ n : Fin 128, PyText.isSpace (slugChar (Char.ofNat n)) = PyText.isSpace (Char.ofNat n) ∧
      slugChar (slugChar (Char.ofNat n)) = slugChar (Char.ofNat n) := by decide +kernel
  by_cases hc : c.toNat < 128
  · have hone := hascii ⟨c.toNat, hc⟩
    rwa [Char.ofNat_toNat] at hone
  · have hdash : c ≠ '-' := by
      rintro rfl
      exact hc (by decide)
    have hsame : slugChar c = c := by
      unfold slugChar
      rw [if_neg hc]
      exact if_neg hdash
    rw [hsame]
    exact ⟨rfl, hsame⟩

theorem normalizeSlug_idem (text : String) :
    someLibrary.normalizeSlug (someLibrary.normalizeSlug text) = someLibrary.normalizeSlug text := by
  have hspace : PyText.isSpace ∘ slugChar = PyText.isSpace := funext fun c => (slugChar_cases c).1
  have htwice : slugChar ∘ slugChar = slugChar := funext fun c => (slugChar_cases c).2
  have hstrip : ∀ l : List Char, PyText.strip (String.ofList (l.map slugChar)) =
      String.ofList ((PyText.strip (String.ofList l)).toList.map slugChar) := by
    intro l
    unfold PyText.strip
    rw [String.toList_ofList, String.toList_ofList, String.toList_ofList, List.dropWhile_map, hspace, ← List.map_reverse,
      List.dropWhile_map, hspace, ← List.map_reverse]
  rw [normalizeSlug_eq (someLibrary.normalizeSlug text), normalizeSlug_eq text, hstrip, String.ofList_toList,
    PyText.strip_strip, String.toList_ofList, List.map_map, htwice]

theorem someLibrary_documented : someLibrary.Documented where
  slug := normalizeSlug_idem
  json := by
    intro call
    have hwhole := ofStateFields_statePayload call
    generalize someLibrary.statePayload call = payload at hwhole
    by_cases hsome : stateFields payload = (1700000000, codes "n", codes "org", codes "facebook", codes "user")
    · have hdumps : someLibrary.dumps payload = someJson := if_pos hsome
      rw [hdumps, ← hwhole, hsome]
      simp only [someLibrary, if_true]
    · have hdumps : someLibrary.dumps payload = List.replicate (Encodable.encode (stateFields payload)) 0 := if_neg hsome
      have hother : List.replicate (Encodable.encode (stateFields payload)) 0 ≠ someJson := by
        have hmem : 123 ∈ someJson := by decide +kernel
        intro hsame
        rw [← hsame] at hmem
        exact absurd (List.eq_of_mem_replicate hmem) (by decide)
      rw [hdumps]
      refine (if_neg hother).trans ?_
      rw [List.length_replicate, Encodable.encodek, Option.map_some, hwhole]
  base64 := Base64.decode_encode

def someState : String := someLibrary.buildCallbackState someCall "secret"

theorem someState_facts : someState ≠ "" ∧ PyText.strip someState = someState := by
  decide +kernel

theorem someState_unforgeable : someLibrary.Unforgeable "secret" (PyText.strip ((some someState).getD "")) := by
  obtain ⟨hne, hstrip⟩ := someState_facts
  rw [Option.getD_some, hstrip]
  exact fun _ => Or.inl ⟨someCall, hne, (StateLibrary.parts_of_built rfl hne).2.1⟩

end Wiii.Connect
