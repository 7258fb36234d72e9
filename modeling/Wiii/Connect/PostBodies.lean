import Mathlib
import Wiii.Connect.Approvals

/-!
# From the body of a request to the post

Both routes normalise the fields of a body in the same way, and the token holds what is left of them, or its hash.  An
apply that gets through with the token of a preview posts what was shown, but for an image URL that is cut.
-/

namespace Wiii.Connect

open PyText (isSpace)

structure PostBody where
  connectionRef : String
  pageId : String
  message : String := ""
  imageBase64 : Option String := none
  imageMediaType : Option String := none
  imageUrl : Option String := none

inductive PostError where
  | unsupportedImageType
  | invalidImageBase64
  | missingImage
  | imageTooLarge
  | missingPageId
  | missingMessage
  deriving DecidableEq

/-- What `build_wiii_connect_operation_fingerprint` hashes. -/
structure FingerprintPayload where
  providerSlug : String
  actionSlug : String
  connectionRefHash : String
  pageIdHash : String
  messageHash : String
  imageHash : String
  imageUrlHash : String
  deriving DecidableEq

/-- The functions of the language and of its libraries that the routes use, and the user. -/
structure PostServer where
  lowerTable : CaseTable
  upperTable : CaseTable
  isAlnum : Char → Bool
  /-- The hexadecimal SHA-256. -/
  sha256 : List UInt8 → String
  /-- `base64.b64decode` with validation. -/
  b64decode : String → Option (List UInt8)
  /-- `json.dumps` of a preview payload. -/
  payloadJson : PreviewPayload → List UInt8
  /-- `json.dumps` of a fingerprint payload. -/
  fingerprintJson : FingerprintPayload → List UInt8
  organizationId : String
  userId : String

structure PreparedPost where
  content : PostContent
  image : List UInt8
  deriving DecidableEq

structure PostEffect where
  /-- What the connected account is looked up with. -/
  connectionCandidate : String
  actionSlug : String
  pageId : String
  message : String
  photo : Option (List UInt8)
  url : Option String
  deriving DecidableEq

/-- `normalize_facebook_post_message`. -/
def normalizeMessage (value : String) : String :=
  let words := ((PyText.strip value).toList.splitOnP isSpace).filter (· ≠ [])
  String.ofList ((List.intercalate [' '] words).take 5000)

/-- `normalize_facebook_image_media_type`. -/
def normalizeMediaType (table : CaseTable) (value : Option String) : String :=
  let mediaType := PyText.lower table (PyText.strip (value.getD ""))
  if mediaType ∈ ["image/png", "image/jpeg", "image/webp", "image/gif"] then mediaType else ""

def utf8 (text : String) : List UInt8 := text.toUTF8.data.toList

namespace PostServer

variable (S : PostServer)

def sha256Text (text : String) : String := S.sha256 (utf8 text)

/-- `_decode_facebook_image_payload`. -/
def decodeImage (body : PostBody) : Except PostError (List UInt8) :=
  let raw := PyText.strip (body.imageBase64.getD "")
  if raw = "" then .ok []
  else
    let isData := ',' ∈ raw.toList ∧ "data:".toList <+: (PyText.lower S.lowerTable raw).toList
    let data := if isData then String.ofList ((raw.toList.dropWhile (· ≠ ',')).drop 1) else raw
    if normalizeMediaType S.lowerTable body.imageMediaType = "" then .error .unsupportedImageType
    else
      match S.b64decode data with
      | none => .error .invalidImageBase64
      | some image =>
        if image = [] then .error .missingImage
        else if 10 * 1024 * 1024 < image.length then .error .imageTooLarge
        else .ok image

/-- `facebook_image_sha256`. -/
def imageSha256 (image : List UInt8) : String := if image = [] then "" else S.sha256 image

/-- The checks that both routes make of a body. -/
def prepare (body : PostBody) : Except PostError PreparedPost :=
  match S.decodeImage body with
  | .error error => .error error
  | .ok image =>
    let pageId := normalizePageId S.isAlnum body.pageId
    let message := normalizeMessage body.message
    if pageId = "" then .error .missingPageId
    else if message = "" then .error .missingMessage
    else
      .ok
        { content :=
            { connectionRef := safePublicConnectionRef S.lowerTable (some body.connectionRef)
              pageId := pageId
              message := message
              imageSha256 := S.imageSha256 image
              imageUrl := normalizeImageUrl S.lowerTable (body.imageUrl.getD "") }
          image := image }

def fingerprintPayload (content : PostContent) : FingerprintPayload :=
  let ref := safeLedgerId S.lowerTable content.connectionRef
  let url := PyText.strip content.imageUrl
  { providerSlug := "facebook"
    actionSlug := content.actionSlug
    connectionRefHash := S.sha256Text (if isConnectionRef ref then ref else "")
    pageIdHash := S.sha256Text (safeLedgerId S.lowerTable content.pageId)
    messageHash := S.sha256Text content.message
    imageHash := safeDigest S.lowerTable content.imageSha256
    imageUrlHash := S.sha256Text (if isSecureUrl url then PyText.take 2000 url else "") }

def system : PostSystem :=
  { lowerTable := S.lowerTable
    upperTable := S.upperTable
    isAlnum := S.isAlnum
    sha256Text := S.sha256Text
    payloadDigest := fun payload => S.sha256 (S.payloadJson payload)
    operationFingerprint := fun content => S.sha256 (S.fingerprintJson (S.fingerprintPayload content))
    organizationId := S.organizationId
    userId := S.userId }

def effect (post : PreparedPost) : PostEffect :=
  { connectionCandidate := safeId S.lowerTable (some post.content.connectionRef)
    actionSlug := post.content.actionSlug
    pageId := post.content.pageId
    message := post.content.message
    photo := if post.image = [] then none else some post.image
    url := if post.image = [] ∧ post.content.imageUrl ≠ "" then some post.content.imageUrl else none }

def hashedTexts (post : PreparedPost) : List (List UInt8) :=
  [utf8 post.content.message, utf8 (normalizeImageUrl S.lowerTable post.content.imageUrl), post.image]

/-- No two of the texts have the same hash. -/
def CollisionFree (texts : List (List UInt8)) : Prop :=
  ∀ first ∈ texts, ∀ second ∈ texts, S.sha256 first = S.sha256 second → first = second

/-- White space is not alphanumeric, and a hash is a hexadecimal number. -/
structure Documented : Prop where
  alnum : ∀ c, S.isAlnum c = true → isSpace c = false
  length : ∀ text, (S.sha256 text).length = 64
  digits : ∀ text, ∀ c ∈ (S.sha256 text).toList, c ∈ "0123456789abcdef".toList

end PostServer

/-! ## Fields that are normalised twice -/

theorem normalizePageId_idem {isAlnum : Char → Bool} (h : ∀ c, isAlnum c = true → isSpace c = false) (value : String) :
    normalizePageId isAlnum (normalizePageId isAlnum value) = normalizePageId isAlnum value := by
  have hkept : ∀ c ∈ (normalizePageId isAlnum value).toList, (isAlnum c || c == '_' || c == '-' || c == ':') = true := by
    intro c hc
    rw [normalizePageId, String.toList_ofList] at hc
    exact (List.mem_filter.1 hc).2
  have hspace : ∀ c ∈ (normalizePageId isAlnum value).toList, isSpace c = false := by
    intro c hc
    have hone := hkept c hc
    simp only [Bool.or_eq_true, beq_iff_eq] at hone
    rcases hone with ((halnum | rfl) | rfl) | rfl
    · exact h c halnum
    · decide
    · decide
    · decide
  have hlength : (normalizePageId isAlnum value).toList.length ≤ 120 := by
    rw [normalizePageId, String.toList_ofList]
    exact (List.length_filter_le _ _).trans (List.length_take_le _ _)
  conv_lhs => rw [normalizePageId]
  rw [PyText.strip_of_forall hspace, List.take_of_length_le hlength, List.filter_eq_self.2 hkept, String.ofList_toList]

theorem strip_prefix {text : String} {c : Char} {rest : List Char} (htext : text.toList = c :: rest)
    (hc : isSpace c = false) : (PyText.strip text).toList <+: text.toList := by
  have hdrop : text.toList.dropWhile isSpace = text.toList := by rw [htext, List.dropWhile_cons_of_neg (by simp [hc])]
  rw [PyText.strip, String.toList_ofList, hdrop]
  conv_rhs => rw [← List.reverse_reverse text.toList]
  exact List.reverse_prefix.2 (List.dropWhile_suffix _)

theorem isSpace_scheme : ∀ c ∈ "https://".toList, isSpace c = false := by
  intro c hc
  have hall : "https://".toList.all (fun c => !isSpace c) = true := by decide
  simpa using List.all_eq_true.1 hall c hc

theorem isSpace_refPrefix : ∀ c ∈ "wcn_".toList, isSpace c = false := by
  intro c hc
  have hall : "wcn_".toList.all (fun c => !isSpace c) = true := by decide
  simpa using List.all_eq_true.1 hall c hc

theorem isSecureUrl_iff {text : String} : isSecureUrl text = true ↔ "https://".toList <+: text.toList :=
  List.isPrefixOf_iff_prefix

theorem prefix_strip {front : List Char} {text : String} (hne : front ≠ []) (hspace : ∀ c ∈ front, isSpace c = false)
    (h : front <+: text.toList) : front <+: (PyText.strip text).toList := by
  have hkept : ∀ l : List Char, l ≠ [] → (∀ c ∈ l, isSpace c = false) → ∀ rest, (l ++ rest).dropWhile isSpace = l ++ rest := by
    intro l hl hlspace rest
    obtain ⟨c, l, rfl⟩ := List.exists_cons_of_ne_nil hl
    exact List.dropWhile_cons_of_neg (by simp [hlspace c List.mem_cons_self])
  obtain ⟨rest, hrest⟩ := h
  have hlist : (PyText.strip text).toList = ((text.toList.dropWhile isSpace).reverse.dropWhile isSpace).reverse :=
    String.toList_ofList
  have hreverse := hkept front.reverse (by simpa using hne) (fun c hc => hspace c (List.mem_reverse.1 hc)) []
  rw [List.append_nil] at hreverse
  rw [hlist, ← hrest, hkept front hne hspace, List.reverse_append, List.dropWhile_append]
  split
  · rw [hreverse, List.reverse_reverse]
  · rw [List.reverse_append, List.reverse_reverse]
    exact List.prefix_append _ _

theorem contains_iff {text part : String} : PyText.contains text part = true ↔ part.toList <:+: text.toList := by
  rw [PyText.contains, List.any_eq_true]
  constructor
  · rintro ⟨tail, htail, hprefix⟩
    exact List.infix_iff_prefix_suffix.2 ⟨tail, List.isPrefixOf_iff_prefix.1 hprefix, (List.mem_tails _ _).1 htail⟩
  · intro h
    obtain ⟨tail, hprefix, hsuffix⟩ := List.infix_iff_prefix_suffix.1 h
    exact ⟨tail, (List.mem_tails _ _).2 hsuffix, List.isPrefixOf_iff_prefix.2 hprefix⟩

theorem contains_lower_of_prefix {table : CaseTable} {text front part : String} (hfront : front.toList <+: text.toList)
    (h : PyText.contains (PyText.lower table front) part = true) :
    PyText.contains (PyText.lower table text) part = true := by
  obtain ⟨rest, hrest⟩ := hfront
  rw [contains_iff] at h ⊢
  rw [PyText.lower, String.toList_ofList] at h ⊢
  rw [← hrest, List.flatMap_append]
  exact List.IsInfix.trans h (List.prefix_append _ _).isInfix

theorem normalizeImageUrl_twice (table : CaseTable) (value : String) :
    normalizeImageUrl table (normalizeImageUrl table value) = PyText.strip (normalizeImageUrl table value) := by
  have hempty : normalizeImageUrl table "" = PyText.strip "" := by
    unfold normalizeImageUrl
    rw [if_pos (by decide)]
    decide
  generalize hurl : normalizeImageUrl table value = url
  unfold normalizeImageUrl at hurl
  dsimp only at hurl
  split at hurl
  · rw [← hurl]
    exact hempty
  split at hurl
  · rw [← hurl]
    exact hempty
  next hsecure hmarkers =>
  rw [Bool.not_eq_false] at hsecure
  have hlist : url.toList = (PyText.strip value).toList.take 2000 := by
    rw [← hurl]
    exact String.toList_ofList
  have hcut : url.toList <+: (PyText.strip value).toList := by
    rw [hlist]
    exact List.take_prefix _ _
  have hlength : url.toList.length ≤ 2000 := by
    rw [hlist]
    exact List.length_take_le _ _
  have hcutSecure : isSecureUrl url = true := by
    rw [isSecureUrl_iff] at hsecure ⊢
    rw [hlist]
    exact List.prefix_take_iff.2 ⟨hsecure, by decide⟩
  obtain ⟨rest, hrest⟩ := isSecureUrl_iff.1 hcutSecure
  have hprefix : (PyText.strip url).toList <+: url.toList := strip_prefix hrest.symm (by decide)
  have hnoMarkers : ["token", "secret", "password", "key"].any
      (PyText.contains (PyText.lower table (PyText.strip url))) = false := by
    rw [← Bool.not_eq_true, List.any_eq_true]
    rintro ⟨marker, hmarker, hcontains⟩
    exact hmarkers (List.any_eq_true.2 ⟨marker, hmarker, contains_lower_of_prefix (List.IsPrefix.trans hprefix hcut) hcontains⟩)
  unfold normalizeImageUrl
  dsimp only
  have hstripSecure : isSecureUrl (PyText.strip url) = true := by
    rw [isSecureUrl_iff] at hcutSecure ⊢
    exact prefix_strip (by decide) isSpace_scheme hcutSecure
  have hshort : (PyText.strip url).length ≤ 2000 := by
    rw [← String.length_toList]
    exact hprefix.length_le.trans hlength
  rw [if_neg (by rw [hstripSecure]; decide), if_neg (by rw [hnoMarkers]; decide), PyText.take_of_length_le hshort]

theorem tokenConnectionRef_safe (table : CaseTable) (value : Option String) :
    PostSystem.tokenConnectionRef (safePublicConnectionRef table value) =
      PyText.strip (safePublicConnectionRef table value) := by
  unfold safePublicConnectionRef
  dsimp only
  split
  next href =>
    have hstripped : isConnectionRef (PyText.strip (safeId table value)) = true := by
      rw [isConnectionRef, List.isPrefixOf_iff_prefix] at href ⊢
      exact prefix_strip (by decide) isSpace_refPrefix href
    have hlength : (PyText.strip (safeId table value)).length ≤ 180 := by
      have hsafe : (safeId table value).length ≤ 160 := by
        unfold safeId
        dsimp only
        split
        · decide
        · rw [PyText.take, String.length_ofList]
          exact List.length_take_le _ _
      have hstrip := PyText.length_strip_le (safeId table value)
      omega
    unfold PostSystem.tokenConnectionRef
    dsimp only
    rw [if_pos hstripped]
    exact PyText.take_of_length_le hlength
  · decide

namespace PostServer

variable {S : PostServer} {body shownBody postedBody : PostBody} {post shown posted : PreparedPost}

@[simp] theorem system_lowerTable : S.system.lowerTable = S.lowerTable := rfl

theorem operationFingerprint_eq (content : PostContent) : S.system.operationFingerprint content =
    S.sha256 (S.fingerprintJson (S.fingerprintPayload content)) := rfl

theorem utf8_inj {first second : String} (h : utf8 first = utf8 second) : first = second := by
  unfold utf8 at h
  exact String.toByteArray_inj.1 (ByteArray.ext (Array.toList_inj.1 h))

def cutUrl (S : PostServer) (body : PostBody) : String := normalizeImageUrl S.lowerTable (body.imageUrl.getD "")

theorem prepare_ok (h : S.prepare body = .ok post) :
    post.content = { connectionRef := safePublicConnectionRef S.lowerTable (some body.connectionRef)
                     pageId := normalizePageId S.isAlnum body.pageId
                     message := normalizeMessage body.message
                     imageSha256 := S.imageSha256 post.image
                     imageUrl := S.cutUrl body } := by
  unfold prepare at h
  split at h
  · cases h
  · dsimp only at h
    split at h
    · cases h
    split at h
    · cases h
    · rw [← Except.ok.inj h, cutUrl]

theorem safeDigest_sha256 (hS : S.Documented) (text : List UInt8) :
    safeDigest S.lowerTable (S.sha256 text) = S.sha256 text := by
  have hall : "0123456789abcdef".toList.all (fun c => !isSpace c && decide (c.toNat < 128) && c.toLower == c) = true := by
    decide
  have hplain : ∀ c ∈ (S.sha256 text).toList, isSpace c = false ∧ c.toNat < 128 ∧ c.toLower = c := by
    intro c hc
    have hone := List.all_eq_true.1 hall c (hS.digits text c hc)
    simp only [Bool.and_eq_true, Bool.not_eq_true', decide_eq_true_eq, beq_iff_eq] at hone
    exact ⟨hone.1.1, hone.1.2, hone.2⟩
  unfold safeDigest
  dsimp only
  rw [PyText.strip_of_forall fun c hc => (hplain c hc).1, PyText.lower_of_forall fun c hc => (hplain c hc).2]
  refine if_pos ⟨hS.length text, List.all_eq_true.2 fun c hc => ?_⟩
  exact List.contains_iff_mem.2 (hS.digits text c hc)

theorem image_eq_of_safeDigest (hS : S.Documented) {first second : List UInt8}
    (hfree : S.sha256 first = S.sha256 second → first = second)
    (h : safeDigest S.lowerTable (S.imageSha256 first) = safeDigest S.lowerTable (S.imageSha256 second)) :
    first = second := by
  have hblank : safeDigest S.lowerTable "" = "" := by
    have hlower : PyText.lower S.lowerTable (PyText.strip "") = "" := rfl
    unfold safeDigest
    dsimp only
    rw [hlower]
    decide
  have hne : ∀ text, S.sha256 text ≠ "" := by
    intro text hnil
    have hlength := hS.length text
    rw [hnil] at hlength
    cases hlength
  unfold imageSha256 at h
  by_cases hfirst : first = [] <;> by_cases hsecond : second = []
  · rw [hfirst, hsecond]
  · rw [if_pos hfirst, if_neg hsecond, hblank, safeDigest_sha256 hS] at h
    exact absurd h.symm (hne second)
  · rw [if_neg hfirst, if_pos hsecond, hblank, safeDigest_sha256 hS] at h
    exact absurd h (hne first)
  · rw [if_neg hfirst, if_neg hsecond, safeDigest_sha256 hS, safeDigest_sha256 hS] at h
    exact hfree h

theorem previewPayload_eq {token : ApprovalToken} {content : PostContent} {evidenceId : Option String} {now : ℤ}
    {P : PostSystem} (h : P.verifyApprovalToken token content evidenceId now = .valid) :
    token.payload = P.previewPayload content := by
  unfold PostSystem.verifyApprovalToken at h
  dsimp only at h
  split at h
  · cases h
  split at h
  · cases h
  next hmatch => exact not_not.1 fun hne => hmatch (Or.inl hne)

/-- An apply with the token of a preview gets past the token check and the ledger. -/
structure LetsThrough (S : PostServer) (shown posted : PreparedPost) (evidenceId : Option String) (nonce : ℕ)
    (issued now : ℤ) (db : Database) (status : StorageStatus) : Prop where
  verified : S.system.verifyApprovalToken (S.system.buildApprovalToken shown.content nonce issued) posted.content evidenceId
    now = .valid
  consumed : (S.system.consumeOperationApproval db status posted.content now .done).1 = .consumed

/-- Two URLs are cut to texts that differ, but only in the white space at the end. -/
def CutApart (S : PostServer) (first second : PostBody) : Prop :=
  S.cutUrl first ≠ S.cutUrl second ∧ PyText.strip (S.cutUrl first) = PyText.strip (S.cutUrl second)

theorem same_of_payload (hS : S.Documented) (hshown : S.prepare shownBody = .ok shown)
    (hposted : S.prepare postedBody = .ok posted) (hfree : S.CollisionFree (S.hashedTexts shown ++ S.hashedTexts posted))
    (h : S.system.previewPayload shown.content = S.system.previewPayload posted.content) :
    posted.content.actionSlug = shown.content.actionSlug ∧ posted.content.pageId = shown.content.pageId ∧
      posted.content.message = shown.content.message ∧ posted.image = shown.image ∧
      PyText.strip posted.content.connectionRef = PyText.strip shown.content.connectionRef ∧
      PyText.strip (S.cutUrl postedBody) = PyText.strip (S.cutUrl shownBody) := by
  have hcollision : ∀ first ∈ S.hashedTexts shown, ∀ second ∈ S.hashedTexts posted,
      S.sha256 first = S.sha256 second → first = second :=
    fun first hfirst second hsecond => hfree first (List.mem_append_left _ hfirst) second (List.mem_append_right _ hsecond)
  have hurls : ∀ body, normalizeImageUrl S.lowerTable (S.cutUrl body) = PyText.strip (S.cutUrl body) :=
    fun body => normalizeImageUrl_twice S.lowerTable _
  have hshownContent := prepare_ok hshown
  have hpostedContent := prepare_ok hposted
  simp only [PostSystem.previewPayload, PreviewPayload.mk.injEq] at h
  obtain ⟨-, haction, href, hpage, hmessage, himage, hurl⟩ := h
  refine ⟨haction.symm, ?_, ?_, ?_, ?_, ?_⟩
  · rw [hshownContent, hpostedContent] at hpage ⊢
    simpa only [PostServer.system, normalizePageId_idem hS.alnum] using hpage.symm
  · exact utf8_inj (hcollision _ (by simp [hashedTexts]) _ (by simp [hashedTexts]) hmessage).symm
  · rw [hshownContent, hpostedContent] at himage
    exact (image_eq_of_safeDigest hS (hcollision _ (by simp [hashedTexts]) _ (by simp [hashedTexts])) himage).symm
  · rw [hshownContent, hpostedContent] at href ⊢
    simpa only [tokenConnectionRef_safe] using href.symm
  · have hhash : S.sha256 (utf8 (normalizeImageUrl S.lowerTable shown.content.imageUrl)) =
        S.sha256 (utf8 (normalizeImageUrl S.lowerTable posted.content.imageUrl)) := hurl
    have hsame := utf8_inj (hcollision _ (by simp [hashedTexts]) _ (by simp [hashedTexts]) hhash)
    rw [hshownContent, hpostedContent] at hsame
    simpa only [hurls] using hsame.symm

theorem mem_of_contains {text part : String} (h : PyText.contains text part = true) {c : Char} (hc : c ∈ part.toList) :
    c ∈ text.toList := (contains_iff.1 h).subset hc

theorem safeLedgerId_of_digits {text : String} (hdigits : ∀ c ∈ text.toList, c ∈ "wcp_0123456789abcdef".toList)
    (hlength : text.length ≤ 180) : PyText.strip text = text ∧ PyText.lower S.lowerTable text = text ∧
      safeLedgerId S.lowerTable text = text := by
  have hall : "wcp_0123456789abcdef".toList.all (fun c =>
      !isSpace c && decide (c.toNat < 128) && c.toLower == c && c != 't' && c != 's') = true := by decide
  have hplain : ∀ c ∈ text.toList, isSpace c = false ∧ (c.toNat < 128 ∧ c.toLower = c) ∧ c ≠ 't' ∧ c ≠ 's' := by
    intro c hc
    have hone := List.all_eq_true.1 hall c (hdigits c hc)
    simp only [Bool.and_eq_true, Bool.not_eq_true', decide_eq_true_eq, beq_iff_eq, bne_iff_ne] at hone
    exact ⟨hone.1.1.1.1, ⟨hone.1.1.1.2, hone.1.1.2⟩, hone.1.2, hone.2⟩
  have hstrip : PyText.strip text = text := PyText.strip_of_forall fun c hc => (hplain c hc).1
  have hlower : PyText.lower S.lowerTable text = text := PyText.lower_of_forall fun c hc => (hplain c hc).2.1
  have hmarkers : ["token", "secret", "password"].any (PyText.contains text) = false := by
    rw [← Bool.not_eq_true, List.any_eq_true]
    rintro ⟨marker, hmarker, hcontains⟩
    simp only [List.mem_cons, List.not_mem_nil, or_false] at hmarker
    rcases hmarker with rfl | rfl | rfl
    · exact (hplain 't' (mem_of_contains hcontains (by decide))).2.2.1 rfl
    · exact (hplain 's' (mem_of_contains hcontains (by decide))).2.2.2 rfl
    · exact (hplain 's' (mem_of_contains hcontains (by decide))).2.2.2 rfl
  refine ⟨hstrip, hlower, ?_⟩
  unfold safeLedgerId
  dsimp only
  rw [hstrip, hlower, if_neg (by rw [hmarkers]; decide), PyText.take_of_length_le hlength]

theorem evidence_digits (hS : S.Documented) (content : PostContent) :
    (∀ c ∈ (S.system.previewEvidenceId content).toList, c ∈ "wcp_0123456789abcdef".toList) ∧
      (S.system.previewEvidenceId content).length ≤ 160 ∧ S.system.previewEvidenceId content ≠ "" := by
  generalize hdigest : S.sha256 (S.payloadJson (S.system.previewPayload content)) = digest
  have hdigits : ∀ c ∈ digest.toList, c ∈ "0123456789abcdef".toList := hdigest ▸ hS.digits _
  have hid : (S.system.previewEvidenceId content).toList = "wcp_".toList ++ digest.toList.take 32 := by
    have htake : (PyText.take 32 digest).toList = digest.toList.take 32 := String.toList_ofList
    rw [PostSystem.previewEvidenceId, String.toList_append, ← htake, ← hdigest]
    rfl
  have halphabet : "wcp_0123456789abcdef".toList = "wcp_".toList ++ "0123456789abcdef".toList := by decide
  refine ⟨fun c hc => ?_, ?_, fun hnil => ?_⟩
  · rw [hid] at hc
    rw [halphabet]
    rcases List.mem_append.1 hc with hc | hc
    · exact List.mem_append_left _ hc
    · exact List.mem_append_right _ (hdigits c (List.mem_of_mem_take hc))
  · rw [← String.length_toList, hid, List.length_append]
    have htake := List.length_take_le 32 digest.toList
    have hfour : "wcp_".toList.length = 4 := by decide
    omega
  · rw [hnil] at hid
    cases hid

theorem safePublicId_evidence (hS : S.Documented) (content : PostContent) :
    (safePublicId S.lowerTable (some (S.system.previewEvidenceId content))).getD "" = "" ∨
      (safePublicId S.lowerTable (some (S.system.previewEvidenceId content))).getD "" =
        S.system.previewEvidenceId content := by
  obtain ⟨hdigits, hlength, -⟩ := evidence_digits hS content
  have hstrip := (safeLedgerId_of_digits (S := S) hdigits (by omega)).1
  generalize S.system.previewEvidenceId content = id at hstrip hlength
  unfold safePublicId safeId
  dsimp only
  rw [Option.getD_some, hstrip, PyText.take_of_length_le hlength]
  by_cases hmarkers : ["token", "secret", "password"].any (PyText.contains (PyText.lower S.lowerTable id)) = true
  · rw [if_pos hmarkers, if_pos rfl]
    exact Or.inl rfl
  · rw [if_neg hmarkers]
    by_cases hnil : id = ""
    · rw [if_pos hnil]
      exact Or.inl rfl
    · rw [if_neg hnil]
      exact Or.inr rfl

/-- What an apply posts is what the preview showed, unless a URL is cut within white space, and an unchanged post passes
while its token lasts. -/
theorem posted_as_shown_iff (hS : S.Documented) (hshown : S.prepare shownBody = .ok shown)
    (hposted : S.prepare postedBody = .ok posted)
    (hfree : S.CollisionFree (S.hashedTexts shown ++ S.hashedTexts posted)) :
    (∀ evidenceId nonce issued now db status, S.LetsThrough shown posted evidenceId nonce issued now db status →
      (S.effect posted = S.effect shown ↔ posted.image ≠ [] ∨ ¬ S.CutApart shownBody postedBody)) ∧
    ∀ evidenceId nonce issued now, evidenceId = none ∨ evidenceId = some (S.system.previewEvidenceId shown.content) →
      0 < seconds issued → seconds now - seconds issued ≤ tokenMaxAgeSeconds →
      S.system.verifyApprovalToken (S.system.buildApprovalToken shown.content nonce issued) shown.content evidenceId now =
        .valid := by
  constructor
  · intro evidenceId nonce issued now db status hthrough
    have hpayload := previewPayload_eq hthrough.verified
    obtain ⟨haction, hpage, hmessage, himage, href, hurl⟩ := same_of_payload hS hshown hposted hfree hpayload
    have hcandidate : safeId S.lowerTable (some posted.content.connectionRef) =
        safeId S.lowerTable (some shown.content.connectionRef) := by
      unfold safeId
      rw [Option.getD_some, Option.getD_some, href]
    have hshownUrl : shown.content.imageUrl = S.cutUrl shownBody := by rw [prepare_ok hshown]
    have hpostedUrl : posted.content.imageUrl = S.cutUrl postedBody := by rw [prepare_ok hposted]
    have heffect : S.effect posted = S.effect shown ↔ (posted.image = [] → S.cutUrl postedBody = S.cutUrl shownBody) := by
      simp only [effect, PostEffect.mk.injEq, hcandidate, haction, hpage, hmessage, himage, hshownUrl, hpostedUrl, true_and]
      by_cases hnone : shown.image = []
      · simp only [hnone, true_and, forall_const]
        constructor
        · intro h
          by_cases hposted : S.cutUrl postedBody = "" <;> by_cases hshown : S.cutUrl shownBody = "" <;> simp_all
        · rintro h
          rw [h]
      · simp [hnone]
    rw [heffect]
    unfold CutApart
    constructor
    · intro h
      by_cases hnone : posted.image = []
      · exact Or.inr fun hapart => hapart.1 (h hnone).symm
      · exact Or.inl hnone
    · rintro (hsome | hapart) hnone
      · exact absurd hnone hsome
      · exact (not_not.1 fun hne => hapart ⟨hne, hurl.symm⟩).symm
  · intro evidenceId nonce issued now hevidence hpositive hage
    have hlasts : ¬ (S.system.buildApprovalToken shown.content nonce issued).Expired now := by
      rintro (hzero | hold)
      · exact absurd hpositive (not_lt.2 hzero)
      · exact absurd hage (not_le.2 hold)
    have hread : (safePublicId S.lowerTable evidenceId).getD "" = "" ∨
        (safePublicId S.lowerTable evidenceId).getD "" = S.system.previewEvidenceId shown.content := by
      rcases hevidence with rfl | rfl
      · exact Or.inl rfl
      · exact safePublicId_evidence hS shown.content
    unfold PostSystem.verifyApprovalToken
    dsimp only
    rw [if_neg hlasts, if_neg (by rintro (h | h) <;> exact h rfl), if_neg ?_]
    rintro ⟨hne, hother⟩
    exact hread.elim hne hother

theorem consumed_after_record (hS : S.Documented) {owner : Owner}
    (howner : normalizeOwner S.organizationId S.userId = some owner)
    (hslug : normalizeProviderSlug S.lowerTable "facebook" = "facebook") {shown posted : PostContent}
    (hid : S.system.previewEvidenceId posted = S.system.previewEvidenceId shown)
    (hfingerprint : S.system.operationFingerprint posted = S.system.operationFingerprint shown) (db : Database)
    {status : StorageStatus} (hready : status.operationApprovalReady = true) (now : ℤ) :
    (S.system.consumeOperationApproval (S.system.recordOperationApproval db status shown now .done).2 status posted now
      .done).1 = .consumed := by
  obtain ⟨hdigits, hlength, hne⟩ := evidence_digits hS shown
  obtain ⟨hstrip, -, hledger⟩ := safeLedgerId_of_digits (S := S) hdigits (by omega)
  -- the fingerprint is a hash, so the ledger keeps it
  have hkept : S.system.safeFingerprint (S.system.operationFingerprint shown) = S.system.operationFingerprint shown := by
    rw [PostSystem.safeFingerprint, system_lowerTable, operationFingerprint_eq, safeDigest_sha256 hS]
  have hhash : ∀ c ∈ (S.system.operationFingerprint shown).toList, c ∈ "wcp_0123456789abcdef".toList := by
    have halphabet : "wcp_0123456789abcdef".toList = "wcp_".toList ++ "0123456789abcdef".toList := by decide
    intro c hc
    rw [halphabet]
    exact List.mem_append_right _ (hS.digits _ c hc)
  have hlong : (S.system.operationFingerprint shown).length = 64 := by
    rw [operationFingerprint_eq]
    exact hS.length _
  obtain ⟨hstripHash, hlowerHash, -⟩ := safeLedgerId_of_digits (S := S) hhash (by omega)
  have hlower : PyText.lower S.lowerTable (PyText.strip (S.system.operationFingerprint shown)) ≠ "" := by
    rw [hstripHash, hlowerHash]
    intro hnil
    rw [hnil] at hlong
    cases hlong
  have hrecordId : (S.system.operationApprovalRecord shown now).previewEvidenceId = S.system.previewEvidenceId shown := by
    simp only [PostSystem.operationApprovalRecord, PostSystem.ledgerPublicId, system_lowerTable, hledger]
  obtain ⟨row, hrow, hpending, hexpires, hmatch⟩ := Database.find?_append db
    (S.system.operationApprovalRecord shown now) now howner (by rw [hrecordId]; exact hne) rfl
  have hfound : (S.system.recordOperationApproval db status shown now .done).2.approvals.find?
      (owner, normalizeProviderSlug S.lowerTable "facebook", PyText.strip (S.system.previewEvidenceId shown)) = some row := by
    rw [hslug, hstrip, PostSystem.recordOperationApproval, if_neg (by rw [hready]; decide), ← hrecordId]
    exact hrow
  have hlasts : now ≤ row.record.expiresAt := by
    rw [hexpires]
    show now ≤ now + tokenMaxAgeSeconds * 1000000
    unfold tokenMaxAgeSeconds
    omega
  have hsame : row.record.requestFingerprint = S.system.operationFingerprint shown := by
    rw [hmatch]
    simp only [PostSystem.operationApprovalRecord, hkept]
  have hconsumed := Database.consumed_of_find? howner (hstrip.symm ▸ hne) hlower hfound hpending hlasts hsame
  rw [PostSystem.consumeOperationApproval, if_neg (by rw [hready]; decide), hid, hfingerprint]
  exact hconsumed

end PostServer

/-! ## A post with a long URL -/

def helloHash : String := "2cf24dba5fb0a30e26e83b2ac5b9e29e1b161e5c1fa7425e73043362938b9824"

def emptyHash : String := "e3b0c44298fc1c149afbf4c8996fb92427ae41e4649b934ca495991b7852b855"

def otherHash : String := "18e1945e51a047939bced48c36244662416c011d1fff75b9d665f87e42ca068d"

/-- A string in JSON, where nothing has to be escaped. -/
def quoted (text : String) : String := "\"" ++ text ++ "\""

def plainJson (fields : List (String × String)) : List UInt8 :=
  utf8 ("\x7b" ++ ",".intercalate (fields.map fun (key, value) => quoted key ++ ":" ++ quoted value) ++ "\x7d")

/-- A server whose hashes are those of the texts below. -/
def someServer : PostServer :=
  { lowerTable := fun c => [c]
    upperTable := fun c => [c]
    isAlnum := Char.isAlphanum
    sha256 := fun text =>
      if text = utf8 "hello" then helloHash
      else if text = [] then emptyHash
      else otherHash
    b64decode := fun _ => none
    payloadJson := fun payload => plainJson
      [("action_slug", payload.actionSlug), ("connection_ref", payload.connectionRef), ("image_hash", payload.imageHash),
        ("image_url_hash", payload.imageUrlHash), ("message_hash", payload.messageHash), ("page_id", payload.pageId),
        ("provider_slug", payload.providerSlug)]
    fingerprintJson := fun payload => plainJson
      [("action_slug", payload.actionSlug), ("connection_ref_hash", payload.connectionRefHash),
        ("image_hash", payload.imageHash), ("image_url_hash", payload.imageUrlHash), ("message_hash", payload.messageHash),
        ("page_id_hash", payload.pageIdHash), ("provider_slug", payload.providerSlug)]
    organizationId := "org"
    userId := "user" }

def helloBody : PostBody := { connectionRef := "wcn_1", pageId := "page", message := "hello" }

def helloPost : PreparedPost :=
  { content := { connectionRef := "wcn_1", pageId := "page", message := "hello" }, image := [] }

theorem isSpace_of_alphanum {c : Char} (h : c.isAlphanum = true) : isSpace c = false := by
  have hn : c.toNat = c.val.toNat := rfl
  simp only [Char.isAlphanum, Char.isAlpha, Char.isUpper, Char.isLower, Char.isDigit, Bool.or_eq_true, Bool.and_eq_true,
    decide_eq_true_eq, ge_iff_le, UInt32.le_iff_toNat_le] at h
  simp only [isSpace, hn, Bool.or_eq_false_iff, Bool.and_eq_false_iff, decide_eq_false_iff_not, beq_eq_false_iff_ne]
  simp at h
  omega

theorem hash_digits : ∀ hash ∈ [helloHash, emptyHash, otherHash], hash.length = 64 ∧
    ∀ c ∈ hash.toList, c ∈ "0123456789abcdef".toList := by
  have hall : [helloHash, emptyHash, otherHash].all (fun hash => decide (hash.length = 64) &&
      hash.toList.all (fun c => decide (c ∈ "0123456789abcdef".toList))) = true := by decide +kernel
  intro hash hhash
  have hone := List.all_eq_true.1 hall hash hhash
  rw [Bool.and_eq_true, decide_eq_true_eq, List.all_eq_true] at hone
  exact ⟨hone.1, fun c hc => of_decide_eq_true (hone.2 c hc)⟩

theorem sha256_mem (text : List UInt8) : someServer.sha256 text ∈ [helloHash, emptyHash, otherHash] := by
  simp only [someServer]
  split_ifs <;> simp

theorem someServer_documented : someServer.Documented where
  alnum := fun _ h => isSpace_of_alphanum h
  length := fun text => (hash_digits _ (sha256_mem text)).1
  digits := fun text => (hash_digits _ (sha256_mem text)).2

theorem helloPost_prepared : someServer.prepare helloBody = .ok helloPost := by
  decide +kernel

theorem someServer_collisionFree {texts : List (List UInt8)} (other : List UInt8)
    (h : ∀ text ∈ texts, text = utf8 "hello" ∨ text = [] ∨ text = other) : someServer.CollisionFree texts := by
  have hhello : helloHash ≠ emptyHash ∧ helloHash ≠ otherHash ∧ emptyHash ≠ otherHash := by decide +kernel
  have hclass : ∀ text ∈ texts, (text = utf8 "hello" ∧ someServer.sha256 text = helloHash) ∨
      (text = [] ∧ someServer.sha256 text = emptyHash) ∨ (text = other ∧ someServer.sha256 text = otherHash) := by
    intro text htext
    have hcases := h text htext
    simp only [someServer]
    split_ifs with hone hnil
    · exact Or.inl ⟨hone, rfl⟩
    · exact Or.inr (Or.inl ⟨hnil, rfl⟩)
    · exact Or.inr (Or.inr ⟨(hcases.resolve_left hone).resolve_left hnil, rfl⟩)
  intro first hfirst second hsecond hsame
  rcases hclass first hfirst with ⟨hone, hf⟩ | ⟨hone, hf⟩ | ⟨hone, hf⟩ <;>
    rcases hclass second hsecond with ⟨htwo, hs⟩ | ⟨htwo, hs⟩ | ⟨htwo, hs⟩ <;> rw [hf, hs] at hsame
  · exact hone.trans htwo.symm
  · exact absurd hsame hhello.1
  · exact absurd hsame hhello.2.1
  · exact absurd hsame.symm hhello.1
  · exact hone.trans htwo.symm
  · exact absurd hsame hhello.2.2
  · exact absurd hsame.symm hhello.2.1
  · exact absurd hsame.symm hhello.2.2
  · exact hone.trans htwo.symm

/-- The same body is posted as it was shown. -/
theorem posted_as_shown_hello :
    (∀ evidenceId nonce issued now db status, someServer.LetsThrough helloPost helloPost evidenceId nonce issued now db status →
      (someServer.effect helloPost = someServer.effect helloPost ↔
        helloPost.image ≠ [] ∨ ¬ someServer.CutApart helloBody helloBody)) ∧
    ∀ evidenceId nonce issued now,
      evidenceId = none ∨ evidenceId = some (someServer.system.previewEvidenceId helloPost.content) →
      0 < seconds issued → seconds now - seconds issued ≤ tokenMaxAgeSeconds →
      someServer.system.verifyApprovalToken (someServer.system.buildApprovalToken helloPost.content nonce issued)
        helloPost.content evidenceId now = .valid := by
  have hurl : normalizeImageUrl someServer.lowerTable helloPost.content.imageUrl = "" := by decide +kernel
  have hnil : utf8 "" = [] := rfl
  refine PostServer.posted_as_shown_iff someServer_documented helloPost_prepared helloPost_prepared
    (someServer_collisionFree [] fun text htext => ?_)
  simp only [PostServer.hashedTexts, hurl, hnil, List.mem_append, List.mem_cons, List.not_mem_nil, or_false, or_self] at htext
  rcases htext with rfl | rfl | rfl
  · exact Or.inl rfl
  · exact Or.inr (Or.inl rfl)
  · exact Or.inr (Or.inl rfl)

def longUrl (n : ℕ) : List Char := 'h' :: (['t', 't', 'p', 's', ':', '/', '/'] ++ List.replicate n 'a')

theorem longUrl_mem (n : ℕ) : ∀ c ∈ longUrl n ++ [' ', 'b'], c ∈ "htps:/a b".toList := by
  intro c hc
  have hcases : c ∈ ['h', 't', 't', 'p', 's', ':', '/', '/', ' ', 'b'] ∨ c ∈ List.replicate n 'a' := by
    simp only [longUrl, List.cons_append, List.nil_append, List.mem_cons, List.mem_append, List.not_mem_nil] at hc ⊢
    tauto
  rcases hcases with hc | hc
  · have hall : ['h', 't', 't', 'p', 's', ':', '/', '/', ' ', 'b'].all (fun c => decide (c ∈ "htps:/a b".toList)) = true := by
      decide
    exact of_decide_eq_true (List.all_eq_true.1 hall c hc)
  · rw [List.eq_of_mem_replicate hc]
    decide

theorem strip_of_ends {first last : Char} {front back gap : List Char} (hends : first :: back = front ++ [last])
    (hfirst : isSpace first = false) (hlast : isSpace last = false) (hgap : ∀ c ∈ gap, isSpace c = true) :
    PyText.strip (String.ofList (first :: back ++ gap)) = String.ofList (first :: back) := by
  have hkept : (first :: back ++ gap).dropWhile isSpace = first :: back ++ gap :=
    List.dropWhile_cons_of_neg (by simp [hfirst])
  unfold PyText.strip
  rw [String.toList_ofList, hkept, List.reverse_append,
    List.dropWhile_append_of_pos fun c hc => hgap c (List.mem_reverse.1 hc), hends, List.reverse_append,
    List.reverse_singleton, List.singleton_append, List.dropWhile_cons_of_neg (by simp [hlast]), List.reverse_cons,
    List.reverse_reverse]

theorem strip_longUrl (n : ℕ) {gap : List Char} (hgap : ∀ c ∈ gap, isSpace c = true) :
    PyText.strip (String.ofList (longUrl (n + 1) ++ gap)) = String.ofList (longUrl (n + 1)) := by
  have hends : longUrl (n + 1) = 'h' :: (['t', 't', 'p', 's', ':', '/', '/'] ++ List.replicate n 'a') ++ ['a'] := by
    rw [longUrl, List.replicate_succ', ← List.append_assoc]
    rfl
  exact strip_of_ends hends (by decide) (by decide) hgap

theorem strip_longUrl_word (n : ℕ) :
    PyText.strip (String.ofList (longUrl n ++ [' ', 'b'])) = String.ofList (longUrl n ++ [' ', 'b']) := by
  have hends : longUrl n ++ [' ', 'b'] = longUrl n ++ [' '] ++ ['b'] := by simp
  have hstrip := strip_of_ends hends (by decide) (by decide) (List.forall_mem_nil _)
  rw [List.append_nil] at hstrip
  exact hstrip

theorem ofList_longUrl_ne (n : ℕ) (rest : List Char) : String.ofList (longUrl n ++ rest) ≠ "" := by
  intro hnil
  have hlist := congrArg String.toList hnil
  rw [String.toList_ofList] at hlist
  cases hlist

def urlBody (url : List Char) : PostBody := { helloBody with imageUrl := some (String.ofList url) }

theorem cutUrl_urlBody {url : List Char} (hstart : "https://".toList <+: url)
    (hmem : ∀ c ∈ url, c ∈ "htps:/a b".toList) (hstrip : PyText.strip (String.ofList url) = String.ofList url) :
    someServer.cutUrl (urlBody url) = String.ofList (url.take 2000) := by
  have hmemUrl : ∀ c ∈ (String.ofList url).toList, c ∈ "htps:/a b".toList := by
    rw [String.toList_ofList]
    exact hmem
  have hlower : PyText.lower someServer.lowerTable (String.ofList url) = String.ofList url := by
    have hall : "htps:/a b".toList.all (fun c => decide (c.toNat < 128 ∧ c.toLower = c)) = true := by decide
    exact PyText.lower_of_forall fun c hc => of_decide_eq_true (List.all_eq_true.1 hall c (hmemUrl c hc))
  have hmarkers : ["token", "secret", "password", "key"].any (PyText.contains (String.ofList url)) = false := by
    rw [← Bool.not_eq_true, List.any_eq_true]
    rintro ⟨marker, hmarker, hcontains⟩
    have habsent : ∀ c, c ∉ "htps:/a b".toList → c ∉ marker.toList :=
      fun c hc hin => hc (hmemUrl c (PostServer.mem_of_contains hcontains hin))
    simp only [List.mem_cons, List.not_mem_nil, or_false] at hmarker
    rcases hmarker with rfl | rfl | rfl | rfl
    · exact habsent 'k' (by decide) (by decide)
    · exact habsent 'c' (by decide) (by decide)
    · exact habsent 'w' (by decide) (by decide)
    · exact habsent 'k' (by decide) (by decide)
  have hsecure : isSecureUrl (String.ofList url) = true := by
    have hlist : (String.ofList url).toList = url := String.toList_ofList
    rw [isSecureUrl_iff, hlist]
    exact hstart
  unfold PostServer.cutUrl urlBody normalizeImageUrl
  dsimp only
  rw [Option.getD_some, hstrip, hlower, if_neg (by rw [hsecure]; decide), if_neg (by rw [hmarkers]; decide),
    PyText.take, String.toList_ofList]

def urlPost (url : String) : PreparedPost :=
  { content := { connectionRef := "wcn_1", pageId := "page", message := "hello", imageUrl := url }, image := [] }

theorem prepare_urlBody (url : List Char) :
    someServer.prepare (urlBody url) = .ok (urlPost (someServer.cutUrl (urlBody url))) := by
  have hblank : PyText.strip "" = "" := by decide
  have hdecode : someServer.decodeImage (urlBody url) = .ok [] := by
    unfold PostServer.decodeImage
    exact if_pos hblank
  have hpage : normalizePageId someServer.isAlnum "page" = "page" := by decide +kernel
  have hmessage : normalizeMessage "hello" = "hello" := by decide +kernel
  have href : safePublicConnectionRef someServer.lowerTable (some "wcn_1") = "wcn_1" := by decide +kernel
  have himage : someServer.imageSha256 [] = "" := rfl
  unfold PostServer.prepare
  rw [hdecode]
  dsimp only [urlBody, helloBody]
  rw [hpage, hmessage, href, himage, if_neg (by decide), if_neg (by decide)]
  rfl

/-- A preview with a URL that is cut behind a space lets the URL before the space through. -/
theorem letsThrough_cut (n : ℕ) (db : Database) : someServer.LetsThrough (urlPost (String.ofList (longUrl (n + 1) ++ [' '])))
    (urlPost (String.ofList (longUrl (n + 1)))) none 0 2000000 2000000
    (someServer.system.recordOperationApproval db {} (urlPost (String.ofList (longUrl (n + 1) ++ [' ']))).content 2000000
      .done).2 {} := by
  generalize hshown : String.ofList (longUrl (n + 1) ++ [' ']) = shown
  generalize hposted : String.ofList (longUrl (n + 1)) = posted
  have hshownStrip : PyText.strip shown = posted := by
    rw [← hshown, ← hposted]
    exact strip_longUrl n (List.forall_mem_singleton.2 (by decide))
  have hpostedStrip : PyText.strip posted = posted := by
    have hstrip := strip_longUrl n (List.forall_mem_nil _)
    rw [List.append_nil, hposted] at hstrip
    exact hstrip
  have hnonempty : shown ≠ "" ∧ posted ≠ "" := by
    have hne := ofList_longUrl_ne (n + 1)
    refine ⟨hshown ▸ hne _, ?_⟩
    rw [← hposted, ← List.append_nil (longUrl (n + 1))]
    exact hne []
  have haction : ∀ url : String, url ≠ "" → (urlPost url).content.actionSlug = "FACEBOOK_CREATE_PHOTO_POST" :=
    fun url hurl => if_pos (Or.inr hurl)
  have hurl : normalizeImageUrl someServer.lowerTable posted = normalizeImageUrl someServer.lowerTable shown := by
    unfold normalizeImageUrl
    rw [hshownStrip, hpostedStrip]
  have hpayload : someServer.system.previewPayload (urlPost posted).content =
      someServer.system.previewPayload (urlPost shown).content := by
    unfold PostSystem.previewPayload
    rw [haction posted hnonempty.2, haction shown hnonempty.1]
    simp only [urlPost, PostServer.system_lowerTable, hurl]
  have hfingerprint : someServer.system.operationFingerprint (urlPost posted).content =
      someServer.system.operationFingerprint (urlPost shown).content := by
    rw [PostServer.operationFingerprint_eq, PostServer.operationFingerprint_eq]
    unfold PostServer.fingerprintPayload
    rw [haction posted hnonempty.2, haction shown hnonempty.1]
    dsimp only [urlPost]
    rw [hshownStrip, hpostedStrip]
  have hevidence : someServer.system.previewEvidenceId (urlPost posted).content =
      someServer.system.previewEvidenceId (urlPost shown).content := by
    rw [PostSystem.previewEvidenceId, hpayload, PostSystem.previewEvidenceId]
  have howner : normalizeOwner someServer.organizationId someServer.userId = some ⟨"org", "user"⟩ := by decide
  refine ⟨?_, PostServer.consumed_after_record someServer_documented howner (by decide) hevidence hfingerprint db rfl
    2000000⟩
  have hlasts : ¬ (someServer.system.buildApprovalToken (urlPost shown).content 0 2000000).Expired 2000000 := by
    show ¬ (seconds 2000000 ≤ 0 ∨ tokenMaxAgeSeconds < seconds 2000000 - seconds 2000000)
    decide
  have htoken : (someServer.system.buildApprovalToken (urlPost shown).content 0 2000000).payload =
      someServer.system.previewPayload (urlPost posted).content := hpayload.symm
  have htokenEvidence : (someServer.system.buildApprovalToken (urlPost shown).content 0 2000000).previewEvidenceId =
      someServer.system.previewEvidenceId (urlPost posted).content := hevidence.symm
  unfold PostSystem.verifyApprovalToken
  dsimp only
  rw [if_neg hlasts, if_neg (not_or.2 ⟨not_not.2 htoken, not_not.2 htokenEvidence⟩), if_neg fun h => h.1 rfl]

theorem length_longUrl (n : ℕ) : (longUrl n).length = n + 8 := by
  rw [longUrl, List.length_cons, List.length_append, List.length_replicate]
  have hscheme : ['t', 't', 'p', 's', ':', '/', '/'].length = 7 := rfl
  omega

theorem longUrl_start (n : ℕ) (rest : List Char) : "https://".toList <+: longUrl n ++ rest := by
  refine ⟨List.replicate n 'a' ++ rest, ?_⟩
  rw [longUrl, List.cons_append, List.append_assoc]
  rfl

theorem cutUrl_word {n : ℕ} (hn : n + 8 = 1999) :
    someServer.cutUrl (urlBody (longUrl n ++ [' ', 'b'])) = String.ofList (longUrl n ++ [' ']) := by
  have hone : 2000 - (n + 8) = 1 := by omega
  have htake : (longUrl n ++ [' ', 'b']).take 2000 = longUrl n ++ [' '] := by
    rw [List.take_append, length_longUrl, List.take_of_length_le (by rw [length_longUrl]; omega), hone]
    rfl
  rw [cutUrl_urlBody (longUrl_start n _) (longUrl_mem n) (strip_longUrl_word n), htake]

theorem cutUrl_longUrl {n : ℕ} (hn : n + 9 = 1999) :
    someServer.cutUrl (urlBody (longUrl (n + 1))) = String.ofList (longUrl (n + 1)) := by
  have hstart := longUrl_start (n + 1) []
  have hstrip := strip_longUrl n (List.forall_mem_nil _)
  rw [List.append_nil] at hstart hstrip
  rw [cutUrl_urlBody hstart (fun c hc => longUrl_mem (n + 1) c (List.mem_append_left _ hc)) hstrip,
    List.take_of_length_le (by rw [length_longUrl]; omega)]

theorem posted_otherwise_of {n : ℕ} (hn : n + 9 = 1999) : ∃ shown posted db,
    someServer.Documented ∧ someServer.prepare (urlBody (longUrl (n + 1) ++ [' ', 'b'])) = .ok shown ∧
      someServer.prepare (urlBody (longUrl (n + 1))) = .ok posted ∧
      someServer.CollisionFree (someServer.hashedTexts shown ++ someServer.hashedTexts posted) ∧
      someServer.LetsThrough shown posted none 0 2000000 2000000 db {} ∧
      someServer.effect posted ≠ someServer.effect shown := by
  have hcutWord := cutUrl_word (n := n + 1) hn
  have hcut := cutUrl_longUrl hn
  have hshown := prepare_urlBody (longUrl (n + 1) ++ [' ', 'b'])
  have hposted := prepare_urlBody (longUrl (n + 1))
  rw [hcutWord] at hshown
  rw [hcut] at hposted
  -- both hashes are that of the URL without the space
  have hstripWord := strip_longUrl n (List.forall_mem_singleton.2 (by decide : isSpace ' ' = true))
  have hstrip := strip_longUrl n (List.forall_mem_nil _)
  rw [List.append_nil] at hstrip
  have hwordTwice : normalizeImageUrl someServer.lowerTable (String.ofList (longUrl (n + 1) ++ [' '])) =
      String.ofList (longUrl (n + 1)) := by
    rw [← hcutWord, PostServer.cutUrl, normalizeImageUrl_twice, ← PostServer.cutUrl, hcutWord, hstripWord]
  have htwice : normalizeImageUrl someServer.lowerTable (String.ofList (longUrl (n + 1))) =
      String.ofList (longUrl (n + 1)) := by
    conv_lhs => rw [← hcut, PostServer.cutUrl, normalizeImageUrl_twice, ← PostServer.cutUrl, hcut, hstrip]
  refine ⟨_, _, _, someServer_documented, hshown, hposted, ?_, letsThrough_cut n {}, ?_⟩
  · refine someServer_collisionFree (utf8 (String.ofList (longUrl (n + 1)))) fun text htext => ?_
    simp only [PostServer.hashedTexts, urlPost, hwordTwice, htwice, List.mem_append, List.mem_cons, List.not_mem_nil, or_false,
      or_self] at htext
    rcases htext with h | h | h
    · exact Or.inl h
    · exact Or.inr (Or.inr h)
    · exact Or.inr (Or.inl h)
  · have hne := ofList_longUrl_ne (n + 1)
    have hneUrl := hne []
    rw [List.append_nil] at hneUrl
    intro heffect
    have hurl := congrArg PostEffect.url heffect
    simp only [PostServer.effect, urlPost, ne_eq, hneUrl, hne, not_false_eq_true, and_self, if_true] at hurl
    have hlist := congrArg (List.length ∘ String.toList) (Option.some.inj hurl)
    simp at hlist

/-- A URL is posted that is not the one of the preview. -/
theorem posted_otherwise : ∃ shown posted db,
    someServer.Documented ∧ someServer.prepare (urlBody (longUrl 1991 ++ [' ', 'b'])) = .ok shown ∧
      someServer.prepare (urlBody (longUrl 1991)) = .ok posted ∧
      someServer.CollisionFree (someServer.hashedTexts shown ++ someServer.hashedTexts posted) ∧
      someServer.LetsThrough shown posted none 0 2000000 2000000 db {} ∧
      someServer.effect posted ≠ someServer.effect shown := posted_otherwise_of (n := 1990) rfl

end Wiii.Connect
