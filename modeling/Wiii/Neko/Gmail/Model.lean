import Wiii.Lib.Except
import Wiii.Neko.Signal.Platform

/-!
# The history of a mailbox

What the mail provider answers, and how a record of its history becomes signals.  History ids are
texts of numbers.  A record names messages in several lists; for each class of change and each message
it becomes one signal, whose dedupe key is made of the record, the class and the message.
-/

namespace Wiii.Neko.Gmail

open Signal (Platform SignalIngress SignalKind SignalPriority containsText)

def sourceId : String := "gmail.history.v1"
def appId : String := "gmail"
def maxPageSize : ℕ := 500
def maxPages : ℕ := 20
def maxChanges : ℕ := 10000
def signalTtlSeconds : ℕ := 30 * 24 * 60 * 60

inductive GmailHistoryError where
  | grantRevoked
  | cursorExpired
  | unauthorized
  | rateLimited
  | providerUnavailable
  | invalidResponse
  deriving DecidableEq

def historyError : GmailHistoryError → String
  | .grantRevoked => "gmail_account_grant_revoked"
  | .cursorExpired => "gmail_history_cursor_expired"
  | .unauthorized => "gmail_account_grant_unauthorized"
  | .rateLimited => "gmail_rate_limited"
  | .providerUnavailable => "gmail_provider_unavailable"
  | .invalidResponse => "gmail_provider_response_invalid"

structure GmailMessageRef where
  id : String
  deriving DecidableEq

structure GmailMessageChange where
  message : GmailMessageRef
  deriving DecidableEq

structure GmailLabelChange where
  message : GmailMessageRef
  deriving DecidableEq

structure GmailHistoryRecord where
  id : String
  messages : List GmailMessageRef := []
  messagesAdded : List GmailMessageChange := []
  messagesDeleted : List GmailMessageChange := []
  labelsAdded : List GmailLabelChange := []
  labelsRemoved : List GmailLabelChange := []
  deriving DecidableEq

structure GmailHistoryPage where
  history : List GmailHistoryRecord := []
  nextPageToken : Option String := none
  historyId : String
  deriving DecidableEq

structure GmailReconciliationSnapshot where
  historyId : String
  messageIds : List String
  deriving DecidableEq

structure GmailWatchHint where
  accountGrantRef : String
  historyId : String
  observedAt : String
  deriving DecidableEq

/-! ## Texts -/

def validateToken (value field : String) (max : ℕ) (strict : Bool) : Except String Unit :=
  let strictByte := fun byte : UInt8 => (0x30 ≤ byte && byte ≤ 0x39) ||
    (0x41 ≤ byte && byte ≤ 0x5a) || (0x61 ≤ byte && byte ≤ 0x7a) || byte = 0x2d || byte = 0x5f
  if !value.isEmpty && decide (value.utf8ByteSize ≤ max) && !value.toList.any Signal.isControl &&
      !containsText value "://" && (!strict || (bytes value).all strictByte) then
    .ok ()
  else .error s!"gmail_{field}_invalid"

def validateProviderToken (value : String) : Except String Unit :=
  if value.isEmpty || decide (2048 < value.utf8ByteSize) || value.toList.any Signal.isControl then
    .error "gmail_page_token_invalid"
  else .ok ()

/-- `str::parse::<u64>`: decimal digits, after a plus sign or not. -/
def parseU64 (value : String) : Option ℕ :=
  let digits := match value.toList with
    | '+' :: rest => rest
    | chars => chars
  if digits.isEmpty || !digits.all Char.isDigit then none
  else
    let number := digits.foldl (fun n c => n * 10 + (c.toNat - 48)) 0
    if number < 2 ^ 64 then some number else none

def historyNumber (value : String) : Except String ℕ :=
  match parseU64 value with
  | some number => if 0 < number then .ok number else .error "gmail_history_id_invalid"
  | none => .error "gmail_history_id_invalid"

def maxHistory (left right : String) : Except String String := do
  let r ← historyNumber right
  let l ← historyNumber left
  if l < r then .ok right else .ok left

theorem maxHistory_ok {left right max : String} (h : maxHistory left right = .ok max) :
    ∃ l r, historyNumber left = .ok l ∧ historyNumber right = .ok r ∧
      ((max = right ∧ l < r) ∨ (max = left ∧ r ≤ l)) := by
  obtain ⟨r, hr, h⟩ := bind_ok_iff.1 h
  obtain ⟨l, hl, h⟩ := bind_ok_iff.1 h
  refine ⟨l, r, hl, hr, ?_⟩
  split_ifs at h with hlt
  · cases h
    exact .inl ⟨rfl, hlt⟩
  · cases h
    exact .inr ⟨rfl, not_lt.1 hlt⟩

def validatePage (page : GmailHistoryPage) : Except String Unit := do
  let _ ← historyNumber page.historyId
  if maxChanges < page.history.length then .error "gmail_history_page_too_large" else .ok ()

/-! ## Ordered maps -/

/-- `BTreeMap::insert`, on the entries in the order of their keys. -/
def btreeInsert {β : Type} (key : String) (value : β) : List (String × β) → List (String × β)
  | [] => [(key, value)]
  | entry :: entries =>
    if key < entry.1 then (key, value) :: entry :: entries
    else if key = entry.1 then (key, value) :: entries
    else entry :: btreeInsert key value entries

section BTree

variable {β : Type} {key : String} {value : β} {entry : String × β} {entries : List (String × β)}

theorem mem_btreeInsert_self (key : String) (value : β) (entries : List (String × β)) :
    (key, value) ∈ btreeInsert key value entries := by
  induction entries with
  | nil => simp [btreeInsert]
  | cons e es ih =>
    unfold btreeInsert
    split_ifs
    · exact List.mem_cons_self ..
    · exact List.mem_cons_self ..
    · exact List.mem_cons_of_mem _ ih

theorem mem_btreeInsert_of_mem (h : entry ∈ entries) (hkey : entry.1 ≠ key) :
    entry ∈ btreeInsert key value entries := by
  induction entries with
  | nil => cases h
  | cons e es ih =>
    unfold btreeInsert
    split_ifs with _ heq
    · exact List.mem_cons_of_mem _ h
    · rcases List.mem_cons.1 h with rfl | h
      · exact absurd heq.symm hkey
      · exact List.mem_cons_of_mem _ h
    · rcases List.mem_cons.1 h with rfl | h
      · exact List.mem_cons_self ..
      · exact List.mem_cons_of_mem _ (ih h)

theorem mem_of_mem_btreeInsert (h : entry ∈ btreeInsert key value entries) :
    entry = (key, value) ∨ entry ∈ entries := by
  induction entries with
  | nil => exact .inl (List.mem_singleton.1 h)
  | cons e es ih =>
    unfold btreeInsert at h
    split_ifs at h
    · exact (List.mem_cons.1 h).imp id id
    · exact (List.mem_cons.1 h).imp id (List.mem_cons_of_mem _)
    · rcases List.mem_cons.1 h with rfl | h
      · exact .inr (List.mem_cons_self ..)
      · exact (ih h).imp id (List.mem_cons_of_mem _)

end BTree

/-! ## Signals of a record -/

inductive ChangeClass where
  | content
  | state
  deriving DecidableEq

namespace ChangeClass

def code : ChangeClass → String
  | content => "content"
  | state => "state"

def kind : ChangeClass → SignalKind
  | content => .contentChanged
  | state => .stateChanged

end ChangeClass

/-- A change of a message: the record it is in, its class and the message. -/
structure Change where
  historyId : String
  changeClass : ChangeClass
  messageId : String
  deriving DecidableEq

def Change.key (c : Change) : String :=
  s!"gmail:{c.historyId}:{c.changeClass.code}:{c.messageId}"

def gapKey (previousHistoryId snapshotHistoryId : String) : String :=
  s!"gmail:gap:{previousHistoryId}:{snapshotHistoryId}"

/-- The entries of the map of changes: message, class, whether there is content to read. -/
abbrev Changes := List (String × String × ChangeClass × Bool)

def addChange (changes : Changes) (messageId : String) (changeClass : ChangeClass)
    (contentAvailable : Bool) : Except String Changes := do
  validateToken messageId "messageId" 128 true
  .ok (btreeInsert s!"{changeClass.code}:{messageId}" (messageId, changeClass, contentAvailable)
    changes)

/-- The changes of a record, in the order in which they enter the map. -/
def GmailHistoryRecord.changes (record : GmailHistoryRecord) : List (String × ChangeClass × Bool) :=
  record.messagesAdded.map (fun change => (change.message.id, .content, true)) ++
    record.messagesDeleted.map (fun change => (change.message.id, .state, false)) ++
    record.labelsAdded.map (fun change => (change.message.id, .state, true)) ++
    record.labelsRemoved.map (fun change => (change.message.id, .state, true)) ++
    record.messages.map fun message => (message.id, .content, true)

def addChanges : List (String × ChangeClass × Bool) → Changes → Except String Changes
  | [], changes => .ok changes
  | (messageId, changeClass, contentAvailable) :: rest, changes => do
    let changes ← addChange changes messageId changeClass contentAvailable
    addChanges rest changes

section Signals

variable (P : Platform) (accountGrantRef : String) (observedAt : Instant)

def messageSignal (messageId : String) (kind : SignalKind) (sourceCursor dedupeKey : String)
    (contentAvailable : Bool) : SignalIngress where
  sourceId := sourceId
  accountGrantRef := accountGrantRef
  appId := appId
  resourceRef := s!"gmail:message:{messageId}"
  kind := kind
  sourceCursor := sourceCursor
  dedupeKey := dedupeKey
  observedAt := P.timestamp observedAt
  availableAt := none
  expiresAt := P.timestamp (P.plusSeconds observedAt signalTtlSeconds)
  priorityClass := .normal
  contentAvailable := contentAvailable
  gapDetected := false

def recordInputs (record : GmailHistoryRecord) : Except String (List SignalIngress) := do
  let _ ← historyNumber record.id
  let changes ← addChanges record.changes []
  .ok (changes.map fun (_, messageId, changeClass, contentAvailable) =>
    messageSignal P accountGrantRef observedAt messageId changeClass.kind record.id
      (Change.key ⟨record.id, changeClass, messageId⟩) contentAvailable)

def gapSignal (previousHistoryId snapshotHistoryId : String) : SignalIngress where
  sourceId := sourceId
  accountGrantRef := accountGrantRef
  appId := appId
  resourceRef := "gmail:mailbox"
  kind := .attentionRequired
  sourceCursor := snapshotHistoryId
  dedupeKey := gapKey previousHistoryId snapshotHistoryId
  observedAt := P.timestamp observedAt
  availableAt := none
  expiresAt := P.timestamp (P.plusSeconds observedAt signalTtlSeconds)
  priorityClass := .high
  contentAvailable := false
  gapDetected := true

def snapshotInputs (snapshotHistoryId : String) : List String → Except String (List SignalIngress)
  | [] => .ok []
  | messageId :: messageIds => do
    validateToken messageId "messageId" 128 true
    let rest ← snapshotInputs snapshotHistoryId messageIds
    .ok (messageSignal P accountGrantRef observedAt messageId .contentChanged snapshotHistoryId
      s!"gmail:reconcile:{snapshotHistoryId}:{messageId}" true :: rest)

/-- The distinct messages of a snapshot, in their order. -/
def uniqueMessages (messageIds : List String) : List String :=
  (messageIds.foldl (fun set messageId => btreeInsert messageId () set) []).map Prod.fst

end Signals

end Wiii.Neko.Gmail
