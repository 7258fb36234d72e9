import Wiii.Lib.Dialog
import Wiii.Neko.Gmail.Model

/-!
# Synchronising a mailbox

The runs of the adapter for one account, as dialogs: what they ask of the provider and of the signal inbox, in order,
and what they do with each answer.  Some requests carry more than is sent, for the proofs to refer to: a page request
the pages of its listing so far, and a write of the cursor what the run knows the cursor to be.
-/

namespace Wiii.Neko.Gmail

open Signal (Platform SignalIngress SignalAdmission SignalAdmissionOutcome SignalCursorCheckpoint)
open Dialog

inductive Request where
  | grantIsActive
  | currentHistoryId
  | listHistory (startHistoryId : String) (pageToken : Option String) (maxResults : ℕ)
      (pages : List GmailHistoryPage)
  | reconcile (maxMessages : ℕ) (previousHistoryId : String)
  | cursor
  | ingestBatch (held : Option String) (inputs : List SignalIngress)
  | advanceCursor (held : Option String) (sourceCursor : String) (gapDetected : Bool)
  | revokeAccount

@[reducible] def Answer : Request → Type
  | .grantIsActive => Except GmailHistoryError Bool
  | .currentHistoryId => Except GmailHistoryError String
  | .listHistory _ _ _ _ => Except GmailHistoryError GmailHistoryPage
  | .reconcile _ _ => Except GmailHistoryError GmailReconciliationSnapshot
  | .cursor => Except String (Option SignalCursorCheckpoint)
  | .ingestBatch _ _ => Except String (List SignalAdmission)
  | .advanceCursor _ _ _ => Except String SignalCursorCheckpoint
  | .revokeAccount => Except String ℕ

abbrev Sync := Dialog Answer String

abbrev send (r : Request) : Sync (Answer r) := request r

inductive GmailSyncOutcome where
  | bootstrapped
  | upToDate
  | synchronized
  | reconciled
  | reconciliationRequired
  | revoked
  deriving DecidableEq

structure GmailSyncReport where
  outcome : GmailSyncOutcome
  previousHistoryId : Option String
  nextHistoryId : Option String
  admitted : ℕ
  inserted : ℕ
  coalesced : ℕ
  deduplicated : ℕ
  gapDetected : Bool

def report (outcome : GmailSyncOutcome) (previousHistoryId nextHistoryId : Option String)
    (admissions : List SignalAdmission) (gapDetected : Bool) : GmailSyncReport where
  outcome := outcome
  previousHistoryId := previousHistoryId
  nextHistoryId := nextHistoryId
  admitted := admissions.length
  inserted := admissions.countP fun admission => admission.outcome = .inserted
  coalesced := admissions.countP fun admission => admission.outcome = .coalesced
  deduplicated := admissions.countP fun admission => admission.outcome = .deduplicated
  gapDetected := gapDetected

def active : Sync Bool := do
  match ← send .grantIsActive with
  | .ok active => pure active
  | .error .grantRevoked => pure false
  | .error error => fail (historyError error)

def revokedReport (previousHistoryId : Option String) : Sync GmailSyncReport := do
  let _ ← ofExcept (← send .revokeAccount)
  pure (report .revoked previousHistoryId none [] false)

/-- Gives up at the cursor the run started from, which is marked as having a gap. -/
def giveUp (previousHistoryId error : String) : Sync GmailSyncReport := do
  let _ ← ofExcept (← send (.advanceCursor (some previousHistoryId) previousHistoryId true))
  fail error

section Sync

variable (P : Platform) (accountGrantRef : String)

/-- The inputs of a snapshot: the gap, then the messages. -/
def reconciliationInputs (localObservedAt : Instant) (previousHistoryId : String)
    (snapshot : GmailReconciliationSnapshot) : Except String (List SignalIngress) := do
  let messages ← snapshotInputs P accountGrantRef localObservedAt snapshot.historyId
    (uniqueMessages snapshot.messageIds)
  .ok (gapSignal P accountGrantRef localObservedAt previousHistoryId snapshot.historyId :: messages)

def reconcileGap (localObservedAt : Instant) (previousHistoryId : String) :
    Sync GmailSyncReport := do
  match ← send (.reconcile (maxChanges - 1) previousHistoryId) with
  | .error .grantRevoked => revokedReport (some previousHistoryId)
  | .error _ =>
    let _ ← ofExcept (← send (.advanceCursor (some previousHistoryId) previousHistoryId true))
    pure (report .reconciliationRequired (some previousHistoryId) (some previousHistoryId) [] true)
  | .ok snapshot =>
    let _ ← ofExcept (historyNumber snapshot.historyId)
    if maxChanges - 1 < snapshot.messageIds.length then
      fail "gmail_reconciliation_change_limit_exceeded"
    else if !(← active) then revokedReport (some previousHistoryId)
    else
      let inputs ← ofExcept
        (reconciliationInputs P accountGrantRef localObservedAt previousHistoryId snapshot)
      let admissions ← ofExcept (← send (.ingestBatch (some previousHistoryId) inputs))
      let _ ← ofExcept
        (← send (.advanceCursor (some snapshot.historyId) snapshot.historyId false))
      pure (report .reconciled (some previousHistoryId) (some snapshot.historyId) admissions true)

/-- The inputs and the largest id, or nothing when there are too many. -/
def takeRecords (localObservedAt : Instant) :
    List GmailHistoryRecord → List SignalIngress → String →
      Except String (Option (List SignalIngress × String))
  | [], inputs, nextHistoryId => .ok (some (inputs, nextHistoryId))
  | record :: records, inputs, nextHistoryId => do
    let nextHistoryId ← maxHistory nextHistoryId record.id
    let more ← recordInputs P accountGrantRef localObservedAt record
    if maxChanges < (inputs ++ more).length then .ok none
    else takeRecords localObservedAt records (inputs ++ more) nextHistoryId

/-- What the run holds between two pages. -/
structure Listing where
  inputs : List SignalIngress
  pageToken : Option String
  seenTokens : List String
  nextHistoryId : String
  /-- The pages so far. -/
  pages : List GmailHistoryPage

def heldAfter (previousHistoryId : String) (inputs : List SignalIngress) : String :=
  (inputs.getLast?.map SignalIngress.sourceCursor).getD previousHistoryId

def finishListing (previousHistoryId : String) (inputs : List SignalIngress)
    (nextHistoryId : String) : Sync GmailSyncReport := do
  if !(← active) then revokedReport (some previousHistoryId)
  else
    let admissions ← if inputs.isEmpty then pure []
      else do ofExcept (← send (.ingestBatch (some previousHistoryId) inputs))
    let _ ← ofExcept (← send (.advanceCursor (some (heldAfter previousHistoryId inputs))
      nextHistoryId false))
    let outcome : GmailSyncOutcome :=
      if admissions.isEmpty ∧ nextHistoryId = previousHistoryId then .upToDate else .synchronized
    pure (report outcome (some previousHistoryId) (some nextHistoryId) admissions false)

/-- The loop over the pages, with the number of pages that may still be asked for. -/
def readPages (localObservedAt : Instant) (previousHistoryId : String) :
    ℕ → Listing → Sync GmailSyncReport
  | 0, _ => giveUp previousHistoryId "gmail_history_page_limit_exceeded"
  | n + 1, listing => do
    if !(← active) then revokedReport (some previousHistoryId)
    else
      match ← send (.listHistory previousHistoryId listing.pageToken maxPageSize
        listing.pages) with
      | .error .cursorExpired => reconcileGap P accountGrantRef localObservedAt previousHistoryId
      | .error .grantRevoked => revokedReport (some previousHistoryId)
      | .error error => fail (historyError error)
      | .ok page =>
        let _ ← ofExcept (validatePage page)
        let nextHistoryId ← ofExcept (maxHistory listing.nextHistoryId page.historyId)
        match ← ofExcept (takeRecords P accountGrantRef localObservedAt page.history listing.inputs
          nextHistoryId) with
        | none => giveUp previousHistoryId "gmail_history_change_limit_exceeded"
        | some (inputs, nextHistoryId) =>
          match page.nextPageToken with
          | none => finishListing previousHistoryId inputs nextHistoryId
          | some token =>
            let _ ← ofExcept (validateProviderToken token)
            if token ∈ listing.seenTokens then
              giveUp previousHistoryId "gmail_history_page_token_loop"
            else
              readPages localObservedAt previousHistoryId n
                { inputs := inputs
                  pageToken := some token
                  seenTokens := token :: listing.seenTokens
                  nextHistoryId := nextHistoryId
                  pages := listing.pages ++ [page] }

def incremental (localObservedAt : Instant) (previousHistoryId : String) : Sync GmailSyncReport :=
  readPages P accountGrantRef localObservedAt previousHistoryId maxPages
    { inputs := [], pageToken := none, seenTokens := [], nextHistoryId := previousHistoryId
      pages := [] }

def syncAt (localObservedAt : Instant) : Sync GmailSyncReport := do
  let _ ← ofExcept (validateToken accountGrantRef "accountGrantRef" 256 true)
  if !(← active) then revokedReport none
  else
    match ← ofExcept (← send .cursor) with
    | none =>
      match ← send .currentHistoryId with
      | .error .grantRevoked => revokedReport none
      | .error error => fail (historyError error)
      | .ok current =>
        let _ ← ofExcept (historyNumber current)
        if !(← active) then revokedReport none
        else
          let _ ← ofExcept (← send (.advanceCursor none current false))
          pure (report .bootstrapped none (some current) [] false)
    | some checkpoint =>
      let _ ← ofExcept (historyNumber checkpoint.sourceCursor)
      incremental P accountGrantRef localObservedAt checkpoint.sourceCursor

/-- A run that a watch notification of the account starts. -/
def syncFromWatch (hint : GmailWatchHint) (localObservedAt : Instant) : Sync GmailSyncReport := do
  let _ ← ofExcept (validateToken hint.accountGrantRef "accountGrantRef" 256 true)
  let hinted ← ofExcept (historyNumber hint.historyId)
  match P.parseFromRfc3339 hint.observedAt with
  | none => fail "gmail_observedAt_invalid"
  | some _ =>
    if !(← active) then
      let cursor ← ofExcept (← send .cursor)
      revokedReport (cursor.map SignalCursorCheckpoint.sourceCursor)
    else
      match ← ofExcept (← send .cursor) with
      | none => syncAt P hint.accountGrantRef localObservedAt
      | some cursor =>
        -- Only a cursor without a gap is compared with the hint.
        if cursor.gapDetected then syncAt P hint.accountGrantRef localObservedAt
        else
          let current ← ofExcept (historyNumber cursor.sourceCursor)
          if hinted ≤ current then
            pure (report .upToDate (some cursor.sourceCursor) (some cursor.sourceCursor) [] false)
          else syncAt P hint.accountGrantRef localObservedAt

end Sync

end Wiii.Neko.Gmail
