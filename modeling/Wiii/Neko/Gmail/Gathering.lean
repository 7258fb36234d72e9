import Wiii.Neko.Gmail.System

/-!
# What a synchronisation gathers

The inputs that a run gathers from the records of its pages: they are signals of the account, their cursors are ids of
the records, and they have a signal for every change that the records name (`Gathered`).
-/

namespace Wiii.Neko.Gmail

open Signal (Platform SignalIngress)

/-! ## Keys -/

theorem toList_key (c : Change) : c.key.toList =
    "gmail:".toList ++ (c.historyId.toList ++ (':' :: (c.changeClass.code.toList ++
      ':' :: c.messageId.toList))) := by
  simp [Change.key, toString, String.toList_append]

theorem toList_gapKey (p n : String) : (gapKey p n).toList =
    "gmail:gap:".toList ++ (p.toList ++ ':' :: n.toList) := by
  simp [gapKey, toString, String.toList_append]

theorem not_g_of_parseU64 {value : String} {n : ℕ} (h : parseU64 value = some n) :
    ∃ c rest, value.toList = c :: rest ∧ c ≠ 'g' := by
  unfold parseU64 at h
  cases hv : value.toList with
  | nil => simp [hv] at h
  | cons c rest =>
    refine ⟨c, rest, rfl, ?_⟩
    rintro rfl
    simp [hv] at h

theorem not_gap_key {c : Change} {n : ℕ} (h : historyNumber c.historyId = .ok n) :
    ¬ "gmail:gap:".toList <+: c.key.toList := by
  have hp : ∃ n, parseU64 c.historyId = some n := by
    unfold historyNumber at h
    split at h
    · exact ⟨_, ‹_›⟩
    · cases h
  obtain ⟨n, hp⟩ := hp
  obtain ⟨ch, rest, hl, hg⟩ := not_g_of_parseU64 hp
  rw [toList_key, hl]
  simp [Ne.symm hg]

/-- A signal with this key, of a gap or not, is of the change or of a gap around it. -/
def Covers (key : String) (gap : Bool) (c : Change) : Prop :=
  key = c.key ∧ gap = false ∨ gap = true ∧ ∃ previous snapshot p n m,
    key = gapKey previous snapshot ∧ historyNumber previous = .ok p ∧
      historyNumber snapshot = .ok n ∧ historyNumber c.historyId = .ok m ∧ p < m ∧ m ≤ n

/-! ## The map of changes -/

def mapKey (changeClass : ChangeClass) (messageId : String) : String :=
  s!"{changeClass.code}:{messageId}"

theorem key_congr {historyId messageId messageId' : String} {changeClass changeClass' : ChangeClass}
    (h : mapKey changeClass messageId = mapKey changeClass' messageId') :
    Change.key ⟨historyId, changeClass, messageId⟩ =
      Change.key ⟨historyId, changeClass', messageId'⟩ := by
  have hlist := congrArg String.toList h
  simp only [mapKey, toString, String.toList_append] at hlist
  rw [← String.toList_inj, toList_key, toList_key]
  simpa using hlist

/-- The entries of the map stand under their own keys. -/
def Fits (changes : Changes) : Prop :=
  ∀ entry ∈ changes, entry.1 = mapKey entry.2.2.1 entry.2.1

theorem addChanges_spec {list : List (String × ChangeClass × Bool)} {changes changes' : Changes}
    (hfits : Fits changes) (h : addChanges list changes = .ok changes') :
    Fits changes' ∧ (∀ entry ∈ changes, ∃ entry' ∈ changes', entry'.1 = entry.1) ∧
      ∀ change ∈ list, ∃ entry ∈ changes', entry.1 = mapKey change.2.1 change.1 := by
  induction list generalizing changes with
  | nil =>
    cases h
    exact ⟨hfits, fun entry he => ⟨entry, he, rfl⟩, by simp⟩
  | cons change list ih =>
    obtain ⟨messageId, changeClass, contentAvailable⟩ := change
    obtain ⟨changes₁, hadd, h⟩ := bind_ok_iff.1 h
    obtain ⟨-, hadd⟩ := bind_unit_ok_iff.1 hadd
    cases hadd
    have hself := mem_btreeInsert_self (mapKey changeClass messageId)
      (messageId, changeClass, contentAvailable) changes
    have hfits₁ : Fits (btreeInsert (mapKey changeClass messageId)
        (messageId, changeClass, contentAvailable) changes) := by
      intro entry he
      rcases mem_of_mem_btreeInsert he with rfl | he
      · rfl
      · exact hfits entry he
    obtain ⟨hfits', hold, hnew⟩ := ih hfits₁ h
    refine ⟨hfits', fun entry he => ?_, List.forall_mem_cons.2 ⟨hold _ hself, hnew⟩⟩
    by_cases hkey : entry.1 = mapKey changeClass messageId
    · rw [hkey]
      exact hold _ hself
    · exact hold entry (mem_btreeInsert_of_mem he hkey)

/-! ## Inputs -/

structure Gathered (account : String) (records : List GmailHistoryRecord)
    (inputs : List SignalIngress) : Prop where
  own : ∀ input ∈ inputs, input.sourceId = sourceId ∧ Own account input
  cursors : ∀ input ∈ inputs, ∃ record ∈ records, input.sourceCursor = record.id
  listed : ∀ record ∈ records, ∀ c, record.Names c →
    ∃ input ∈ inputs, Covers input.dedupeKey input.gapDetected c

theorem gathered_nil (account : String) : Gathered account [] [] :=
  ⟨by simp, by simp, by simp⟩

theorem Gathered.append {account : String} {records records' : List GmailHistoryRecord}
    {inputs inputs' : List SignalIngress} (h : Gathered account records inputs)
    (h' : Gathered account records' inputs') :
    Gathered account (records ++ records') (inputs ++ inputs') where
  own := List.forall_mem_append.2 ⟨h.own, h'.own⟩
  cursors := by
    intro input hi
    rcases List.mem_append.1 hi with hi | hi
    · obtain ⟨record, hr, hcursor⟩ := h.cursors input hi
      exact ⟨record, List.mem_append_left _ hr, hcursor⟩
    · obtain ⟨record, hr, hcursor⟩ := h'.cursors input hi
      exact ⟨record, List.mem_append_right _ hr, hcursor⟩
  listed := by
    intro record hr c hc
    rcases List.mem_append.1 hr with hr | hr
    · obtain ⟨input, hi, hcovers⟩ := h.listed record hr c hc
      exact ⟨input, List.mem_append_left _ hi, hcovers⟩
    · obtain ⟨input, hi, hcovers⟩ := h'.listed record hr c hc
      exact ⟨input, List.mem_append_right _ hi, hcovers⟩

section Records

variable {P : Platform} {account : String} {localObservedAt : Instant}

theorem gathered_recordInputs {record : GmailHistoryRecord} {inputs : List SignalIngress}
    (h : recordInputs P account localObservedAt record = .ok inputs) :
    Gathered account [record] inputs := by
  obtain ⟨n, hn, h⟩ := bind_ok_iff.1 h
  obtain ⟨changes, hchanges, h⟩ := bind_ok_iff.1 h
  cases h
  obtain ⟨hfits, -, hall⟩ := addChanges_spec (by simp [Fits]) hchanges
  refine ⟨fun input hi => ?_, fun input hi => ?_, fun record' hr c hc => ?_⟩
  · obtain ⟨entry, -, rfl⟩ := List.mem_map.1 hi
    refine ⟨rfl, rfl, ?_⟩
    simpa [messageSignal] using not_gap_key (c := ⟨record.id, _, _⟩) hn
  · obtain ⟨entry, -, rfl⟩ := List.mem_map.1 hi
    exact ⟨record, List.mem_singleton_self _, rfl⟩
  · obtain rfl := List.mem_singleton.1 hr
    obtain ⟨hid, contentAvailable, hmem⟩ := hc
    obtain ⟨entry, hentry, hkey⟩ := hall _ hmem
    refine ⟨_, List.mem_map_of_mem hentry, .inl ⟨?_, rfl⟩⟩
    rw [hfits entry hentry] at hkey
    exact (key_congr hkey).trans (by rw [hid])

/-- The run advances from `previous` to `next`: the largest of the ids, or not at all. -/
def Largest (ids : List String) (previous next : String) : Prop :=
  ∃ p n, historyNumber previous = .ok p ∧ historyNumber next = .ok n ∧ p ≤ n ∧
    (n = p ∨ ∃ id ∈ ids, historyNumber id = .ok n) ∧
    ∀ id ∈ ids, ∃ m, historyNumber id = .ok m ∧ m ≤ n

theorem largest_nil {previous : String} {p : ℕ} (hp : historyNumber previous = .ok p) :
    Largest [] previous previous :=
  ⟨p, p, hp, hp, le_rfl, .inl rfl, by simp⟩

theorem Largest.snoc {ids : List String} {previous next next' id : String}
    (h : Largest ids previous next) (hmax : maxHistory next id = .ok next') :
    Largest (ids ++ [id]) previous next' := by
  obtain ⟨p, n, hp, hn, hle, hmem, hall⟩ := h
  obtain ⟨n', m, hn', hm, hcases⟩ := maxHistory_ok hmax
  rw [hn] at hn'
  cases hn'
  rcases hcases with ⟨rfl, hlt⟩ | ⟨rfl, hle'⟩
  · refine ⟨p, m, hp, hm, hle.trans hlt.le, .inr ⟨_, by simp, hm⟩, fun id' hid => ?_⟩
    rcases List.mem_append.1 hid with hid | hid
    · obtain ⟨m', hm', hle'⟩ := hall id' hid
      exact ⟨m', hm', hle'.trans hlt.le⟩
    · obtain rfl := List.mem_singleton.1 hid
      exact ⟨m, hm, le_rfl⟩
  · refine ⟨p, n, hp, hn, hle, ?_, ?_⟩
    · exact hmem.imp (fun h => h) fun ⟨id', hid, h'⟩ => ⟨id', by simp [hid], h'⟩
    · intro id' hid
      rcases List.mem_append.1 hid with hid | hid
      · exact hall id' hid
      · obtain rfl := List.mem_singleton.1 hid
        exact ⟨m, hm, hle'⟩

theorem takeRecords_spec {records earlier : List GmailHistoryRecord} {ids : List String}
    {inputs inputs' : List SignalIngress} {previous next next' : String}
    (hg : Gathered account earlier inputs) (hl : Largest ids previous next)
    (h : takeRecords P account localObservedAt records inputs next = .ok (some (inputs', next'))) :
    Gathered account (earlier ++ records) inputs' ∧
      Largest (ids ++ records.map GmailHistoryRecord.id) previous next' := by
  induction records generalizing earlier ids inputs next with
  | nil =>
    cases h
    simpa using ⟨hg, hl⟩
  | cons record records ih =>
    obtain ⟨next₁, hmax, h⟩ := bind_ok_iff.1 h
    obtain ⟨more, hmore, h⟩ := bind_ok_iff.1 h
    split_ifs at h
    · cases h
    · have hrest := ih (hg.append (gathered_recordInputs hmore)) (hl.snoc hmax) h
      simpa using hrest

theorem page_spec {pages : List GmailHistoryPage} {page : GmailHistoryPage}
    {inputs inputs' : List SignalIngress} {previous next next₁ next' : String}
    (hg : Gathered account (pages.flatMap GmailHistoryPage.history) inputs)
    (hl : Largest (reportedIds pages) previous next)
    (hmax : maxHistory next page.historyId = .ok next₁)
    (h : takeRecords P account localObservedAt page.history inputs next₁ =
      .ok (some (inputs', next'))) :
    Gathered account ((pages ++ [page]).flatMap GmailHistoryPage.history) inputs' ∧
      Largest (reportedIds (pages ++ [page])) previous next' := by
  have hspec := takeRecords_spec hg (hl.snoc hmax) h
  simpa [reportedIds] using hspec

/-! ## Snapshots -/

theorem snapshotInputs_spec {snapshotHistoryId : String} {messageIds : List String}
    {inputs : List SignalIngress}
    (h : snapshotInputs P account localObservedAt snapshotHistoryId messageIds = .ok inputs) :
    ∀ input ∈ inputs, input.sourceId = sourceId ∧ Own account input ∧
      input.sourceCursor = snapshotHistoryId := by
  induction messageIds generalizing inputs with
  | nil =>
    cases h
    simp
  | cons messageId messageIds ih =>
    obtain ⟨-, h⟩ := bind_unit_ok_iff.1 h
    obtain ⟨rest, hrest, h⟩ := bind_ok_iff.1 h
    cases h
    refine List.forall_mem_cons.2 ⟨⟨rfl, ⟨rfl, ?_⟩, rfl⟩, ih hrest⟩
    simp [messageSignal, toString, String.toList_append]

theorem reconciliationInputs_spec {previous : String} {snapshot : GmailReconciliationSnapshot}
    {inputs : List SignalIngress}
    (h : reconciliationInputs P account localObservedAt previous snapshot = .ok inputs) :
    (∀ input ∈ inputs, input.sourceId = sourceId ∧ Own account input ∧
      input.sourceCursor = snapshot.historyId) ∧
      gapSignal P account localObservedAt previous snapshot.historyId ∈ inputs := by
  obtain ⟨messages, hmessages, h⟩ := bind_ok_iff.1 h
  cases h
  refine ⟨List.forall_mem_cons.2 ⟨⟨rfl, ⟨rfl, ?_⟩, rfl⟩, snapshotInputs_spec hmessages⟩,
    List.mem_cons_self ..⟩
  simp [gapSignal, toList_gapKey]

end Records

end Wiii.Neko.Gmail
