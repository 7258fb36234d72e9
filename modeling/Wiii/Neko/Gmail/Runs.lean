import Wiii.Neko.Gmail.Coverage

/-!
# Every run keeps to the contract

The runs of the account followed request by request, with anything happening in between.  Each of its writes is allowed
when it comes to it (`safe_syncAt`, `safe_syncFromWatch`).
-/

namespace Wiii.Neko.Gmail

open Signal (Platform SignalIngress SignalCursorCheckpoint)
open Dialog

variable {P : Platform} {account : String} {mailbox : Change → Prop} {s : Shared}

theorem Invariant.cursor (hC : P.CollisionFree) (hD : P.Decrypts)
    (hs : Invariant P account mailbox s) {checkpoint : SignalCursorCheckpoint}
    (h : Signal.SignalInbox.cursor P sourceId account s.db = .ok (some checkpoint)) :
    CoveredTo account mailbox s checkpoint.sourceCursor := by
  obtain ⟨hlast, ha⟩ := Signal.lastMoved_of_cursor hD hs.run h
  obtain ⟨gap, hmem⟩ := Signal.moved_of_lastMoved hC hs.run (by decide) ha hlast
  exact hs.moved _ _ hmem

theorem NotBefore.refl (historyId : String) : NotBefore historyId historyId := by
  intro p n hp hn
  rw [hp] at hn
  cases hn
  exact le_rfl

/-! ## The inputs of a run -/

/-- After a complete listing everything up to the next id is covered or gathered. -/
theorem Gathered.coveredWith {pages : List GmailHistoryPage} {inputs : List SignalIngress}
    {previous next : String} (hg : Gathered account (pages.flatMap GmailHistoryPage.history) inputs)
    (hl : Largest (reportedIds pages) previous next) (hcomplete : Complete mailbox previous pages)
    (hprevious : CoveredTo account mailbox s previous) :
    CoveredWith account mailbox s inputs next := by
  obtain ⟨p, n, hp, hn, hle, hreported, -⟩ := hl
  obtain ⟨p', hp', hcov⟩ := hprevious
  rw [hp] at hp'
  cases hp'
  refine ⟨n, hn, fun c m hc hm hmn habove => ?_⟩
  rcases le_or_gt m p with hmp | hpm
  · exact .inl (hcov c m hc hm hmp habove)
  · have hids : ∃ id ∈ reportedIds pages, historyNumber id = .ok n :=
      hreported.resolve_left (by omega)
    obtain ⟨record, hrecord, hnames⟩ := hcomplete c p m n hc hp hm hids hpm hmn
    exact .inr (hg.listed record hrecord c hnames)

theorem mem_reportedIds {pages : List GmailHistoryPage} {record : GmailHistoryRecord}
    (h : record ∈ pages.flatMap GmailHistoryPage.history) : record.id ∈ reportedIds pages := by
  obtain ⟨page, hpage, hrecord⟩ := List.mem_flatMap.1 h
  exact List.mem_flatMap.2 ⟨page, hpage, List.mem_cons_of_mem _ (List.mem_map_of_mem hrecord)⟩

theorem Gathered.allowed {pages : List GmailHistoryPage} {inputs : List SignalIngress}
    {previous next : String} (hg : Gathered account (pages.flatMap GmailHistoryPage.history) inputs)
    (hl : Largest (reportedIds pages) previous next)
    (hlower : ∀ record ∈ pages.flatMap GmailHistoryPage.history, NotBefore previous record.id)
    (hwith : CoveredWith account mailbox s inputs next) :
    Allowed account mailbox (.ingestBatch (some previous) inputs) s := by
  obtain ⟨p, n, hp, hn, -, -, hall⟩ := hl
  refine ⟨fun input hi => ?_, ?_⟩
  · obtain ⟨record, hrecord, hcursor⟩ := hg.cursors input hi
    obtain ⟨m, hm, hle⟩ := hall record.id (mem_reportedIds hrecord)
    exact ⟨(hg.own input hi).1, (hg.own input hi).2,
      UpTo.of_le hwith hn (by rw [hcursor]; exact hm) hle⟩
  · rintro _ ⟨⟩
    unfold heldAfter
    cases hlast : inputs.getLast? with
    | none => exact .refl previous
    | some input =>
      obtain ⟨record, hrecord, hcursor⟩ := hg.cursors input (List.mem_of_getLast? hlast)
      simpa [hcursor] using hlower record hrecord

theorem Gathered.notBefore {pages : List GmailHistoryPage} {inputs : List SignalIngress}
    {previous next : String} (hg : Gathered account (pages.flatMap GmailHistoryPage.history) inputs)
    (hl : Largest (reportedIds pages) previous next) :
    NotBefore (heldAfter previous inputs) next := by
  obtain ⟨p, n, hp, hn, hle, -, hall⟩ := hl
  intro k n' hk hn'
  rw [hn] at hn'
  cases hn'
  unfold heldAfter at hk
  cases hlast : inputs.getLast? with
  | none =>
    rw [hlast, Option.map_none, Option.getD_none, hp] at hk
    cases hk
    exact hle
  | some input =>
    obtain ⟨record, hrecord, hcursor⟩ := hg.cursors input (List.mem_of_getLast? hlast)
    obtain ⟨m, hm, hle⟩ := hall record.id (mem_reportedIds hrecord)
    rw [hlast, Option.map_some, Option.getD_some, hcursor, hm] at hk
    cases hk
    exact hle

/-- The gap of a snapshot covers what was not covered before it. -/
theorem coveredWith_snapshot {localObservedAt : Instant} {previous : String}
    {snapshot : GmailReconciliationSnapshot} {inputs : List SignalIngress} {n : ℕ}
    (hn : historyNumber snapshot.historyId = .ok n)
    (hgap : gapSignal P account localObservedAt previous snapshot.historyId ∈ inputs)
    (hprevious : CoveredTo account mailbox s previous) :
    CoveredWith account mailbox s inputs snapshot.historyId := by
  obtain ⟨p, hp, hcov⟩ := hprevious
  refine ⟨n, hn, fun c m hc hm hmn habove => ?_⟩
  rcases le_or_gt m p with hmp | hpm
  · exact .inl (hcov c m hc hm hmp habove)
  · exact .inr ⟨_, hgap, .inr ⟨rfl, previous, snapshot.historyId, p, n, m, rfl, hp, hn, hm, hpm,
      hmn⟩⟩

/-! ## The runs -/

section Runs

variable (hC : P.CollisionFree)

theorem safe_active_bind {γ : Type} {Q : γ → Shared → Prop} {k : Bool → Sync γ}
    (h : ∀ b t, Later s t → Safe (contract hC account mailbox).toContract Q (k b) t) :
    Safe (contract hC account mailbox).toContract Q (active >>= k) s := by
  refine Safe.bind (safe_shared_bind fun t hst ht => ⟨trivial, fun a u hu hinv htu => ?_⟩)
  rcases a with error | b
  · cases error with
    | grantRevoked => exact safe_pure fun v huv _ => h false v ((hst.trans htu).trans huv)
    | _ => exact safe_fail _
  · exact safe_pure fun v huv _ => h b v ((hst.trans htu).trans huv)

/-- The run keeps to the contract, whatever it reports. -/
abbrev SafeRun (account : String) (mailbox : Change → Prop) (d : Sync GmailSyncReport) (s : Shared) :
    Prop :=
  Safe (contract hC account mailbox).toContract (fun _ _ => True) d s

theorem safe_report (report : GmailSyncReport) : SafeRun hC account mailbox (pure report) s :=
  safe_pure fun _ _ _ => trivial

theorem safe_revokedReport (previous : Option String) :
    SafeRun hC account mailbox (revokedReport previous) s :=
  safe_shared_bind fun _ _ _ => ⟨trivial, fun _ _ _ _ _ =>
    safe_ofExcept_bind fun _ _ => safe_report hC _⟩

theorem safe_stay_bind {previous : String} {k : SignalCursorCheckpoint → Sync GmailSyncReport}
    (hprevious : CoveredTo account mailbox s previous)
    (h : ∀ checkpoint u, SafeRun hC account mailbox (k checkpoint) u) :
    SafeRun hC account mailbox
      (send (.advanceCursor (some previous) previous true) >>= fun a => ofExcept a >>= k) s :=
  safe_shared_bind fun _ hst _ => ⟨⟨hprevious.later hst, .refl previous⟩, fun _ _ _ _ _ =>
    safe_ofExcept_bind fun checkpoint _ => h checkpoint _⟩

theorem safe_giveUp {previous : String} (hprevious : CoveredTo account mailbox s previous)
    (error : String) : SafeRun hC account mailbox (giveUp previous error) s :=
  safe_stay_bind hC hprevious fun _ _ => safe_fail error

theorem safe_reconcileGap {previous : String} (localObservedAt : Instant)
    (hprevious : CoveredTo account mailbox s previous) :
    SafeRun hC account mailbox (reconcileGap P account localObservedAt previous) s := by
  refine safe_shared_bind fun t hst ht => ⟨trivial, fun a u hu hinv htu => ?_⟩
  obtain ⟨rfl, hhonest⟩ := hu
  have hprevious := hprevious.later hst
  rcases a with error | snapshot
  · cases error with
    | grantRevoked => exact safe_revokedReport hC _
    | _ => exact safe_stay_bind hC hprevious fun _ _ => safe_report hC _
  · refine safe_ofExcept_bind fun n hn => ?_
    split_ifs with hsize
    · exact safe_fail _
    refine safe_active_bind hC fun b v huv => ?_
    cases b with
    | false => exact safe_revokedReport hC _
    | true =>
      refine safe_ofExcept_bind fun inputs hinputs => ?_
      obtain ⟨hown, hgap⟩ := reconciliationInputs_spec hinputs
      refine safe_shared_bind fun w hvw hw => ?_
      have hwith := coveredWith_snapshot hn hgap (hprevious.later (huv.trans hvw))
      refine ⟨⟨fun input hi => ⟨(hown input hi).1, (hown input hi).2.1, ?_⟩, ?_⟩,
        fun a x hx hinv hwx => ?_⟩
      · rw [(hown input hi).2.2]
        exact hwith
      · rintro _ ⟨⟩
        unfold heldAfter
        cases hlast : inputs.getLast? with
        | none => exact .refl previous
        | some input =>
          rw [Option.map_some, Option.getD_some, (hown input (List.mem_of_getLast? hlast)).2.2]
          exact hhonest
      · refine safe_ofExcept_bind fun admissions hadmissions => ?_
        subst hadmissions
        obtain ⟨now, db, hstep, rfl⟩ := hx
        have hcovered := hwith.ingested hC hinv.run hinv.own (fun i hi => (hown i hi).1) hstep
          (Shared.events_after _ _ _) (List.Subset.refl _)
        refine safe_shared_bind fun y hxy _ => ⟨⟨hcovered.later hxy, .refl _⟩, fun _ _ _ _ _ => ?_⟩
        exact safe_ofExcept_bind fun _ _ => safe_report hC _

theorem safe_finishListing {pages : List GmailHistoryPage} {inputs : List SignalIngress}
    {previous next : String} (hg : Gathered account (pages.flatMap GmailHistoryPage.history) inputs)
    (hl : Largest (reportedIds pages) previous next)
    (hlower : ∀ record ∈ pages.flatMap GmailHistoryPage.history, NotBefore previous record.id)
    (hcomplete : Complete mailbox previous pages)
    (hprevious : CoveredTo account mailbox s previous) :
    SafeRun hC account mailbox (finishListing previous inputs next) s := by
  refine safe_active_bind hC fun b t hst => ?_
  have hwith := hg.coveredWith hl hcomplete (hprevious.later hst)
  cases b with
  | false => exact safe_revokedReport hC _
  | true =>
    have hadvance : ∀ u, CoveredTo account mailbox u next →
        ∀ k : SignalCursorCheckpoint → Sync GmailSyncReport,
          (∀ checkpoint v, SafeRun hC account mailbox (k checkpoint) v) →
            SafeRun hC account mailbox
              (send (.advanceCursor (some (heldAfter previous inputs)) next false) >>= fun a =>
                ofExcept a >>= k) u := fun u hu k hk =>
      safe_shared_bind fun _ huv _ => ⟨⟨hu.later huv, hg.notBefore hl⟩, fun _ _ _ _ _ =>
        safe_ofExcept_bind fun checkpoint _ => hk checkpoint _⟩
    by_cases hempty : inputs.isEmpty
    · have hnil : inputs = [] := List.isEmpty_iff.1 hempty
      simp only [Bool.not_true, Bool.false_eq_true, if_false, hempty, if_true, pure_eq, done_bind]
      refine hadvance t ?_ _ fun _ _ => safe_report hC _
      rwa [hnil, coveredWith_nil] at hwith
    · simp only [Bool.not_true, Bool.false_eq_true, if_false, hempty]
      refine safe_shared_bind fun u htu hu => ?_
      refine ⟨hg.allowed hl hlower (hwith.later htu), fun a v hv hinv huv => ?_⟩
      refine safe_ofExcept_bind fun admissions hadmissions => ?_
      subst hadmissions
      obtain ⟨now, db, hstep, rfl⟩ := hv
      have hcovered := (hwith.later htu).ingested hC hinv.run hinv.own
        (fun i hi => (hg.own i hi).1) hstep (Shared.events_after _ _ _) (List.Subset.refl _)
      exact hadvance _ hcovered _ fun _ _ => safe_report hC _

theorem safe_readPages {previous : String} (localObservedAt : Instant)
    (n : ℕ) {listing : Listing}
    (hg : Gathered account (listing.pages.flatMap GmailHistoryPage.history) listing.inputs)
    (hl : Largest (reportedIds listing.pages) previous listing.nextHistoryId)
    (hlower : ∀ record ∈ listing.pages.flatMap GmailHistoryPage.history,
      NotBefore previous record.id)
    (hprevious : CoveredTo account mailbox s previous) :
    SafeRun hC account mailbox (readPages P account localObservedAt previous n listing) s := by
  induction n generalizing s listing with
  | zero => exact safe_giveUp hC hprevious _
  | succ n ih =>
    refine safe_active_bind hC fun b t hst => ?_
    cases b with
    | false => exact safe_revokedReport hC _
    | true =>
      refine safe_shared_bind fun u htu hu => ⟨trivial, fun a v hv hinv huv => ?_⟩
      obtain ⟨rfl, hhonest⟩ := hv
      have hprevious := hprevious.later (hst.trans htu)
      rcases a with error | page
      · cases error with
        | cursorExpired => exact safe_reconcileGap hC localObservedAt hprevious
        | grantRevoked => exact safe_revokedReport hC _
        | _ => exact safe_fail _
      · refine safe_ofExcept_bind fun _ _ => safe_ofExcept_bind fun next₁ hmax =>
          safe_ofExcept_bind fun taken htaken => ?_
        rcases taken with _ | ⟨inputs, next⟩
        · exact safe_giveUp hC hprevious _
        obtain ⟨hg', hl'⟩ := page_spec hg hl hmax htaken
        have hlower' : ∀ record ∈ (listing.pages ++ [page]).flatMap GmailHistoryPage.history,
            NotBefore previous record.id := by
          rw [List.flatMap_append, List.flatMap_singleton]
          exact List.forall_mem_append.2 ⟨hlower, hhonest.1⟩
        cases hnext : page.nextPageToken with
        | none =>
          simp only
          exact safe_finishListing hC hg' hl' hlower' (hhonest.2 hnext) hprevious
        | some token =>
          simp only
          refine safe_ofExcept_bind fun _ _ => ?_
          split_ifs
          · exact safe_giveUp hC hprevious _
          · exact ih hg' hl' hlower' hprevious

theorem safe_syncAt (hD : P.Decrypts) (localObservedAt : Instant) (s : Shared) :
    SafeRun hC account mailbox (syncAt P account localObservedAt) s := by
  refine safe_ofExcept_bind fun _ _ => safe_active_bind hC fun b t hst => ?_
  cases b with
  | false => exact safe_revokedReport hC _
  | true =>
    refine safe_shared_bind fun u htu hu => ⟨trivial, fun a v hv hinv huv => ?_⟩
    obtain ⟨rfl, hanswer⟩ := hv
    refine safe_ofExcept_bind fun found hfound => ?_
    subst hfound
    cases found with
    | none =>
      refine safe_shared_bind fun w hvw hw => ⟨trivial, fun a x hx hinv hwx => ?_⟩
      rcases a with error | current
      · cases error with
        | grantRevoked => exact safe_revokedReport hC _
        | _ => exact safe_fail _
      · refine safe_ofExcept_bind fun n hn => safe_active_bind hC fun b y hxy => ?_
        cases b with
        | false => exact safe_revokedReport hC _
        | true =>
          exact safe_shared_bind fun _ _ _ => ⟨⟨n, hn⟩, fun _ _ _ _ _ =>
            safe_ofExcept_bind fun _ _ => safe_report hC _⟩
    | some checkpoint =>
      refine safe_ofExcept_bind fun p hp => ?_
      have hcursor := hanswer.resolve_right (by simp)
      exact safe_readPages hC localObservedAt maxPages (gathered_nil account) (largest_nil hp)
        (by simp) (hinv.cursor hC hD hcursor.symm)

theorem safe_syncFromWatch (hD : P.Decrypts) {hint : GmailWatchHint}
    (hhint : hint.accountGrantRef = account) (localObservedAt : Instant) (s : Shared) :
    SafeRun hC account mailbox (syncFromWatch P hint localObservedAt) s := by
  subst hhint
  refine safe_ofExcept_bind fun _ _ => safe_ofExcept_bind fun hinted _ => ?_
  split
  · exact safe_fail _
  refine safe_active_bind hC fun b t hst => ?_
  cases b with
  | false =>
    exact safe_shared_bind fun _ _ _ => ⟨trivial, fun _ _ _ _ _ =>
      safe_ofExcept_bind fun _ _ => safe_revokedReport hC _⟩
  | true =>
    refine safe_shared_bind fun u htu hu => ⟨trivial, fun a v hv hinv huv => ?_⟩
    refine safe_ofExcept_bind fun found hfound => ?_
    cases found with
    | none => exact safe_syncAt hC hD localObservedAt v
    | some cursor =>
      simp only
      split_ifs
      · exact safe_syncAt hC hD localObservedAt v
      · refine safe_ofExcept_bind fun current _ => ?_
        split_ifs
        · exact safe_report hC _
        · exact safe_syncAt hC hD localObservedAt v

end Runs

end Wiii.Neko.Gmail
