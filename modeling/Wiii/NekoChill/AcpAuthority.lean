import Wiii.NekoChill.AcpDriver

/-!
# The authority of a turn

The authority of a turn is what its mutations are allowed by.  A turn has it from its prompt on until it is cancelled
or its prompt is answered (`AuthorityOk`), unless the driver is disposed.
-/

namespace Wiii.NekoChill

namespace AcpDriver

variable {c : AcpConfig} {s : AcpDriver}

structure AuthorityOk (s : AcpDriver) : Prop where
  numbered : ∀ turn, s.turn = some turn → turn.number < s.turns
  authority : ∀ t, s.turnAuthority = some t → t ∉ s.cancelled ∧ t ∉ s.completed ∧
    ∃ turn, s.turn = some turn ∧ turn.number = t ∧ turn.isCompleted = false
  settled : ∀ t < s.turns, s.turnAuthority = some t ∨ t ∈ s.cancelled ∨ t ∈ s.completed ∨ s.disposed = true
  known : ∀ t, t ∈ s.cancelled ∨ t ∈ s.completed → t < s.turns

namespace AuthorityOk

theorem authority_eq_none (h : s.AuthorityOk) (hturn : s.turn = none) : s.turnAuthority = none := by
  cases hauthority : s.turnAuthority with
  | none => rfl
  | some t =>
    obtain ⟨-, -, turn, hsome, -⟩ := h.authority t hauthority
    rw [hturn] at hsome
    cases hsome

theorem authority_eq_none_of_completed (h : s.AuthorityOk) {turn : Turn} (hturn : s.turn = some turn)
    (hcompleted : turn.isCompleted = true) : s.turnAuthority = none := by
  cases hauthority : s.turnAuthority with
  | none => rfl
  | some t =>
    obtain ⟨-, -, other, hsome, -, hopen⟩ := h.authority t hauthority
    rw [hturn] at hsome
    cases hsome
    rw [hcompleted] at hopen
    cases hopen

theorem eq_number (h : s.AuthorityOk) {turn : Turn} (hturn : s.turn = some turn) {t : ℕ}
    (ht : s.turnAuthority = some t) : t = turn.number := by
  obtain ⟨-, -, other, hsome, hnumber, -⟩ := h.authority t ht
  rw [hturn] at hsome
  cases hsome
  exact hnumber.symm

theorem prompt (h : s.AuthorityOk) {text : JsText} {promptEventId : Option JsText} :
    (s.prompt c text promptEventId).AuthorityOk := by
  unfold AcpDriver.prompt
  split
  · exact h
  · rename_i hguard
    simp only [Bool.or_eq_true, not_or, Bool.not_eq_true, Option.isSome_eq_false_iff,
      Option.isNone_iff_eq_none] at hguard
    have hnone := h.authority_eq_none hguard.2
    have hfresh : ∀ t, t ∈ s.cancelled ∨ t ∈ s.completed → t ≠ s.turns := fun t ht => Nat.ne_of_lt (h.known t ht)
    refine ⟨?_, ?_, ?_, fun t ht => Nat.lt_succ_of_lt (h.known t ht)⟩
    · intro turn hturn
      cases hturn
      exact Nat.lt_succ_self _
    · intro t ht
      cases ht
      exact ⟨fun hmem => hfresh _ (.inl hmem) rfl, fun hmem => hfresh _ (.inr hmem) rfl, _, rfl, rfl, rfl⟩
    · intro t ht
      rcases Nat.lt_succ_iff_lt_or_eq.1 ht with hlt | rfl
      · rcases h.settled t hlt with hauthority | hrest
        · rw [hnone] at hauthority
          cases hauthority
        · exact .inr hrest
      · exact .inl rfl

theorem endPrompt (h : s.AuthorityOk) {turn : Turn} (hturn : s.turn = some turn) {stopReason : TurnStopReason} :
    (s.endPrompt turn stopReason).AuthorityOk := by
  refine ⟨?_, fun t ht => (nomatch ht), ?_, ?_⟩
  · intro other hother
    cases hother
    exact h.numbered turn hturn
  · intro t ht
    rcases h.settled t ht with hauthority | hcancelled | hcompleted | hdisposed
    · rw [h.eq_number hturn hauthority]
      exact .inr (.inr (.inl (List.mem_append_right _ (List.mem_singleton.2 rfl))))
    · exact .inr (.inl hcancelled)
    · exact .inr (.inr (.inl (List.mem_append_left _ hcompleted)))
    · exact .inr (.inr (.inr hdisposed))
  · rintro t (hcancelled | hcompleted)
    · exact h.known t (.inl hcancelled)
    · rcases List.mem_append.1 hcompleted with hcompleted | hlast
      · exact h.known t (.inr hcompleted)
      · rw [List.mem_singleton.1 hlast]
        exact h.numbered turn hturn

theorem failPrompt (h : s.AuthorityOk) {turn : Turn} (hturn : s.turn = some turn) :
    (s.failPrompt c turn).AuthorityOk := by
  have hemit : (s.emit (.turnError turn.number (c.taskScope && decide (s.admission = .failed)))).AuthorityOk :=
    ⟨h.numbered, h.authority, h.settled, h.known⟩
  exact hemit.endPrompt hturn

theorem wake (h : s.AuthorityOk) : (s.wake c).AuthorityOk := by
  unfold AcpDriver.wake
  split
  · rename_i turn hturn
    split
    · split
      · exact h
      · split
        · exact h.failPrompt hturn
        · refine ⟨?_, ?_, h.settled, h.known⟩
          · intro other hother
            cases hother
            exact h.numbered turn hturn
          · intro t ht
            obtain ⟨hcancelled, hcompleted, -⟩ := h.authority t ht
            exact ⟨hcancelled, hcompleted, _, rfl, (h.eq_number hturn ht).symm, rfl⟩
    · exact h
  · exact h

theorem answer (h : s.AuthorityOk) {result : Option JsValue} : (s.answer c result).AuthorityOk := by
  unfold AcpDriver.answer
  split
  · rename_i turn hturn
    split
    · exact h.failPrompt hturn
    · split
      · exact h.endPrompt hturn
      · have hreject : s.rejectAnswer.AuthorityOk := ⟨h.numbered, h.authority, h.settled, h.known⟩
        exact hreject.failPrompt hturn
    · exact h
  · exact h

theorem finish (h : s.AuthorityOk) : (s.finish c).AuthorityOk := by
  unfold AcpDriver.finish
  split
  · rename_i turn hturn
    split
    · rename_i cleanup stopReason hphase
      have hnone := h.authority_eq_none_of_completed hturn (by unfold Turn.isCompleted; rw [hphase])
      have hdone : ({ s with turn := none } : AcpDriver).AuthorityOk := by
        refine ⟨fun turn hturn => (nomatch hturn), fun t ht => ?_, h.settled, h.known⟩
        have ht : s.turnAuthority = some t := ht
        rw [hnone] at ht
        cases ht
      split
      · exact h
      · exact ⟨hdone.numbered, hdone.authority, hdone.settled, hdone.known⟩
      · split
        · exact hdone
        · exact ⟨hdone.numbered, hdone.authority, hdone.settled, hdone.known⟩
    · exact h
  · exact h

theorem cancel (h : s.AuthorityOk) : s.cancel.AuthorityOk := by
  unfold AcpDriver.cancel
  split
  · rename_i turn _ hturn
    refine ⟨h.numbered, fun t ht => (nomatch ht), ?_, ?_⟩
    · intro t ht
      rcases h.settled t ht with hauthority | hcancelled | hcompleted | hdisposed
      · rw [h.eq_number hturn hauthority]
        exact .inr (.inl (List.mem_append_right _ (List.mem_singleton.2 rfl)))
      · exact .inr (.inl (List.mem_append_left _ hcancelled))
      · exact .inr (.inr (.inl hcompleted))
      · exact .inr (.inr (.inr hdisposed))
    · rintro t (hcancelled | hcompleted)
      · rcases List.mem_append.1 hcancelled with hcancelled | hlast
        · exact h.known t (.inl hcancelled)
        · rw [List.mem_singleton.1 hlast]
          exact h.numbered turn hturn
      · exact h.known t (.inr hcompleted)
  · exact h

theorem abortAdmission (h : s.AuthorityOk) : s.abortAdmission.AuthorityOk := by
  unfold AcpDriver.abortAdmission
  split
  · exact ⟨h.numbered, h.authority, h.settled, h.known⟩
  · exact h

theorem revoke (h : s.AuthorityOk) (hdisposed : s.disposed = true) : s.revokeComputer.AuthorityOk :=
  ⟨h.numbered, fun _ ht => (nomatch ht), fun _ _ => .inr (.inr (.inr hdisposed)), h.known⟩

end AuthorityOk

theorem abortAdmission_disposed : s.abortAdmission.disposed = s.disposed := by
  unfold abortAdmission
  split <;> rfl

theorem AuthorityOk.disposed (h : s.AuthorityOk) : ({ s with disposed := true } : AcpDriver).AuthorityOk :=
  ⟨h.numbered, h.authority, fun _ _ => .inr (.inr (.inr rfl)), h.known⟩

theorem AuthorityOk.step (h : s.AuthorityOk) (act : AcpAct) : (s.step c act).AuthorityOk := by
  have hkeep : ∀ t : AcpDriver, t.turn = s.turn → t.turns = s.turns → t.turnAuthority = s.turnAuthority →
      t.cancelled = s.cancelled → t.completed = s.completed → t.disposed = s.disposed → t.AuthorityOk := by
    intro t hturn hturns hauthority hcancelled hcompleted hdisposed
    refine ⟨?_, ?_, ?_, ?_⟩
    · rw [hturn, hturns]
      exact h.numbered
    · rw [hturn, hauthority, hcancelled, hcompleted]
      exact h.authority
    · rw [hturns, hauthority, hcancelled, hcompleted, hdisposed]
      exact h.settled
    · rw [hturns, hcancelled, hcompleted]
      exact h.known
  cases act with
  | prompt text promptEventId => exact h.prompt
  | wake => exact h.wake
  | answer result => exact h.answer
  | finish => exact h.finish
  | cancel => exact h.cancel
  | exit =>
    have hrevoked := h.disposed.abortAdmission.revoke abortAdmission_disposed
    exact ⟨hrevoked.numbered, hrevoked.authority, hrevoked.settled, hrevoked.known⟩
  | dispose =>
    have hrefused : ({ s with disposed := true }.abortAdmission.refusePermissions).AuthorityOk :=
      ⟨h.disposed.abortAdmission.numbered, h.disposed.abortAdmission.authority, h.disposed.abortAdmission.settled,
        h.disposed.abortAdmission.known⟩
    exact hrefused.revoke abortAdmission_disposed
  | start =>
    show s.start.AuthorityOk
    unfold start
    split <;> exact hkeep _ rfl rfl rfl rfl rfl rfl
  | admitSession sessionId receipt =>
    show (s.admitSession c sessionId receipt).AuthorityOk
    unfold admitSession
    split <;> exact hkeep _ rfl rfl rfl rfl rfl rfl
  | admissionOverflow =>
    show s.admissionOverflow.AuthorityOk
    unfold admissionOverflow
    split <;> exact hkeep _ rfl rfl rfl rfl rfl rfl
  | endStart =>
    show s.endStart.AuthorityOk
    unfold endStart
    split
    · exact h
    · split <;> exact hkeep _ rfl rfl rfl rfl rfl rfl
  | computerRequest method =>
    show (s.computerRequest c method).AuthorityOk
    unfold computerRequest
    split <;> exact hkeep _ rfl rfl rfl rfl rfl rfl
  | settleRequest request => exact hkeep _ rfl rfl rfl rfl rfl rfl
  | settleCleanup ok =>
    show (s.settleCleanup c ok).AuthorityOk
    unfold settleCleanup
    split
    · exact h
    · split <;> exact hkeep _ rfl rfl rfl rfl rfl rfl
  | requestPermission params =>
    show (s.requestPermission c params).AuthorityOk
    unfold requestPermission
    split
    · exact hkeep _ rfl rfl rfl rfl rfl rfl
    · split <;> exact hkeep _ rfl rfl rfl rfl rfl rfl
  | resolvePermission requestId optionId =>
    show (s.resolvePermission c requestId optionId).AuthorityOk
    unfold resolvePermission
    split
    · exact h
    · exact hkeep _ rfl rfl rfl rfl rfl rfl

theorem authorityOk_start : ({} : AcpDriver).AuthorityOk :=
  ⟨fun _ hturn => (nomatch hturn), fun _ ht => (nomatch ht), fun _ ht => (nomatch ht),
    fun _ ht => ht.elim (fun hmem => nomatch hmem) fun hmem => nomatch hmem⟩

/-- What holds at first and is kept by every step holds after every run. -/
theorem run_induction {P : AcpDriver → Prop} (hstart : P {}) (hstep : ∀ s act, P s → P (s.step c act))
    (acts : List AcpAct) : P (run c acts) := by
  suffices h : ∀ s, P s → P (acts.foldl (step c) s) from h {} hstart
  induction acts with
  | nil => exact fun s hs => hs
  | cons act acts ih => exact fun s hs => ih _ (hstep s act hs)

end AcpDriver

end Wiii.NekoChill
