import Wiii.NekoChill.AcpAuthority

/-!
# Permissions of an ACP agent

A permission request waits until the user answers it or the driver is disposed; neither the cancellation nor the end
of its turn answers it.  `failClosed_iff` says what this comes to: permissions are granted as they should be exactly
when no grant comes too late.
-/

namespace Wiii.NekoChill

def PermissionAnswer.requestId : PermissionAnswer → Option ℕ
  | .cancelled requestId => requestId
  | .selected requestId _ => some requestId

namespace AcpDriver

variable {c : AcpConfig} {s next : AcpDriver}

theorem decision_requestId {pending : PendingPermission} {optionId : Option JsText} :
    (s.decision c pending optionId).requestId = some pending.requestId := by
  unfold decision
  split
  · rfl
  · split
    · rfl
    · split <;> rfl

theorem findPermission_eq_some {requestId : ℕ} {pending : PendingPermission}
    (h : s.findPermission requestId = some pending) :
    pending ∈ s.pendingPermissions ∧ pending.requestId = requestId := by
  have hfind : s.pendingPermissions.find? (fun other => decide (other.requestId = requestId)) = some pending := h
  have hid := List.find?_some hfind
  exact ⟨List.mem_of_find?_eq_some hfind, of_decide_eq_true hid⟩

structure PermissionOk (s : AcpDriver) : Prop where
  raised : ∀ pending ∈ s.pendingPermissions, ∀ t, pending.turn = some t → t < s.turns
  admitted : ∀ pending ∈ s.pendingPermissions, s.disposed = true ∨ s.admission = .admitted
  offered : ∀ pending ∈ s.pendingPermissions, .permissionRequest pending.requestId pending.offered ∈ s.events
  bounded : ∀ pending ∈ s.pendingPermissions, pending.requestId ≤ s.permissionSeq
  answered : ∀ a ∈ s.answers, ∀ id, a.requestId = some id →
    id ≤ s.permissionSeq ∧ ∀ pending ∈ s.pendingPermissions, pending.requestId ≠ id

namespace PermissionOk

theorem keep (h : s.PermissionOk) (hpending : next.pendingPermissions = s.pendingPermissions)
    (hanswers : next.answers = s.answers) (hseq : next.permissionSeq = s.permissionSeq) (hturns : s.turns ≤ next.turns)
    (hevents : ∀ e ∈ s.events, e ∈ next.events)
    (hadmitted : s.disposed = true ∨ s.admission = .admitted → next.disposed = true ∨ next.admission = .admitted) :
    next.PermissionOk := by
  constructor
  · rw [hpending]
    exact fun pending hmem t ht => Nat.lt_of_lt_of_le (h.raised pending hmem t ht) hturns
  · rw [hpending]
    exact fun pending hmem => hadmitted (h.admitted pending hmem)
  · rw [hpending]
    exact fun pending hmem => hevents _ (h.offered pending hmem)
  · rw [hpending, hseq]
    exact h.bounded
  · rw [hpending, hanswers, hseq]
    exact h.answered

theorem refuse (h : s.PermissionOk) : s.refusePermissions.PermissionOk := by
  refine ⟨fun _ hmem => (nomatch hmem), fun _ hmem => (nomatch hmem), fun _ hmem => (nomatch hmem),
    fun _ hmem => (nomatch hmem), fun a ha id hid => ⟨?_, fun _ hmem => (nomatch hmem)⟩⟩
  rcases List.mem_append.1 ha with ha | ha
  · exact (h.answered a ha id hid).1
  · obtain ⟨pending, hmem, rfl⟩ := List.mem_map.1 ha
    cases hid
    exact h.bounded pending hmem

theorem of_nil (hpending : s.pendingPermissions = []) (hanswers : ∀ a ∈ s.answers, ∀ id, a.requestId = some id →
    id ≤ s.permissionSeq) : s.PermissionOk := by
  refine ⟨?_, ?_, ?_, ?_, fun a ha id hid => ⟨hanswers a ha id hid, ?_⟩⟩ <;> rw [hpending]
  · exact fun _ hmem => nomatch hmem
  · exact fun _ hmem => nomatch hmem
  · exact fun _ hmem => nomatch hmem
  · exact fun _ hmem => nomatch hmem
  · exact fun _ hmem => nomatch hmem

theorem failPrompt (h : s.PermissionOk) {turn : Turn} : (s.failPrompt c turn).PermissionOk :=
  h.keep rfl rfl rfl (Nat.le_refl _) (fun _ he => List.mem_append_left _ he) id

theorem answer (h : s.PermissionOk) {result : Option JsValue} : (s.answer c result).PermissionOk := by
  unfold AcpDriver.answer
  split
  · split
    · exact h.failPrompt
    · split
      · exact h.keep rfl rfl rfl (Nat.le_refl _) (fun _ he => he) id
      · refine PermissionOk.failPrompt (of_nil rfl ?_)
        exact fun a ha id hid => (h.refuse.answered a ha id hid).1
    · exact h
  · exact h

theorem wake (h : s.PermissionOk) : (s.wake c).PermissionOk := by
  unfold AcpDriver.wake
  split
  · split
    · split
      · exact h
      · split
        · exact h.failPrompt
        · exact h.keep rfl rfl rfl (Nat.le_refl _) (fun _ he => List.mem_append_left _ he) id
    · exact h
  · exact h

theorem finish (h : s.PermissionOk) : (s.finish c).PermissionOk := by
  unfold AcpDriver.finish
  split
  · split
    · split
      · exact h
      · exact h.keep rfl rfl rfl (Nat.le_refl _) (fun _ he => List.mem_append_left _ he) id
      · split
        · exact h.keep rfl rfl rfl (Nat.le_refl _) (fun _ he => he) id
        · exact h.keep rfl rfl rfl (Nat.le_refl _) (fun _ he => List.mem_append_left _ he) id
    · exact h
  · exact h

theorem prompt (h : s.PermissionOk) {text : JsText} {promptEventId : Option JsText} :
    (s.prompt c text promptEventId).PermissionOk := by
  unfold AcpDriver.prompt
  split
  · exact h
  · exact h.keep rfl rfl rfl (Nat.le_succ _) (fun _ he => he) id

theorem cancel (h : s.PermissionOk) : s.cancel.PermissionOk := by
  unfold AcpDriver.cancel
  split
  · exact h.keep rfl rfl rfl (Nat.le_refl _) (fun _ he => he) id
  · exact h

theorem abortAdmission (h : s.PermissionOk) : s.abortAdmission.PermissionOk := by
  unfold AcpDriver.abortAdmission
  split
  · rename_i hstarting
    refine h.keep rfl rfl rfl (Nat.le_refl _) (fun _ he => he) fun hadmitted => ?_
    rcases hadmitted with hdisposed | hadmitted
    · exact .inl hdisposed
    · rw [hstarting] at hadmitted
      cases hadmitted
  · exact h

theorem disposed (h : s.PermissionOk) : ({ s with disposed := true } : AcpDriver).PermissionOk :=
  h.keep rfl rfl rfl (Nat.le_refl _) (fun _ he => he) fun _ => .inl rfl

theorem start (h : s.PermissionOk) : s.start.PermissionOk := by
  unfold AcpDriver.start
  split
  · exact h
  · rename_i hguard
    simp only [Bool.or_eq_true, decide_eq_true_eq, not_or, not_not, Bool.not_eq_true] at hguard
    refine h.keep rfl rfl rfl (Nat.le_refl _) (fun _ he => he) fun hadmitted => ?_
    simp [hguard.1, hguard.2] at hadmitted

theorem admitSession (h : s.PermissionOk) {sessionId : JsText} {receipt : Option NekoTaskReceipt} :
    (s.admitSession c sessionId receipt).PermissionOk := by
  unfold AcpDriver.admitSession
  split
  · exact h
  · exact h.keep rfl rfl rfl (Nat.le_refl _) (fun _ he => he) fun _ => .inr rfl

theorem admissionOverflow (h : s.PermissionOk) : s.admissionOverflow.PermissionOk := by
  unfold AcpDriver.admissionOverflow
  split
  · exact h
  · rename_i hguard
    simp only [Bool.or_eq_true, decide_eq_true_eq, not_or, not_not, Bool.not_eq_true] at hguard
    refine h.keep rfl rfl rfl (Nat.le_refl _) (fun _ he => List.mem_append_left _ he) fun hadmitted => ?_
    simp [hguard.1, hguard.2] at hadmitted

theorem endStart (h : s.PermissionOk) : s.endStart.PermissionOk := by
  unfold AcpDriver.endStart
  split
  · exact h
  · split
    · exact h.keep rfl rfl rfl (Nat.le_refl _) (fun _ he => he) id
    · rename_i hadmitted
      refine h.keep rfl rfl rfl (Nat.le_refl _) (fun _ he => he) fun hor => ?_
      rcases hor with hdisposed | hor
      · exact .inl hdisposed
      · cases hdisposed : s.disposed with
        | true => exact .inl rfl
        | false => exact absurd (by simp [isAdmitted, hdisposed, hor]) hadmitted

theorem requestPermission (h : s.PermissionOk) (hauthority : s.AuthorityOk) {params : JsValue} :
    (s.requestPermission c params).PermissionOk := by
  unfold AcpDriver.requestPermission
  split
  · refine ⟨h.raised, h.admitted, h.offered, h.bounded, fun a ha id hid => ?_⟩
    rcases List.mem_append.1 ha with ha | ha
    · exact h.answered a ha id hid
    · rw [List.mem_singleton.1 ha] at hid
      cases hid
  · rename_i hbound
    split
    · exact ⟨h.raised, h.admitted, h.offered, fun pending hmem => Nat.le_succ_of_le (h.bounded pending hmem),
        fun a ha id hid => ⟨Nat.le_succ_of_le (h.answered a ha id hid).1, (h.answered a ha id hid).2⟩⟩
    · rename_i offered _
      have hadmitted : s.admission = .admitted := by
        simp only [Bool.not_eq_true, Bool.not_eq_false'] at hbound
        unfold isBound at hbound
        split at hbound
        · simp only [Bool.and_eq_true, isAdmitted, decide_eq_true_eq] at hbound
          exact hbound.1.1.1.2
        · cases hbound
      refine ⟨fun pending hmem t ht => ?_, fun _ _ => .inr hadmitted, fun pending hmem => ?_, fun pending hmem => ?_,
        fun a ha id hid => ⟨Nat.le_succ_of_le (h.answered a ha id hid).1, fun pending hmem => ?_⟩⟩
      · rcases List.mem_append.1 hmem with hmem | hmem
        · exact h.raised pending hmem t ht
        · rw [List.mem_singleton.1 hmem] at ht
          obtain ⟨turn, hturn, rfl⟩ := Option.map_eq_some_iff.1 ht
          exact hauthority.numbered turn hturn
      · rcases List.mem_append.1 hmem with hmem | hmem
        · exact List.mem_append_left _ (h.offered pending hmem)
        · rw [List.mem_singleton.1 hmem]
          exact List.mem_append_right _ (List.mem_singleton.2 rfl)
      · rcases List.mem_append.1 hmem with hmem | hmem
        · exact Nat.le_succ_of_le (h.bounded pending hmem)
        · cases List.mem_singleton.1 hmem
          exact Nat.le_refl _
      · rcases List.mem_append.1 hmem with hmem | hmem
        · exact (h.answered a ha id hid).2 pending hmem
        · rw [List.mem_singleton.1 hmem]
          have hle := (h.answered a ha id hid).1
          show s.permissionSeq + 1 ≠ id
          omega

theorem resolvePermission (h : s.PermissionOk) {requestId : ℕ} {optionId : Option JsText} :
    (s.resolvePermission c requestId optionId).PermissionOk := by
  unfold AcpDriver.resolvePermission
  split
  · exact h
  · rename_i pending hfind
    obtain ⟨hpending, hid⟩ := findPermission_eq_some hfind
    refine ⟨fun other hmem => h.raised other (List.mem_filter.1 hmem).1,
      fun other hmem => h.admitted other (List.mem_filter.1 hmem).1,
      fun other hmem => h.offered other (List.mem_filter.1 hmem).1,
      fun other hmem => h.bounded other (List.mem_filter.1 hmem).1, fun a ha id ha' => ?_⟩
    rcases List.mem_append.1 ha with ha | ha
    · exact ⟨(h.answered a ha id ha').1, fun other hmem => (h.answered a ha id ha').2 other (List.mem_filter.1 hmem).1⟩
    · rw [List.mem_singleton.1 ha, decision_requestId] at ha'
      cases ha'
      refine ⟨h.bounded pending hpending, fun other hmem => ?_⟩
      rw [hid]
      exact of_decide_eq_true (List.mem_filter.1 hmem).2

theorem step (h : s.PermissionOk) (hauthority : s.AuthorityOk) (act : AcpAct) : (s.step c act).PermissionOk := by
  cases act with
  | start => exact h.start
  | admitSession sessionId receipt => exact h.admitSession
  | admissionOverflow => exact h.admissionOverflow
  | endStart => exact h.endStart
  | prompt text promptEventId => exact h.prompt
  | wake => exact h.wake
  | answer result => exact h.answer
  | finish => exact h.finish
  | cancel => exact h.cancel
  | exit => exact h.disposed.abortAdmission.keep rfl rfl rfl (Nat.le_refl _) (fun _ he => List.mem_append_left _ he) id
  | dispose => exact h.disposed.abortAdmission.refuse.keep rfl rfl rfl (Nat.le_refl _) (fun _ he => he) id
  | computerRequest method =>
    show (s.computerRequest c method).PermissionOk
    unfold computerRequest
    split
    · exact h
    · exact h.keep rfl rfl rfl (Nat.le_refl _) (fun _ he => he) id
  | settleRequest request => exact h.keep rfl rfl rfl (Nat.le_refl _) (fun _ he => he) id
  | settleCleanup ok =>
    show (s.settleCleanup c ok).PermissionOk
    unfold settleCleanup
    split
    · exact h
    · split
      · exact h
      · exact h.keep rfl rfl rfl (Nat.le_refl _) (fun _ he => he) id
  | requestPermission params => exact h.requestPermission hauthority
  | resolvePermission requestId optionId => exact h.resolvePermission

end PermissionOk

theorem permissionOk_run (acts : List AcpAct) : (run c acts).PermissionOk ∧ (run c acts).AuthorityOk :=
  run_induction (P := fun s => s.PermissionOk ∧ s.AuthorityOk)
    ⟨.of_nil rfl fun _ hmem => (nomatch hmem), authorityOk_start⟩ (fun _ act h => ⟨h.1.step h.2 act, h.2.step act⟩) acts

/-! ## Grants -/

/-- What a step adds to the answers: a grant only by the user's decision on a pending request. -/
theorem step_answers (s : AcpDriver) (act : AcpAct) : ∃ new, (s.step c act).answers = s.answers ++ new ∧
    ∀ requestId optionId, .selected requestId optionId ∈ new → act = .resolvePermission requestId (some optionId) ∧
      ∃ pending, s.findPermission requestId = some pending ∧ optionId ∈ pending.offered ∧
        (c.taskScope && !s.isAdmitted) = false := by
  have hkeep : ∀ t : AcpDriver, t.answers = s.answers → ∃ new, t.answers = s.answers ++ new ∧
      ∀ requestId optionId, .selected requestId optionId ∈ new → act = .resolvePermission requestId (some optionId) ∧
        ∃ pending, s.findPermission requestId = some pending ∧ optionId ∈ pending.offered ∧
          (c.taskScope && !s.isAdmitted) = false := by
    intro t ht
    exact ⟨[], by rw [ht, List.append_nil], fun _ _ hmem => nomatch hmem⟩
  have hrefuse : ∀ t : AcpDriver, t.answers = s.answers ++ s.pendingPermissions.map
      (fun pending => .cancelled (some pending.requestId)) → ∃ new, t.answers = s.answers ++ new ∧
      ∀ requestId optionId, .selected requestId optionId ∈ new → act = .resolvePermission requestId (some optionId) ∧
        ∃ pending, s.findPermission requestId = some pending ∧ optionId ∈ pending.offered ∧
          (c.taskScope && !s.isAdmitted) = false := by
    intro t ht
    refine ⟨_, ht, fun requestId optionId hmem => ?_⟩
    obtain ⟨_, -, heq⟩ := List.mem_map.1 hmem
    cases heq
  have habort : ({ s with disposed := true } : AcpDriver).abortAdmission.answers = s.answers ∧
      ({ s with disposed := true } : AcpDriver).abortAdmission.pendingPermissions = s.pendingPermissions := by
    unfold abortAdmission
    split <;> exact ⟨rfl, rfl⟩
  cases act with
  | start =>
    refine hkeep _ ?_
    show s.start.answers = _
    unfold start
    split <;> rfl
  | admitSession sessionId receipt =>
    refine hkeep _ ?_
    show (s.admitSession c sessionId receipt).answers = _
    unfold admitSession
    split <;> rfl
  | admissionOverflow =>
    refine hkeep _ ?_
    show s.admissionOverflow.answers = _
    unfold admissionOverflow
    split <;> rfl
  | endStart =>
    refine hkeep _ ?_
    show s.endStart.answers = _
    unfold endStart
    split
    · rfl
    · split <;> rfl
  | prompt text promptEventId =>
    refine hkeep _ ?_
    show (s.prompt c text promptEventId).answers = _
    unfold prompt
    split <;> rfl
  | wake =>
    refine hkeep _ ?_
    show (s.wake c).answers = _
    unfold wake
    split
    · split
      · split
        · rfl
        · split <;> rfl
      · rfl
    · rfl
  | answer result =>
    show ∃ new, (s.answer c result).answers = s.answers ++ new ∧ _
    unfold answer
    split
    · split
      · exact hkeep _ rfl
      · split
        · exact hkeep _ rfl
        · exact hrefuse _ rfl
      · exact hkeep _ rfl
    · exact hkeep _ rfl
  | finish =>
    refine hkeep _ ?_
    show (s.finish c).answers = _
    unfold finish
    split
    · split
      · split
        · rfl
        · rfl
        · split <;> rfl
      · rfl
    · rfl
  | cancel =>
    refine hkeep _ ?_
    show s.cancel.answers = _
    unfold cancel
    split <;> rfl
  | exit => exact hkeep _ habort.1
  | dispose =>
    refine hrefuse _ ?_
    show ({ s with disposed := true } : AcpDriver).abortAdmission.answers ++ _ = _
    rw [habort.1, habort.2]
  | computerRequest method =>
    refine hkeep _ ?_
    show (s.computerRequest c method).answers = _
    unfold computerRequest
    split <;> rfl
  | settleRequest request => exact hkeep _ rfl
  | settleCleanup ok =>
    refine hkeep _ ?_
    show (s.settleCleanup c ok).answers = _
    unfold settleCleanup
    split
    · rfl
    · split <;> rfl
  | requestPermission params =>
    show ∃ new, (s.requestPermission c params).answers = s.answers ++ new ∧ _
    unfold requestPermission
    split
    · refine ⟨_, rfl, fun requestId optionId hmem => ?_⟩
      cases List.mem_singleton.1 hmem
    · split <;> exact hkeep _ rfl
  | resolvePermission requestId optionId =>
    show ∃ new, (s.resolvePermission c requestId optionId).answers = s.answers ++ new ∧ _
    unfold resolvePermission
    split
    · exact hkeep _ rfl
    · rename_i pending hfind
      refine ⟨_, rfl, fun id option hmem => ?_⟩
      have hdecision := (List.mem_singleton.1 hmem).symm
      have hid : pending.requestId = requestId := (findPermission_eq_some hfind).2
      unfold decision at hdecision
      split at hdecision
      · cases hdecision
      · rename_i hlive
        split at hdecision
        · cases hdecision
        · split at hdecision
          · rename_i hoffered
            cases hdecision
            rw [hid]
            exact ⟨rfl, pending, hfind, hoffered, Bool.eq_false_iff.2 hlive⟩
          · cases hdecision

/-- What a grant of an option is held to, in the state the user's answer finds. -/
structure Grants (s : AcpDriver) (requestId : ℕ) (optionId : JsText) : Prop where
  unanswered : ∀ a ∈ s.answers, a.requestId ≠ some requestId
  offered : ∃ options, .permissionRequest requestId options ∈ s.events ∧ optionId ∈ options
  admitted : s.isAdmitted = true
  active : ∀ pending, s.findPermission requestId = some pending → ∀ t, pending.turn = some t →
    t ∉ s.cancelled ∧ t ∉ s.completed

/-- Every grant of a run is as it should be. -/
def FailClosed (c : AcpConfig) (acts : List AcpAct) : Prop := ∀ before act after, acts = before ++ act :: after →
  ∀ new, ((run c before).step c act).answers = (run c before).answers ++ new →
    ∀ requestId optionId, .selected requestId optionId ∈ new → (run c before).Grants requestId optionId

/-- The driver refuses anyway, or is not disposed and the turn has its authority. -/
def IsTimely (c : AcpConfig) (s : AcpDriver) (pending : PendingPermission) : Prop :=
  (c.taskScope && !s.isAdmitted) = true ∨
    s.disposed = false ∧ ∀ t, pending.turn = some t → s.turnAuthority = some t

/-- No answer that takes an offered option of a pending request comes too late. -/
def Timely (c : AcpConfig) (acts : List AcpAct) : Prop := ∀ before requestId optionId after,
  acts = before ++ .resolvePermission requestId (some optionId) :: after →
  ∀ pending, (run c before).findPermission requestId = some pending → optionId ∈ pending.offered →
    (run c before).IsTimely c pending

/-- Permissions are granted as they should be exactly when no grant comes too late. -/
theorem failClosed_iff (c : AcpConfig) (acts : List AcpAct) : FailClosed c acts ↔ Timely c acts := by
  constructor
  · intro h before requestId optionId after hacts pending hfind hoffered
    obtain ⟨hpermission, hauthority⟩ := permissionOk_run (c := c) before
    obtain ⟨hmem, hid⟩ := findPermission_eq_some hfind
    cases hlive : c.taskScope && !(run c before).isAdmitted with
    | true => exact .inl hlive
    | false =>
      have hstep : ((run c before).step c (.resolvePermission requestId (some optionId))).answers =
          (run c before).answers ++ [.selected requestId optionId] := by
        show ((run c before).resolvePermission c requestId (some optionId)).answers = _
        unfold resolvePermission
        rw [hfind]
        dsimp only
        unfold decision
        rw [hlive, if_neg (by decide)]
        dsimp only
        rw [if_pos hoffered, hid]
      have hgrants := h before _ after hacts _ hstep requestId optionId (List.mem_singleton.2 rfl)
      have hlive := hgrants.admitted
      simp only [isAdmitted, Bool.and_eq_true, Bool.not_eq_true'] at hlive
      refine .inr ⟨hlive.1, fun t ht => ?_⟩
      obtain ⟨hcancelled, hcompleted⟩ := hgrants.active pending hfind t ht
      rcases hauthority.settled t (hpermission.raised pending hmem t ht) with hok | hbad | hbad | hbad
      · exact hok
      · exact absurd hbad hcancelled
      · exact absurd hbad hcompleted
      · rw [hlive.1] at hbad
        cases hbad
  · intro h before act after hacts new hnew requestId optionId hselected
    obtain ⟨hpermission, hauthority⟩ := permissionOk_run (c := c) before
    obtain ⟨added, hadded, hgranted⟩ := step_answers (c := c) (run c before) act
    rw [hadded] at hnew
    rw [List.append_cancel_left hnew] at hgranted
    obtain ⟨rfl, pending, hfind, hoffered, hlive⟩ := hgranted requestId optionId hselected
    obtain ⟨hmem, hid⟩ := findPermission_eq_some hfind
    rcases h before requestId optionId after hacts pending hfind hoffered with hrefused | ⟨hdisposed, hturn⟩
    · rw [hlive] at hrefused
      cases hrefused
    · refine ⟨fun a ha hanswered => (hpermission.answered a ha _ hanswered).2 pending hmem hid, ?_, ?_, ?_⟩
      · exact ⟨pending.offered, hid ▸ hpermission.offered pending hmem, hoffered⟩
      · rcases hpermission.admitted pending hmem with hbad | hadmitted
        · rw [hdisposed] at hbad
          cases hbad
        · simp [isAdmitted, hdisposed, hadmitted]
      · intro other hother t ht
        rw [hfind] at hother
        cases hother
        obtain ⟨hcancelled, hcompleted, -⟩ := hauthority.authority t (hturn t ht)
        exact ⟨hcancelled, hcompleted⟩

/-! ## Late answers -/

def askParams : JsValue :=
  .object [("sessionId", .string (js "session")), ("options", .array [.object [("optionId", .string (js "allow"))]])]

/-- A turn in which a permission is asked for, in a driver without a task scope. -/
def askingTurn : List AcpAct :=
  [.start, .admitSession (js "session") none, .endStart, .prompt (js "go") none, .wake, .requestPermission askParams]

def endTurn : List AcpAct :=
  [.answer (some (.object [("stopReason", .string (js "end_turn"))])), .settleCleanup true, .finish]

/-- A permission is granted after the cancellation of its turn, after its end, and after the process exited. -/
theorem granted_late : ¬ FailClosed ⟨false, false, id⟩ (askingTurn ++ [.cancel, .resolvePermission 1 (some (js "allow"))]) ∧
    ¬ FailClosed ⟨false, false, id⟩ (askingTurn ++ endTurn ++ [.resolvePermission 1 (some (js "allow"))]) ∧
    ¬ FailClosed ⟨false, false, id⟩ (askingTurn ++ [.exit, .resolvePermission 1 (some (js "allow"))]) := by
  have hgranted : ∀ before after, ((run ⟨false, false, id⟩ before).step ⟨false, false, id⟩
      (.resolvePermission 1 (some (js "allow")))).answers = (run ⟨false, false, id⟩ before).answers ++
        [.selected 1 (js "allow")] →
      FailClosed ⟨false, false, id⟩ (before ++ .resolvePermission 1 (some (js "allow")) :: after) →
      (run ⟨false, false, id⟩ before).Grants 1 (js "allow") := fun before after hstep h =>
    h before _ after rfl _ hstep 1 (js "allow") (List.mem_singleton.2 rfl)
  refine ⟨fun h => ?_, fun h => ?_, fun h => ?_⟩
  · have hgrants := hgranted (askingTurn ++ [.cancel]) [] (by decide +kernel) h
    have hfind : (run ⟨false, false, id⟩ (askingTurn ++ [.cancel])).findPermission 1 =
      some ⟨1, [js "allow"], some 0⟩ := by decide +kernel
    exact (hgrants.active _ hfind 0 rfl).1 (by decide +kernel)
  · have hgrants := hgranted (askingTurn ++ endTurn) [] (by decide +kernel) h
    have hfind : (run ⟨false, false, id⟩ (askingTurn ++ endTurn)).findPermission 1 =
      some ⟨1, [js "allow"], some 0⟩ := by decide +kernel
    exact (hgrants.active _ hfind 0 rfl).2 (by decide +kernel)
  · have hgrants := hgranted (askingTurn ++ [.exit]) [] (by decide +kernel) h
    exact absurd hgrants.admitted (by decide +kernel)

end AcpDriver

end Wiii.NekoChill
