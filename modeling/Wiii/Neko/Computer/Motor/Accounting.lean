import Wiii.Neko.Computer.Motor.Deadline

/-!
# Where the frames of a run go

Every frame that was submitted to a run is processed, dropped, stale, pending, or was taken by the step that ended the
run.  The counters of a run are these numbers, as far as 64 bits hold them (`Tallied`, `frames_accounted`,
`frames_saturate`).
-/

namespace Wiii.Neko.Computer.Motor

variable {κ σ : Type} {C : MotorController κ} {S : MotorSeat σ} {runner runner' : ContinuousMotorRunner κ σ}
  {run run' : ActiveRun} {frame : MotorFrame} {nowUs n lost : ℕ} {reason : MotorStopReason}

/-- What a counter of 64 bits holds of a number. -/
def capped (n : ℕ) : ℕ := min n (2 ^ 64 - 1)

theorem saturatingAdd_capped (n : ℕ) : saturatingAdd (capped n) 1 = capped (n + 1) := by
  unfold saturatingAdd capped
  omega

theorem capped_of_lt (h : n < 2 ^ 64) : capped n = n := by
  unfold capped
  omega

def ActiveRun.pendingFrames (run : ActiveRun) : ℕ := if run.pendingFrame.isSome then 1 else 0

/-- The numbers behind the counters of the run add up to the frames that were submitted. -/
def Tallied (submitted lost : ℕ) (run : ActiveRun) : Prop :=
  ∃ processed dropped stale, run.processedFrames = capped processed ∧ run.droppedFrames = capped dropped ∧
    run.staleActions = capped stale ∧ submitted = processed + dropped + stale + run.pendingFrames + lost

theorem Tallied.counters (h : Tallied n lost run) (hn : n < 2 ^ 64) :
    n = run.processedFrames + run.droppedFrames + run.staleActions + run.pendingFrames + lost := by
  obtain ⟨processed, dropped, stale, hprocessed, hdropped, hstale, hsum⟩ := h
  rw [hprocessed, hdropped, hstale, capped_of_lt, capped_of_lt, capped_of_lt]
  all_goals omega

/-! ## One operation -/

/-- What a step makes of the pending frame: nothing, or it is processed, found stale, or lost. -/
inductive Uses : ℕ → ActiveRun → ActiveRun → Prop
  | untouched {run run' : ActiveRun} (processed : run'.processedFrames = run.processedFrames)
      (dropped : run'.droppedFrames = run.droppedFrames) (stale : run'.staleActions = run.staleActions)
      (pending : run'.pendingFrame = run.pendingFrame) : Uses 0 run run'
  | processed {run run' : ActiveRun} (processed : run'.processedFrames = saturatingAdd run.processedFrames 1)
      (dropped : run'.droppedFrames = run.droppedFrames) (stale : run'.staleActions = run.staleActions)
      (pending : run.pendingFrame.isSome) (taken : run'.pendingFrame = none) : Uses 0 run run'
  | stale {run run' : ActiveRun} (processed : run'.processedFrames = run.processedFrames)
      (dropped : run'.droppedFrames = run.droppedFrames) (stale : run'.staleActions = saturatingAdd run.staleActions 1)
      (pending : run.pendingFrame.isSome) (taken : run'.pendingFrame = none) : Uses 0 run run'
  | lost {run run' : ActiveRun} (processed : run'.processedFrames = run.processedFrames)
      (dropped : run'.droppedFrames = run.droppedFrames) (stale : run'.staleActions = run.staleActions)
      (pending : run.pendingFrame.isSome) (taken : run'.pendingFrame = none) : Uses 1 run run'

theorem Tallied.uses (h : Tallied n 0 run) (huses : Uses lost run run') : Tallied n lost run' := by
  obtain ⟨processed, dropped, stale, hprocessed, hdropped, hstale, hsum⟩ := h
  have hpending : ∀ pending : run.pendingFrame.isSome, run.pendingFrames = 1 := fun pending => if_pos pending
  have htaken : ∀ taken : run'.pendingFrame = none, run'.pendingFrames = 0 := fun taken => by
    rw [ActiveRun.pendingFrames, taken]
    rfl
  cases huses with
  | untouched hp hd hs hframe =>
    refine ⟨processed, dropped, stale, hp.trans hprocessed, hd.trans hdropped, hs.trans hstale, ?_⟩
    rwa [ActiveRun.pendingFrames, hframe]
  | processed hp hd hs pending taken =>
    refine ⟨processed + 1, dropped, stale, by rw [hp, hprocessed, saturatingAdd_capped], hd.trans hdropped,
      hs.trans hstale, ?_⟩
    rw [htaken taken]
    rw [hpending pending] at hsum
    omega
  | stale hp hd hs pending taken =>
    refine ⟨processed, dropped, stale + 1, hp.trans hprocessed, hd.trans hdropped,
      by rw [hs, hstale, saturatingAdd_capped], ?_⟩
    rw [htaken taken]
    rw [hpending pending] at hsum
    omega
  | lost hp hd hs pending taken =>
    refine ⟨processed, dropped, stale, hp.trans hprocessed, hd.trans hdropped, hs.trans hstale, ?_⟩
    rw [htaken taken]
    rw [hpending pending] at hsum
    omega

/-- The runner recorded the end of the run, with its counters in the report. -/
def Reports (runner : ContinuousMotorRunner κ σ) (reason : MotorStopReason) (run : ActiveRun) : Prop :=
  ∃ event report, runner.terminalEvents.find? run.intent.intentId = some event ∧ event.reason = some reason ∧
    event.report = some report ∧ report.processedFrames = run.processedFrames ∧
      report.droppedFrames = run.droppedFrames ∧ report.staleActions = run.staleActions

theorem stop_reports (hactive : runner.active = some run) (C : MotorController κ) (S : MotorSeat σ)
    (reason : MotorStopReason) (nowUs : ℕ) :
    (runner.stop C S reason nowUs).runner.active = none ∧ Reports (runner.stop C S reason nowUs).runner reason run := by
  have hfind : ∀ (table : Table MotorEvent.intentId) (event : MotorEvent), event.intentId = run.intent.intentId →
      (table.upsert event).find? run.intent.intentId = some event := by
    intro table event hid
    rw [Table.find?_upsert, if_pos hid.symm]
  unfold ContinuousMotorRunner.stop
  rw [hactive]
  dsimp only
  split_ifs
  · exact ⟨rfl, _, _, hfind _ _ rfl, rfl, rfl, rfl, rfl, rfl⟩
  · exact ⟨rfl, _, _, hfind _ _ rfl, rfl, rfl, rfl, rfl, rfl⟩

/-- The frame that is lost when the controller or the seat fails in a step. -/
def lostBy (op : MotorOp) (reason : MotorStopReason) : ℕ :=
  match op, reason with
  | .step _, .controllerFailed => 1
  | .step _, .dispatchFailed => 1
  | _, _ => 0

/-- The run goes on, or its end is recorded, and the pending frame is accounted for. -/
def Accounts (op : MotorOp) (run : ActiveRun) (runner' : ContinuousMotorRunner κ σ) : Prop :=
  (∃ run', runner'.active = some run' ∧ Uses 0 run run') ∨
    ∃ run' reason, runner'.active = none ∧ run'.intent = run.intent ∧ Uses (lostBy op reason) run run' ∧
      Reports runner' reason run'

theorem uses_refl (run : ActiveRun) : Uses 0 run run := .untouched rfl rfl rfl rfl

theorem accounts_of_stop {op : MotorOp} {runner₁ : ContinuousMotorRunner κ σ} {run₁ : ActiveRun}
    {calls : List SeatCall} (hactive : runner₁.active = some run₁) (hintent : run₁.intent = run.intent)
    (huses : Uses (lostBy op reason) run run₁) : Accounts op run (runner₁.stopStep C S reason nowUs calls).runner :=
  have hstop := stop_reports hactive C S reason nowUs
  .inr ⟨run₁, reason, hstop.1, hintent, huses, hstop.2⟩

theorem lostBy_of_expiry {config : MotorRunnerConfig} (h : expiry config run nowUs = some reason) :
    lostBy (.step nowUs) reason = 0 := by
  unfold expiry at h
  split_ifs at h
  all_goals
    obtain rfl := Option.some.inj h
    rfl

theorem lostBy_of_terminalReason {kind : MotorDecisionKind} (h : terminalReason kind = some reason) :
    lostBy (.step nowUs) reason = 0 := by
  cases kind with
  | proceed => cases h
  | goalReached | blocked | uncertain =>
    cases h
    rfl

theorem applied_accounts {decision : MotorDecision} {runner₁ : ContinuousMotorRunner κ σ} {run₁ : ActiveRun}
    (hactive : runner₁.active = some run₁) (hrun : run₁ = { run with pendingFrame := none })
    (hpending : run.pendingFrame.isSome) (C : MotorController κ) (S : MotorSeat σ) (frame : MotorFrame) (nowUs : ℕ) :
    Accounts (.step nowUs) run (runner₁.applied C S run₁ frame decision nowUs).runner := by
  unfold ContinuousMotorRunner.applied
  dsimp only
  cases (S.apply runner₁.seat decision.control).1 with
  | error error =>
    have huses : Uses (lostBy (.step nowUs) .dispatchFailed) run run₁ := by
      rw [hrun]
      exact .lost rfl rfl rfl hpending rfl
    exact accounts_of_stop hactive (by rw [hrun]) huses
  | ok dispatchUs =>
    have huses : ∀ completedAtUs, Uses 0 run (run₁.acted frame decision dispatchUs completedAtUs nowUs) := by
      intro completedAtUs
      rw [hrun]
      exact .processed rfl rfl rfl hpending rfl
    dsimp only
    cases hkind : terminalReason decision.kind with
    | some reason =>
      dsimp only
      refine accounts_of_stop rfl (by rw [hrun]; rfl) ?_
      rw [lostBy_of_terminalReason hkind]
      exact huses _
    | none =>
      dsimp only
      split_ifs
      all_goals exact .inl ⟨_, rfl, huses _⟩

theorem step_accounts (hactive : runner.active = some run) (C : MotorController κ) (S : MotorSeat σ) (nowUs : ℕ) :
    Accounts (.step nowUs) run (runner.step C S nowUs).runner := by
  unfold ContinuousMotorRunner.step
  rw [hactive]
  dsimp only
  cases hexpiry : expiry runner.config run nowUs with
  | some reason =>
    refine accounts_of_stop hactive rfl ?_
    rw [lostBy_of_expiry hexpiry]
    exact uses_refl run
  | none =>
    dsimp only
    cases hframe : run.pendingFrame with
    | none => exact .inl ⟨run, hactive, uses_refl run⟩
    | some frame =>
      dsimp only
      have hpending : run.pendingFrame.isSome := by
        rw [hframe]
        rfl
      have hlost : Uses (lostBy (.step nowUs) .controllerFailed) run { run with pendingFrame := none } :=
        .lost rfl rfl rfl hpending rfl
      cases (C.infer runner.controller run.intent frame (nowUs - run.startedAtUs)).1 with
      | error error => exact accounts_of_stop rfl rfl hlost
      | ok decision =>
        dsimp only
        cases decision.validate runner.config.allowedKeys with
        | error error => exact accounts_of_stop rfl rfl hlost
        | ok _ =>
          dsimp only
          split_ifs
          · exact .inl ⟨_, rfl, .stale rfl rfl rfl hpending rfl⟩
          · exact applied_accounts rfl rfl hpending C S frame nowUs

theorem startNew_active (C : MotorController κ) (runner : ContinuousMotorRunner κ σ) (intent : MotorIntent)
    (authority : MotorLeaseAuthority) (nowUs : ℕ) :
    (runner.startNew C intent authority nowUs).runner.active = runner.active ∨ runner.active = none ∧
      (runner.startNew C intent authority nowUs).runner.active = some (.start intent authority nowUs) := by
  unfold ContinuousMotorRunner.startNew
  cases authority.validateFor intent nowUs with
  | error error => exact .inl rfl
  | ok _ =>
    dsimp only
    split_ifs with hactive
    · exact .inl rfl
    · exact .inr ⟨Option.not_isSome_iff_eq_none.1 hactive, rfl⟩

theorem start_active (C : MotorController κ) (runner : ContinuousMotorRunner κ σ) (intent : MotorIntent)
    (authority : MotorLeaseAuthority) (nowUs : ℕ) :
    (runner.start C intent authority nowUs).runner.active = runner.active ∨ runner.active = none ∧
      (runner.start C intent authority nowUs).runner.active = some (.start intent authority nowUs) := by
  unfold ContinuousMotorRunner.start
  cases intent.validate with
  | error error => exact .inl rfl
  | ok _ =>
    dsimp only
    cases runner.operations.find? intent.intentId with
    | none => exact startNew_active C runner intent authority nowUs
    | some existing =>
      dsimp only
      by_cases hother : existing ≠ intent
      · rw [if_pos hother]
        exact .inl rfl
      · rw [if_neg hother]
        cases runner.terminalEvents.find? intent.intentId with
        | some event => exact .inl rfl
        | none =>
          dsimp only
          split_ifs
          · exact .inl rfl
          · exact startNew_active C runner intent authority nowUs

theorem perform_accounts {op : MotorOp} (hactive : runner.active = some run) (hop : ∀ frame, op ≠ .submitFrame frame)
    (C : MotorController κ) (S : MotorSeat σ) : Accounts op run (runner.perform C S op).runner := by
  have hsame : ∀ {runner'}, runner'.active = runner.active → Accounts (κ := κ) (σ := σ) op run runner' :=
    fun h => .inl ⟨run, h.trans hactive, uses_refl run⟩
  have hstopped : ∀ reason nowUs, lostBy op reason = 0 → Accounts op run (runner.stop C S reason nowUs).runner := by
    intro reason nowUs hnone
    have huses : Uses (lostBy op reason) run run := by
      rw [hnone]
      exact uses_refl run
    have hstep : Accounts op run (runner.stopStep C S reason nowUs []).runner := accounts_of_stop hactive rfl huses
    exact hstep
  cases op with
  | submitFrame frame => exact absurd rfl (hop frame)
  | step nowUs => exact step_accounts hactive C S nowUs
  | stop reason nowUs => exact hstopped reason nowUs rfl
  | interrupt reason nowUs =>
    show Accounts _ run (runner.interrupt C S reason nowUs).runner
    unfold ContinuousMotorRunner.interrupt
    split_ifs
    · exact hstopped reason nowUs rfl
    · exact hsame rfl
  | start intent authority nowUs =>
    rcases start_active C runner intent authority nowUs with hstart | ⟨hnone, -⟩
    · exact hsame hstart
    · cases hnone.symm.trans hactive

/-! ## Runs -/

/-- The frames that were submitted to the run that is active, after one more operation. -/
def submittedAfter (submitted : ℕ) (label : MotorLabel) : ℕ :=
  match label.op with
  | .start _ _ _ => if label.before = label.after then submitted else 0
  | .submitFrame _ => match label.answer with
    | .ok _ => submitted + 1
    | .error _ => submitted
  | _ => submitted

/-- The frames that were submitted to the run that is active. -/
def submitted (labels : List MotorLabel) : ℕ := labels.foldl submittedAfter 0

theorem submitFrame_tallied (hactive : runner.active = some run) (h : Tallied n 0 run) (frame : MotorFrame) :
    ∃ run', (runner.submitFrame frame).runner.active = some run' ∧
      Tallied (match (runner.submitFrame frame).answer with
        | .ok _ => n + 1
        | .error _ => n) 0 run' := by
  obtain ⟨processed, dropped, stale, hprocessed, hdropped, hstale, hsum⟩ := h
  have hsame : Tallied n 0 run := ⟨processed, dropped, stale, hprocessed, hdropped, hstale, hsum⟩
  unfold ContinuousMotorRunner.submitFrame
  cases frame.validate with
  | error error => exact ⟨run, hactive, hsame⟩
  | ok _ =>
    rw [hactive]
    dsimp only
    split_ifs with htarget hold hpending
    · exact ⟨run, hactive, hsame⟩
    · refine ⟨_, rfl, processed, dropped + 1, stale, hprocessed, ?_, hstale, ?_⟩
      · rw [← saturatingAdd_capped, ← hdropped]
      · show n + 1 = _ + run.pendingFrames + 0
        omega
    · refine ⟨_, rfl, processed, dropped + 1, stale, hprocessed, ?_, hstale, ?_⟩
      · rw [← saturatingAdd_capped, ← hdropped]
      · rw [ActiveRun.pendingFrames, if_pos hpending] at hsum
        show n + 1 = _ + 1 + 0
        omega
    · refine ⟨_, rfl, processed, dropped, stale, hprocessed, hdropped, hstale, ?_⟩
      rw [ActiveRun.pendingFrames, if_neg hpending] at hsum
      show n + 1 = _ + 1 + 0
      omega

def Accounted (n : ℕ) (runner : ContinuousMotorRunner κ σ) : Prop := ∀ run, runner.active = some run → Tallied n 0 run

theorem tallied_start (intent : MotorIntent) (authority : MotorLeaseAuthority) (nowUs : ℕ) :
    Tallied 0 0 (.start intent authority nowUs) := ⟨0, 0, 0, rfl, rfl, rfl, rfl⟩

theorem submitFrame_inactive (hnone : runner.active = none) (frame : MotorFrame) :
    (runner.submitFrame frame).runner.active = none := by
  unfold ContinuousMotorRunner.submitFrame
  cases frame.validate with
  | error error => exact hnone
  | ok _ =>
    rw [hnone]
    exact hnone

theorem perform_inactive {op : MotorOp} (hnone : runner.active = none) (hop : ∀ intent authority nowUs,
    op ≠ .start intent authority nowUs) (C : MotorController κ) (S : MotorSeat σ) :
    (runner.perform C S op).runner.active = none := by
  have hstopped : ∀ reason nowUs, (runner.stop C S reason nowUs).runner.active = none := by
    intro reason nowUs
    unfold ContinuousMotorRunner.stop
    rw [hnone]
    exact hnone
  cases op with
  | start intent authority nowUs => exact absurd rfl (hop intent authority nowUs)
  | stop reason nowUs => exact hstopped reason nowUs
  | interrupt reason nowUs =>
    show (runner.interrupt C S reason nowUs).runner.active = none
    unfold ContinuousMotorRunner.interrupt
    split_ifs
    · exact hstopped reason nowUs
    · exact hnone
  | step nowUs =>
    show (runner.step C S nowUs).runner.active = none
    unfold ContinuousMotorRunner.step
    rw [hnone]
    exact hnone
  | submitFrame frame => exact submitFrame_inactive hnone frame

theorem Accounted.start (h : Accounted n runner) (intent : MotorIntent) (authority : MotorLeaseAuthority) (nowUs : ℕ) :
    Accounted (if runner.activeId = (runner.start C intent authority nowUs).runner.activeId then n else 0)
      (runner.start C intent authority nowUs).runner := by
  intro run hrun
  rcases start_active C runner intent authority nowUs with hsame | ⟨hnone, hstarted⟩
  · rw [ContinuousMotorRunner.activeId, ContinuousMotorRunner.activeId, hsame, if_pos rfl]
    exact h run (hsame.symm.trans hrun)
  · rw [ContinuousMotorRunner.activeId, ContinuousMotorRunner.activeId, hnone, hstarted,
      if_neg fun heq => by cases heq]
    cases hstarted.symm.trans hrun
    exact tallied_start intent authority nowUs

theorem Accounted.submitFrame (h : Accounted n runner) (frame : MotorFrame) :
    Accounted (match (runner.submitFrame frame).answer with
      | .ok _ => n + 1
      | .error _ => n) (runner.submitFrame frame).runner := by
  intro run' hrun'
  cases hactive : runner.active with
  | none => cases (submitFrame_inactive hactive frame).symm.trans hrun'
  | some run =>
    obtain ⟨run₁, hrun₁, htallied⟩ := submitFrame_tallied hactive (h run hactive) frame
    cases hrun₁.symm.trans hrun'
    exact htallied

theorem Accounted.step {label : MotorLabel} (h : Accounted n runner) (hstep : Step C S runner label runner') :
    Accounted (submittedAfter n label) runner' := by
  obtain ⟨op, rfl, rfl⟩ := step_iff.1 hstep
  have hother : (∀ intent authority nowUs, op ≠ .start intent authority nowUs) → (∀ frame, op ≠ .submitFrame frame) →
      Accounted n (runner.perform C S op).runner := by
    intro hstart hsubmit run' hrun'
    cases hactive : runner.active with
    | none => cases (perform_inactive hactive hstart C S).symm.trans hrun'
    | some run =>
      rcases perform_accounts hactive hsubmit C S with ⟨run₁, hrun₁, huses⟩ | ⟨_, _, hnone, -⟩
      · cases hrun₁.symm.trans hrun'
        exact (h run hactive).uses huses
      · cases hnone.symm.trans hrun'
  cases op with
  | start intent authority nowUs => exact h.start intent authority nowUs
  | submitFrame frame =>
    have htaken := h.submitFrame frame
    show Accounted (match (runner.submitFrame frame).answer.map MotorAnswer.taken with
      | .ok _ => n + 1
      | .error _ => n) (runner.submitFrame frame).runner
    cases hanswer : (runner.submitFrame frame).answer with
    | ok taken =>
      rw [hanswer] at htaken
      exact htaken
    | error error =>
      rw [hanswer] at htaken
      exact htaken
  | step nowUs => exact hother (fun _ _ _ heq => by cases heq) fun _ heq => by cases heq
  | stop reason nowUs => exact hother (fun _ _ _ heq => by cases heq) fun _ heq => by cases heq
  | interrupt reason nowUs => exact hother (fun _ _ _ heq => by cases heq) fun _ heq => by cases heq

theorem accounted_of_run {labels : List MotorLabel} (hrun : Run (Step C S) runner labels runner')
    (h : Accounted n runner) : Accounted (labels.foldl submittedAfter n) runner' := by
  induction hrun generalizing n with
  | nil _ => exact h
  | cons hstep _ ih => exact ih (h.step hstep)

theorem accounted_of_new {controller : κ} {seat : σ} {config : MotorRunnerConfig}
    (hnew : ContinuousMotorRunner.new C controller seat config = .ok runner) : Accounted 0 runner := by
  intro run hrun
  have hphase := (new_spec hnew).1
  rw [hrun] at hphase
  cases hphase

/-- In a run of fewer than 2⁶⁴ frames the counters, and at its end those of its report, account for every submitted
frame. -/
theorem frames_accounted (C : MotorController κ) (S : MotorSeat σ) {controller : κ} {seat : σ}
    {config : MotorRunnerConfig} {first runner : ContinuousMotorRunner κ σ}
    (hnew : ContinuousMotorRunner.new C controller seat config = .ok first) {labels : List MotorLabel}
    (hrun : Run (Step C S) first labels runner) (hfew : submitted labels < 2 ^ 64) :
    (∀ run, runner.active = some run →
        submitted labels = run.processedFrames + run.droppedFrames + run.staleActions + run.pendingFrames) ∧
      ∀ label runner' run, Step C S runner label runner' → runner.active = some run → runner'.active = none →
        ∃ run' event report reason, Uses (lostBy label.op reason) run run' ∧
          runner'.terminalEvents.find? run.intent.intentId = some event ∧ event.reason = some reason ∧
            event.report = some report ∧ submitted labels = report.processedFrames + report.droppedFrames +
              report.staleActions + run'.pendingFrames + lostBy label.op reason := by
  have haccounted : Accounted (submitted labels) runner := accounted_of_run hrun (accounted_of_new hnew)
  refine ⟨fun run hactive => (haccounted run hactive).counters hfew, fun label runner' run hstep hactive hended => ?_⟩
  obtain ⟨op, rfl, rfl⟩ := step_iff.1 hstep
  have hsubmit : ∀ frame, op ≠ .submitFrame frame := by
    rintro frame rfl
    obtain ⟨_, hgoes, -⟩ := submitFrame_tallied hactive (haccounted run hactive) frame
    cases hended.symm.trans hgoes
  rcases perform_accounts hactive hsubmit C S with ⟨_, hgoes, -⟩ | ⟨run', reason, -, hintent, huses, hreports⟩
  · cases hended.symm.trans hgoes
  · obtain ⟨event, report, hevent, hreason, hreport, hprocessed, hdropped, hstale⟩ := hreports
    refine ⟨run', event, report, reason, huses, by rw [← hintent, hevent], hreason, hreport, ?_⟩
    rw [hprocessed, hdropped, hstale]
    exact ((haccounted run hactive).uses huses).counters hfew

theorem submitFrame_counted (hactive : runner.active = some run) (hvalid : frame.validate = .ok ())
    (htarget : frame.targetRef = run.intent.targetRef) :
    (∃ taken, (runner.submitFrame frame).answer = .ok taken) ∧
      ∃ run', (runner.submitFrame frame).runner.active = some run' ∧ run'.intent = run.intent := by
  unfold ContinuousMotorRunner.submitFrame
  rw [hvalid, hactive]
  dsimp only
  rw [if_neg (not_not.2 htarget)]
  split_ifs
  · exact ⟨⟨false, rfl⟩, _, rfl, rfl⟩
  all_goals exact ⟨⟨true, rfl⟩, _, rfl, rfl⟩

theorem submitted_snoc (labels : List MotorLabel) (label : MotorLabel) :
    submitted (labels ++ [label]) = submittedAfter (submitted labels) label := List.foldl_append

section Example

theorem exists_submitted (k : ℕ) : ∃ labels runner run, Run (Step forward obedient) exampleRunner labels runner ∧
    runner.active = some run ∧ run.intent = exampleIntent ∧ submitted labels = k := by
  induction k with
  | zero =>
    have hstarted : ((exampleRunner.start forward exampleIntent exampleAuthority 9000000).runner.activeId) =
        some "intent-1" := by decide +kernel
    obtain ⟨run, hactive, -⟩ := Option.map_eq_some_iff.1 hstarted
    have hintent : run.intent = exampleIntent := by
      rcases start_active forward exampleRunner exampleIntent exampleAuthority 9000000 with hsame | ⟨-, hnew⟩
      · cases hsame.symm.trans hactive
      · cases hnew.symm.trans hactive
        rfl
    refine ⟨_, _, run, .single (.mk exampleRunner (.start exampleIntent exampleAuthority 9000000)), hactive, hintent, ?_⟩
    show (if exampleRunner.activeId = _ then 0 else 0) = 0
    exact ite_self 0
  | succ k ih =>
    obtain ⟨labels, runner, run, hrun, hactive, hintent, hk⟩ := ih
    have hvalid : (exampleFrame 1).validate = .ok () := by decide +kernel
    obtain ⟨⟨taken, htaken⟩, run', hactive', hintent'⟩ := submitFrame_counted hactive hvalid (by rw [hintent]; rfl)
    refine ⟨_, _, run', hrun.snoc (.mk runner (.submitFrame (exampleFrame 1))), hactive', hintent'.trans hintent, ?_⟩
    rw [submitted_snoc, hk]
    show (match (runner.submitFrame (exampleFrame 1)).answer.map MotorAnswer.taken with
      | .ok _ => k + 1
      | .error _ => k) = k + 1
    rw [htaken]
    rfl

/-- After three times 2⁶⁴ frames the counters are too small. -/
theorem frames_saturate : ∃ labels runner run, Run (Step forward obedient) exampleRunner labels runner ∧
    runner.active = some run ∧
      submitted labels ≠ run.processedFrames + run.droppedFrames + run.staleActions + run.pendingFrames := by
  obtain ⟨labels, runner, run, hrun, hactive, -, hmany⟩ := exists_submitted (3 * 2 ^ 64)
  have hnew : ContinuousMotorRunner.new forward () () exampleConfig = .ok exampleRunner := rfl
  refine ⟨labels, runner, run, hrun, hactive, ?_⟩
  obtain ⟨processed, dropped, stale, hprocessed, hdropped, hstale, -⟩ :=
    accounted_of_run hrun (accounted_of_new hnew) run hactive
  have hpending : run.pendingFrames ≤ 1 := by
    unfold ActiveRun.pendingFrames
    split_ifs <;> omega
  rw [hmany, hprocessed, hdropped, hstale]
  unfold capped
  omega

/-- A run with one pending frame. -/
theorem frames_accounted_one : ∃ labels, Run (Step forward obedient) exampleRunner labels lateStart ∧
    submitted labels = lateRun.processedFrames + lateRun.droppedFrames + lateRun.staleActions + lateRun.pendingFrames := by
  have hnew : ContinuousMotorRunner.new forward () () exampleConfig = .ok exampleRunner := rfl
  have hrun : Run (Step forward obedient) exampleRunner _ lateStart :=
    .cons (.mk exampleRunner (.start exampleIntent exampleAuthority 9000000))
      (.single (.mk _ (.submitFrame (exampleFrame 1))))
  exact ⟨_, hrun, (frames_accounted forward obedient hnew hrun (by decide +kernel)).1 lateRun lateStart_active⟩

end Example

end Wiii.Neko.Computer.Motor
