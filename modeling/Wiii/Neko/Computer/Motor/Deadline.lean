import Wiii.Neko.Computer.Motor.Safety

/-!
# When controls are applied

A step looks at the lease and the horizon before it asks the controller, and not again when the controller has
answered.  So a control is applied in time exactly if the inference is shorter than what is left of both when the
step begins (`controls_in_time_iff`).
-/

namespace Wiii.Neko.Computer.Motor

variable {κ σ : Type} {C : MotorController κ} {S : MotorSeat σ} {runner runner' : ContinuousMotorRunner κ σ}
  {run : ActiveRun} {frame : MotorFrame} {control : MotorControlState} {decision : MotorDecision} {nowUs : ℕ}
  {label : MotorLabel}

/-- A step at `nowUs` acts on the pending frame with this decision. -/
structure ActsOn (C : MotorController κ) (runner : ContinuousMotorRunner κ σ) (nowUs : ℕ) (run : ActiveRun)
    (frame : MotorFrame) (decision : MotorDecision) : Prop where
  active : runner.active = some run
  current : expiry runner.config run nowUs = none
  pending : run.pendingFrame = some frame
  inferred : (C.infer runner.controller run.intent frame (nowUs - run.startedAtUs)).1 = .ok decision
  valid : decision.validate runner.config.allowedKeys = .ok ()
  fresh : decision.frameSequence = frame.sequence ∧ run.lastProcessedSequence < frame.sequence

theorem ActsOn.expiry_none (h : ActsOn C runner nowUs run frame decision) :
    nowUs < run.authority.expiresAtUs ∧ nowUs - run.startedAtUs < run.intent.horizonMs * 1000 := by
  have hcurrent := h.current
  unfold expiry at hcurrent
  split_ifs at hcurrent with hlease hhorizon
  exact ⟨not_le.1 hlease, not_le.1 hhorizon⟩

theorem stopStep_calls (C : MotorController κ) (S : MotorSeat σ) (runner : ContinuousMotorRunner κ σ)
    (reason : MotorStopReason) (nowUs : ℕ) (calls : List SeatCall) :
    (runner.stopStep C S reason nowUs calls).calls = calls ∨
      (runner.stopStep C S reason nowUs calls).calls = calls ++ [.releaseAll] := by
  cases hactive : runner.active with
  | none =>
    left
    unfold ContinuousMotorRunner.stopStep ContinuousMotorRunner.stop
    rw [hactive]
    exact List.append_nil calls
  | some run => exact .inr (stopStep_spec hactive reason nowUs calls).1

theorem apply_mem_applied {runner : ContinuousMotorRunner κ σ} {run : ActiveRun} {frame' : MotorFrame} :
    .apply frame' control ∈ (runner.applied C S run frame decision nowUs).calls ↔
      frame' = frame ∧ decision.control = control := by
  have hmem : ∀ calls : List SeatCall,
      calls = [.apply frame decision.control] ∨ calls = [.apply frame decision.control] ++ [.releaseAll] →
        (.apply frame' control ∈ calls ↔ frame' = frame ∧ decision.control = control) := by
    rintro _ (rfl | rfl) <;> simp [eq_comm]
  refine hmem _ ?_
  unfold ContinuousMotorRunner.applied
  dsimp only
  cases (S.apply runner.seat decision.control).1 with
  | error error => exact stopStep_calls C S _ _ _ _
  | ok dispatchUs =>
    dsimp only
    cases terminalReason decision.kind with
    | some reason => exact stopStep_calls C S _ _ _ _
    | none =>
      dsimp only
      split_ifs
      all_goals exact .inl rfl

theorem apply_mem_step : .apply frame control ∈ (runner.step C S nowUs).calls ↔
    ∃ run decision, ActsOn C runner nowUs run frame decision ∧ decision.control = control := by
  have hnone : ∀ calls : List SeatCall, calls = [] ∨ calls = [] ++ [.releaseAll] → .apply frame control ∉ calls := by
    rintro _ (rfl | rfl) <;> simp
  unfold ContinuousMotorRunner.step
  cases hactive : runner.active with
  | none =>
    refine ⟨fun hmem => absurd hmem List.not_mem_nil, ?_⟩
    rintro ⟨run, decision, hacts, -⟩
    cases hactive.symm.trans hacts.active
  | some run =>
    dsimp only
    -- what a step acts on is what it comes to, case by case
    have hsame : ∀ {run' decision}, ActsOn C runner nowUs run' frame decision → run' = run := fun hacts =>
      Option.some.inj (hacts.active.symm.trans hactive)
    cases hexpiry : expiry runner.config run nowUs with
    | some reason =>
      refine ⟨fun hmem => absurd hmem (hnone _ (stopStep_calls C S _ _ _ _)), ?_⟩
      rintro ⟨run', decision, hacts, -⟩
      have hcurrent := hacts.current
      rw [hsame hacts, hexpiry] at hcurrent
      cases hcurrent
    | none =>
      dsimp only
      cases hframe : run.pendingFrame with
      | none =>
        refine ⟨fun hmem => absurd hmem List.not_mem_nil, ?_⟩
        rintro ⟨run', decision, hacts, -⟩
        have hpending := hacts.pending
        rw [hsame hacts, hframe] at hpending
        cases hpending
      | some pending =>
        dsimp only
        have hinferred : ∀ {run' decision}, ActsOn C runner nowUs run' frame decision → frame = pending ∧
            (C.infer runner.controller run.intent pending (nowUs - run.startedAtUs)).1 = .ok decision := by
          intro run' decision hacts
          have hpending := hacts.pending
          have hinferred := hacts.inferred
          rw [hsame hacts] at hpending hinferred
          cases hframe.symm.trans hpending
          exact ⟨rfl, hinferred⟩
        cases hinfer : (C.infer runner.controller run.intent pending (nowUs - run.startedAtUs)).1 with
        | error error =>
          refine ⟨fun hmem => absurd hmem (hnone _ (stopStep_calls C S _ _ _ _)), ?_⟩
          rintro ⟨run', decision, hacts, -⟩
          cases hinfer.symm.trans (hinferred hacts).2
        | ok decision =>
          dsimp only
          have hdecision : ∀ {run' decision'}, ActsOn C runner nowUs run' frame decision' → decision' = decision :=
            fun hacts => Except.ok.inj ((hinferred hacts).2.symm.trans hinfer)
          cases hvalid : decision.validate runner.config.allowedKeys with
          | error error =>
            refine ⟨fun hmem => absurd hmem (hnone _ (stopStep_calls C S _ _ _ _)), ?_⟩
            rintro ⟨run', decision', hacts, -⟩
            have hok := hacts.valid
            rw [hdecision hacts, hvalid] at hok
            cases hok
          | ok _ =>
            dsimp only
            split_ifs with hstale
            · refine ⟨fun hmem => absurd hmem List.not_mem_nil, ?_⟩
              rintro ⟨run', decision', hacts, -⟩
              obtain ⟨hsequence, hlast⟩ := hacts.fresh
              rw [hdecision hacts, (hinferred hacts).1] at hsequence
              rw [hsame hacts, (hinferred hacts).1] at hlast
              exact hstale.elim (fun hne => absurd hsequence hne) fun hle => absurd hlast (not_lt.2 hle)
            · rw [not_or, not_not, not_le] at hstale
              rw [apply_mem_applied]
              constructor
              · rintro ⟨rfl, rfl⟩
                exact ⟨run, decision, ⟨hactive, hexpiry, hframe, hinfer, hvalid, hstale⟩, rfl⟩
              · rintro ⟨run', decision', hacts, rfl⟩
                exact ⟨(hinferred hacts).1, by rw [hdecision hacts]⟩

theorem startNew_calls (C : MotorController κ) (runner : ContinuousMotorRunner κ σ) (intent : MotorIntent)
    (authority : MotorLeaseAuthority) (nowUs : ℕ) : (runner.startNew C intent authority nowUs).calls = [] := by
  unfold ContinuousMotorRunner.startNew
  cases authority.validateFor intent nowUs with
  | error error => rfl
  | ok _ =>
    dsimp only
    split_ifs
    all_goals rfl

theorem start_calls (C : MotorController κ) (runner : ContinuousMotorRunner κ σ) (intent : MotorIntent)
    (authority : MotorLeaseAuthority) (nowUs : ℕ) : (runner.start C intent authority nowUs).calls = [] := by
  unfold ContinuousMotorRunner.start
  cases intent.validate with
  | error error => rfl
  | ok _ =>
    dsimp only
    cases runner.operations.find? intent.intentId with
    | none => exact startNew_calls C runner intent authority nowUs
    | some existing =>
      dsimp only
      by_cases hother : existing ≠ intent
      · rw [if_pos hother]
      · rw [if_neg hother]
        cases runner.terminalEvents.find? intent.intentId with
        | some event => rfl
        | none =>
          dsimp only
          split_ifs
          · rfl
          · exact startNew_calls C runner intent authority nowUs

theorem submitFrame_calls (runner : ContinuousMotorRunner κ σ) (frame : MotorFrame) :
    (runner.submitFrame frame).calls = [] := by
  unfold ContinuousMotorRunner.submitFrame
  cases frame.validate with
  | error error => rfl
  | ok _ =>
    dsimp only
    cases runner.active with
    | none => rfl
    | some run =>
      dsimp only
      split_ifs
      all_goals rfl

theorem apply_not_mem_stop (C : MotorController κ) (S : MotorSeat σ) (runner : ContinuousMotorRunner κ σ)
    (reason : MotorStopReason) (nowUs : ℕ) : .apply frame control ∉ (runner.stop C S reason nowUs).calls := by
  intro hmem
  rcases stopStep_calls C S runner reason nowUs [] with hcalls | hcalls
  all_goals
    have hstopped : (runner.stop C S reason nowUs).calls = _ := hcalls
    rw [hstopped] at hmem
    simp at hmem

theorem apply_mem_perform {op : MotorOp} : .apply frame control ∈ (runner.perform C S op).calls ↔
    ∃ nowUs run decision, op = .step nowUs ∧ ActsOn C runner nowUs run frame decision ∧
      decision.control = control := by
  have hother : (∀ nowUs, op ≠ .step nowUs) → .apply frame control ∉ (runner.perform C S op).calls →
      (.apply frame control ∈ (runner.perform C S op).calls ↔
        ∃ nowUs run decision, op = .step nowUs ∧ ActsOn C runner nowUs run frame decision ∧
          decision.control = control) := fun hop hnot =>
    ⟨fun hmem => absurd hmem hnot, fun ⟨nowUs, _, _, heq, _⟩ => absurd heq (hop nowUs)⟩
  cases op with
  | step nowUs =>
    show .apply frame control ∈ (runner.step C S nowUs).calls ↔ _
    rw [apply_mem_step]
    constructor
    · rintro ⟨run, decision, hacts, hcontrol⟩
      exact ⟨nowUs, run, decision, rfl, hacts, hcontrol⟩
    · rintro ⟨_, run, decision, hop, hacts, hcontrol⟩
      cases hop
      exact ⟨run, decision, hacts, hcontrol⟩
  | start intent authority nowUs =>
    refine hother (fun _ heq => by cases heq) fun hmem => ?_
    have hcalls : .apply frame control ∈ (runner.start C intent authority nowUs).calls := hmem
    rw [start_calls] at hcalls
    cases hcalls
  | submitFrame frame' =>
    refine hother (fun _ heq => by cases heq) fun hmem => ?_
    have hcalls : .apply frame control ∈ (runner.submitFrame frame').calls := hmem
    rw [submitFrame_calls] at hcalls
    cases hcalls
  | stop reason nowUs => exact hother (fun _ heq => by cases heq) (apply_not_mem_stop C S runner reason nowUs)
  | interrupt reason nowUs =>
    refine hother (fun _ heq => by cases heq) fun hmem => ?_
    have hcalls : .apply frame control ∈ (runner.interrupt C S reason nowUs).calls := hmem
    unfold ContinuousMotorRunner.interrupt at hcalls
    split_ifs at hcalls
    · exact absurd hcalls (apply_not_mem_stop C S runner reason nowUs)
    · cases hcalls

/-! ## Runs -/

/-- Every control was decided on early enough for the lease and the horizon. -/
def InTime (C : MotorController κ) (runner : ContinuousMotorRunner κ σ) (label : MotorLabel) : Prop :=
  ∀ frame control, .apply frame control ∈ label.calls → ∃ nowUs run decision, label.op = .step nowUs ∧
    runner.active = some run ∧ run.pendingFrame = some frame ∧
      (C.infer runner.controller run.intent frame (nowUs - run.startedAtUs)).1 = .ok decision ∧
        decision.control = control ∧ nowUs + decision.inferenceUs < run.authority.expiresAtUs ∧
          nowUs + decision.inferenceUs - run.startedAtUs < run.intent.horizonMs * 1000

/-- The inference of a step is shorter than what is left of the lease and of the horizon. -/
def Prompt (C : MotorController κ) (runner : ContinuousMotorRunner κ σ) (label : MotorLabel) : Prop :=
  ∀ nowUs run frame decision, label.op = .step nowUs → ActsOn C runner nowUs run frame decision →
    decision.inferenceUs < run.authority.expiresAtUs - nowUs ∧
      decision.inferenceUs < run.startedAtUs + run.intent.horizonMs * 1000 - nowUs

theorem inTime_iff_prompt (h : Step C S runner label runner') : InTime C runner label ↔ Prompt C runner label := by
  obtain ⟨op, rfl, rfl⟩ := step_iff.1 h
  constructor
  · rintro htime nowUs run frame decision rfl hacts
    have hcall := (apply_mem_perform (S := S)).2 ⟨nowUs, run, decision, rfl, hacts, rfl⟩
    obtain ⟨_, run', decision', hop, hactive, hpending, hinferred, -, hlease, hhorizon⟩ := htime frame _ hcall
    cases hop
    cases hactive.symm.trans hacts.active
    cases hinferred.symm.trans hacts.inferred
    have hleft := hacts.expiry_none
    omega
  · intro hprompt frame control hcall
    obtain ⟨nowUs, run, decision, rfl, hacts, hcontrol⟩ := apply_mem_perform.1 hcall
    obtain ⟨hlease, hhorizon⟩ := hprompt nowUs run frame decision rfl hacts
    have hleft := hacts.expiry_none
    exact ⟨nowUs, run, decision, rfl, hacts.active, hacts.pending, hacts.inferred, hcontrol, by omega, by omega⟩

/-- In a run all controls are applied in time if and only if all its steps are prompt. -/
theorem controls_in_time_iff (C : MotorController κ) (S : MotorSeat σ) (runner runner' : ContinuousMotorRunner κ σ)
    (labels : List MotorLabel) :
    Run (Guarded (Step C S) (InTime C)) runner labels runner' ↔
      Run (Guarded (Step C S) (Prompt C)) runner labels runner' := by
  constructor
  · exact Run.mono fun _ _ _ h => ⟨h.1, (inTime_iff_prompt h.1).1 h.2⟩
  · exact Run.mono fun _ _ _ h => ⟨h.1, (inTime_iff_prompt h.1).2 h.2⟩

section Example

deriving instance DecidableEq for ActiveRun

/-- A step that begins 10 ms before the lease expires, with an inference of 20 ms. -/
def lateStart : ContinuousMotorRunner Unit Unit :=
  exampleRunner.performAll forward obedient [.start exampleIntent exampleAuthority 9000000, .submitFrame (exampleFrame 1)]

def lateRun : ActiveRun :=
  { ActiveRun.start exampleIntent exampleAuthority 9000000 with
    pendingFrame := some (exampleFrame 1)
    lastSubmittedSequence := 1 }

theorem lateStart_active : lateStart.active = some lateRun := by decide +kernel

theorem controls_late : ∃ labels runner label runner', Run (Step forward obedient) exampleRunner labels runner ∧
    Step forward obedient runner label runner' ∧ ¬ InTime forward runner label := by
  obtain ⟨labels, hrun⟩ := run_performAll forward obedient
    [.start exampleIntent exampleAuthority 9000000, .submitFrame (exampleFrame 1)] exampleRunner
  refine ⟨labels, lateStart, _, _, hrun, .mk lateStart (.step 9990000), fun htime => ?_⟩
  have hacts : ActsOn forward lateStart 9990000 lateRun (exampleFrame 1)
      ⟨1, 20000, 900, .proceed, ⟨["KeyW"], none⟩, []⟩ :=
    ⟨lateStart_active, by decide +kernel, rfl, rfl, by decide +kernel, by decide⟩
  obtain ⟨nowUs, run, decision, hop, hactive, -, hinferred, -, hlease, -⟩ :=
    htime _ _ (apply_mem_perform.2 ⟨9990000, _, _, rfl, hacts, rfl⟩)
  cases hop
  cases hactive.symm.trans hacts.active
  cases hinferred.symm.trans hacts.inferred
  exact absurd hlease (by decide)

end Example

end Wiii.Neko.Computer.Motor
