import Wiii.Neko.Computer.Motor.Runner

/-!
# What a motor run may do to the seat

A motor session as a protocol (`Moves`): it starts, controls are applied to frames with increasing sequences, all input
is released, and it ends.  What an operation of the runner does is said once (`Change`), and every run of the runner is
a run of the protocol (`run_moves`).
-/

namespace Wiii.Neko.Computer.Motor

/-! ## The protocol -/

inductive Fact where
  | started (intentId : String)
  | seat (call : SeatCall)
  | ended (intentId : String)

inductive Phase where
  | idle
  | running (intentId : String) (last : ℕ)
  | released (intentId : String)

inductive Moves (allowedKeys : Finset String) : Phase → Fact → Phase → Prop
  | start (intentId : String) : Moves allowedKeys .idle (.started intentId) (.running intentId 0)
  | apply {intentId : String} {last : ℕ} {frame : MotorFrame} {control : MotorControlState}
      (later : last < frame.sequence) (allowed : ∀ key ∈ control.heldKeys, key ∈ allowedKeys) :
      Moves allowedKeys (.running intentId last) (.seat (.apply frame control)) (.running intentId frame.sequence)
  | release (intentId : String) (last : ℕ) :
      Moves allowedKeys (.running intentId last) (.seat .releaseAll) (.released intentId)
  | finish (intentId : String) : Moves allowedKeys (.released intentId) (.ended intentId) .idle

def phaseOf : Option ActiveRun → Phase
  | none => .idle
  | some run => .running run.intent.intentId run.lastProcessedSequence

/-- An operation, its calls to the seat, and the active run before and after it. -/
structure MotorLabel where
  op : MotorOp
  answer : Except String MotorAnswer
  calls : List SeatCall
  before : Option String
  after : Option String

/-- It starts a run that was not active, or ends one that is not active any more. -/
def MotorLabel.facts (label : MotorLabel) : List Fact :=
  (if label.after = label.before then [] else label.after.toList.map .started) ++ label.calls.map .seat ++
    if label.after = label.before then [] else label.before.toList.map .ended

variable {κ σ : Type}

def ContinuousMotorRunner.activeId (runner : ContinuousMotorRunner κ σ) : Option String :=
  runner.active.map fun run => run.intent.intentId

inductive Step (C : MotorController κ) (S : MotorSeat σ) :
    ContinuousMotorRunner κ σ → MotorLabel → ContinuousMotorRunner κ σ → Prop
  | mk (runner : ContinuousMotorRunner κ σ) (op : MotorOp) :
      Step C S runner ⟨op, (runner.perform C S op).answer, (runner.perform C S op).calls, runner.activeId,
        (runner.perform C S op).runner.activeId⟩ (runner.perform C S op).runner

/-! ## One operation -/

/-- The control is that of the decision of the controller on the pending frame. -/
def Decided (C : MotorController κ) (runner : ContinuousMotorRunner κ σ) (frame : MotorFrame)
    (control : MotorControlState) : Prop :=
  ∃ run intentAgeUs decision, runner.active = some run ∧ run.pendingFrame = some frame ∧
    (C.infer runner.controller run.intent frame intentAgeUs).1 = .ok decision ∧
    decision.frameSequence = frame.sequence ∧ run.lastProcessedSequence < frame.sequence ∧
    decision.control = control ∧ decision.validate runner.config.allowedKeys = .ok ()

/-- The run goes on with its intent, from the same frame. -/
def SameRun (run run' : ActiveRun) : Prop :=
  run'.intent = run.intent ∧ run'.lastProcessedSequence = run.lastProcessedSequence

inductive Change (C : MotorController κ) (runner runner' : ContinuousMotorRunner κ σ) : List SeatCall → Prop
  | quiet (active : Option.Rel SameRun runner.active runner'.active)
      (operations : runner'.operations = runner.operations)
      (terminal : runner'.terminalEvents = runner.terminalEvents) : Change C runner runner' []
  | started {intent : MotorIntent} {authority : MotorLeaseAuthority} {nowUs : ℕ}
      (valid : intent.validate = .ok ()) (inactive : runner.active = none)
      (fresh : runner.operations.find? intent.intentId = none ∨
        runner.operations.find? intent.intentId = some intent ∧ runner.terminalEvents.find? intent.intentId = none)
      (active : runner'.active = some (.start intent authority nowUs))
      (operations : runner'.operations = runner.operations.upsert intent)
      (terminal : runner'.terminalEvents = runner.terminalEvents) : Change C runner runner' []
  | acted {run run' : ActiveRun} {frame : MotorFrame} {control : MotorControlState}
      (decided : Decided C runner frame control) (active : runner.active = some run)
      (active' : runner'.active = some run') (intent : run'.intent = run.intent)
      (processed : run'.lastProcessedSequence = frame.sequence)
      (operations : runner'.operations = runner.operations)
      (terminal : runner'.terminalEvents = runner.terminalEvents) : Change C runner runner' [.apply frame control]
  | stopped {run : ActiveRun} {event : MotorEvent} {calls : List SeatCall}
      (decided : calls = [] ∨ ∃ frame control, calls = [.apply frame control] ∧ Decided C runner frame control)
      (active : runner.active = some run) (inactive : runner'.active = none)
      (intent : event.intentId = run.intent.intentId) (operations : runner'.operations = runner.operations)
      (terminal : runner'.terminalEvents = runner.terminalEvents.upsert event) :
      Change C runner runner' (calls ++ [.releaseAll])

variable {C : MotorController κ} {S : MotorSeat σ} {runner runner' : ContinuousMotorRunner κ σ}

/-- The runner stopped the run, and recorded how. -/
structure Stops (runner runner' : ContinuousMotorRunner κ σ) (run : ActiveRun) (event : MotorEvent) : Prop where
  inactive : runner'.active = none
  intent : event.intentId = run.intent.intentId
  operations : runner'.operations = runner.operations
  terminal : runner'.terminalEvents = runner.terminalEvents.upsert event
  config : runner'.config = runner.config

theorem stop_spec {run : ActiveRun} (hactive : runner.active = some run) (reason : MotorStopReason) (nowUs : ℕ) :
    (runner.stop C S reason nowUs).calls = [.releaseAll] ∧
      ∃ event, Stops runner (runner.stop C S reason nowUs).runner run event := by
  unfold ContinuousMotorRunner.stop
  rw [hactive]
  dsimp only
  split_ifs
  · exact ⟨rfl, _, rfl, rfl, rfl, rfl, rfl⟩
  · exact ⟨rfl, _, rfl, rfl, rfl, rfl, rfl⟩

theorem stopStep_spec {run : ActiveRun} (hactive : runner.active = some run) (reason : MotorStopReason) (nowUs : ℕ)
    (calls : List SeatCall) :
    (runner.stopStep C S reason nowUs calls).calls = calls ++ [.releaseAll] ∧
      ∃ event, Stops runner (runner.stopStep C S reason nowUs calls).runner run event := by
  obtain ⟨hcalls, hstops⟩ := stop_spec (C := C) (S := S) hactive reason nowUs
  exact ⟨congrArg (calls ++ ·) hcalls, hstops⟩

theorem applied_change {run run₁ : ActiveRun} {frame : MotorFrame} {decision : MotorDecision} {nowUs : ℕ}
    {runner₁ : ContinuousMotorRunner κ σ} (hdecided : Decided C runner frame decision.control)
    (hactive : runner.active = some run) (hactive₁ : runner₁.active = some run₁) (hintent : run₁.intent = run.intent)
    (hoperations : runner₁.operations = runner.operations) (hterminal : runner₁.terminalEvents = runner.terminalEvents)
    (hconfig : runner₁.config = runner.config) :
    Change C runner (runner₁.applied C S run₁ frame decision nowUs).runner
        (runner₁.applied C S run₁ frame decision nowUs).calls ∧
      (runner₁.applied C S run₁ frame decision nowUs).runner.config = runner.config := by
  have hstopped : ∀ (runner₂ : ContinuousMotorRunner κ σ) (run₂ : ActiveRun) (reason : MotorStopReason) (nowUs : ℕ),
      runner₂.active = some run₂ → run₂.intent = run.intent → runner₂.operations = runner.operations →
      runner₂.terminalEvents = runner.terminalEvents → runner₂.config = runner.config →
      Change C runner (runner₂.stopStep C S reason nowUs [.apply frame decision.control]).runner
          (runner₂.stopStep C S reason nowUs [.apply frame decision.control]).calls ∧
        (runner₂.stopStep C S reason nowUs [.apply frame decision.control]).runner.config = runner.config := by
    intro runner₂ run₂ reason nowUs hactive₂ hintent₂ hoperations₂ hterminal₂ hconfig₂
    obtain ⟨hcalls, event, h⟩ := stopStep_spec (C := C) (S := S) hactive₂ reason nowUs [.apply frame decision.control]
    rw [hcalls]
    exact ⟨.stopped (.inr ⟨frame, decision.control, rfl, hdecided⟩) hactive h.inactive
      (h.intent.trans (congrArg MotorIntent.intentId hintent₂)) (h.operations.trans hoperations₂)
      (h.terminal.trans (by rw [hterminal₂])), h.config.trans hconfig₂⟩
  unfold ContinuousMotorRunner.applied
  dsimp only
  cases hdispatch : (S.apply runner₁.seat decision.control).1 with
  | error error => exact hstopped _ run₁ _ _ hactive₁ hintent hoperations hterminal hconfig
  | ok dispatchUs =>
    dsimp only
    cases hterminalReason : terminalReason decision.kind with
    | some reason => exact hstopped _ _ _ _ rfl hintent hoperations hterminal hconfig
    | none =>
      dsimp only
      split_ifs
      · exact ⟨.acted hdecided hactive rfl hintent rfl hoperations hterminal, hconfig⟩
      · exact ⟨.acted hdecided hactive rfl hintent rfl hoperations hterminal, hconfig⟩

theorem sameRun_refl : (active : Option ActiveRun) → Option.Rel SameRun active active
  | none => .none
  | some _ => .some ⟨rfl, rfl⟩

theorem quiet_refl (C : MotorController κ) (runner : ContinuousMotorRunner κ σ) : Change C runner runner [] :=
  .quiet (sameRun_refl _) rfl rfl

theorem step_change (runner : ContinuousMotorRunner κ σ) (nowUs : ℕ) :
    Change C runner (runner.step C S nowUs).runner (runner.step C S nowUs).calls ∧
      (runner.step C S nowUs).runner.config = runner.config := by
  unfold ContinuousMotorRunner.step
  cases hactive : runner.active with
  | none => exact ⟨quiet_refl C runner, rfl⟩
  | some run =>
    have hstopped : ∀ (runner₁ : ContinuousMotorRunner κ σ) (run₁ : ActiveRun) (reason : MotorStopReason),
        runner₁.active = some run₁ → run₁.intent = run.intent → runner₁.operations = runner.operations →
        runner₁.terminalEvents = runner.terminalEvents → runner₁.config = runner.config →
        Change C runner (runner₁.stopStep C S reason nowUs []).runner (runner₁.stopStep C S reason nowUs []).calls ∧
          (runner₁.stopStep C S reason nowUs []).runner.config = runner.config := by
      intro runner₁ run₁ reason hactive₁ hintent hoperations hterminal hconfig
      obtain ⟨hcalls, event, h⟩ := stopStep_spec (C := C) (S := S) hactive₁ reason nowUs []
      rw [hcalls]
      exact ⟨.stopped (.inl rfl) hactive h.inactive (h.intent.trans (congrArg MotorIntent.intentId hintent))
        (h.operations.trans hoperations) (h.terminal.trans (by rw [hterminal])), h.config.trans hconfig⟩
    dsimp only
    cases hexpiry : expiry runner.config run nowUs with
    | some reason => exact hstopped runner run reason hactive rfl rfl rfl rfl
    | none =>
      dsimp only
      cases hframe : run.pendingFrame with
      | none => exact ⟨quiet_refl C runner, rfl⟩
      | some frame =>
        dsimp only
        cases hinfer : (C.infer runner.controller run.intent frame (nowUs - run.startedAtUs)).1 with
        | error error => exact hstopped _ _ _ rfl rfl rfl rfl rfl
        | ok decision =>
          dsimp only
          cases hvalid : decision.validate runner.config.allowedKeys with
          | error error => exact hstopped _ _ _ rfl rfl rfl rfl rfl
          | ok _ =>
            dsimp only
            split_ifs with hstale
            · refine ⟨.quiet ?_ rfl rfl, rfl⟩
              rw [hactive]
              exact .some ⟨rfl, rfl⟩
            · rw [not_or, not_not, not_le] at hstale
              exact applied_change ⟨run, _, decision, hactive, hframe, hinfer, hstale.1, hstale.2, rfl, hvalid⟩
                hactive rfl rfl rfl rfl rfl

theorem startNew_change {intent : MotorIntent} (hvalid : intent.validate = .ok ())
    (hfresh : runner.operations.find? intent.intentId = none ∨
      runner.operations.find? intent.intentId = some intent ∧ runner.terminalEvents.find? intent.intentId = none)
    (authority : MotorLeaseAuthority) (nowUs : ℕ) :
    Change C runner (runner.startNew C intent authority nowUs).runner
        (runner.startNew C intent authority nowUs).calls ∧
      (runner.startNew C intent authority nowUs).runner.config = runner.config := by
  unfold ContinuousMotorRunner.startNew
  cases authority.validateFor intent nowUs with
  | error error => exact ⟨quiet_refl C runner, rfl⟩
  | ok _ =>
    dsimp only
    split_ifs with hactive
    · exact ⟨quiet_refl C runner, rfl⟩
    · rw [Option.not_isSome_iff_eq_none] at hactive
      exact ⟨.started hvalid hactive hfresh rfl rfl rfl, rfl⟩

theorem start_change (runner : ContinuousMotorRunner κ σ) (intent : MotorIntent) (authority : MotorLeaseAuthority)
    (nowUs : ℕ) :
    Change C runner (runner.start C intent authority nowUs).runner (runner.start C intent authority nowUs).calls ∧
      (runner.start C intent authority nowUs).runner.config = runner.config := by
  unfold ContinuousMotorRunner.start
  cases hvalid : intent.validate with
  | error error => exact ⟨quiet_refl C runner, rfl⟩
  | ok _ =>
    dsimp only
    cases hfind : runner.operations.find? intent.intentId with
    | none => exact startNew_change hvalid (.inl hfind) authority nowUs
    | some existing =>
      dsimp only
      by_cases hsame : existing = intent
      · rw [if_neg (not_not.2 hsame)]
        cases hterminal : runner.terminalEvents.find? intent.intentId with
        | some event => exact ⟨quiet_refl C runner, rfl⟩
        | none =>
          dsimp only
          split_ifs
          · exact ⟨.quiet (sameRun_refl _) rfl rfl, rfl⟩
          · exact startNew_change hvalid (.inr ⟨hsame ▸ hfind, hterminal⟩) authority nowUs
      · rw [if_pos hsame]
        exact ⟨quiet_refl C runner, rfl⟩

theorem submitFrame_change (C : MotorController κ) (runner : ContinuousMotorRunner κ σ) (frame : MotorFrame) :
    Change C runner (runner.submitFrame frame).runner (runner.submitFrame frame).calls ∧
      (runner.submitFrame frame).runner.config = runner.config := by
  unfold ContinuousMotorRunner.submitFrame
  cases frame.validate with
  | error error => exact ⟨quiet_refl C runner, rfl⟩
  | ok _ =>
    dsimp only
    cases hactive : runner.active with
    | none => exact ⟨quiet_refl C runner, rfl⟩
    | some run =>
      have hquiet : ∀ run', SameRun run run' → Change C runner { runner with active := some run' } [] :=
        fun run' hsame => .quiet (hactive ▸ .some hsame) rfl rfl
      dsimp only
      split_ifs
      · exact ⟨quiet_refl C runner, rfl⟩
      all_goals exact ⟨hquiet _ ⟨rfl, rfl⟩, rfl⟩

theorem stop_change (C : MotorController κ) (S : MotorSeat σ) (runner : ContinuousMotorRunner κ σ)
    (reason : MotorStopReason) (nowUs : ℕ) :
    Change C runner (runner.stop C S reason nowUs).runner (runner.stop C S reason nowUs).calls ∧
      (runner.stop C S reason nowUs).runner.config = runner.config := by
  cases hactive : runner.active with
  | none =>
    unfold ContinuousMotorRunner.stop
    rw [hactive]
    exact ⟨quiet_refl C runner, rfl⟩
  | some run =>
    obtain ⟨hcalls, event, h⟩ := stop_spec (C := C) (S := S) hactive reason nowUs
    rw [hcalls]
    exact ⟨.stopped (.inl rfl) hactive h.inactive h.intent h.operations h.terminal, h.config⟩

theorem perform_change (C : MotorController κ) (S : MotorSeat σ) (runner : ContinuousMotorRunner κ σ)
    (op : MotorOp) :
    Change C runner (runner.perform C S op).runner (runner.perform C S op).calls ∧
      (runner.perform C S op).runner.config = runner.config := by
  cases op with
  | start intent authority nowUs => exact start_change runner intent authority nowUs
  | submitFrame frame => exact submitFrame_change C runner frame
  | step nowUs => exact step_change runner nowUs
  | stop reason nowUs => exact stop_change C S runner reason nowUs
  | interrupt reason nowUs =>
    show Change C runner (runner.interrupt C S reason nowUs).runner (runner.interrupt C S reason nowUs).calls ∧
      (runner.interrupt C S reason nowUs).runner.config = runner.config
    unfold ContinuousMotorRunner.interrupt
    split_ifs
    · exact stop_change C S runner reason nowUs
    · exact ⟨quiet_refl C runner, rfl⟩

/-! ## Runs -/

theorem same_of_rel {active active' : Option ActiveRun} (h : Option.Rel SameRun active active') :
    (active'.map fun run => run.intent.intentId) = (active.map fun run => run.intent.intentId) ∧
      phaseOf active' = phaseOf active := by
  cases h with
  | none => exact ⟨rfl, rfl⟩
  | some hsame => simp only [Option.map_some, phaseOf, hsame.1, hsame.2, and_self]

theorem Change.moves {op : MotorOp} {answer : Except String MotorAnswer} {calls : List SeatCall}
    (h : Change C runner runner' calls) :
    Run (Moves runner.config.allowedKeys) (phaseOf runner.active)
      (⟨op, answer, calls, runner.activeId, runner'.activeId⟩ : MotorLabel).facts (phaseOf runner'.active) := by
  unfold MotorLabel.facts ContinuousMotorRunner.activeId
  cases h with
  | quiet active =>
    obtain ⟨hid, hphase⟩ := same_of_rel active
    rw [hid, hphase]
    simp only [if_true, List.map_nil, List.append_nil]
    exact .nil _
  | started _ inactive _ active =>
    rw [inactive, active]
    simp only [Option.map_none, Option.map_some, reduceCtorEq, if_false, Option.toList_some, List.map_cons,
      List.map_nil, List.append_nil, Option.toList_none, phaseOf]
    exact .single (.start _)
  | acted decided active active' intent processed =>
    obtain ⟨run, _, decision, hactive, -, -, -, hlater, rfl, hvalid⟩ := decided
    obtain rfl := Option.some.inj (active.symm.trans hactive)
    rw [active, active']
    simp only [Option.map_some, intent, if_true, List.nil_append, List.map_cons, List.map_nil, List.append_nil,
      phaseOf, processed]
    exact .single (.apply hlater (MotorDecision.allowed_of_validate hvalid))
  | @stopped run event calls decided active inactive =>
    rw [inactive, active]
    simp only [Option.map_none, Option.map_some, reduceCtorEq, if_false, Option.toList_none, List.map_nil,
      List.nil_append, Option.toList_some, List.map_append, List.map_cons, List.append_assoc, List.singleton_append]
    rcases decided with rfl | ⟨frame, control, rfl, run', _, decision, hactive, -, -, -, hlater, rfl, hvalid⟩
    · exact .cons (.release _ _) (.single (.finish _))
    · obtain rfl := Option.some.inj (active.symm.trans hactive)
      exact .cons (.apply hlater (MotorDecision.allowed_of_validate hvalid))
        (.cons (.release _ _) (.single (.finish _)))

theorem step_iff {label : MotorLabel} :
    Step C S runner label runner' ↔ ∃ op, label = ⟨op, (runner.perform C S op).answer, (runner.perform C S op).calls,
      runner.activeId, runner'.activeId⟩ ∧ runner' = (runner.perform C S op).runner := by
  constructor
  · intro h
    cases h with
    | mk op => exact ⟨op, rfl, rfl⟩
  · rintro ⟨op, rfl, rfl⟩
    exact .mk runner op

theorem run_moves {labels : List MotorLabel} (h : Run (Step C S) runner labels runner') :
    Run (Moves runner.config.allowedKeys) (phaseOf runner.active) (labels.flatMap MotorLabel.facts)
        (phaseOf runner'.active) ∧ runner'.config = runner.config := by
  induction h with
  | nil runner => exact ⟨.nil _, rfl⟩
  | cons hstep _ ih =>
    obtain ⟨op, rfl, rfl⟩ := step_iff.1 hstep
    obtain ⟨hchange, hconfig⟩ := perform_change C S _ op
    rw [hconfig] at ih
    exact ⟨hchange.moves.append ih.1, ih.2⟩

/-- Each operation is valid, and is the active run's or a recorded event's. -/
structure Booked (runner : ContinuousMotorRunner κ σ) : Prop where
  valid : ∀ intent ∈ runner.operations, intent.validate = .ok ()
  active : ∀ run, runner.active = some run → run.intent ∈ runner.operations ∧
    runner.terminalEvents.find? run.intent.intentId = none
  terminal : ∀ event ∈ runner.terminalEvents, (runner.operations.find? event.intentId).isSome
  booked : ∀ intent ∈ runner.operations, runner.activeId = some intent.intentId ∨
    (runner.terminalEvents.find? intent.intentId).isSome

theorem Booked.quiet (h : Booked runner) (hid : runner'.activeId = runner.activeId)
    (hactive : ∀ run', runner'.active = some run' → ∃ run, runner.active = some run ∧ run.intent = run'.intent)
    (hoperations : runner'.operations = runner.operations) (hterminal : runner'.terminalEvents = runner.terminalEvents) :
    Booked runner' where
  valid := hoperations ▸ h.valid
  active := by
    intro run' hrun'
    obtain ⟨run, hrun, hintent⟩ := hactive run' hrun'
    rw [hoperations, hterminal, ← hintent]
    exact h.active run hrun
  terminal := by
    rw [hoperations, hterminal]
    exact h.terminal
  booked := by
    rw [hoperations, hterminal, hid]
    exact h.booked

theorem Change.booked {calls : List SeatCall} (h : Change C runner runner' calls) (hbooked : Booked runner) :
    Booked runner' := by
  cases h with
  | quiet active operations terminal =>
    refine hbooked.quiet (same_of_rel active).1 (fun run' hrun' => ?_) operations terminal
    rw [hrun'] at active
    cases hrun : runner.active with
    | none => rw [hrun] at active; cases active
    | some run =>
      rw [hrun] at active
      cases active with
      | some hsame => exact ⟨run, rfl, hsame.1.symm⟩
  | acted _ active active' intent _ operations terminal =>
    refine hbooked.quiet ?_ (fun run' hrun' => ?_) operations terminal
    · unfold ContinuousMotorRunner.activeId
      rw [active, active', Option.map_some, Option.map_some, intent]
    · obtain rfl := Option.some.inj (active'.symm.trans hrun')
      exact ⟨_, active, intent.symm⟩
  | @started intent authority nowUs valid inactive fresh active operations terminal =>
    have hnone : runner.terminalEvents.find? intent.intentId = none := by
      rcases fresh with hfind | ⟨-, hnone⟩
      · refine Table.find?_eq_none_iff.2 fun event hevent hid => ?_
        have hthere := hbooked.terminal event hevent
        rw [hid, hfind] at hthere
        cases hthere
      · exact hnone
    have hid : runner'.activeId = some intent.intentId := by
      unfold ContinuousMotorRunner.activeId
      rw [active]
      rfl
    refine ⟨fun other hother => ?_, fun run hrun => ?_, fun event hevent => ?_, fun other hother => ?_⟩
    · rw [operations] at hother
      rcases Table.mem_upsert.1 hother with rfl | ⟨hother, -⟩
      · exact valid
      · exact hbooked.valid other hother
    · obtain rfl := Option.some.inj (active.symm.trans hrun)
      rw [operations, terminal]
      exact ⟨Table.mem_upsert.2 (.inl rfl), hnone⟩
    · rw [terminal] at hevent
      rw [operations, Table.find?_upsert]
      split_ifs
      · rfl
      · exact hbooked.terminal event hevent
    · rw [operations] at hother
      rw [hid, terminal]
      rcases Table.mem_upsert.1 hother with rfl | ⟨hother, hne⟩
      · exact .inl rfl
      · refine .inr ((hbooked.booked other hother).resolve_left fun hactive => ?_)
        unfold ContinuousMotorRunner.activeId at hactive
        rw [inactive] at hactive
        cases hactive
  | @stopped run event calls decided active inactive intent operations terminal =>
    refine ⟨operations ▸ hbooked.valid, fun run' hrun' => ?_, fun other hother => ?_, fun other hother => ?_⟩
    · rw [inactive] at hrun'
      cases hrun'
    · rw [operations]
      rw [terminal] at hother
      rcases Table.mem_upsert.1 hother with rfl | ⟨hother, -⟩
      · rw [intent, Table.find?_of_mem (hbooked.active run active).1]
        rfl
      · exact hbooked.terminal other hother
    · rw [operations] at hother
      rw [terminal, Table.find?_upsert]
      refine .inr ?_
      split_ifs with hself
      · rfl
      · refine (hbooked.booked other hother).resolve_left fun hactive => hself ?_
        unfold ContinuousMotorRunner.activeId at hactive
        rw [active] at hactive
        rw [intent]
        exact (Option.some.inj hactive).symm

theorem Change.terminal_kept {calls : List SeatCall} (h : Change C runner runner' calls) (hbooked : Booked runner)
    {intentId : String} {event : MotorEvent} (hevent : runner.terminalEvents.find? intentId = some event) :
    runner'.terminalEvents.find? intentId = some event := by
  cases h with
  | quiet _ _ terminal | acted _ _ _ _ _ _ terminal | started _ _ _ _ _ terminal => rwa [terminal]
  | @stopped run stop calls decided active inactive intent operations terminal =>
    rw [terminal, Table.find?_upsert, if_neg, hevent]
    rintro rfl
    rw [intent, (hbooked.active run active).2] at hevent
    cases hevent

theorem Change.operation_kept {calls : List SeatCall} (h : Change C runner runner' calls) {intent : MotorIntent}
    (hintent : runner.operations.find? intent.intentId = some intent) :
    runner'.operations.find? intent.intentId = some intent := by
  cases h with
  | quiet _ operations _ | acted _ _ _ _ _ operations _ | stopped _ _ _ _ operations _ => rwa [operations]
  | @started other authority nowUs valid inactive fresh active operations terminal =>
    rw [operations, Table.find?_upsert]
    split_ifs with hself
    · rw [← hself, hintent] at fresh
      rcases fresh with hnone | ⟨hsame, -⟩
      · cases hnone
      · exact hsame.symm
    · exact hintent

theorem start_replays {intent : MotorIntent} {event : MotorEvent} (hvalid : intent.validate = .ok ())
    (hintent : runner.operations.find? intent.intentId = some intent)
    (hevent : runner.terminalEvents.find? intent.intentId = some event) (authority : MotorLeaseAuthority)
    (nowUs : ℕ) : runner.start C intent authority nowUs = ⟨.ok { event with replayed := true }, runner, []⟩ := by
  unfold ContinuousMotorRunner.start
  rw [hvalid, hintent]
  dsimp only
  rw [if_neg (not_not.2 rfl), hevent]

theorem booked_of_run {labels : List MotorLabel} (h : Run (Step C S) runner labels runner')
    (hbooked : Booked runner) : Booked runner' := by
  refine h.invariant (fun _ _ _ hbooked hstep => ?_) hbooked
  obtain ⟨op, -, rfl⟩ := step_iff.1 hstep
  exact (perform_change C S _ op).1.booked hbooked

theorem recorded_of_run {labels : List MotorLabel} (h : Run (Step C S) runner labels runner')
    (hbooked : Booked runner) {intent : MotorIntent} (hintent : runner.operations.find? intent.intentId = some intent)
    {event : MotorEvent} (hevent : runner.terminalEvents.find? intent.intentId = some event) :
    runner'.operations.find? intent.intentId = some intent ∧
      runner'.terminalEvents.find? intent.intentId = some event := by
  induction h with
  | nil _ => exact ⟨hintent, hevent⟩
  | @cons runner _ _ _ _ hstep _ ih =>
    obtain ⟨op, -, rfl⟩ := step_iff.1 hstep
    have hchange := (perform_change C S runner op).1
    exact ih (hchange.booked hbooked) (hchange.operation_kept hintent) (hchange.terminal_kept hbooked hevent)

theorem new_spec {controller : κ} {seat : σ} {config : MotorRunnerConfig}
    (h : ContinuousMotorRunner.new C controller seat config = .ok runner) :
    runner.active = none ∧ runner.config = config ∧ Booked runner := by
  obtain ⟨-, h⟩ := bind_unit_ok_iff.1 h
  obtain ⟨-, h⟩ := ite_error_ok_iff.1 h
  cases h
  exact ⟨rfl, rfl, fun intent h => absurd h (Table.not_mem_empty intent), fun run h => (nomatch h),
    fun event h => absurd h (Table.not_mem_empty event), fun intent h => absurd h (Table.not_mem_empty intent)⟩

/-- Controls are applied only while a run is active, to increasing frames and as they were decided on for the pending
one, and a run ends after all input was released. An operation id names one run or event, which later starts replay. -/
theorem motor_runs_safe (C : MotorController κ) (S : MotorSeat σ) {controller : κ} {seat : σ}
    {config : MotorRunnerConfig} {first runner : ContinuousMotorRunner κ σ}
    (hnew : ContinuousMotorRunner.new C controller seat config = .ok first) {labels : List MotorLabel}
    (hrun : Run (Step C S) first labels runner) :
    Run (Moves config.allowedKeys) .idle (labels.flatMap MotorLabel.facts) (phaseOf runner.active) ∧
    (∀ label runner', Step C S runner label runner' → ∀ frame control, .apply frame control ∈ label.calls →
      Decided C runner frame control) ∧
    (∀ intent ∈ runner.operations,
      (runner.activeId = some intent.intentId ↔ runner.terminalEvents.find? intent.intentId = none)) ∧
    (∀ intentId, runner.activeId = some intentId ∨ (runner.terminalEvents.find? intentId).isSome →
      (runner.operations.find? intentId).isSome) ∧
    ∀ intent ∈ runner.operations, ∀ event, runner.terminalEvents.find? intent.intentId = some event →
      ∀ labels' runner', Run (Step C S) runner labels' runner' → ∀ authority nowUs,
        runner'.start C intent authority nowUs = ⟨.ok { event with replayed := true }, runner', []⟩ := by
  obtain ⟨hidle, hconfig, hbooked⟩ := new_spec hnew
  have hbooked' := booked_of_run hrun hbooked
  refine ⟨?_, fun label runner' hstep frame control hcall => ?_, fun intent hintent => ⟨fun hactive => ?_, fun hnone => ?_⟩,
    fun intentId hknown => ?_, fun intent hintent event hevent labels' runner' hrun' authority nowUs => ?_⟩
  · have hmoves := (run_moves hrun).1
    rwa [hidle, hconfig] at hmoves
  · obtain ⟨op, rfl, rfl⟩ := step_iff.1 hstep
    have hchange := (perform_change C S runner op).1
    dsimp only at hcall
    generalize (runner.perform C S op).calls = calls at hchange hcall
    cases hchange with
    | quiet | started => cases hcall
    | acted decided =>
      cases List.mem_singleton.1 hcall
      exact decided
    | stopped decided =>
      rcases decided with rfl | ⟨frame', control', rfl, decided⟩
      · simp at hcall
      · simp only [List.cons_append, List.nil_append, List.mem_cons, SeatCall.apply.injEq, reduceCtorEq,
          List.not_mem_nil, or_false] at hcall
        obtain ⟨rfl, rfl⟩ := hcall
        exact decided
  · obtain ⟨run, hrun, hid⟩ := Option.map_eq_some_iff.1 hactive
    rw [← hid]
    exact (hbooked'.active run hrun).2
  · refine (hbooked'.booked intent hintent).resolve_right fun hsome => ?_
    rw [hnone] at hsome
    cases hsome
  · rcases hknown with hactive | hterminal
    · obtain ⟨run, hrun, rfl⟩ := Option.map_eq_some_iff.1 hactive
      rw [Table.find?_of_mem (hbooked'.active run hrun).1]
      rfl
    · obtain ⟨event, hevent⟩ := Option.isSome_iff_exists.1 hterminal
      rw [← Table.key_of_find? hevent]
      exact hbooked'.terminal event (Table.mem_of_find? hevent)
  · obtain ⟨hoperation, hterminal⟩ := recorded_of_run hrun' hbooked' (Table.find?_of_mem hintent) hevent
    exact start_replays (hbooked'.valid intent hintent) hoperation hterminal authority nowUs

section Example

/-- A controller that presses a key on every frame and is done with the second one. -/
def forward : MotorController Unit where
  policyId := fun _ => "forward"
  tier := fun _ => .reactiveCpu
  infer := fun _ _ frame _ => (.ok {
    frameSequence := frame.sequence
    inferenceUs := 20000
    confidencePerMille := 900
    kind := if frame.sequence < 2 then .proceed else .goalReached
    control := ⟨["KeyW"], none⟩
    evidence := [] }, ())

/-- A seat that does what it is told. -/
def obedient : MotorSeat Unit where
  apply := fun _ _ => (.ok 1000, ())
  releaseAll := fun _ => (.ok 500, ())

def exampleIntent : MotorIntent where
  schemaVersion := motorIntentSchema
  intentId := "intent-1"
  stateVersion := "sha256:initial"
  targetRef := "surface:canvas"
  goal := ⟨.navigate, "reach the exit"⟩
  horizonMs := 1500
  termination := [.goalReached]
  interruptOn := [.humanTakeover, .policyBoundary, .surfaceLost]

def exampleAuthority : MotorLeaseAuthority := ⟨"environment-1", "lease-1", "project-1", "surface:canvas", 10000000⟩

def exampleFrame (sequence : ℕ) : MotorFrame where
  sequence := sequence
  stateVersion := "sha256:frame"
  targetRef := "surface:canvas"
  contentDigest := "sha256:pixels"
  width := 192
  height := 192
  captureStartedAtUs := 105000
  capturedAtUs := 110000

def exampleConfig : MotorRunnerConfig := ⟨250000, 10, {"KeyW"}⟩

/-- The runner after operations, one after the other. -/
def ContinuousMotorRunner.performAll (C : MotorController κ) (S : MotorSeat σ) :
    List MotorOp → ContinuousMotorRunner κ σ → ContinuousMotorRunner κ σ
  | [], runner => runner
  | op :: ops, runner => performAll C S ops (runner.perform C S op).runner

theorem run_performAll (C : MotorController κ) (S : MotorSeat σ) (ops : List MotorOp)
    (runner : ContinuousMotorRunner κ σ) : ∃ labels, Run (Step C S) runner labels (runner.performAll C S ops) := by
  induction ops generalizing runner with
  | nil => exact ⟨[], .nil _⟩
  | cons op ops ih =>
    obtain ⟨labels, hrun⟩ := ih (runner.perform C S op).runner
    exact ⟨_, .cons (.mk runner op) hrun⟩

/-- Two frames are acted on, and the goal is reached. -/
def drives : List MotorOp :=
  [.start exampleIntent exampleAuthority 100000, .submitFrame (exampleFrame 1), .step 115000,
    .submitFrame (exampleFrame 2), .step 140000]

def exampleRunner : ContinuousMotorRunner Unit Unit := ⟨(), (), exampleConfig, none, ∅, ∅, 1⟩

theorem motor_runs_safe_drives :
    ∃ event, (exampleRunner.performAll forward obedient drives).terminalEvents.find? "intent-1" = some event ∧
      (exampleRunner.performAll forward obedient drives).start forward exampleIntent exampleAuthority 200000 =
        ⟨.ok { event with replayed := true }, exampleRunner.performAll forward obedient drives, []⟩ := by
  obtain ⟨labels, hrun⟩ := run_performAll forward obedient drives exampleRunner
  have hthere : ∃ event, (exampleRunner.performAll forward obedient drives).terminalEvents.find? "intent-1" =
      some event := Option.isSome_iff_exists.1 (by decide +kernel)
  have hintent : exampleIntent ∈ (exampleRunner.performAll forward obedient drives).operations.rows := by
    decide +kernel
  obtain ⟨event, hevent⟩ := hthere
  have hnew : ContinuousMotorRunner.new forward () () exampleConfig = .ok exampleRunner := rfl
  exact ⟨event, hevent, (motor_runs_safe forward obedient hnew hrun).2.2.2.2 exampleIntent hintent event hevent []
    _ (.nil _) exampleAuthority 200000⟩

end Example

end Wiii.Neko.Computer.Motor
