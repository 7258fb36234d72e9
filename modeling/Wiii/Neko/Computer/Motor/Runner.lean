import Mathlib.Data.Finset.Card
import Wiii.Lib.Run
import Wiii.Lib.Table
import Wiii.Neko.Computer.Motor.Model

/-!
# The continuous motor runner

The runner with its controller and its seat, which may do anything: each is a state and functions of it.  An
operation answers, leaves a runner and makes calls to the seat, which are listed in order, each control with the
frame it was decided on.
-/

namespace Wiii.Neko.Computer.Motor

/-- `u64::saturating_add`. -/
def saturatingAdd (a b : ℕ) : ℕ := min (a + b) (2 ^ 64 - 1)

structure MotorController (κ : Type) where
  policyId : κ → String
  tier : κ → MotorCapabilityTier
  infer : κ → MotorIntent → MotorFrame → ℕ → Except String MotorDecision × κ

structure MotorSeat (σ : Type) where
  apply : σ → MotorControlState → Except String ℕ × σ
  releaseAll : σ → Except String ℕ × σ

structure MotorRunnerConfig where
  watchdogUs : ℕ
  progressEveryFrames : ℕ
  allowedKeys : Finset String

def MotorRunnerConfig.validate (config : MotorRunnerConfig) : Except String Unit :=
  if config.watchdogUs < 10000 ∨ 5000000 < config.watchdogUs then
    .error "Motor watchdog must be between 10ms and 5s"
  else if config.progressEveryFrames < 1 ∨ 10000 < config.progressEveryFrames then
    .error "Motor progress cadence is outside the supported range"
  else if config.allowedKeys = ∅ ∨ 64 < config.allowedKeys.card then
    .error "Motor key allowlist must contain 1..=64 entries"
  else .ok ()

structure ActiveRun where
  intent : MotorIntent
  authority : MotorLeaseAuthority
  startedAtUs : ℕ
  lastActivityAtUs : ℕ
  pendingFrame : Option MotorFrame
  lastSubmittedSequence : ℕ
  lastProcessedSequence : ℕ
  processedFrames : ℕ
  droppedFrames : ℕ
  staleActions : ℕ
  heldInput : Bool
  cleanupConfirmed : Bool
  firstActionAtUs : Option ℕ
  lastActionAtUs : Option ℕ
  samples : List MotorLatencySample

structure ContinuousMotorRunner (κ σ : Type) where
  controller : κ
  seat : σ
  config : MotorRunnerConfig
  active : Option ActiveRun
  operations : Table MotorIntent.intentId
  terminalEvents : Table MotorEvent.intentId
  nextEventSequence : ℕ

inductive SeatCall where
  | apply (frame : MotorFrame) (control : MotorControlState)
  | releaseAll

/-- What an operation answers, the runner it leaves and the calls to the seat. -/
structure Outcome (κ σ α : Type) where
  answer : Except String α
  runner : ContinuousMotorRunner κ σ
  calls : List SeatCall

/-! ## Reports -/

def percentile (values : List ℕ) (percent : ℕ) : ℕ :=
  values.getD (min ((percent * values.length + 99) / 100 - 1) (values.length - 1)) 0

def percentiles (values : List ℕ) : MotorPercentiles :=
  let values := values.mergeSort
  { p50Us := percentile values 50, p95Us := percentile values 95, p99Us := percentile values 99 }

def latencyReport (samples : List MotorLatencySample) : MotorLatencyReport where
  capture := percentiles (samples.map MotorLatencySample.captureUs)
  inference := percentiles (samples.map MotorLatencySample.inferenceUs)
  dispatch := percentiles (samples.map MotorLatencySample.dispatchUs)
  endToEnd := percentiles (samples.map MotorLatencySample.endToEndUs)

def achievedHz (run : ActiveRun) : ℚ :=
  match run.firstActionAtUs, run.lastActionAtUs with
  | some first, some last =>
    if 1 < run.processedFrames ∧ first < last then
      ((run.processedFrames - 1 : ℕ) : ℚ) * 1000000 / ((last - first : ℕ) : ℚ)
    else if run.startedAtUs < last then 1000000 / ((last - run.startedAtUs : ℕ) : ℚ)
    else 0
  | _, _ => 0

def buildReport (run : ActiveRun) (policyId : String) (tier : MotorCapabilityTier)
    (stopReason : Option MotorStopReason) : MotorRunReport where
  intentId := run.intent.intentId
  policyId := policyId
  tier := tier
  processedFrames := run.processedFrames
  droppedFrames := run.droppedFrames
  staleActions := run.staleActions
  achievedHz := achievedHz run
  heldInputCleanupConfirmed := run.cleanupConfirmed
  latency := latencyReport run.samples
  stopReason := stopReason

/-! ## Operations -/

def stopKind : MotorStopReason → MotorEventKind
  | .goalReached => .terminated
  | .blocked => .blocked
  | .uncertain => .uncertain
  | _ => .interrupted

/-- The reasons that an interruption from outside may have. -/
def actionable : List MotorStopReason :=
  [.cancelled, .humanTakeover, .policyBoundary, .surfaceLost, .leaseLost, .projectRevoked]

def holdsInput (control : MotorControlState) : Bool :=
  !control.heldKeys.isEmpty || control.pointer.any fun pointer => !pointer.heldButtons.isEmpty

def terminalReason : MotorDecisionKind → Option MotorStopReason
  | .proceed => none
  | .goalReached => some .goalReached
  | .blocked => some .blocked
  | .uncertain => some .uncertain

/-- Why a step ends the run before it looks at a frame. -/
def expiry (config : MotorRunnerConfig) (run : ActiveRun) (nowUs : ℕ) : Option MotorStopReason :=
  if run.authority.expiresAtUs ≤ nowUs then some .leaseLost
  else if run.intent.horizonMs * 1000 ≤ nowUs - run.startedAtUs then some .horizonExpired
  else if run.pendingFrame.isNone ∧ config.watchdogUs ≤ nowUs - run.lastActivityAtUs then some .watchdogExpired
  else none

def ActiveRun.start (intent : MotorIntent) (authority : MotorLeaseAuthority) (nowUs : ℕ) : ActiveRun where
  intent := intent
  authority := authority
  startedAtUs := nowUs
  lastActivityAtUs := nowUs
  pendingFrame := none
  lastSubmittedSequence := 0
  lastProcessedSequence := 0
  processedFrames := 0
  droppedFrames := 0
  staleActions := 0
  heldInput := false
  cleanupConfirmed := false
  firstActionAtUs := none
  lastActionAtUs := none
  samples := []

def ActiveRun.acted (run : ActiveRun) (frame : MotorFrame) (decision : MotorDecision)
    (dispatchUs completedAtUs nowUs : ℕ) : ActiveRun :=
  { run with
    lastProcessedSequence := frame.sequence
    processedFrames := saturatingAdd run.processedFrames 1
    lastActivityAtUs := completedAtUs
    heldInput := holdsInput decision.control
    firstActionAtUs := some (run.firstActionAtUs.getD completedAtUs)
    lastActionAtUs := some completedAtUs
    samples := run.samples ++ [{
      captureUs := frame.capturedAtUs - frame.captureStartedAtUs
      inferenceUs := decision.inferenceUs
      dispatchUs := dispatchUs
      endToEndUs := completedAtUs - frame.captureStartedAtUs
      intentAgeUs := nowUs - run.startedAtUs }] }

def ActiveRun.stale (run : ActiveRun) : ActiveRun := { run with staleActions := saturatingAdd run.staleActions 1 }

namespace ContinuousMotorRunner

variable {κ σ : Type} (C : MotorController κ) (S : MotorSeat σ)

/-- A new runner, if the configuration and the name of the policy are valid. -/
def new (controller : κ) (seat : σ) (config : MotorRunnerConfig) :
    Except String (ContinuousMotorRunner κ σ) := do
  config.validate
  let policyId := C.policyId controller
  if policyId.isEmpty || decide (128 < policyId.utf8ByteSize) || policyId.toList.any isWhitespace then
    .error "Motor controller policyId is invalid"
  else .ok {
    controller := controller
    seat := seat
    config := config
    active := none
    operations := ∅
    terminalEvents := ∅
    nextEventSequence := 1 }

variable (runner : ContinuousMotorRunner κ σ)

/-- An event, and the runner that counts it. -/
def event (intentId : String) (kind : MotorEventKind) (atUs : ℕ) (reason : Option MotorStopReason)
    (stateVersion : Option String) (confidencePerMille : Option ℕ) (evidence : List String)
    (report : Option MotorRunReport) (replayed : Bool) : MotorEvent × ContinuousMotorRunner κ σ :=
  ({ schemaVersion := motorEventSchema
     sequence := runner.nextEventSequence
     intentId := intentId
     kind := kind
     atUs := atUs
     stateVersion := stateVersion
     reason := reason
     confidencePerMille := confidencePerMille
     policyId := C.policyId runner.controller
     tier := C.tier runner.controller
     replayed := replayed
     evidence := evidence
     report := report },
   { runner with nextEventSequence := saturatingAdd runner.nextEventSequence 1 })

def startNew (intent : MotorIntent) (authority : MotorLeaseAuthority) (nowUs : ℕ) : Outcome κ σ MotorEvent :=
  match authority.validateFor intent nowUs with
  | .error error => ⟨.error error, runner, []⟩
  | .ok _ =>
    if runner.active.isSome then ⟨.error "A Motor session already owns the Computer seat", runner, []⟩
    else
      let x := event C { runner with
          operations := runner.operations.upsert intent
          active := some (.start intent authority nowUs) }
        intent.intentId .started nowUs none (some intent.stateVersion) none
        ["bounded local motor controller started"] none false
      ⟨.ok x.1, x.2, []⟩

def start (intent : MotorIntent) (authority : MotorLeaseAuthority) (nowUs : ℕ) : Outcome κ σ MotorEvent :=
  match intent.validate with
  | .error error => ⟨.error error, runner, []⟩
  | .ok _ =>
    match runner.operations.find? intent.intentId with
    | none => startNew C runner intent authority nowUs
    | some existing =>
      if existing ≠ intent then
        ⟨.error "Motor intentId was already used for a different operation", runner, []⟩
      else
        match runner.terminalEvents.find? intent.intentId with
        | some event => ⟨.ok { event with replayed := true }, runner, []⟩
        | none =>
          if runner.active.any fun run => decide (run.intent.intentId = intent.intentId) then
            let x := event C runner intent.intentId .started nowUs none (some intent.stateVersion) none
              ["idempotent replay; existing motor session remains active"] none true
            ⟨.ok x.1, x.2, []⟩
          else startNew C runner intent authority nowUs

def submitFrame (frame : MotorFrame) : Outcome κ σ Bool :=
  match frame.validate with
  | .error error => ⟨.error error, runner, []⟩
  | .ok _ =>
    match runner.active with
    | none => ⟨.error "No active Motor session", runner, []⟩
    | some run =>
      if frame.targetRef ≠ run.intent.targetRef then
        ⟨.error "Motor frame belongs to a different target surface", runner, []⟩
      else if frame.sequence ≤ run.lastSubmittedSequence then
        ⟨.ok false, { runner with active := some { run with
          droppedFrames := saturatingAdd run.droppedFrames 1 } }, []⟩
      else
        ⟨.ok true, { runner with active := some { run with
          pendingFrame := some frame
          droppedFrames := if run.pendingFrame.isSome then saturatingAdd run.droppedFrames 1 else run.droppedFrames
          lastSubmittedSequence := frame.sequence } }, []⟩

def stop (reason : MotorStopReason) (nowUs : ℕ) : Outcome κ σ MotorEvent :=
  match runner.active with
  | none => ⟨.error "No active Motor session", runner, []⟩
  | some run =>
    let release := S.releaseAll runner.seat
    let confirmed := release.1.isOk
    let run := { run with heldInput := false, cleanupConfirmed := confirmed }
    let runner := { runner with active := none, seat := release.2 }
    let report := buildReport run (C.policyId runner.controller) (C.tier runner.controller) (some reason)
    let x := event C runner run.intent.intentId (stopKind reason) nowUs (some reason) none none
      [if confirmed then "all held input released" else "held-input release could not be confirmed"] (some report)
      false
    let runner := { x.2 with terminalEvents := x.2.terminalEvents.upsert x.1 }
    if confirmed then ⟨.ok x.1, runner, [.releaseAll]⟩
    else ⟨.error "Motor stopped but held-input cleanup could not be confirmed", runner, [.releaseAll]⟩

def stopStep (reason : MotorStopReason) (nowUs : ℕ) (calls : List SeatCall) : Outcome κ σ (Option MotorEvent) :=
  let outcome := stop C S runner reason nowUs
  ⟨outcome.answer.map some, outcome.runner, calls ++ outcome.calls⟩

/-- The rest of a step, once the seat was asked to apply the control. -/
def applied (run : ActiveRun) (frame : MotorFrame) (decision : MotorDecision) (nowUs : ℕ) :
    Outcome κ σ (Option MotorEvent) :=
  let dispatch := S.apply runner.seat decision.control
  let calls := [.apply frame decision.control]
  let runner := { runner with seat := dispatch.2 }
  match dispatch.1 with
  | .error _ => stopStep C S runner .dispatchFailed nowUs calls
  | .ok dispatchUs =>
    let completedAtUs := saturatingAdd (saturatingAdd nowUs decision.inferenceUs) dispatchUs
    let run := run.acted frame decision dispatchUs completedAtUs nowUs
    let runner := { runner with active := some run }
    match terminalReason decision.kind with
    | some reason => stopStep C S runner reason completedAtUs calls
    | none =>
      if run.processedFrames % runner.config.progressEveryFrames = 0 then
        let report := buildReport run (C.policyId runner.controller) (C.tier runner.controller) none
        let x := event C runner run.intent.intentId .progress completedAtUs none (some frame.stateVersion)
          (some decision.confidencePerMille) decision.evidence (some report) false
        ⟨.ok (some x.1), x.2, calls⟩
      else ⟨.ok none, runner, calls⟩

def step (nowUs : ℕ) : Outcome κ σ (Option MotorEvent) :=
  match runner.active with
  | none => ⟨.error "No active Motor session", runner, []⟩
  | some run =>
    match expiry runner.config run nowUs with
    | some reason => stopStep C S runner reason nowUs []
    | none =>
      match run.pendingFrame with
      | none => ⟨.ok none, runner, []⟩
      | some frame =>
        let run := { run with pendingFrame := none }
        let inference := C.infer runner.controller run.intent frame (nowUs - run.startedAtUs)
        let runner := { runner with active := some run, controller := inference.2 }
        match inference.1 with
        | .error _ => stopStep C S runner .controllerFailed nowUs []
        | .ok decision =>
          match decision.validate runner.config.allowedKeys with
          | .error _ => stopStep C S runner .controllerFailed nowUs []
          | .ok _ =>
            if decision.frameSequence ≠ frame.sequence ∨ frame.sequence ≤ run.lastProcessedSequence then
              ⟨.ok none, { runner with active := some run.stale }, []⟩
            else applied C S runner run frame decision nowUs

def interrupt (reason : MotorStopReason) (nowUs : ℕ) : Outcome κ σ MotorEvent :=
  if reason ∉ actionable then ⟨.error "Motor interrupt reason is not externally actionable", runner, []⟩
  else stop C S runner reason nowUs

end ContinuousMotorRunner

/-! ## Runs -/

inductive MotorOp where
  | start (intent : MotorIntent) (authority : MotorLeaseAuthority) (nowUs : ℕ)
  | submitFrame (frame : MotorFrame)
  | step (nowUs : ℕ)
  | interrupt (reason : MotorStopReason) (nowUs : ℕ)
  | stop (reason : MotorStopReason) (nowUs : ℕ)

inductive MotorAnswer where
  | event (event : MotorEvent)
  | taken (taken : Bool)
  | nothing

def MotorAnswer.ofStep : Option MotorEvent → MotorAnswer
  | some motorEvent => event motorEvent
  | none => nothing

def Outcome.map {κ σ α β : Type} (f : α → β) (outcome : Outcome κ σ α) : Outcome κ σ β :=
  ⟨outcome.answer.map f, outcome.runner, outcome.calls⟩

variable {κ σ : Type} (C : MotorController κ) (S : MotorSeat σ)

def ContinuousMotorRunner.perform (runner : ContinuousMotorRunner κ σ) :
    MotorOp → Outcome κ σ MotorAnswer
  | .start intent authority nowUs => (runner.start C intent authority nowUs).map .event
  | .submitFrame frame => (runner.submitFrame frame).map .taken
  | .step nowUs => (runner.step C S nowUs).map .ofStep
  | .interrupt reason nowUs => (runner.interrupt C S reason nowUs).map .event
  | .stop reason nowUs => (runner.stop C S reason nowUs).map .event

end Wiii.Neko.Computer.Motor
