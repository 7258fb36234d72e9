import Mathlib.Algebra.GroupWithZero.Nat
import Mathlib.Data.List.Infix
import Wiii.NekoChill.Scope

/-!
# The runtime registry

Every table of the registry but its generation is keyed by session, so its state is one record for each session and the
generation.  A step is a stretch of a call from one of its awaits to the next, or the settling of a disposer, or one of
the three moments of a cleanup.  What a caller passes in is a choice of the step.  A driver instance is named by the
call that prepared it.
-/

namespace Wiii.NekoChill

/-! ## Drivers -/

inductive ExtensionValue where
  | text (value : String)
  | number (finite : Bool)
  | boolean (value : Bool)
  | null
  deriving DecidableEq

/-- A driver: which object it is, and what `replace` reads of it. -/
structure Driver where
  object : ℕ
  sessionId : String
  providerExtensions : List (String × ExtensionValue) := []
  deriving DecidableEq

def utf16Length (text : String) : ℕ := (text.toList.map fun c => if c.toNat < 0x10000 then 1 else 2).sum

def secretLike : List String :=
  ["authorization", "cookie", "credential", "password", "secret", "token", "apikey", "api-key", "api_key"]

def isSecretLike (key : String) : Bool :=
  secretLike.any fun word => decide (word.toList <:+: (key.map Char.toLower).toList)

def isSafeExtension : String × ExtensionValue → Bool
  | (key, value) => !key.isEmpty && decide (utf16Length key ≤ 64) && !isSecretLike key &&
    match value with
    | .text value => decide (utf16Length value ≤ 256)
    | .number finite => finite
    | .boolean _ => true
    | .null => true

def providerIds : List String := ["neko", "gemini", "codex", "opencode", "claude", "cursor", "copilot"]

/-- Throws for the extensions of this driver, and is called for known providers only. -/
def snapshotThrows (providerId : String) (driver : Driver) : Bool :=
  decide (providerId ∈ providerIds) &&
    (decide (16 < driver.providerExtensions.length) || !driver.providerExtensions.all isSafeExtension)

/-! ## State -/

abbrev Disposals := List (ℕ × ℕ)

/-- A scope that is to be cleaned up, and the provider it was bound to. -/
abbrev CleanupAuthority := ℕ × Option ℕ

inductive JobPhase where
  | queued
  | running (disposals : Disposals)
  | finished (ok : Bool)
  | settled (ok : Bool)
  deriving DecidableEq

/-- One attempt of `cleanupSession`, chained to the one before. -/
structure Job where
  previous : Option ℕ
  completions : List ℕ
  phase : JobPhase := .queued
  deriving DecidableEq

inductive ReplaceFailure where
  | priorCleanup
  | factory
  | cancelled
  | wrongSession
  | snapshot
  | previousCleanup
  | providerChanged
  deriving DecidableEq

inductive ReplacePhase where
  | awaitingPrior (cleanup : ℕ)
  | creating
  | awaitingPrevious (previous : ℕ) (cleanup : ℕ)
  | disposing (disposals : Disposals) (failure : ReplaceFailure)
  | disposed (failure : ReplaceFailure) (cleanupFailed : Bool)
  | committed (previous : Option ℕ)
  | rejected (failure : ReplaceFailure) (cleanupFailed : Bool)
  deriving DecidableEq

structure ReplaceCall where
  providerId : String
  recoveredProvider : Option ℕ
  phase : ReplacePhase
  /-- The scope of the preparation, from its registration on. -/
  preparation : Option ℕ := none
  generation : ℕ := 0
  sessionGeneration : ℕ := 0
  ownedDriver : Option Driver := none
  unownedScopes : List ℕ := []
  deriving DecidableEq

def ReplaceCall.scopes (call : ReplaceCall) : List ℕ := call.preparation.toList ++ call.unownedScopes

/-- A call of `detach`, `detachInstance` or `disposeAll`; whether it ends the session generation. -/
structure Teardown where
  provider : Option ℕ
  cleanup : Option ℕ
  dropsGeneration : Bool
  outcome : Option Bool := none
  deriving DecidableEq

structure Binding where
  provider : ℕ
  scope : ℕ
  deriving DecidableEq

structure Session where
  binding : Option Binding := none
  sessionGeneration : ℕ := 0
  pendingPreparations : List ℕ := []
  retainedCleanupScopes : List CleanupAuthority := []
  inFlightDisposal : Option ℕ := none
  jobs : ℕ → Option Job := fun _ => none
  nextJob : ℕ := 0
  calls : ℕ → Option ReplaceCall := fun _ => none
  nextCall : ℕ := 0
  teardowns : ℕ → Option Teardown := fun _ => none
  nextTeardown : ℕ := 0
  scopes : ℕ → RuntimeScope := fun _ => {}
  nextScope : ℕ := 0

namespace Session

/-! ## Cleanup -/

def retain (retained : List CleanupAuthority) (authority : CleanupAuthority) : List CleanupAuthority :=
  if authority.1 ∈ retained.map Prod.fst then
    retained.map fun entry =>
      if entry.1 = authority.1 ∧ entry.2 = none ∧ authority.2 ≠ none then authority else entry
  else retained ++ [authority]

def retainedProvider (σ : Session) : Option ℕ := σ.retainedCleanupScopes.findSome? Prod.snd

/-- `joinDisposal` with work: a new job behind the one in flight. -/
def joinDisposal (completions : List ℕ) (σ : Session) : Session :=
  { σ with
    jobs := Function.update σ.jobs σ.nextJob (some ⟨σ.inFlightDisposal, completions, .queued⟩)
    nextJob := σ.nextJob + 1
    inFlightDisposal := some σ.nextJob }

/-- `cleanupSession`, and the job to await if there is one. -/
def cleanupSession (authorities : List CleanupAuthority) (completions : List ℕ) (σ : Session) :
    Session × Option ℕ :=
  let σ := { σ with retainedCleanupScopes := authorities.foldl retain σ.retainedCleanupScopes }
  if σ.retainedCleanupScopes = [] ∧ completions = [] then (σ, σ.inFlightDisposal)
  else (σ.joinDisposal completions, some σ.nextJob)

def disposeScopes : List ℕ → (ℕ → RuntimeScope) → (ℕ → RuntimeScope) × Disposals
  | [], scopes => (scopes, [])
  | id :: ids, scopes =>
    let disposed := disposeScopes ids (Function.update scopes id (scopes id).dispose.1)
    (disposed.1, (id, (scopes id).dispose.2) :: disposed.2)

/-- All of these attempts have ended: whether all succeeded. -/
def allSettled (outcomes : List (Option Bool)) : Option Bool :=
  if outcomes.all Option.isSome then some (outcomes.all fun outcome => outcome = some true) else none

def outcomeOf (scopes : ℕ → RuntimeScope) (disposals : Disposals) : Option Bool :=
  allSettled (disposals.map fun entry => (scopes entry.1).outcome entry.2)

def completionOf (call : ReplaceCall) : Option Bool :=
  match call.phase with
  | .committed _ => some true
  | .rejected _ cleanupFailed => some !cleanupFailed
  | _ => none

def jobOutcome (σ : Session) (job : ℕ) : Option Bool :=
  match σ.jobs job with
  | some ⟨_, _, .settled ok⟩ => some ok
  | _ => none

def setJob (id : ℕ) (job : Job) (phase : JobPhase) (σ : Session) : Session :=
  { σ with jobs := Function.update σ.jobs id (some { job with phase := phase }) }

/-- The work of a job starts when the job before has settled, either way. -/
def startJob (id : ℕ) (σ : Session) : Option Session := do
  let job ← σ.jobs id
  if job.phase = .queued ∧ (∀ previous ∈ job.previous, (σ.jobOutcome previous).isSome) then
    let disposed := disposeScopes (σ.retainedCleanupScopes.map Prod.fst) σ.scopes
    some ({ σ with scopes := disposed.1 }.setJob id job (.running disposed.2))
  else none

def fulfilled (scopes : ℕ → RuntimeScope) (disposals : Disposals) : List ℕ :=
  (disposals.filter fun entry => (scopes entry.1).outcome entry.2 = some true).map Prod.fst

def finishJob (id : ℕ) (σ : Session) : Option Session := do
  let job ← σ.jobs id
  match job.phase with
  | .running disposals =>
    let disposed ← outcomeOf σ.scopes disposals
    let completed ← allSettled (job.completions.map fun call => (σ.calls call).bind completionOf)
    let done := fulfilled σ.scopes disposals
    some ({ σ with
      retainedCleanupScopes := σ.retainedCleanupScopes.filter fun entry => decide (entry.1 ∉ done) }.setJob
        id job (.finished (disposed && completed)))
  | _ => none

def settleJob (id : ℕ) (σ : Session) : Option Session := do
  let job ← σ.jobs id
  match job.phase with
  | .finished ok =>
    some ({ σ with
      inFlightDisposal := if σ.inFlightDisposal = some id then none else σ.inFlightDisposal }.setJob
        id job (.settled ok))
  | _ => none

/-! ## Replacing -/

def setCall (id : ℕ) (call : ReplaceCall) (σ : Session) : Session :=
  { σ with calls := Function.update σ.calls id (some call) }

/-- The preparation is registered, the generations are read and the factory is called. -/
def prepare (generation id : ℕ) (call : ReplaceCall) (σ : Session) : Session :=
  { σ with
    pendingPreparations := σ.pendingPreparations ++ [id]
    scopes := Function.update σ.scopes σ.nextScope {}
    nextScope := σ.nextScope + 1 }.setCall id { call with
      phase := .creating
      preparation := some σ.nextScope
      generation := generation
      sessionGeneration := σ.sessionGeneration }

def replace (generation : ℕ) (providerId : String) (σ : Session) : Session :=
  let call : ReplaceCall := ⟨providerId, σ.retainedProvider, .creating, none, 0, 0, none, []⟩
  let cleanup := σ.cleanupSession [] []
  let σ' := { cleanup.1 with nextCall := σ.nextCall + 1 }
  match cleanup.2 with
  | none => σ'.prepare generation σ.nextCall call
  | some job => σ'.setCall σ.nextCall { call with phase := .awaitingPrior job }

def isStale (generation : ℕ) (call : ReplaceCall) (σ : Session) : Bool :=
  decide (call.generation ≠ generation) || decide (call.sessionGeneration ≠ σ.sessionGeneration)

/-- The `finally` of `replace`. -/
def complete (id : ℕ) (call : ReplaceCall) (σ : Session) : Session :=
  let pending := σ.pendingPreparations.filter fun other => decide (other ≠ id)
  { σ with
    pendingPreparations := pending
    sessionGeneration := if pending = [] then 0 else σ.sessionGeneration }.setCall id call

/-- A scope of its own for a driver that the preparation cannot take. -/
def ownApart (call : ReplaceCall) (σ : Session) : Session × ReplaceCall :=
  ({ σ with
      scopes := Function.update σ.scopes σ.nextScope ((({} : RuntimeScope).add).getD {})
      nextScope := σ.nextScope + 1 },
    { call with unownedScopes := call.unownedScopes ++ [σ.nextScope] })

/-- `own`, and whether it threw. -/
def own (call : ReplaceCall) (driver : Driver) (σ : Session) : Session × ReplaceCall × Bool :=
  match call.ownedDriver with
  | some owned =>
    if owned ≠ driver then ((σ.ownApart call).1, (σ.ownApart call).2, true) else (σ, call, false)
  | none =>
    let call := { call with ownedDriver := some driver }
    match call.preparation.bind fun id => (σ.scopes id).add.map (Prod.mk id) with
    | some (id, scope) => ({ σ with scopes := Function.update σ.scopes id scope }, call, false)
    | none => ((σ.ownApart call).1, (σ.ownApart call).2, true)

def disposePreparation (id : ℕ) (call : ReplaceCall) (failure : ReplaceFailure) (σ : Session) : Session :=
  let disposed := disposeScopes call.scopes σ.scopes
  { σ with scopes := disposed.1 }.setCall id { call with phase := .disposing disposed.2 failure }

/-- The last check before the commit, and the commit. -/
def commit (generation id : ℕ) (call : ReplaceCall) (previous : Option ℕ) (σ : Session) : Session :=
  if σ.isStale generation call ∨ σ.binding ≠ none then σ.disposePreparation id call .providerChanged
  else
    { σ with binding := call.preparation.map fun scope => ⟨id, scope⟩ }.complete id
      { call with phase := .committed (previous <|> call.recoveredProvider) }

def resumePrior (generation id : ℕ) (σ : Session) : Option Session := do
  let call ← σ.calls id
  match call.phase with
  | .awaitingPrior cleanup =>
    let ok ← σ.jobOutcome cleanup
    some (if ok then σ.prepare generation id call
      else σ.setCall id { call with phase := .rejected .priorCleanup false })
  | _ => none

/-- The factory, or what it left behind, calls `own`. -/
def ownDriver (id : ℕ) (driver : Driver) (σ : Session) : Option Session := do
  let call ← σ.calls id
  if call.preparation ≠ none then some ((σ.own call driver).1.setCall id (σ.own call driver).2.1) else none

/-- The old identity is revoked before its cleanup, and the new one published only after it. -/
def supersede (generation id : ℕ) (call : ReplaceCall) (σ : Session) : Session :=
  match σ.binding with
  | none => σ.commit generation id call none
  | some previous =>
    let cleanup := { σ with binding := none }.cleanupSession [(previous.scope, some previous.provider)] []
    match cleanup.2 with
    | none => cleanup.1.commit generation id call (some previous.provider)
    | some job => cleanup.1.setCall id { call with phase := .awaitingPrevious previous.provider job }

/-- What `replace` does with the driver of the factory, which `own` took or threw at. -/
def receive (sessionId : String) (generation id : ℕ) (call : ReplaceCall) (driver : Driver) (threw : Bool)
    (σ : Session) : Session :=
  if threw then σ.disposePreparation id call .factory
  else if σ.isStale generation call then σ.disposePreparation id call .cancelled
  else if driver.sessionId ≠ sessionId then σ.disposePreparation id call .wrongSession
  else if snapshotThrows call.providerId driver then
    σ.complete id { call with phase := .rejected .snapshot false }
  else σ.supersede generation id call

def created (sessionId : String) (generation id : ℕ) (driver : Driver) (σ : Session) : Option Session := do
  let call ← σ.calls id
  if call.phase = .creating then
    let owned := σ.own call driver
    some ((owned.1.setCall id owned.2.1).receive sessionId generation id owned.2.1 driver owned.2.2)
  else none

def createFailed (id : ℕ) (σ : Session) : Option Session := do
  let call ← σ.calls id
  if call.phase = .creating then some (σ.disposePreparation id call .factory) else none

def resumePrevious (generation id : ℕ) (σ : Session) : Option Session := do
  let call ← σ.calls id
  match call.phase with
  | .awaitingPrevious previous cleanup =>
    let ok ← σ.jobOutcome cleanup
    some (if ok then σ.commit generation id call (some previous)
      else σ.disposePreparation id call .previousCleanup)
  | _ => none

def preparationDisposed (id : ℕ) (σ : Session) : Option Session := do
  let call ← σ.calls id
  match call.phase with
  | .disposing disposals failure =>
    let ok ← outcomeOf σ.scopes disposals
    let retained := if ok then σ.retainedCleanupScopes
      else (disposals.map fun entry => (entry.1, none)).foldl retain σ.retainedCleanupScopes
    some ({ σ with retainedCleanupScopes := retained }.setCall id
      { call with phase := .disposed failure !ok })
  | _ => none

/-- `replace` throws.  A factory that failed while its session was torn down was cancelled. -/
def resumeDisposed (generation id : ℕ) (σ : Session) : Option Session := do
  let call ← σ.calls id
  match call.phase with
  | .disposed failure cleanupFailed =>
    let failure := if failure = .factory ∧ cleanupFailed = false ∧ σ.isStale generation call then
      .cancelled else failure
    let retained := if cleanupFailed then
      (call.scopes.map fun scope => (scope, none)).foldl retain σ.retainedCleanupScopes
      else σ.retainedCleanupScopes
    some ({ σ with retainedCleanupScopes := retained }.complete id
      { call with phase := .rejected failure cleanupFailed })
  | _ => none

/-! ## Tearing down -/

def preparations (σ : Session) : List CleanupAuthority :=
  σ.pendingPreparations.filterMap fun id =>
    ((σ.calls id).bind ReplaceCall.preparation).map fun scope => (scope, none)

def bound (σ : Session) : List CleanupAuthority :=
  (σ.binding.map fun binding => (binding.scope, some binding.provider)).toList

def addTeardown (teardown : Teardown) (σ : Session) : Session :=
  { σ with
    teardowns := Function.update σ.teardowns σ.nextTeardown (some teardown)
    nextTeardown := σ.nextTeardown + 1 }

def dropGeneration (σ : Session) : Session :=
  if σ.pendingPreparations = [] then { σ with sessionGeneration := 0 } else σ

/-- A call that awaits the cleanup it asked for, or returns at once where there is none. -/
def awaitCleanup (provider : Option ℕ) (dropsGeneration : Bool) (cleanup : Session × Option ℕ) : Session :=
  match cleanup.2 with
  | none =>
    (if dropsGeneration then cleanup.1.dropGeneration else cleanup.1).addTeardown
      ⟨provider, none, dropsGeneration, some true⟩
  | some job => cleanup.1.addTeardown ⟨provider, some job, dropsGeneration, none⟩

def detach (σ : Session) : Session :=
  let provider := (σ.binding.map Binding.provider) <|> σ.retainedProvider
  awaitCleanup provider true
    ({ σ with sessionGeneration := σ.sessionGeneration + 1, binding := none }.cleanupSession
      (σ.preparations ++ σ.bound) σ.pendingPreparations)

def detachInstance (provider : ℕ) (σ : Session) : Session :=
  match σ.binding.filter fun binding => decide (binding.provider = provider) with
  | none => awaitCleanup σ.retainedProvider false (σ.cleanupSession [] [])
  | some _ =>
    awaitCleanup (some provider) true
      ({ σ with sessionGeneration := σ.sessionGeneration + 1, binding := none }.cleanupSession
        (σ.bound ++ σ.preparations) σ.pendingPreparations)

/-- What `disposeAll` does to one session. -/
def disposeAll (σ : Session) : Session :=
  let provider := (σ.binding.map Binding.provider) <|> σ.retainedProvider
  awaitCleanup provider false
    ({ σ with binding := none }.cleanupSession (σ.bound ++ σ.preparations) σ.pendingPreparations)

def resumeTeardown (id : ℕ) (σ : Session) : Option Session := do
  let teardown ← σ.teardowns id
  let cleanup ← teardown.cleanup
  let ok ← σ.jobOutcome cleanup
  let σ := if teardown.dropsGeneration then σ.dropGeneration else σ
  some { σ with
    teardowns := Function.update σ.teardowns id
      (some { teardown with cleanup := none, outcome := some ok }) }

/-! ## Disposers -/

def settleDisposer (id : ℕ) (ok : Bool) (σ : Session) : Option Session := do
  let scope ← (σ.scopes id).settle ok
  some { σ with scopes := Function.update σ.scopes id scope }

def releaseScope (id : ℕ) (σ : Session) : Session :=
  { σ with scopes := Function.update σ.scopes id (σ.scopes id).release }

end Session

/-! ## The system -/

inductive Act where
  | replace (providerId : String)
  | resumePrior (call : ℕ)
  | own (call : ℕ) (driver : Driver)
  | created (call : ℕ) (driver : Driver)
  | createFailed (call : ℕ)
  | resumePrevious (call : ℕ)
  | preparationDisposed (call : ℕ)
  | resumeDisposed (call : ℕ)
  | detach
  | detachInstance (provider : ℕ)
  | resumeTeardown (teardown : ℕ)
  | startJob (job : ℕ)
  | finishJob (job : ℕ)
  | settleJob (job : ℕ)
  | settleDisposer (scope : ℕ) (ok : Bool)
  | releaseScope (scope : ℕ)
  deriving DecidableEq

def Session.step (sessionId : String) (generation : ℕ) (act : Act) (σ : Session) : Option Session :=
  match act with
  | .replace providerId => some (σ.replace generation providerId)
  | .resumePrior call => σ.resumePrior generation call
  | .own call driver => σ.ownDriver call driver
  | .created call driver => σ.created sessionId generation call driver
  | .createFailed call => σ.createFailed call
  | .resumePrevious call => σ.resumePrevious generation call
  | .preparationDisposed call => σ.preparationDisposed call
  | .resumeDisposed call => σ.resumeDisposed generation call
  | .detach => some σ.detach
  | .detachInstance provider => some (σ.detachInstance provider)
  | .resumeTeardown teardown => σ.resumeTeardown teardown
  | .startJob job => σ.startJob job
  | .finishJob job => σ.finishJob job
  | .settleJob job => σ.settleJob job
  | .settleDisposer scope ok => σ.settleDisposer scope ok
  | .releaseScope scope => some (σ.releaseScope scope)

/-- A step of one session, or the synchronous part of `disposeAll`. -/
inductive RegistryAct where
  | session (sessionId : String) (act : Act)
  | disposeAll
  deriving DecidableEq

structure RuntimeRegistry where
  generation : ℕ := 0
  sessions : String → Session := fun _ => {}

def RuntimeRegistry.step (act : RegistryAct) (registry : RuntimeRegistry) : Option RuntimeRegistry :=
  match act with
  | .session sessionId act => do
    let σ ← (registry.sessions sessionId).step sessionId registry.generation act
    some { registry with sessions := Function.update registry.sessions sessionId σ }
  | .disposeAll => some
    { generation := registry.generation + 1, sessions := fun sessionId => (registry.sessions sessionId).disposeAll }

def RuntimeRegistry.run (acts : List RegistryAct) (registry : RuntimeRegistry) : Option RuntimeRegistry :=
  match acts with
  | [] => some registry
  | act :: acts => (registry.step act).bind (RuntimeRegistry.run acts)

end Wiii.NekoChill
