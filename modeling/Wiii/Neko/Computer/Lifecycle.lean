import Wiii.Neko.Computer.Service

/-!
# The calls on the life of a computer

The calls that make a computer ready, suspend, reset and remove it, as programs like those of `Service`.  They
ask the provider and the file system more than those do, so their requests are those of `Request` or one of
`LifecycleRequest`.
-/

namespace Wiii.Neko.Computer

open Dialog

/-! ## What the calls carry -/

inductive ComputerResourcePreset where
  | auto
  | compact
  | balanced
  | performance
  deriving DecidableEq

/-- `ComputerResources::default`. -/
def defaultResources : ComputerResources := ⟨"2.0", 4294967296, 1024, 1073741824, 536870912⟩

def ComputerResourcePreset.resources : ComputerResourcePreset → ComputerResources
  | compact => ⟨"1.0", 2147483648, 768, 536870912, 402653184⟩
  | performance => ⟨"4.0", 8589934592, 1536, 2147483648, 1073741824⟩
  | auto | balanced => defaultResources

structure ComputerDoctor where
  supported : Bool
  recommendedPreset : ComputerResourcePreset
  detail : String

structure ComputerEnsureRequest where
  requestId : String
  coworkerId : String
  projectId : String
  projectName : String
  projectPath : String
  resourcePreset : ComputerResourcePreset := .auto

structure ComputerLifecycleRequest where
  requestId : String
  environmentId : String

structure ComputerConfirmedRequest where
  requestId : String
  environmentId : String
  confirmation : String

/-! ## Requests -/

inductive LifecycleRequest where
  | canonicalProject (path : String)
  | hasProjectGrant (coworkerId projectId : String)
  | environmentByProjectPath (projectPath : String)
  | doctor
  | ensure (environmentId projectPath : String) (resources : ComputerResources)
  | suspend (environmentId : String)
  | reset (environmentId projectPath : String) (resources : ComputerResources)
  | destroy (environmentId : String)
  | deleteHistory (environmentId : String)

abbrev LifecycleResponse : LifecycleRequest → Type
  | .canonicalProject _ => Except String String
  | .hasProjectGrant _ _ => Except String Bool
  | .environmentByProjectPath _ => Except String (Option String)
  | .doctor => ComputerDoctor
  | .ensure _ _ _ | .reset _ _ _ => Except String ProviderEnvironment
  | .suspend _ | .destroy _ => Except String Unit
  | .deleteHistory _ => Except String ℕ

/-- The last component of a path, a digest of a coworker id and a text in quotes. -/
structure LifecycleLibraries where
  fileName : String → Option String
  coworkerDigest : String → String
  debug : String → String

abbrev Lifecycle (β : Type) := Dialog (Sum.elim Response LifecycleResponse) String β

namespace Lifecycle

open Service (requireLiveEnvironment beginRequest orUncertain unknownOutcome revokeActiveInput)

def await (r : Request) : Lifecycle (Response r) := request (α := Sum.elim Response LifecycleResponse) (.inl r)

def query (r : LifecycleRequest) : Lifecycle (LifecycleResponse r) :=
  request (α := Sum.elim Response LifecycleResponse) (.inr r)

def write (op : Op) : Lifecycle Answer := (Service.write op).inl

/-- An answer of the provider whose error makes the effect uncertain. -/
def sure {β : Type} (requestId environmentId : String) (answer : Except String β) : Lifecycle β :=
  (orUncertain requestId environmentId answer).inl

def withGuard {β : Type} (guard : Guard) (body : Lifecycle β) : Lifecycle β := do
  await (.lock guard)
  body.ensuring (.inl (.unlock guard))

variable (L : LifecycleLibraries)

/-! ## Names -/

def projectName (path : String) : String :=
  match L.fileName path with
  | some name => if name.toList.all isWhitespace then "Project" else name
  | none => "Project"

/-- `str::trim`. -/
def trim (value : String) : List Char :=
  ((value.toList.dropWhile isWhitespace).reverse.dropWhile isWhitespace).reverse

def requestedProjectName (value path : String) : String :=
  if (trim value).isEmpty then projectName L path else .ofList ((trim value).take 160)

def coworkerEnvironmentId (coworkerId : String) : String :=
  s!"computer-coworker-{L.coworkerDigest coworkerId}"

/-! ## Calls -/

/-- The environment of the coworker, an older one at the path, or a new one. -/
def environmentFor (coworkerId projectPath : String) : Lifecycle String := do
  match ← ofExcept (← await (.coworkerBinding coworkerId)) with
  | some binding => pure binding.environmentId
  | none =>
    match ← ofExcept (← query (.environmentByProjectPath projectPath)) with
    | some legacy => pure legacy
    | none => pure (coworkerEnvironmentId L coworkerId)

def readyResult (environmentId : String) : Value := .object [("environmentId", .string environmentId)]

/-- What is left of making a computer ready when its input is revoked. -/
def ensureRevoked (call : ComputerEnsureRequest) (environmentId projectPath : String) :
    Lifecycle ComputerEnvironment := withGuard .operations do
  let name := requestedProjectName L call.projectName projectPath
  let doctor ← query .doctor
  let existing ← ofExcept (← await (.environment environmentId))
  let resources := match existing with
    | some existing => existing.resources
    | none =>
      if call.resourcePreset = .auto then doctor.recommendedPreset.resources else call.resourcePreset.resources
  match ← await (.journal (.activateCoworkerProject {
      coworkerId := call.coworkerId
      environmentId := environmentId
      projectId := call.projectId
      projectName := name
      projectPath := projectPath
      state := .preparing
      resources := resources
      eventType := "computer.preparing" })) with
  | .error error => do
    let _ ← await (.journal (.failRequest call.requestId "journal_rejected"))
    fail error
  | .ok _ =>
    if !doctor.supported then do
      let _ ← await (.journal (.failRequest call.requestId "provider_unavailable"))
      let _ ← await (.journal (.setEnvironmentState environmentId .error "computer.provider_unavailable"))
      fail doctor.detail
    else do
      let _ ← write (.markSideEffectStarted call.requestId)
      let provider ← sure call.requestId environmentId (← query (.ensure environmentId projectPath resources))
      let _ ← sure call.requestId environmentId (← await (.journal (.upsertEnvironment environmentId name
        projectPath provider.state resources "computer.ready")))
      let _ ← sure call.requestId environmentId
        (← await (.journal (.completeRequest call.requestId (readyResult environmentId))))
      let environment ← (Service.requireEnvironment environmentId).inl
      pure { environment with state := provider.state }

def ensure (call : ComputerEnsureRequest) : Lifecycle ComputerEnvironment := withGuard .seats do
  let projectPath ← ofExcept (← query (.canonicalProject call.projectPath))
  let granted ← ofExcept (← query (.hasProjectGrant call.coworkerId call.projectId))
  if !granted then fail "project_access_denied: grant this Project to Neko before opening it"
  else
    let environmentId ← environmentFor L call.coworkerId projectPath
    match ← (beginRequest call.requestId "computer/ensure" environmentId).inl with
    | .replay _ => (requireLiveEnvironment environmentId).inl
    | .recordedError code => fail code
    | .unknownOutcome => fail (unknownOutcome environmentId)
    | .execute =>
      let existing ← ofExcept (← await (.environment environmentId))
      if existing.isSome then (revokeActiveInput environmentId).inl
      ensureRevoked L call environmentId projectPath

def expectedConfirmation (verb : String) (binding : Option CoworkerBinding) (environment : ComputerEnvironment) :
    String :=
  if binding.isSome then verb ++ " NEKO" else verb ++ " " ++ environment.projectName

/-- What is left of removing a computer when its input is revoked. -/
def removeRevoked (call : ComputerConfirmedRequest) : Lifecycle Unit := withGuard .operations do
  let _ ← write (.markSideEffectStarted call.requestId)
  sure call.requestId call.environmentId (← query (.destroy call.environmentId))
  let _ ← sure call.requestId call.environmentId (← await (.journal (.deleteEnvironment call.environmentId)))
  let _ ← query (.deleteHistory call.environmentId)
  let _ ← write (.completeRequest call.requestId (.object [("removed", .bool true)]))
  pure ()

def remove (call : ComputerConfirmedRequest) : Lifecycle Unit := withGuard .seats do
  match ← (beginRequest call.requestId "computer/remove" call.environmentId).inl with
  | .replay _ => pure ()
  | .recordedError code => fail code
  | .unknownOutcome => fail (unknownOutcome call.environmentId)
  | .execute =>
    match ← (Service.requireEnvironment call.environmentId).attempt.inl with
    | .error error => do
      let _ ← write (.failRequest call.requestId "computer_environment_missing")
      fail error
    | .ok environment => do
      let binding ← ofExcept (← await (.coworkerBindingForEnvironment call.environmentId))
      let expected := expectedConfirmation "REMOVE" binding environment
      if call.confirmation ≠ expected then do
        let _ ← write (.failRequest call.requestId "confirmation_rejected")
        fail s!"Computer removal confirmation must equal {expected}"
      else do
        (revokeActiveInput call.environmentId).inl
        removeRevoked call

def suspend (call : ComputerLifecycleRequest) : Lifecycle ComputerEnvironment := withGuard .seats do
  (revokeActiveInput call.environmentId).inl
  withGuard .operations do
    let environment ← (Service.requireEnvironment call.environmentId).inl
    match ← (beginRequest call.requestId "computer/suspend" call.environmentId).inl with
    | .replay _ => (Service.requireEnvironment call.environmentId).inl
    | .recordedError code => fail code
    | .unknownOutcome => fail (unknownOutcome call.environmentId)
    | .execute =>
      let _ ← write (.markSideEffectStarted call.requestId)
      sure call.requestId call.environmentId (← query (.suspend call.environmentId))
      let _ ← sure call.requestId call.environmentId
        (← await (.journal (.setEnvironmentState call.environmentId .suspended "computer.suspended")))
      let _ ← sure call.requestId call.environmentId
        (← await (.journal (.completeRequest call.requestId (readyResult call.environmentId))))
      pure { environment with state := .suspended }

def reset (call : ComputerConfirmedRequest) : Lifecycle ComputerEnvironment := withGuard .seats do
  let environment ← (Service.requireGrantedEnvironment call.environmentId).inl
  let binding ← ofExcept (← await (.coworkerBindingForEnvironment call.environmentId))
  let expected := expectedConfirmation "RESET" binding environment
  if call.confirmation ≠ expected then
    fail s!"Type {L.debug expected} to reset only computer-owned state"
  else do
    (revokeActiveInput call.environmentId).inl
    withGuard .operations do
      match ← (beginRequest call.requestId "computer/reset" call.environmentId).inl with
      | .replay _ => (requireLiveEnvironment call.environmentId).inl
      | .recordedError code => fail code
      | .unknownOutcome => fail (unknownOutcome call.environmentId)
      | .execute =>
        let _ ← write (.setEnvironmentState call.environmentId .preparing "computer.reset_started")
        let _ ← write (.markSideEffectStarted call.requestId)
        let provider ← sure call.requestId call.environmentId
          (← query (.reset call.environmentId environment.projectPath environment.resources))
        let _ ← sure call.requestId call.environmentId
          (← await (.journal (.setEnvironmentState call.environmentId .ready "computer.reset_completed")))
        let _ ← sure call.requestId call.environmentId
          (← await (.journal (.completeRequest call.requestId (readyResult call.environmentId))))
        let environment ← (Service.requireEnvironment call.environmentId).inl
        pure { environment with state := provider.state }

end Lifecycle

end Wiii.Neko.Computer
