import Wiii.Neko.Digest
import Wiii.Neko.Journal.Operations
import Wiii.Neko.Provider

/-!
# The requests of the runtime

The three requests of the control surface, the checks of their identities and the digest targets
they are recorded under.
-/

namespace Wiii.Neko

structure SessionStartRequest where
  requestId : String
  agentSessionId : String
  taskId : String
  runId : String
  providerId : String
  environmentId : String
  workspacePath : String
  profileId : Option String
  deriving DecidableEq

structure SessionWriteRequest where
  requestId : String
  agentSessionId : String
  line : String
  deriving DecidableEq

structure SessionCancelRequest where
  requestId : String
  runId : String
  agentSessionId : String
  deriving DecidableEq

/-! ## Identities -/

/-- A control character of Unicode. -/
def isControl (c : Char) : Bool :=
  c.toNat < 0x20 || (0x7f ≤ c.toNat && c.toNat < 0xa0)

def validateIdentity (name value : String) : Except String Unit :=
  if value.isEmpty || value.utf8ByteSize > 256 || value.toList.any isControl then
    .error s!"invalid {name}"
  else .ok ()

def isChannelByte (c : Char) : Bool :=
  c.isAlphanum || c = '-' || c = '_' || c = '.' || c = ':'

def validateChannelIdentity (name value : String) : Except String Unit :=
  if value.utf8ByteSize > 128 || !value.toList.all isChannelByte then
    .error s!"invalid {name} event-channel identity"
  else .ok ()

def validateProviderFrame (frame : String) : Except String Unit :=
  if frame.isEmpty || frame.utf8ByteSize > 1024 * 1024 then
    .error "provider frame must be between 1 byte and 1 MiB"
  else if frame.toList.any fun c => c = '\r' || c = '\n' then
    .error "provider frame must contain exactly one delimiter-free JSON-RPC line"
  else .ok ()

/-- The check before the identity is looked up; absolute paths are the host's matter. -/
def validateStartIdentity (isAbsolute : String → Bool) (request : SessionStartRequest) :
    Except String Unit := do
  validateIdentity "requestId" request.requestId
  validateIdentity "agentSessionId" request.agentSessionId
  validateIdentity "taskId" request.taskId
  validateIdentity "runId" request.runId
  validateIdentity "providerId" request.providerId
  validateIdentity "environmentId" request.environmentId
  validateChannelIdentity "agentSessionId" request.agentSessionId
  ensure (definition request.providerId).isSome s!"unknown Neko provider '{request.providerId}'"
  ensure (isAbsolute request.workspacePath) "workspace must be an absolute directory"
  match request.profileId with
  | none => return ()
  | some profileId => validateProfileId profileId

def validateWriteRequest (request : SessionWriteRequest) : Except String Unit := do
  validateIdentity "requestId" request.requestId
  validateIdentity "agentSessionId" request.agentSessionId
  validateProviderFrame request.line

def validateCancelRequest (request : SessionCancelRequest) : Except String Unit := do
  validateIdentity "requestId" request.requestId
  validateIdentity "runId" request.runId
  validateIdentity "agentSessionId" request.agentSessionId

/-! ## Targets -/

namespace SessionStartRequest

def target (request : SessionStartRequest) : List String :=
  [request.agentSessionId, request.taskId, request.runId, request.providerId,
    request.environmentId, request.workspacePath, request.profileId.getD ""]

def session (request : SessionStartRequest) : NewSession where
  agentSessionId := request.agentSessionId
  taskId := request.taskId
  runId := request.runId
  environmentId := request.environmentId
  providerId := request.providerId
  workspacePath := request.workspacePath

end SessionStartRequest

def SessionWriteRequest.target (request : SessionWriteRequest) : List String :=
  [request.agentSessionId, request.line]

def SessionCancelRequest.target (request : SessionCancelRequest) : List String :=
  [request.runId, request.agentSessionId]

end Wiii.Neko
