import Wiii.Lib.Json

/-!
# The approved providers

The registry of the agents that the runtime may launch, with the launch contract of each.
-/

namespace Wiii.Neko

structure ProviderDefinition where
  id : String
  name : String
  launchArgs : List String
  profileArgument : Option String
  launchable : Bool
  deriving DecidableEq

def providers : List ProviderDefinition :=
  [⟨"neko", "Neko Core", ["acp"], some "--profile", true⟩,
    ⟨"gemini", "Gemini CLI", ["--experimental-acp"], none, true⟩,
    ⟨"codex", "Codex", ["app-server"], none, true⟩,
    ⟨"opencode", "OpenCode", ["acp"], none, true⟩,
    ⟨"claude", "Claude Code", [], none, false⟩,
    ⟨"cursor", "Cursor Agent", ["acp"], none, true⟩,
    ⟨"copilot", "GitHub Copilot CLI", ["--acp"], none, true⟩]

def definition (providerId : String) : Option ProviderDefinition :=
  providers.find? fun provider => provider.id = providerId

def isProfileByte (c : Char) : Bool :=
  c.isAlphanum || c = '-' || c = '_' || c = '.'

def validateProfileId (profileId : String) : Except String Unit :=
  if profileId.isEmpty || profileId.utf8ByteSize > 64 || profileId.startsWith "-" ||
      !profileId.toList.all isProfileByte then
    .error "invalid provider profile identity"
  else .ok ()

namespace ProviderDefinition

def supportsProfiles (provider : ProviderDefinition) : Bool := provider.profileArgument.isSome

/-- Refused for a provider that is only listed, and for a profile that it does not support. -/
def launch (provider : ProviderDefinition) (profileId : Option String) :
    Except String (List String) :=
  if !provider.launchable then
    .error s!"provider '{provider.id}' is catalog-only in this Wiii build"
  else
    match profileId with
    | none => .ok provider.launchArgs
    | some profileId =>
      match provider.profileArgument with
      | none => .error s!"provider '{provider.id}' does not support profiles"
      | some flag => do
        validateProfileId profileId
        return provider.launchArgs ++ [flag, profileId]

end ProviderDefinition

structure ResolvedProvider where
  definition : ProviderDefinition
  version : Option String
  bundled : Bool

def ResolvedProvider.agentInfo (resolved : ResolvedProvider) : Value :=
  .object ([("availability", .string "available")] ++
    (if resolved.bundled then [("bundled", .bool true)] else []) ++
    [("detail", .null), ("found", .bool true), ("id", .string resolved.definition.id),
      ("name", .string resolved.definition.name),
      ("supportsProfiles", .bool resolved.definition.supportsProfiles),
      ("version", Value.ofOption resolved.version)])

end Wiii.Neko
