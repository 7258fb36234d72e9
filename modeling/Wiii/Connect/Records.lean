import Wiii.Lib.PyText

/-!
# Connections of a user to providers

The records that the policy of external connections reads: scopes, mutations, connections and their states, and the
normal forms of the slugs they are compared by.
-/

namespace Wiii.Connect

inductive ScopeName where
  | read
  | preview
  | write
  | apply
  | admin
  deriving DecidableEq

inductive ActionMutation where
  | read
  | preview
  | write
  | apply
  | admin
  deriving DecidableEq

/-- `_required_scope_for_mutation`. -/
def requiredScopeForMutation : ActionMutation → ScopeName
  | .admin => .admin
  | .apply => .apply
  | .write => .write
  | .preview => .preview
  | .read => .read

structure ScopeGrant where
  read : Bool := false
  preview : Bool := false
  write : Bool := false
  apply : Bool := false
  admin : Bool := false
  deriving DecidableEq

def ScopeGrant.allows (grant : ScopeGrant) : ScopeName → Bool
  | .read => grant.read
  | .preview => grant.preview
  | .write => grant.write
  | .apply => grant.apply
  | .admin => grant.admin

inductive ConnectionState where
  | disconnected
  | authorizing
  | waiting
  | connected
  | expired
  | error
  | disabled
  deriving DecidableEq

structure VaultSecretRef where
  providerSlug : String
  connectionId : String
  vaultKeyId : String
  secretVersion : String := ""
  deriving DecidableEq

structure ConnectionRecord where
  connectionId : String
  providerSlug : String
  state : ConnectionState := .disconnected
  scopes : ScopeGrant := {}
  vaultRef : Option VaultSecretRef := none
  accountLabel : String := ""
  externalAccountRef : String := ""
  lastCheckedAt : Option ℤ := none
  reason : String := ""
  warnings : List String := []
  deriving DecidableEq

def ConnectionRecord.active (connection : ConnectionRecord) : Bool := decide (connection.state = .connected)

/-- `str(value or "").strip().lower().replace("-", "_")`. -/
def normalizeProviderSlug (table : CaseTable) (slug : String) : String :=
  PyText.replace '-' '_' (PyText.lower table (PyText.strip slug))

/-- `str(value or "").strip().upper().replace("-", "_")`. -/
def normalizeActionSlug (table : CaseTable) (slug : String) : String :=
  PyText.replace '-' '_' (PyText.upper table (PyText.strip slug))

end Wiii.Connect
