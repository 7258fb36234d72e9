import Wiii.Connect.ExecuteRoute

/-!
# What guards a mutation

The execute route trusts no authorization of the client, so a request that claims `write`, `apply` or `admin` never
reaches the provider.  A request that claims less is checked for less, whatever the catalog says of its action.
-/

namespace Wiii.Connect

/-! ## Which classes have a scope -/

theorem mem_registry_of_getProviderEntry {table : CaseTable} {slug : String} {entry : ProviderEntry}
    (h : getProviderEntry table slug = some entry) : entry ∈ providerRegistry := by
  unfold getProviderEntry at h
  dsimp only at h
  split_ifs at h
  exact List.mem_of_find?_eq_some h

theorem defaultScopes_of_mem_registry {entry : ProviderEntry} (h : entry ∈ providerRegistry) :
    entry.defaultScopes = {} := by
  simp only [providerRegistry, List.mem_cons, List.not_mem_nil, or_false] at h
  rcases h with rfl | rfl | rfl | rfl | rfl | rfl | rfl | rfl | rfl <;> rfl

theorem defaultScopes_connectEnabledEntry (config : ComposioConfig) (entry : ProviderEntry) :
    (config.connectEnabledEntry entry).defaultScopes = entry.defaultScopes := by
  unfold ComposioConfig.connectEnabledEntry
  dsimp only
  split_ifs <;> rfl

theorem defaultScopes_executionEnabledEntry (lowerTable upperTable : CaseTable) (config : ComposioConfig)
    {entry : ProviderEntry} (h : entry ∈ providerRegistry) :
    (config.executionEnabledEntry lowerTable upperTable entry).defaultScopes.write = false ∧
      (config.executionEnabledEntry lowerTable upperTable entry).defaultScopes.admin = false := by
  have hconnect : (config.connectEnabledEntry entry).defaultScopes = {} :=
    (defaultScopes_connectEnabledEntry config entry).trans (defaultScopes_of_mem_registry h)
  unfold ComposioConfig.executionEnabledEntry
  dsimp only
  split_ifs <;> simp [hconnect]

def ExecuteOutcome.call? : ExecuteOutcome → Option HandedCall
  | .handed call => some call
  | _ => none

namespace ExecuteEnvironment

variable {env : ExecuteEnvironment}

theorem authorization_not_verified (body : ExecutionRunBody) : (env.authorization body).status ≠ .verified := by
  unfold authorization resolveActionAuthorization
  dsimp only
  split_ifs with hmutating hverified
  · simp
  · cases hverified
  · simp

theorem entry_plan (entry : ProviderEntry) (body : ExecutionRunBody) :
    (env.plan entry body).entry = env.config.executionEnabledEntry env.lowerTable env.upperTable entry := by
  simp only [plan]

theorem approvalTokenPresent_plan (entry : ProviderEntry) (body : ExecutionRunBody) :
    (env.plan entry body).approvalTokenPresent = (env.authorization body).trustedApprovalTokenPresent := by
  simp only [plan]

theorem not_trusted (body : ExecutionRunBody) :
    (env.authorization body).trustedApprovalTokenPresent = false := by
  unfold authorization resolveActionAuthorization
  dsimp only
  split_ifs with hmutating hverified
  · rfl
  · cases hverified
  · rfl

/-! ## What reaches the provider -/

variable (env)

structure Passes (plan : BackendActionPlan) : Prop where
  selected : plan.connectionSelectionRequired = false
  executable : ∃ connection, plan.connection = some connection ∧
    Executable env.upperTable plan.entry connection (env.buildExecutionRequest plan)
  policy : scopePolicyAllows env.lowerTable plan.entry (env.buildExecutionRequest plan) = true
  adapter : env.config.capability.Ready plan.entry
  audited : env.auditPersistent = true
  schema : ∃ requiredKeys, env.schema plan = .ok requiredKeys ∧
    missingRequiredArgumentKeys env.lowerTable requiredKeys plan.arguments = []

def callOf (plan : BackendActionPlan) : HandedCall :=
  { providerSlug := plan.entry.slug
    actionSlug := (env.buildExecutionRequest plan).actionSlug
    connectedAccountId := (plan.connection.map ConnectionRecord.connectionId).getD ""
    arguments := plan.arguments
    gateway := env.gateway plan }

variable {env}

theorem executeBackendAction_handed_iff {plan : BackendActionPlan} {call : HandedCall} :
    env.executeBackendAction plan = .handed call ↔ env.Passes plan ∧ call = env.callOf plan := by
  unfold executeBackendAction preflight
  constructor
  · intro h
    by_cases hgateway : (env.gateway plan).allowed = false
    · rw [if_pos hgateway] at h
      cases h
    · rw [if_neg hgateway] at h
      have hallowed : (env.gateway plan).allowed = true := by simpa using hgateway
      have hgate := decideExecutionGateway_allowed_iff.1 hallowed
      cases hschema : env.schema plan with
      | error reason => simp [hschema, Except.mapError] at h
      | ok requiredKeys =>
        simp only [hschema, Except.mapError] at h
        split_ifs at h with hmissing
        cases h
        exact ⟨⟨hgate.1, hgate.2.1, hgate.2.2.1, hgate.2.2.2.1, hgate.2.2.2.2, requiredKeys, hschema,
          not_not.1 hmissing⟩, rfl⟩
  · rintro ⟨h, rfl⟩
    have hallowed : (env.gateway plan).allowed = true :=
      decideExecutionGateway_allowed_iff.2 ⟨h.selected, h.executable, h.policy, h.adapter, h.audited⟩
    obtain ⟨requiredKeys, hschema, hmissing⟩ := h.schema
    rw [if_neg (by simp [hallowed]), hschema]
    simp only [Except.mapError]
    rw [if_neg (not_not.2 hmissing)]
    rfl

theorem Passes.scope {plan : BackendActionPlan} (h : env.Passes plan) :
    plan.entry.defaultScopes.allows (requiredScopeForMutation plan.mutation) = true := by
  have hpolicy := h.policy
  rw [scopePolicyAllows, Bool.and_eq_true] at hpolicy
  exact hpolicy.2

theorem Passes.approval {plan : BackendActionPlan} (h : env.Passes plan) (happly : plan.mutation = .apply) :
    plan.approvalTokenPresent = true := by
  obtain ⟨connection, -, hexecutable⟩ := h.executable
  exact hexecutable.approval happly

theorem Passes.claimed {plan : BackendActionPlan} (h : env.Passes plan)
    (hwrite : plan.entry.defaultScopes.write = false) (hadmin : plan.entry.defaultScopes.admin = false)
    (htrusted : plan.approvalTokenPresent = false) : plan.mutation.mutating = false := by
  have hscope := h.scope
  cases hclaimed : plan.mutation with
  | read => rfl
  | preview => rfl
  | write =>
    rw [hclaimed] at hscope
    exact absurd (hwrite.symm.trans hscope) (by decide)
  | admin =>
    rw [hclaimed] at hscope
    exact absurd (hadmin.symm.trans hscope) (by decide)
  | apply => exact absurd (htrusted.symm.trans (h.approval hclaimed)) (by decide)

/-! ## The guard -/

variable (env)

/-- The scope that the catalog's class needs was checked, and the backend verified an approval. -/
def Guarded (body : ExecutionRunBody) (call : HandedCall) : Prop :=
  ∀ curated, getCuratedAction env.lowerTable env.upperTable call.providerSlug call.actionSlug = some curated →
    curated.mutation.mutating = true →
      requiredScopeForMutation curated.mutation ∈ call.gateway.requiredScopes ∧
        (env.authorization body).status = .verified ∧ (env.authorization body).trustedApprovalTokenPresent = true

/-- The catalog gives a mutation, the client claims none, and the checks of the claim pass. -/
structure ClassLowered (plan : BackendActionPlan) : Prop where
  mutating : ∃ curated, getCuratedAction env.lowerTable env.upperTable plan.entry.slug
    (env.buildExecutionRequest plan).actionSlug = some curated ∧ curated.mutation.mutating = true
  claimed : plan.mutation.mutating = false
  passes : env.Passes plan

variable {env}

theorem guarded_iff {slug : String} {body : ExecutionRunBody} :
    (∀ call, env.executeProviderAction slug body = .handed call → env.Guarded body call) ↔
      ¬∃ entry, getProviderEntry env.lowerTable slug = some entry ∧ env.ClassLowered (env.plan entry body) := by
  constructor
  · rintro hguarded ⟨entry, hentry, hlowered⟩
    obtain ⟨curated, hcurated, hmutating⟩ := hlowered.mutating
    have hhanded : env.executeProviderAction slug body = .handed (env.callOf (env.plan entry body)) := by
      rw [executeProviderAction, hentry]
      exact executeBackendAction_handed_iff.2 ⟨hlowered.passes, rfl⟩
    exact authorization_not_verified body (hguarded _ hhanded curated hcurated hmutating).2.1
  · intro hlowered call hcall curated hcurated hmutating
    rw [executeProviderAction] at hcall
    cases hentry : getProviderEntry env.lowerTable slug with
    | none => simp [hentry] at hcall
    | some entry =>
      rw [hentry] at hcall
      obtain ⟨hpasses, rfl⟩ := executeBackendAction_handed_iff.1 hcall
      have hscopes := defaultScopes_executionEnabledEntry env.lowerTable env.upperTable env.config
        (mem_registry_of_getProviderEntry hentry)
      rw [← entry_plan entry body] at hscopes
      have htrusted : (env.plan entry body).approvalTokenPresent = false :=
        (approvalTokenPresent_plan entry body).trans (not_trusted body)
      have hclaimed := hpasses.claimed hscopes.1 hscopes.2 htrusted
      exact absurd ⟨entry, rfl, ⟨curated, hcurated, hmutating⟩, hclaimed, hpasses⟩ (hentry ▸ hlowered)

/-! ## A post that is claimed to be read -/

/-- Posts may be created with an approval, and the connection has the scope to read only. -/
def postingEnvironment : ExecuteEnvironment :=
  { lowerTable := fun c => [c]
    upperTable := fun c => [c]
    hexdigest := fun _ => "0123456789abcdef01234567"
    config :=
      { enabled := true
        apiKeyPresent := true
        applyExecuteEnabled := true
        applyAllowlist := [("facebook", ["FACEBOOK_CREATE_POST"])] }
    persistent := true
    connectionTableReady := true
    auditLedgerReady := true
    database :=
      { connections := (∅ : Table ConnectionRow.id).upsert
          { id := "ca_facebook"
            owner := ⟨"org", "user"⟩
            providerSlug := "facebook"
            providerKind := "composio"
            state := .connected
            scopes := { read := true }
            vaultRef := none
            accountLabel := ""
            externalAccountRef := ""
            reason := ""
            warnings := []
            updatedAt := 0
            lastCheckedAt := none
            lastUsedAt := none } }
    organizationId := "org"
    userId := "user"
    schemaResponse := .data ⟨some "FACEBOOK_CREATE_POST", "facebook", true, ["message"], ["message"]⟩ }

def postingBody : ExecutionRunBody :=
  { connectionRef := some "wcn_0123456789abcdef01234567"
    actionSlug := "FACEBOOK_CREATE_POST"
    mutation := "read"
    arguments := [("message", .str "hello")] }

theorem not_guarded_of_claimed_read :
    ¬∀ call, postingEnvironment.executeProviderAction "facebook" postingBody = .handed call →
      postingEnvironment.Guarded postingBody call := by
  intro hguarded
  have hcall : (postingEnvironment.executeProviderAction "facebook" postingBody).call?.map
      (fun call => (call.providerSlug, call.actionSlug, call.gateway)) =
        some ("facebook", "FACEBOOK_CREATE_POST", ⟨.allowed, [.read]⟩) := by decide +kernel
  cases houtcome : postingEnvironment.executeProviderAction "facebook" postingBody with
  | unknownProvider => simp [houtcome, ExecuteOutcome.call?] at hcall
  | blocked reason => simp [houtcome, ExecuteOutcome.call?] at hcall
  | handed call =>
    simp only [houtcome, ExecuteOutcome.call?, Option.map_some, Option.some.injEq, Prod.mk.injEq] at hcall
    obtain ⟨hprovider, haction, hgateway⟩ := hcall
    have hscope := (hguarded call houtcome ⟨"FACEBOOK_CREATE_POST", "facebook", .apply⟩
      (by rw [hprovider, haction]; decide +kernel) rfl).1
    rw [hgateway] at hscope
    exact absurd hscope (by decide)

end ExecuteEnvironment

end Wiii.Connect
