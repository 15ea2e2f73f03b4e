import SynapsorRunner.ApprovalPolicies

/-!
Trusted contexts: the contexts that contracts declare, how the runtime merges them by
name into its config, and how `resolveTrustedContext` takes the tenant and the
principal of a call from them.

A context has one provider, chosen by a precedence among the sources of its bindings,
and the first declaration of a name stands. A binding of the provider's source is
followed to its key (`takenFrom_of_resolved`); the names of verified claims are those
of the session verification, not those of the bindings.
-/
namespace SynapsorRunner.TrustedContexts
open SynapsorRunner.Protocol SynapsorRunner.Proposals SynapsorRunner.ApprovalPolicies

/-! ### Texts -/

/-- The characters that `trim` takes away. -/
def isBlank (c : Char) : Bool :=
  decide ((9 ≤ c.toNat ∧ c.toNat ≤ 13) ∨ (0x2000 ≤ c.toNat ∧ c.toNat ≤ 0x200a) ∨
    c.toNat ∈ [0x20, 0xa0, 0x1680, 0x2028, 0x2029, 0x202f, 0x205f, 0x3000, 0xfeff])

def trim (s : String) : String := String.ofList ((s.toList.dropWhile isBlank).reverse.dropWhile isBlank).reverse

/-- A text that is there and not empty. -/
def truthy (s : Option String) : Option String := s.filter nonEmpty

/-! ### Contracts -/

inductive BindingSource where
  | session
  | environment
  | cloudSession
  | staticDev
  | httpClaim
  | reviewedOrganization
  deriving DecidableEq, Repr

structure ContextBinding where
  name : String
  source : BindingSource
  key : String
  deriving DecidableEq, Repr

structure AgentContext where
  name : String
  bindings : List ContextBinding
  tenantBinding : Option String
  principalBinding : Option String

/-- A capability with the organization that its protected read freezes, if it has
    one, and the principal keys of its protected relationships. -/
structure ContextCapability where
  name : String
  context : Option String
  principalScopeKey : Option String
  organizationId : Option String
  relationshipKeys : List String

structure ContextContract where
  contexts : List AgentContext
  capabilities : List ContextCapability

def validateContext (contract : ContextContract) (context : AgentContext) (index : Nat) : List ValidationIssue :=
  let path := indexed "$.contexts" index
  issueUnless (((contract.contexts.take index).map (·.name)).all (· != context.name)) (path ++ ".name")
    "DUPLICATE_CONTEXT_NAME" ("Duplicate name: " ++ context.name) ++
  (context.bindings.zipIdx.flatMap fun (binding, bindingIndex) =>
    let bindingPath := indexed (path ++ ".bindings") bindingIndex
    issueUnless (((context.bindings.take bindingIndex).map (·.name)).all (· != binding.name)) (bindingPath ++ ".name")
      "DUPLICATE_BINDING_NAME" ("Duplicate name: " ++ binding.name) ++
    issueUnless (safeIdentifier binding.name) (bindingPath ++ ".name") "INVALID_BINDING_NAME"
      "binding name must be a safe identifier." ++
    issueUnless (trim binding.key != "") (bindingPath ++ ".key") "INVALID_BINDING_KEY"
      "binding key must be a non-empty string.") ++
  issueUnless (context.tenantBinding.all ((context.bindings.map (·.name)).contains ·)) (path ++ ".tenant_binding")
    "UNKNOWN_CONTEXT_BINDING" "tenant_binding must reference a binding name." ++
  issueUnless (context.principalBinding.all ((context.bindings.map (·.name)).contains ·)) (path ++ ".principal_binding")
    "UNKNOWN_CONTEXT_BINDING" "principal_binding must reference a binding name."

/-- What the validator says of the contexts of a contract and of their use. -/
def validateContexts (contract : ContextContract) : List ValidationIssue :=
  (contract.contexts.zipIdx.flatMap fun (context, index) => validateContext contract context index) ++
  contract.capabilities.zipIdx.flatMap fun (capability, index) =>
    issueUnless ((capability.context.filter fun name => trim name != "").any ((contract.contexts.map (·.name)).contains ·))
      (indexed "$.capabilities" index ++ ".context") "UNKNOWN_CONTEXT" "capability.context must reference a declared context."

/-! ### The config -/

inductive ContextProvider where
  | environment
  | staticDev
  | httpClaims
  | cloudSession
  | reviewedOrganization
  deriving DecidableEq, Repr

def ContextProvider.text : ContextProvider → String
  | .environment => "environment"
  | .staticDev => "static_dev"
  | .httpClaims => "http_claims"
  | .cloudSession => "cloud_session"
  | .reviewedOrganization => "reviewed_organization"

/-- The values of a context that are strings. -/
structure ContextValues where
  tenantId : Option String
  organizationId : Option String
  tenantIdEnv : Option String
  tenantIdKey : Option String
  principal : Option String
  principalEnv : Option String
  principalIdEnv : Option String
  principalKey : Option String

def ContextValues.none : ContextValues := ⟨.none, .none, .none, .none, .none, .none, .none, .none⟩

structure RuntimeContext where
  provider : ContextProvider
  values : ContextValues
  tenantBinding : Option String
  principalBinding : Option String

structure SessionAuth where
  tenantClaim : Option String
  principalClaim : Option String

structure ContextConfig where
  trustedContext : Option RuntimeContext
  contexts : KeyedMap String RuntimeContext
  capabilities : List ContextCapability
  sessionAuth : Option SessionAuth
  singleOrganizationId : Option String
  requiredScopes : List String

inductive ConfigError where
  | sessionBindingUnsupported (context binding : String)
  | bindingUnsupported (context : String)
  | duplicateCapability (name : String)
  deriving DecidableEq

/-! ### Merging -/

def bindingNamed (context : AgentContext) (declared : Option String) (default : String) : Option ContextBinding :=
  (declared.bind fun name => context.bindings.find? fun binding => binding.name == name).or
    (context.bindings.find? fun binding => binding.name == default)

def hasSource (context : AgentContext) (source : BindingSource) : Bool :=
  context.bindings.any fun binding => binding.source == source

/-- The provider of a context, by precedence among the sources of its bindings. -/
def providerOf (context : AgentContext) : Option ContextProvider :=
  if hasSource context .environment then some .environment
  else if hasSource context .cloudSession then some .cloudSession
  else if hasSource context .httpClaim then some .httpClaims
  else if hasSource context .staticDev then some .staticDev
  else if hasSource context .reviewedOrganization then some .reviewedOrganization
  else none

def valuesFromSpec (context : AgentContext) : ContextValues :=
  let tenantBinding := bindingNamed context context.tenantBinding "tenant_id"
  let principalBinding := bindingNamed context context.principalBinding "principal"
  let ofPrincipal : ContextValues :=
    { ContextValues.none with principalEnv := principalBinding.map (·.key), principalKey := principalBinding.map (·.key) }
  match tenantBinding with
  | none => ofPrincipal
  | some binding =>
    if binding.source = .reviewedOrganization then
      { ofPrincipal with tenantId := some binding.key, organizationId := some binding.key }
    else { ofPrincipal with tenantIdEnv := some binding.key, tenantIdKey := some binding.key }

def runtimeContextFromSpec (context : AgentContext) : Except ConfigError RuntimeContext :=
  match context.bindings.find? fun binding => binding.source == .session with
  | some binding => .error (.sessionBindingUnsupported context.name binding.name)
  | none => match providerOf context with
    | none => .error (.bindingUnsupported context.name)
    | some provider => .ok ⟨provider, valuesFromSpec context, context.tenantBinding, context.principalBinding⟩

/-- `config.contexts[context.name] ??= runtimeContextFromSpec(context)` for each context. -/
def mergeContexts (contexts : KeyedMap String RuntimeContext) :
    List AgentContext → Except ConfigError (KeyedMap String RuntimeContext)
  | [] => .ok contexts
  | context :: rest =>
    if contexts.contains context.name || objectPrototype.contains context.name then mergeContexts contexts rest
    else do
      let runtimeContext ← runtimeContextFromSpec context
      mergeContexts (contexts.set context.name runtimeContext) rest

def rememberCapabilityNames (seen : List String) : List ContextCapability → Except ConfigError (List String)
  | [] => .ok seen
  | capability :: rest =>
    if capability.name ∈ seen then .error (.duplicateCapability capability.name)
    else rememberCapabilityNames (seen ++ [capability.name]) rest

/-- The context that stands for the whole config when a contract has only one. -/
def defaultContext (current : Option RuntimeContext) : List AgentContext → Except ConfigError (Option RuntimeContext)
  | [context] => if current.isNone then do
      let runtimeContext ← runtimeContextFromSpec context
      pure (some runtimeContext)
    else .ok current
  | _ => .ok current

def mergeContractIntoRuntimeConfig (config : ContextConfig) (seen : List String) (contract : ContextContract) :
    Except ConfigError (ContextConfig × List String) := do
  let contexts ← mergeContexts config.contexts contract.contexts
  let trustedContext ← defaultContext config.trustedContext contract.contexts
  let seen ← rememberCapabilityNames seen contract.capabilities
  pure ({ config with contexts, trustedContext, capabilities := config.capabilities ++ contract.capabilities }, seen)

def mergeContracts (config : ContextConfig) (seen : List String) : List ContextContract → Except ConfigError ContextConfig
  | [] => .ok config
  | contract :: rest => do
    let (merged, names) ← mergeContractIntoRuntimeConfig config seen contract
    mergeContracts merged names rest

/-- `resolveRuntimeConfig` of a config and the contracts that it lists. -/
def resolveRuntimeConfig (config : ContextConfig) (contracts : List ContextContract) : Except ConfigError ContextConfig := do
  let seen ← rememberCapabilityNames [] config.capabilities
  mergeContracts config seen contracts

/-! ### What merging keeps -/

theorem mergeContexts_keeps {contexts merged : KeyedMap String RuntimeContext} {declared : List AgentContext}
    (ran : mergeContexts contexts declared = .ok merged) {name : String} {runtimeContext : RuntimeContext}
    (found : contexts.get? name = some runtimeContext) : merged.get? name = some runtimeContext := by
  induction declared generalizing contexts with
  | nil =>
    cases ran
    exact found
  | cons context rest ih =>
    simp only [mergeContexts] at ran
    split at ran
    · exact ih ran found
    · rename_i new
      obtain ⟨_, _, ran⟩ := bind_eq_ok ran
      refine ih ran ?_
      rw [KeyedMap.get?_set, if_neg, found]
      rintro rfl
      exact new (by simp [KeyedMap.contains, found])

/-- The first declaration of a name stands. -/
theorem mergeContexts_first {contexts merged : KeyedMap String RuntimeContext} {before after : List AgentContext}
    {context : AgentContext} (ran : mergeContexts contexts (before ++ context :: after) = .ok merged)
    (absent : contexts.get? context.name = none) (others : ∀ other ∈ before, other.name ≠ context.name)
    (own : context.name ∉ objectPrototype) :
    ∃ runtimeContext, runtimeContextFromSpec context = .ok runtimeContext ∧
      merged.get? context.name = some runtimeContext := by
  induction before generalizing contexts with
  | nil =>
    simp only [List.nil_append, mergeContexts] at ran
    split at ran
    · rename_i taken
      simp [KeyedMap.contains, absent, own] at taken
    · obtain ⟨runtimeContext, made, ran⟩ := bind_eq_ok ran
      exact ⟨runtimeContext, made, mergeContexts_keeps ran (by rw [KeyedMap.get?_set, if_pos rfl])⟩
  | cons first rest ih =>
    simp only [List.cons_append, mergeContexts] at ran
    split at ran
    · exact ih ran absent fun other member => others other (List.mem_cons_of_mem _ member)
    · obtain ⟨_, _, ran⟩ := bind_eq_ok ran
      refine ih ran ?_ fun other member => others other (List.mem_cons_of_mem _ member)
      rw [KeyedMap.get?_set, if_neg (fun same => others first (List.mem_cons_self ..) same.symm), absent]

theorem mergeContracts_keeps {config merged : ContextConfig} {seen : List String} {contracts : List ContextContract}
    (ran : mergeContracts config seen contracts = .ok merged) {name : String} {runtimeContext : RuntimeContext}
    (found : config.contexts.get? name = some runtimeContext) : merged.contexts.get? name = some runtimeContext := by
  induction contracts generalizing config seen with
  | nil =>
    cases ran
    exact found
  | cons contract rest ih =>
    obtain ⟨⟨next, names⟩, step, ran⟩ := bind_eq_ok ran
    obtain ⟨contexts, merging, step⟩ := bind_eq_ok step
    obtain ⟨_, _, step⟩ := bind_eq_ok step
    obtain ⟨_, _, step⟩ := bind_eq_ok step
    cases step
    exact ih ran (mergeContexts_keeps merging found)

theorem mergeContexts_absent {contexts merged : KeyedMap String RuntimeContext} {declared : List AgentContext}
    (ran : mergeContexts contexts declared = .ok merged) {name : String} (absent : contexts.get? name = none)
    (others : ∀ other ∈ declared, other.name ≠ name) : merged.get? name = none := by
  induction declared generalizing contexts with
  | nil =>
    cases ran
    exact absent
  | cons context rest ih =>
    have later : ∀ other ∈ rest, other.name ≠ name := fun other member => others other (List.mem_cons_of_mem _ member)
    simp only [mergeContexts] at ran
    split at ran
    · exact ih ran absent later
    · obtain ⟨_, _, ran⟩ := bind_eq_ok ran
      refine ih ran ?_ later
      rw [KeyedMap.get?_set, if_neg (fun same => others context (List.mem_cons_self ..) same.symm), absent]

/-- A context is declared before anything else of its name. -/
def DeclaredFirst (config : ContextConfig) (before : List ContextContract) (context : AgentContext) : Prop :=
  context.name ∉ config.contexts.keys ∧ ∀ contract ∈ before, ∀ other ∈ contract.contexts, other.name ≠ context.name

/-- The resolved config has under the name of a context what its first declaration
    says. -/
theorem mergeContracts_first {config merged : ContextConfig} {seen : List String} {before after : List ContextContract}
    {contract : ContextContract} (ran : mergeContracts config seen (before ++ contract :: after) = .ok merged)
    {earlier later : List AgentContext} {context : AgentContext} (declared : contract.contexts = earlier ++ context :: later)
    (others : ∀ other ∈ earlier, other.name ≠ context.name) (first : DeclaredFirst config before context)
    (own : context.name ∉ objectPrototype) :
    ∃ runtimeContext, runtimeContextFromSpec context = .ok runtimeContext ∧
      merged.contexts.get? context.name = some runtimeContext := by
  induction before generalizing config seen with
  | nil =>
    obtain ⟨⟨next, names⟩, step, ran⟩ := bind_eq_ok ran
    obtain ⟨contexts, merging, step⟩ := bind_eq_ok step
    obtain ⟨_, _, step⟩ := bind_eq_ok step
    obtain ⟨_, _, step⟩ := bind_eq_ok step
    cases step
    rw [declared] at merging
    obtain ⟨runtimeContext, made, found⟩ :=
      mergeContexts_first merging (KeyedMap.get?_eq_none.mpr first.1) others own
    exact ⟨runtimeContext, made, mergeContracts_keeps ran found⟩
  | cons head rest ih =>
    obtain ⟨⟨next, names⟩, step, ran⟩ := bind_eq_ok ran
    obtain ⟨contexts, merging, step⟩ := bind_eq_ok step
    obtain ⟨_, _, step⟩ := bind_eq_ok step
    obtain ⟨_, _, step⟩ := bind_eq_ok step
    cases step
    refine ih ran ⟨KeyedMap.get?_eq_none.mp ?_, fun contract member => first.2 contract (List.mem_cons_of_mem _ member)⟩
    exact mergeContexts_absent merging (KeyedMap.get?_eq_none.mpr first.1) (first.2 head (List.mem_cons_self ..))

/-! ### Resolution -/

structure TrustedContext where
  tenantId : String
  principal : String
  provenance : ContextProvider
  deriving DecidableEq, Repr

structure ContextError where
  code : String
  message : String
  deriving DecidableEq, Repr

def check (holds : Prop) [Decidable holds] (code message : String) : Except ContextError Unit :=
  if holds then .ok () else .error ⟨code, message⟩

@[simp] theorem check_ok_iff {holds : Prop} [Decidable holds] {code message : String} {u : Unit} :
    check holds code message = .ok u ↔ holds := by
  unfold check
  split <;> simp [*]

abbrev Environment := KeyedMap String String

def envValue (env : Environment) (name : String) : Option String := truthy ((env.get? name).map trim)

def valueFromEnvOrLiteral (envName literal : Option String) (env : Environment) : Option String :=
  (envName.bind (envValue env)).or (truthy (literal.map trim))

/-- Both texts are there, and they differ. -/
def differ (a b : Option String) : Prop := ∃ x ∈ a, ∃ y ∈ b, x ≠ y

instance (a b : Option String) : Decidable (differ a b) := inferInstanceAs (Decidable (∃ x ∈ a, ∃ y ∈ b, x ≠ y))

/-- The context of a call: one of the config, or a name that every object inherits. -/
inductive FoundContext where
  | declared (context : RuntimeContext)
  | inherited

def contextOf (config : ContextConfig) (capability : Option ContextCapability) : Option FoundContext :=
  match truthy (capability.bind (·.context)) with
  | none => config.trustedContext.map .declared
  | some name => match config.contexts.get? name with
    | some context => some (.declared context)
    | none => if name ∈ objectPrototype then some .inherited else config.trustedContext.map .declared

def principalRequired (context : RuntimeContext) (capability : Option ContextCapability) : Bool :=
  (truthy context.principalBinding).isSome || (truthy (capability.bind (·.principalScopeKey))).isSome ||
    (capability.any fun capability => capability.relationshipKeys.any nonEmpty) || context.values.principalEnv.isSome ||
    context.values.principalIdEnv.isSome || context.values.principal.isSome

def configuredOrganization (values : ContextValues) : Option String :=
  match values.organizationId with
  | some organization => some (trim organization)
  | none => values.tenantId.map trim

def capabilityName (capability : Option ContextCapability) : String :=
  (capability.map (·.name)).getD "(unknown)"

def resolveEnvironment (values : ContextValues) (organization : Option String) (required : Bool) (name : String)
    (env : Environment) : Except ContextError TrustedContext := do
  let tenantEnv := values.tenantIdEnv.getD "SYNAPSOR_TENANT_ID"
  let principalEnv := values.principalEnv.getD "SYNAPSOR_PRINCIPAL"
  let environmentTenant :=
    if (truthy organization).isSome ∧ values.tenantIdEnv.isNone then none else envValue env tenantEnv
  check (¬ differ (truthy organization) environmentTenant) "TRUSTED_ORGANIZATION_MISMATCH"
    (tenantEnv ++ " does not match the organization frozen into protected capability " ++ name ++ ".")
  let tenant := truthy (organization.or environmentTenant)
  let principal := envValue env principalEnv
  check (tenant.isSome ∧ (required = true → principal.isSome)) "TRUSTED_BINDING_MISSING"
    (if required then tenantEnv ++ " and " ++ principalEnv ++ " must be set." else tenantEnv ++ " must be set.")
  pure ⟨tenant.getD "", principal.getD "", .environment⟩

def resolveStatic (values : ContextValues) (organization : Option String) (required : Bool) (name : String)
    (env : Environment) : Except ContextError TrustedContext := do
  let configuredTenant := valueFromEnvOrLiteral values.tenantIdEnv values.tenantId env
  check (¬ differ (truthy organization) configuredTenant) "TRUSTED_ORGANIZATION_MISMATCH"
    ("The static trusted context does not match the organization frozen into protected capability " ++ name ++ ".")
  let tenant := truthy (organization.or configuredTenant)
  let principal := valueFromEnvOrLiteral values.principalEnv values.principal env
  check (tenant.isSome ∧ (required = true → principal.isSome)) "TRUSTED_BINDING_MISSING"
    (if required then "static_dev trusted_context requires tenant_id/principal values or env bindings."
      else "static_dev trusted_context requires a tenant_id value or env binding.")
  pure ⟨tenant.getD "", principal.getD "", .staticDev⟩

def resolveSession (provider : ContextProvider) (organization : Option String) (required : Bool) (name : String)
    (session : Option TrustedContext) : Except ContextError TrustedContext :=
  match session.filter fun session => decide (session.provenance = provider) with
  | none => .error ⟨"TRUSTED_BINDING_MISSING", provider.text ++ " trusted context requires a verified per-session binding."⟩
  | some session => do
    check (required = true → nonEmpty session.principal) "TRUSTED_BINDING_MISSING"
      (provider.text ++ " trusted context requires a verified principal binding.")
    check (¬ differ (truthy organization) (truthy (some session.tenantId))) "TRUSTED_ORGANIZATION_MISMATCH"
      ("The verified session tenant does not match the organization frozen into protected capability " ++ name ++ ".")
    pure { session with tenantId := (truthy organization).getD session.tenantId }

def resolveReviewed (organization : Option String) (required : Bool) : Except ContextError TrustedContext := do
  check (truthy organization).isSome "TRUSTED_ORGANIZATION_AUTHORITY_MISSING"
    "reviewed_organization context requires a protected capability with immutable single-organization authority."
  check (required = false) "TRUSTED_BINDING_MISSING"
    "A principal-scoped protected capability must pair its reviewed organization with a trusted principal provider."
  pure ⟨organization.getD "", "", .reviewedOrganization⟩

/-- The part of `resolveTrustedContext` for a context of the config. -/
def resolveDeclared (context : RuntimeContext) (env : Environment) (capability : Option ContextCapability)
    (session : Option TrustedContext) : Except ContextError TrustedContext := do
  let organization := capability.bind (·.organizationId)
  check (¬ differ (truthy organization) (truthy (configuredOrganization context.values))) "TRUSTED_ORGANIZATION_MISMATCH"
    ("Capability " ++ capabilityName capability ++ " is fixed to reviewed organization " ++ organization.getD "" ++
      ", but its runtime context names a different organization.")
  let required := principalRequired context capability
  match context.provider with
  | .environment => resolveEnvironment context.values organization required (capabilityName capability) env
  | .staticDev => resolveStatic context.values organization required (capabilityName capability) env
  | .httpClaims => resolveSession .httpClaims organization required (capabilityName capability) session
  | .cloudSession => resolveSession .cloudSession organization required (capabilityName capability) session
  | .reviewedOrganization => resolveReviewed organization required

def resolveTrustedContext (config : ContextConfig) (env : Environment) (capability : Option ContextCapability)
    (session : Option TrustedContext) : Except ContextError TrustedContext :=
  match contextOf config capability with
  | none => .error ⟨"TRUSTED_CONTEXT_MISSING", match truthy (capability.bind (·.context)) with
      | some context => "Capability " ++ capabilityName capability ++ " references missing trusted context " ++ context ++ "."
      | none => "No trusted_context is configured for this capability."⟩
  | some .inherited =>
    .error ⟨"TRUSTED_CONTEXT_UNSUPPORTED", "undefined trusted context is not available in local stdio mode."⟩
  | some (.declared context) => resolveDeclared context env capability session

/-! ### Verified sessions -/

/-- A claim of a token. A member of a list that is no string is absent. -/
inductive ClaimValue where
  | text (s : String)
  | list (items : List (Option String))
  | other

abbrev Claims := KeyedMap String ClaimValue

def isControl (c : Char) : Bool := decide (c.toNat ≤ 0x1f ∨ c.toNat = 0x7f)

def safeSessionClaim : Option ClaimValue → Option String
  | some (.text s) =>
    if trim s = "" ∨ 128 < stringLength (trim s) ∨ (trim s).toList.any isControl then none else some (trim s)
  | _ => none

def unsafeScope {α : Type} : Except ContextError α := .error ⟨"Error", "JWT scope claim is unsafe"⟩

def scopeWords : Option ClaimValue → Except ContextError (List String)
  | none => .ok []
  | some (.text s) =>
    if stringLength s ≤ 8192 ∧ ¬ s.toList.any isControl then
      .ok (((s.toList.splitOnP isBlank).map String.ofList).filter nonEmpty)
    else unsafeScope
  | some _ => unsafeScope

def scopeList : Option ClaimValue → Except ContextError (List String)
  | none => .ok []
  | some (.list items) =>
    if items.length ≤ 64 ∧ ∀ item ∈ items, item.any fun s =>
        decide (stringLength s ≤ 128) && !s.toList.any fun c => isBlank c || isControl c then
      .ok (items.filterMap id)
    else .error ⟨"Error", "JWT scp claim is unsafe"⟩
  | some _ => .error ⟨"Error", "JWT scp claim is unsafe"⟩

def safeJwtScopes (scope scp : Option ClaimValue) : Except ContextError (List String) := do
  let words ← scopeWords scope
  let items ← scopeList scp
  check ((words ++ items).length ≤ 128 ∧ ∀ value ∈ words ++ items, stringLength value ≤ 128) "Error"
    "JWT scope claim is unsafe"
  pure (words ++ items)

def checkScopes (config : ContextConfig) (claims : Claims) : Except ContextError Unit :=
  if config.requiredScopes = [] then .ok ()
  else do
    let granted ← safeJwtScopes (claims.get? "scope") (claims.get? "scp")
    check (∀ scope ∈ config.requiredScopes, scope ∈ granted) "HTTP_INSUFFICIENT_SCOPE"
      "JWT does not grant the required MCP resource scope."

/-- The claim that gives the tenant, unless the config fixes one organization. -/
def tenantClaim (config : ContextConfig) (auth : SessionAuth) (claims : Claims) : Option String :=
  match truthy config.singleOrganizationId with
  | some organization => safeSessionClaim (some (.text organization))
  | none => safeSessionClaim (claims.get? (auth.tenantClaim.getD "tenant_id"))

def principalClaim (auth : SessionAuth) (claims : Claims) : Option String :=
  safeSessionClaim (claims.get? (auth.principalClaim.getD "sub"))

/-- The verifier checks the signature of a token and gives its claims. -/
def verifySessionJwt (config : ContextConfig) (verifier : String → Except ContextError Claims) (token : String) :
    Except ContextError TrustedContext :=
  match config.sessionAuth with
  | none => .error ⟨"Error", "session auth is not configured"⟩
  | some auth => do
    let claims ← verifier token
    match tenantClaim config auth claims, principalClaim auth claims with
    | some tenant, some principal => do
      checkScopes config claims
      pure ⟨tenant, principal, .httpClaims⟩
    | _, _ => .error ⟨"Error", "JWT trusted context claims are missing or unsafe"⟩

/-- A verified session has the tenant and the principal of the claims that the
    session verification names. -/
theorem verifySessionJwt_ok {config : ContextConfig} {verifier : String → Except ContextError Claims} {token : String}
    {session : TrustedContext} (verified : verifySessionJwt config verifier token = .ok session) :
    ∃ auth claims, config.sessionAuth = some auth ∧ verifier token = .ok claims ∧
      tenantClaim config auth claims = some session.tenantId ∧ principalClaim auth claims = some session.principal := by
  unfold verifySessionJwt at verified
  split at verified
  · cases verified
  · rename_i auth present
    obtain ⟨claims, checked, rest⟩ := bind_eq_ok verified
    refine ⟨auth, claims, present, checked, ?_⟩
    split at rest
    · rename_i tenant principal tenantFound principalFound
      obtain ⟨_, _, rest⟩ := bind_eq_ok rest
      cases rest
      exact ⟨tenantFound, principalFound⟩
    · cases rest

/-! ### Bindings of a valid contract -/

/-- The element of a list that raises no issue, where it stands. -/
theorem no_issue_at {α β : Type} {f : α × Nat → List β} {items : List α} (empty : items.zipIdx.flatMap f = []) {item : α}
    (member : item ∈ items) :
    ∃ index, items = items.take index ++ item :: items.drop (index + 1) ∧ f (item, index) = [] := by
  obtain ⟨index, here⟩ := mem_zipIdx_of_mem member
  refine ⟨index, ?_, List.flatMap_eq_nil_iff.mp empty _ here⟩
  obtain ⟨inside, at'⟩ := List.getElem?_eq_some_iff.mp (List.mem_zipIdx_iff_getElem?.mp here)
  dsimp only at inside at'
  rw [← at', ← List.drop_eq_getElem_cons, List.take_append_drop]

theorem all_ne_iff {names : List String} {name : String} :
    names.all (· != name) = true ↔ ∀ other ∈ names, other ≠ name := by
  simp [List.all_eq_true]

/-- A binding that a valid context names is the one that its name finds. -/
theorem bindingNamed_of_valid {contract : ContextContract} (valid : validateContexts contract = []) {context : AgentContext}
    (declared : context ∈ contract.contexts) {binding : ContextBinding} (member : binding ∈ context.bindings)
    (default : String) : bindingNamed context (some binding.name) default = some binding := by
  obtain ⟨index, _, checked⟩ := no_issue_at (List.append_eq_nil_iff.mp valid).1 declared
  simp only [validateContext, List.append_eq_nil_iff] at checked
  obtain ⟨place, parts, unique⟩ := no_issue_at checked.1.1.2 member
  simp only [List.append_eq_nil_iff, issueUnless_eq_nil, all_ne_iff] at unique
  have found : context.bindings.find? (fun other => other.name == binding.name) = some binding := by
    rw [parts]
    refine List.find?_eq_some_iff_append.mpr ⟨by simp, context.bindings.take place, _, rfl, fun other earlier => ?_⟩
    simpa using unique.1.1 other.name (List.mem_map.mpr ⟨other, earlier, rfl⟩)
  simp only [bindingNamed, Option.bind_some, found, Option.some_or]

/-- The context of a capability of a valid contract, where it stands. -/
theorem context_of_valid {contract : ContextContract} (valid : validateContexts contract = [])
    {capability : ContextCapability} (declares : capability ∈ contract.capabilities) :
    ∃ context ∈ contract.contexts, capability.context = some context.name ∧ truthy capability.context = some context.name ∧
      ∃ earlier later, contract.contexts = earlier ++ context :: later ∧ ∀ other ∈ earlier, other.name ≠ context.name := by
  obtain ⟨contexts, uses⟩ := List.append_eq_nil_iff.mp valid
  obtain ⟨_, _, used⟩ := no_issue_at uses declares
  simp only [issueUnless_eq_nil, Option.any_eq_true, List.contains_iff_mem] at used
  obtain ⟨name, filtered, member⟩ := used
  obtain ⟨named, written⟩ := Option.filter_eq_some_iff.mp filtered
  obtain ⟨context, declared, rfl⟩ := List.mem_map.mp member
  obtain ⟨place, parts, checked⟩ := no_issue_at contexts declared
  simp only [validateContext, List.append_eq_nil_iff, issueUnless_eq_nil, all_ne_iff] at checked
  refine ⟨context, declared, named, ?_, _, _, parts, fun other earlier => ?_⟩
  · rw [truthy, named, Option.filter_some]
    rw [if_pos]
    by_cases empty : context.name = ""
    · rw [empty] at written
      exact absurd written (by decide)
    · simp [nonEmpty, empty]
  · exact checked.1.1.1 other.name (List.mem_map.mpr ⟨other, earlier, rfl⟩)

/-! ### What a binding gives -/

def BindingSource.provider : BindingSource → Option ContextProvider
  | .session => none
  | .environment => some .environment
  | .cloudSession => some .cloudSession
  | .staticDev => some .staticDev
  | .httpClaim => some .httpClaims
  | .reviewedOrganization => some .reviewedOrganization

/-- The tenant as a binding gives it: from the environment variable that its key
    names, from the verified session, or as the reviewed organization. The
    organization that a protected read freezes stands in for a tenant that is not
    set, and for no other. -/
def TenantTaken (env : Environment) (organization : Option String) (session : Option TrustedContext)
    (binding : ContextBinding) (result : TrustedContext) : Prop :=
  match binding.source with
  | .environment | .staticDev =>
    envValue env binding.key = some result.tenantId ∨
      (envValue env binding.key = none ∧ truthy organization = some result.tenantId)
  | .httpClaim | .cloudSession =>
    ∃ verified, session = some verified ∧ some verified.provenance = binding.source.provider ∧
      (verified.tenantId = result.tenantId ∨ (verified.tenantId = "" ∧ truthy organization = some result.tenantId))
  | .reviewedOrganization => truthy organization = some result.tenantId ∧ trim binding.key = result.tenantId
  | .session => False

/-- The principal as a binding gives it. A reviewed organization gives none. -/
def PrincipalTaken (env : Environment) (session : Option TrustedContext) (binding : ContextBinding)
    (result : TrustedContext) : Prop :=
  match binding.source with
  | .environment | .staticDev => envValue env binding.key = some result.principal
  | .httpClaim | .cloudSession =>
    ∃ verified, session = some verified ∧ some verified.provenance = binding.source.provider ∧
      verified.principal = result.principal ∧ nonEmpty result.principal = true
  | .reviewedOrganization | .session => False

theorem truthy_eq_some {s : Option String} {a : String} : truthy s = some a ↔ s = some a ∧ nonEmpty a = true :=
  Option.filter_eq_some_iff

theorem truthy_truthy (s : Option String) : truthy (truthy s) = truthy s := by
  cases s with
  | none => rfl
  | some a => by_cases here : nonEmpty a = true <;> simp [truthy, here]

theorem eq_of_not_differ {a b : Option String} (agree : ¬ differ a b) {x y : String} (left : a = some x) (right : b = some y) :
    x = y := by
  by_contra apart
  exact agree ⟨x, left, y, right, apart⟩

/-- The tenant of a context with a value of its own. -/
theorem tenant_of_value {organization own : Option String} {tenant : String}
    (agree : ¬ differ (truthy organization) own) (written : truthy own = own)
    (found : truthy (organization.or own) = some tenant) :
    own = some tenant ∨ (own = none ∧ truthy organization = some tenant) := by
  cases organization with
  | none =>
    simp only [Option.none_or, written] at found
    exact .inl found
  | some frozen =>
    simp only [Option.some_or] at found
    cases own with
    | none => exact .inr ⟨rfl, found⟩
    | some value => exact .inl (congrArg some (eq_of_not_differ agree found rfl).symm)

theorem resolveEnvironment_ok {values : ContextValues} {organization : Option String} {required : Bool} {name : String}
    {env : Environment} {result : TrustedContext}
    (resolved : resolveEnvironment values organization required name env = .ok result) :
    (∀ key, values.tenantIdEnv = some key → envValue env key = some result.tenantId ∨
      (envValue env key = none ∧ truthy organization = some result.tenantId)) ∧
    (∀ key, values.principalEnv = some key → required = true → envValue env key = some result.principal) := by
  obtain ⟨_, agree, rest⟩ := bind_eq_ok resolved
  obtain ⟨_, given, rest⟩ := bind_eq_ok rest
  cases rest
  obtain ⟨tenantGiven, principalGiven⟩ := check_ok_iff.mp given
  have agree := check_ok_iff.mp agree
  constructor
  · rintro key named
    obtain ⟨tenant, found⟩ := Option.isSome_iff_exists.mp tenantGiven
    simp only [named, Option.isNone_some, Bool.false_eq_true, and_false, if_false, Option.getD_some] at agree found ⊢
    rw [found]
    exact tenant_of_value agree (truthy_truthy _) found
  · rintro key named need
    obtain ⟨principal, found⟩ := Option.isSome_iff_exists.mp (principalGiven need)
    simp only [named, Option.getD_some] at found ⊢
    rw [found, Option.getD_some]

theorem resolveStatic_ok {values : ContextValues} {organization : Option String} {required : Bool} {name : String}
    {env : Environment} {result : TrustedContext}
    (resolved : resolveStatic values organization required name env = .ok result) :
    (∀ key, values.tenantIdEnv = some key → values.tenantId = none → envValue env key = some result.tenantId ∨
      (envValue env key = none ∧ truthy organization = some result.tenantId)) ∧
    (∀ key, values.principalEnv = some key → values.principal = none → required = true →
      envValue env key = some result.principal) := by
  obtain ⟨_, agree, rest⟩ := bind_eq_ok resolved
  obtain ⟨_, given, rest⟩ := bind_eq_ok rest
  cases rest
  obtain ⟨tenantGiven, principalGiven⟩ := check_ok_iff.mp given
  have agree := check_ok_iff.mp agree
  have literal : ∀ key, valueFromEnvOrLiteral (some key) none env = envValue env key := by
    intro key
    simp [valueFromEnvOrLiteral, truthy]
  constructor
  · rintro key named noTenant
    obtain ⟨tenant, found⟩ := Option.isSome_iff_exists.mp tenantGiven
    simp only [named, noTenant, literal] at agree found ⊢
    rw [found]
    exact tenant_of_value agree (truthy_truthy _) found
  · rintro key named noPrincipal need
    obtain ⟨principal, found⟩ := Option.isSome_iff_exists.mp (principalGiven need)
    simp only [named, noPrincipal, literal] at found ⊢
    rw [found, Option.getD_some]

theorem resolveSession_ok {provider : ContextProvider} {organization : Option String} {required : Bool} {name : String}
    {session : Option TrustedContext} {result : TrustedContext}
    (resolved : resolveSession provider organization required name session = .ok result) :
    ∃ verified, session = some verified ∧ verified.provenance = provider ∧
      (verified.tenantId = result.tenantId ∨ (verified.tenantId = "" ∧ truthy organization = some result.tenantId)) ∧
      verified.principal = result.principal ∧ (required = true → nonEmpty result.principal = true) := by
  unfold resolveSession at resolved
  split at resolved
  · cases resolved
  · rename_i verified found
    obtain ⟨present, provenance⟩ := Option.filter_eq_some_iff.mp found
    obtain ⟨_, given, rest⟩ := bind_eq_ok resolved
    obtain ⟨_, agree, rest⟩ := bind_eq_ok rest
    cases rest
    refine ⟨verified, present, of_decide_eq_true provenance, ?_, rfl, check_ok_iff.mp given⟩
    cases frozen : truthy organization with
    | none => exact .inl rfl
    | some tenant =>
      by_cases empty : verified.tenantId = ""
      · exact .inr ⟨empty, by simp⟩
      · have written : truthy (some verified.tenantId) = some verified.tenantId := by simp [truthy, nonEmpty, empty]
        rw [frozen, written] at agree
        exact .inl (eq_of_not_differ (check_ok_iff.mp agree) rfl rfl).symm

theorem resolveReviewed_ok {organization : Option String} {required : Bool} {result : TrustedContext}
    (resolved : resolveReviewed organization required = .ok result) :
    truthy organization = some result.tenantId ∧ required = false := by
  obtain ⟨_, frozen, rest⟩ := bind_eq_ok resolved
  obtain ⟨_, free, rest⟩ := bind_eq_ok rest
  cases rest
  obtain ⟨tenant, found⟩ := Option.isSome_iff_exists.mp (check_ok_iff.mp frozen)
  obtain ⟨here, _⟩ := truthy_eq_some.mp found
  refine ⟨?_, check_ok_iff.mp free⟩
  rw [here] at found ⊢
  exact found

/-- What a context of a contract becomes. -/
theorem runtimeContextFromSpec_ok {context : AgentContext} {runtimeContext : RuntimeContext}
    (made : runtimeContextFromSpec context = .ok runtimeContext) :
    providerOf context = some runtimeContext.provider ∧ runtimeContext.values = valuesFromSpec context ∧
      runtimeContext.principalBinding = context.principalBinding := by
  unfold runtimeContextFromSpec at made
  split at made
  · cases made
  · split at made
    · cases made
    · rename_i provider chosen
      cases made
      exact ⟨chosen, rfl, rfl⟩

/-- The values of a context without literals, but for a reviewed organization. -/
theorem valuesFromSpec_plain (context : AgentContext) : (valuesFromSpec context).principal = none := by
  unfold valuesFromSpec
  dsimp only
  split
  · rfl
  · split <;> rfl

theorem valuesFromSpec_principal {context : AgentContext} {binding : ContextBinding}
    (named : bindingNamed context context.principalBinding "principal" = some binding) :
    (valuesFromSpec context).principalEnv = some binding.key := by
  unfold valuesFromSpec
  dsimp only
  rw [named]
  split
  · rfl
  · split <;> rfl

theorem valuesFromSpec_tenant {context : AgentContext} {binding : ContextBinding}
    (named : bindingNamed context context.tenantBinding "tenant_id" = some binding) :
    (binding.source ≠ .reviewedOrganization →
      (valuesFromSpec context).tenantIdEnv = some binding.key ∧ (valuesFromSpec context).tenantId = none) ∧
    (binding.source = .reviewedOrganization → configuredOrganization (valuesFromSpec context) = some (trim binding.key)) := by
  unfold valuesFromSpec
  dsimp only
  rw [named]
  dsimp only
  constructor
  · intro other
    rw [if_neg other]
    exact ⟨rfl, rfl⟩
  · intro reviewed
    rw [if_pos reviewed]
    rfl

/-- The tenant of a resolved call, by the binding that its context declares. -/
theorem tenantTaken_of_resolved {context : AgentContext} {runtimeContext : RuntimeContext}
    (made : runtimeContextFromSpec context = .ok runtimeContext) {binding : ContextBinding}
    (named : bindingNamed context context.tenantBinding "tenant_id" = some binding) (written : trim binding.key ≠ "")
    (own : binding.source.provider = some runtimeContext.provider) {env : Environment} {capability : ContextCapability}
    {session : Option TrustedContext} {result : TrustedContext}
    (resolved : resolveDeclared runtimeContext env (some capability) session = .ok result) :
    TenantTaken env capability.organizationId session binding result := by
  obtain ⟨_, values, _⟩ := runtimeContextFromSpec_ok made
  obtain ⟨plain, reviewed⟩ := valuesFromSpec_tenant named
  obtain ⟨_, agree, rest⟩ := bind_eq_ok resolved
  have agree := check_ok_iff.mp agree
  rw [values] at agree rest
  unfold TenantTaken
  cases source : binding.source <;> rw [source] at own plain reviewed <;> simp only [BindingSource.provider] at own
  · cases own
  · rw [← Option.some.inj own] at rest
    exact (resolveEnvironment_ok rest).1 _ (plain (by simp)).1
  · rw [← Option.some.inj own] at rest
    obtain ⟨verified, present, provenance, tenant, _⟩ := resolveSession_ok rest
    exact ⟨verified, present, by rw [provenance]; rfl, tenant⟩
  · rw [← Option.some.inj own] at rest
    exact (resolveStatic_ok rest).1 _ (plain (by simp)).1 (plain (by simp)).2
  · rw [← Option.some.inj own] at rest
    obtain ⟨verified, present, provenance, tenant, _⟩ := resolveSession_ok rest
    exact ⟨verified, present, by rw [provenance]; rfl, tenant⟩
  · rw [← Option.some.inj own] at rest
    obtain ⟨frozen, _⟩ := resolveReviewed_ok rest
    have there : truthy (configuredOrganization (valuesFromSpec context)) = some (trim binding.key) := by
      rw [reviewed rfl, truthy, Option.filter_some, if_pos (by simp [nonEmpty, written])]
    exact ⟨frozen, (eq_of_not_differ agree frozen there).symm⟩

/-- The principal of a resolved call, by the binding that its context declares. -/
theorem principalTaken_of_resolved {context : AgentContext} {runtimeContext : RuntimeContext}
    (made : runtimeContextFromSpec context = .ok runtimeContext) {binding : ContextBinding}
    (named : bindingNamed context context.principalBinding "principal" = some binding)
    (own : binding.source.provider = some runtimeContext.provider) {env : Environment} {capability : ContextCapability}
    {session : Option TrustedContext} {result : TrustedContext}
    (resolved : resolveDeclared runtimeContext env (some capability) session = .ok result) :
    PrincipalTaken env session binding result := by
  obtain ⟨_, values, _⟩ := runtimeContextFromSpec_ok made
  have bound := valuesFromSpec_principal named
  have required : principalRequired runtimeContext (some capability) = true := by
    simp [principalRequired, values, bound]
  obtain ⟨_, _, rest⟩ := bind_eq_ok resolved
  rw [values, required] at rest
  unfold PrincipalTaken
  cases source : binding.source <;> rw [source] at own <;> simp only [BindingSource.provider] at own
  · cases own
  · rw [← Option.some.inj own] at rest
    exact (resolveEnvironment_ok rest).2 _ bound rfl
  · rw [← Option.some.inj own] at rest
    obtain ⟨verified, present, provenance, _, same, written⟩ := resolveSession_ok rest
    exact ⟨verified, present, by rw [provenance]; rfl, same, written rfl⟩
  · rw [← Option.some.inj own] at rest
    exact (resolveStatic_ok rest).2 _ bound (valuesFromSpec_plain context) rfl
  · rw [← Option.some.inj own] at rest
    obtain ⟨verified, present, provenance, _, same, written⟩ := resolveSession_ok rest
    exact ⟨verified, present, by rw [provenance]; rfl, same, written rfl⟩
  · rw [← Option.some.inj own] at rest
    cases (resolveReviewed_ok rest).2

/-! ### Merged contracts -/

/-- What a merged config does with the bindings of one context, for a capability that
    is in it. -/
def KeepsBindings (resolved : ContextConfig) (capability : ContextCapability) (context : AgentContext) : Prop :=
  ∃ runtimeContext, runtimeContextFromSpec context = .ok runtimeContext ∧
    contextOf resolved (some capability) = some (.declared runtimeContext) ∧
    ∀ env session result, resolveTrustedContext resolved env (some capability) session = .ok result →
      ∀ binding ∈ context.bindings, binding.source.provider = some runtimeContext.provider →
        (context.tenantBinding = some binding.name → TenantTaken env capability.organizationId session binding result) ∧
        (context.principalBinding = some binding.name → PrincipalTaken env session binding result)

theorem written_key {contract : ContextContract} (valid : validateContexts contract = []) {context : AgentContext}
    (declared : context ∈ contract.contexts) {binding : ContextBinding} (member : binding ∈ context.bindings) :
    trim binding.key ≠ "" := by
  obtain ⟨_, _, checked⟩ := no_issue_at (List.append_eq_nil_iff.mp valid).1 declared
  simp only [validateContext, List.append_eq_nil_iff] at checked
  obtain ⟨_, _, fields⟩ := no_issue_at checked.1.1.2 member
  simp only [List.append_eq_nil_iff, issueUnless_eq_nil] at fields
  simpa using fields.2

/-- For contracts that merge without an error, a capability of a valid contract is
    resolved by the context that its contract declares, when no other declaration of
    the name comes first: a declared tenant or principal binding of the source that
    provides the context is followed to its key. A verified token has the tenant and
    the principal of the claims that the session verification names. -/
theorem merged_contexts_keep_bindings {config resolved : ContextConfig} {before after : List ContextContract}
    {contract : ContextContract} (merged : resolveRuntimeConfig config (before ++ contract :: after) = .ok resolved)
    (valid : validateContexts contract = []) {capability : ContextCapability}
    (declares : capability ∈ contract.capabilities) :
    (∃ context ∈ contract.contexts, capability.context = some context.name ∧
      (DeclaredFirst config before context → context.name ∉ objectPrototype →
        KeepsBindings resolved capability context)) ∧
    ∀ verifier token session, verifySessionJwt resolved verifier token = .ok session →
      ∃ auth claims, resolved.sessionAuth = some auth ∧ verifier token = .ok claims ∧
        tenantClaim resolved auth claims = some session.tenantId ∧ principalClaim auth claims = some session.principal := by
  refine ⟨?_, fun _ _ _ verified => verifySessionJwt_ok verified⟩
  obtain ⟨context, member, used, written, earlier, later, parts, others⟩ := context_of_valid valid declares
  refine ⟨context, member, used, fun first own => ?_⟩
  obtain ⟨_, _, ran⟩ := bind_eq_ok merged
  obtain ⟨runtimeContext, made, found⟩ := mergeContracts_first ran parts others first own
  have here : contextOf resolved (some capability) = some (.declared runtimeContext) := by
    simp only [contextOf, Option.bind_some, written, found]
  refine ⟨runtimeContext, made, here, fun env session result outcome binding bound source => ?_⟩
  simp only [resolveTrustedContext, here] at outcome
  constructor
  · intro tenant
    have named := bindingNamed_of_valid valid member bound "tenant_id"
    rw [← tenant] at named
    exact tenantTaken_of_resolved made named (written_key valid member bound) source outcome
  · intro principal
    have named := bindingNamed_of_valid valid member bound "principal"
    rw [← principal] at named
    exact principalTaken_of_resolved made named source outcome

/-! ### A desk of two contracts -/

/-- A contract whose context binds its tenant and its user. -/
def deskContract (capability : String) (tenant user : BindingSource × String) : ContextContract :=
  ⟨[⟨"desk", [⟨"tenant", tenant.1, tenant.2⟩, ⟨"user", user.1, user.2⟩], some "tenant", some "user"⟩],
    [⟨capability, some "desk", none, none, []⟩]⟩

/-- A config with contexts from contracts only. -/
def contractConfig : ContextConfig := ⟨none, .empty, [], some ⟨none, none⟩, none, []⟩

def claimsDesk : ContextContract := deskContract "desk.read" (.httpClaim, "org_id") (.httpClaim, "sub")

def variablesDesk (capability tenant : String) : ContextContract :=
  deskContract capability (.environment, tenant) (.environment, "DESK_USER")

def mixedDesk : ContextContract := deskContract "desk.read" (.environment, "DESK_TENANT") (.httpClaim, "DESK_USER")

def deskEnvironment : Environment :=
  .ofList [("DESK_TENANT", "acme"), ("SHOP_TENANT", "globex"), ("DESK_USER", "ana")]

/-- A verifier whose tokens all have the same claims. -/
def deskVerifier (_ : String) : Except ContextError Claims :=
  .ok (.ofList [("org_id", .text "acme"), ("tenant_id", .text "globex"), ("sub", .text "ben")])

/-- The tenant and the principal of a call of a capability over merged contracts. -/
def deskCall (contracts : List ContextContract) (capability : String) : Option (String × String) := do
  let resolved ← (resolveRuntimeConfig contractConfig contracts).toOption
  let session ← (verifySessionJwt resolved deskVerifier "token").toOption
  let called ← resolved.capabilities.find? (·.name == capability)
  let context ← (resolveTrustedContext resolved deskEnvironment (some called) (some session)).toOption
  pure (context.tenantId, context.principal)

/-- The tenant of a claim binding is the claim `tenant_id` and not the one of its key;
    a second contract with a context of the same name is resolved by the first; and
    next to an environment binding the key of a claim binding is read as a variable. -/
theorem bindings_not_kept :
    (validateContexts claimsDesk = [] ∧ deskCall [claimsDesk] "desk.read" = some ("globex", "ben")) ∧
    (validateContexts (variablesDesk "shop.read" "SHOP_TENANT") = [] ∧
      deskCall [variablesDesk "desk.read" "DESK_TENANT", variablesDesk "shop.read" "SHOP_TENANT"] "shop.read" =
        some ("acme", "ana")) ∧
    (validateContexts mixedDesk = [] ∧ deskCall [mixedDesk] "desk.read" = some ("acme", "ana")) := by
  decide

/-- The shop alone keeps its bindings. -/
theorem shop_keeps_bindings :
    ∃ resolved, resolveRuntimeConfig contractConfig [variablesDesk "shop.read" "SHOP_TENANT"] = .ok resolved ∧
      ∃ context ∈ (variablesDesk "shop.read" "SHOP_TENANT").contexts,
        KeepsBindings resolved ⟨"shop.read", some "desk", none, none, []⟩ context := by
  obtain ⟨resolved, merged⟩ : ∃ resolved,
      resolveRuntimeConfig contractConfig [variablesDesk "shop.read" "SHOP_TENANT"] = .ok resolved := ⟨_, rfl⟩
  have valid : validateContexts (variablesDesk "shop.read" "SHOP_TENANT") = [] := by decide
  have declares : (⟨"shop.read", some "desk", none, none, []⟩ : ContextCapability) ∈
      (variablesDesk "shop.read" "SHOP_TENANT").capabilities := List.mem_singleton_self _
  have split : [variablesDesk "shop.read" "SHOP_TENANT"] = [] ++ variablesDesk "shop.read" "SHOP_TENANT" :: [] := rfl
  refine ⟨resolved, merged, ?_⟩
  rw [split] at merged
  obtain ⟨⟨context, member, used, keeps⟩, _⟩ := merged_contexts_keep_bindings merged valid declares
  have here : context.name = "desk" := (Option.some.inj used).symm
  refine ⟨context, member, keeps ⟨?_, by simp⟩ ?_⟩
  · simp [contractConfig]
  · rw [here]
    decide

end SynapsorRunner.TrustedContexts
