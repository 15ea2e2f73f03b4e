import SynapsorRunner.Compensation
import SynapsorRunner.JobNormalisation
import SynapsorRunner.ProposalStore

/-!
The local authority of a writeback job: what `verifyLocalWritebackAuthority` compares
of a job with the reviewed capability and with the stored proposal before an adapter
runs it. Of the proposal it compares the hash that the job names, the freshness
digest, the contract and the principal scope; the row, the tenant value and the values
of the patch are compared with nothing (`verify_withValue`), so a proposal for which
any job is accepted has accepted jobs that are not the reviewed change.
-/
namespace SynapsorRunner.WritebackAuthority
open SynapsorRunner.Protocol SynapsorRunner.Proposals SynapsorRunner.Compensation SynapsorRunner.JobNormalisation
open SynapsorRunner.WorkerControl SynapsorRunner.ProposalStore

/-! ### The reviewed config -/

inductive RunnerMode where
  | readOnly
  | shadow
  | review
  | cloud
  deriving DecidableEq

def RunnerMode.text : RunnerMode → String
  | .readOnly => "read_only"
  | .shadow => "shadow"
  | .review => "review"
  | .cloud => "cloud"

inductive CapabilityKind where
  | read
  | aggregateRead
  | proposal
  deriving DecidableEq

inductive CapabilityWriteback where
  | directSql
  | appHandler
  | cloudWorker
  | none
  deriving DecidableEq

structure CapabilityTarget where
  schema : String
  table : String
  primaryKey : Column
  tenantKey : Option Column
  principalScopeKey : Option Column

structure DeduplicationSpec where
  column : Column
  source : DeduplicationSource

structure AggregateBoundSpec where
  column : Column
  measure : AggregateMeasure
  maximum : Rat

/-- `operation` of a proposal capability, its lists empty where they are absent. -/
structure CapabilityOperation where
  kind : RowOperation
  cardinality : Option Cardinality
  maxRows : Option Nat
  deduplication : List DeduplicationSpec
  aggregateBounds : List AggregateBoundSpec
  versionAdvance : Option VersionAdvance

structure RuntimeCapability where
  name : String
  kind : CapabilityKind
  source : String
  context : Option String
  target : CapabilityTarget
  allowedColumns : List Column
  conflictGuardColumn : Option Column
  operation : Option CapabilityOperation
  reversible : Bool
  writebackMode : Option CapabilityWriteback
  executor : Option String
  contractDigest : Option String
  approvalMode : Option String
  approvalPolicy : Option String
  requiredRole : Option String

structure FreshnessDependencyConfig where
  id : String
  capability : String
  versionColumn : Column

structure TrustedContext where
  provider : TrustedScopeProvider
  tenantIdEnv : Option String
  principalEnv : Option String
  tenantId : Option String
  principal : Option String

structure RegisteredOperator where
  publicKeyPath : String
  roles : List String

structure OperatorIdentityConfig where
  provider : OperatorProvider
  operators : KeyedMap String RegisteredOperator
  attestationSecretEnv : Option String

structure RuntimeConfig where
  mode : RunnerMode
  sources : KeyedMap String Engine
  capabilities : List RuntimeCapability
  proposalFreshness : KeyedMap String (List FreshnessDependencyConfig)
  trustedContext : Option TrustedContext
  contexts : KeyedMap String TrustedContext
  operatorIdentity : Option OperatorIdentityConfig

/-! ### The store -/

structure ApprovalProof extends OperatorProof where
  signature : Option String

/-- A row of `approvals` with its identity. -/
structure ApprovalRecord extends StoredApproval where
  identity : Option ApprovalProof
  decisionHash : Option String
  signature : Option String
  integrityHash : Option String

/-- A stored proposal with the contract of its change set. -/
structure ReviewedProposal extends StoredProposal where
  contractDigest : Option String

/-- What the verifier reads of the store. The proofs are those of the events
    `proposal_freshness_checked` that parse. -/
structure AuthorityStore where
  proposals : KeyedMap String ReviewedProposal
  approvals : List ApprovalRecord
  freshnessProofs : List FreshnessProof

/-- What the verifier uses of its runtime: the checks of the config, dates, the
    environment, key files and signatures. -/
structure AuthorityRuntime where
  platform : Platform
  validateRunnerCapabilityConfig : RuntimeConfig → List String
  parseDate : LeaseExpiry → Option Int
  now : Int
  dependencySetDigest : FreshnessAuthority → String
  text : Scalar → String
  trim : String → String
  envValue : String → Option String
  readPublicKey : String → Except String String
  verifySignedOperatorProof : ApprovalProof → String → Bool
  verifyJwtOperatorProof : ApprovalProof → String → Bool

/-! ### What of a job is compared -/

def jobConflictGuard : WritebackJob → ConflictGuard
  | .v1 job => job.conflictGuard
  | .v2 job => job.conflictGuard
  | .v3 _ => .none
  | .v4 _ => .none

def capabilityWritebackMode (capability : RuntimeCapability) : CapabilityWriteback :=
  match capability.writebackMode with
  | some mode => mode
  | none =>
    if capability.executor.any fun executor => executor != "" && executor != "sql_update" then .appHandler else .directSql

/-- `capability.operation?.kind ?? "update"`. -/
def reviewedOperation (capability : RuntimeCapability) : RowOperation :=
  (capability.operation.map (·.kind)).getD .update

def reviewedAdvance (capability : RuntimeCapability) : Option VersionAdvance := capability.operation.bind (·.versionAdvance)

def reviewedDeduplication (capability : RuntimeCapability) : List DeduplicationSpec :=
  (capability.operation.map (·.deduplication)).getD []

def reviewedBounds (capability : RuntimeCapability) : List AggregateBoundSpec :=
  (capability.operation.map (·.aggregateBounds)).getD []

def allWithin (columns allowed : List Column) : Bool := columns.all fun column => allowed.contains column

/-- The first lines of `capabilityMatchesJob`. -/
def targetMatches (capability : RuntimeCapability) (job : WritebackJob) : Bool :=
  decide (capability.target.schema = job.target.schema) && decide (capability.target.table = job.target.table) &&
  decide (capability.target.primaryKey = job.target.primaryKey.column) &&
  capability.target.tenantKey.any (fun key => nonEmpty key && decide (key = job.target.tenantGuard.column)) &&
  decide (capability.target.principalScopeKey = job.target.principalScope.map (·.column))

def compensationMatches (capability : RuntimeCapability) (job : CompensationJob) : Bool :=
  capability.reversible &&
  decide (reviewedOperation capability = if job.operation = .restoreUpdate then .update else .insert) &&
  decide ((capability.operation.bind (·.cardinality)).getD .single = job.compensation.cardinality) &&
  (decide (job.compensation.cardinality ≠ .set) || decide (capability.operation.bind (·.maxRows) = some job.compensation.maxRows)) &&
  (decide (reviewedOperation capability ≠ .update) || decide (reviewedAdvance capability = job.compensation.versionAdvance)) &&
  allWithin job.allowedColumns capability.allowedColumns

/-- What `capabilityMatchesJob` asks of a row or a set job alike. -/
def operationMatches (capability : RuntimeCapability) (operation : RowOperation) (setJob : Bool) (patch : List Column) : Bool :=
  decide (reviewedOperation capability = operation) &&
  (decide (capability.operation.bind (·.cardinality) = some .set) == setJob) &&
  (if operation = .delete then capability.allowedColumns.isEmpty && patch.isEmpty else !capability.allowedColumns.isEmpty) &&
  allWithin patch capability.allowedColumns

def setOperationKind : SetOperation → RowOperation
  | .update => .update
  | .delete => .delete
  | .batchInsert => .insert

def setDeduplicationMatches (capability : RuntimeCapability) (job : SetJob) : Bool :=
  !(reviewedDeduplication capability).isEmpty &&
  job.frozenSet.members.all fun m =>
    let resolved := m.deduplication.getD []
    decide ((reviewedDeduplication capability).length = resolved.length) &&
    (reviewedDeduplication capability).all fun component => resolved.any fun item => decide (item.column = component.column)

def setMatches (capability : RuntimeCapability) (job : SetJob) : Bool :=
  operationMatches capability (setOperationKind job.operation) true job.patch.keys &&
  (decide (job.operation ≠ .batchInsert) || setDeduplicationMatches capability job) &&
  decide (capability.operation.bind (·.maxRows) = some job.frozenSet.maxRows) &&
  decide ((reviewedBounds capability).length = job.frozenSet.aggregateBounds.length) &&
  ((reviewedBounds capability).all fun bound => job.frozenSet.aggregateBounds.any fun resolved =>
    decide (resolved.column = bound.column ∧ resolved.measure = bound.measure ∧ resolved.maximum = bound.maximum)) &&
  (decide (job.operation ≠ .update) || decide (reviewedAdvance capability = job.versionAdvance))

def rowDeduplicationMatches (capability : RuntimeCapability) (job : RowJob) : Bool :=
  job.deduplication.any fun components =>
    decide ((reviewedDeduplication capability).length = components.length) &&
    (reviewedDeduplication capability).all fun component =>
      components.any fun resolved => decide (resolved.column = component.column ∧ resolved.source = component.source)

/-- `capabilityMatchesJob`. -/
def capabilityMatchesJob (capability : RuntimeCapability) (job : WritebackJob) : Bool :=
  targetMatches capability job &&
  match job with
  | .v1 job => operationMatches capability .update false job.patch.keys
  | .v2 job => operationMatches capability job.operation false job.patch.keys &&
      (decide (job.operation ≠ .insert) || rowDeduplicationMatches capability job)
  | .v3 job => setMatches capability job
  | .v4 job => compensationMatches capability job

/-! ### The checks -/

def checkSource (rt : AuthorityRuntime) (config : RuntimeConfig) (job : NormalizedJob) : Except String Unit := do
  throwIf (rt.validateRunnerCapabilityConfig config ≠ [])
    ("cannot apply writeback with invalid local config: " ++ String.intercalate ", " (rt.validateRunnerCapabilityConfig config))
  throwIf (config.mode ≠ .review) ("local writeback apply requires review mode, got " ++ config.mode.text)
  match config.sources.get? job.job.header.sourceId with
  | none => .error ("writeback source " ++ job.job.header.sourceId ++ " is not present in reviewed config")
  | some engine =>
    throwIf (engine ≠ job.job.header.engine)
      ("writeback engine " ++ (match job.job.header.engine with | .postgres => "postgres" | .mysql => "mysql") ++
        " does not match reviewed source " ++ job.job.header.sourceId)
  throwIf (∃ time ∈ rt.parseDate job.leaseExpiresAt, time < rt.now) "writeback job lease has expired"

def findCapability (config : RuntimeConfig) (job : WritebackJob) : Except String RuntimeCapability :=
  let capabilities := config.capabilities.filter fun capability =>
    decide (capability.kind = .proposal) && decide (capability.source = job.header.sourceId) &&
    decide (capabilityWritebackMode capability = .directSql)
  match capabilities.find? fun capability => capabilityMatchesJob capability job with
  | some capability => .ok capability
  | none => .error "writeback job does not match any reviewed proposal capability in local config"

def checkPrincipalColumn (capability : RuntimeCapability) (job : WritebackJob) : Except String Unit :=
  match capability.target.principalScopeKey with
  | some column => throwIf (¬ job.target.principalScope.any fun scope => decide (scope.column = column))
      "writeback job is missing or changes the reviewed principal scope"
  | none => throwIf job.target.principalScope.isSome "writeback job adds principal scope not present in the reviewed capability"

def digestText (digest : Digest) : String := "sha256:" ++ digest.hex

def checkCloudContract (cloudApproved : Bool) (capability : RuntimeCapability) (job : NormalizedJob) : Except String Unit :=
  if cloudApproved then
    match job.contract with
    | none => .error "Cloud writeback job is missing its immutable contract digest"
    | some contract => throwIf (capability.contractDigest ≠ some (digestText contract.digest))
        "Cloud writeback job contract digest does not match the reviewed local contract"
  else .ok ()

def checkColumns (capability : RuntimeCapability) (job : WritebackJob) : Except String Unit := do
  checkEach (fun column => throwIf (column ∉ capability.allowedColumns)
    ("writeback job allowlist widens reviewed authority: " ++ column)) job.allowedColumns
  checkEach (fun column => throwIf (column ∉ capability.allowedColumns)
    ("writeback patch column is not reviewed by local config: " ++ column)) (jobPatch job).keys

def checkConflictGuard (capability : RuntimeCapability) (job : WritebackJob) : Except String Unit :=
  match capability.conflictGuardColumn, jobConflictGuard job with
  | some reviewed, .versionColumn column _ =>
    throwIf (reviewed ≠ "" ∧ reviewed ≠ column) "writeback conflict guard does not match reviewed capability"
  | _, _ => .ok ()

/-- `validateResolvedFreshnessDependency`. -/
def validateResolvedFreshnessDependency (config : RuntimeConfig) (capability : RuntimeCapability) (d : FreshnessDependency) :
    Option String :=
  let declared := (config.proposalFreshness.get? capability.name).bind fun policy =>
    policy.find? fun item => decide (item.id = d.id)
  let read := config.capabilities.find? fun item => decide (item.name = d.capability)
  match declared, read, config.sources.get? d.sourceId with
  | some declared, some read, some engine =>
    if declared.capability ≠ d.capability ∨ declared.versionColumn ≠ d.expectedVersion.column then
      some "FRESHNESS_DEPENDENCY_AUTHORITY_MISMATCH"
    else if read.kind ≠ .read then some "FRESHNESS_DEPENDENCY_AUTHORITY_INVALID"
    else if read.source ≠ capability.source ∨ d.sourceId ≠ read.source ∨ d.engine ≠ engine then
      some "FRESHNESS_CROSS_SOURCE_UNSUPPORTED"
    else if read.target.schema ≠ d.schema ∨ read.target.table ≠ d.table ∨ read.target.primaryKey ≠ d.primaryKey.column ∨
        read.target.tenantKey.getD "__single_tenant_dev" ≠ d.tenantColumn ∨
        read.target.principalScopeKey ≠ d.principalColumn then
      some "FRESHNESS_DEPENDENCY_TARGET_MISMATCH"
    else none
  | some declared, _, _ =>
    if declared.capability ≠ d.capability ∨ declared.versionColumn ≠ d.expectedVersion.column then
      some "FRESHNESS_DEPENDENCY_AUTHORITY_MISMATCH"
    else some "FRESHNESS_DEPENDENCY_AUTHORITY_INVALID"
  | none, _, _ => some "FRESHNESS_DEPENDENCY_AUTHORITY_MISMATCH"

/-- `validateFreshnessAuthorityAgainstCurrentConfig`. -/
def validateFreshnessAuthority (config : RuntimeConfig) (capability : RuntimeCapability) (authority : FreshnessAuthority) :
    Option String :=
  match config.proposalFreshness.get? capability.name with
  | none => some "FRESHNESS_POLICY_AUTHORITY_MISMATCH"
  | some declared =>
    let expected : FreshnessTargetMode :=
      if reviewedOperation capability = .insert then .notApplicable
      else if capability.operation.bind (·.cardinality) = some .set then .frozenSet else .exactGuard
    if authority.targetMode ≠ expected then some "FRESHNESS_TARGET_AUTHORITY_MISMATCH"
    else if declared.length ≠ authority.dependencies.length ∨ ¬ (authority.dependencies.map (·.id)).Nodup ∨
        ∃ item ∈ declared, item.id ∉ authority.dependencies.map (·.id) then some "FRESHNESS_DEPENDENCY_SET_MISMATCH"
    else authority.dependencies.findSome? (validateResolvedFreshnessDependency config capability)

def freshnessChanged : String := "FRESHNESS_POLICY_CHANGED_CREATE_NEW_PROPOSAL: "

def checkFreshness (config : RuntimeConfig) (capability : RuntimeCapability) (job : WritebackJob) : Except String Unit := do
  let current : Bool := match job with
    | .v4 _ => false
    | _ => (config.proposalFreshness.get? capability.name).isSome
  throwIf (current ≠ job.freshness.isSome) (freshnessChanged ++
    "the reviewed freshness policy changed after this proposal was created; create and review a new proposal")
  match job.freshness with
  | none => .ok ()
  | some authority =>
    match validateFreshnessAuthority config capability authority with
    | some code => .error (freshnessChanged ++ code ++ "; create and review a new proposal")
    | none => .ok ()

/-! ### The checks against the store -/

def checkState (cloudApproved : Bool) (proposal : StoredProposal) : Except String Unit :=
  throwIf (¬ (proposal.state = .approved ∨ proposal.state = .pendingWorker ∨ proposal.state = .applied ∨
      (cloudApproved ∧ proposal.state = .pendingReview)))
    ("local proposal " ++ proposal.proposalId ++ " is " ++ proposal.state.text ++ ", not eligible for " ++
      (if cloudApproved then "Cloud-approved" else "local-approved") ++ " writeback")

def checkProposalFreshness (rt : AuthorityRuntime) (proposal : StoredProposal) (job : WritebackJob) : Except String Unit :=
  throwIf (proposal.changeSet.freshness.map rt.dependencySetDigest ≠ job.freshness.map rt.dependencySetDigest)
    "writeback freshness authority does not match the immutable local proposal"

def checkContract (capability : RuntimeCapability) (proposal : ReviewedProposal) : Except String Unit :=
  match capability.contractDigest, proposal.contractDigest with
  | some _, none => .error "local proposal is missing the immutable active contract digest"
  | some reviewed, some digest => throwIf (digest ≠ reviewed)
      "local proposal contract digest does not match the active reviewed contract; create and review a new proposal"
  | none, some _ => .error
      "local proposal is bound to a contract digest, but the active reviewed capability has no matching contract provenance"
  | none, none => .ok ()

/-- `trustedCliContext`. -/
def trustedCliContext (rt : AuthorityRuntime) (config : RuntimeConfig) (capability : RuntimeCapability) :
    Except String (String × String) :=
  let context := match capability.context with
    | some name => if name = "" then config.trustedContext else config.contexts.get? name
    | none => config.trustedContext
  match context with
  | none => .error ("TRUSTED_CONTEXT_MISSING: capability " ++ capability.name ++ " has no trusted context")
  | some context =>
    let tenantEnv := context.tenantIdEnv.getD "SYNAPSOR_TENANT_ID"
    let principalEnv := context.principalEnv.getD "SYNAPSOR_PRINCIPAL"
    let bound (name : String) (fixed : Option String) : Option String :=
      if context.provider = .environment then rt.envValue name else (rt.envValue name).or (fixed.map rt.trim)
    if context.provider ≠ .environment ∧ context.provider ≠ .staticDev then
      .error ("TRUSTED_CONTEXT_UNAVAILABLE: " ++ (match context.provider with
          | .httpClaims => "http_claims"
          | .cloudSession => "cloud_session"
          | .environment => "environment"
          | .staticDev => "static_dev") ++
        " requires a verified MCP/Cloud session and cannot authorize a local CLI revert")
    else match bound tenantEnv context.tenantId, bound principalEnv context.principal with
      | some tenant, some principal =>
        if tenant = "" ∨ principal = "" then .error ("TRUSTED_BINDING_MISSING: " ++ tenantEnv ++ " and " ++ principalEnv ++
          " must resolve before creating a revert proposal")
        else .ok (tenant, principal)
      | _, _ => .error ("TRUSTED_BINDING_MISSING: " ++ tenantEnv ++ " and " ++ principalEnv ++
          " must resolve before creating a revert proposal")

/-- The checks of the principal scope, and the value that the job is given. -/
def checkPrincipal (rt : AuthorityRuntime) (config : RuntimeConfig) (cloudApproved : Bool) (capability : RuntimeCapability)
    (proposal : StoredProposal) (job : WritebackJob) : Except String (Option Scalar) :=
  match capability.target.principalScopeKey with
  | none => do
    throwIf proposal.changeSet.guards.principalScope.isSome "local proposal carries principal scope outside the reviewed capability"
    pure none
  | some column =>
    match proposal.changeSet.guards.principalScope with
    | none => .error "local proposal is missing its immutable principal scope"
    | some reviewed => do
      match reviewed.value with
      | none => .error "local proposal is missing its immutable principal scope"
      | some value => do
        throwIf (reviewed.column ≠ column) "local proposal is missing its immutable principal scope"
        throwIf (¬ job.target.principalScope.any fun scope => decide (scope.valueFingerprint = reviewed.valueFingerprint ∧
            scope.binding = reviewed.binding ∧ scope.provider = reviewed.provider))
          "writeback principal scope does not match the immutable local proposal"
        throwIf (∃ scope ∈ job.target.principalScope, ∃ given ∈ scope.value, given ≠ value)
          "writeback principal scope value does not match the immutable local proposal"
        if !cloudApproved ∧ (reviewed.provider = .environment ∨ reviewed.provider = .staticDev) then
          let (tenant, principal) ← trustedCliContext rt config capability
          throwIf (tenant ≠ proposal.tenantId ∨ principal ≠ rt.text value)
            "current trusted tenant/principal cannot apply this proposal"
        pure (some value)

def approvalOf (proposal : StoredProposal) (approval : ApprovalRecord) : Bool :=
  decide (approval.proposalId = proposal.proposalId ∧ approval.status = .approved ∧
    approval.proposalHash = proposal.proposalHash ∧ approval.proposalVersion = proposal.proposalVersion)

/-- `verifyStoredFreshnessApprovalAuthority`. -/
def verifyStoredFreshnessApprovalAuthority (rt : AuthorityRuntime) (store : AuthorityStore) (proposal : StoredProposal) :
    Except String Unit :=
  match proposal.changeSet.freshness with
  | none => .ok ()
  | some authority => do
    let approvals := store.approvals.filter (approvalOf proposal)
    throwIf ((approvals.map (·.approver)).dedup.length < proposal.changeSet.requiredApprovals.getD 1)
      ("proposal " ++ proposal.proposalId ++ " does not have its required freshness-bound approvals")
    checkEach (fun approval =>
      match approval.freshnessProofDigest with
      | none => .error ("proposal " ++ proposal.proposalId ++ " has an approval without a freshness proof")
      | some digest =>
        match (store.freshnessProofs.filter fun proof => decide (proof.proposalId = proposal.proposalId)).find?
            fun proof => decide (proof.proofDigest = digest) with
        | none => .error ("proposal " ++ proposal.proposalId ++ " freshness proof is missing or failed integrity validation")
        | some proof => throwIf (proof.result ≠ .fresh ∨ proof.proposalHash ≠ proposal.proposalHash ∨
              proof.proposalVersion ≠ proposal.proposalVersion ∨
              proof.dependencySetDigest ≠ rt.dependencySetDigest authority)
            ("proposal " ++ proposal.proposalId ++ " approval freshness proof does not match immutable authority")) approvals

def identityIntact (proposal : StoredProposal) (approval : ApprovalRecord) (identity : ApprovalProof) : Bool :=
  decide (approval.approver = identity.subject ∧ approval.decisionHash = some identity.decisionHash ∧
    approval.signature = identity.signature ∧ approval.integrityHash = some identity.integrityHash ∧
    identity.decision.action = "approve" ∧ identity.decision.proposalId = proposal.proposalId ∧
    identity.decision.proposalHash = proposal.proposalHash ∧ identity.decision.proposalVersion = proposal.proposalVersion)

def providerName : OperatorProvider → String
  | .devEnv => "dev_env"
  | .signedKey => "signed_key"
  | .jwtOidc => "jwt_oidc"

/-- The proof of a registered operator, by its provider. -/
def verifyOperatorProof (rt : AuthorityRuntime) (operators : OperatorIdentityConfig) (requiredRole : Option String)
    (proposal : StoredProposal) (identity : ApprovalProof) : Except String Unit :=
  if identity.provider = .signedKey then
    match operators.operators.get? identity.subject with
    | none => .error ("approval operator " ++ identity.subject ++ " is no longer registered")
    | some operator => do
      throwIf (∃ role ∈ requiredRole, role ≠ "" ∧ role ∉ operator.roles)
        ("approval operator " ++ identity.subject ++ " lacks currently registered role " ++ requiredRole.getD "")
      let publicKey ← rt.readPublicKey operator.publicKeyPath
      throwIf (¬ rt.verifySignedOperatorProof identity publicKey)
        ("proposal " ++ proposal.proposalId ++ " approval signature verification failed")
  else
    let secret := rt.envValue (operators.attestationSecretEnv.getD "SYNAPSOR_OPERATOR_ATTESTATION_SECRET")
    throwIf (¬ secret.any fun secret => decide (32 ≤ secret.utf8ByteSize) && rt.verifyJwtOperatorProof identity secret)
      ("proposal " ++ proposal.proposalId ++ " approval attestation verification failed")

/-- `verifyStoredApprovalAuthority`. -/
def verifyStoredApprovalAuthority (rt : AuthorityRuntime) (config : RuntimeConfig) (store : AuthorityStore)
    (proposal : StoredProposal) (capability : RuntimeCapability) : Except String Unit :=
  match config.operatorIdentity with
  | none => .ok ()
  | some operators =>
    if operators.provider = .devEnv then .ok ()
    else match (store.approvals.reverse).find? (approvalOf proposal) with
      | none => .error ("proposal " ++ proposal.proposalId ++ " has no approval matching its immutable hash and version")
      | some approval =>
        if capability.approvalMode = some "policy" ∧ (∃ policy ∈ capability.approvalPolicy, policy ≠ "" ∧
            approval.approver = "policy:" ++ policy) then .ok ()
        else match approval.identity with
          | none => .error ("proposal " ++ proposal.proposalId ++ " does not have a verified " ++ providerName operators.provider ++
              " human approval")
          | some identity => do
            throwIf (identity.provider ≠ operators.provider ∨ ¬ identity.verified)
              ("proposal " ++ proposal.proposalId ++ " does not have a verified " ++ providerName operators.provider ++
                " human approval")
            throwIf (¬ identityIntact proposal approval identity)
              ("proposal " ++ proposal.proposalId ++ " approval identity record failed integrity checks")
            throwIf (∃ role ∈ capability.requiredRole, role ≠ "" ∧ role ∉ identity.roles)
              ("approval operator " ++ identity.subject ++ " lacks required role " ++ capability.requiredRole.getD "")
            verifyOperatorProof rt operators capability.requiredRole proposal identity

/-- The checks against the stored proposal that the job names. -/
def checkStore (rt : AuthorityRuntime) (config : RuntimeConfig) (cloudApproved : Bool) (store : AuthorityStore)
    (capability : RuntimeCapability) (job : WritebackJob) : Except String (Option Scalar) :=
  match store.proposals.get? job.proposalId with
  | none => .error ("local proposal not found for writeback job: " ++ job.proposalId)
  | some proposal => do
    checkState cloudApproved proposal.toStoredProposal
    throwIf (proposal.proposalHash ≠ job.approvalId) "writeback approval/proposal digest does not match local proposal"
    checkProposalFreshness rt proposal.toStoredProposal job
    checkContract capability proposal
    let value ← checkPrincipal rt config cloudApproved capability proposal.toStoredProposal job
    if cloudApproved then pure value
    else do
      verifyStoredFreshnessApprovalAuthority rt store proposal.toStoredProposal
      verifyStoredApprovalAuthority rt config store proposal.toStoredProposal capability
      pure value

/-- The checks of `verifyLocalWritebackAuthority` in their order, and the principal
    value that it writes into the job. -/
def verifyChecks (rt : AuthorityRuntime) (config : RuntimeConfig) (cloudApproved : Bool) (store : Option AuthorityStore)
    (job : NormalizedJob) : Except String (Option Scalar) := do
  checkSource rt config job
  let capability ← findCapability config job.job
  checkPrincipalColumn capability job.job
  checkCloudContract cloudApproved capability job
  checkColumns capability job.job
  checkConflictGuard capability job.job
  checkFreshness config capability job.job
  match store with
  | none => pure none
  | some store => checkStore rt config cloudApproved store capability job.job

def mapHeader (f : JobHeader → JobHeader) : WritebackJob → WritebackJob
  | .v1 job => .v1 { job with toJobHeader := f job.toJobHeader }
  | .v2 job => .v2 { job with toJobHeader := f job.toJobHeader }
  | .v3 job => .v3 { job with toJobHeader := f job.toJobHeader }
  | .v4 job => .v4 { job with toJobHeader := f job.toJobHeader }

/-- `jobPrincipalScope.value = proposalPrincipalScope.value`. -/
def fillPrincipal (value : Option Scalar) (job : WritebackJob) : WritebackJob :=
  match value with
  | none => job
  | some value => mapHeader (fun header => { header with target := { header.target with
      principalScope := header.target.principalScope.map fun scope => { scope with value := some value } } }) job

/-- `verifyLocalWritebackAuthority`: the job as the verifier leaves it. -/
def verifyLocalWritebackAuthority (rt : AuthorityRuntime) (config : RuntimeConfig) (cloudApproved : Bool)
    (store : Option AuthorityStore) (job : NormalizedJob) : Except String WritebackJob :=
  (verifyChecks rt config cloudApproved store job).map fun value => fillPrincipal value job.job

/-! ### What an adapter executes -/

/-- The parts of a job that an adapter puts into its statements. -/
structure Executed where
  target : JobTarget
  operation : Operation
  allowedColumns : List Column
  patch : Record
  conflictGuard : ConflictGuard
  versionAdvance : Option VersionAdvance
  deduplication : Option (List DeduplicationComponent)
  frozenSet : Option FrozenSet
  compensation : Option InverseDescriptor
  deriving DecidableEq

def executed (job : WritebackJob) : Executed where
  target := job.target
  operation := job.operation
  allowedColumns := job.allowedColumns
  patch := jobPatch job
  conflictGuard := jobConflictGuard job
  versionAdvance := match job with
    | .v1 _ => none
    | .v2 job => job.versionAdvance
    | .v3 job => job.versionAdvance
    | .v4 _ => none
  deduplication := match job with
    | .v2 job => job.deduplication
    | _ => none
  frozenSet := match job with
    | .v3 job => some job.frozenSet
    | _ => none
  compensation := match job with
    | .v4 job => some job.compensation
    | _ => none

/-- The job that `createWritebackJobFromProposal` builds of a change set, whatever the
    state of the proposal has become since. -/
def derivedJob (proposal : StoredProposal) : Except StoreError WritebackJob := do
  let engine ← writebackEngine proposal
  let inverseCapture ← inverseCaptureFromChangeSet proposal.changeSet (writebackJobId proposal.proposalId 1)
  jobFromChangeSet proposal.changeSet (Proposals.jobHeader proposal engine 1) inverseCapture

/-- A verified job is the reviewed change of the proposal that it names. -/
def Reviewed (store : AuthorityStore) (job : WritebackJob) : Prop :=
  ∃ proposal derived, store.proposals.get? job.proposalId = some proposal ∧
    derivedJob proposal.toStoredProposal = .ok derived ∧ executed job = executed derived

/-- A job that the protocol accepts and the verifier too. -/
def Verified (rt : AuthorityRuntime) (config : RuntimeConfig) (cloudApproved : Bool) (store : AuthorityStore)
    (job : NormalizedJob) (out : WritebackJob) : Prop :=
  writebackJobSchema rt.platform (.normalizedJob job) = .ok job ∧
    verifyLocalWritebackAuthority rt config cloudApproved (some store) job = .ok out

/-! ### What no check reads -/

/-- A job with another value for the row that it names, or for its tenant where the
    job names no single row. A compensation says its tenant twice. -/
def withValue (value : Scalar) : WritebackJob → WritebackJob
  | .v1 job => .v1 { job with target := { job.target with primaryKey := { job.target.primaryKey with value := some value } } }
  | .v2 job => .v2 { job with target := { job.target with primaryKey := { job.target.primaryKey with value := some value } } }
  | .v3 job => .v3 { job with target := { job.target with tenantGuard := { job.target.tenantGuard with value } } }
  | .v4 job => .v4 { job with
      target := { job.target with tenantGuard := { job.target.tenantGuard with value } }
      compensation := { job.compensation with tenantGuard := { job.compensation.tenantGuard with value } } }

/-- The checks of the verifier do not read that value. -/
theorem verifyChecks_withValue (rt : AuthorityRuntime) (config : RuntimeConfig) (cloudApproved : Bool)
    (store : Option AuthorityStore) (job : NormalizedJob) (value : Scalar) :
    verifyChecks rt config cloudApproved store { job with job := withValue value job.job } =
      verifyChecks rt config cloudApproved store job := by
  obtain ⟨job, contract, expires⟩ := job
  cases job <;> rfl

theorem fillPrincipal_withValue (filled : Option Scalar) (job : WritebackJob) (value : Scalar) :
    fillPrincipal filled (withValue value job) = withValue value (fillPrincipal filled job) := by
  cases filled <;> cases job <;> rfl

/-- A job is verified with one value just as with another. -/
theorem verify_withValue (rt : AuthorityRuntime) (config : RuntimeConfig) (cloudApproved : Bool) (store : Option AuthorityStore)
    (job : NormalizedJob) (value : Scalar) :
    verifyLocalWritebackAuthority rt config cloudApproved store { job with job := withValue value job.job } =
      (verifyLocalWritebackAuthority rt config cloudApproved store job).map (withValue value) := by
  unfold verifyLocalWritebackAuthority
  rw [verifyChecks_withValue]
  cases verifyChecks rt config cloudApproved store job with
  | error e => rfl
  | ok filled =>
    show Except.ok (fillPrincipal filled (withValue value job.job)) = .ok (withValue value (fillPrincipal filled job.job))
    rw [fillPrincipal_withValue]

theorem legacy_withValue {job : LegacyJob} (fields : legacyJobFields job = true) (value : Scalar) :
    legacyJobFields { job with target := { job.target with primaryKey := { job.target.primaryKey with value := some value } } } =
      true := by
  simp only [legacyJobFields, Bool.and_eq_true] at fields ⊢
  obtain ⟨⟨⟨⟨header, -⟩, allowed⟩, patch⟩, conflict⟩ := fields
  exact ⟨⟨⟨⟨header, rfl⟩, allowed⟩, patch⟩, conflict⟩

theorem row_withValue {job : RowJob} (issues : rowJobIssues job = []) (value : Scalar) :
    rowJobIssues { job with target := { job.target with primaryKey := { job.target.primaryKey with value := some value } } } =
      [] := by
  simp only [rowJobIssues, List.append_eq_nil_iff] at issues ⊢
  obtain ⟨⟨⟨freshness, -⟩, columns⟩, own⟩ := issues
  exact ⟨⟨⟨freshness, by simp⟩, columns⟩, own⟩

theorem compensation_withValue {job : CompensationJob} (issues : compensationJobIssues job = []) (value : Scalar) :
    compensationJobIssues { job with
      target := { job.target with tenantGuard := { job.target.tenantGuard with value } }
      compensation := { job.compensation with tenantGuard := { job.compensation.tenantGuard with value } } } = [] := by
  simp only [compensationJobIssues, List.append_eq_nil_iff, issueIf_eq_nil, decide_eq_false_iff_not, not_or, not_not] at issues ⊢
  obtain ⟨⟨⟨operation, target⟩, tenant⟩, principal⟩ := issues
  exact ⟨⟨⟨operation, target⟩, tenant.1, trivial⟩, principal⟩

/-- The schema takes a job with another value when it takes the job. -/
theorem schema_withValue {platform : Platform} {job : NormalizedJob}
    (accepted : writebackJobSchema platform (.normalizedJob job) = .ok job) (value : Scalar) :
    writebackJobSchema platform (.normalizedJob { job with job := withValue value job.job }) =
      .ok { job with job := withValue value job.job } := by
  rw [writebackJobSchema_normalized] at accepted ⊢
  obtain ⟨fields, issues⟩ := accepted
  obtain ⟨job, contract, expires⟩ := job
  simp only [normalizedFields, Bool.and_eq_true] at fields ⊢
  obtain ⟨⟨own, principal⟩, contractFields⟩ := fields
  cases job with
  | v1 job => exact ⟨⟨⟨legacy_withValue own value, principal⟩, contractFields⟩, issues⟩
  | v2 job => exact ⟨⟨⟨own, principal⟩, contractFields⟩, row_withValue issues value⟩
  | v3 job => exact ⟨⟨⟨own, principal⟩, contractFields⟩, issues⟩
  | v4 job => exact ⟨⟨⟨own, principal⟩, contractFields⟩, compensation_withValue issues value⟩

theorem verified_withValue {rt : AuthorityRuntime} {config : RuntimeConfig} {cloudApproved : Bool} {store : AuthorityStore}
    {job : NormalizedJob} {out : WritebackJob} (verified : Verified rt config cloudApproved store job out) (value : Scalar) :
    Verified rt config cloudApproved store { job with job := withValue value job.job } (withValue value out) := by
  refine ⟨schema_withValue verified.1 value, ?_⟩
  rw [verify_withValue, verified.2]
  rfl

@[simp] theorem withValue_proposalId (value : Scalar) (job : WritebackJob) : (withValue value job).proposalId = job.proposalId := by
  cases job <;> rfl

/-- Jobs with two different values have different targets. -/
theorem withValue_target_ne {value other : Scalar} (differ : value ≠ other) (job : WritebackJob) :
    (withValue value job).target ≠ (withValue other job).target := by
  intro same
  cases job with
  | v1 job => exact differ (Option.some.inj (congrArg (fun t : JobTarget => t.primaryKey.value) same))
  | v2 job => exact differ (Option.some.inj (congrArg (fun t : JobTarget => t.primaryKey.value) same))
  | v3 job => exact differ (congrArg (fun t : JobTarget => t.tenantGuard.value) same)
  | v4 job => exact differ (congrArg (fun t : JobTarget => t.tenantGuard.value) same)

/-- At most one of two jobs with different values is the reviewed change. -/
theorem not_both_reviewed {store : AuthorityStore} {value other : Scalar} (differ : value ≠ other) (job : WritebackJob) :
    ¬ (Reviewed store (withValue value job) ∧ Reviewed store (withValue other job)) := by
  rintro ⟨⟨proposal, derived, stored, built, same⟩, ⟨proposal', derived', stored', built', same'⟩⟩
  rw [withValue_proposalId] at stored stored'
  rw [stored] at stored'
  cases Option.some.inj stored'
  rw [built] at built'
  cases Except.ok.inj built'
  exact withValue_target_ne differ job (congrArg Executed.target (same.trans same'.symm))

/-! ### What the checks give -/

theorem scope_ext {left right : PrincipalScopeGuard} (column : left.column = right.column) (binding : left.binding = right.binding)
    (provider : left.provider = right.provider) (fingerprint : left.valueFingerprint = right.valueFingerprint)
    (value : left.value = right.value) : left = right := by
  cases left
  cases right
  simp_all

theorem fillPrincipal_target (value : Scalar) (job : WritebackJob) :
    (fillPrincipal (some value) job).target.principalScope =
      job.target.principalScope.map fun scope => { scope with value := some value } := by
  cases job <;> rfl

/-- The principal scope that the verifier leaves in a job is that of the proposal. -/
theorem checkPrincipal_scope {rt : AuthorityRuntime} {config : RuntimeConfig} {cloudApproved : Bool}
    {capability : RuntimeCapability} {proposal : StoredProposal} {job : WritebackJob} {filled : Option Scalar}
    (column : capability.target.principalScopeKey = job.target.principalScope.map (·.column))
    (checked : checkPrincipal rt config cloudApproved capability proposal job = .ok filled) :
    (fillPrincipal filled job).target.principalScope = proposal.changeSet.guards.principalScope := by
  unfold checkPrincipal at checked
  cases key : capability.target.principalScopeKey with
  | none =>
    rw [key] at column checked
    obtain ⟨_, absent, rest⟩ := bind_eq_ok checked
    cases rest
    have noScope : job.target.principalScope = none := by simpa using column.symm
    have noReviewed : proposal.changeSet.guards.principalScope = none := by simpa using throwIf_ok_iff.mp absent
    rw [noReviewed]
    exact noScope
  | some name =>
    rw [key] at column checked
    cases known : proposal.changeSet.guards.principalScope with
    | none =>
      rw [known] at checked
      cases checked
    | some reviewed =>
      rw [known] at checked
      dsimp only at checked
      cases bound : reviewed.value with
      | none =>
        rw [bound] at checked
        cases checked
      | some value =>
        rw [bound] at checked
        obtain ⟨_, sameColumn, rest⟩ := bind_eq_ok checked
        obtain ⟨_, sameScope, rest⟩ := bind_eq_ok rest
        obtain ⟨_, -, rest⟩ := bind_eq_ok rest
        have value' : filled = some value := by
          split at rest
          · obtain ⟨⟨tenant, principal⟩, -, rest⟩ := bind_eq_ok rest
            obtain ⟨_, -, rest⟩ := bind_eq_ok rest
            exact (Except.ok.inj rest).symm
          · exact (Except.ok.inj rest).symm
        rw [throwIf_ok_iff, not_not] at sameColumn sameScope
        cases scope : job.target.principalScope with
        | none => simp [scope] at sameScope
        | some own =>
          rw [scope] at sameScope column
          simp only [Option.any_some, decide_eq_true_eq] at sameScope
          have ownColumn : name = own.column := Option.some.inj column
          rw [value', fillPrincipal_target, scope, Option.map_some, Option.some.injEq]
          exact scope_ext (ownColumn.symm.trans sameColumn.symm) sameScope.2.1 sameScope.2.2 sameScope.1 bound.symm

theorem findCapability_target {config : RuntimeConfig} {job : WritebackJob} {capability : RuntimeCapability}
    (found : findCapability config job = .ok capability) :
    capability.target.principalScopeKey = job.target.principalScope.map (·.column) := by
  unfold findCapability at found
  dsimp only at found
  split at found
  · rename_i matching known
    cases found
    have accepted := List.find?_some known
    unfold capabilityMatchesJob targetMatches at accepted
    simp only [Bool.and_eq_true, decide_eq_true_eq] at accepted
    exact accepted.1.2
  · cases found

/-- The principal scope of a job is that of the proposal that it names. -/
def PrincipalReviewed (store : AuthorityStore) (job : WritebackJob) : Prop :=
  ∃ proposal, store.proposals.get? job.proposalId = some proposal ∧
    job.target.principalScope = proposal.changeSet.guards.principalScope

@[simp] theorem fillPrincipal_proposalId (filled : Option Scalar) (job : WritebackJob) :
    (fillPrincipal filled job).proposalId = job.proposalId := by
  cases filled <;> cases job <;> rfl

theorem verified_principal {rt : AuthorityRuntime} {config : RuntimeConfig} {cloudApproved : Bool} {store : AuthorityStore}
    {job : NormalizedJob} {out : WritebackJob} (verified : Verified rt config cloudApproved store job out) :
    PrincipalReviewed store out := by
  have run := verified.2
  unfold verifyLocalWritebackAuthority at run
  cases checks : verifyChecks rt config cloudApproved (some store) job with
  | error e =>
    rw [checks] at run
    cases run
  | ok filled =>
    rw [checks] at run
    cases Except.ok.inj run
    obtain ⟨_, -, rest⟩ := bind_eq_ok checks
    obtain ⟨capability, found, rest⟩ := bind_eq_ok rest
    obtain ⟨_, -, rest⟩ := bind_eq_ok rest
    obtain ⟨_, -, rest⟩ := bind_eq_ok rest
    obtain ⟨_, -, rest⟩ := bind_eq_ok rest
    obtain ⟨_, -, rest⟩ := bind_eq_ok rest
    obtain ⟨_, -, rest⟩ := bind_eq_ok rest
    dsimp only at rest
    unfold checkStore at rest
    cases stored : store.proposals.get? job.job.proposalId with
    | none =>
      rw [stored] at rest
      cases rest
    | some proposal =>
      rw [stored] at rest
      obtain ⟨_, -, rest⟩ := bind_eq_ok rest
      obtain ⟨_, -, rest⟩ := bind_eq_ok rest
      obtain ⟨_, -, rest⟩ := bind_eq_ok rest
      obtain ⟨_, -, rest⟩ := bind_eq_ok rest
      obtain ⟨value, principal, rest⟩ := bind_eq_ok rest
      have same : value = filled := by
        cases cloudApproved with
        | true => exact Except.ok.inj rest
        | false =>
          obtain ⟨_, -, rest⟩ := bind_eq_ok rest
          obtain ⟨_, -, rest⟩ := bind_eq_ok rest
          exact Except.ok.inj rest
      refine ⟨proposal, ?_, ?_⟩
      · rw [fillPrincipal_proposalId, stored]
      · rw [← same]
        exact checkPrincipal_scope (findCapability_target found) principal

/-! ### The authority of a job -/

/-- Every verified job has the principal scope of its proposal, and every verified job
    is the reviewed change only where no job is verified. -/
theorem authority_complete_iff (rt : AuthorityRuntime) (config : RuntimeConfig) (cloudApproved : Bool) (store : AuthorityStore) :
    (∀ job out, Verified rt config cloudApproved store job out → PrincipalReviewed store out) ∧
      ((∀ job out, Verified rt config cloudApproved store job out → Reviewed store out) ↔
        ∀ job out, ¬ Verified rt config cloudApproved store job out) := by
  refine ⟨fun job out verified => verified_principal verified, ?_, ?_⟩
  · intro complete job out verified
    have zero := complete _ _ (verified_withValue verified (.num 0))
    have one := complete _ _ (verified_withValue verified (.num 1))
    exact not_both_reviewed (by decide) out ⟨zero, one⟩
  · intro none job out verified
    exact absurd verified (none job out)

/-! ### A job for another row -/

def exampleRuntime : AuthorityRuntime where
  platform := constantPlatform
  validateRunnerCapabilityConfig := fun _ => []
  parseDate := fun _ => none
  now := 0
  dependencySetDigest := fun _ => ""
  text := fun _ => ""
  trim := id
  envValue := fun _ => none
  readPublicKey := fun _ => .ok ""
  verifySignedOperatorProof := fun _ _ => false
  verifyJwtOperatorProof := fun _ _ => false

/-- A capability that sets the status of one order. -/
def closeOrder : RuntimeCapability where
  name := "orders.close"
  kind := .proposal
  source := "s"
  context := none
  target := ⟨"public", "orders", "id", some "tenant", none⟩
  allowedColumns := ["status"]
  conflictGuardColumn := some "version"
  operation := none
  reversible := false
  writebackMode := some .directSql
  executor := none
  contractDigest := none
  approvalMode := none
  approvalPolicy := none
  requiredRole := none

def exampleConfig : RuntimeConfig where
  mode := .review
  sources := KeyedMap.empty.set "s" .postgres
  capabilities := [closeOrder]
  proposalFreshness := .empty
  trustedContext := none
  contexts := .empty
  operatorIdentity := none

/-- The approved proposal to close order 1 of tenant t. -/
def closeFirstOrder : ReviewedProposal where
  proposalId := "p1"
  proposalVersion := 1
  proposalHash := "sha256:1"
  state := .approved
  tenantId := "t"
  businessObject := "order"
  objectId := "1"
  action := "orders.close"
  sourceId := "s"
  sourceSchema := "public"
  sourceTable := "orders"
  changeSet :=
    { proposalId := "p1", mode := .reviewRequired
      source := ⟨.externalPostgres, "s", "public", "orders", ⟨"id", some (.num 1)⟩⟩
      before := KeyedMap.empty.set "status" (.str "open"), patch := KeyedMap.empty.set "status" (.str "closed")
      after := KeyedMap.empty.set "status" (.str "closed")
      guards := ⟨⟨"tenant", .str "t"⟩, none, ["status"], some ⟨"version", .num 3⟩, none, none⟩
      freshness := none, requiredApprovals := none, writebackMode := .trustedWorkerRequired, writebackExecutor := none
      body := .v1 }
  contractDigest := none

def exampleStore : AuthorityStore := ⟨KeyedMap.empty.set "p1" closeFirstOrder, [], []⟩

/-- The job of the proposal, for the order with a key of choice. -/
def closeJob (order : Rat) : NormalizedJob where
  job := .v1
    { jobId := "wbj_p1", proposalId := "p1", approvalId := "sha256:1", sourceId := "s", engine := .postgres
      target := ⟨"public", "orders", ⟨"id", some (.num order)⟩, ⟨"tenant", .str "t"⟩, none⟩
      allowedColumns := ["status"], idempotencyKey := "p1:1", attemptCount := 1
      patch := KeyedMap.empty.set "status" (.str "closed"), conflictGuard := .versionColumn "version" (.num 3), freshness := none }
  contract := none
  leaseExpiresAt := .text "2030-01-01T00:00:00.000Z"

theorem closeJob_principal : PrincipalReviewed exampleStore (closeJob 1).job :=
  (authority_complete_iff exampleRuntime exampleConfig false exampleStore).1 (closeJob 1) (closeJob 1).job ⟨rfl, rfl⟩

/-- The job of the proposal is verified for order 2 as well. -/
theorem other_row_verified : ¬ ∀ (rt : AuthorityRuntime) (config : RuntimeConfig) (cloudApproved : Bool) (store : AuthorityStore)
    (job : NormalizedJob) (out : WritebackJob), Verified rt config cloudApproved store job out → Reviewed store out := by
  intro claim
  have verified : Verified exampleRuntime exampleConfig false exampleStore (closeJob 2) (closeJob 2).job := ⟨rfl, rfl⟩
  obtain ⟨proposal, derived, stored, built, same⟩ := claim _ _ _ _ _ _ verified
  have first : proposal = closeFirstOrder := (Option.some.inj stored).symm
  rw [first] at built
  have own : derived = (closeJob 1).job := (Except.ok.inj built).symm
  rw [own] at same
  exact absurd (congrArg (fun e : Executed => e.target.primaryKey.value) same) (by decide)

end SynapsorRunner.WritebackAuthority
