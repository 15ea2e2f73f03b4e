import Mathlib.Data.List.Perm.Subperm
import SynapsorRunner.Protocol

/-!
Public writeback jobs of the four versions, their schemas and the normalized jobs that
they become. What a public schema accepts is parsed again as a normalized job, and the
normalized schema of the version may ask for more than the public one did:
`reparse_iff` says for which jobs it accepts its own output. Jobs are as the object
schemas read them; a freshness authority is one that its schema accepts.
-/
namespace SynapsorRunner.JobNormalisation
open SynapsorRunner.Protocol

/-! ### Public jobs -/

structure Lease where
  leaseId : String
  attempt : Nat
  expiresAt : String
  deriving DecidableEq

structure PublicTarget where
  schema : String
  table : String
  primaryKey : PrimaryKeyTarget
  deriving DecidableEq

/-- What public jobs of every version carry. -/
structure PublicHeader where
  writebackJobId : String
  proposalId : String
  proposalVersion : Nat
  proposalHash : String
  projectId : String
  sourceId : String
  engine : Engine
  target : PublicTarget
  tenantGuard : ColumnValue
  principalScope : Option PrincipalScopeGuard
  allowedColumns : List Column
  idempotencyKey : String
  lease : Lease
  deriving DecidableEq

inductive PublicConflictGuard where
  | column (column : Column) (expectedValue : Scalar)
  | rowHash (expectedHash : String)
  | none
  deriving DecidableEq

/-- `synapsor.writeback-job.v1`. -/
structure WritebackJobV1 extends PublicHeader where
  patch : Record
  conflictGuard : PublicConflictGuard
  freshness : Option FreshnessAuthority
  deriving DecidableEq

inductive WritebackMutation where
  | update (values : Record) (conflictGuard : PublicConflictGuard) (versionAdvance : Option VersionAdvance)
  | insert (values : Record) (deduplication : List DeduplicationComponent)
  | delete (guardColumn : Column) (expectedValue : Scalar)
  deriving DecidableEq

/-- `synapsor.writeback-job.v2`. -/
structure WritebackJobV2 extends PublicHeader where
  mutation : WritebackMutation
  freshness : Option FreshnessAuthority
  inverseCapture : Option InverseDescriptor
  deriving DecidableEq

/-- `synapsor.writeback-job.v3`. -/
structure WritebackJobV3 extends PublicHeader where
  operation : SetOperation
  patch : Record
  versionAdvance : Option VersionAdvance
  frozenSet : FrozenSet
  freshness : Option FreshnessAuthority
  inverseCapture : Option InverseDescriptor
  deriving DecidableEq

/-- `synapsor.writeback-job.v4`. -/
structure WritebackJobV4 extends PublicHeader where
  operation : ReversalOperation
  compensation : InverseDescriptor
  forwardReceiptHash : Digest
  deriving DecidableEq

inductive PublicJob where
  | v1 (job : WritebackJobV1)
  | v2 (job : WritebackJobV2)
  | v3 (job : WritebackJobV3)
  | v4 (job : WritebackJobV4)
  deriving DecidableEq

/-! ### Normalized jobs -/

structure LeasedContractRef where
  contractId : String
  contractVersionId : String
  digest : Digest
  deriving DecidableEq

inductive LeaseExpiry where
  | text (s : String)
  | number (n : Rat)
  deriving DecidableEq

/-- A normalized job with its contract and its lease. -/
structure NormalizedJob where
  job : WritebackJob
  contract : Option LeasedContractRef
  leaseExpiresAt : LeaseExpiry
  deriving DecidableEq

/-- What `parseWritebackJob` is given, by its version. -/
inductive JobInput where
  | publicJob (job : PublicJob)
  | normalizedJob (job : NormalizedJob)

def normalizeConflictGuard : PublicConflictGuard → ConflictGuard
  | .column column expectedValue => .versionColumn column expectedValue
  | .rowHash expectedHash => .rowHash expectedHash
  | .none => .none

def jobTarget (job : PublicHeader) (primaryKey : PrimaryKeyTarget) : JobTarget :=
  ⟨job.target.schema, job.target.table, primaryKey, job.tenantGuard, job.principalScope⟩

def jobHeader (job : PublicHeader) (primaryKey : PrimaryKeyTarget) : JobHeader where
  jobId := job.writebackJobId
  proposalId := job.proposalId
  approvalId := job.proposalHash
  sourceId := job.sourceId
  engine := job.engine
  target := jobTarget job primaryKey
  allowedColumns := job.allowedColumns
  idempotencyKey := job.idempotencyKey
  attemptCount := job.lease.attempt

/-- `normalizedWritebackJobV1Schema`. -/
def normalizeV1 (job : WritebackJobV1) : LegacyJob where
  toJobHeader := jobHeader job.toPublicHeader job.target.primaryKey
  patch := job.patch
  conflictGuard := normalizeConflictGuard job.conflictGuard
  freshness := job.freshness

def mutationOperation : WritebackMutation → RowOperation
  | .update _ _ _ => .update
  | .insert _ _ => .insert
  | .delete _ _ => .delete

def mutationPatch : WritebackMutation → Record
  | .update values _ _ => values
  | .insert values _ => values
  | .delete _ _ => .empty

def mutationGuard : WritebackMutation → ConflictGuard
  | .update _ conflictGuard _ => normalizeConflictGuard conflictGuard
  | .insert _ _ => .none
  | .delete column expectedValue => .versionColumn column expectedValue

def mutationAdvance : WritebackMutation → Option VersionAdvance
  | .update _ _ versionAdvance => versionAdvance
  | _ => none

def mutationDeduplication : WritebackMutation → Option (List DeduplicationComponent)
  | .insert _ deduplication => some deduplication
  | _ => none

/-- The transform of `writebackJobV2Schema`. -/
def normalizeV2 (job : WritebackJobV2) : RowJob where
  toJobHeader := jobHeader job.toPublicHeader job.target.primaryKey
  operation := mutationOperation job.mutation
  patch := mutationPatch job.mutation
  conflictGuard := mutationGuard job.mutation
  freshness := job.freshness
  versionAdvance := mutationAdvance job.mutation
  deduplication := mutationDeduplication job.mutation
  inverseCapture := job.inverseCapture

/-- The transform of `writebackJobV3Schema`, which drops the value of the primary key. -/
def normalizeV3 (job : WritebackJobV3) : SetJob where
  toJobHeader := jobHeader job.toPublicHeader ⟨job.target.primaryKey.column, none⟩
  operation := job.operation
  patch := job.patch
  freshness := job.freshness
  versionAdvance := job.versionAdvance
  frozenSet := job.frozenSet
  inverseCapture := job.inverseCapture

/-- The transform of `writebackJobV4Schema`. -/
def normalizeV4 (job : WritebackJobV4) : CompensationJob where
  toJobHeader := jobHeader job.toPublicHeader job.target.primaryKey
  operation := job.operation
  compensation := job.compensation
  forwardReceiptHash := job.forwardReceiptHash

def publicHeader : PublicJob → PublicHeader
  | .v1 job => job.toPublicHeader
  | .v2 job => job.toPublicHeader
  | .v3 job => job.toPublicHeader
  | .v4 job => job.toPublicHeader

def normalizedJob : PublicJob → WritebackJob
  | .v1 job => .v1 (normalizeV1 job)
  | .v2 job => .v2 (normalizeV2 job)
  | .v3 job => .v3 (normalizeV3 job)
  | .v4 job => .v4 (normalizeV4 job)

def normalize (job : PublicJob) : NormalizedJob := ⟨normalizedJob job, none, .text (publicHeader job).lease.expiresAt⟩

/-! ### The schemas of public jobs -/

def providerText : TrustedScopeProvider → String
  | .environment => "environment"
  | .httpClaims => "http_claims"
  | .cloudSession => "cloud_session"
  | .staticDev => "static_dev"

def principalScopeFingerprint (platform : Platform) (scope : PrincipalScopeGuard) (value : Scalar) : Digest :=
  platform.canonicalJsonDigest (.fields [("schema_version", .str "synapsor.principal-scope.v1"), ("column", .str scope.column),
    ("binding", .str scope.binding), ("provider", .str (providerText scope.provider)), ("value", value)])

/-- `principalScopeGuardSchema`. -/
def principalScopeFields (platform : Platform) (scope : PrincipalScopeGuard) : Bool :=
  safeIdentifier scope.column && safeIdentifier scope.binding &&
  scope.value.all fun value => decide (principalScopeFingerprint platform scope value = scope.valueFingerprint)

/-- The field checks that all public job schemas share. -/
def publicHeaderFields (platform : Platform) (job : PublicHeader) : Bool :=
  nonEmpty job.writebackJobId && nonEmpty job.proposalId && decide (0 < job.proposalVersion) && sha256Text job.proposalHash &&
  nonEmpty job.projectId && nonEmpty job.sourceId && safeIdentifier job.target.schema && safeIdentifier job.target.table &&
  safeIdentifier job.target.primaryKey.column && safeIdentifier job.tenantGuard.column &&
  job.principalScope.all (principalScopeFields platform) && job.allowedColumns.all safeIdentifier &&
  nonEmpty job.idempotencyKey && nonEmpty job.lease.leaseId && decide (0 < job.lease.attempt) && nonEmpty job.lease.expiresAt

def conflictGuardFields : PublicConflictGuard → Bool
  | .column column _ => safeIdentifier column
  | .rowHash expectedHash => nonEmpty expectedHash
  | .none => true

/-- The refinement of the first two versions that keeps the principal out of the patch. -/
def publicPrincipalIssues (job : PublicHeader) : List Issue :=
  issueIf (job.principalScope.any fun s => job.allowedColumns.contains s.column)
    "principal scope column must not be patch-allowlisted" [.key "allowed_columns"]

/-- `writebackJobV1Schema`. -/
def v1Fields (platform : Platform) (job : WritebackJobV1) : Bool :=
  publicHeaderFields platform job.toPublicHeader && job.target.primaryKey.value.isSome && !job.allowedColumns.isEmpty &&
  !job.patch.entries.isEmpty && conflictGuardFields job.conflictGuard

def v1Issues (job : WritebackJobV1) : List Issue :=
  validateFreshnessBinding job.freshness job.sourceId job.engine .exactGuard 1 ++
  validateAllowedPatchColumns job.allowedColumns job.patch.keys job.target.primaryKey.column job.tenantGuard.column ++
  publicPrincipalIssues job.toPublicHeader

def mutationFields : WritebackMutation → Bool
  | .update values conflictGuard versionAdvance =>
    !values.entries.isEmpty && conflictGuardFields conflictGuard && versionAdvance.all fun v => safeIdentifier v.column
  | .insert values deduplication => !values.entries.isEmpty && componentFields deduplication
  | .delete guardColumn _ => safeIdentifier guardColumn

/-- `writebackJobV2Schema`. -/
def v2Fields (platform : Platform) (job : WritebackJobV2) : Bool :=
  publicHeaderFields platform job.toPublicHeader && mutationFields job.mutation &&
  job.inverseCapture.all (inverseDescriptorV1Schema platform)

def v2Issues (job : WritebackJobV2) : List Issue :=
  validateFreshnessBinding job.freshness job.sourceId job.engine
    (if mutationOperation job.mutation = .insert then .notApplicable else .exactGuard)
    (if mutationOperation job.mutation = .insert then 0 else 1) ++
  issueIf (decide (mutationOperation job.mutation ≠ .insert) && job.target.primaryKey.value.isNone)
    "UPDATE and DELETE require a primary-key value" [.key "target", .key "primary_key", .key "value"] ++
  (if mutationOperation job.mutation = .delete then
    issueIf (!job.allowedColumns.isEmpty) "DELETE must not allow write columns" [.key "allowed_columns"]
  else
    validateAllowedPatchColumns job.allowedColumns (mutationPatch job.mutation).keys job.target.primaryKey.column
      job.tenantGuard.column ++
    publicPrincipalIssues job.toPublicHeader) ++
  (match job.mutation with
  | .update _ conflictGuard versionAdvance =>
    issueIf (versionAdvance.any fun v => match conflictGuard with
        | .column column _ => v.column != column
        | _ => true)
      "version advance must match the column conflict guard" [.key "mutation", .key "version_advance", .key "column"]
  | .insert values deduplication =>
    validateResolvedDeduplication deduplication values job.tenantGuard
      [.key "mutation", .key "deduplication", .key "components"]
  | .delete _ _ => [])

/-- `writebackJobV3Schema`. -/
def v3Fields (platform : Platform) (job : WritebackJobV3) : Bool :=
  publicHeaderFields platform job.toPublicHeader && decide (job.allowedColumns.length ≤ 256) && boundedRecord job.patch &&
  job.versionAdvance.all (fun v => safeIdentifier v.column) &&
  decide (1 ≤ job.frozenSet.maxRows ∧ job.frozenSet.maxRows ≤ 100) &&
  decide (1 ≤ job.frozenSet.rowCount ∧ job.frozenSet.rowCount ≤ 100) &&
  decide (1 ≤ job.frozenSet.aggregateBounds.length ∧ job.frozenSet.aggregateBounds.length ≤ 8) &&
  job.frozenSet.aggregateBounds.all (fun b => safeIdentifier b.column && decide (0 ≤ b.maximum ∧ 0 ≤ b.actual)) &&
  decide (1 ≤ job.frozenSet.members.length ∧ job.frozenSet.members.length ≤ 100) &&
  job.frozenSet.members.all memberFields && job.inverseCapture.all (inverseDescriptorV1Schema platform)

/-- The refinement asks only for a frozen set and for its freshness. -/
def v3Issues (platform : Platform) (job : WritebackJobV3) : List Issue :=
  frozenSetIssues platform job.frozenSet ++
  validateFreshnessBinding job.freshness job.sourceId job.engine
    (if job.operation = .batchInsert then .notApplicable else .frozenSet)
    (if job.operation = .batchInsert then 0 else job.frozenSet.rowCount)

/-- `writebackJobV4Schema`. -/
def v4Fields (platform : Platform) (job : WritebackJobV4) : Bool :=
  publicHeaderFields platform job.toPublicHeader && decide (job.allowedColumns.length ≤ 256) &&
  inverseDescriptorV1Schema platform job.compensation

def v4Issues (job : WritebackJobV4) : List Issue :=
  issueIf (decide (job.compensation.availability ≠ .available)) "compensation job requires an available inverse"
    [.key "compensation", .key "availability"] ++
  issueIf (decide (job.compensation.target.sourceId ≠ job.sourceId)) "compensation source must match runner scope"
    [.key "compensation", .key "target", .key "source_id"] ++
  issueIf (decide (job.operation ≠ job.compensation.operation ∨ job.target.schema ≠ job.compensation.target.schema ∨
      job.target.table ≠ job.compensation.target.table ∨
      job.target.primaryKey.column ≠ job.compensation.target.primaryKeyColumn ∨
      job.tenantGuard.column ≠ job.compensation.tenantGuard.column ∨
      job.tenantGuard.value ≠ job.compensation.tenantGuard.value))
    "compensation public authority must match descriptor" [.key "compensation"] ++
  issueIf (decide (job.principalScope ≠ job.compensation.principalScope))
    "compensation principal authority must match descriptor" [.key "compensation", .key "principal_scope"]

def publicFields (platform : Platform) : PublicJob → Bool
  | .v1 job => v1Fields platform job
  | .v2 job => v2Fields platform job
  | .v3 job => v3Fields platform job
  | .v4 job => v4Fields platform job

def publicIssues (platform : Platform) : PublicJob → List Issue
  | .v1 job => v1Issues job
  | .v2 job => v2Issues job
  | .v3 job => v3Issues platform job
  | .v4 job => v4Issues job

/-! ### Parsing -/

/-- The field checks of the schema of a normalized job. -/
def normalizedFields (platform : Platform) (job : NormalizedJob) : Bool :=
  jobFields platform job.job && job.job.target.principalScope.all (principalScopeFields platform) &&
  job.contract.all fun contract => nonEmpty contract.contractId && nonEmpty contract.contractVersionId

/-- `writebackJobSchema`: the versions differ, so at most one member of the union can
    accept an input. -/
def writebackJobSchema (platform : Platform) : JobInput → Except (List Issue) NormalizedJob
  | .publicJob job =>
    if publicFields platform job then
      match publicIssues platform job with
      | [] => .ok (normalize job)
      | issues => .error issues
    else .error []
  | .normalizedJob job =>
    if normalizedFields platform job then
      match jobIssues platform job.job with
      | [] => .ok job
      | issues => .error issues
    else .error []

theorem writebackJobSchema_public {platform : Platform} {job : PublicJob} {out : NormalizedJob}
    (accepted : writebackJobSchema platform (.publicJob job) = .ok out) :
    publicFields platform job = true ∧ publicIssues platform job = [] ∧ out = normalize job := by
  simp only [writebackJobSchema] at accepted
  by_cases fields : publicFields platform job = true
  · rw [if_pos fields] at accepted
    cases issues : publicIssues platform job with
    | nil =>
      rw [issues] at accepted
      exact ⟨fields, rfl, (Except.ok.inj accepted).symm⟩
    | cons issue more =>
      rw [issues] at accepted
      cases accepted
  · rw [if_neg fields] at accepted
    cases accepted

theorem writebackJobSchema_normalized {platform : Platform} {job : NormalizedJob} :
    writebackJobSchema platform (.normalizedJob job) = .ok job ↔
      normalizedFields platform job = true ∧ jobIssues platform job.job = [] := by
  simp only [writebackJobSchema]
  by_cases fields : normalizedFields platform job = true
  · rw [if_pos fields]
    cases jobIssues platform job.job with
    | nil => simp [fields]
    | cons issue more => simp
  · rw [if_neg fields]
    simp [fields]

/-! ### What the schemas share -/

theorem sha256Text_nonEmpty {s : String} (digest : sha256Text s = true) : nonEmpty s = true := by
  by_cases empty : s = ""
  · rw [empty] at digest
    exact absurd digest (by decide)
  · simp [nonEmpty, empty]

/-- The header of a normalized job passes the field checks of its schema. -/
theorem headerFields_of_public {platform : Platform} {job : PublicHeader} (fields : publicHeaderFields platform job = true)
    (primaryKey : PrimaryKeyTarget) (column : primaryKey.column = job.target.primaryKey.column) :
    headerFields (jobHeader job primaryKey) = true ∧ sha256Text job.proposalHash = true ∧ 0 < job.lease.attempt ∧
      job.principalScope.all (principalScopeFields platform) = true := by
  simp only [publicHeaderFields, Bool.and_eq_true, decide_eq_true_eq] at fields
  obtain ⟨⟨⟨⟨⟨⟨⟨⟨⟨⟨⟨⟨⟨⟨⟨jobId, proposalId⟩, -⟩, hash⟩, -⟩, source⟩, schema⟩, table⟩, key⟩, tenant⟩, principal⟩, allowed⟩, idempotency⟩, -⟩,
    attempt⟩, -⟩ := fields
  refine ⟨?_, hash, attempt, principal⟩
  have scope : job.principalScope.all (fun s => safeIdentifier s.column && safeIdentifier s.binding) = true := by
    cases known : job.principalScope with
    | none => rfl
    | some s =>
      rw [known] at principal
      simp only [Option.all_some, principalScopeFields, Bool.and_eq_true] at principal ⊢
      exact principal.1
  simp only [headerFields, jobHeader, jobTarget, Bool.and_eq_true, column]
  exact ⟨⟨⟨⟨⟨⟨⟨⟨⟨⟨jobId, proposalId⟩, sha256Text_nonEmpty hash⟩, source⟩, schema⟩, table⟩, key⟩, tenant⟩, scope⟩, allowed⟩, idempotency⟩

theorem safeIdentifier_nonEmpty {s : String} (safe : safeIdentifier s = true) : nonEmpty s = true := by
  by_cases empty : s = ""
  · rw [empty] at safe
    exact absurd safe (by decide)
  · simp [nonEmpty, empty]

/-- The columns of a checked patch are allowed. -/
theorem patch_allowed {allowed patch : List Column} {primaryKey tenant : Column}
    (none : validateAllowedPatchColumns allowed patch primaryKey tenant = []) : ∀ column ∈ patch, column ∈ allowed := by
  intro column member
  unfold validateAllowedPatchColumns at none
  rw [List.append_eq_nil_iff, List.append_eq_nil_iff, List.flatMap_eq_nil_iff] at none
  have checked := none.1.1 column member
  by_cases safe : safeIdentifier column = true
  · rw [if_pos safe] at checked
    simpa using checked
  · rw [if_neg safe] at checked
    simp at checked

theorem keys_length_le {patch : Record} {allowed : List Column} (within : ∀ column ∈ patch.keys, column ∈ allowed) :
    patch.size ≤ allowed.length := by
  have short := (List.subperm_of_subset patch.keys_nodup within).length_le
  simpa [KeyedMap.size, KeyedMap.keys] using short

theorem validateResolvedDeduplication_path {components : List DeduplicationComponent} {values : Record} {tenant : ColumnValue}
    (path other : List PathItem) : validateResolvedDeduplication components values tenant path = [] →
      validateResolvedDeduplication components values tenant other = [] := by
  unfold validateResolvedDeduplication
  simp only [List.append_eq_nil_iff, List.flatMap_eq_nil_iff, issueIf_eq_nil]
  exact id

/-! ### Closure, version by version -/

theorem normalizedFields_of_public {platform : Platform} {job : PublicJob} (header : publicHeaderFields platform (publicHeader job) = true)
    (fields : jobFields platform (normalizedJob job) = true) : normalizedFields platform (normalize job) = true := by
  have scope : (normalizedJob job).target.principalScope = (publicHeader job).principalScope := by
    cases job <;> rfl
  obtain ⟨-, -, -, principal⟩ := headerFields_of_public header ⟨_, none⟩ rfl
  simp only [normalizedFields, normalize, Bool.and_eq_true]
  refine ⟨⟨fields, ?_⟩, rfl⟩
  rw [scope]
  exact principal

theorem v1_closed {platform : Platform} {job : WritebackJobV1} (fields : v1Fields platform job = true) (issues : v1Issues job = []) :
    legacyJobFields (normalizeV1 job) = true ∧ legacyJobIssues (normalizeV1 job) = [] := by
  refine ⟨?_, issues⟩
  simp only [v1Fields, Bool.and_eq_true] at fields
  obtain ⟨⟨⟨⟨header, key⟩, allowed⟩, patch⟩, conflict⟩ := fields
  obtain ⟨shared, -, -, -⟩ := headerFields_of_public header job.target.primaryKey rfl
  simp only [legacyJobFields, Bool.and_eq_true]
  refine ⟨⟨⟨⟨shared, key⟩, allowed⟩, patch⟩, ?_⟩
  cases known : job.conflictGuard with
  | column column value =>
    rw [known] at conflict
    simp only [normalizeV1, known, normalizeConflictGuard]
    exact safeIdentifier_nonEmpty conflict
  | rowHash hash =>
    rw [known] at conflict
    simp only [normalizeV1, known, normalizeConflictGuard]
    exact conflict
  | none => simp only [normalizeV1, known, normalizeConflictGuard]

/-- The refinements of both schemas of the second version agree. -/
theorem v2_issues {platform : Platform} {job : WritebackJobV2} (fields : v2Fields platform job = true) (issues : v2Issues job = []) :
    rowJobIssues (normalizeV2 job) = [] := by
  simp only [v2Fields, Bool.and_eq_true] at fields
  obtain ⟨⟨-, mutation⟩, -⟩ := fields
  simp only [v2Issues, List.append_eq_nil_iff] at issues
  obtain ⟨⟨⟨freshness, key⟩, columns⟩, own⟩ := issues
  simp only [rowJobIssues, List.append_eq_nil_iff]
  refine ⟨⟨⟨freshness, key⟩, ?_⟩, ?_⟩
  · cases known : job.mutation with
    | update values conflictGuard versionAdvance =>
      rw [known] at columns mutation
      simp only [mutationOperation, reduceCtorEq, if_false, List.append_eq_nil_iff] at columns
      simp only [mutationFields, Bool.and_eq_true, Bool.not_eq_true'] at mutation
      simp only [normalizeV2, known, mutationOperation, reduceCtorEq, if_false, List.append_eq_nil_iff, issueIf_eq_nil]
      exact ⟨⟨columns.1, columns.2⟩, mutation.1.1⟩
    | insert values deduplication =>
      rw [known] at columns mutation
      simp only [mutationOperation, reduceCtorEq, if_false, List.append_eq_nil_iff] at columns
      simp only [mutationFields, Bool.and_eq_true, Bool.not_eq_true'] at mutation
      simp only [normalizeV2, known, mutationOperation, reduceCtorEq, if_false, List.append_eq_nil_iff, issueIf_eq_nil]
      exact ⟨⟨columns.1, columns.2⟩, mutation.1⟩
    | delete guardColumn expectedValue =>
      rw [known] at columns
      simp only [mutationOperation, if_true, issueIf_eq_nil, Bool.not_eq_false'] at columns
      simp [normalizeV2, known, mutationOperation, mutationPatch, jobHeader, KeyedMap.empty]
      simpa using columns
  · cases known : job.mutation with
    | update values conflictGuard versionAdvance =>
      rw [known] at own
      simp only [issueIf_eq_nil] at own
      simp only [normalizeV2, known, mutationOperation, mutationDeduplication, mutationAdvance, mutationGuard,
        List.append_eq_nil_iff, issueIf_eq_nil]
      refine ⟨rfl, ?_⟩
      cases conflictGuard <;> exact own
    | insert values deduplication =>
      rw [known] at own
      simp only [normalizeV2, known, mutationOperation, mutationDeduplication, mutationAdvance, mutationGuard, mutationPatch,
        List.append_eq_nil_iff, issueIf_eq_nil]
      exact ⟨validateResolvedDeduplication_path _ _ own, rfl⟩
    | delete guardColumn expectedValue =>
      simp only [normalizeV2, known, mutationOperation, mutationDeduplication, mutationAdvance, mutationGuard, issueIf_eq_nil]
      rfl

theorem v2_patch_allowed {job : WritebackJobV2} (issues : v2Issues job = []) :
    ∀ column ∈ (mutationPatch job.mutation).keys, column ∈ job.allowedColumns := by
  simp only [v2Issues, List.append_eq_nil_iff] at issues
  obtain ⟨⟨-, columns⟩, -⟩ := issues
  cases known : job.mutation with
  | update values conflictGuard versionAdvance =>
    rw [known] at columns
    simp only [mutationOperation, reduceCtorEq, if_false, List.append_eq_nil_iff] at columns
    exact patch_allowed columns.1
  | insert values deduplication =>
    rw [known] at columns
    simp only [mutationOperation, reduceCtorEq, if_false, List.append_eq_nil_iff] at columns
    exact patch_allowed columns.1
  | delete guardColumn expectedValue =>
    intro column member
    simp [mutationPatch] at member

/-- The field checks of the second normalized version add a limit of columns. -/
theorem v2_fields_iff {platform : Platform} {job : WritebackJobV2} (fields : v2Fields platform job = true)
    (issues : v2Issues job = []) : rowJobFields platform (normalizeV2 job) = true ↔ job.allowedColumns.length ≤ 256 := by
  simp only [v2Fields, Bool.and_eq_true] at fields
  obtain ⟨⟨header, mutation⟩, inverse⟩ := fields
  obtain ⟨shared, hash, attempt, -⟩ := headerFields_of_public header job.target.primaryKey rfl
  have short := keys_length_le (v2_patch_allowed issues)
  constructor
  · intro accepted
    simp only [rowJobFields, Bool.and_eq_true, decide_eq_true_eq] at accepted
    exact accepted.1.1.1.1.1.1.1.2
  · intro limit
    have bounded : boundedRecord (mutationPatch job.mutation) = true := decide_eq_true (le_trans short limit)
    simp only [rowJobFields, Bool.and_eq_true, decide_eq_true_eq]
    refine ⟨⟨⟨⟨⟨⟨⟨⟨shared, limit⟩, hash⟩, bounded⟩, attempt⟩, ?_⟩, ?_⟩, ?_⟩, inverse⟩
    · cases known : job.mutation with
      | update values conflictGuard versionAdvance =>
        rw [known] at mutation
        simp only [mutationFields, Bool.and_eq_true] at mutation
        simp only [normalizeV2, known, mutationGuard]
        cases conflictGuard <;> exact mutation.1.2
      | insert values deduplication => simp only [normalizeV2, known, mutationGuard]
      | delete guardColumn expectedValue =>
        rw [known] at mutation
        simp only [normalizeV2, known, mutationGuard]
        exact mutation
    · cases known : job.mutation with
      | update values conflictGuard versionAdvance =>
        rw [known] at mutation
        simp only [mutationFields, Bool.and_eq_true] at mutation
        simp only [normalizeV2, known, mutationAdvance]
        exact mutation.2
      | insert values deduplication => simp [normalizeV2, known, mutationAdvance]
      | delete guardColumn expectedValue => simp [normalizeV2, known, mutationAdvance]
    · cases known : job.mutation with
      | update values conflictGuard versionAdvance => simp [normalizeV2, known, mutationDeduplication]
      | insert values deduplication =>
        rw [known] at mutation
        simp only [mutationFields, Bool.and_eq_true] at mutation
        simp only [normalizeV2, known, mutationDeduplication, Option.all_some]
        exact mutation.2
      | delete guardColumn expectedValue => simp [normalizeV2, known, mutationDeduplication]

/-- What the third normalized version asks of a job beside its frozen set. -/
structure SetAuthority (job : WritebackJobV3) : Prop where
  principal : ∀ s ∈ job.principalScope, s.column ∉ job.allowedColumns
  deletes : job.operation = .delete → job.allowedColumns = [] ∧ job.patch.entries = [] ∧ job.versionAdvance = none
  updates : job.operation = .update → job.patch.entries ≠ [] ∧ job.versionAdvance.isSome = true
  inserts : job.operation = .batchInsert → ∀ m ∈ job.frozenSet.members, m.deduplication.isSome = true

theorem v3_fields {platform : Platform} {job : WritebackJobV3} (fields : v3Fields platform job = true) :
    setJobFields platform (normalizeV3 job) = true := by
  simp only [v3Fields, Bool.and_eq_true, decide_eq_true_eq] at fields
  obtain ⟨⟨⟨⟨⟨⟨⟨⟨⟨⟨header, limit⟩, patch⟩, advance⟩, maxRows⟩, rowCount⟩, boundCount⟩, bounds⟩, memberCount⟩, members⟩, inverse⟩ := fields
  obtain ⟨shared, hash, attempt, -⟩ := headerFields_of_public header ⟨_, none⟩ rfl
  simp only [setJobFields, Bool.and_eq_true, decide_eq_true_eq]
  exact ⟨⟨⟨⟨⟨⟨⟨⟨⟨⟨⟨⟨shared, limit⟩, hash⟩, patch⟩, attempt⟩, advance⟩, maxRows⟩, rowCount⟩, boundCount⟩, bounds⟩, memberCount⟩, members⟩,
    inverse⟩

theorem v3_issues_iff {platform : Platform} {job : WritebackJobV3} (issues : v3Issues platform job = []) :
    setJobIssues platform (normalizeV3 job) = [] ↔ SetAuthority job := by
  simp only [v3Issues, List.append_eq_nil_iff] at issues
  obtain ⟨frozen, freshness⟩ := issues
  have principal : principalColumnIssues (normalizeV3 job).target (normalizeV3 job).allowedColumns = [] ↔
      ∀ s ∈ job.principalScope, s.column ∉ job.allowedColumns := by
    simp only [principalColumnIssues, issueIf_eq_nil, normalizeV3, jobHeader, jobTarget]
    cases job.principalScope <;> simp
  simp only [setJobIssues, List.append_eq_nil_iff, principal]
  simp only [issueIf_eq_nil, normalizeV3, jobHeader]
  constructor
  · rintro ⟨⟨⟨⟨-, kept⟩, deletes⟩, updates⟩, inserts⟩
    refine ⟨kept, ?_, ?_, ?_⟩
    · intro operation
      simpa [operation, and_assoc] using deletes
    · intro operation
      simpa [operation] using updates
    · intro operation m member
      simp [operation] at inserts
      exact inserts m member
  · intro authority
    refine ⟨⟨⟨⟨⟨frozen, freshness⟩, authority.principal⟩, ?_⟩, ?_⟩, ?_⟩
    · by_cases operation : job.operation = .delete
      · obtain ⟨columns, patch, advance⟩ := authority.deletes operation
        simp [columns, patch, advance]
      · simp [operation]
    · by_cases operation : job.operation = .update
      · obtain ⟨patch, advance⟩ := authority.updates operation
        simp [patch, advance]
      · simp [operation]
    · by_cases operation : job.operation = .batchInsert
      · have present := authority.inserts operation
        simp only [operation, decide_true, Bool.true_and, Bool.not_eq_false', List.all_eq_true]
        exact present
      · simp [operation]

theorem v4_closed {platform : Platform} {job : WritebackJobV4} (fields : v4Fields platform job = true) (issues : v4Issues job = []) :
    compensationJobFields platform (normalizeV4 job) = true ∧ compensationJobIssues (normalizeV4 job) = [] := by
  simp only [v4Fields, Bool.and_eq_true, decide_eq_true_eq] at fields
  obtain ⟨⟨header, limit⟩, descriptor⟩ := fields
  obtain ⟨shared, hash, attempt, -⟩ := headerFields_of_public header job.target.primaryKey rfl
  simp only [v4Issues, List.append_eq_nil_iff, issueIf_eq_nil, decide_eq_false_iff_not, not_or, not_not] at issues
  obtain ⟨⟨⟨-, source⟩, operation, schema, table, key, column, value⟩, principal⟩ := issues
  constructor
  · simp only [compensationJobFields, Bool.and_eq_true, decide_eq_true_eq]
    exact ⟨⟨⟨⟨shared, limit⟩, hash⟩, attempt⟩, descriptor⟩
  · simp only [compensationJobIssues, List.append_eq_nil_iff, issueIf_eq_nil, decide_eq_false_iff_not, not_or, not_not]
    exact ⟨⟨⟨operation, source.symm, schema, table, key⟩, column, value⟩, principal⟩

/-! ### Closure -/

def jobPatch : WritebackJob → Record
  | .v1 job => job.patch
  | .v2 job => job.patch
  | .v3 job => job.patch
  | .v4 _ => .empty

/-- A job is accepted as it is, and writes allowed columns only. -/
def Accepted (platform : Platform) (job : NormalizedJob) : Prop :=
  writebackJobSchema platform (.normalizedJob job) = .ok job ∧
    ∀ column ∈ (jobPatch job.job).keys, column ∈ job.job.allowedColumns

/-- What a public job needs for its normalized form to be accepted. -/
def Closable : PublicJob → Prop
  | .v1 _ => True
  | .v2 job => job.allowedColumns.length ≤ 256
  | .v3 job => SetAuthority job ∧ ∀ column ∈ job.patch.keys, column ∈ job.allowedColumns
  | .v4 _ => True

/-- The normalized form of an accepted public job is accepted, and unchanged, exactly
    when the job has what the normalized schema adds to the public one. -/
theorem reparse_iff {platform : Platform} {job : PublicJob} {out : NormalizedJob}
    (accepted : writebackJobSchema platform (.publicJob job) = .ok out) : Accepted platform out ↔ Closable job := by
  obtain ⟨fields, issues, rfl⟩ := writebackJobSchema_public accepted
  rw [Accepted, writebackJobSchema_normalized]
  cases job with
  | v1 job =>
    have header : publicHeaderFields platform job.toPublicHeader = true := by
      simp only [publicFields, v1Fields, Bool.and_eq_true] at fields
      exact fields.1.1.1.1
    obtain ⟨kept, none⟩ := v1_closed fields issues
    refine iff_of_true ⟨⟨normalizedFields_of_public header kept, none⟩, ?_⟩ trivial
    simp only [publicIssues, v1Issues, List.append_eq_nil_iff] at issues
    exact patch_allowed issues.1.2
  | v2 job =>
    have header : publicHeaderFields platform job.toPublicHeader = true := by
      simp only [publicFields, v2Fields, Bool.and_eq_true] at fields
      exact fields.1.1
    have limit := v2_fields_iff fields issues
    constructor
    · rintro ⟨⟨kept, -⟩, -⟩
      simp only [normalizedFields, Bool.and_eq_true] at kept
      exact limit.mp kept.1.1
    · intro short
      exact ⟨⟨normalizedFields_of_public header (limit.mpr short), v2_issues fields issues⟩, v2_patch_allowed issues⟩
  | v3 job =>
    have header : publicHeaderFields platform job.toPublicHeader = true := by
      simp only [publicFields, v3Fields, Bool.and_eq_true] at fields
      exact fields.1.1.1.1.1.1.1.1.1.1
    have kept : normalizedFields platform (normalize (.v3 job)) = true :=
      normalizedFields_of_public header (v3_fields fields)
    have authority := v3_issues_iff issues
    constructor
    · rintro ⟨⟨-, none⟩, patch⟩
      exact ⟨authority.mp none, patch⟩
    · rintro ⟨asked, patch⟩
      exact ⟨⟨kept, authority.mpr asked⟩, patch⟩
  | v4 job =>
    have header : publicHeaderFields platform job.toPublicHeader = true := by
      simp only [publicFields, v4Fields, Bool.and_eq_true] at fields
      exact fields.1.1
    obtain ⟨kept, none⟩ := v4_closed fields issues
    refine iff_of_true ⟨⟨normalizedFields_of_public header kept, none⟩, ?_⟩ trivial
    intro column member
    simp [jobPatch, normalize, normalizedJob] at member

def exampleHeader : PublicHeader where
  writebackJobId := "wbj_1"
  proposalId := "p1"
  proposalVersion := 1
  proposalHash := "sha256:1"
  projectId := "local"
  sourceId := "s"
  engine := .postgres
  target := ⟨"public", "orders", ⟨"id", some (.num 1)⟩⟩
  tenantGuard := ⟨"tenant", .str "t"⟩
  principalScope := none
  allowedColumns := ["status"]
  idempotencyKey := "p1:o1"
  lease := ⟨"l", 1, "2030-01-01T00:00:00.000Z"⟩

def updateV1 : WritebackJobV1 where
  toPublicHeader := exampleHeader
  patch := ⟨[("status", .str "open")], by decide⟩
  conflictGuard := .column "version" (.num 3)
  freshness := none

theorem updateV1_reparsed : Accepted constantPlatform (normalize (.v1 updateV1)) :=
  (reparse_iff (show writebackJobSchema constantPlatform (.publicJob (.v1 updateV1)) = .ok _ from rfl)).mpr trivial

/-- A set update without a version to advance. -/
def updateV3 : WritebackJobV3 where
  toPublicHeader := exampleHeader
  operation := .update
  patch := ⟨[("status", .str "open")], by decide⟩
  versionAdvance := none
  frozenSet := ⟨1, 1, [⟨"amount", .before, 10, 5⟩], [⟨⟨"id", .num 1⟩, none, .empty, .empty, none, none, none, none⟩], ⟨"00"⟩⟩
  freshness := none
  inverseCapture := none

/-- The public schema accepts the set update, and its normalized form is refused. -/
theorem set_update_refused : ¬ ∀ (platform : Platform) (job : PublicJob) (out : NormalizedJob),
    writebackJobSchema platform (.publicJob job) = .ok out → Accepted platform out := by
  intro claim
  have parsed : writebackJobSchema constantPlatform (.publicJob (.v3 updateV3)) = .ok (normalize (.v3 updateV3)) := rfl
  have again := writebackJobSchema_normalized.mp (claim _ _ _ parsed).1
  exact absurd ((v3_issues_iff (show v3Issues constantPlatform updateV3 = [] from rfl)).mp again.2).updates (by decide)

end SynapsorRunner.JobNormalisation
