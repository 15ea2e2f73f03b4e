import SynapsorRunner.KeyedMap
import Mathlib.Data.Rat.Defs

/-!
The values of the writeback protocol: scalars and column values, the guards of a
job, inverse descriptors, frozen sets, and writeback jobs of the four protocol
versions in their normalized form. A schema is the list of the issues it raises;
a value is accepted when the list is empty. Column values and digests are kept
as parsed; the digest functions and the collation of the runtime are parameters
(`Platform`).
-/
namespace SynapsorRunner.Protocol

abbrev Column := String

/-- `string | number | boolean | null`. -/
inductive Scalar where
  | null
  | bool (b : Bool)
  | num (n : Rat)
  | str (s : String)
  deriving DecidableEq, Repr, Inhabited

/-- A JSON object with scalar values, in the order of its properties. -/
abbrev Record := KeyedMap Column Scalar

/-- A text that `/^sha256:.+/` accepts, without its prefix. -/
structure Digest where
  hex : String
  deriving DecidableEq, Repr, Inhabited

structure ColumnValue where
  column : Column
  value : Scalar
  deriving DecidableEq, Repr, Inhabited

inductive Engine where
  | postgres
  | mysql
  deriving DecidableEq, Repr, Inhabited

/-- `/^[A-Za-z_][A-Za-z0-9_]*$/`. -/
def safeIdentifier (s : String) : Bool :=
  match s.toList with
  | [] => false
  | c :: rest => (c.isAlpha || c == '_') && rest.all fun c => c.isAlphanum || c == '_'

/-- `/^[A-Z][A-Z0-9_]*$/`. -/
def safeCode (s : String) : Bool :=
  match s.toList with
  | [] => false
  | c :: rest => c.isUpper && rest.all fun c => c.isUpper || c.isDigit || c == '_'

def nonEmpty (s : String) : Bool := s != ""

/-! ### Issues of a schema -/

/-- One step of the path of an issue: an object key or an array index. -/
inductive PathItem where
  | key (name : String)
  | index (i : Nat)
  deriving DecidableEq, Repr

structure Issue where
  message : String
  path : List PathItem
  deriving DecidableEq, Repr

/-- The issue a refinement raises when its condition holds. -/
def issueIf (broken : Bool) (message : String) (path : List PathItem) : List Issue :=
  if broken then [⟨message, path⟩] else []

@[simp] theorem issueIf_eq_nil {broken : Bool} {message : String} {path : List PathItem} :
    issueIf broken message path = [] ↔ broken = false := by
  cases broken <;> simp [issueIf]

/-! ### What the runtime provides -/

/-- What the protocol hashes. -/
inductive DigestMaterial where
  | memberBefore (primaryKey : Scalar) (before : Record)
  | memberAfter (primaryKey : Scalar) (after : Record)
  | memberTombstone (primaryKey : Scalar) (expectedVersion : ColumnValue)
  | fields (fields : List (String × Scalar))
  | tagged (tag : String) (parts : List DigestMaterial)

/-- The collation of `localeCompare` on the JSON texts of identities, and the
    digest functions: SHA-256 of canonical JSON and of JSON in insertion order. -/
structure Platform where
  localeCompare : Scalar → Scalar → Ordering
  canonicalJsonDigest : DigestMaterial → Digest
  jsonDigest : DigestMaterial → Digest

/-- A platform with one digest and no collation, to evaluate definitions with. -/
def constantPlatform : Platform := ⟨fun _ _ => .eq, fun _ => ⟨"00"⟩, fun _ => ⟨"00"⟩⟩

/-! ### Guards and scopes -/

inductive TrustedScopeProvider where
  | environment
  | httpClaims
  | cloudSession
  | staticDev
  deriving DecidableEq, Repr

structure PrincipalScopeGuard where
  column : Column
  binding : String
  provider : TrustedScopeProvider
  valueFingerprint : Digest
  value : Option Scalar
  deriving DecidableEq, Repr

inductive ConflictGuard where
  | versionColumn (column : Column) (expectedValue : Scalar)
  | rowHash (expectedHash : String)
  | none
  deriving DecidableEq, Repr

inductive VersionStrategy where
  | integerIncrement
  | databaseGenerated
  deriving DecidableEq, Repr

structure VersionAdvance where
  column : Column
  strategy : VersionStrategy
  deriving DecidableEq, Repr

inductive DeduplicationSource where
  | proposalId
  | trustedTenant
  | fixed
  deriving DecidableEq, Repr

structure DeduplicationComponent where
  column : Column
  value : Scalar
  source : DeduplicationSource
  deriving DecidableEq, Repr

inductive AggregateMeasure where
  | before
  | after
  | absoluteDelta
  deriving DecidableEq, Repr

structure AggregateBound where
  column : Column
  measure : AggregateMeasure
  maximum : Rat
  actual : Rat
  deriving DecidableEq, Repr

/-- `boundedScalarRecord`. -/
def boundedRecord (r : Record) : Bool := decide (r.size ≤ 256)

/-- Neighbours in deterministic identity order. -/
def identitiesOrdered (platform : Platform) : List Scalar → Bool
  | [] => true
  | [_] => true
  | a :: b :: rest => platform.localeCompare a b != .gt && identitiesOrdered platform (b :: rest)

/-! ### Frozen sets -/

structure FrozenSetMember where
  primaryKey : ColumnValue
  expectedVersion : Option ColumnValue
  before : Record
  after : Record
  beforeDigest : Option Digest
  afterDigest : Option Digest
  tombstoneDigest : Option Digest
  deduplication : Option (List DeduplicationComponent)
  deriving DecidableEq

structure FrozenSet where
  maxRows : Nat
  rowCount : Nat
  aggregateBounds : List AggregateBound
  members : List FrozenSetMember
  setDigest : Digest
  deriving DecidableEq

def FrozenSet.identities (set : FrozenSet) : List Scalar := set.members.map (·.primaryKey.value)

/-- `frozenSetSchema`. -/
def frozenSetIssues (platform : Platform) (set : FrozenSet) : List Issue :=
  issueIf (decide (set.members.length ≠ set.rowCount ∨ set.rowCount > set.maxRows))
    "frozen set count must equal members and remain within max_rows" [.key "row_count"] ++
  (set.aggregateBounds.zipIdx.flatMap fun (bound, i) =>
    issueIf (decide (bound.actual > bound.maximum)) "frozen set aggregate exceeds reviewed maximum"
      [.key "aggregate_bounds", .index i, .key "actual"]) ++
  issueIf (decide (¬ set.identities.Nodup)) "frozen set primary keys must be unique" [.key "members"] ++
  issueIf (!identitiesOrdered platform set.identities)
    "frozen set members must use deterministic primary-key ordering" [.key "members"]

/-! ### Inverse descriptors -/

inductive ReversalOperation where
  | restoreUpdate
  | removeInsert
  | restoreInsert
  deriving DecidableEq, Repr

structure ReversalLineage where
  rootProposalId : String
  parentProposalId : String
  revertsProposalId : String
  depth : Nat
  deriving DecidableEq, Repr

structure InverseMember where
  primaryKey : ColumnValue
  expectedState : Record
  restoreValues : Option Record
  deriving DecidableEq

inductive Availability where
  | available
  | bestEffortUnavailable
  deriving DecidableEq, Repr

inductive Cardinality where
  | single
  | set
  deriving DecidableEq, Repr

structure InverseTarget where
  sourceId : String
  schema : String
  table : String
  primaryKeyColumn : Column
  deriving DecidableEq, Repr

structure InverseDescriptor where
  availability : Availability
  reasonCodes : List String
  operation : ReversalOperation
  cardinality : Cardinality
  forwardProposalId : String
  forwardWritebackJobId : String
  target : InverseTarget
  tenantGuard : ColumnValue
  principalScope : Option PrincipalScopeGuard
  allowedColumns : List Column
  members : List InverseMember
  maxRows : Nat
  aggregateBounds : List AggregateBound
  versionAdvance : Option VersionAdvance
  lineage : ReversalLineage
  deriving DecidableEq

def InverseDescriptor.identities (d : InverseDescriptor) : List Scalar := d.members.map (·.primaryKey.value)

/-- Whether a record is present and has a property. -/
def hasFields : Option Record → Bool
  | none => false
  | some r => !r.entries.isEmpty

/-- The field checks of `inverseDescriptorV1Schema`. -/
def inverseDescriptorFields (d : InverseDescriptor) : Bool :=
  d.reasonCodes.all safeCode && decide (d.reasonCodes.length ≤ 8) &&
  nonEmpty d.forwardProposalId && nonEmpty d.forwardWritebackJobId &&
  nonEmpty d.target.sourceId && safeIdentifier d.target.schema && safeIdentifier d.target.table &&
  safeIdentifier d.target.primaryKeyColumn && safeIdentifier d.tenantGuard.column &&
  d.principalScope.all (fun s => safeIdentifier s.column && safeIdentifier s.binding) &&
  d.allowedColumns.all safeIdentifier && decide (d.allowedColumns.length ≤ 256) &&
  decide (1 ≤ d.members.length ∧ d.members.length ≤ 100) &&
  d.members.all (fun m => safeIdentifier m.primaryKey.column && boundedRecord m.expectedState &&
    m.restoreValues.all boundedRecord) &&
  decide (1 ≤ d.maxRows ∧ d.maxRows ≤ 100) && decide (d.aggregateBounds.length ≤ 8) &&
  d.aggregateBounds.all (fun b => safeIdentifier b.column && decide (0 ≤ b.maximum ∧ 0 ≤ b.actual)) &&
  d.versionAdvance.all (fun v => safeIdentifier v.column) &&
  nonEmpty d.lineage.rootProposalId && nonEmpty d.lineage.parentProposalId &&
  nonEmpty d.lineage.revertsProposalId && decide (1 ≤ d.lineage.depth ∧ d.lineage.depth ≤ 16)

/-- The checks of `inverseDescriptorV1Schema` on one member. -/
def inverseMemberIssues (d : InverseDescriptor) (member : InverseMember) (i : Nat) : List Issue :=
  let available := decide (d.availability = .available)
  issueIf (decide (member.primaryKey.column ≠ d.target.primaryKeyColumn))
    "inverse member primary key must match target" [.key "members", .index i, .key "primary_key", .key "column"] ++
  issueIf (available && decide (d.operation = .restoreUpdate) &&
      (!hasFields member.restoreValues || member.expectedState.entries.isEmpty))
    "restore_update requires expected state and restore values" [.key "members", .index i] ++
  issueIf (available && decide (d.operation = .removeInsert) &&
      (member.restoreValues.isSome || member.expectedState.entries.isEmpty))
    "remove_insert requires expected state and no restore values" [.key "members", .index i] ++
  issueIf (available && decide (d.operation = .restoreInsert) &&
      (!hasFields member.restoreValues || !member.expectedState.entries.isEmpty))
    "restore_insert requires an absent expected state and exact restore values" [.key "members", .index i]

/-- The refinements of `inverseDescriptorV1Schema`. -/
def inverseDescriptorIssues (platform : Platform) (d : InverseDescriptor) : List Issue :=
  issueIf (decide (d.members.length > d.maxRows)) "inverse members exceed max_rows" [.key "members"] ++
  issueIf (decide (¬ d.identities.Nodup)) "inverse primary keys must be unique" [.key "members"] ++
  issueIf (!identitiesOrdered platform d.identities)
    "inverse members must use deterministic primary-key ordering" [.key "members"] ++
  (d.members.zipIdx.flatMap fun (member, i) => inverseMemberIssues d member i) ++
  issueIf (decide (d.operation = .restoreUpdate) &&
      !d.versionAdvance.any (fun v => decide (v.strategy = .integerIncrement)))
    "restore_update requires integer version advancement" [.key "version_advance"] ++
  issueIf (decide (d.operation ≠ .restoreUpdate) && d.versionAdvance.isSome)
    "version advancement is valid only for restore_update" [.key "version_advance"] ++
  issueIf (decide (d.availability = .available) && !d.reasonCodes.isEmpty)
    "available inverse must not carry unavailability reasons" [.key "reason_codes"] ++
  issueIf (decide (d.availability = .bestEffortUnavailable) && d.reasonCodes.isEmpty)
    "unavailable inverse requires specific reason codes" [.key "reason_codes"]

/-- `inverseDescriptorV1Schema`. -/
def inverseDescriptorV1Schema (platform : Platform) (d : InverseDescriptor) : Bool :=
  inverseDescriptorFields d && (inverseDescriptorIssues platform d).isEmpty

/-! ### Freshness -/

structure FreshnessDependency where
  id : String
  capability : String
  sourceId : String
  engine : Engine
  schema : String
  table : String
  primaryKey : ColumnValue
  tenantColumn : Column
  principalColumn : Option Column
  expectedVersion : ColumnValue
  deriving DecidableEq, Repr

inductive FreshnessTargetMode where
  | exactGuard
  | frozenSet
  | notApplicable
  deriving DecidableEq, Repr

structure FreshnessAuthority where
  targetMode : FreshnessTargetMode
  memberCount : Nat
  dependencies : List FreshnessDependency
  deriving DecidableEq, Repr

def FreshnessTargetMode.text : FreshnessTargetMode → String
  | .exactGuard => "exact_guard"
  | .frozenSet => "frozen_set"
  | .notApplicable => "not_applicable"

def validateFreshnessBinding (freshness : Option FreshnessAuthority) (sourceId : String) (engine : Engine)
    (expectedTargetMode : FreshnessTargetMode) (expectedMemberCount : Nat) : List Issue :=
  match freshness with
  | none => []
  | some f =>
    issueIf (decide (f.targetMode ≠ expectedTargetMode ∨ f.memberCount ≠ expectedMemberCount))
      ("freshness target authority must be " ++ expectedTargetMode.text ++ " with " ++ toString expectedMemberCount ++
        " reviewed member(s)") [.key "freshness", .key "target"] ++
    f.dependencies.zipIdx.flatMap fun (d, i) =>
      issueIf (decide (d.sourceId ≠ sourceId ∨ d.engine ≠ engine))
        "freshness dependencies must use the proposal/writeback source and engine"
        [.key "freshness", .key "dependencies", .index i, .key "source_id"]

/-! ### Writeback jobs -/

structure PrimaryKeyTarget where
  column : Column
  value : Option Scalar
  deriving DecidableEq, Repr

structure JobTarget where
  schema : String
  table : String
  primaryKey : PrimaryKeyTarget
  tenantGuard : ColumnValue
  principalScope : Option PrincipalScopeGuard
  deriving DecidableEq, Repr

inductive RowOperation where
  | update
  | insert
  | delete
  deriving DecidableEq, Repr

inductive SetOperation where
  | update
  | delete
  | batchInsert
  deriving DecidableEq, Repr

/-- What jobs of every protocol version carry. `approvalId` is the hash of the
    approved proposal. -/
structure JobHeader where
  jobId : String
  proposalId : String
  approvalId : String
  sourceId : String
  engine : Engine
  target : JobTarget
  allowedColumns : List Column
  idempotencyKey : String
  attemptCount : Nat
  deriving DecidableEq, Repr

/-- Protocol version 1.0: a single-row update. -/
structure LegacyJob extends JobHeader where
  patch : Record
  conflictGuard : ConflictGuard
  freshness : Option FreshnessAuthority
  deriving DecidableEq

/-- Protocol version 2.0: a single-row update, insert or delete. -/
structure RowJob extends JobHeader where
  operation : RowOperation
  patch : Record
  conflictGuard : ConflictGuard
  freshness : Option FreshnessAuthority
  versionAdvance : Option VersionAdvance
  deduplication : Option (List DeduplicationComponent)
  inverseCapture : Option InverseDescriptor
  deriving DecidableEq

/-- Protocol version 3.0: an update, delete or insert of a frozen set. -/
structure SetJob extends JobHeader where
  operation : SetOperation
  patch : Record
  freshness : Option FreshnessAuthority
  versionAdvance : Option VersionAdvance
  frozenSet : FrozenSet
  inverseCapture : Option InverseDescriptor
  deriving DecidableEq

/-- Protocol version 4.0: the reversal of an applied job. -/
structure CompensationJob extends JobHeader where
  operation : ReversalOperation
  compensation : InverseDescriptor
  forwardReceiptHash : Digest
  deriving DecidableEq

inductive WritebackJob where
  | v1 (job : LegacyJob)
  | v2 (job : RowJob)
  | v3 (job : SetJob)
  | v4 (job : CompensationJob)
  deriving DecidableEq

/-- The operations of jobs of all versions. -/
inductive Operation where
  | row (operation : RowOperation)
  | set (operation : SetOperation)
  | reversal (operation : ReversalOperation)
  deriving DecidableEq, Repr

namespace WritebackJob

def header : WritebackJob → JobHeader
  | v1 job => job.toJobHeader
  | v2 job => job.toJobHeader
  | v3 job => job.toJobHeader
  | v4 job => job.toJobHeader

def jobId (job : WritebackJob) : String := job.header.jobId
def proposalId (job : WritebackJob) : String := job.header.proposalId
def approvalId (job : WritebackJob) : String := job.header.approvalId
def idempotencyKey (job : WritebackJob) : String := job.header.idempotencyKey
def target (job : WritebackJob) : JobTarget := job.header.target
def allowedColumns (job : WritebackJob) : List Column := job.header.allowedColumns

/-- `job.operation ?? "single_row_update"`. -/
def operation : WritebackJob → Operation
  | v1 _ => .row .update
  | v2 job => .row job.operation
  | v3 job => .set job.operation
  | v4 job => .reversal job.operation

def freshness : WritebackJob → Option FreshnessAuthority
  | v1 job => job.freshness
  | v2 job => job.freshness
  | v3 job => job.freshness
  | v4 _ => none

end WritebackJob

/-! ### The schemas of normalized jobs -/

def validateAllowedPatchColumns (allowedColumns patchColumns : List Column) (primaryKeyColumn tenantGuardColumn : Column) :
    List Issue :=
  (patchColumns.flatMap fun column =>
    if safeIdentifier column then
      issueIf (!allowedColumns.contains column) ("patch column not allowed: " ++ column) [.key "patch", .key column]
    else [⟨"patch column is not a fixed safe identifier: " ++ column, [.key "patch", .key column]⟩]) ++
  issueIf (allowedColumns.contains primaryKeyColumn) "primary key column must not be patch-allowlisted"
    [.key "allowed_columns"] ++
  issueIf (allowedColumns.contains tenantGuardColumn) "tenant guard column must not be patch-allowlisted"
    [.key "allowed_columns"]

/-- The refinement of every schema that keeps the principal out of the patch. -/
def principalColumnIssues (target : JobTarget) (allowedColumns : List Column) : List Issue :=
  issueIf (target.principalScope.any fun s => allowedColumns.contains s.column)
    "principal scope column must not be patch-allowlisted" [.key "allowed_columns"]

def validateResolvedDeduplication (components : List DeduplicationComponent) (values : Record) (tenantGuard : ColumnValue)
    (path : List PathItem) : List Issue :=
  (components.zipIdx.flatMap fun (component, i) =>
    issueIf ((components.take i).any fun earlier => earlier.column == component.column)
      "deduplication columns must be unique" (path ++ [.index i, .key "column"]) ++
    issueIf (values.contains component.column)
      "deduplication columns must be Runner-supplied, not mutation values" (path ++ [.index i, .key "column"]) ++
    issueIf (decide (component.source = .trustedTenant) &&
        decide (component.column ≠ tenantGuard.column ∨ component.value ≠ tenantGuard.value))
      "trusted tenant deduplication must match tenant_guard" (path ++ [.index i])) ++
  issueIf (!components.any fun component => decide (component.source = .proposalId))
    "INSERT deduplication must include proposal_id" path ++
  issueIf (!components.any fun component => decide (component.source = .trustedTenant ∧
      component.column = tenantGuard.column ∧ component.value = tenantGuard.value))
    "INSERT deduplication must include trusted tenant" path

/-- The field checks that all normalized job schemas share. -/
def headerFields (job : JobHeader) : Bool :=
  nonEmpty job.jobId && nonEmpty job.proposalId && nonEmpty job.approvalId && nonEmpty job.sourceId &&
  safeIdentifier job.target.schema && safeIdentifier job.target.table && safeIdentifier job.target.primaryKey.column &&
  safeIdentifier job.target.tenantGuard.column &&
  job.target.principalScope.all (fun s => safeIdentifier s.column && safeIdentifier s.binding) &&
  job.allowedColumns.all safeIdentifier && nonEmpty job.idempotencyKey

/-- What `.` of a regular expression does not match. -/
def lineTerminators : List Char := ['\n', '\r', Char.ofNat 0x2028, Char.ofNat 0x2029]

/-- `/^sha256:.+/` on a text. -/
def sha256Text (s : String) : Bool :=
  "sha256:".toList.isPrefixOf s.toList && match s.toList.drop 7 with
    | [] => false
    | c :: _ => !lineTerminators.contains c

def componentFields (components : List DeduplicationComponent) : Bool :=
  decide (1 ≤ components.length ∧ components.length ≤ 8) && components.all fun c => safeIdentifier c.column

/-- `legacyWritebackJobSchema`. -/
def legacyJobIssues (job : LegacyJob) : List Issue :=
  validateFreshnessBinding job.freshness job.sourceId job.engine .exactGuard 1 ++
  validateAllowedPatchColumns job.allowedColumns job.patch.keys job.target.primaryKey.column
    job.target.tenantGuard.column ++
  principalColumnIssues job.target job.allowedColumns

def legacyJobFields (job : LegacyJob) : Bool :=
  headerFields job.toJobHeader && job.target.primaryKey.value.isSome && !job.allowedColumns.isEmpty &&
  !job.patch.entries.isEmpty &&
  (match job.conflictGuard with
  | .versionColumn column _ => nonEmpty column
  | .rowHash hash => nonEmpty hash
  | .none => true)

/-- `normalizedWritebackJobV2InputSchema`. -/
def rowJobIssues (job : RowJob) : List Issue :=
  validateFreshnessBinding job.freshness job.sourceId job.engine
    (if job.operation = .insert then .notApplicable else .exactGuard) (if job.operation = .insert then 0 else 1) ++
  issueIf (decide (job.operation ≠ .insert) && job.target.primaryKey.value.isNone)
    "UPDATE and DELETE require a primary-key value" [.key "target", .key "primary_key", .key "value"] ++
  (if job.operation = .delete then
    issueIf (!job.allowedColumns.isEmpty || !job.patch.entries.isEmpty) "DELETE must not allow or carry write columns"
      [.key "allowed_columns"]
  else
    validateAllowedPatchColumns job.allowedColumns job.patch.keys job.target.primaryKey.column
      job.target.tenantGuard.column ++
    principalColumnIssues job.target job.allowedColumns ++
    issueIf job.patch.entries.isEmpty
      ((if job.operation = .insert then "single_row_insert" else "single_row_update") ++ " patch must not be empty")
      [.key "patch"]) ++
  (match job.operation with
  | .update =>
    issueIf job.deduplication.isSome "deduplication is only valid for INSERT" [.key "deduplication"] ++
    issueIf (job.versionAdvance.any fun v => match job.conflictGuard with
        | .versionColumn column _ => v.column != column
        | _ => true)
      "version advance must match the version conflict guard" [.key "version_advance", .key "column"]
  | .insert =>
    (match job.deduplication with
    | none => [⟨"INSERT requires source-enforced deduplication", [.key "deduplication"]⟩]
    | some components => validateResolvedDeduplication components job.patch job.target.tenantGuard
        [.key "deduplication", .key "components"]) ++
    issueIf (decide (job.conflictGuard ≠ .none) || job.versionAdvance.isSome) "INSERT must not declare version guards"
      [.key "conflict_guard"]
  | .delete =>
    issueIf ((match job.conflictGuard with
        | .versionColumn _ _ => false
        | _ => true) || job.versionAdvance.isSome || job.deduplication.isSome)
      "DELETE requires only an exact version-column guard" [.key "conflict_guard"])

def rowJobFields (platform : Platform) (job : RowJob) : Bool :=
  headerFields job.toJobHeader && decide (job.allowedColumns.length ≤ 256) && sha256Text job.approvalId &&
  boundedRecord job.patch && decide (0 < job.attemptCount) &&
  (match job.conflictGuard with
  | .versionColumn column _ => safeIdentifier column
  | .rowHash hash => nonEmpty hash
  | .none => true) &&
  job.versionAdvance.all (fun v => safeIdentifier v.column) && job.deduplication.all componentFields &&
  job.inverseCapture.all (inverseDescriptorV1Schema platform)

/-- `normalizedWritebackJobV3InputSchema`. -/
def setJobIssues (platform : Platform) (job : SetJob) : List Issue :=
  frozenSetIssues platform job.frozenSet ++
  validateFreshnessBinding job.freshness job.sourceId job.engine
    (if job.operation = .batchInsert then .notApplicable else .frozenSet)
    (if job.operation = .batchInsert then 0 else job.frozenSet.rowCount) ++
  principalColumnIssues job.target job.allowedColumns ++
  issueIf (decide (job.operation = .delete) &&
      (!job.allowedColumns.isEmpty || !job.patch.entries.isEmpty || job.versionAdvance.isSome))
    "set DELETE cannot carry patch authority" [.key "patch"] ++
  issueIf (decide (job.operation = .update) && (job.patch.entries.isEmpty || job.versionAdvance.isNone))
    "set UPDATE requires patch and version advance" [.key "patch"] ++
  issueIf (decide (job.operation = .batchInsert) && !job.frozenSet.members.all fun m => m.deduplication.isSome)
    "batch INSERT requires per-item source deduplication" [.key "frozen_set", .key "members"]

def memberFields (m : FrozenSetMember) : Bool :=
  safeIdentifier m.primaryKey.column && m.expectedVersion.all (fun v => safeIdentifier v.column) &&
  boundedRecord m.before && boundedRecord m.after && m.deduplication.all componentFields

def setJobFields (platform : Platform) (job : SetJob) : Bool :=
  headerFields job.toJobHeader && decide (job.allowedColumns.length ≤ 256) && sha256Text job.approvalId &&
  boundedRecord job.patch && decide (0 < job.attemptCount) &&
  job.versionAdvance.all (fun v => safeIdentifier v.column) &&
  decide (1 ≤ job.frozenSet.maxRows ∧ job.frozenSet.maxRows ≤ 100) &&
  decide (1 ≤ job.frozenSet.rowCount ∧ job.frozenSet.rowCount ≤ 100) &&
  decide (1 ≤ job.frozenSet.aggregateBounds.length ∧ job.frozenSet.aggregateBounds.length ≤ 8) &&
  job.frozenSet.aggregateBounds.all (fun b => safeIdentifier b.column && decide (0 ≤ b.maximum ∧ 0 ≤ b.actual)) &&
  decide (1 ≤ job.frozenSet.members.length ∧ job.frozenSet.members.length ≤ 100) &&
  job.frozenSet.members.all memberFields && job.inverseCapture.all (inverseDescriptorV1Schema platform)

/-- `normalizedWritebackJobV4InputSchema`. -/
def compensationJobIssues (job : CompensationJob) : List Issue :=
  issueIf (decide (job.operation ≠ job.compensation.operation)) "compensation operation mismatch" [.key "operation"] ++
  issueIf (decide (job.sourceId ≠ job.compensation.target.sourceId ∨
      job.target.schema ≠ job.compensation.target.schema ∨ job.target.table ≠ job.compensation.target.table ∨
      job.target.primaryKey.column ≠ job.compensation.target.primaryKeyColumn))
    "compensation target mismatch" [.key "target"] ++
  issueIf (decide (job.target.tenantGuard.column ≠ job.compensation.tenantGuard.column ∨
      job.target.tenantGuard.value ≠ job.compensation.tenantGuard.value))
    "compensation tenant mismatch" [.key "target", .key "tenant_guard"] ++
  issueIf (decide (job.target.principalScope ≠ job.compensation.principalScope)) "compensation principal mismatch"
    [.key "target", .key "principal_scope"]

def compensationJobFields (platform : Platform) (job : CompensationJob) : Bool :=
  headerFields job.toJobHeader && decide (job.allowedColumns.length ≤ 256) && sha256Text job.approvalId &&
  decide (0 < job.attemptCount) && inverseDescriptorV1Schema platform job.compensation

/-- The issues of a normalized job under the schema of its protocol version. -/
def jobIssues (platform : Platform) : WritebackJob → List Issue
  | .v1 job => legacyJobIssues job
  | .v2 job => rowJobIssues job
  | .v3 job => setJobIssues platform job
  | .v4 job => compensationJobIssues job

def jobFields (platform : Platform) : WritebackJob → Bool
  | .v1 job => legacyJobFields job
  | .v2 job => rowJobFields platform job
  | .v3 job => setJobFields platform job
  | .v4 job => compensationJobFields platform job

/-- `parseWritebackJob` on a normalized job: the job, when its schema accepts
    it. -/
def parseWritebackJob (platform : Platform) (job : WritebackJob) : Except (List Issue) WritebackJob :=
  if !jobFields platform job then .error []
  else match jobIssues platform job with
    | [] => .ok job
    | issues => .error issues

theorem parseWritebackJob_ok {platform : Platform} {job parsed : WritebackJob}
    (accepted : parseWritebackJob platform job = .ok parsed) :
    parsed = job ∧ jobFields platform job = true ∧ jobIssues platform job = [] := by
  unfold parseWritebackJob at accepted
  split at accepted
  · cases accepted
  · rename_i fields
    split at accepted
    · rename_i none
      cases accepted
      exact ⟨rfl, by simpa using fields, none⟩
    · cases accepted

end SynapsorRunner.Protocol
