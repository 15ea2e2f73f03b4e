import Mathlib.Algebra.Order.Ring.Rat
import SynapsorRunner.Compensation

/-!
What the Postgres and MySQL adapters check of a job before they touch the source,
and the statements they build from it. The two adapters share these functions up
to the texts of their errors; `Engine` tells them apart.

A frozen set is checked against its digests (`assertFrozenSetJobIntegrity`), a
compensation against its descriptor, and a patch against the allowed columns. The
statements of a job are those it asks for when nothing stops it (`statements`).
-/
namespace SynapsorRunner.Adapters
open SynapsorRunner.Protocol SynapsorRunner.Proposals SynapsorRunner.Compensation

def engineText : Engine → String
  | .postgres => "postgres"
  | .mysql => "mysql"

/-! ### Statements -/

structure TableName where
  schema : String
  table : String
  deriving DecidableEq, Repr

/-- `column = $n`, or `column IS NOT DISTINCT FROM $n` (`<=>` in MySQL). -/
inductive Condition where
  | equals (column : Column) (value : Scalar)
  | notDistinct (column : Column) (value : Scalar)
  deriving DecidableEq, Repr

def Condition.column : Condition → Column
  | equals column _ => column
  | notDistinct column _ => column

/-- `column = $n`, or `column = column + 1`. -/
inductive Assignment where
  | value (column : Column) (value : Scalar)
  | increment (column : Column)
  deriving DecidableEq, Repr

def Assignment.column : Assignment → Column
  | .value column _ => column
  | increment column => column

inductive Statement where
  | insert (table : TableName) (values : Record)
  | update (table : TableName) (assignments : List Assignment) (conditions : List Condition)
  | delete (table : TableName) (conditions : List Condition)
  deriving DecidableEq

def Statement.identifiers : Statement → List String
  | insert table values => table.schema :: table.table :: values.keys
  | update table assignments conditions =>
    table.schema :: table.table :: assignments.map (·.column) ++ conditions.map (·.column)
  | delete table conditions => table.schema :: table.table :: conditions.map (·.column)

/-- `quotePostgresIdentifier` and `quoteMysqlIdentifier` on identifiers in order. -/
def quoteIdentifiers (engine : Engine) (identifiers : List String) : Except String Unit :=
  match identifiers.find? (!safeIdentifier ·) with
  | none => .ok ()
  | some identifier => .error ("unsafe " ++ engineText engine ++ " identifier: " ++ identifier)

def Statement.quoted (engine : Engine) (s : Statement) : Except String Statement := do
  quoteIdentifiers engine s.identifiers
  pure s

/-! ### Frozen sets -/

/-- The JSON of a member, and of a set, as hashed. -/
def columnValueMaterial (c : ColumnValue) : DigestMaterial := .fields [(c.column, c.value)]

def DeduplicationSource.text : DeduplicationSource → String
  | .proposalId => "proposal_id"
  | .trustedTenant => "trusted_tenant"
  | .fixed => "fixed"

def componentMaterial (c : DeduplicationComponent) : DigestMaterial :=
  .fields [(c.column, c.value), ("source", .str (DeduplicationSource.text c.source))]

def digestField (name : String) : Option Digest → List DigestMaterial
  | none => []
  | some digest => [.fields [(name, .str digest.hex)]]

def memberMaterial (m : FrozenSetMember) : DigestMaterial :=
  .tagged "member" ([columnValueMaterial m.primaryKey, .tagged "expected_version" (m.expectedVersion.toList.map
    columnValueMaterial), .fields m.before.entries, .fields m.after.entries] ++ digestField "before_digest" m.beforeDigest ++
    digestField "after_digest" m.afterDigest ++ digestField "tombstone_digest" m.tombstoneDigest ++
    [.tagged "deduplication" ((m.deduplication.getD []).map componentMaterial)])

def AggregateMeasure.text : AggregateMeasure → String
  | .before => "before"
  | .after => "after"
  | .absoluteDelta => "absolute_delta"

def boundMaterial (b : AggregateBound) : DigestMaterial :=
  .fields [("column", .str b.column), ("measure", .str (AggregateMeasure.text b.measure)), ("maximum", .num b.maximum),
    ("actual", .num b.actual)]

/-- The bound in the order of fields of Runner 1.4.0. -/
def legacyBoundMaterial (b : AggregateBound) : DigestMaterial :=
  .fields [("column", .str b.column), ("maximum", .num b.maximum), ("measure", .str (AggregateMeasure.text b.measure)),
    ("actual", .num b.actual)]

def SetOperation.text : SetOperation → String
  | .update => "set_update"
  | .delete => "set_delete"
  | .batchInsert => "batch_insert"

def setMaterial (operation : SetOperation) (set : FrozenSet) (bound : AggregateBound → DigestMaterial) : DigestMaterial :=
  .tagged (SetOperation.text operation) (set.members.map memberMaterial ++ set.aggregateBounds.map bound)

def reviewedDigestMatches (platform : Platform) (actual : Option Digest) (current : DigestMaterial)
    (legacyContract : Option DigestMaterial) : Bool :=
  match actual with
  | none => false
  | some digest => decide (digest = platform.canonicalJsonDigest current ∨ digest = platform.jsonDigest current) ||
      legacyContract.any fun legacy => decide (digest = platform.jsonDigest legacy)

/-- `recordsEqual`: the same properties with the same values. -/
def recordsEqual (left right : Record) : Bool :=
  decide (left.size = right.size) && left.keys.all fun c => decide (left.get? c = right.get? c)

/-- `{ ...before, ...patch, [column]: value }`. -/
def overlaid (before patch : Record) (column : Column) (value : Scalar) : Record :=
  (before.setAll patch.entries).set column value

/-- The tenant and principal checks on the before image of a member. -/
def assertMemberGuards (target : JobTarget) (before : Record) : Except String Unit := do
  throwIf (before.get? target.tenantGuard.column ≠ some target.tenantGuard.value) "SET_TENANT_GUARD_MISMATCH"
  throwIf (∃ scope ∈ target.principalScope, before.get? scope.column ≠ scope.value) "SET_PRINCIPAL_SCOPE_MISMATCH"

def assertUpdateMember (platform : Platform) (job : SetJob) (m : FrozenSetMember) : Except String Unit :=
  match job.versionAdvance, m.expectedVersion with
  | some advance, some expected => do
    throwIf (advance.strategy ≠ .integerIncrement ∨ expected.column ≠ advance.column) "SET_VERSION_GUARD_REQUIRED"
    match expected.value with
    | .num version => do
      throwIf (m.before.get? advance.column ≠ some (.num version)) "SET_VERSION_GUARD_MISMATCH"
      assertMemberGuards job.target m.before
      throwIf (¬ recordsEqual m.after (overlaid m.before job.patch advance.column (.num (version + 1))))
        "SET_AFTER_STATE_MISMATCH"
      throwIf (¬ reviewedDigestMatches platform m.beforeDigest (.memberBefore m.primaryKey.value m.before) none)
        "SET_BEFORE_DIGEST_MISMATCH"
      throwIf (¬ reviewedDigestMatches platform m.afterDigest (.memberAfter m.primaryKey.value m.after) none)
        "SET_AFTER_DIGEST_MISMATCH"
    | _ => .error "SET_VERSION_GUARD_MISMATCH"
  | _, _ => .error "SET_VERSION_GUARD_REQUIRED"

def assertDeleteMember (platform : Platform) (job : SetJob) (m : FrozenSetMember) : Except String Unit :=
  match m.expectedVersion with
  | none => .error "SET_VERSION_GUARD_MISMATCH"
  | some expected => do
    throwIf (m.before.get? expected.column ≠ some expected.value) "SET_VERSION_GUARD_MISMATCH"
    assertMemberGuards job.target m.before
    throwIf (¬ m.after.entries.isEmpty) "SET_DELETE_PATCH_FORBIDDEN"
    throwIf (¬ reviewedDigestMatches platform m.beforeDigest (.memberBefore m.primaryKey.value m.before) none)
      "SET_BEFORE_DIGEST_MISMATCH"
    throwIf (¬ reviewedDigestMatches platform m.tombstoneDigest (.memberTombstone m.primaryKey.value expected) none)
      "SET_TOMBSTONE_DIGEST_MISMATCH"

def assertInsertMember (platform : Platform) (job : SetJob) (m : FrozenSetMember) : Except String Unit := do
  let components := m.deduplication.getD []
  let primary : Option DeduplicationComponent := components.find? fun c => c.column == job.target.primaryKey.column
  let tenant : Option DeduplicationComponent := components.find? fun c => c.column == job.target.tenantGuard.column
  throwIf (primary.map (·.value) ≠ some m.primaryKey.value ∨
      ¬ tenant.any (fun c => decide (c.source = .trustedTenant ∧ c.value = job.target.tenantGuard.value)))
    "BATCH_DEDUP_REQUIRED"
  throwIf (m.after.get? job.target.primaryKey.column ≠ some m.primaryKey.value ∨
      m.after.get? job.target.tenantGuard.column ≠ some job.target.tenantGuard.value) "BATCH_IDENTITY_MISMATCH"
  throwIf (∃ scope ∈ job.target.principalScope, m.after.get? scope.column ≠ scope.value) "BATCH_PRINCIPAL_SCOPE_MISMATCH"
  throwIf (¬ reviewedDigestMatches platform m.afterDigest (.memberAfter m.primaryKey.value m.after) none)
    "SET_AFTER_DIGEST_MISMATCH"

def assertSetMember (platform : Platform) (job : SetJob) (m : FrozenSetMember) : Except String Unit := do
  throwIf (m.primaryKey.column ≠ job.target.primaryKey.column) "SET_PRIMARY_KEY_MISMATCH"
  match job.operation with
  | .update => assertUpdateMember platform job m
  | .delete => assertDeleteMember platform job m
  | .batchInsert => assertInsertMember platform job m

def finiteNumber (value : Option Scalar) (column : Column) : Except String Rat :=
  match value with
  | some (.num n) => .ok n
  | _ => .error ("SET_AGGREGATE_VALUE_INVALID:" ++ column)

/-- What a member adds to an aggregate. -/
def memberMeasure (bound : AggregateBound) (m : FrozenSetMember) : Except String Rat :=
  match bound.measure with
  | .before => (finiteNumber (m.before.get? bound.column) bound.column).map abs
  | .after => (finiteNumber (m.after.get? bound.column) bound.column).map abs
  | .absoluteDelta => do
    let after ← finiteNumber (m.after.get? bound.column) bound.column
    let before ← finiteNumber (m.before.get? bound.column) bound.column
    pure (abs (after - before))

/-- The actual aggregate of a list of members. -/
def aggregate (bound : AggregateBound) : List FrozenSetMember → Except String Rat
  | [] => .ok 0
  | m :: rest => do
    let here ← memberMeasure bound m
    let there ← aggregate bound rest
    pure (here + there)

def assertBound (set : FrozenSet) (bound : AggregateBound) : Except String Unit := do
  let actual ← aggregate bound set.members
  throwIf (actual ≠ bound.actual ∨ actual > bound.maximum) "SET_AGGREGATE_BOUND_MISMATCH"

def assertFrozenSetJobIntegrity (platform : Platform) (job : SetJob) : Except String Unit := do
  let set := job.frozenSet
  throwIf (set.rowCount ≠ set.members.length ∨ set.rowCount < 1 ∨ set.rowCount > set.maxRows ∨ set.maxRows > 100)
    "SET_ROW_CAP_EXCEEDED"
  throwIf (¬ set.identities.Nodup) "SET_IDENTITY_NOT_UNIQUE"
  throwIf (¬ identitiesOrdered platform set.identities) "SET_IDENTITY_ORDER_INVALID"
  checkEach (assertSetMember platform job) set.members
  checkEach (assertBound set) set.aggregateBounds
  throwIf (¬ reviewedDigestMatches platform (some set.setDigest) (setMaterial job.operation set boundMaterial)
      (some (setMaterial job.operation set legacyBoundMaterial))) "SET_DIGEST_MISMATCH"

/-! ### Guards -/

/-- `principalScope`. -/
def principalScope (target : JobTarget) : Except String (Option ColumnValue) :=
  match target.principalScope with
  | none => .ok none
  | some scope => match scope.value with
    | none => .error "PRINCIPAL_SCOPE_VALUE_REQUIRED"
    | some value => .ok (some ⟨scope.column, value⟩)

/-- The conditions of a principal scope, when there is one. -/
def scopeConditions (condition : Column → Scalar → Condition) (scope : Option ColumnValue) : List Condition :=
  scope.toList.map fun s => condition s.column s.value

def exactConflictGuard (guard : ConflictGuard) (operation : String) : Except String ColumnValue :=
  match guard with
  | .rowHash _ => .error "ROW_HASH_CONFLICT_GUARD_UNSUPPORTED"
  | .versionColumn column value =>
    if column = "__row_hash" then .error "ROW_HASH_CONFLICT_GUARD_UNSUPPORTED" else .ok ⟨column, value⟩
  | .none => .error (operation ++ " requires an exact version-column guard")

def validatePatch (engine : Engine) (job : JobHeader) (patch : Record) : Except String Unit := do
  throwIf (patch.keys = []) (engineText engine ++ " writeback patch must not be empty")
  throwIf (job.target.primaryKey.column ∈ job.allowedColumns)
    (engineText engine ++ " primary key column must not be patch-allowlisted")
  throwIf (job.target.tenantGuard.column ∈ job.allowedColumns)
    (engineText engine ++ " tenant guard column must not be patch-allowlisted")
  let scope ← principalScope job.target
  throwIf (∃ s ∈ scope, s.column ∈ job.allowedColumns)
    (engineText engine ++ " principal scope column must not be patch-allowlisted")
  checkEach (fun column => throwIf (column ∉ job.allowedColumns)
    (engineText engine ++ " patch column not allowlisted: " ++ column)) patch.keys

/-- What an accepted patch says of the allowed columns. -/
structure PatchAllowed (job : JobHeader) (patch : Record) : Prop where
  primaryKey : job.target.primaryKey.column ∉ job.allowedColumns
  tenantGuard : job.target.tenantGuard.column ∉ job.allowedColumns
  scope : ∃ scope, principalScope job.target = .ok scope ∧ ∀ s ∈ scope, s.column ∉ job.allowedColumns
  columns : ∀ column ∈ patch.keys, column ∈ job.allowedColumns

theorem validatePatch_ok {engine : Engine} {job : JobHeader} {patch : Record}
    (valid : validatePatch engine job patch = .ok ()) : PatchAllowed job patch := by
  obtain ⟨_, _, rest⟩ := bind_eq_ok valid
  obtain ⟨_, primaryKey, rest⟩ := bind_eq_ok rest
  obtain ⟨_, tenantGuard, rest⟩ := bind_eq_ok rest
  obtain ⟨scope, resolved, rest⟩ := bind_eq_ok rest
  obtain ⟨_, apart, rest⟩ := bind_eq_ok rest
  have columns := checkEach_ok_iff.mp rest
  simp only [throwIf_ok_iff, not_exists, not_and, not_not] at primaryKey tenantGuard apart columns
  exact ⟨primaryKey, tenantGuard, ⟨scope, resolved, apart⟩, columns⟩

/-! ### The statements of a row job -/

def LegacyJob.toRowJob (job : LegacyJob) : RowJob :=
  { toJobHeader := job.toJobHeader, operation := .update, patch := job.patch, conflictGuard := job.conflictGuard
    freshness := job.freshness, versionAdvance := none, deduplication := none, inverseCapture := none }

def targetTable (target : JobTarget) : TableName := ⟨target.schema, target.table⟩

/-- The primary key, the tenant and the principal, by the same comparison. -/
def rowConditions (condition : Column → Scalar → Condition) (target : JobTarget) (primaryKey : Scalar)
    (scope : Option ColumnValue) : List Condition :=
  [condition target.primaryKey.column primaryKey, condition target.tenantGuard.column target.tenantGuard.value] ++
    scopeConditions condition scope

/-- `column = column + 1` for an integer version. -/
def incremented : Option VersionAdvance → List Assignment
  | some ⟨column, .integerIncrement⟩ => [.increment column]
  | _ => []

def patched (patch : Record) : List Assignment := patch.entries.map fun e => .value e.1 e.2

/-- `buildPostgresUpdate` and `buildMysqlUpdate`. -/
def buildUpdate (engine : Engine) (job : RowJob) : Except String Statement := do
  throwIf (job.operation ≠ .update) (engineText engine ++ " update builder requires single_row_update")
  let guard ← exactConflictGuard job.conflictGuard (engineText engine ++ " update")
  validatePatch engine job.toJobHeader job.patch
  match job.target.primaryKey.value with
  | none => .error (engineText engine ++ " update requires primary-key value")
  | some primaryKey => do
    let scope ← principalScope job.target
    (Statement.update (targetTable job.target) (patched job.patch ++ incremented job.versionAdvance)
      (rowConditions .equals job.target primaryKey scope ++ [.equals guard.column guard.value])).quoted engine

/-- The deduplication components over the values of an insert. -/
def addComponents (values : Record) : List DeduplicationComponent → Except String Record
  | [] => .ok values
  | c :: rest =>
    if values.contains c.column then .error "INSERT_DEDUP_COLUMN_COLLISION"
    else addComponents (values.set c.column c.value) rest

def insertValues (job : RowJob) : Except String Record :=
  match job.deduplication with
  | none => .error "INSERT_DEDUP_REQUIRED"
  | some components => do
    throwIf (job.operation ≠ .insert) "INSERT_DEDUP_REQUIRED"
    let values ← addComponents job.patch components
    throwIf (¬ components.any (fun c => decide (c.source = .trustedTenant ∧ c.column = job.target.tenantGuard.column ∧
        c.value = job.target.tenantGuard.value)) ∨ ¬ components.any fun c => decide (c.source = .proposalId))
      "INSERT_DEDUP_REQUIRED"
    let scope ← principalScope job.target
    match scope with
    | none => pure values
    | some s => do
      throwIf (values.contains s.column) "PRINCIPAL_SCOPE_COLUMN_COLLISION"
      pure (values.set s.column s.value)

/-- `buildPostgresInsert` and `buildMysqlInsert`. -/
def buildInsert (engine : Engine) (job : RowJob) : Except String Statement := do
  throwIf (job.operation ≠ .insert ∨ job.deduplication.isNone)
    (engineText engine ++ " insert requires a v2 single_row_insert job with deduplication")
  validatePatch engine job.toJobHeader job.patch
  let row ← insertValues job
  (Statement.insert (targetTable job.target) row).quoted engine

/-- `buildPostgresDelete` and `buildMysqlDelete`. -/
def buildDelete (engine : Engine) (job : RowJob) : Except String Statement := do
  throwIf (job.operation ≠ .delete) (engineText engine ++ " delete builder requires single_row_delete")
  let guard ← exactConflictGuard job.conflictGuard (engineText engine ++ " delete")
  match job.target.primaryKey.value with
  | none => .error (engineText engine ++ " delete requires primary-key and exact version guards")
  | some primaryKey => do
    let scope ← principalScope job.target
    (Statement.delete (targetTable job.target)
      (rowConditions .equals job.target primaryKey scope ++ [.equals guard.column guard.value])).quoted engine

def buildRow (engine : Engine) (job : RowJob) : Except String Statement :=
  match job.operation with
  | .update => buildUpdate engine job
  | .insert => buildInsert engine job
  | .delete => buildDelete engine job

/-! ### The statements of a set job -/

def validateBatchInsertMember (job : SetJob) (m : FrozenSetMember) : Except String Unit := do
  let dedupColumns := (m.deduplication.getD []).map (·.column)
  checkEach (fun column => throwIf (column ∉ job.allowedColumns ∧ column ∉ dedupColumns ∧
      job.target.principalScope.map (·.column) ≠ some column) "BATCH_COLUMN_NOT_ALLOWED") m.after.keys
  throwIf (job.target.primaryKey.column ∉ dedupColumns ∨ job.target.tenantGuard.column ∉ dedupColumns)
    "BATCH_DEDUP_REQUIRED"

def validateSetJob (engine : Engine) (platform : Platform) (job : SetJob) : Except String Unit := do
  assertFrozenSetJobIntegrity platform job
  let set := job.frozenSet
  throwIf (set.rowCount ≠ set.members.length ∨ set.rowCount > set.maxRows ∨ set.maxRows > 100) "SET_ROW_CAP_EXCEEDED"
  match job.operation with
  | .update => do
    validatePatch engine job.toJobHeader job.patch
    throwIf (¬ job.versionAdvance.any fun v => decide (v.strategy = .integerIncrement)) "SET_INTEGER_VERSION_REQUIRED"
    checkEach (fun m : FrozenSetMember => throwIf (m.expectedVersion.map (·.column) ≠ job.versionAdvance.map (·.column) ∨
      m.expectedVersion.isNone) "SET_VERSION_GUARD_REQUIRED") set.members
  | .delete => do
    throwIf (job.allowedColumns ≠ [] ∨ ¬ job.patch.entries.isEmpty) "SET_DELETE_PATCH_FORBIDDEN"
    checkEach (fun m : FrozenSetMember => throwIf (m.expectedVersion.isNone) "SET_VERSION_GUARD_REQUIRED") set.members
  | .batchInsert => checkEach (fun m : FrozenSetMember => do
      throwIf (m.deduplication.all (·.isEmpty)) "BATCH_DEDUP_REQUIRED"
      validateBatchInsertMember job m) set.members

/-- The statement for one member of a frozen set. -/
def buildMember (engine : Engine) (job : SetJob) (m : FrozenSetMember) : Except String Statement :=
  match job.operation with
  | .batchInsert => (Statement.insert (targetTable job.target) m.after).quoted engine
  | .update => do
    let scope ← principalScope job.target
    (Statement.update (targetTable job.target)
      (patched job.patch ++ job.versionAdvance.toList.map fun v => .increment v.column)
      (rowConditions .equals job.target m.primaryKey.value scope ++
        m.expectedVersion.toList.map fun v => .equals v.column v.value)).quoted engine
  | .delete => do
    let scope ← principalScope job.target
    (Statement.delete (targetTable job.target) (rowConditions .equals job.target m.primaryKey.value scope ++
      m.expectedVersion.toList.map fun v => .equals v.column v.value)).quoted engine

/-! ### The statements of a compensation -/

/-- The comparison of the guards of a compensation. -/
def guardCondition : Engine → Column → Scalar → Condition
  | .postgres => .equals
  | .mysql => .notDistinct

/-- The tenant, the primary key, the principal and the whole expected state. -/
def compensationConditions (engine : Engine) (job : CompensationJob) (m : InverseMember) (scope : Option ColumnValue) :
    List Condition :=
  [guardCondition engine job.target.tenantGuard.column job.target.tenantGuard.value,
    guardCondition engine job.target.primaryKey.column m.primaryKey.value] ++
    scopeConditions (guardCondition engine) scope ++ m.expectedState.entries.map fun e => .notDistinct e.1 e.2

/-- The row that `restore_insert` writes: the restore values under the key, the
    tenant and the principal of the job. -/
def restoredRow (job : CompensationJob) (m : InverseMember) (scope : Option ColumnValue) : Record :=
  let guarded := ((m.restoreValues.getD .empty).set job.target.primaryKey.column m.primaryKey.value).set
    job.target.tenantGuard.column job.target.tenantGuard.value
  match scope with
  | none => guarded
  | some s => guarded.set s.column s.value

/-- The restore values, and the version one further. -/
def restoreAssignments (job : CompensationJob) (m : InverseMember) : List Assignment :=
  patched (m.restoreValues.getD .empty) ++ job.compensation.versionAdvance.toList.map fun v => .increment v.column

/-- The statement for one member of a compensation. -/
def buildCompensation (engine : Engine) (job : CompensationJob) (m : InverseMember) : Except String Statement := do
  let scope ← principalScope job.target
  match job.operation with
  | .restoreInsert => (Statement.insert (targetTable job.target) (restoredRow job m scope)).quoted engine
  | .removeInsert =>
    (Statement.delete (targetTable job.target) (compensationConditions engine job m scope)).quoted engine
  | .restoreUpdate => (Statement.update (targetTable job.target) (restoreAssignments job m)
      (compensationConditions engine job m scope)).quoted engine

/-! ### All jobs -/

/-- `validateOperation`. -/
def validateOperation (engine : Engine) (platform : Platform) : WritebackJob → Except String Unit
  | .v1 job => (buildRow engine (LegacyJob.toRowJob job)).map fun _ => ()
  | .v2 job => (buildRow engine job).map fun _ => ()
  | .v3 job => validateSetJob engine platform job
  | .v4 job => assertCompensationJobIntegrity platform job

/-- The statements on the target that a job asks for. A statement with an unsafe
    identifier is never sent. -/
def statements (engine : Engine) : WritebackJob → List Statement
  | .v1 job => (buildRow engine (LegacyJob.toRowJob job)).toOption.toList
  | .v2 job => (buildRow engine job).toOption.toList
  | .v3 job => job.frozenSet.members.filterMap fun m => (buildMember engine job m).toOption
  | .v4 job => job.compensation.members.filterMap fun m => (buildCompensation engine job m).toOption

end SynapsorRunner.Adapters
