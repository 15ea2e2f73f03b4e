import SynapsorRunner.AdapterResults
import SynapsorRunner.Intents
import SynapsorRunner.Programs

/-!
What the adapters do on the target of a job. First they read: the dependencies of
its freshness, the rows under its guards, the unique keys and the triggers of its
table. A read that speaks against the job ends in an outcome without effect
(`refusal`). Otherwise they send the statements of the job one by one, and every
statement has to touch exactly one row (`write`).

A call is answered or throws, whatever it is. The catalog reads of one check are
one call.
-/
namespace SynapsorRunner.Adapters
open SynapsorRunner.Protocol SynapsorRunner.Proposals SynapsorRunner.Compensation SynapsorRunner.Intents
open SynapsorRunner.Programs SynapsorRunner.Programs.Program

/-! ### Calls -/

/-- A SELECT: its columns under the names that its rows have them by, its guards,
    and the keys of the rows it reads, when it reads several. -/
structure Select where
  table : TableName
  columns : List (Column × String)
  conditions : List Condition
  identities : Option (Column × List Scalar)
  forUpdate : Bool
  deriving DecidableEq

def Select.identifiers (s : Select) : List String :=
  s.table.schema :: s.table.table :: s.columns.map Prod.fst ++ s.conditions.map (·.column) ++
    s.identities.toList.map Prod.fst

/-- A column of a unique key, as the catalog lists it. `usable` says that the key is
    valid, ready and not partial, `leading` that only a part of the column counts. -/
structure UniqueKeyRow where
  indexId : String
  usable : Bool
  keyCount : Nat
  position : Nat
  column : Option Column
  leading : Bool

/-- What hangs on a table: `has_user_trigger` and `has_widening_fk`. -/
structure Dependents where
  userTrigger : Bool
  wideningForeignKey : Bool

/-- `has_trigger_visibility` and `has_fk_visibility`. -/
structure CatalogVisibility where
  triggers : Bool
  foreignKeys : Bool

/-- What a driver reports of a statement: the rows it touched, and the returned
    column or the inserted key. -/
structure Affected where
  count : Nat
  returned : Option DbValue

/-- The row of an idempotency key in the receipt table of the source. -/
structure ReceiptRow where
  status : String
  resultHash : Option Digest

inductive SourceCall where
  | connect
  | migrateReceipts
  | setting (name : String) (value : Nat)
  | begin
  | inspectRls (table : TableName) (operations : List String)
  | bindScope (scope : DatabaseScope)
  | select (query : Select)
  | uniqueKeys (table : TableName)
  | dependents (table : TableName)
  | visibility (table : TableName)
  | triggers (table : TableName)
  | cascades (table : TableName)
  | mutate (statement : Statement) (returning : Option Column)
  | claimReceipt (idempotencyKey jobId proposalId : String)
  | readReceipt (idempotencyKey : String)
  | recordReceipt (idempotencyKey status : String) (resultHash : Digest)
  | commit
  | rollback
  | claimIntent (job : WritebackJob) (runnerId : String)
  | markIntentApplying (intentId runnerId : String)
  | completeIntent (intentId : String) (result : WritebackResult)
  | requireReconciliation (intentId reason : String)
  | failpoint (name : String)

/-- The answers: the errors of an inspection, the rows of a SELECT, the rows that a
    statement on the receipt table touched. -/
abbrev Answer : SourceCall → Type
  | .inspectRls .. => List String
  | .select _ => List DbRow
  | .uniqueKeys _ => List UniqueKeyRow
  | .dependents _ => Dependents
  | .visibility _ => CatalogVisibility
  | .triggers _ | .cascades _ => Bool
  | .mutate .. => Affected
  | .claimReceipt .. | .recordReceipt .. => Nat
  | .readReceipt _ => Option ReceiptRow
  | .claimIntent .. => ClaimDecision
  | _ => Unit

abbrev Adapter (α : Type) := Program SourceCall Answer AdapterError α

def send (call : SourceCall) : Adapter (Answer call) := ask call

/-- A check or a construction that makes no calls. -/
def required {α : Type} (x : Except String α) : Adapter α := lift (x.mapError .thrown)

def select (engine : Engine) (query : Select) : Adapter (List DbRow) := do
  required (quoteIdentifiers engine query.identifiers)
  send (.select query)

/-! ### Rows -/

/-- Every column of a record has its value in the row. -/
def rowMatches (rt : SourceRuntime) (row : DbRow) (expected : Record) : Bool :=
  expected.entries.all fun e => rt.versionValuesMatch (row.get? e.1) e.2

/-- The last row with a key, as in a map from keys to rows. -/
def rowOf (rows : List DbRow) (primaryKey : ColumnValue) : Option DbRow :=
  rows.reverse.find? fun row => decide (scalar (row.get? primaryKey.column) = primaryKey.value)

def underOwnName (column : Column) : Column × String := (column, column)

/-! ### Freshness -/

/-- The condition on the principal of a dependency; none when the job has no
    principal to put there. -/
def dependencyScope (target : JobTarget) (d : FreshnessDependency) : Except String (Option (List Condition)) :=
  match d.principalColumn with
  | none => .ok (some [])
  | some column => (principalScope target).map fun scope => scope.map fun s => [.equals column s.value]

/-- One turn of `lockPostgresFreshnessDependencies` and `lockMysqlFreshnessDependencies`. -/
def lockFreshnessDependency (rt : SourceRuntime) (engine : Engine) (target : JobTarget) (d : FreshnessDependency) :
    Adapter (Option String) := do
  let scope ← required (dependencyScope target d)
  match scope with
  | none => pure (some "FRESHNESS_DEPENDENCY_SCOPE_INVALID")
  | some conditions => do
    let rows ← select engine
      { table := ⟨d.schema, d.table⟩, columns := [(d.expectedVersion.column, "__synapsor_freshness_version")]
        conditions := [.equals d.primaryKey.column d.primaryKey.value,
          .equals d.tenantColumn target.tenantGuard.value] ++ conditions
        identities := none, forUpdate := true }
    pure (match rows with
      | [row] =>
        if rt.versionValuesMatch (row.get? "__synapsor_freshness_version") d.expectedVersion.value then none
        else some "FRESHNESS_DEPENDENCY_STALE"
      | _ => some "FRESHNESS_DEPENDENCY_STALE")

def freshnessDependencies (job : WritebackJob) : List FreshnessDependency :=
  (job.freshness.map (·.dependencies)).getD []

def lockFreshnessDependencies (rt : SourceRuntime) (engine : Engine) (job : WritebackJob) : Adapter (Option String) :=
  findSome (lockFreshnessDependency rt engine job.target) (freshnessDependencies job)

/-! ### Triggers and cascades -/

/-- The check before a DELETE: `postgresDeleteSafetyCode` and `mysqlDeleteSafetyCode`. -/
def deleteSafetyCode (engine : Engine) (table : TableName) : Adapter (Option String) :=
  match engine with
  | .postgres => do
    let found ← send (.dependents table)
    pure (if found.userTrigger then some "DELETE_TRIGGER_BLOCKED"
      else if found.wideningForeignKey then some "DELETE_CASCADE_BLOCKED" else none)
  | .mysql => do
    let visible ← send (.visibility table)
    if !visible.triggers then pure (some "DELETE_TRIGGER_VISIBILITY_REQUIRED")
    else if !visible.foreignKeys then pure (some "DELETE_FK_VISIBILITY_REQUIRED")
    else do
      let triggers ← send (.triggers table)
      if triggers then pure (some "DELETE_TRIGGER_BLOCKED")
      else do
        let cascades ← send (.cascades table)
        pure (if cascades then some "DELETE_CASCADE_BLOCKED" else none)

/-- `postgresCompensationSafetyCode` and `mysqlCompensationSafetyCode`: a cascade
    stands against a removal only. -/
def compensationSafetyCode (engine : Engine) (table : TableName) (operation : ReversalOperation) :
    Adapter (Option String) :=
  match engine with
  | .postgres => do
    let found ← send (.dependents table)
    pure (if found.userTrigger then some "COMPENSATION_TRIGGER_BLOCKED"
      else if operation = .removeInsert ∧ found.wideningForeignKey = true then some "COMPENSATION_CASCADE_BLOCKED"
      else none)
  | .mysql => do
    let visible ← send (.visibility table)
    if !visible.triggers then pure (some "COMPENSATION_TRIGGER_VISIBILITY_REQUIRED")
    else do
      let triggers ← send (.triggers table)
      if triggers then pure (some "COMPENSATION_TRIGGER_BLOCKED")
      else if operation ≠ .removeInsert then pure none
      else if !visible.foreignKeys then pure (some "COMPENSATION_FK_VISIBILITY_REQUIRED")
      else do
        let cascades ← send (.cascades table)
        pure (if cascades then some "COMPENSATION_CASCADE_BLOCKED" else none)

/-! ### Deduplication -/

/-- A unique key: its columns by position. -/
structure UniqueKey where
  usable : Bool
  keyCount : Nat
  columns : KeyedMap Nat (Option Column)
  leading : Bool

def collectKey (keys : KeyedMap String UniqueKey) (row : UniqueKeyRow) : KeyedMap String UniqueKey :=
  if row.indexId = "" then keys
  else
    let key := (keys.get? row.indexId).getD ⟨row.usable, row.keyCount, .empty, false⟩
    keys.set row.indexId (if row.position = 0 then key else
      { key with columns := key.columns.set row.position row.column, leading := key.leading || row.leading })

/-- The column at a position has a value in the components that is not null. -/
def coveredAt (key : UniqueKey) (values : Record) (position : Nat) : Bool :=
  match key.columns.get? position with
  | some (some column) => decide (column ≠ "") && match values.get? column with
    | none | some .null => false
    | some _ => true
  | _ => false

/-- A key makes rows with these values unique. In MySQL its columns are as many as
    their positions reach. -/
def provenBy (engine : Engine) (values : Record) (key : UniqueKey) : Bool :=
  match engine with
  | .postgres => key.usable && decide (1 ≤ key.keyCount ∧ key.columns.size = key.keyCount) &&
      (List.range key.keyCount).all fun i => coveredAt key values (i + 1)
  | .mysql => decide (1 ≤ key.columns.size) && !key.leading &&
      (List.range key.columns.size).all fun i => coveredAt key values (i + 1)

def addDeduplicationValues (values : Record) : List ColumnValue → Except String Record
  | [] => .ok values
  | c :: rest =>
    if values.contains c.column ∧ values.get? c.column ≠ some c.value then .error "INSERT_DEDUP_COMPONENT_CONFLICT"
    else addDeduplicationValues (values.set c.column c.value) rest

def componentValues (components : List DeduplicationComponent) : List ColumnValue :=
  components.map fun c => ⟨c.column, c.value⟩

/-- `assertPostgresInsertDedupUniqueness` and `assertMysqlInsertDedupUniqueness`. -/
def assertInsertDedupUniqueness (engine : Engine) (target : JobTarget) (componentSets : List (List DeduplicationComponent)) :
    Adapter Unit := do
  let rows ← send (.uniqueKeys (targetTable target))
  let keys := (rows.foldl collectKey .empty).values
  required do
    let scope ← principalScope target
    checkEach (fun components => do
      let values ← addDeduplicationValues .empty (componentValues components ++ scope.toList)
      throwIf (¬ keys.any (provenBy engine values)) "INSERT_DEDUP_UNIQUENESS_UNPROVEN") componentSets

/-- The rows that have the components of an insert already. -/
def existingRows (engine : Engine) (target : JobTarget) (components : List DeduplicationComponent)
    (columns : List (Column × String)) (forUpdate : Bool) : Adapter (List DbRow) := do
  let scope ← required (principalScope target)
  select engine
    { table := targetTable target, columns
      conditions := (componentValues components).map (fun c => .equals c.column c.value) ++ scopeConditions .equals scope
      identities := none, forUpdate }

/-! ### Row jobs -/

/-- The values that the reviewed row had, when the job captures its inverse. -/
def reviewedBefore (job : RowJob) : Record :=
  match job.inverseCapture with
  | none => .empty
  | some inverse =>
    if inverse.operation = .restoreUpdate then (inverse.members.head?.bind (·.restoreValues)).getD .empty else .empty

/-- The version column of a guard under its own name in the rows of `lockTargetRow`. -/
def guardColumns : ConflictGuard → List (Column × String)
  | .versionColumn column _ => [(column, "__synapsor_conflict_value")]
  | _ => []

def lockTargetRow (engine : Engine) (job : RowJob) : Adapter (Option DbRow) :=
  match job.target.primaryKey.value with
  | none => pure none
  | some primaryKey => do
    let scope ← required (principalScope job.target)
    let guarded := guardColumns job.conflictGuard
    let rows ← select engine
      { table := targetTable job.target
        columns := (job.target.primaryKey.column, "__synapsor_primary_key") :: guarded ++
          ((reviewedBefore job).keys.filter fun column => guarded.all fun g => g.1 ≠ column).map underOwnName
        conditions := rowConditions .equals job.target primaryKey scope
        identities := none, forUpdate := true }
    pure rows.head?

/-- `row.__synapsor_conflict_value ?? row[column]`. -/
def conflictValue (row : DbRow) (column : Column) : Option DbValue :=
  match present (row.get? "__synapsor_conflict_value") with
  | some value => some value
  | none => row.get? column

/-- The actual version of a row, when it is not the expected one. -/
def versionConflict (rt : SourceRuntime) (guard : ConflictGuard) (row : DbRow) : Option Scalar :=
  match guard with
  | .versionColumn column expected =>
    if rt.versionValuesMatch (conflictValue row column) expected then none else some (scalar (conflictValue row column))
  | _ => none

/-- What a locked row says against an update or a delete. -/
def rowConflict (rt : SourceRuntime) (engine : Engine) (job : RowJob) (row : Option DbRow) : Option MutationOutcome :=
  let identity := rowIdentity engine job none
  match row with
  | none => some (outcomeOf .conflict (some "ROW_NOT_FOUND") identity)
  | some row => match versionConflict rt job.conflictGuard row with
    | some actual => some { outcomeOf .conflict (some "VERSION_CONFLICT") identity with resultVersion := some actual }
    | none =>
      if rowMatches rt row (reviewedBefore job) then none
      else some (outcomeOf .conflict (some "ROW_CHANGED_AFTER_PROPOSAL") identity)

def insertRefusal (engine : Engine) (job : RowJob) : Adapter (Option MutationOutcome) :=
  match job.deduplication with
  | none => throw (.thrown "INSERT_DEDUP_REQUIRED")
  | some components => do
    assertInsertDedupUniqueness engine job.target [components]
    let rows ← existingRows engine job.target components [(job.target.primaryKey.column, "__synapsor_primary_key")] false
    pure (rows.head?.map fun row => outcomeOf .conflict (some "INSERT_DEDUP_CONFLICT")
      (rowIdentity engine job (row.get? "__synapsor_primary_key")))

/-- A code of a safety check as an outcome. -/
def blockedBy (identity : List ColumnValue) (code : Option String) : Option MutationOutcome :=
  code.map fun code => outcomeOf .failed (some code) identity

def rowRefusal (rt : SourceRuntime) (engine : Engine) (job : RowJob) : Adapter (Option MutationOutcome) :=
  match job.operation with
  | .insert => insertRefusal engine job
  | .update => do
    let row ← lockTargetRow engine job
    pure (rowConflict rt engine job row)
  | .delete => do
    let row ← lockTargetRow engine job
    match rowConflict rt engine job row with
    | some conflict => pure (some conflict)
    | none => do
      let code ← deleteSafetyCode engine (targetTable job.target)
      pure (blockedBy (rowIdentity engine job none) code)

/-- The column that a Postgres statement returns. -/
def returningColumn (engine : Engine) (job : RowJob) : Option Column :=
  match engine, job.operation with
  | .postgres, .update => job.versionAdvance.map (·.column)
  | .postgres, .insert => some job.target.primaryKey.column
  | _, _ => none

def presentScalar (value : Option DbValue) : Option Scalar := (present value).map fun value => scalar (some value)

/-- The version after an update: returned by Postgres, read again from MySQL. -/
def writtenVersion (engine : Engine) (job : RowJob) (affected : Affected) : Adapter (Option Scalar) :=
  match job.operation, job.versionAdvance with
  | .update, some version => match engine with
    | .postgres => pure (presentScalar affected.returned)
    | .mysql => do
      let scope ← required (principalScope job.target)
      let rows ← select .mysql
        { table := targetTable job.target, columns := [(version.column, "__synapsor_result_version")]
          conditions := rowConditions .equals job.target (job.target.primaryKey.value.getD .null) scope
          identities := none, forUpdate := true }
      pure (presentScalar (rows.head?.bind (·.get? "__synapsor_result_version")))
  | _, _ => pure none

def verifyVersionAdvanced (rt : SourceRuntime) (job : RowJob) (actual : Option Scalar) : Except String Unit :=
  match job.operation, job.versionAdvance with
  | .update, some version => match actual, job.conflictGuard with
    | some actual, .versionColumn _ expected => match version.strategy with
      | .integerIncrement => match expected with
        | .num n => throwIf (rt.number actual ≠ some (n + 1)) "VERSION_DID_NOT_ADVANCE"
        | _ => .error "VERSION_DID_NOT_ADVANCE"
      | .databaseGenerated =>
        throwIf (rt.versionValuesMatch (some (.scalar actual)) expected) "VERSION_DID_NOT_ADVANCE"
    | _, _ => .error "VERSION_DID_NOT_ADVANCE"
  | _, _ => .ok ()

/-- The outcome of a row statement that touched one row. -/
def rowOutcome (rt : SourceRuntime) (engine : Engine) (job : RowJob) (returned : Option DbValue) (inserted : Record)
    (version : Option Scalar) : MutationOutcome :=
  let identity := rowIdentity engine job none
  let before := rt.digest (.reviewed identity job.patch job.conflictGuard)
  match job.operation with
  | .update => { outcomeOf .applied none identity with
      affectedRows := 1, resultVersion := version, beforeDigest := some before
      afterDigest := some (rt.digest (.updated identity job.patch version)) }
  | .delete => { outcomeOf .applied none identity with
      affectedRows := 1, beforeDigest := some before
      tombstoneDigest := some (rt.digest (.tombstone identity job.conflictGuard)) }
  | .insert =>
    let identity := rowIdentity engine job returned
    { outcomeOf .applied none identity with
      affectedRows := 1, afterDigest := some (rt.digest (.inserted identity inserted)) }

/-- The error for a statement that did not touch one row. -/
def rowCountError (operation : RowOperation) (count : Nat) : String :=
  if count ≠ 0 then "MULTI_ROW_WRITE_BLOCKED"
  else if operation = .insert then "INSERT_CONSTRAINT_FAILED" else "VERSION_CONFLICT"

def insertedValues (job : RowJob) : Except String Record :=
  if job.operation = .insert then insertValues job else .ok .empty

def writeRow (rt : SourceRuntime) (engine : Engine) (job : RowJob) : Adapter MutationOutcome := do
  let statement ← required (buildRow engine job)
  let affected ← send (.mutate statement (returningColumn engine job))
  required (throwIf (affected.count ≠ 1) (rowCountError job.operation affected.count))
  let version ← writtenVersion engine job affected
  required (verifyVersionAdvanced rt job version)
  let inserted ← required (insertedValues job)
  pure (rowOutcome rt engine job affected.returned inserted version)

/-! ### Set jobs -/

/-- `lockPostgresFrozenMembers` and `lockMysqlFrozenMembers`: every member is there as
    reviewed. -/
def lockFrozenMembers (rt : SourceRuntime) (engine : Engine) (job : SetJob) : Adapter Bool := do
  let scope ← required (principalScope job.target)
  let set := job.frozenSet
  let rows ← select engine
    { table := targetTable job.target
      columns := ((job.target.primaryKey.column :: set.members.flatMap (·.before.keys)) ++
        scope.toList.map (·.column)).dedup.map underOwnName
      conditions := .equals job.target.tenantGuard.column job.target.tenantGuard.value :: scopeConditions .equals scope
      identities := some (job.target.primaryKey.column, set.identities), forUpdate := true }
  pure (decide (rows.length = set.rowCount) && set.members.all fun m =>
    (rowOf rows ⟨job.target.primaryKey.column, m.primaryKey.value⟩).any fun row => rowMatches rt row m.before)

/-- Whether a row with the components of a member exists. -/
def batchConflict (engine : Engine) (job : SetJob) (m : FrozenSetMember) : Adapter (Option MutationOutcome) := do
  let rows ← existingRows engine job.target (m.deduplication.getD []) [] true
  pure (if rows.isEmpty then none
    else some (outcomeOf .conflict (some "INSERT_DEDUP_CONFLICT") (identityForJob engine (.v3 job))))

def batchRefusal (engine : Engine) (job : SetJob) : Adapter (Option MutationOutcome) := do
  assertInsertDedupUniqueness engine job.target (job.frozenSet.members.map fun m => m.deduplication.getD [])
  findSome (batchConflict engine job) job.frozenSet.members

def setRefusal (rt : SourceRuntime) (engine : Engine) (job : SetJob) : Adapter (Option MutationOutcome) := do
  required (validateSetJob engine rt.platform job)
  if job.operation = .batchInsert then batchRefusal engine job
  else do
    let locked ← lockFrozenMembers rt engine job
    if !locked then
      pure (some (outcomeOf .conflict (some "SET_DRIFT_CONFLICT") (identityForJob engine (.v3 job))))
    else if job.operation = .delete then do
      let code ← deleteSafetyCode engine (targetTable job.target)
      pure (blockedBy (identityForJob engine (.v3 job)) code)
    else pure none

/-- The digests of a member that its operation reports. -/
def memberEffect (operation : SetOperation) (m : FrozenSetMember) : MemberEffect :=
  match operation with
  | .update => ⟨m.primaryKey, m.beforeDigest, m.afterDigest, none⟩
  | .delete => ⟨m.primaryKey, m.beforeDigest, none, m.tombstoneDigest⟩
  | .batchInsert => ⟨m.primaryKey, none, m.afterDigest, none⟩

/-- Postgres returns the key of an inserted member, which has to be the reviewed one. -/
def memberWritten (rt : SourceRuntime) (engine : Engine) (job : SetJob) (m : FrozenSetMember) (affected : Affected) : Prop :=
  affected.count = 1 ∧
    (engine = .postgres → job.operation = .batchInsert →
      rt.versionValuesMatch affected.returned m.primaryKey.value = true)

instance (rt : SourceRuntime) (engine : Engine) (job : SetJob) (m : FrozenSetMember) (affected : Affected) :
    Decidable (memberWritten rt engine job m affected) :=
  inferInstanceAs (Decidable (_ ∧ _))

def writeMember (rt : SourceRuntime) (engine : Engine) (job : SetJob) (m : FrozenSetMember) : Adapter MemberEffect := do
  let statement ← required (buildMember engine job m)
  let affected ← send (.mutate statement
    (if engine = .postgres ∧ job.operation = .batchInsert then some job.target.primaryKey.column else none))
  required (throwIf (¬ memberWritten rt engine job m affected) "SET_ATOMICITY_VIOLATION")
  pure (memberEffect job.operation m)

def writeSet (rt : SourceRuntime) (engine : Engine) (job : SetJob) : Adapter MutationOutcome := do
  let memberEffects ← each (writeMember rt engine job) job.frozenSet.members
  pure { outcomeOf .applied none (identityForJob engine (.v3 job)) with
    affectedRows := job.frozenSet.rowCount, memberEffects }

/-! ### Compensations -/

def compensationProjection (job : CompensationJob) (scope : Option ColumnValue) : List Column :=
  sortedColumns ([job.target.primaryKey.column, job.target.tenantGuard.column] ++ scope.toList.map (·.column) ++
    (job.compensation.members.flatMap fun m => m.expectedState.keys ++ (m.restoreValues.getD .empty).keys) ++
    job.compensation.versionAdvance.toList.map (·.column))

/-- `lockPostgresCompensationMembers` and `lockMysqlCompensationMembers`. -/
def lockCompensationMembers (engine : Engine) (job : CompensationJob) : Adapter (List DbRow) := do
  let scope ← required (principalScope job.target)
  select engine
    { table := targetTable job.target, columns := (compensationProjection job scope).map underOwnName
      conditions := .equals job.target.tenantGuard.column job.target.tenantGuard.value :: scopeConditions .equals scope
      identities := some (job.target.primaryKey.column, job.compensation.identities), forUpdate := true }

/-- What the locked rows say against a compensation. -/
def compensationConflict (rt : SourceRuntime) (job : CompensationJob) (rows : List DbRow) : Option String :=
  let members := job.compensation.members
  if job.operation = .restoreInsert then
    if rows.isEmpty then none else some "COMPENSATION_TARGET_PRESENT"
  else if rows.length ≠ members.length then some "COMPENSATION_TARGET_MISSING"
  else if members.all fun m =>
      (rowOf rows ⟨job.target.primaryKey.column, m.primaryKey.value⟩).any fun row => rowMatches rt row m.expectedState
    then none
  else some "ROW_CHANGED_AFTER_FORWARD_WRITE"

def compensationRefusal (rt : SourceRuntime) (engine : Engine) (job : CompensationJob) :
    Adapter (Option MutationOutcome) := do
  let identity := identityForJob engine (.v4 job)
  required (assertCompensationJobIntegrity rt.platform job)
  let rows ← lockCompensationMembers engine job
  match compensationConflict rt job rows with
  | some code => pure (some (outcomeOf .conflict (some code) identity))
  | none =>
    if job.operation = .restoreUpdate then pure none
    else do
      let code ← compensationSafetyCode engine (targetTable job.target) job.operation
      pure (blockedBy identity code)

/-- The digests of a restored or removed row. -/
def compensationEffect (rt : SourceRuntime) (job : CompensationJob) (scope : Option ColumnValue) (m : InverseMember) :
    MemberEffect :=
  let before := rt.digest (.memberBefore m.primaryKey m.expectedState)
  match job.operation with
  | .restoreInsert => ⟨m.primaryKey, none, some (rt.digest (.memberAfter m.primaryKey (restoredRow job m scope))), none⟩
  | .removeInsert => ⟨m.primaryKey, some before, none, some (rt.digest (.memberDeleted m.primaryKey))⟩
  | .restoreUpdate =>
    let after := job.compensation.versionAdvance.toList.foldl
      (fun r v => r.set v.column (nextVersion (m.expectedState.get? v.column))) (m.restoreValues.getD .empty)
    ⟨m.primaryKey, some before, some (rt.digest (.memberAfter m.primaryKey after)), none⟩

def writeCompensationMember (rt : SourceRuntime) (engine : Engine) (job : CompensationJob) (m : InverseMember) :
    Adapter MemberEffect := do
  let statement ← required (buildCompensation engine job m)
  let affected ← send (.mutate statement none)
  required (throwIf (affected.count ≠ 1) "COMPENSATION_ATOMICITY_VIOLATION")
  let scope ← required (principalScope job.target)
  pure (compensationEffect rt job scope m)

def writeCompensation (rt : SourceRuntime) (engine : Engine) (job : CompensationJob) : Adapter MutationOutcome := do
  let memberEffects ← each (writeCompensationMember rt engine job) job.compensation.members
  let inverse ← required (compensationInverseFromJob rt.platform job)
  pure { outcomeOf .applied none (identityForJob engine (.v4 job)) with
    affectedRows := job.compensation.members.length, memberEffects, inverse := some inverse }

/-! ### All jobs -/

/-- The reads on the target, for a job whose dependencies are fresh. -/
def targetRefusal (rt : SourceRuntime) (engine : Engine) : WritebackJob → Adapter (Option MutationOutcome)
  | .v1 job => rowRefusal rt engine (LegacyJob.toRowJob job)
  | .v2 job => rowRefusal rt engine job
  | .v3 job => setRefusal rt engine job
  | .v4 job => compensationRefusal rt engine job

def refusal (rt : SourceRuntime) (engine : Engine) (job : WritebackJob) : Adapter (Option MutationOutcome) := do
  let stale ← lockFreshnessDependencies rt engine job
  match stale with
  | some code => pure (some (outcomeOf .conflict (some code) (identityForJob engine job)))
  | none => targetRefusal rt engine job

def write (rt : SourceRuntime) (engine : Engine) : WritebackJob → Adapter MutationOutcome
  | .v1 job => writeRow rt engine (LegacyJob.toRowJob job)
  | .v2 job => writeRow rt engine job
  | .v3 job => writeSet rt engine job
  | .v4 job => writeCompensation rt engine job

/-- `mutatePostgres` and `mutateMysql`. -/
def mutate (rt : SourceRuntime) (engine : Engine) (job : WritebackJob) : Adapter MutationOutcome := do
  let refused ← refusal rt engine job
  match refused with
  | some outcome => pure outcome
  | none => write rt engine job

/-! ### The calls of a mutation -/

/-- A call that only reads. -/
def SourceCall.Reads : SourceCall → Prop
  | .select _ | .uniqueKeys _ | .dependents _ | .visibility _ | .triggers _ | .cascades _ => True
  | _ => False

/-- A read, or one of the statements of the job. -/
def SourceCall.Serves (engine : Engine) (job : WritebackJob) (call : SourceCall) : Prop :=
  call.Reads ∨ ∃ statement ∈ statements engine job, ∃ returning, call = .mutate statement returning

@[simp] theorem calls_required {P : SourceCall → Prop} {α : Type} (x : Except String α) : (required x).Calls P :=
  calls_lift _

theorem calls_select (engine : Engine) (query : Select) : (select engine query).Calls SourceCall.Reads :=
  (calls_required _).bind fun _ => calls_ask trivial

theorem calls_lockFreshnessDependencies (rt : SourceRuntime) (engine : Engine) (job : WritebackJob) :
    (lockFreshnessDependencies rt engine job).Calls SourceCall.Reads := by
  refine Calls.findSome fun d _ => (calls_required _).bind fun scope => ?_
  cases scope with
  | none => exact calls_pure _
  | some conditions => exact (calls_select ..).bind fun rows => calls_pure _

theorem calls_deleteSafetyCode (engine : Engine) (table : TableName) :
    (deleteSafetyCode engine table).Calls SourceCall.Reads := by
  cases engine with
  | postgres => exact (calls_ask trivial).bind fun found => calls_pure _
  | mysql =>
    refine (calls_ask trivial).bind fun visible => ?_
    split
    · exact calls_pure _
    split
    · exact calls_pure _
    refine (calls_ask trivial).bind fun triggers => ?_
    split
    · exact calls_pure _
    · exact (calls_ask trivial).bind fun cascades => calls_pure _

theorem calls_compensationSafetyCode (engine : Engine) (table : TableName) (operation : ReversalOperation) :
    (compensationSafetyCode engine table operation).Calls SourceCall.Reads := by
  cases engine with
  | postgres => exact (calls_ask trivial).bind fun found => calls_pure _
  | mysql =>
    refine (calls_ask trivial).bind fun visible => ?_
    split
    · exact calls_pure _
    refine (calls_ask trivial).bind fun triggers => ?_
    split
    · exact calls_pure _
    split
    · exact calls_pure _
    split
    · exact calls_pure _
    · exact (calls_ask trivial).bind fun cascades => calls_pure _

theorem calls_assertInsertDedupUniqueness (engine : Engine) (target : JobTarget)
    (componentSets : List (List DeduplicationComponent)) :
    (assertInsertDedupUniqueness engine target componentSets).Calls SourceCall.Reads :=
  (calls_ask trivial).bind fun _ => calls_required _

theorem calls_existingRows (engine : Engine) (target : JobTarget) (components : List DeduplicationComponent)
    (columns : List (Column × String)) (forUpdate : Bool) :
    (existingRows engine target components columns forUpdate).Calls SourceCall.Reads :=
  (calls_required _).bind fun _ => calls_select ..

theorem calls_lockTargetRow (engine : Engine) (job : RowJob) : (lockTargetRow engine job).Calls SourceCall.Reads := by
  unfold lockTargetRow
  split
  · exact calls_pure _
  · exact (calls_required _).bind fun scope => (calls_select ..).bind fun rows => calls_pure _

theorem calls_rowRefusal (rt : SourceRuntime) (engine : Engine) (job : RowJob) :
    (rowRefusal rt engine job).Calls SourceCall.Reads := by
  unfold rowRefusal
  cases job.operation with
  | insert =>
    show (insertRefusal engine job).Calls SourceCall.Reads
    unfold insertRefusal
    split
    · exact calls_throw _
    · refine (calls_assertInsertDedupUniqueness ..).bind fun _ => ?_
      exact (calls_existingRows ..).bind fun rows => calls_pure _
  | update => exact (calls_lockTargetRow engine job).bind fun row => calls_pure _
  | delete =>
    refine (calls_lockTargetRow engine job).bind fun row => ?_
    cases rowConflict rt engine job row with
    | some conflict => exact calls_pure _
    | none => exact (calls_deleteSafetyCode ..).bind fun code => calls_pure _

theorem calls_setRefusal (rt : SourceRuntime) (engine : Engine) (job : SetJob) :
    (setRefusal rt engine job).Calls SourceCall.Reads := by
  refine (calls_required _).bind fun _ => ?_
  split
  · refine (calls_assertInsertDedupUniqueness ..).bind fun _ => Calls.findSome fun m _ => ?_
    exact (calls_existingRows ..).bind fun rows => calls_pure _
  · refine Calls.bind ?_ fun locked => ?_
    · exact (calls_required _).bind fun scope => (calls_select ..).bind fun rows => calls_pure _
    split
    · exact calls_pure _
    split
    · exact (calls_deleteSafetyCode ..).bind fun code => calls_pure _
    · exact calls_pure _

theorem calls_compensationRefusal (rt : SourceRuntime) (engine : Engine) (job : CompensationJob) :
    (compensationRefusal rt engine job).Calls SourceCall.Reads := by
  refine (calls_required _).bind fun _ => Calls.bind ?_ fun rows => ?_
  · exact (calls_required _).bind fun scope => calls_select ..
  cases compensationConflict rt job rows with
  | some code => exact calls_pure _
  | none =>
    simp only
    split
    · exact calls_pure _
    · exact (calls_compensationSafetyCode ..).bind fun code => calls_pure _

/-- Until a job is refused or not, the adapter only reads. -/
theorem calls_refusal (rt : SourceRuntime) (engine : Engine) (job : WritebackJob) :
    (refusal rt engine job).Calls SourceCall.Reads := by
  refine (calls_lockFreshnessDependencies rt engine job).bind fun stale => ?_
  cases stale with
  | some code => exact calls_pure _
  | none =>
    show (targetRefusal rt engine job).Calls SourceCall.Reads
    cases job with
    | v1 job => exact calls_rowRefusal rt engine (LegacyJob.toRowJob job)
    | v2 job => exact calls_rowRefusal rt engine job
    | v3 job => exact calls_setRefusal rt engine job
    | v4 job => exact calls_compensationRefusal rt engine job

theorem SourceCall.Reads.serves {engine : Engine} {job : WritebackJob} {call : SourceCall} (reads : call.Reads) :
    call.Serves engine job := .inl reads

/-- A statement that the adapter builds and sends is one of the job. -/
theorem calls_writeStatement {engine : Engine} {job : WritebackJob} {α : Type} {build : Except String Statement}
    {returning : Option Column} {rest : Affected → Adapter α}
    (member : ∀ statement, build = .ok statement → statement ∈ statements engine job)
    (calls : ∀ affected, (rest affected).Calls (SourceCall.Serves engine job)) :
    Calls (SourceCall.Serves engine job)
      (required build >>= fun statement => send (.mutate statement returning) >>= rest) := by
  cases built : build with
  | error message => trivial
  | ok statement => exact (calls_ask (.inr ⟨statement, member statement built, returning, rfl⟩)).bind calls

theorem calls_writtenVersion (engine : Engine) (job : RowJob) (affected : Affected) :
    (writtenVersion engine job affected).Calls SourceCall.Reads := by
  unfold writtenVersion
  split
  · cases engine with
    | postgres => exact calls_pure _
    | mysql => exact (calls_required _).bind fun scope => (calls_select ..).bind fun rows => calls_pure _
  · exact calls_pure _

theorem calls_writeRow {engine : Engine} {wire : WritebackJob} {job : RowJob} (rt : SourceRuntime)
    (member : ∀ statement, buildRow engine job = .ok statement → statement ∈ statements engine wire) :
    (writeRow rt engine job).Calls (SourceCall.Serves engine wire) := by
  refine calls_writeStatement member fun affected => (calls_required _).bind fun _ => ?_
  refine Calls.bind ((calls_writtenVersion engine job affected).mono fun _ => SourceCall.Reads.serves) fun version => ?_
  exact (calls_required _).bind fun _ => (calls_required _).bind fun inserted => calls_pure _

/-- The adapter sends the statements of the job and no others. -/
theorem calls_write (rt : SourceRuntime) (engine : Engine) (job : WritebackJob) :
    (write rt engine job).Calls (SourceCall.Serves engine job) := by
  cases job with
  | v1 job => exact calls_writeRow rt fun statement built => by simp [statements, built, Except.toOption]
  | v2 job => exact calls_writeRow rt fun statement built => by simp [statements, built, Except.toOption]
  | v3 job =>
    refine Calls.bind (Calls.each fun m member => ?_) fun memberEffects => calls_pure _
    refine calls_writeStatement (fun statement built => ?_) fun affected => (calls_required _).bind fun _ => calls_pure _
    exact List.mem_filterMap.mpr ⟨m, member, by simp [built, Except.toOption]⟩
  | v4 job =>
    refine Calls.bind (Calls.each fun m member => ?_) fun memberEffects => (calls_required _).bind fun _ => calls_pure _
    refine calls_writeStatement (fun statement built => ?_) fun affected =>
      (calls_required _).bind fun _ => (calls_required _).bind fun _ => calls_pure _
    exact List.mem_filterMap.mpr ⟨m, member, by simp [built, Except.toOption]⟩

theorem calls_mutate (rt : SourceRuntime) (engine : Engine) (job : WritebackJob) :
    (mutate rt engine job).Calls (SourceCall.Serves engine job) := by
  refine Calls.bind ((calls_refusal rt engine job).mono fun _ => SourceCall.Reads.serves) fun refused => ?_
  cases refused with
  | some outcome => exact calls_pure _
  | none => exact calls_write rt engine job

end SynapsorRunner.Adapters
