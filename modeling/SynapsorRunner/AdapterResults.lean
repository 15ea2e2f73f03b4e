import SynapsorRunner.Results
import SynapsorRunner.AdapterChecks

/-!
The results of the source adapters. An outcome says what became of the source
transaction; `resultFromOutcome` puts it in the protocol version of its job, and
so do the results for a failure, for an unknown outcome and for an effect that an
earlier run has recorded.

The values of a driver are compared and printed by the JavaScript runtime
(`SourceRuntime`). No theorem depends on which versions it takes for equal.
-/
namespace SynapsorRunner.Adapters
open SynapsorRunner.Protocol SynapsorRunner.Proposals SynapsorRunner.Compensation

/-! ### Values of a driver -/

/-- A value of a row as the driver returns it. -/
inductive DbValue where
  | scalar (s : Scalar)
  | other (text : String)
  deriving DecidableEq, Repr

abbrev DbRow := KeyedMap Column DbValue

/-- `scalar`: what is no scalar becomes its text. -/
def scalar : Option DbValue → Scalar
  | none => .null
  | some (.scalar s) => s
  | some (.other text) => .str text

/-- The first value that is neither missing nor null (`??`). -/
def present : Option DbValue → Option DbValue
  | some (.scalar .null) => none
  | value => value

/-- What the adapters hash. -/
inductive AdapterDigest where
  | reviewed (identity : List ColumnValue) (reviewed : Record) (expected : ConflictGuard)
  | tombstone (identity : List ColumnValue) (expected : ConflictGuard)
  | updated (identity : List ColumnValue) (patch : Record) (version : Option Scalar)
  | inserted (identity : List ColumnValue) (values : Record)
  | memberBefore (primaryKey : ColumnValue) (before : Record)
  | memberAfter (primaryKey : ColumnValue) (after : Record)
  | memberDeleted (primaryKey : ColumnValue)
  | result (jobId status : String) (version : Option Scalar)
  | sourceIntent (engine sourceId jobId idempotencyKey : String)

/-- What the adapters use of their runtime: `versionValuesMatch`, `Number` and
    `String` on values, `digest`, and the time. -/
structure SourceRuntime where
  platform : Platform
  versionValuesMatch : Option DbValue → Scalar → Bool
  number : Scalar → Option Rat
  text : Scalar → String
  digest : AdapterDigest → Digest
  now : String
  nowNonEmpty : nonEmpty now = true

/-! ### Errors -/

/-- What an adapter throws or catches: `SourceOutcomeUnknownError`,
    `MysqlPrecommitDeadlineError`, or an error with its code and message. -/
inductive AdapterError where
  | sourceOutcomeUnknown
  | precommitDeadline
  | error (code message : String)
  deriving DecidableEq, Repr

/-- `new Error(message)`. -/
def AdapterError.thrown (message : String) : AdapterError := .error "" message

/-- `text.includes(part)`. -/
def includes (text part : String) : Bool := text.toList.tails.any fun tail => part.toList.isPrefixOf tail

def knownCode (codes : List String) (message : String) : Option String := codes.find? (includes message)

def rlsCodes : List String :=
  ["POSTGRES_RLS_PREREQUISITE_FAILED", "ROW_HASH_CONFLICT_GUARD_UNSUPPORTED",
    "POSTGRES_RLS_TENANT_CONTEXT_MISSING", "POSTGRES_RLS_PRINCIPAL_CONTEXT_MISSING",
    "POSTGRES_RLS_TENANT_CONTEXT_MISMATCH", "POSTGRES_RLS_PRINCIPAL_CONTEXT_MISMATCH"]

def postgresCodes : List String :=
  ["MULTI_ROW_WRITE_BLOCKED", "VERSION_CONFLICT", "VERSION_DID_NOT_ADVANCE", "INSERT_DEDUP_CONFLICT",
    "INSERT_DEDUP_UNIQUENESS_UNPROVEN", "INSERT_DEDUP_COMPONENT_CONFLICT", "INSERT_CONSTRAINT_FAILED",
    "DELETE_CASCADE_BLOCKED", "DELETE_TRIGGER_BLOCKED", "SOURCE_RECEIPT_UNAVAILABLE",
    "RUNNER_LEDGER_UNAVAILABLE", "SET_ROW_CAP_EXCEEDED", "SET_IDENTITY_NOT_UNIQUE",
    "SET_IDENTITY_ORDER_INVALID", "SET_PRIMARY_KEY_MISMATCH", "SET_VERSION_GUARD_REQUIRED",
    "SET_VERSION_GUARD_MISMATCH", "SET_TENANT_GUARD_MISMATCH", "SET_AFTER_STATE_MISMATCH",
    "SET_BEFORE_DIGEST_MISMATCH", "SET_AFTER_DIGEST_MISMATCH", "SET_TOMBSTONE_DIGEST_MISMATCH",
    "SET_AGGREGATE_BOUND_MISMATCH", "SET_AGGREGATE_VALUE_INVALID", "SET_DIGEST_MISMATCH",
    "SET_ATOMICITY_VIOLATION", "SET_DRIFT_CONFLICT", "BATCH_DEDUP_REQUIRED", "BATCH_IDENTITY_MISMATCH",
    "BATCH_COLUMN_NOT_ALLOWED", "COMPENSATION_UNAVAILABLE", "COMPENSATION_OPERATION_MISMATCH",
    "COMPENSATION_TARGET_MISMATCH", "COMPENSATION_TENANT_MISMATCH", "COMPENSATION_ROW_CAP_EXCEEDED",
    "COMPENSATION_IDENTITY_NOT_UNIQUE", "COMPENSATION_IDENTITY_ORDER_INVALID",
    "COMPENSATION_ALLOWLIST_MISMATCH", "COMPENSATION_PRIMARY_KEY_MISMATCH",
    "COMPENSATION_VERSION_GUARD_REQUIRED", "COMPENSATION_RESTORE_VALUES_REQUIRED",
    "COMPENSATION_EXPECTED_STATE_REQUIRED", "COMPENSATION_COLUMN_NOT_ALLOWED", "COMPENSATION_TARGET_PRESENT",
    "COMPENSATION_TARGET_MISSING", "COMPENSATION_TRIGGER_BLOCKED", "COMPENSATION_CASCADE_BLOCKED",
    "COMPENSATION_ATOMICITY_VIOLATION", "ROW_CHANGED_AFTER_FORWARD_WRITE"]

def mysqlCodes : List String :=
  ["MYSQL_STATEMENT_TIMEOUT", "MYSQL_STATEMENT_TIMEOUT_INVALID", "MYSQL_STATEMENT_TIMEOUT_UNENFORCEABLE",
    "MULTI_ROW_WRITE_BLOCKED", "VERSION_CONFLICT", "VERSION_DID_NOT_ADVANCE", "INSERT_DEDUP_CONFLICT",
    "INSERT_DEDUP_UNIQUENESS_UNPROVEN", "INSERT_DEDUP_COMPONENT_CONFLICT", "INSERT_CONSTRAINT_FAILED",
    "DELETE_CASCADE_BLOCKED", "DELETE_TRIGGER_BLOCKED", "DELETE_TRIGGER_VISIBILITY_REQUIRED",
    "DELETE_FK_VISIBILITY_REQUIRED", "SOURCE_RECEIPT_UNAVAILABLE", "RUNNER_LEDGER_UNAVAILABLE",
    "SET_ROW_CAP_EXCEEDED", "SET_IDENTITY_NOT_UNIQUE", "SET_IDENTITY_ORDER_INVALID", "SET_PRIMARY_KEY_MISMATCH",
    "SET_VERSION_GUARD_REQUIRED", "SET_VERSION_GUARD_MISMATCH", "SET_TENANT_GUARD_MISMATCH",
    "SET_AFTER_STATE_MISMATCH", "SET_BEFORE_DIGEST_MISMATCH", "SET_AFTER_DIGEST_MISMATCH",
    "SET_TOMBSTONE_DIGEST_MISMATCH", "SET_AGGREGATE_BOUND_MISMATCH", "SET_AGGREGATE_VALUE_INVALID",
    "SET_DIGEST_MISMATCH", "SET_ATOMICITY_VIOLATION", "SET_DRIFT_CONFLICT", "BATCH_DEDUP_REQUIRED",
    "BATCH_IDENTITY_MISMATCH", "BATCH_COLUMN_NOT_ALLOWED", "COMPENSATION_UNAVAILABLE",
    "COMPENSATION_OPERATION_MISMATCH", "COMPENSATION_TARGET_MISMATCH", "COMPENSATION_TENANT_MISMATCH",
    "COMPENSATION_ROW_CAP_EXCEEDED", "COMPENSATION_IDENTITY_NOT_UNIQUE", "COMPENSATION_IDENTITY_ORDER_INVALID",
    "COMPENSATION_ALLOWLIST_MISMATCH", "COMPENSATION_PRIMARY_KEY_MISMATCH",
    "COMPENSATION_VERSION_GUARD_REQUIRED", "COMPENSATION_RESTORE_VALUES_REQUIRED",
    "COMPENSATION_EXPECTED_STATE_REQUIRED", "COMPENSATION_COLUMN_NOT_ALLOWED", "COMPENSATION_TARGET_PRESENT",
    "COMPENSATION_TARGET_MISSING", "COMPENSATION_TRIGGER_VISIBILITY_REQUIRED",
    "COMPENSATION_FK_VISIBILITY_REQUIRED", "COMPENSATION_TRIGGER_BLOCKED", "COMPENSATION_CASCADE_BLOCKED",
    "COMPENSATION_ATOMICITY_VIOLATION", "ROW_CHANGED_AFTER_FORWARD_WRITE"]

def insertOperation : Operation → Bool
  | .row .insert | .set .batchInsert => true
  | _ => false

/-- `safeErrorCode` of the two adapters. -/
def safeErrorCode (engine : Engine) (operation : Operation) : AdapterError → String
  | .sourceOutcomeUnknown => "OUTCOME_UNKNOWN"
  | .precommitDeadline => "MYSQL_STATEMENT_TIMEOUT"
  | .error code message =>
    match engine with
    | .postgres => match knownCode rlsCodes message with
      | some known => known
      | none =>
        if code = "23505" ∧ insertOperation operation = true then "INSERT_DEDUP_CONFLICT"
        else (knownCode postgresCodes message).getD "TRANSACTION_FAILED"
    | .mysql =>
      if includes message "ROW_HASH_CONFLICT_GUARD_UNSUPPORTED" then "ROW_HASH_CONFLICT_GUARD_UNSUPPORTED"
      else if code = "ER_DUP_ENTRY" ∨ code = "1062" then
        if insertOperation operation then "INSERT_DEDUP_CONFLICT" else "TRANSACTION_FAILED"
      else (knownCode mysqlCodes message).getD "TRANSACTION_FAILED"

theorem knownCode_mem {codes : List String} {message known : String} (found : knownCode codes message = some known) :
    known ∈ codes := List.mem_of_find?_eq_some found

/-- The form of a code is checked on its characters: evaluating `toList` on a text
    is slow. -/
theorem safeCode_ofList {c : Char} {rest : List Char}
    (safe : (c.isUpper && rest.all fun c => c.isUpper || c.isDigit || c == '_') = true) :
    safeCode (String.ofList (c :: rest)) = true := by
  simpa only [safeCode, String.toList_ofList] using safe

theorem safeCode_rlsCodes : ∀ known ∈ rlsCodes, safeCode known = true := by
  simp only [rlsCodes, List.forall_mem_cons]
  and_intros <;> first | exact safeCode_ofList rfl | simp

theorem safeCode_postgresCodes : ∀ known ∈ postgresCodes, safeCode known = true := by
  simp only [postgresCodes, List.forall_mem_cons]
  and_intros <;> first | exact safeCode_ofList rfl | simp

theorem safeCode_mysqlCodes : ∀ known ∈ mysqlCodes, safeCode known = true := by
  simp only [mysqlCodes, List.forall_mem_cons]
  and_intros <;> first | exact safeCode_ofList rfl | simp

/-- Every error code that an adapter reports has the form of a safe code. -/
theorem safeCode_safeErrorCode (engine : Engine) (operation : Operation) (e : AdapterError) :
    safeCode (safeErrorCode engine operation e) = true := by
  have listed : ∀ codes, (∀ known ∈ codes, safeCode known = true) → ∀ message,
      safeCode ((knownCode codes message).getD "TRANSACTION_FAILED") = true := by
    intro codes safe message
    cases found : knownCode codes message with
    | none => decide
    | some known => exact safe known (knownCode_mem found)
  cases e with
  | sourceOutcomeUnknown =>
    show safeCode "OUTCOME_UNKNOWN" = true
    decide
  | precommitDeadline =>
    show safeCode "MYSQL_STATEMENT_TIMEOUT" = true
    decide
  | error code message =>
    cases engine with
    | postgres =>
      simp only [safeErrorCode]
      cases found : knownCode rlsCodes message with
      | some known => exact safeCode_rlsCodes known (knownCode_mem found)
      | none =>
        simp only
        split
        · decide
        · exact listed _ safeCode_postgresCodes message
    | mysql =>
      simp only [safeErrorCode]
      split
      · decide
      · split
        · split <;> decide
        · exact listed _ safeCode_mysqlCodes message

/-! ### Configuration -/

structure ReceiptsConfig where
  authority : ReceiptAuthority
  autoMigrate : Bool
  deriving DecidableEq, Repr

/-- The context of `postgres_rls`. -/
structure DatabaseScope where
  tenantSetting : String
  principalSetting : String
  tenantId : String
  principal : String
  deriving DecidableEq, Repr

/-- What the adapters read of `RunnerConfig`. -/
structure RunnerConfig where
  runnerId : String
  runnerIdNonEmpty : nonEmpty runnerId = true
  databaseUrl : String
  dryRun : Bool
  statementTimeoutMs : Option Nat
  receipts : Option ReceiptsConfig
  databaseScope : Option DatabaseScope
  writebackIntentStore : Bool

def receiptAuthority (config : RunnerConfig) : ReceiptAuthority := (config.receipts.map (·.authority)).getD .sourceDb

/-! ### Outcomes -/

structure MutationOutcome where
  status : WritebackStatus
  affectedRows : Nat
  code : Option String
  targetIdentity : List ColumnValue
  resultVersion : Option Scalar
  beforeDigest : Option Digest
  afterDigest : Option Digest
  tombstoneDigest : Option Digest
  memberEffects : List MemberEffect
  inverse : Option InverseDescriptor
  deriving DecidableEq

/-- An outcome without effect. -/
def outcomeOf (status : WritebackStatus) (code : Option String) (identity : List ColumnValue) : MutationOutcome :=
  { status, affectedRows := 0, code, targetIdentity := identity, resultVersion := none, beforeDigest := none
    afterDigest := none, tombstoneDigest := none, memberEffects := [], inverse := none }

/-- The key that a driver reports for an inserted row; MySQL reports 0 for none. -/
def insertedKey (engine : Engine) (inserted : Option DbValue) : Option DbValue :=
  match engine with
  | .postgres => present inserted
  | .mysql => if inserted = some (.scalar (.num 0)) then none else present inserted

def addIdentity (identity : List ColumnValue) (c : DeduplicationComponent) : List ColumnValue :=
  if identity.any fun item => item.column == c.column then identity else identity ++ [⟨c.column, c.value⟩]

/-- `identityForJob` on a row job. -/
def rowIdentity (engine : Engine) (job : RowJob) (inserted : Option DbValue) : List ColumnValue :=
  let primary := match insertedKey engine inserted with
    | some key => [⟨job.target.primaryKey.column, scalar (some key)⟩]
    | none => job.target.primaryKey.value.toList.map fun value => ⟨job.target.primaryKey.column, value⟩
  let identity := (job.deduplication.getD []).foldl addIdentity primary
  if identity.isEmpty then [job.target.tenantGuard] else identity.take 8

/-- `identityForJob`. -/
def identityForJob (engine : Engine) : WritebackJob → List ColumnValue
  | .v1 job => rowIdentity engine (LegacyJob.toRowJob job) none
  | .v2 job => rowIdentity engine job none
  | .v3 job => job.frozenSet.members.map (·.primaryKey)
  | .v4 job => job.compensation.members.map (·.primaryKey)

/-! ### Results -/

def resultHash (rt : SourceRuntime) (job : WritebackJob) (status : WritebackStatus) (version : Option Scalar) : Digest :=
  rt.digest (.result job.jobId status.text version)

def succeeded (status : WritebackStatus) : Bool := decide (status = .applied ∨ status = .alreadyApplied)

/-- The inverse that a result carries. -/
def resultInverse (rt : SourceRuntime) (job : WritebackJob) (outcome : MutationOutcome) :
    Except String (Option InverseDescriptor) :=
  if succeeded outcome.status then
    match job with
    | .v1 _ => .ok none
    | .v2 job => .ok job.inverseCapture
    | .v3 job => .ok job.inverseCapture
    | .v4 job => match outcome.inverse with
      | some inverse => .ok (some inverse)
      | none => (compensationInverseFromJob rt.platform job).map some
  else .ok none

/-- The fields that results of every version share. -/
def resultHeader (rt : SourceRuntime) (config : RunnerConfig) (job : WritebackJob) (outcome : MutationOutcome)
    (hash : Digest) : ResultHeader :=
  { jobId := job.jobId, runnerId := config.runnerId, status := outcome.status, affectedRows := outcome.affectedRows
    resultHash := some hash, completedAt := rt.now, errorCode := outcome.code, intentId := none }

/-- `String(version)`, unless it is null. -/
def versionText (rt : SourceRuntime) : Option Scalar → Option String
  | none | some .null => none
  | some version => some (rt.text version)

def outcomeResult (rt : SourceRuntime) (engine : Engine) (config : RunnerConfig) (job : WritebackJob)
    (outcome : MutationOutcome) (inverse : Option InverseDescriptor) (hash : Digest) : WritebackResult :=
  let header := resultHeader rt config job outcome hash
  let authority := receiptAuthority config
  match job with
  | .v1 _ => .v1 { header with resultVersion := versionText rt outcome.resultVersion }
  | .v2 row => .v2 { header with
      operation := row.operation, receiptAuthority := authority, targetIdentity := outcome.targetIdentity
      resultVersion := outcome.resultVersion, beforeDigest := outcome.beforeDigest, afterDigest := outcome.afterDigest
      tombstoneDigest := outcome.tombstoneDigest, inverse }
  | .v3 set => .v3 { header with
      operation := set.operation, receiptAuthority := authority, targetIdentities := identityForJob engine job
      setDigest := set.frozenSet.setDigest, memberEffects := outcome.memberEffects, inverse }
  | .v4 reversal => .v4 { header with
      operation := reversal.operation, receiptAuthority := authority, targetIdentities := identityForJob engine job
      memberEffects := outcome.memberEffects, inverse }

/-- `resultFromOutcome`. -/
def resultFromOutcome (rt : SourceRuntime) (engine : Engine) (config : RunnerConfig) (job : WritebackJob)
    (outcome : MutationOutcome) (overrideHash : Option Digest) : Except String WritebackResult := do
  let inverse ← resultInverse rt job outcome
  pure (outcomeResult rt engine config job outcome inverse
    (overrideHash.getD (resultHash rt job outcome.status outcome.resultVersion)))

/-- `failedResult`. -/
def failedResult (rt : SourceRuntime) (engine : Engine) (config : RunnerConfig) (job : WritebackJob) (code : String) :
    WritebackResult :=
  outcomeResult rt engine config job (outcomeOf .failed (some code) (identityForJob engine job)) none
    (resultHash rt job .failed none)

/-- `reconciliationResult`. -/
def reconciliationResult (rt : SourceRuntime) (engine : Engine) (config : RunnerConfig) (job : WritebackJob)
    (intentId errorCode : String) : WritebackResult :=
  let result := outcomeResult rt engine config job
    (outcomeOf .reconciliationRequired (some errorCode) (identityForJob engine job)) none
    (resultHash rt job .reconciliationRequired none)
  match result with
  | .v1 r => .v1 { r with intentId := some intentId }
  | .v2 r => .v2 { r with intentId := some intentId }
  | .v3 r => .v3 { r with intentId := some intentId }
  | .v4 r => .v4 { r with intentId := some intentId }

def resultVersion : WritebackResult → Option Scalar
  | .v1 result => result.resultVersion.map .str
  | .v2 result => result.resultVersion
  | _ => none

/-- `asAlreadyApplied`: a stored success as one that this run found. -/
def asAlreadyApplied (rt : SourceRuntime) (engine : Engine) (config : RunnerConfig) (job : WritebackJob)
    (result : WritebackResult) : Except String WritebackResult :=
  if succeeded result.status then
    resultFromOutcome rt engine config job
      { outcomeOf .alreadyApplied none (identityForJob engine job) with resultVersion := resultVersion result }
      result.header.resultHash
  else .ok result

/-- `resultFromExistingReceipt`. -/
def resultFromExistingReceipt (rt : SourceRuntime) (engine : Engine) (config : RunnerConfig) (job : WritebackJob)
    (status : String) (hash : Option Digest) : Except String WritebackResult :=
  let recorded := hash.getD (rt.digest (.result job.jobId "idempotent" none))
  let identity := identityForJob engine job
  if status = "applied" ∨ status = "already_applied" then
    resultFromOutcome rt engine config job (outcomeOf .alreadyApplied none identity) (some recorded)
  else if status = "conflict" then
    resultFromOutcome rt engine config job (outcomeOf .conflict (some "IDEMPOTENT_CONFLICT") identity) (some recorded)
  else if status = "failed" then .ok (failedResult rt engine config job "IDEMPOTENT_FAILED")
  else .ok (failedResult rt engine config job "SOURCE_RECEIPT_UNAVAILABLE")

/-- `resultHashFromResult`, on results that carry a hash. -/
def resultHashFromResult (rt : SourceRuntime) (job : WritebackJob) (result : WritebackResult) : Digest :=
  result.header.resultHash.getD (resultHash rt job result.status (resultVersion result))

/-- `sourceReconciliationIntentId`. -/
def sourceReconciliationIntentId (rt : SourceRuntime) (engine : Engine) (job : WritebackJob) : String :=
  "source-db:sha256:" ++
    (rt.digest (.sourceIntent (engineText engine) job.header.sourceId job.jobId job.idempotencyKey)).hex

/-! ### The status of a result -/

@[simp] theorem status_outcomeResult (rt : SourceRuntime) (engine : Engine) (config : RunnerConfig) (job : WritebackJob)
    (outcome : MutationOutcome) (inverse : Option InverseDescriptor) (hash : Digest) :
    (outcomeResult rt engine config job outcome inverse hash).status = outcome.status := by
  cases job <;> rfl

theorem resultFromOutcome_ok {rt : SourceRuntime} {engine : Engine} {config : RunnerConfig} {job : WritebackJob}
    {outcome : MutationOutcome} {overrideHash : Option Digest} {result : WritebackResult}
    (built : resultFromOutcome rt engine config job outcome overrideHash = .ok result) :
    ∃ inverse hash, resultInverse rt job outcome = .ok inverse ∧
      result = outcomeResult rt engine config job outcome inverse hash := by
  obtain ⟨inverse, resolved, rest⟩ := bind_eq_ok built
  cases rest
  exact ⟨inverse, _, resolved, rfl⟩

theorem status_resultFromOutcome {rt : SourceRuntime} {engine : Engine} {config : RunnerConfig} {job : WritebackJob}
    {outcome : MutationOutcome} {overrideHash : Option Digest} {result : WritebackResult}
    (built : resultFromOutcome rt engine config job outcome overrideHash = .ok result) :
    result.status = outcome.status := by
  obtain ⟨inverse, hash, _, rfl⟩ := resultFromOutcome_ok built
  exact status_outcomeResult ..

@[simp] theorem status_failedResult (rt : SourceRuntime) (engine : Engine) (config : RunnerConfig) (job : WritebackJob)
    (code : String) : (failedResult rt engine config job code).status = .failed := status_outcomeResult ..

@[simp] theorem status_reconciliationResult (rt : SourceRuntime) (engine : Engine) (config : RunnerConfig)
    (job : WritebackJob) (intentId errorCode : String) :
    (reconciliationResult rt engine config job intentId errorCode).status = .reconciliationRequired := by
  cases job <;> rfl

end SynapsorRunner.Adapters
