import SynapsorRunner.Mutations

/-!
The runs of the two source adapters on a job. With receipts in the source, one
transaction claims the idempotency key of the job, mutates its target and records the
receipt. With receipts in the ledger of the runner, an intent is claimed before the
transaction and completed after it. An error before COMMIT rolls the transaction back;
an error of COMMIT or of the rollback leaves its outcome unknown.
-/
namespace SynapsorRunner.Adapters
open SynapsorRunner.Protocol SynapsorRunner.Proposals SynapsorRunner.Compensation SynapsorRunner.Intents
open SynapsorRunner.Programs SynapsorRunner.Programs.Program

/-! ### The database scope -/

def rlsOperationForJob (job : WritebackJob) : String :=
  match job.operation with
  | .row .insert | .set .batchInsert | .reversal .restoreInsert => "INSERT"
  | .row .delete | .set .delete | .reversal .removeInsert => "DELETE"
  | _ => "UPDATE"

def assertDatabaseScopeMatchesJob (rt : SourceRuntime) (job : WritebackJob) (scope : DatabaseScope) : Except String Unit := do
  throwIf (rt.text job.target.tenantGuard.value ≠ scope.tenantId) "POSTGRES_RLS_TENANT_CONTEXT_MISMATCH"
  throwIf (∃ value ∈ job.target.principalScope.bind (·.value), rt.text value ≠ scope.principal)
    "POSTGRES_RLS_PRINCIPAL_CONTEXT_MISMATCH"

def assertPostgresRlsTarget (table : TableName) (operations : List String) : Adapter Unit := do
  let errors ← send (.inspectRls table operations)
  required (throwIf (errors ≠ []) ("POSTGRES_RLS_PREREQUISITE_FAILED:" ++ ",".intercalate errors))

/-- Nothing is left of the text after `trim()`. -/
def isBlank (text : String) : Bool :=
  text.toList.all fun c =>
    decide (9 ≤ c.toNat ∧ c.toNat ≤ 13 ∨ 0x2000 ≤ c.toNat ∧ c.toNat ≤ 0x200a) ||
      [32, 160, 0x1680, 0x2028, 0x2029, 0x202f, 0x205f, 0x3000, 0xfeff].contains c.toNat

def bindPostgresRlsScope (scope : DatabaseScope) : Adapter Unit := do
  required (throwIf (isBlank scope.tenantId = true) "POSTGRES_RLS_TENANT_CONTEXT_MISSING")
  required (throwIf (isBlank scope.principal = true) "POSTGRES_RLS_PRINCIPAL_CONTEXT_MISSING")
  send (.bindScope scope)

def enterDatabaseScope (rt : SourceRuntime) (job : WritebackJob) (scope : DatabaseScope) : Adapter Unit := do
  required (assertDatabaseScopeMatchesJob rt job scope)
  assertPostgresRlsTarget (targetTable job.target) ["SELECT", rlsOperationForJob job]
  let _ ← each (fun d => assertPostgresRlsTarget ⟨d.schema, d.table⟩ ["SELECT"]) (freshnessDependencies job)
  bindPostgresRlsScope scope

/-! ### The source transaction -/

/-- The settings for a statement timeout. -/
def timeoutSettings (engine : Engine) (timeoutMs : ℕ) : List (String × ℕ) :=
  match engine with
  | .postgres => [("statement_timeout", timeoutMs), ("lock_timeout", timeoutMs)]
  | .mysql => [("max_execution_time", timeoutMs), ("innodb_lock_wait_timeout", max 1 ((timeoutMs + 999) / 1000))]

def setTimeouts (engine : Engine) (config : RunnerConfig) : Adapter Unit := do
  let settings := (config.statementTimeoutMs.map (timeoutSettings engine)).getD []
  let _ ← each (fun s => send (.setting s.1 s.2)) settings
  pure ()

/-- What a transaction does before its function: Postgres its settings and its scope,
    MySQL the check of its deadline. -/
def prepareTransaction (rt : SourceRuntime) (engine : Engine) (config : RunnerConfig) (job : WritebackJob) : Adapter Unit :=
  match engine with
  | .postgres => do
    setTimeouts .postgres config
    match config.databaseScope with
    | some scope => enterDatabaseScope rt job scope
    | none => pure ()
  | .mysql => required (throwIf (config.statementTimeoutMs = some 0) "MYSQL_STATEMENT_TIMEOUT_INVALID")

def hook (hooked : Bool) (name : String) : Adapter Unit := if hooked then send (.failpoint name) else pure ()

def commitSource : Adapter Unit :=
  tryCatch (send .commit) fun _ => throw .sourceOutcomeUnknown

/-- After a deadline of MySQL the connection is gone, and there is nothing to roll back. -/
def rollsBack (engine : Engine) (e : AdapterError) : Bool :=
  match e with
  | .sourceOutcomeUnknown => false
  | .precommitDeadline => decide (engine = .postgres)
  | .error _ _ => true

def rollbackSource {α : Type} (engine : Engine) (e : AdapterError) : Adapter α := do
  if rollsBack engine e then tryCatch (send .rollback) fun _ => throw .sourceOutcomeUnknown else pure ()
  throw e

def transactionBody {α : Type} (rt : SourceRuntime) (engine : Engine) (config : RunnerConfig) (job : WritebackJob)
    (hooked : Bool) (fn : Adapter α) : Adapter α := do
  prepareTransaction rt engine config job
  hook hooked "after_source_begin"
  let result ← fn
  hook hooked "after_source_mutation"
  hook hooked "before_source_commit"
  commitSource
  pure result

def sourceTransaction {α : Type} (rt : SourceRuntime) (engine : Engine) (config : RunnerConfig) (job : WritebackJob)
    (hooked : Bool) (fn : Adapter α) : Adapter α := do
  if engine = .mysql then setTimeouts .mysql config else pure ()
  send .begin
  tryCatch (transactionBody rt engine config job hooked fn) (rollbackSource engine)

/-! ### Receipts in the source -/

def claimSourceReceipt (rt : SourceRuntime) (engine : Engine) (config : RunnerConfig) (job : WritebackJob) :
    Adapter (Option WritebackResult) := do
  let claimed ← send (.claimReceipt job.idempotencyKey job.jobId job.proposalId)
  if claimed = 1 then pure none
  else do
    let receipt ← send (.readReceipt job.idempotencyKey)
    match receipt with
    | none => pure (some (failedResult rt engine config job "SOURCE_RECEIPT_UNAVAILABLE"))
    | some row => do
      let result ← required (resultFromExistingReceipt rt engine config job row.status row.resultHash)
      pure (some result)

def recordSourceReceipt (job : WritebackJob) (status : WritebackStatus) (hash : Digest) : Adapter Unit := do
  let updated ← send (.recordReceipt job.idempotencyKey status.text hash)
  required (throwIf (updated ≠ 1) "SOURCE_RECEIPT_UNAVAILABLE")

/-- The mutation of a job whose key was free, and its receipt. -/
def mutateAndRecord (rt : SourceRuntime) (engine : Engine) (config : RunnerConfig) (job : WritebackJob) :
    Adapter WritebackResult := do
  let outcome ← mutate rt engine job
  let result ← required (resultFromOutcome rt engine config job outcome none)
  recordSourceReceipt job outcome.status (resultHashFromResult rt job result)
  pure result

def applyOnce (rt : SourceRuntime) (engine : Engine) (config : RunnerConfig) (job : WritebackJob) : Adapter WritebackResult := do
  let existing ← claimSourceReceipt rt engine config job
  match existing with
  | some result => pure result
  | none => mutateAndRecord rt engine config job

def autoMigrates (config : RunnerConfig) : Bool := config.receipts.any (·.autoMigrate)

def applyWithSourceReceipt (rt : SourceRuntime) (engine : Engine) (config : RunnerConfig) (job : WritebackJob) :
    Adapter WritebackResult := do
  if autoMigrates config then send .migrateReceipts else pure ()
  tryCatch (sourceTransaction rt engine config job false (applyOnce rt engine config job)) fun e =>
    if e = .sourceOutcomeUnknown then
      pure (reconciliationResult rt engine config job (sourceReconciliationIntentId rt engine job) "OUTCOME_UNKNOWN")
    else throw e

/-! ### Receipts in the ledger of the runner -/

def reconcileIntent (rt : SourceRuntime) (engine : Engine) (config : RunnerConfig) (job : WritebackJob)
    (intentId reason : String) : Adapter WritebackResult := do
  send (.requireReconciliation intentId reason)
  pure (reconciliationResult rt engine config job intentId "RECONCILIATION_REQUIRED")

/-- The transaction and its result, or what its error comes to. -/
def mutateWithIntent (rt : SourceRuntime) (engine : Engine) (config : RunnerConfig) (job : WritebackJob) (intentId : String) :
    Adapter (WritebackResult ⊕ WritebackResult) :=
  tryCatch
    (do
      let outcome ← sourceTransaction rt engine config job true (mutate rt engine job)
      let result ← required (resultFromOutcome rt engine config job outcome none)
      pure (.inl result))
    fun e =>
      if e = .sourceOutcomeUnknown then do
        let result ← reconcileIntent rt engine config job intentId "database COMMIT acknowledgement was not observed"
        pure (.inr result)
      else do
        let result := failedResult rt engine config job (safeErrorCode engine job.operation e)
        send (.completeIntent intentId result)
        pure (.inr result)

/-- After COMMIT the intent is completed. -/
def completeWithIntent (rt : SourceRuntime) (engine : Engine) (config : RunnerConfig) (job : WritebackJob) (intentId : String)
    (result : WritebackResult) : Adapter WritebackResult := do
  let stopped ← tryCatch (do send (.failpoint "after_source_commit"); pure false) fun _ => pure true
  if stopped then
    reconcileIntent rt engine config job intentId "process stopped after source COMMIT and before ledger completion"
  else do
    send (.completeIntent intentId result)
    send (.failpoint "after_intent_completed")
    pure result

/-- The run of a claimed intent. -/
def applyIntent (rt : SourceRuntime) (engine : Engine) (config : RunnerConfig) (job : WritebackJob) (intentId : String) :
    Adapter WritebackResult := do
  send (.failpoint "after_intent_recorded")
  let taken ← tryCatch (do send (.markIntentApplying intentId config.runnerId); pure true) fun _ => pure false
  if !taken then
    reconcileIntent rt engine config job intentId "another worker crossed or may have crossed the source mutation boundary"
  else do
    send (.failpoint "after_intent_applying")
    let ended ← mutateWithIntent rt engine config job intentId
    match ended with
    | .inl result => completeWithIntent rt engine config job intentId result
    | .inr result => pure result

def applyWithRunnerLedger (rt : SourceRuntime) (engine : Engine) (config : RunnerConfig) (job : WritebackJob) :
    Adapter WritebackResult :=
  if !config.writebackIntentStore then pure (failedResult rt engine config job "RUNNER_LEDGER_UNAVAILABLE")
  else do
    let claim ← send (.claimIntent job config.runnerId)
    match claim with
    | .existingResult _ result => required (asAlreadyApplied rt engine config job result)
    | .reconciliationRequired intentId _ =>
      pure (reconciliationResult rt engine config job intentId "RECONCILIATION_REQUIRED")
    | .proceed intentId => applyIntent rt engine config job intentId

/-! ### Jobs -/

/-- `applyPostgresJobWithClient` and `applyMysqlJobWithConnection`. -/
def applyConnected (rt : SourceRuntime) (engine : Engine) (config : RunnerConfig) (job : WritebackJob) :
    Adapter WritebackResult := do
  required (validateOperation engine rt.platform job)
  if receiptAuthority config = .runnerLedger then applyWithRunnerLedger rt engine config job
  else applyWithSourceReceipt rt engine config job

def dryRunResult (rt : SourceRuntime) (engine : Engine) (config : RunnerConfig) (job : WritebackJob) :
    Except String WritebackResult := do
  validateOperation engine rt.platform job
  let status : WritebackStatus := match job with
    | .v4 _ => .canceled
    | _ => .applied
  resultFromOutcome rt engine config job (outcomeOf status none (identityForJob engine job)) none

/-- `applyPostgresJob` and `applyMysqlJob`. MySQL connects before its `try`. -/
def applyJob (rt : SourceRuntime) (engine : Engine) (config : RunnerConfig) (job : WritebackJob) : Adapter WritebackResult :=
  let failed := fun e => pure (failedResult rt engine config job (safeErrorCode engine job.operation e))
  if config.dryRun then required (dryRunResult rt engine config job)
  else if config.databaseUrl = "" then pure (failedResult rt engine config job "DATABASE_UNAVAILABLE")
  else
    match engine with
    | .postgres => tryCatch (do send .connect; applyConnected rt .postgres config job) failed
    | .mysql => do
      send .connect
      tryCatch (applyConnected rt .mysql config job) failed

end SynapsorRunner.Adapters
