import SynapsorRunner.ReportableResults

/-!
The receipt that a runner makes of a result for its proposal store, and which of them the
schema of the store accepts (`toExecutionReceipt_accepted_iff`).
-/
namespace SynapsorRunner.ExecutionReceipts
open SynapsorRunner.Protocol SynapsorRunner.Proposals SynapsorRunner.Adapters SynapsorRunner.Programs.Program

/-! ### Receipts -/

def terminalStatus (result : ResultHeader) (dryRun : Bool) : WritebackStatus :=
  if result.status = .applied ∧ dryRun = false ∧ result.affectedRows = 0 then .alreadyApplied else result.status

def safeOutcomeCode (dryRun : Bool) (status : WritebackStatus) : String :=
  if dryRun then "DRY_RUN"
  else match status with
    | .applied => "APPLIED"
    | .alreadyApplied => "ALREADY_APPLIED"
    | .conflict => "CONFLICT"
    | .reconciliationRequired => "RECONCILIATION_REQUIRED"
    | .failed | .canceled => "FAILED"

def expectedVersion : ConflictGuard → Option Scalar
  | .versionColumn _ value => some value
  | _ => none

def previousVersion : WritebackJob → Option Scalar
  | .v1 job => expectedVersion job.conflictGuard
  | .v2 job => expectedVersion job.conflictGuard
  | _ => none

section
variable (digest : String → WritebackStatus → Nat → Option String → Digest) (job : WritebackJob)

def receiptHeader (result : ResultHeader) (dryRun : Bool) (status : WritebackStatus) (rowsAffected : Nat) : ReceiptHeader :=
  { writebackJobId := job.jobId, proposalId := job.proposalId, runnerId := result.runnerId, status, rowsAffected
    idempotencyKey := job.header.idempotencyKey
    sourceDatabaseMutated := decide (result.status = .applied ∧ dryRun = false ∧ 0 < result.affectedRows)
    executedAt := result.completedAt, safeErrorCode := result.errorCode
    receiptHash := result.resultHash.getD
      (digest job.jobId (terminalStatus result dryRun) result.affectedRows result.errorCode)
    reconciliation := if result.status = .reconciliationRequired then
      some ⟨result.intentId.getD "", "source outcome requires operator reconciliation"⟩ else none }

def governedReceipt (header : ReceiptHeader) (authority : ReceiptAuthority) (identities : List ColumnValue) (dryRun : Bool)
    (inverse : Option InverseDescriptor) : GovernedReceipt :=
  { header with
    proposalHash := job.header.approvalId, approvalId := job.header.approvalId, receiptAuthority := authority
    sourceId := job.header.sourceId, schema := job.header.target.schema, table := job.header.target.table, identities
    safeOutcomeCode := safeOutcomeCode dryRun header.status, inverse := if dryRun then none else inverse }

/-- The head of a receipt for several rows, which a dry run cancels. -/
def membersHeader (result : ResultHeader) (dryRun : Bool) : ReceiptHeader :=
  receiptHeader digest job result dryRun (if dryRun then .canceled else terminalStatus result dryRun)
    (if dryRun then 0 else result.affectedRows)

/-- `toExecutionReceipt`, or nothing where it throws. -/
def toExecutionReceipt (result : WritebackResult) (dryRun : Bool) : Option ExecutionReceipt :=
  match result with
  | .v1 r => some (.v1
      { receiptHeader digest job r.toResultHeader dryRun (terminalStatus r.toResultHeader dryRun) r.affectedRows with
        previousVersion := previousVersion job, newVersion := r.resultVersion.map .str })
  | .v2 r => some (.v2
      { governedReceipt job
          (receiptHeader digest job r.toResultHeader dryRun (terminalStatus r.toResultHeader dryRun) r.affectedRows)
          r.receiptAuthority r.targetIdentity dryRun r.inverse with
        operation := r.operation, beforeDigest := r.beforeDigest, afterDigest := r.afterDigest
        tombstoneDigest := r.tombstoneDigest })
  | .v3 r => some (.v3
      { governedReceipt job (membersHeader digest job r.toResultHeader dryRun) r.receiptAuthority r.targetIdentities dryRun
          r.inverse with
        operation := r.operation, setDigest := r.setDigest, memberEffects := if dryRun then [] else r.memberEffects })
  | .v4 r => match job with
    | .v4 reversal => some (.v4
        { governedReceipt job (membersHeader digest job r.toResultHeader dryRun) r.receiptAuthority r.targetIdentities dryRun
            r.inverse with
          operation := r.operation, forwardReceiptHash := reversal.forwardReceiptHash
          memberEffects := if dryRun then [] else r.memberEffects })
    | _ => none

end

/-! ### Receipts that the store takes -/

/-- The results whose receipts the schema of the store accepts. -/
def Recordable (result : WritebackResult) (dryRun : Bool) : Prop :=
  match result with
  | .v1 r => nonEmpty r.completedAt = true
  | .v2 r => (0 < r.affectedRows → r.status = .applied ∧ dryRun = false) ∧
      (r.operation = .delete → succeeded r.status = true → r.tombstoneDigest.isSome = true)
  | .v3 r => dryRun = false → 0 < r.affectedRows → r.status = .applied
  | .v4 r => dryRun = false → 0 < r.affectedRows → r.status = .applied

section
variable {digest : String → WritebackStatus → Nat → Option String → Digest} {job : WritebackJob} {dryRun : Bool}

theorem terminalStatus_succeeded (result : ResultHeader) (dryRun : Bool) :
    succeeded (terminalStatus result dryRun) = succeeded result.status := by
  unfold terminalStatus
  split
  · rename_i quiet
    rw [quiet.1]
    rfl
  · rfl

theorem terminalStatus_is {result : ResultHeader} {status : WritebackStatus} (first : status ≠ .alreadyApplied)
    (told : terminalStatus result dryRun = status) : result.status = status := by
  unfold terminalStatus at told
  split at told
  · exact absurd told.symm first
  · exact told

theorem receiptHeader_fields {result : ResultHeader} {status : WritebackStatus} {rows : ℕ}
    (job' : headerFields job.header = true) (runner : nonEmpty result.runnerId = true)
    (completed : nonEmpty result.completedAt = true) (intent : result.intentId.all nonEmpty = true)
    (named : reconciliationIntentIssues result = []) :
    receiptHeaderFields (receiptHeader digest job result dryRun status rows) = true := by
  simp only [headerFields, Bool.and_eq_true] at job'
  simp only [receiptHeaderFields, receiptHeader, Bool.and_eq_true]
  refine ⟨⟨⟨⟨⟨?_, ?_⟩, runner⟩, ?_⟩, completed⟩, ?_⟩
  · exact job'.1.1.1.1.1.1.1.1.1.1
  · exact job'.1.1.1.1.1.1.1.1.1.2
  · exact job'.2
  · by_cases waits : result.status = .reconciliationRequired
    · cases id : result.intentId with
      | none => simp [reconciliationIntentIssues, issueIf, waits, id] at named
      | some intentId =>
        rw [id] at intent
        simpa [waits, nonEmpty] using intent
    · simp [waits]

theorem reconciliation_told {result : ResultHeader} {status : WritebackStatus} {rows : ℕ} {message : String}
    (waits : status = .reconciliationRequired → result.status = .reconciliationRequired) :
    reconciliationMetadataIssues (receiptHeader digest job result dryRun status rows) message = [] := by
  by_cases open' : status = .reconciliationRequired
  · simp [reconciliationMetadataIssues, receiptHeader, waits open', issueIf]
  · simp [reconciliationMetadataIssues, receiptHeader, open', issueIf]

theorem governedReceipt_fields {platform : Platform} {result : ResultHeader} {status : WritebackStatus} {rows : ℕ}
    {authority : ReceiptAuthority} {identities : List ColumnValue} {inverse : Option InverseDescriptor}
    (job' : headerFields job.header = true) (approved : sha256Text job.header.approvalId = true)
    (fields : resultHeaderFields result = true) (named : reconciliationIntentIssues result = [])
    (identified : identities.all (fun c => safeIdentifier c.column) = true)
    (restores : inverse.all (inverseDescriptorV1Schema platform) = true) :
    governedReceiptFields platform (governedReceipt job (receiptHeader digest job result dryRun status rows) authority
      identities dryRun inverse) = true := by
  simp only [resultHeaderFields, Bool.and_eq_true] at fields
  have header : receiptHeaderFields (receiptHeader digest job result dryRun status rows) = true :=
    receiptHeader_fields job' fields.1.1.1.2 fields.1.1.2 fields.2 named
  have outcome : safeCode (safeOutcomeCode dryRun status) = true := by
    cases dryRun <;> cases status <;> decide
  simp only [headerFields, Bool.and_eq_true] at job'
  simp only [governedReceiptFields, governedReceipt, Bool.and_eq_true]
  refine ⟨⟨⟨⟨⟨⟨⟨⟨⟨header, approved⟩, ?_⟩, ?_⟩, ?_⟩, ?_⟩, identified⟩, outcome⟩, fields.1.2⟩, ?_⟩
  iterate 4 tauto
  cases dryRun
  · exact restores
  · rfl

@[simp] theorem governedReceipt_header (header : ReceiptHeader) (authority : ReceiptAuthority)
    (identities : List ColumnValue) (inverse : Option InverseDescriptor) :
    (governedReceipt job header authority identities dryRun inverse).toReceiptHeader = header := rfl

theorem approved_of_fields {platform : Platform} (fields : jobFields platform job = true)
    (governed : ∀ legacy, job ≠ .v1 legacy) : sha256Text job.header.approvalId = true := by
  cases job with
  | v1 legacy => exact absurd rfl (governed legacy)
  | _ =>
    simp only [jobFields, rowJobFields, setJobFields, compensationJobFields, Bool.and_eq_true] at fields
    simp only [WritebackJob.header]
    tauto

/-- Receipts for several rows have the fields of their results. -/
theorem members_fields {platform : Platform} {result : ResultHeader} {authority : ReceiptAuthority}
    {identities : List ColumnValue} {effects : List MemberEffect} {inverse : Option InverseDescriptor}
    (job' : headerFields job.header = true) (approved : sha256Text job.header.approvalId = true)
    (named : reconciliationIntentIssues result = [])
    (checked : (resultHeaderFields result && decide (result.affectedRows ≤ 100) &&
      decide (1 ≤ identities.length ∧ identities.length ≤ 100) && identities.all (fun c => safeIdentifier c.column) &&
      decide (effects.length ≤ 100) && effects.all (fun e => safeIdentifier e.primaryKey.column) &&
      inverse.all (inverseDescriptorV1Schema platform)) = true) :
    (governedReceiptFields platform (governedReceipt job (membersHeader digest job result dryRun) authority identities dryRun
        inverse) && decide ((membersHeader digest job result dryRun).rowsAffected ≤ 100) &&
      decide (1 ≤ identities.length ∧ identities.length ≤ 100) &&
      memberEffectFields (if dryRun then [] else effects)) = true := by
  simp only [Bool.and_eq_true] at checked ⊢
  refine ⟨⟨⟨governedReceipt_fields job' approved checked.1.1.1.1.1.1 named checked.1.1.1.2 checked.2, ?_⟩,
    checked.1.1.1.1.2⟩, ?_⟩
  · cases dryRun
    · exact checked.1.1.1.1.1.2
    · rfl
  · cases dryRun
    · exact Bool.and_eq_true_iff.mpr ⟨checked.1.1.2, checked.1.2⟩
    · rfl

theorem accept_iff {α : Type} {accepted : Bool} {issues : List Issue} {value : α} {P : Prop} (whole : accepted = true)
    (told : issues = [] ↔ P) : accept accepted issues value = .ok value ↔ P := by
  rw [accept_ok_iff, told]
  simp [whole]

theorem receiptOf_accepted_iff {platform : Platform} {result : WritebackResult} (fields : jobFields platform job = true)
    (parsed : parseWritebackResult platform result = .ok result) (same : SameVersion job result) :
    ∃ receipt, toExecutionReceipt digest job result dryRun = some receipt ∧
      (parseExecutionReceipt platform receipt = .ok receipt ↔ Recordable result dryRun) := by
  have header := headerFields_of_jobFields fields
  cases result with
  | v1 r =>
    obtain ⟨checked, named, -⟩ := accept_ok_iff.mp parsed
    simp only [Bool.and_eq_true] at checked
    refine ⟨_, rfl, accept_ok_iff.trans ⟨fun taken => ?_, fun completed => ?_⟩⟩
    · have whole := taken.1
      simp only [receiptHeaderFields, Bool.and_eq_true] at whole
      exact whole.1.2
    · exact ⟨receiptHeader_fields header checked.1.2 completed checked.2 named,
        reconciliation_told (terminalStatus_is (by decide)), rfl⟩
  | v2 r =>
    have approved := approved_of_fields fields (by rintro _ rfl; exact same)
    obtain ⟨checked, named, -⟩ := accept_ok_iff.mp parsed
    simp only [Bool.and_eq_true] at checked
    refine ⟨_, rfl, accept_iff ?_ ?_⟩
    · simp only [Bool.and_eq_true]
      exact ⟨⟨governedReceipt_fields header approved checked.1.1.1.1 named checked.1.2 checked.2, checked.1.1.1.2⟩,
        checked.1.1.2⟩
    · have success := terminalStatus_succeeded r.toResultHeader dryRun
      simp only [succeeded, decide_eq_decide] at success
      simp only [List.append_eq_nil_iff, governedReceipt_header, reconciliation_told (terminalStatus_is (by decide)),
        and_true]
      simp only [issueIf_eq_nil, receiptHeader, success, Recordable, succeeded]
      cases r.tombstoneDigest <;> simp <;> tauto
  | v3 r =>
    have approved := approved_of_fields fields (by rintro _ rfl; exact same)
    obtain ⟨checked, issues, -⟩ := accept_ok_iff.mp parsed
    obtain ⟨whole, named⟩ := List.append_eq_nil_iff.mp issues
    refine ⟨_, rfl, accept_iff (members_fields header approved named checked) ?_⟩
    cases dryRun
    · have applied : terminalStatus r.toResultHeader false = .applied → r.status = .applied := terminalStatus_is (by decide)
      simp only [List.append_eq_nil_iff, governedReceipt_header, membersHeader, Bool.false_eq_true, ↓reduceIte,
        reconciliation_told (terminalStatus_is (by decide)), and_true]
      simp [receiptHeader, governedReceipt, Recordable] at whole ⊢
      tauto
    · simp [membersHeader, receiptHeader, Recordable, reconciliationMetadataIssues]
  | v4 r =>
    have approved := approved_of_fields fields (by rintro _ rfl; exact same)
    obtain ⟨checked, issues, -⟩ := accept_ok_iff.mp parsed
    simp only [List.append_eq_nil_iff] at issues
    obtain ⟨⟨whole, inverted⟩, named⟩ := issues
    cases job with
    | v4 reversal =>
      refine ⟨_, rfl, accept_iff (members_fields header approved named checked) ?_⟩
      cases dryRun
      · have applied : terminalStatus r.toResultHeader false = .applied → r.status = .applied :=
          terminalStatus_is (by decide)
        have success := terminalStatus_succeeded r.toResultHeader false
        simp only [succeeded, decide_eq_decide] at success
        simp only [List.append_eq_nil_iff, governedReceipt_header, membersHeader, Bool.false_eq_true, ↓reduceIte,
          reconciliation_told (terminalStatus_is (by decide)), and_true]
        simp [receiptHeader, governedReceipt, Recordable, success] at whole inverted ⊢
        tauto
      · simp [membersHeader, receiptHeader, Recordable, reconciliationMetadataIssues]
    | _ => exact same.elim

end

end SynapsorRunner.ExecutionReceipts
