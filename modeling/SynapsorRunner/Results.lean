import SynapsorRunner.Protocol

/-!
Writeback results, execution receipts and their schemas. A result is what an
adapter returns for a job; a receipt is what the proposal store records of it.
Results and receipts come in the protocol version of their job.
-/
namespace SynapsorRunner.Protocol

/-- `writebackTerminalStatusSchema`. -/
inductive WritebackStatus where
  | applied
  | conflict
  | failed
  | canceled
  | alreadyApplied
  | reconciliationRequired
  deriving DecidableEq, Repr, Inhabited

def WritebackStatus.text : WritebackStatus → String
  | .applied => "applied"
  | .conflict => "conflict"
  | .failed => "failed"
  | .canceled => "canceled"
  | .alreadyApplied => "already_applied"
  | .reconciliationRequired => "reconciliation_required"

inductive ReceiptAuthority where
  | sourceDb
  | runnerLedger
  deriving DecidableEq, Repr, Inhabited

structure MemberEffect where
  primaryKey : ColumnValue
  beforeDigest : Option Digest
  afterDigest : Option Digest
  tombstoneDigest : Option Digest
  deriving DecidableEq, Repr

/-! ### Results -/

structure ResultHeader where
  jobId : String
  runnerId : String
  status : WritebackStatus
  affectedRows : Nat
  resultHash : Option Digest
  completedAt : String
  errorCode : Option String
  intentId : Option String
  deriving DecidableEq, Repr

structure LegacyResult extends ResultHeader where
  resultVersion : Option String
  deriving DecidableEq, Repr

structure RowResult extends ResultHeader where
  operation : RowOperation
  receiptAuthority : ReceiptAuthority
  targetIdentity : List ColumnValue
  resultVersion : Option Scalar
  beforeDigest : Option Digest
  afterDigest : Option Digest
  tombstoneDigest : Option Digest
  inverse : Option InverseDescriptor
  deriving DecidableEq

structure SetResult extends ResultHeader where
  operation : SetOperation
  receiptAuthority : ReceiptAuthority
  targetIdentities : List ColumnValue
  setDigest : Digest
  memberEffects : List MemberEffect
  inverse : Option InverseDescriptor
  deriving DecidableEq

structure CompensationResult extends ResultHeader where
  operation : ReversalOperation
  receiptAuthority : ReceiptAuthority
  targetIdentities : List ColumnValue
  memberEffects : List MemberEffect
  inverse : Option InverseDescriptor
  deriving DecidableEq

inductive WritebackResult where
  | v1 (result : LegacyResult)
  | v2 (result : RowResult)
  | v3 (result : SetResult)
  | v4 (result : CompensationResult)
  deriving DecidableEq

namespace WritebackResult

def header : WritebackResult → ResultHeader
  | v1 result => result.toResultHeader
  | v2 result => result.toResultHeader
  | v3 result => result.toResultHeader
  | v4 result => result.toResultHeader

def jobId (result : WritebackResult) : String := result.header.jobId
def status (result : WritebackResult) : WritebackStatus := result.header.status

end WritebackResult

/-- A schema's answer: the value, or the issues it raises. -/
def accept {α : Type} (fields : Bool) (issues : List Issue) (value : α) : Except (List Issue) α :=
  if !fields then .error []
  else match issues with
    | [] => .ok value
    | issues => .error issues

theorem accept_ok_iff {α : Type} {fields : Bool} {issues : List Issue} {value parsed : α} :
    accept fields issues value = .ok parsed ↔ fields = true ∧ issues = [] ∧ parsed = value := by
  unfold accept
  cases fields with
  | false => simp
  | true => cases issues with
    | nil => simp [eq_comm]
    | cons issue rest => simp

def resultHeaderFields (result : ResultHeader) : Bool :=
  nonEmpty result.jobId && nonEmpty result.runnerId && nonEmpty result.completedAt &&
  result.errorCode.all safeCode && result.intentId.all nonEmpty

/-- The refinement that every result schema makes. -/
def reconciliationIntentIssues (result : ResultHeader) : List Issue :=
  issueIf (decide (result.status = .reconciliationRequired) && result.intentId.isNone)
    "reconciliation_required results require intent_id" [.key "intent_id"]

/-- `parseWritebackResult` on a result in normalized form. -/
def parseWritebackResult (platform : Platform) (result : WritebackResult) : Except (List Issue) WritebackResult :=
  match result with
  | .v1 r => accept (nonEmpty r.jobId && nonEmpty r.runnerId && r.intentId.all nonEmpty)
      (reconciliationIntentIssues r.toResultHeader) (.v1 r)
  | .v2 r => accept
      (resultHeaderFields r.toResultHeader && decide (r.affectedRows ≤ 1) &&
        decide (1 ≤ r.targetIdentity.length ∧ r.targetIdentity.length ≤ 8) &&
        r.targetIdentity.all (fun c => safeIdentifier c.column) && r.inverse.all (inverseDescriptorV1Schema platform))
      (reconciliationIntentIssues r.toResultHeader) (.v2 r)
  | .v3 r => accept
      (resultHeaderFields r.toResultHeader && decide (r.affectedRows ≤ 100) &&
        decide (1 ≤ r.targetIdentities.length ∧ r.targetIdentities.length ≤ 100) &&
        r.targetIdentities.all (fun c => safeIdentifier c.column) && decide (r.memberEffects.length ≤ 100) &&
        r.memberEffects.all (fun e => safeIdentifier e.primaryKey.column) &&
        r.inverse.all (inverseDescriptorV1Schema platform))
      (issueIf (decide (r.status = .applied) && decide (r.affectedRows ≠ r.targetIdentities.length ∨
          r.memberEffects.length ≠ r.targetIdentities.length))
        "applied set result must identify every member" [.key "affected_rows"] ++
       reconciliationIntentIssues r.toResultHeader) (.v3 r)
  | .v4 r => accept
      (resultHeaderFields r.toResultHeader && decide (r.affectedRows ≤ 100) &&
        decide (1 ≤ r.targetIdentities.length ∧ r.targetIdentities.length ≤ 100) &&
        r.targetIdentities.all (fun c => safeIdentifier c.column) && decide (r.memberEffects.length ≤ 100) &&
        r.memberEffects.all (fun e => safeIdentifier e.primaryKey.column) &&
        r.inverse.all (inverseDescriptorV1Schema platform))
      (issueIf (decide (r.status = .applied) && decide (r.affectedRows ≠ r.targetIdentities.length))
        "applied compensation must identify every member" [.key "affected_rows"] ++
       issueIf (decide (r.status = .applied ∨ r.status = .alreadyApplied) && r.inverse.isNone)
        "successful compensation requires its own inverse" [.key "inverse"] ++
       reconciliationIntentIssues r.toResultHeader) (.v4 r)

/-- A parse returns its input. -/
theorem parseWritebackResult_ok {platform : Platform} {result parsed : WritebackResult}
    (accepted : parseWritebackResult platform result = .ok parsed) : parsed = result := by
  cases result <;> exact (accept_ok_iff.mp accepted).2.2

/-! ### Receipts -/

structure Reconciliation where
  intentId : String
  reason : String
  deriving DecidableEq, Repr

structure ReceiptHeader where
  writebackJobId : String
  proposalId : String
  runnerId : String
  status : WritebackStatus
  rowsAffected : Nat
  idempotencyKey : String
  sourceDatabaseMutated : Bool
  executedAt : String
  safeErrorCode : Option String
  receiptHash : Digest
  reconciliation : Option Reconciliation
  deriving DecidableEq, Repr

structure LegacyReceipt extends ReceiptHeader where
  previousVersion : Option Scalar
  newVersion : Option Scalar
  deriving DecidableEq, Repr

/-- What receipts from version 2 on add. -/
structure GovernedReceipt extends ReceiptHeader where
  proposalHash : String
  approvalId : String
  receiptAuthority : ReceiptAuthority
  sourceId : String
  schema : String
  table : String
  identities : List ColumnValue
  safeOutcomeCode : String
  inverse : Option InverseDescriptor
  deriving DecidableEq

structure RowReceipt extends GovernedReceipt where
  operation : RowOperation
  beforeDigest : Option Digest
  afterDigest : Option Digest
  tombstoneDigest : Option Digest
  deriving DecidableEq

structure SetReceipt extends GovernedReceipt where
  operation : SetOperation
  setDigest : Digest
  memberEffects : List MemberEffect
  deriving DecidableEq

structure CompensationReceipt extends GovernedReceipt where
  operation : ReversalOperation
  forwardReceiptHash : Digest
  memberEffects : List MemberEffect
  deriving DecidableEq

inductive ExecutionReceipt where
  | v1 (receipt : LegacyReceipt)
  | v2 (receipt : RowReceipt)
  | v3 (receipt : SetReceipt)
  | v4 (receipt : CompensationReceipt)
  deriving DecidableEq

namespace ExecutionReceipt

def header : ExecutionReceipt → ReceiptHeader
  | v1 receipt => receipt.toReceiptHeader
  | v2 receipt => receipt.toReceiptHeader
  | v3 receipt => receipt.toReceiptHeader
  | v4 receipt => receipt.toReceiptHeader

def status (receipt : ExecutionReceipt) : WritebackStatus := receipt.header.status

end ExecutionReceipt

def receiptHeaderFields (receipt : ReceiptHeader) : Bool :=
  nonEmpty receipt.writebackJobId && nonEmpty receipt.proposalId && nonEmpty receipt.runnerId &&
  nonEmpty receipt.idempotencyKey && nonEmpty receipt.executedAt &&
  receipt.reconciliation.all fun r => nonEmpty r.intentId && nonEmpty r.reason

def governedReceiptFields (platform : Platform) (receipt : GovernedReceipt) : Bool :=
  receiptHeaderFields receipt.toReceiptHeader && sha256Text receipt.proposalHash && nonEmpty receipt.approvalId &&
  nonEmpty receipt.sourceId && safeIdentifier receipt.schema && safeIdentifier receipt.table &&
  receipt.identities.all (fun c => safeIdentifier c.column) && safeCode receipt.safeOutcomeCode &&
  receipt.safeErrorCode.all safeCode && receipt.inverse.all (inverseDescriptorV1Schema platform)

def memberEffectFields (effects : List MemberEffect) : Bool :=
  decide (effects.length ≤ 100) && effects.all fun e => safeIdentifier e.primaryKey.column

/-- The refinement that every receipt schema makes, under its own text. -/
def reconciliationMetadataIssues (receipt : ReceiptHeader) (message : String) : List Issue :=
  issueIf (decide (receipt.status = .reconciliationRequired) && receipt.reconciliation.isNone) message
    [.key "reconciliation"]

/-- `parseExecutionReceipt`. -/
def parseExecutionReceipt (platform : Platform) (receipt : ExecutionReceipt) :
    Except (List Issue) ExecutionReceipt :=
  match receipt with
  | .v1 r => accept (receiptHeaderFields r.toReceiptHeader)
      (reconciliationMetadataIssues r.toReceiptHeader
        "reconciliation_required receipts require reconciliation metadata") (.v1 r)
  | .v2 r => accept
      (governedReceiptFields platform r.toGovernedReceipt && decide (r.rowsAffected ≤ 1) &&
        decide (1 ≤ r.identities.length ∧ r.identities.length ≤ 8))
      (issueIf (decide (r.operation = .delete) && r.tombstoneDigest.isNone &&
          decide (r.status = .applied ∨ r.status = .alreadyApplied))
        "applied DELETE receipts require a tombstone digest" [.key "tombstone_digest"] ++
       reconciliationMetadataIssues r.toReceiptHeader
        "reconciliation_required receipts require reconciliation metadata" ++
       issueIf (decide (r.rowsAffected > 0) && !r.sourceDatabaseMutated)
        "rows_affected cannot be positive when source_database_mutated is false" [.key "rows_affected"]) (.v2 r)
  | .v3 r => accept
      (governedReceiptFields platform r.toGovernedReceipt && decide (r.rowsAffected ≤ 100) &&
        decide (1 ≤ r.identities.length ∧ r.identities.length ≤ 100) && memberEffectFields r.memberEffects)
      (issueIf (decide (r.status = .applied) && decide (r.rowsAffected ≠ r.identities.length ∨
          r.memberEffects.length ≠ r.identities.length))
        "applied set receipt must identify every affected member" [.key "rows_affected"] ++
       issueIf (decide (r.rowsAffected > 0) && !r.sourceDatabaseMutated)
        "mutated rows require source_database_mutated" [.key "source_database_mutated"] ++
       reconciliationMetadataIssues r.toReceiptHeader "reconciliation metadata required") (.v3 r)
  | .v4 r => accept
      (governedReceiptFields platform r.toGovernedReceipt && decide (r.rowsAffected ≤ 100) &&
        decide (1 ≤ r.identities.length ∧ r.identities.length ≤ 100) && memberEffectFields r.memberEffects)
      (issueIf (decide (r.status = .applied) && decide (r.rowsAffected ≠ r.identities.length))
        "applied compensation receipt must identify every affected member" [.key "rows_affected"] ++
       issueIf (decide (r.status = .applied ∨ r.status = .alreadyApplied) && r.inverse.isNone)
        "successful compensation requires its own inverse" [.key "inverse"] ++
       issueIf (decide (r.rowsAffected > 0) && !r.sourceDatabaseMutated)
        "mutated rows require source_database_mutated" [.key "source_database_mutated"] ++
       reconciliationMetadataIssues r.toReceiptHeader "reconciliation metadata required") (.v4 r)

/-- A parse returns its input. -/
theorem parseExecutionReceipt_ok {platform : Platform} {receipt parsed : ExecutionReceipt}
    (accepted : parseExecutionReceipt platform receipt = .ok parsed) : parsed = receipt := by
  cases receipt <;> exact (accept_ok_iff.mp accepted).2.2

end SynapsorRunner.Protocol
