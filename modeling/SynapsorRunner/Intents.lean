import SynapsorRunner.Runs
import SynapsorRunner.Results
import SynapsorRunner.Proposals

/-!
The writeback intent ledger. An apply records an intent before it touches the
source, marks it `applying` before the source mutation and completes it with the
result. Two stores keep intents: the SQLite proposal store, whose table also
enforces one row for each idempotency key (`WritebackIntents`), and the Postgres
ledger, keyed by the intent id alone. Both decide on an existing row in the same
way (`claimExisting`).

A row never loses its identity and never returns to `intent_recorded`
(`RowStep`), so the claim of an attempt is declined from the moment the intent of
that very attempt has left `intent_recorded`
(`later_claim_declined_iff_own_attempt_crossed`). Another attempt has another row.
-/
namespace SynapsorRunner.Intents
open SynapsorRunner.Protocol SynapsorRunner.Proposals SynapsorRunner.Runs

/-- `WritebackIntentStatus`. The Postgres store writes the status of any result,
    so `canceled` is possible there. -/
inductive IntentStatus where
  | intentRecorded
  | applying
  | applied
  | alreadyApplied
  | conflict
  | failed
  | reconciliationRequired
  | canceled
  deriving DecidableEq, Repr, Inhabited

def IntentStatus.text : IntentStatus → String
  | .intentRecorded => "intent_recorded"
  | .applying => "applying"
  | .applied => "applied"
  | .alreadyApplied => "already_applied"
  | .conflict => "conflict"
  | .failed => "failed"
  | .reconciliationRequired => "reconciliation_required"
  | .canceled => "canceled"

/-- `result.status as WritebackIntentStatus`. -/
def IntentStatus.ofResult : WritebackStatus → IntentStatus
  | .applied => .applied
  | .conflict => .conflict
  | .failed => .failed
  | .canceled => .canceled
  | .alreadyApplied => .alreadyApplied
  | .reconciliationRequired => .reconciliationRequired

@[simp] theorem ofResult_ne_recorded (status : WritebackStatus) : IntentStatus.ofResult status ≠ .intentRecorded := by
  cases status <;> decide

@[simp] theorem ofResult_eq_canceled {status : WritebackStatus} :
    IntentStatus.ofResult status = .canceled ↔ status = .canceled := by
  cases status <;> decide

/-- How far an intent has come: recorded, applying, or with an outcome or the
    demand to reconcile. -/
def IntentStatus.rank : IntentStatus → Nat
  | .intentRecorded => 0
  | .applying => 1
  | _ => 2

theorem rank_le_two (status : IntentStatus) : status.rank ≤ 2 := by
  cases status <;> decide

theorem rank_ofResult (status : WritebackStatus) : (IntentStatus.ofResult status).rank = 2 := by
  cases status <;> rfl

structure StoredWritebackIntent where
  intentId : String
  idempotencyKey : String
  writebackJobId : String
  proposalId : String
  proposalHash : String
  runnerId : String
  operation : Operation
  status : IntentStatus
  intent : WritebackJob
  result : Option WritebackResult
  reconciliationReason : Option String
  deriving DecidableEq

def StoredWritebackIntent.identity (i : StoredWritebackIntent) : JobIdentity :=
  ⟨i.writebackJobId, i.idempotencyKey, i.proposalId, i.proposalHash⟩

def intentIdOf (jobId : String) : String := "wbi:" ++ jobId

/-- `WritebackIntentClaim`. -/
inductive ClaimDecision where
  | proceed (intentId : String)
  | existingResult (intentId : String) (result : WritebackResult)
  | reconciliationRequired (intentId reason : String)
  deriving DecidableEq

/-- The row a first claim records. -/
def recordedIntent (job : WritebackJob) (runnerId : String) : StoredWritebackIntent :=
  { intentId := intentIdOf job.jobId, idempotencyKey := job.idempotencyKey, writebackJobId := job.jobId
    proposalId := job.proposalId, proposalHash := job.approvalId, runnerId, operation := job.operation
    status := .intentRecorded, intent := job, result := none, reconciliationReason := none }

@[simp] theorem recordedIntent_identity (job : WritebackJob) (runnerId : String) :
    (recordedIntent job runnerId).identity = jobIdentity job := rfl

def crossedWithoutResult : String :=
  "a previous apply crossed the source mutation boundary without a durable terminal result"

/-- `assertIntentMatchesJob`, and the same check in the SQLite store. -/
def assertIntentMatchesJob (intent : StoredWritebackIntent) (job : WritebackJob) : Except StoreError Unit :=
  if intent.idempotencyKey ≠ job.idempotencyKey ∨ intent.writebackJobId ≠ job.jobId ∨
      intent.proposalId ≠ job.proposalId ∨ intent.proposalHash ≠ job.approvalId then
    .error (.proposalStore "WRITEBACK_INTENT_IDENTITY_MISMATCH"
      ("writeback intent " ++ intent.intentId ++ " does not match the immutable job identity"))
  else .ok ()

theorem assertIntentMatchesJob_ok_iff {intent : StoredWritebackIntent} {job : WritebackJob} :
    assertIntentMatchesJob intent job = .ok () ↔ intent.identity = jobIdentity job := by
  unfold assertIntentMatchesJob StoredWritebackIntent.identity jobIdentity
  split
  · rename_i differs
    simp only [reduceCtorEq, JobIdentity.mk.injEq, false_iff]
    tauto
  · rename_i same
    simp only [JobIdentity.mk.injEq, true_iff]
    tauto

/-- The decision on a row that a claim finds. -/
def claimExisting (existing : StoredWritebackIntent) (job : WritebackJob) : Except StoreError ClaimDecision := do
  assertIntentMatchesJob existing job
  let intentId := intentIdOf job.jobId
  match existing.status with
  | .applied | .alreadyApplied | .conflict | .failed =>
    match existing.result with
    | none => pure (.reconciliationRequired intentId "terminal intent is missing its durable result")
    | some result => pure (.existingResult intentId result)
  | .applying | .reconciliationRequired =>
    pure (.reconciliationRequired intentId (existing.reconciliationReason.getD crossedWithoutResult))
  | .intentRecorded | .canceled => pure (.proceed intentId)

/-- A claim that lets no apply proceed: the stored result, or the demand to
    reconcile. -/
def Declined (claim : Except StoreError ClaimDecision) : Prop :=
  (∃ intentId result, claim = .ok (.existingResult intentId result)) ∨
    ∃ intentId reason, claim = .ok (.reconciliationRequired intentId reason)

theorem claimExisting_declined_iff {existing : StoredWritebackIntent} {job : WritebackJob} :
    Declined (claimExisting existing job) ↔
      existing.identity = jobIdentity job ∧ existing.status ≠ .intentRecorded ∧ existing.status ≠ .canceled := by
  unfold claimExisting
  cases checked : assertIntentMatchesJob existing job with
  | error e =>
    have differs : existing.identity ≠ jobIdentity job := by
      intro same
      rw [assertIntentMatchesJob_ok_iff.mpr same] at checked
      cases checked
    simp [Declined, differs, bind, Except.bind]
  | ok _ =>
    have same := assertIntentMatchesJob_ok_iff.mp checked
    simp only [same, true_and]
    cases status : existing.status <;> cases stored : existing.result <;>
      simp [Declined, bind, Except.bind, pure, Except.pure]

/-- `parseWritebackResult`, as a store throws its issues. -/
def parsedResult (platform : Platform) (result : WritebackResult) : Except StoreError WritebackResult :=
  (parseWritebackResult platform result).mapError .schema

theorem parsedResult_ok {platform : Platform} {result parsed : WritebackResult}
    (accepted : parsedResult platform result = .ok parsed) : parsed = result := by
  unfold parsedResult at accepted
  cases parses : parseWritebackResult platform result with
  | error issues => rw [parses] at accepted; cases accepted
  | ok value =>
    rw [parses] at accepted
    cases accepted
    exact parseWritebackResult_ok parses

/-! ### Row updates -/

/-- `text.slice(0, 500)`. -/
def slice500 (text : String) : String := String.ofList (text.toList.take 500)

def applyingRow (runnerId : String) (i : StoredWritebackIntent) : StoredWritebackIntent :=
  { i with status := .applying, runnerId, reconciliationReason := none }

def completedRow (result : WritebackResult) (i : StoredWritebackIntent) : StoredWritebackIntent :=
  { i with
    status := .ofResult result.status
    result := some result
    reconciliationReason :=
      if result.status = .reconciliationRequired then some "source outcome requires operator reconciliation" else none }

def reconciliationRow (reason : String) (i : StoredWritebackIntent) : StoredWritebackIntent :=
  { i with status := .reconciliationRequired, reconciliationReason := some reason }

def reconciledRow (status : IntentStatus) (result : WritebackResult) (reason : String) (i : StoredWritebackIntent) :
    StoredWritebackIntent :=
  { i with status, result := some result, reconciliationReason := some reason }

/-- How one operation may change the row of one intent: not at all, by recording
    it, or by moving a recorded one on. -/
inductive RowStep : Option StoredWritebackIntent → Option StoredWritebackIntent → Prop where
  | stay (row : Option StoredWritebackIntent) : RowStep row row
  | record (job : WritebackJob) (runnerId : String) : RowStep none (some (recordedIntent job runnerId))
  | advance (i j : StoredWritebackIntent) (identity : j.identity = i.identity) (moved : j.status ≠ .intentRecorded)
      (finished : j.status ≠ .canceled) (onward : i.status.rank ≤ j.status.rank) : RowStep (some i) (some j)

/-- A row keeps its identity and, once it left `intent_recorded`, stays out of it. -/
def Advances (a b : Option StoredWritebackIntent) : Prop :=
  ∀ i, a = some i → ∃ j, b = some j ∧ j.identity = i.identity ∧
    (i.status ≠ .intentRecorded → j.status ≠ .intentRecorded)

theorem Advances.refl (a : Option StoredWritebackIntent) : Advances a a := fun i found => ⟨i, found, rfl, id⟩

theorem Advances.trans {a b c : Option StoredWritebackIntent} (first : Advances a b) (second : Advances b c) :
    Advances a c := by
  intro i found
  obtain ⟨j, middle, identity, moved⟩ := first i found
  obtain ⟨k, last, identity', moved'⟩ := second j middle
  exact ⟨k, last, identity'.trans identity, fun left => moved' (moved left)⟩

theorem RowStep.advances {a b : Option StoredWritebackIntent} (step : RowStep a b) : Advances a b := by
  cases step with
  | stay => exact .refl a
  | record job runnerId => intro i found; cases found
  | advance i j identity moved finished onward =>
    intro k found
    cases found
    exact ⟨j, rfl, identity, fun _ => moved⟩

/-- The row of an intent comes no less far. -/
def Onward (a b : Option StoredWritebackIntent) : Prop :=
  ∀ i, a = some i → ∃ j, b = some j ∧ i.status.rank ≤ j.status.rank

theorem Onward.refl (a : Option StoredWritebackIntent) : Onward a a := fun i found => ⟨i, found, Nat.le_refl _⟩

theorem Onward.trans {a b c : Option StoredWritebackIntent} (first : Onward a b) (second : Onward b c) : Onward a c := by
  intro i found
  obtain ⟨j, middle, le⟩ := first i found
  obtain ⟨k, last, le'⟩ := second j middle
  exact ⟨k, last, le.trans le'⟩

theorem RowStep.onward {a b : Option StoredWritebackIntent} (step : RowStep a b) : Onward a b := by
  cases step with
  | stay => exact .refl a
  | record job runnerId => intro i found; cases found
  | advance i j identity moved finished onward =>
    intro k found
    cases found
    exact ⟨j, rfl, onward⟩

/-- No intent has been completed by a canceled result. -/
def NotCanceled (a : Option StoredWritebackIntent) : Prop := ∀ i, a = some i → i.status ≠ .canceled

theorem RowStep.notCanceled {a b : Option StoredWritebackIntent} (step : RowStep a b) (before : NotCanceled a) :
    NotCanceled b := by
  cases step with
  | stay => exact before
  | record job runnerId => intro i found; cases found; simp [recordedIntent]
  | advance i j identity moved finished onward => intro k found; cases found; exact finished

/-! ### The interface of a store -/

/-- What a reconciliation states: the receipt of the observed outcome and the
    operator's reason. `operatorDecision` is the answer of
    `assertOperatorDecision`. -/
structure ReconcileInput where
  intentId : String
  receipt : ExecutionReceipt
  reason : String
  operatorDecision : Except StoreError Unit

/-- `receiptToWritebackResult`, on the receipts that a reconciliation takes. -/
def receiptToWritebackResult : ExecutionReceipt → Option WritebackResult
  | .v1 _ => none
  | .v2 r => some (.v2
      { jobId := r.writebackJobId, runnerId := r.runnerId, status := r.status, affectedRows := r.rowsAffected
        resultHash := some r.receiptHash, completedAt := r.executedAt, errorCode := r.safeErrorCode
        intentId := r.reconciliation.map (·.intentId), operation := r.operation
        receiptAuthority := r.receiptAuthority, targetIdentity := r.identities, resultVersion := none
        beforeDigest := r.beforeDigest, afterDigest := r.afterDigest, tombstoneDigest := r.tombstoneDigest
        inverse := r.inverse })
  | .v3 r => some (.v3
      { jobId := r.writebackJobId, runnerId := r.runnerId, status := r.status, affectedRows := r.rowsAffected
        resultHash := some r.receiptHash, completedAt := r.executedAt, errorCode := r.safeErrorCode
        intentId := r.reconciliation.map (·.intentId), operation := r.operation
        receiptAuthority := r.receiptAuthority, targetIdentities := r.identities, setDigest := r.setDigest
        memberEffects := r.memberEffects, inverse := r.inverse })
  | .v4 r => some (.v4
      { jobId := r.writebackJobId, runnerId := r.runnerId, status := r.status, affectedRows := r.rowsAffected
        resultHash := some r.receiptHash, completedAt := r.executedAt, errorCode := r.safeErrorCode
        intentId := r.reconciliation.map (·.intentId), operation := r.operation
        receiptAuthority := r.receiptAuthority, targetIdentities := r.identities, memberEffects := r.memberEffects
        inverse := r.inverse })

/-- The identity fields that a reconciliation receipt shares with the intent. -/
def receiptMatchesIntent (receipt : ExecutionReceipt) (i : StoredWritebackIntent) : Bool :=
  let governed (r : GovernedReceipt) (operation : Operation) : Bool :=
    decide (r.receiptAuthority = .runnerLedger ∧ r.writebackJobId = i.writebackJobId ∧ r.proposalId = i.proposalId ∧
      r.proposalHash = i.proposalHash ∧ operation = i.operation)
  match receipt with
  | .v1 _ => false
  | .v2 r => governed r.toGovernedReceipt (.row r.operation)
  | .v3 r => governed r.toGovernedReceipt (.set r.operation)
  | .v4 r => governed r.toGovernedReceipt (.reversal r.operation)

/-- The receipt of a reconciliation as a result, when it is one that
    reconciliation takes. -/
def reconciliationResult (platform : Platform) (receipt : ExecutionReceipt) : Except StoreError WritebackResult :=
  match parseExecutionReceipt platform receipt with
  | .error issues => .error (.schema issues)
  | .ok parsed => match receiptToWritebackResult parsed with
    | some result => .ok result
    | none => .error (.proposalStore "RECONCILIATION_RECEIPT_VERSION_REQUIRED"
        "reconciliation requires an execution-receipt v2, v3, or v4")

/-- The checks of `reconcileWritebackIntent`, and the row it writes. -/
def reconcileRow (platform : Platform) (input : ReconcileInput) (intent : StoredWritebackIntent) :
    Except StoreError StoredWritebackIntent := do
  let result ← reconciliationResult platform input.receipt
  ensure (¬ input.reason.toList.all Char.isWhitespace)
    (.proposalStore "RECONCILIATION_REASON_REQUIRED" "reconciliation requires an operator reason")
  ensure (intent.status = .reconciliationRequired ∨ intent.status = .applying)
    (.proposalStore "WRITEBACK_INTENT_NOT_RECONCILABLE"
      ("writeback intent " ++ intent.intentId ++ " is " ++ intent.status.text))
  ensure (receiptMatchesIntent input.receipt intent ∧
      (input.receipt.status = .applied ∨ input.receipt.status = .conflict ∨ input.receipt.status = .failed))
    (.proposalStore "RECONCILIATION_RECEIPT_MISMATCH"
      ("reconciliation receipt does not match intent " ++ intent.intentId))
  input.operatorDecision
  pure (reconciledRow (.ofResult input.receipt.status) result (slice500 input.reason) intent)

theorem reconcileRow_ok {platform : Platform} {input : ReconcileInput} {i j : StoredWritebackIntent}
    (reconciled : reconcileRow platform input i = .ok j) :
    (i.status = .reconciliationRequired ∨ i.status = .applying) ∧
      (input.receipt.status = .applied ∨ input.receipt.status = .conflict ∨ input.receipt.status = .failed) ∧
      ∃ result, j = reconciledRow (.ofResult input.receipt.status) result (slice500 input.reason) i := by
  obtain ⟨result, _, rest⟩ := bind_eq_ok reconciled
  obtain ⟨_, _, rest⟩ := bind_eq_ok rest
  obtain ⟨_, status, rest⟩ := bind_eq_ok rest
  obtain ⟨_, receipt, rest⟩ := bind_eq_ok rest
  obtain ⟨_, _, rest⟩ := bind_eq_ok rest
  cases rest
  exact ⟨ensure_ok_iff.mp status, (ensure_ok_iff.mp receipt).2, result, rfl⟩

/-- `WritebackIntentStore`, with the reconciliation of the runtime stores. An
    operation that throws leaves its store as it was. -/
structure IntentStore (σ : Type) where
  getWritebackIntent : σ → String → Option StoredWritebackIntent
  claimWritebackIntent : σ → WritebackJob → String → Except StoreError (ClaimDecision × σ)
  markWritebackIntentApplying : σ → String → String → Except StoreError σ
  completeWritebackIntent : σ → String → WritebackResult → Except StoreError σ
  requireWritebackReconciliation : σ → String → String → Except StoreError σ
  reconcileWritebackIntent : σ → ReconcileInput → Except StoreError σ

/-- A call on the intent store. An apply completes its intent with the result of
    a finished source transaction; a canceled result belongs to a dry run, which
    has no intent. -/
inductive IntentEvent where
  | claim (job : WritebackJob) (runnerId : String)
  | markApplying (intentId runnerId : String)
  | complete (intentId : String) (result : WritebackResult) (finished : result.status ≠ .canceled)
  | requireReconciliation (intentId reason : String)
  | reconcile (input : ReconcileInput)

namespace IntentStore
variable {σ : Type}

/-- What an event makes of the store. A crash of the caller is the end of its
    events. -/
def step (store : IntentStore σ) (s : σ) : IntentEvent → σ
  | .claim job runnerId => ((store.claimWritebackIntent s job runnerId).toOption.map Prod.snd).getD s
  | .markApplying intentId runnerId => (store.markWritebackIntentApplying s intentId runnerId).toOption.getD s
  | .complete intentId result _ => (store.completeWritebackIntent s intentId result).toOption.getD s
  | .requireReconciliation intentId reason => (store.requireWritebackReconciliation s intentId reason).toOption.getD s
  | .reconcile input => (store.reconcileWritebackIntent s input).toOption.getD s

/-- The decision of a claim. -/
def decision (store : IntentStore σ) (s : σ) (job : WritebackJob) (runnerId : String) : Except StoreError ClaimDecision :=
  (store.claimWritebackIntent s job runnerId).map Prod.fst

/-- What both stores do, for the jobs that `Admits` lets through their other
    checks. -/
structure Lawful (store : IntentStore σ) (Admits : σ → WritebackJob → Prop) : Prop where
  row_step : ∀ s e intentId,
    RowStep (store.getWritebackIntent s intentId) (store.getWritebackIntent (store.step s e) intentId)
  decision_existing : ∀ s job runnerId i, Admits s job →
    store.getWritebackIntent s (intentIdOf job.jobId) = some i → store.decision s job runnerId = claimExisting i job
  decision_absent : ∀ s job runnerId, store.getWritebackIntent s (intentIdOf job.jobId) = none →
    ¬ Declined (store.decision s job runnerId)
  admits_step : ∀ s e job, Admits s job → Admits (store.step s e) job

end IntentStore

end SynapsorRunner.Intents
