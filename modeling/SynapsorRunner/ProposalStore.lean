import Mathlib.Data.List.Dedup
import Mathlib.Data.List.Sort
import SynapsorRunner.Doubles
import SynapsorRunner.IntentStores
import SynapsorRunner.WorkerControl

/-!
The SQLite proposal store: the rows of its proposals, approvals, receipts,
freshness proofs, worker queue and intents, and the operations on proposals,
decisions and receipts. An operation reads and checks first and then runs one
transaction. Some transactions look at the proposal again and some do not, so the
two halves of an operation are two definitions here; a function whose name ends in
`Transaction` is what runs between BEGIN IMMEDIATE and COMMIT.

Event rows, job rows and idempotency receipts, which no operation here reads back,
are left out. Times are in milliseconds.
-/
namespace SynapsorRunner.ProposalStore
open SynapsorRunner.Protocol SynapsorRunner.Proposals SynapsorRunner.Intents SynapsorRunner.WorkerControl

/-! ### Rows -/

/-- `approval.status` of a change set. -/
inductive ReviewStatus where
  | pending
  | approved
  | rejected
  | canceled
  deriving DecidableEq, Repr

/-- A row of `proposals`, with what its change set says of the review. -/
structure ProposalRow extends StoredProposal where
  approvalStatus : ReviewStatus
  requiredRole : Option String
  sourceDatabaseMutated : Bool
  createdAt : Nat
  updatedAt : Nat

inductive DecisionStatus where
  | approved
  | rejected
  deriving DecidableEq, Repr

structure StoredApproval where
  proposalId : String
  proposalVersion : Nat
  proposalHash : String
  approver : String
  status : DecisionStatus
  reason : Option String
  freshnessProofDigest : Option String
  createdAt : Nat
  deriving DecidableEq, Repr

structure StoredWritebackReceipt where
  writebackJobId : String
  proposalId : String
  runnerId : String
  status : WritebackStatus
  idempotencyKey : String
  sourceDatabaseMutated : Bool
  deriving DecidableEq, Repr

inductive FreshnessResult where
  | fresh
  | stale
  | unavailable
  | invalid
  | unsupported
  deriving DecidableEq, Repr

def FreshnessResult.text : FreshnessResult → String
  | .fresh => "fresh"
  | .stale => "stale"
  | .unavailable => "unavailable"
  | .invalid => "invalid"
  | .unsupported => "unsupported"

structure FreshnessProof where
  proposalId : String
  proposalHash : String
  proposalVersion : Nat
  dependencySetDigest : String
  result : FreshnessResult
  validUntil : Nat
  proofDigest : String
  deriving DecidableEq, Repr

inductive WorkerQueueStatus where
  | queued
  | leased
  | retryWait
  | completed
  | deadLetter
  | discarded
  | cancelled
  | blocked
  | reconciliationRequired
  deriving DecidableEq, Repr

def WorkerQueueStatus.text : WorkerQueueStatus → String
  | .queued => "queued"
  | .leased => "leased"
  | .retryWait => "retry_wait"
  | .completed => "completed"
  | .deadLetter => "dead_letter"
  | .discarded => "discarded"
  | .cancelled => "cancelled"
  | .blocked => "blocked"
  | .reconciliationRequired => "reconciliation_required"

inductive WorkerExecutionMode where
  | legacy
  | supervisedWorker
  deriving DecidableEq, Repr

/-- A row of `worker_queue`, which stands under the id of its proposal. -/
structure WorkerQueueItem where
  status : WorkerQueueStatus
  executionMode : WorkerExecutionMode
  contractDigest : Option String
  attempts : Nat
  maxAttempts : Nat
  nextAttemptAt : Nat
  leaseOwner : Option String
  leaseId : Option String
  leaseExpiresAt : Option Nat
  lastErrorCode : Option String
  terminalOutcome : Option String
  createdAt : Nat
  updatedAt : Nat
  deriving DecidableEq, Repr

/-- The tables. The freshness proofs are those of the events
    `proposal_freshness_checked`, the latest first. -/
structure Store where
  proposals : KeyedMap String ProposalRow
  approvals : List StoredApproval
  receipts : List StoredWritebackReceipt
  freshnessProofs : List FreshnessProof
  workerQueue : KeyedMap String WorkerQueueItem
  intents : WritebackIntents

def Store.empty : Store := ⟨.empty, [], [], [], .empty, .empty⟩

/-- What the store uses of its runtime. -/
structure StoreRuntime where
  platform : Platform
  dependencySetDigest : FreshnessAuthority → String
  workerLeaseId : String → String → Nat → Nat → String

namespace Store

def getProposal (s : Store) (proposalId : String) : Option ProposalRow := s.proposals.get? proposalId

def requireProposal (s : Store) (proposalId : String) : Except StoreError ProposalRow :=
  match s.getProposal proposalId with
  | some proposal => .ok proposal
  | none => .error (.proposalStore "PROPOSAL_NOT_FOUND" ("proposal " ++ proposalId ++ " not found"))

theorem requireProposal_ok_iff {s : Store} {proposalId : String} {row : ProposalRow} :
    s.requireProposal proposalId = .ok row ↔ s.getProposal proposalId = some row := by
  unfold requireProposal
  split <;> rename_i found <;> simp [found]

/-- UPDATE of the row of a proposal. -/
def updateProposal (s : Store) (proposalId : String) (f : ProposalRow → ProposalRow) : Store :=
  { s with proposals := s.proposals.modify proposalId f }

theorem getProposal_updateProposal (s : Store) (proposalId proposalId' : String) (f : ProposalRow → ProposalRow) :
    (s.updateProposal proposalId f).getProposal proposalId' =
      if proposalId' = proposalId then (s.getProposal proposalId).map f else s.getProposal proposalId' :=
  KeyedMap.get?_modify _ _ _ _

/-- `UPDATE proposals SET state = ?, updated_at = ? WHERE proposal_id = ?`. -/
def writeState (s : Store) (proposalId : String) (state : ProposalState) (now : Nat) : Store :=
  s.updateProposal proposalId fun row => { row with state, updatedAt := now }

@[simp] theorem writeState_approvals (s : Store) (proposalId : String) (state : ProposalState) (now : Nat) :
    (s.writeState proposalId state now).approvals = s.approvals := rfl
@[simp] theorem writeState_workerQueue (s : Store) (proposalId : String) (state : ProposalState) (now : Nat) :
    (s.writeState proposalId state now).workerQueue = s.workerQueue := rfl

/-- The approvals of a proposal. -/
def approvalsOf (s : Store) (proposalId : String) : List StoredApproval :=
  s.approvals.filter fun approval => decide (approval.proposalId = proposalId)

theorem mem_approvalsOf {s : Store} {proposalId : String} {approval : StoredApproval} :
    approval ∈ s.approvalsOf proposalId ↔ approval ∈ s.approvals ∧ approval.proposalId = proposalId := by
  simp [approvalsOf]

/-- `COUNT(DISTINCT CASE WHEN status = 'approved' THEN approver END)`. -/
def approvers (s : Store) (proposalId : String) : List String :=
  (((s.approvalsOf proposalId).filter fun approval => decide (approval.status = .approved)).map (·.approver)).dedup

theorem mem_approvers {s : Store} {proposalId approver : String} :
    approver ∈ s.approvers proposalId ↔
      ∃ approval ∈ s.approvals, approval.proposalId = proposalId ∧ approval.status = .approved ∧
        approval.approver = approver := by
  simp [approvers, approvalsOf, List.mem_dedup, and_left_comm, and_assoc]

def latestFreshnessProof (s : Store) (proposalId : String) : Option FreshnessProof :=
  s.freshnessProofs.find? fun proof => decide (proof.proposalId = proposalId)

def receiptsOf (s : Store) (proposalId : String) : List StoredWritebackReceipt :=
  s.receipts.filter fun receipt => decide (receipt.proposalId = proposalId)

/-- The intent operations see the proposals without what the review adds. -/
def ledger (s : Store) : SqliteLedger := ⟨s.proposals.mapValues ProposalRow.toStoredProposal, s.intents⟩

end Store

/-! ### Operator decisions -/

/-- An identity proof with the roles of its operator. -/
structure OperatorProof extends OperatorIdentityProof where
  roles : List String
  deriving DecidableEq, Repr

/-- Who decides, as every decision on a proposal states it. -/
structure Decider where
  actor : String
  identity : Option OperatorProof
  requireVerifiedIdentity : Bool
  deriving DecidableEq, Repr

def assertOperatorDecision (proposal : ProposalRow) (action : String) (decider : Decider) : Except StoreError Unit := do
  ensure (decider.requireVerifiedIdentity → decider.identity.any (·.verified))
    (.proposalStore "VERIFIED_OPERATOR_IDENTITY_REQUIRED"
      ("verified operator identity is required to " ++ action ++ " proposal " ++ proposal.proposalId))
  match decider.identity with
  | none => pure ()
  | some identity => do
    ensure (identity.subject = decider.actor ∧ identity.decision.subject = decider.actor)
      (.proposalStore "OPERATOR_IDENTITY_MISMATCH"
        ("operator identity " ++ identity.subject ++ " does not match actor " ++ decider.actor))
    ensure (identity.decision.action = action ∧ identity.decision.proposalId = proposal.proposalId ∧
        identity.decision.proposalVersion = proposal.proposalVersion ∧
        identity.decision.proposalHash = proposal.proposalHash)
      (.proposalStore "OPERATOR_DECISION_MISMATCH" ("operator proof is not bound to this " ++ action ++ " decision"))
    ensure (action = "approve" ∨ action = "reject" →
        ∀ role ∈ proposal.requiredRole, nonEmpty role → role ∈ identity.roles)
      (.proposalStore "APPROVER_ROLE_REQUIRED"
        ("operator " ++ identity.subject ++ " lacks required role " ++ proposal.requiredRole.getD ""))

/-! ### Creation -/

def stateFromChangeSet : ReviewStatus → ProposalState
  | .approved => .approved
  | .rejected => .rejected
  | .canceled => .canceled
  | .pending => .pendingReview

/-- The states of `findActiveProposal`. -/
def ProposalState.active : ProposalState → Bool
  | .pendingReview | .approved | .pendingWorker => true
  | _ => false

/-- `findActiveProposal`. -/
def Store.findActiveProposal (s : Store) (created : ProposalRow) : Option ProposalRow :=
  s.proposals.values.find? fun row => decide (row.tenantId = created.tenantId ∧ row.action = created.action ∧
    row.businessObject = created.businessObject ∧ row.objectId = created.objectId) && ProposalState.active row.state

/-- The reads of `createProposal`: `none` when the very proposal is stored
    already. -/
def prepareCreate (s : Store) (created : ProposalRow) : Except StoreError (Option ProposalRow) :=
  match s.getProposal created.proposalId with
  | some existing =>
    if existing.proposalVersion = created.proposalVersion ∧ existing.proposalHash = created.proposalHash then .ok none
    else .error (.proposalStore "PROPOSAL_IMMUTABILITY_VIOLATION"
      ("proposal " ++ created.proposalId ++ " already exists with a different version or hash"))
  | none => match s.findActiveProposal created with
    | some active => .error (.proposalStore "PROPOSAL_ALREADY_EXISTS"
        ("active proposal " ++ active.proposalId ++ " is " ++ active.state.text ++ " for " ++ active.businessObject ++
          ":" ++ active.objectId))
    | none => .ok (some { created with state := stateFromChangeSet created.approvalStatus })

def createTransaction (s : Store) (row : ProposalRow) : Except StoreError Store := do
  ensure (s.getProposal row.proposalId).isNone (.constraint "proposals.proposal_id")
  pure { s with proposals := s.proposals.set row.proposalId row }

/-! ### Freshness -/

/-- The checks of `assertApprovalFreshness` on the latest proof. -/
def assertFreshProof (runtime : StoreRuntime) (s : Store) (proposal : ProposalRow) (authority : FreshnessAuthority)
    (proofDigest : String) (now : Nat) : Except StoreError Unit :=
  match (s.latestFreshnessProof proposal.proposalId).filter fun proof => decide (proof.proofDigest = proofDigest) with
  | none => .error (.proposalStore "FRESHNESS_PROOF_MISSING"
      ("the latest freshness proof for proposal " ++ proposal.proposalId ++ " was not supplied"))
  | some proof => do
    ensure (proof.proposalHash = proposal.proposalHash ∧ proof.proposalVersion = proposal.proposalVersion ∧
        proof.dependencySetDigest = runtime.dependencySetDigest authority)
      (.proposalStore "FRESHNESS_PROOF_AUTHORITY_MISMATCH"
        ("freshness proof does not match proposal " ++ proposal.proposalId))
    ensure (proof.result = .fresh)
      (.proposalStore (if proof.result = .stale then "FRESHNESS_STALE" else "FRESHNESS_NOT_VERIFIED")
        ("proposal " ++ proposal.proposalId ++ " freshness result is " ++ proof.result.text))
    ensure (now ≤ proof.validUntil)
      (.proposalStore "FRESHNESS_PROOF_EXPIRED" ("freshness proof for proposal " ++ proposal.proposalId ++ " has expired"))
    ensure (∀ approval ∈ s.approvalsOf proposal.proposalId, approval.freshnessProofDigest ≠ some proofDigest)
      (.proposalStore "FRESHNESS_PROOF_ALREADY_USED" ("freshness proof for proposal " ++ proposal.proposalId ++
        " already authorized a reviewer decision"))

def assertApprovalFreshness (runtime : StoreRuntime) (s : Store) (proposal : ProposalRow) (proofDigest : Option String)
    (now : Nat) : Except StoreError Unit :=
  match proposal.changeSet.freshness, proofDigest with
  | none, none => .ok ()
  | none, some _ => .error (.proposalStore "FRESHNESS_PROOF_UNEXPECTED"
      ("proposal " ++ proposal.proposalId ++ " does not require a freshness proof"))
  | some authority, digest =>
    if digest.any nonEmpty then assertFreshProof runtime s proposal authority (digest.getD "") now
    else .error (.proposalStore "FRESHNESS_PROOF_REQUIRED"
      ("proposal " ++ proposal.proposalId ++ " requires a fresh live proof before approval"))

/-- The reads of `recordFreshnessProof`. -/
def prepareFreshness (runtime : StoreRuntime) (s : Store) (proof : FreshnessProof) : Except StoreError Unit := do
  let proposal ← s.requireProposal proof.proposalId
  assertProposalIdentity proposal.toStoredProposal proof.proposalHash proof.proposalVersion
  match proposal.changeSet.freshness with
  | none => .error (.proposalStore "FRESHNESS_NOT_REQUIRED"
      ("proposal " ++ proof.proposalId ++ " has no reviewed freshness authority"))
  | some authority =>
    ensure (proof.dependencySetDigest = runtime.dependencySetDigest authority)
      (.proposalStore "FRESHNESS_PROOF_AUTHORITY_MISMATCH"
        ("freshness proof does not match proposal " ++ proof.proposalId))

def freshnessTransaction (s : Store) (proof : FreshnessProof) (now : Nat) : Except StoreError Store := do
  let recorded : Store := { s with freshnessProofs := proof :: s.freshnessProofs }
  if proof.result = .stale then do
    let current ← recorded.requireProposal proof.proposalId
    if ProposalState.active current.state then pure (recorded.writeState proof.proposalId .conflict now)
    else pure recorded
  else pure recorded

/-! ### Approval and rejection -/

structure ApproveInput where
  proposalId : String
  proposalHash : String
  proposalVersion : Nat
  reason : Option String
  decider : Decider
  freshnessProofDigest : Option String
  now : Nat

/-- The row that a decision inserts. -/
def ApproveInput.approval (input : ApproveInput) : StoredApproval :=
  { proposalId := input.proposalId, proposalVersion := input.proposalVersion, proposalHash := input.proposalHash
    approver := input.decider.actor, status := .approved, reason := input.reason
    freshnessProofDigest := input.freshnessProofDigest, createdAt := input.now }

/-- The reads of `approveProposal`. -/
def prepareApprove (s : Store) (input : ApproveInput) : Except StoreError Unit := do
  let proposal ← s.requireProposal input.proposalId
  assertWritebackAllowed proposal.toStoredProposal "approved"
  assertProposalIdentity proposal.toStoredProposal input.proposalHash input.proposalVersion
  ensure (proposal.state = .pendingReview)
    (.proposalStore "PROPOSAL_NOT_PENDING_REVIEW" ("proposal " ++ input.proposalId ++ " is " ++ proposal.state.text))
  assertOperatorDecision proposal "approve" input.decider

def approveTransaction (runtime : StoreRuntime) (s : Store) (input : ApproveInput) : Except StoreError Store := do
  let current ← s.requireProposal input.proposalId
  ensure (current.state = .pendingReview)
    (.proposalStore "PROPOSAL_NOT_PENDING_REVIEW" ("proposal " ++ input.proposalId ++ " is " ++ current.state.text))
  ensure (∀ approval ∈ s.approvalsOf input.proposalId, approval.approver ≠ input.decider.actor)
    (.proposalStore "APPROVER_ALREADY_COUNTED" ("operator " ++ input.decider.actor ++
      " already recorded a decision for proposal " ++ input.proposalId))
  assertApprovalFreshness runtime s current input.freshnessProofDigest input.now
  let counted : Store := { s with approvals := s.approvals ++ [input.approval] }
  if requiredApprovalCount current.toStoredProposal ≤ (counted.approvers input.proposalId).length then
    pure (counted.writeState input.proposalId .approved input.now)
  else pure counted

inductive LimitKind where
  | count
  | total
  deriving DecidableEq, Repr

inductive LimitScope where
  | tenantPolicy
  | tenantPolicyObject
  deriving DecidableEq, Repr

structure PolicyApprovalLimit where
  kind : LimitKind
  max : Rat
  field : Option Column
  scope : Option LimitScope
  deriving DecidableEq, Repr

/-- A number that `Number.isSafeInteger` accepts. -/
def safeInteger : Scalar → Option Int
  | .num n => if n.den = 1 ∧ n.num.natAbs ≤ 9007199254740991 then some n.num else none
  | _ => none

/-- The values of a field in patches, when all are safe integers. -/
def patchValues (field : Option Column) (patches : List Record) : Option (List Int) :=
  match field.filter nonEmpty with
  | none => none
  | some column => patches.mapM fun patch => (patch.get? column).bind safeInteger

/-- Whether a limit is exceeded by the patches that count toward it, whose values are
    added as numbers of double precision. -/
def PolicyApprovalLimit.exceededBy (limit : PolicyApprovalLimit) (patches : List Record) : Bool :=
  match limit.kind with
  | .count => decide (limit.max < patches.length)
  | .total => match patchValues limit.field patches with
    | none => true
    | some values => decide (limit.max < Doubles.sumNumbers 0 values)

def PolicyApprovalLimit.sameScope (limit : PolicyApprovalLimit) (a b : ProposalRow) : Bool :=
  decide (limit.scope.getD .tenantPolicy = .tenantPolicyObject → a.businessObject = b.businessObject ∧ a.objectId = b.objectId)

/-- The start of `utcDayWindow`, which ends a day later. -/
def dayStart (now : Nat) : Nat := now / 86400000 * 86400000

def inDay (now time : Nat) : Bool := decide (dayStart now ≤ time ∧ time < dayStart now + 86400000)

/-- The proposals that the policy approved on the day of `now`, one for each of
    its approvals. -/
def policyHistory (s : Store) (actor : String) (proposal : ProposalRow) (now : Nat) (limit : PolicyApprovalLimit) :
    List ProposalRow :=
  (s.approvals.filter fun a => decide (a.approver = actor ∧ a.status = .approved) && inDay now a.createdAt).filterMap
    fun a => (s.getProposal a.proposalId).filter fun row =>
      decide (row.tenantId = proposal.tenantId) && limit.sameScope row proposal

structure PolicyInput where
  proposalId : String
  policy : String
  proposalHash : String
  proposalVersion : Nat
  reason : String
  limits : List PolicyApprovalLimit
  now : Nat
  freshnessProofDigest : Option String

def PolicyInput.actor (input : PolicyInput) : String := "policy:" ++ input.policy

def PolicyInput.approval (input : PolicyInput) : StoredApproval :=
  { proposalId := input.proposalId, proposalVersion := input.proposalVersion, proposalHash := input.proposalHash
    approver := input.actor, status := .approved, reason := some input.reason
    freshnessProofDigest := input.freshnessProofDigest, createdAt := input.now }

/-- `approveProposalByPolicy`, all of which is one transaction. A larger quorum
    or an exceeded limit defers to human review. -/
def approveByPolicyTransaction (runtime : StoreRuntime) (s : Store) (input : PolicyInput) : Except StoreError Store := do
  let proposal ← s.requireProposal input.proposalId
  assertWritebackAllowed proposal.toStoredProposal "approved by policy"
  assertProposalIdentity proposal.toStoredProposal input.proposalHash input.proposalVersion
  ensure (proposal.state = .pendingReview)
    (.proposalStore "PROPOSAL_NOT_PENDING_REVIEW" ("proposal " ++ input.proposalId ++ " is " ++ proposal.state.text))
  if requiredApprovalCount proposal.toStoredProposal > 1 then pure s
  else if input.limits.any fun limit =>
      limit.exceededBy ((policyHistory s input.actor proposal input.now limit ++ [proposal]).map (·.changeSet.patch)) then
    pure s
  else do
    assertApprovalFreshness runtime s proposal input.freshnessProofDigest input.now
    let approved := s.writeState input.proposalId .approved input.now
    pure { approved with approvals := approved.approvals ++ [input.approval] }

structure RejectInput where
  proposalId : String
  proposalHash : String
  proposalVersion : Nat
  reason : String
  decider : Decider
  now : Nat

def RejectInput.rejection (input : RejectInput) : StoredApproval :=
  { proposalId := input.proposalId, proposalVersion := input.proposalVersion, proposalHash := input.proposalHash
    approver := input.decider.actor, status := .rejected, reason := some input.reason, freshnessProofDigest := none
    createdAt := input.now }

/-- The reads of `rejectProposal`, which alone look at the state. -/
def prepareReject (s : Store) (input : RejectInput) : Except StoreError Unit := do
  let proposal ← s.requireProposal input.proposalId
  assertProposalIdentity proposal.toStoredProposal input.proposalHash input.proposalVersion
  ensure (proposal.state = .pendingReview ∨ proposal.state = .approved)
    (.proposalStore "PROPOSAL_NOT_REJECTABLE" ("proposal " ++ input.proposalId ++ " is " ++ proposal.state.text))
  assertOperatorDecision proposal "reject" input.decider

def rejectTransaction (s : Store) (input : RejectInput) : Store :=
  let rejected := s.writeState input.proposalId .rejected input.now
  { rejected with approvals := rejected.approvals ++ [input.rejection] }

/-- The reads of `markPendingWorker`; its transaction is `setState`. -/
def prepareMarkPendingWorker (s : Store) (proposalId proposalHash : String) (proposalVersion : Nat) :
    Except StoreError Unit := do
  let proposal ← s.requireProposal proposalId
  assertWritebackAllowed proposal.toStoredProposal "moved to pending worker"
  assertProposalIdentity proposal.toStoredProposal proposalHash proposalVersion
  ensure (proposal.state = .approved)
    (.proposalStore "PROPOSAL_NOT_APPROVED" ("proposal " ++ proposalId ++ " is " ++ proposal.state.text))

/-! ### Jobs, receipts and the governance of the cloud -/

/-- The reads of `createWritebackJobFromProposal`: the job, and the state of the
    proposal it was built from. -/
def prepareCreateJob (runtime : StoreRuntime) (s : Store) (proposalId : String) (attempt : Nat) :
    Except StoreError ProposalState := do
  let proposal ← s.requireProposal proposalId
  let _ ← createWritebackJobFromProposal runtime.platform proposal.toStoredProposal attempt
  pure proposal.state

def createJobTransaction (s : Store) (proposalId : String) (read : ProposalState) (now : Nat) : Store :=
  if read = .approved then s.writeState proposalId .pendingWorker now else s

def stateFromReceipt : WritebackStatus → ProposalState
  | .applied | .alreadyApplied => .applied
  | .conflict => .conflict
  | .canceled => .canceled
  | .reconciliationRequired => .reconciliationRequired
  | .failed => .failed

/-- The reads of `recordExecutionReceipt`, which do not look at the state. -/
def prepareReceipt (runtime : StoreRuntime) (s : Store) (input : ExecutionReceipt) :
    Except StoreError (ExecutionReceipt × Bool) := do
  let receipt ← (parseExecutionReceipt runtime.platform input).mapError .schema
  let proposal ← s.requireProposal receipt.header.proposalId
  assertWritebackAllowed proposal.toStoredProposal "recorded with an execution receipt"
  pure (receipt, proposal.sourceDatabaseMutated)

def receiptRow (receipt : ReceiptHeader) : StoredWritebackReceipt :=
  { writebackJobId := receipt.writebackJobId, proposalId := receipt.proposalId, runnerId := receipt.runnerId
    status := receipt.status, idempotencyKey := receipt.idempotencyKey
    sourceDatabaseMutated := receipt.sourceDatabaseMutated }

/-- `INSERT OR IGNORE INTO writeback_receipts`. -/
def insertReceipt (receipts : List StoredWritebackReceipt) (row : StoredWritebackReceipt) : List StoredWritebackReceipt :=
  if receipts.any fun r => decide (r.writebackJobId = row.writebackJobId ∧ r.idempotencyKey = row.idempotencyKey) then
    receipts
  else receipts ++ [row]

/-- `recordExecutionReceiptRows`. `mutated` is what the row of the proposal said
    when it was read. -/
def recordExecutionReceiptRows (s : Store) (receipt : ReceiptHeader) (mutated : Bool) (now : Nat) : Store :=
  let recorded : Store := { s with receipts := insertReceipt s.receipts (receiptRow receipt) }
  recorded.updateProposal receipt.proposalId fun row =>
    { row with state := stateFromReceipt receipt.status
               sourceDatabaseMutated := receipt.sourceDatabaseMutated || mutated, updatedAt := now }

def localStateFromCloudGovernance (state : String) : Option ProposalState :=
  if state = "applied" ∨ state = "already_applied" then some .applied
  else if state = "rejected" then some .rejected
  else if state = "canceled" then some .canceled
  else if state = "conflict" then some .conflict
  else if state = "failed" then some .failed
  else if state = "indeterminate" ∨ state = "reconciliation_required" then some .reconciliationRequired
  else none

/-- The UPDATE of `recordCloudGovernanceEvent`, which selects its row by the
    state too. -/
def recordCloudGovernanceEvent (s : Store) (proposalId state : String) (now : Nat) : Except StoreError Store := do
  let _ ← s.requireProposal proposalId
  match localStateFromCloudGovernance state with
  | none => pure s
  | some localState => pure (s.updateProposal proposalId fun row =>
      if ProposalState.active row.state then
        { row with state := localState
                   sourceDatabaseMutated := decide (localState = .applied) || row.sourceDatabaseMutated
                   updatedAt := now }
      else row)

end SynapsorRunner.ProposalStore
