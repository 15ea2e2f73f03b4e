import SynapsorRunner.ProposalStore

/-!
The worker queue of the SQLite proposal store. A worker claims one due item under
a lease, and every later operation on the item needs that very lease
(`assertWorkerLease`). Only a claim, a cancellation and the requeueing of a dead
letter write the state of the proposal: the claim looks at it in its transaction,
the other two use what they read before.
-/
namespace SynapsorRunner.ProposalStore
open SynapsorRunner.Protocol SynapsorRunner.Proposals SynapsorRunner.Intents SynapsorRunner.WorkerControl

namespace Store

def workerQueueItem (s : Store) (proposalId : String) : Option WorkerQueueItem := s.workerQueue.get? proposalId

def requireWorkerQueueItem (s : Store) (proposalId : String) : Except StoreError WorkerQueueItem :=
  match s.workerQueueItem proposalId with
  | some item => .ok item
  | none => .error (.proposalStore "WORKER_ITEM_NOT_FOUND" ("worker queue item not found for " ++ proposalId))

/-- UPDATE of the row of an item. -/
def updateItem (s : Store) (proposalId : String) (f : WorkerQueueItem → WorkerQueueItem) : Store :=
  { s with workerQueue := s.workerQueue.modify proposalId f }

@[simp] theorem updateItem_proposals (s : Store) (proposalId : String) (f : WorkerQueueItem → WorkerQueueItem) :
    (s.updateItem proposalId f).proposals = s.proposals := rfl
@[simp] theorem updateItem_approvals (s : Store) (proposalId : String) (f : WorkerQueueItem → WorkerQueueItem) :
    (s.updateItem proposalId f).approvals = s.approvals := rfl
@[simp] theorem updateItem_queue_keys (s : Store) (proposalId : String) (f : WorkerQueueItem → WorkerQueueItem) :
    (s.updateItem proposalId f).workerQueue.keys = s.workerQueue.keys := KeyedMap.keys_modify _ _ _

/-- The items of the queue beside their proposals. -/
def queuedProposals (s : Store) : List (String × WorkerQueueItem × ProposalRow) :=
  s.workerQueue.entries.filterMap fun (id, item) => (s.getProposal id).map fun row => (id, item, row)

end Store

/-! ### Enqueueing -/

structure EnqueueInput where
  proposalId : String
  executionMode : Option WorkerExecutionMode
  contractDigest : Option String
  maxAttempts : Option Nat
  queueLimit : Option Nat
  now : Nat

def clampedMaxAttempts (maxAttempts : Option Nat) : Nat := max 1 (min (maxAttempts.getD 5) 100)

/-- A new queue item. -/
def newQueueItem (mode : WorkerExecutionMode) (contractDigest : Option String)
    (maxAttempts now : Nat) : WorkerQueueItem :=
  { status := .queued, executionMode := mode, contractDigest, attempts := 0, maxAttempts
    nextAttemptAt := now, leaseOwner := none, leaseId := none, leaseExpiresAt := none, lastErrorCode := none
    terminalOutcome := none, createdAt := now, updatedAt := now }

/-- The reads of `enqueueWorkerProposal`. -/
def prepareEnqueue (s : Store) (input : EnqueueInput) : Except StoreError ProposalRow := do
  let proposal ← s.requireProposal input.proposalId
  ensure (proposal.state = .approved ∨ proposal.state = .pendingWorker)
    (.proposalStore "WORKER_PROPOSAL_NOT_APPROVED" ("proposal " ++ proposal.proposalId ++ " is " ++ proposal.state.text ++
      ", not approved for worker execution"))
  ensure (input.executionMode = some .supervisedWorker → input.contractDigest.any nonEmpty)
    (.proposalStore "SUPERVISED_WORKER_DIGEST_REQUIRED"
      ("supervised worker queue item " ++ proposal.proposalId ++ " requires an exact contract digest"))
  ensure (∀ digest ∈ input.contractDigest, nonEmpty digest → contractDigestText digest)
    (.proposalStore "WORKER_CONTRACT_DIGEST_INVALID"
      "worker queue contract digest must be a full lowercase sha256 digest")
  pure proposal

/-- The statuses that count against the limit of a queue. -/
def WorkerQueueStatus.active : WorkerQueueStatus → Bool
  | .queued | .leased | .retryWait | .blocked | .reconciliationRequired => true
  | _ => false

def enqueueTransaction (s : Store) (input : EnqueueInput) (proposal : ProposalRow) : Except StoreError Store :=
  let mode := input.executionMode.getD .legacy
  match s.workerQueueItem proposal.proposalId with
  | some existing => do
    ensure (existing.executionMode = mode ∧ existing.contractDigest = input.contractDigest)
      (.proposalStore "WORKER_QUEUE_AUTHORITY_MISMATCH" ("worker queue item " ++ proposal.proposalId ++
        " already exists under different execution authority"))
    pure s
  | none => do
    let queueLimit := max 1 (min (input.queueLimit.getD 10000) 100000)
    let active := s.queuedProposals.filter fun (_, item, row) =>
      decide (item.executionMode = mode ∧ (∀ digest ∈ input.contractDigest, item.contractDigest = some digest) ∧
        row.action = proposal.action) && item.status.active
    ensure (active.length < queueLimit)
      (.proposalStore "WORKER_QUEUE_LIMIT_EXCEEDED"
        ("worker queue limit " ++ toString queueLimit ++ " reached for " ++ proposal.action))
    let item := newQueueItem mode input.contractDigest (clampedMaxAttempts input.maxAttempts) input.now
    pure { s with workerQueue := s.workerQueue.set proposal.proposalId item }

/-- `slice(0, limit ?? Number.POSITIVE_INFINITY)`. -/
def limited {α : Type} (limit : Option Nat) (l : List α) : List α :=
  match limit with
  | some count => l.take count
  | none => l

theorem mem_of_mem_limited {α : Type} {limit : Option Nat} {l : List α} {a : α} (member : a ∈ limited limit l) : a ∈ l := by
  cases limit with
  | none => exact member
  | some count => exact List.mem_of_mem_take member

/-- The proposals that `enqueueApprovedForWorker` reads, by their creation. -/
def approvedForWorker (s : Store) (capability tenant : Option String) (limit : Option Nat) : List ProposalRow :=
  let listed (state : ProposalState) : List ProposalRow := s.proposals.values.filter fun row =>
    decide (row.state = state ∧ (∀ action ∈ capability, row.action = action) ∧ ∀ id ∈ tenant, row.tenantId = id)
  limited limit (List.insertionSort (fun a b => a.createdAt ≤ b.createdAt) (listed .approved ++ listed .pendingWorker))

/-- `INSERT OR IGNORE INTO worker_queue`. -/
def insertQueueItem (maxAttempts : Option Nat) (now : Nat) (queue : KeyedMap String WorkerQueueItem) (proposalId : String) :
    KeyedMap String WorkerQueueItem :=
  if queue.contains proposalId then queue
  else queue.set proposalId (newQueueItem .legacy none (clampedMaxAttempts maxAttempts) now)

def enqueueApprovedTransaction (s : Store) (proposalIds : List String) (maxAttempts : Option Nat) (now : Nat) : Store :=
  { s with workerQueue := proposalIds.foldl (insertQueueItem maxAttempts now) s.workerQueue }

/-! ### Claims -/

structure RateLimit where
  executions : Nat
  windowSeconds : Nat

structure PolicyExecution where
  policy : String
  limits : List PolicyApprovalLimit

structure ClaimInput where
  workerId : String
  leaseSeconds : Option Nat
  executionMode : Option WorkerExecutionMode
  capability : Option String
  tenant : Option String
  contractDigest : Option String
  maxConcurrent : Option Nat
  rateLimit : Option RateLimit
  proposalTtlSeconds : Option Nat
  policyExecution : Option PolicyExecution
  now : Nat

/-- `(? IS NULL OR column = ?)` for each filter of a claim. -/
def ClaimInput.selects (input : ClaimInput) : WorkerQueueItem × ProposalRow → Bool := fun (item, row) =>
  decide ((∀ mode ∈ input.executionMode, item.executionMode = mode) ∧ (∀ action ∈ input.capability, row.action = action) ∧
    (∀ id ∈ input.tenant, row.tenantId = id) ∧ ∀ digest ∈ input.contractDigest, item.contractDigest = some digest)

def ClaimInput.atCapacity (input : ClaimInput) (s : Store) : Bool :=
  input.maxConcurrent.any fun concurrent =>
    decide (max 1 (min concurrent 32) ≤ (s.queuedProposals.filter fun (_, item, row) => input.selects (item, row) &&
      decide (item.status = .leased) && item.leaseExpiresAt.any fun expires => decide (input.now < expires)).length)

def ClaimInput.rateLimited (input : ClaimInput) (s : Store) : Bool :=
  input.rateLimit.any fun rate =>
    let windowStart := input.now - max 1 (min rate.windowSeconds 86400) * 1000
    decide (max 1 (min rate.executions 100000) ≤ (s.queuedProposals.filter fun (_, item, row) => input.selects (item, row) &&
      decide (item.status = .completed ∧ windowStart ≤ item.updatedAt)).length)

/-- The states of the proposals that a claim takes. -/
def ProposalState.claimable : ProposalState → Bool
  | .approved | .pendingWorker | .failed => true
  | _ => false

def WorkerQueueItem.due (item : WorkerQueueItem) (now : Nat) : Bool :=
  (decide (item.status = .queued ∨ item.status = .retryWait) && decide (item.nextAttemptAt ≤ now)) ||
    (decide (item.status = .leased) && item.leaseExpiresAt.any fun expires => decide (expires ≤ now))

/-- `ORDER BY q.next_attempt_at ASC, q.created_at ASC`. -/
def dueBefore (a b : String × WorkerQueueItem × ProposalRow) : Prop :=
  a.2.1.nextAttemptAt < b.2.1.nextAttemptAt ∨
    (a.2.1.nextAttemptAt = b.2.1.nextAttemptAt ∧ a.2.1.createdAt ≤ b.2.1.createdAt)

instance : DecidableRel dueBefore := fun _ _ => inferInstanceAs (Decidable (_ ∨ _))

/-- The item that a claim selects, with its proposal. -/
def ClaimInput.candidate (input : ClaimInput) (s : Store) : Option (String × WorkerQueueItem × ProposalRow) :=
  (List.insertionSort dueBefore (s.queuedProposals.filter fun (_, item, row) =>
    item.due input.now && ProposalState.claimable row.state && input.selects (item, row))).head?

theorem candidate_mem {input : ClaimInput} {s : Store} {id : String} {item : WorkerQueueItem} {row : ProposalRow}
    (found : input.candidate s = some (id, item, row)) :
    id ∈ s.workerQueue.keys ∧ s.getProposal id = some row := by
  have sorted := List.mem_of_mem_head? found
  rw [List.mem_insertionSort, List.mem_filter] at sorted
  obtain ⟨⟨id', item'⟩, entry, paired⟩ := List.mem_filterMap.mp sorted.1
  obtain ⟨row', found', same⟩ := Option.map_eq_some_iff.mp paired
  cases same
  exact ⟨List.mem_map.mpr ⟨_, entry, rfl⟩, found'⟩

/-- The work that counts toward the execution limits of a policy on the day. -/
def executing (s : Store) (actor : String) (proposal : ProposalRow) (now : Nat) (row : ProposalRow) : Bool :=
  decide (row.tenantId = proposal.tenantId) &&
  (s.approvals.any fun a => decide (a.proposalId = row.proposalId ∧ a.approver = actor ∧ a.status = .approved)) &&
  (s.workerQueueItem row.proposalId).any fun item =>
    (decide (item.status = .leased) && item.leaseExpiresAt.any fun expires => decide (now < expires)) ||
    (decide (item.status = .completed ∧
      (item.terminalOutcome = some "applied" ∨ item.terminalOutcome = some "already_applied")) && inDay now item.updatedAt) ||
    (decide (item.status = .reconciliationRequired) && inDay now item.updatedAt) ||
    (decide (row.state = .applied) && inDay now row.updatedAt)

/-- Whether `workerPolicyExecutionLimitTrips` finds a limit exceeded. A proposal
    that the policy has not approved has no trips. -/
def workerPolicyLimitTrips (s : Store) (proposal : ProposalRow) (policy : PolicyExecution) (now : Nat) : Bool :=
  let actor := "policy:" ++ policy.policy
  (s.approvals.any fun a => decide (a.proposalId = proposal.proposalId ∧ a.approver = actor ∧ a.status = .approved ∧
    a.proposalHash = proposal.proposalHash ∧ a.proposalVersion = proposal.proposalVersion)) &&
  policy.limits.any fun limit =>
    limit.exceededBy ((s.proposals.values.filter fun row =>
      (decide (row.proposalId = proposal.proposalId) || executing s actor proposal now row) &&
        limit.sameScope row proposal).map (·.changeSet.patch))

/-- `blockQueuedWorkerItem`. -/
def blockQueuedWorkerItem (s : Store) (proposalId errorCode : String) (now : Nat) : Store :=
  s.updateItem proposalId fun item =>
    { item with status := .blocked, leaseOwner := none, leaseId := none, leaseExpiresAt := none
                lastErrorCode := some errorCode, terminalOutcome := none, updatedAt := now }

def ClaimInput.expired (input : ClaimInput) (proposal : ProposalRow) : Bool :=
  input.proposalTtlSeconds.any fun ttl =>
    decide (proposal.createdAt + max 60 (min ttl 2592000) * 1000 ≤ input.now)

def clampedLease (leaseSeconds : Option Nat) : Nat := max 15 (min (leaseSeconds.getD 60) 3600)

/-- The claim of a selected item. -/
def leaseItem (runtime : StoreRuntime) (s : Store) (input : ClaimInput) (proposalId : String) (proposal : ProposalRow) :
    Store :=
  let leased := s.updateItem proposalId fun item =>
    { item with status := .leased, attempts := item.attempts + 1, leaseOwner := some input.workerId
                leaseId := some (runtime.workerLeaseId proposalId input.workerId (item.attempts + 1) input.now)
                leaseExpiresAt := some (input.now + clampedLease input.leaseSeconds * 1000)
                lastErrorCode := none, terminalOutcome := none, updatedAt := input.now }
  if proposal.state = .failed then leased.writeState proposalId .pendingWorker input.now else leased

/-- `claimWorkerItem`, all of which is one transaction. -/
def claimTransaction (runtime : StoreRuntime) (s : Store) (input : ClaimInput) : Store :=
  if input.atCapacity s || input.rateLimited s then s
  else match input.candidate s with
    | none => s
    | some (proposalId, _, proposal) =>
      if input.expired proposal then
        blockQueuedWorkerItem s proposalId "SUPERVISED_WORKER_PROPOSAL_EXPIRED" input.now
      else if input.policyExecution.any fun policy => workerPolicyLimitTrips s proposal policy input.now then
        blockQueuedWorkerItem s proposalId "SUPERVISED_WORKER_POLICY_LIMIT_EXCEEDED" input.now
      else leaseItem runtime s input proposalId proposal

/-! ### Under a lease -/

structure Lease where
  proposalId : String
  workerId : String
  leaseId : Option String
  deriving DecidableEq, Repr

def assertWorkerLease (s : Store) (lease : Lease) : Except StoreError WorkerQueueItem := do
  ensure (lease.leaseId.any nonEmpty)
    (.proposalStore "WORKER_LEASE_ID_REQUIRED"
      ("worker " ++ lease.workerId ++ " must present the exact lease id for " ++ lease.proposalId))
  let item ← s.requireWorkerQueueItem lease.proposalId
  ensure (item.status = .leased ∧ item.leaseOwner = some lease.workerId ∧ item.leaseId = lease.leaseId)
    (.proposalStore "WORKER_LEASE_MISMATCH"
      ("worker " ++ lease.workerId ++ " does not hold the lease for " ++ lease.proposalId))
  pure item

def assertActiveWorkerLease (s : Store) (lease : Lease) (now : Nat) : Except StoreError WorkerQueueItem := do
  let item ← assertWorkerLease s lease
  ensure (item.leaseExpiresAt.any fun expires => decide (now < expires))
    (.proposalStore "WORKER_LEASE_EXPIRED"
      ("worker lease " ++ lease.leaseId.getD "" ++ " for " ++ lease.proposalId ++ " has expired"))
  pure item

/-- What a worker does with the item it holds. -/
inductive LeaseAction where
  | renew (leaseSeconds : Option Nat)
  | complete (outcome : String)
  | retry (errorCode : String) (retryAt : Nat)
  | deadLetter (errorCode : String)
  | block (errorCode : String)
  | requireReconciliation (errorCode : String)

/-- An item that its worker has given up. -/
def released (item : WorkerQueueItem) (status : WorkerQueueStatus) (errorCode terminalOutcome : Option String) (now : Nat) :
    WorkerQueueItem :=
  { item with status, leaseOwner := none, leaseId := none, leaseExpiresAt := none, lastErrorCode := errorCode
              terminalOutcome, updatedAt := now }

/-- The item after an action of its worker: `renewWorkerLease`, `completeWorkerItem`,
    `retryWorkerItem`, `deadLetterWorkerItem`, `blockWorkerItem` and
    `requireWorkerReconciliation`. -/
def LeaseAction.applyTo (action : LeaseAction) (now : Nat) (item : WorkerQueueItem) : WorkerQueueItem :=
  match action with
  | renew leaseSeconds => { item with leaseExpiresAt := some (now + clampedLease leaseSeconds * 1000), updatedAt := now }
  | complete outcome => released item .completed none (some outcome) now
  | retry errorCode retryAt =>
    { released item (if item.maxAttempts ≤ item.attempts then .deadLetter else .retryWait) (some errorCode) none now with
      nextAttemptAt := retryAt }
  | deadLetter errorCode => released item .deadLetter (some errorCode) (some "dead_letter") now
  | block errorCode => released item .blocked (some errorCode) (some "blocked") now
  | requireReconciliation errorCode =>
    released item .reconciliationRequired (some errorCode) (some "reconciliation_required") now

/-- The item as an action asks for it: a renewal needs a lease that has not
    expired. -/
def LeaseAction.heldItem (action : LeaseAction) (s : Store) (lease : Lease) (now : Nat) :
    Except StoreError WorkerQueueItem :=
  match action with
  | renew _ => assertActiveWorkerLease s lease now
  | _ => assertWorkerLease s lease

def leaseTransaction (s : Store) (lease : Lease) (action : LeaseAction) (now : Nat) : Except StoreError Store := do
  let _ ← action.heldItem s lease now
  pure (s.updateItem lease.proposalId (action.applyTo now))

/-! ### Cancellation and dead letters -/

structure QueueDecision where
  proposalId : String
  decider : Decider
  now : Nat

/-- The reads of an operator's decision on a queue item. -/
def prepareQueueDecision (s : Store) (input : QueueDecision) (action : String) : Except StoreError ProposalState := do
  let proposal ← s.requireProposal input.proposalId
  assertOperatorDecision proposal action input.decider
  pure proposal.state

/-- `cancelWorkerItem` after its reads: the state it acts on is the one it has
    read. -/
def cancelTransaction (s : Store) (input : QueueDecision) (read : ProposalState) : Except StoreError Store := do
  let item ← s.requireWorkerQueueItem input.proposalId
  ensure (item.status = .queued ∨ item.status = .retryWait)
    (.proposalStore "WORKER_ITEM_NOT_CANCELLABLE" ("worker queue item " ++ input.proposalId ++ " is " ++ item.status.text ++
      ", not safely cancellable before lease"))
  let cancelled := s.updateItem input.proposalId fun item =>
    { item with status := .cancelled, leaseOwner := none, leaseId := none, leaseExpiresAt := none
                terminalOutcome := some "cancelled", updatedAt := input.now }
  if read = .approved ∨ read = .pendingWorker then pure (cancelled.writeState input.proposalId .canceled input.now)
  else pure cancelled

/-- `requeueDeadLetter` after its reads. -/
def requeueTransaction (s : Store) (input : QueueDecision) (retryBudget : Nat) (read : ProposalState) :
    Except StoreError Store := do
  let item ← s.requireWorkerQueueItem input.proposalId
  ensure (item.status = .deadLetter)
    (.proposalStore "WORKER_ITEM_NOT_DEAD_LETTER" ("worker queue item " ++ input.proposalId ++ " is " ++ item.status.text))
  ensure (∀ receipt ∈ s.receiptsOf input.proposalId,
      ¬ (receipt.sourceDatabaseMutated ∨ receipt.status = .applied ∨ receipt.status = .alreadyApplied))
    (.proposalStore "DEAD_LETTER_EFFECT_ALREADY_RECORDED" ("proposal " ++ input.proposalId ++
      " has a receipt proving the database effect already completed"))
  let requeued := s.updateItem input.proposalId fun item =>
    { released item .queued none none input.now with
      attempts := 0, maxAttempts := max 1 (min retryBudget 100), nextAttemptAt := input.now }
  if read = .failed then pure (requeued.writeState input.proposalId .approved input.now) else pure requeued

/-- `discardDeadLetter` after its reads. -/
def discardTransaction (s : Store) (input : QueueDecision) : Except StoreError Store := do
  let item ← s.requireWorkerQueueItem input.proposalId
  ensure (item.status = .deadLetter)
    (.proposalStore "WORKER_ITEM_NOT_DEAD_LETTER" ("worker queue item " ++ input.proposalId ++ " is " ++ item.status.text))
  pure (s.updateItem input.proposalId fun item =>
    { item with status := .discarded, leaseOwner := none, leaseId := none, leaseExpiresAt := none
                terminalOutcome := some "discarded", updatedAt := input.now })

/-! ### Reconciliation -/

/-- The reads of `reconcileWritebackIntent`: the reconciled intent, and what the
    proposal says of its source. -/
def prepareReconcile (runtime : StoreRuntime) (s : Store) (input : ReconcileInput) :
    Except StoreError (StoredWritebackIntent × Bool) := do
  let intent ← s.ledger.requireWritebackIntent input.intentId
  let proposal ← s.requireProposal intent.proposalId
  let reconciled ← reconcileRow runtime.platform input intent
  pure (reconciled, proposal.sourceDatabaseMutated)

/-- The row of an intent that `reconcileWritebackIntent` updates. -/
def settledAs (reconciled intent : StoredWritebackIntent) : StoredWritebackIntent :=
  { intent with status := reconciled.status, result := reconciled.result
                reconciliationReason := reconciled.reconciliationReason }

theorem settledAs_identity (reconciled intent : StoredWritebackIntent) :
    (settledAs reconciled intent).identity = intent.identity := rfl

/-- The queue item of a reconciled intent. -/
def reconciledItem (status : WritebackStatus) (now : Nat) (item : WorkerQueueItem) : WorkerQueueItem :=
  if item.status = .reconciliationRequired then
    if status = .failed then released item .deadLetter (some "RECONCILED_FAILED") (some "dead_letter") now
    else released item .completed none (some status.text) now
  else item

def reconcileTransaction (s : Store) (input : ReconcileInput) (reconciled : StoredWritebackIntent) (mutated : Bool)
    (now : Nat) : Except StoreError Store := do
  let intent ← s.ledger.requireWritebackIntent input.intentId
  ensure (intent.status = .applying ∨ intent.status = .reconciliationRequired)
    (.proposalStore "WRITEBACK_INTENT_RECONCILIATION_CONFLICT"
      ("writeback intent " ++ intent.intentId ++ " changed during reconciliation"))
  let intents := s.intents.update input.intentId (settledAs reconciled) (settledAs_identity reconciled)
  let recorded := recordExecutionReceiptRows { s with intents } input.receipt.header mutated now
  pure (recorded.updateItem reconciled.proposalId (reconciledItem input.receipt.status now))

end SynapsorRunner.ProposalStore
