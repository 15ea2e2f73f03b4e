import SynapsorRunner.WorkerQueue

/-!
The operations of the SQLite proposal store as what they read and check first
(`prepare`) and the transaction that they then run (`commit`). Seen by the review,
a transaction keeps everything, stores a new proposal, inserts an approval, or
writes the state of one proposal; of the state it replaces it either has looked at
it or not (`commit_step`).
-/
namespace SynapsorRunner.ProposalStore
open SynapsorRunner.Protocol SynapsorRunner.Proposals SynapsorRunner.Intents

inductive StoreOperation where
  | createProposal (created : ProposalRow)
  | recordFreshnessProof (proof : FreshnessProof) (now : Nat)
  | approveProposal (input : ApproveInput)
  | approveProposalByPolicy (input : PolicyInput)
  | rejectProposal (input : RejectInput)
  | markPendingWorker (proposalId proposalHash : String) (proposalVersion now : Nat)
  | createWritebackJob (proposalId : String) (attempt now : Nat)
  | recordExecutionReceipt (receipt : ExecutionReceipt) (now : Nat)
  | recordCloudGovernanceEvent (proposalId state : String) (now : Nat)
  | enqueueWorkerProposal (input : EnqueueInput)
  | enqueueApprovedForWorker (capability tenant : Option String) (limit maxAttempts : Option Nat) (now : Nat)
  | claimWorkerItem (input : ClaimInput)
  | onLease (lease : Lease) (action : LeaseAction) (now : Nat)
  | cancelWorkerItem (input : QueueDecision)
  | requeueDeadLetter (input : QueueDecision) (retryBudget : Nat)
  | discardDeadLetter (input : QueueDecision)
  | claimWritebackIntent (job : WritebackJob) (runnerId : String)
  | markWritebackIntentApplying (intentId runnerId : String)
  | completeWritebackIntent (intentId : String) (result : WritebackResult)
  | requireWritebackReconciliation (intentId reason : String)
  | reconcileWritebackIntent (input : ReconcileInput) (now : Nat)

/-- A transaction, with what its operation has read before it. -/
inductive Transaction where
  | nothing
  | create (row : ProposalRow)
  | freshness (proof : FreshnessProof) (now : Nat)
  | approve (input : ApproveInput)
  | approveByPolicy (input : PolicyInput)
  | reject (input : RejectInput)
  | setPendingWorker (proposalId : String) (now : Nat)
  | createJob (proposalId : String) (read : ProposalState) (now : Nat)
  | receipt (receipt : ReceiptHeader) (mutated : Bool) (now : Nat)
  | cloudGovernance (proposalId state : String) (now : Nat)
  | enqueue (input : EnqueueInput) (proposal : ProposalRow)
  | enqueueApproved (proposalIds : List String) (maxAttempts : Option Nat) (now : Nat)
  | claim (input : ClaimInput)
  | onLease (lease : Lease) (action : LeaseAction) (now : Nat)
  | cancel (input : QueueDecision) (read : ProposalState)
  | requeue (input : QueueDecision) (retryBudget : Nat) (read : ProposalState)
  | discard (input : QueueDecision)
  | claimIntent (job : WritebackJob) (runnerId : String)
  | markApplying (intentId runnerId : String)
  | completeIntent (intentId : String) (result : WritebackResult)
  | requireReconciliation (intentId reason : String)
  | reconcile (input : ReconcileInput) (reconciled : StoredWritebackIntent) (mutated : Bool) (now : Nat)

/-- What an operation reads and checks, up to its transaction. -/
def prepare (runtime : StoreRuntime) (s : Store) : StoreOperation → Except StoreError Transaction
  | .createProposal created => do
    match ← prepareCreate s created with
    | none => pure .nothing
    | some row => pure (.create row)
  | .recordFreshnessProof proof now => do
    prepareFreshness runtime s proof
    pure (.freshness proof now)
  | .approveProposal input => do
    prepareApprove s input
    pure (.approve input)
  | .approveProposalByPolicy input => pure (.approveByPolicy input)
  | .rejectProposal input => do
    prepareReject s input
    pure (.reject input)
  | .markPendingWorker proposalId proposalHash proposalVersion now => do
    prepareMarkPendingWorker s proposalId proposalHash proposalVersion
    pure (.setPendingWorker proposalId now)
  | .createWritebackJob proposalId attempt now => do
    let read ← prepareCreateJob runtime s proposalId attempt
    pure (.createJob proposalId read now)
  | .recordExecutionReceipt input now => do
    let (receipt, mutated) ← prepareReceipt runtime s input
    pure (.receipt receipt.header mutated now)
  | .recordCloudGovernanceEvent proposalId state now => pure (.cloudGovernance proposalId state now)
  | .enqueueWorkerProposal input => do
    let proposal ← prepareEnqueue s input
    pure (.enqueue input proposal)
  | .enqueueApprovedForWorker capability tenant limit maxAttempts now =>
    pure (.enqueueApproved ((approvedForWorker s capability tenant limit).map (·.proposalId)) maxAttempts now)
  | .claimWorkerItem input => pure (.claim input)
  | .onLease lease action now => pure (.onLease lease action now)
  | .cancelWorkerItem input => do
    let read ← prepareQueueDecision s input "worker_cancel"
    pure (.cancel input read)
  | .requeueDeadLetter input retryBudget => do
    let read ← prepareQueueDecision s input "worker_requeue"
    pure (.requeue input retryBudget read)
  | .discardDeadLetter input => do
    let _ ← prepareQueueDecision s input "worker_discard"
    pure (.discard input)
  | .claimWritebackIntent job runnerId => pure (.claimIntent job runnerId)
  | .markWritebackIntentApplying intentId runnerId => pure (.markApplying intentId runnerId)
  | .completeWritebackIntent intentId result => pure (.completeIntent intentId result)
  | .requireWritebackReconciliation intentId reason => pure (.requireReconciliation intentId reason)
  | .reconcileWritebackIntent input now => do
    let (reconciled, mutated) ← prepareReconcile runtime s input
    pure (.reconcile input reconciled mutated now)

/-- The store with the intents of its ledger. -/
def Store.withIntents (s : Store) (ledger : SqliteLedger) : Store := { s with intents := ledger.intents }

/-- What a transaction leaves, unless it throws. -/
def commit (runtime : StoreRuntime) (s : Store) : Transaction → Except StoreError Store
  | .nothing => .ok s
  | .create row => createTransaction s row
  | .freshness proof now => freshnessTransaction s proof now
  | .approve input => approveTransaction runtime s input
  | .approveByPolicy input => approveByPolicyTransaction runtime s input
  | .reject input => .ok (rejectTransaction s input)
  | .setPendingWorker proposalId now => .ok (s.writeState proposalId .pendingWorker now)
  | .createJob proposalId read now => .ok (createJobTransaction s proposalId read now)
  | .receipt receipt mutated now => .ok (recordExecutionReceiptRows s receipt mutated now)
  | .cloudGovernance proposalId state now => recordCloudGovernanceEvent s proposalId state now
  | .enqueue input proposal => enqueueTransaction s input proposal
  | .enqueueApproved proposalIds maxAttempts now => .ok (enqueueApprovedTransaction s proposalIds maxAttempts now)
  | .claim input => .ok (claimTransaction runtime s input)
  | .onLease lease action now => leaseTransaction s lease action now
  | .cancel input read => cancelTransaction s input read
  | .requeue input retryBudget read => requeueTransaction s input retryBudget read
  | .discard input => discardTransaction s input
  | .claimIntent job runnerId => do
    let claimed ← s.ledger.claimWritebackIntent job runnerId
    pure (s.withIntents claimed.2)
  | .markApplying intentId runnerId => do
    let ledger ← s.ledger.markWritebackIntentApplying intentId runnerId
    pure (s.withIntents ledger)
  | .completeIntent intentId result => do
    let ledger ← SqliteLedger.completeWritebackIntent runtime.platform s.ledger intentId result
    pure (s.withIntents ledger)
  | .requireReconciliation intentId reason => do
    let ledger ← s.ledger.requireWritebackReconciliation intentId reason
    pure (s.withIntents ledger)
  | .reconcile input reconciled mutated now => reconcileTransaction s input reconciled mutated now

/-! ### What the review sees -/

/-- A proposal and the status that its change set came with. -/
structure Reviewed where
  proposal : StoredProposal
  approvalStatus : ReviewStatus
  deriving DecidableEq

def ProposalRow.reviewed (row : ProposalRow) : Reviewed := ⟨row.toStoredProposal, row.approvalStatus⟩

def Reviewed.state (v : Reviewed) : ProposalState := v.proposal.state

def Reviewed.withState (v : Reviewed) (state : ProposalState) : Reviewed :=
  { v with proposal := { v.proposal with state } }

@[simp] theorem withState_state (v : Reviewed) (state : ProposalState) : (v.withState state).state = state := rfl
@[simp] theorem withState_approvalStatus (v : Reviewed) (state : ProposalState) :
    (v.withState state).approvalStatus = v.approvalStatus := rfl
@[simp] theorem withState_proposalId (v : Reviewed) (state : ProposalState) :
    (v.withState state).proposal.proposalId = v.proposal.proposalId := rfl
@[simp] theorem withState_proposalHash (v : Reviewed) (state : ProposalState) :
    (v.withState state).proposal.proposalHash = v.proposal.proposalHash := rfl
@[simp] theorem withState_proposalVersion (v : Reviewed) (state : ProposalState) :
    (v.withState state).proposal.proposalVersion = v.proposal.proposalVersion := rfl
@[simp] theorem withState_required (v : Reviewed) (state : ProposalState) :
    requiredApprovalCount (v.withState state).proposal = requiredApprovalCount v.proposal := rfl

theorem withState_self (v : Reviewed) : v.withState v.state = v := rfl

def Store.reviewed (s : Store) (proposalId : String) : Option Reviewed :=
  (s.getProposal proposalId).map ProposalRow.reviewed

theorem reviewed_of_requireProposal {s : Store} {proposalId : String} {row : ProposalRow}
    (required : s.requireProposal proposalId = .ok row) : s.reviewed proposalId = some row.reviewed := by
  rw [Store.reviewed, Store.requireProposal_ok_iff.mp required, Option.map_some]

theorem reviewed_congr {s s' : Store} (same : s'.proposals = s.proposals) (proposalId : String) :
    s'.reviewed proposalId = s.reviewed proposalId := by
  simp only [Store.reviewed, Store.getProposal, same]

/-- The state of one proposal is written, and no other one. -/
def Writes (s s' : Store) (proposalId : String) (state : ProposalState) : Prop :=
  ∀ other, s'.reviewed other =
    if other = proposalId then (s.reviewed proposalId).map (·.withState state) else s.reviewed other

theorem writes_updateProposal (s : Store) (proposalId : String) (state : ProposalState) (f : ProposalRow → ProposalRow)
    (keeps : ∀ row, s.getProposal proposalId = some row → (f row).reviewed = row.reviewed.withState state) :
    Writes s (s.updateProposal proposalId f) proposalId state := by
  intro other
  rw [Store.reviewed, Store.getProposal_updateProposal]
  split
  · rename_i same
    subst same
    rw [Store.reviewed]
    cases found : s.getProposal other with
    | none => rfl
    | some row => simp only [Option.map_some, keeps row found]
  · rfl

theorem writes_writeState (s : Store) (proposalId : String) (state : ProposalState) (now : Nat) :
    Writes s (s.writeState proposalId state now) proposalId state :=
  writes_updateProposal s proposalId state _ fun _ _ => rfl

theorem Writes.congr {s s' t t' : Store} {proposalId : String} {state : ProposalState}
    (writes : Writes s s' proposalId state) (before : t.proposals = s.proposals) (after : t'.proposals = s'.proposals) :
    Writes t t' proposalId state := by
  intro other
  rw [reviewed_congr after, reviewed_congr before, reviewed_congr before]
  exact writes other

/-! ### Steps -/

/-- The moves of a transaction that looks at the state it replaces, other than
    an approval. -/
inductive LookedMove (s : Store) (proposalId : String) : ProposalState → ProposalState → Prop where
  | settled (old new : ProposalState) (active : ProposalState.active old = true)
      (closed : ProposalState.active new = false) : LookedMove s proposalId old new
  | claimed (queued : proposalId ∈ s.workerQueue.keys) : LookedMove s proposalId .failed .pendingWorker

/-- The state that a transaction writes to a proposal without looking at the one
    that it replaces. -/
def Transaction.blindWrite (s : Store) : Transaction → Option (String × ProposalState)
  | .reject input => some (input.proposalId, .rejected)
  | .setPendingWorker proposalId _ => some (proposalId, .pendingWorker)
  | .createJob proposalId read _ => if read = .approved then some (proposalId, .pendingWorker) else none
  | .receipt header _ _ => some (header.proposalId, stateFromReceipt header.status)
  | .cancel input read =>
    if (read = .approved ∨ read = .pendingWorker) ∧
        ∃ item ∈ s.workerQueueItem input.proposalId, item.status = .queued ∨ item.status = .retryWait then
      some (input.proposalId, .canceled)
    else none
  | .requeue input _ read =>
    if read = .failed ∧ (∃ item ∈ s.workerQueueItem input.proposalId, item.status = .deadLetter) ∧
        ∀ receipt ∈ s.receiptsOf input.proposalId,
          ¬ (receipt.sourceDatabaseMutated ∨ receipt.status = .applied ∨ receipt.status = .alreadyApplied) then
      some (input.proposalId, .approved)
    else none
  | .reconcile input _ _ _ =>
    if ∃ intent ∈ s.ledger.getWritebackIntent input.intentId,
        intent.status = .applying ∨ intent.status = .reconciliationRequired then
      some (input.receipt.header.proposalId, stateFromReceipt input.receipt.status)
    else none
  | _ => none

/-- The approvals rows that a transaction inserts when it goes through. -/
def Transaction.inserts : Transaction → List StoredApproval
  | .reject input => [input.rejection]
  | _ => []

/-- The proposals that a transaction may put in the queue. -/
def Transaction.enqueues : Transaction → List String
  | .enqueue _ proposal => [proposal.proposalId]
  | .enqueueApproved proposalIds _ _ => proposalIds
  | _ => []

/-- What one transaction that goes through can do. -/
inductive Step (s : Store) (t : Transaction) (s' : Store) : Prop where
  | quiet (blind : t.blindWrite s = none) (proposals : ∀ id, s'.reviewed id = s.reviewed id)
      (approvals : s'.approvals = s.approvals)
      (queue : ∀ id ∈ s'.workerQueue.keys, id ∈ s.workerQueue.keys ∨ id ∈ t.enqueues)
  | created (row : ProposalRow) (is : t = .create row) (fresh : s.reviewed row.proposalId = none)
      (proposals : ∀ id, s'.reviewed id = if id = row.proposalId then some row.reviewed else s.reviewed id)
      (approvals : s'.approvals = s.approvals) (queue : s'.workerQueue.keys = s.workerQueue.keys)
  | recorded (input : ApproveInput) (is : t = .approve input) (v : Reviewed)
      (found : s.reviewed input.proposalId = some v) (pending : v.state = .pendingReview)
      (proposals : ∀ id, s'.reviewed id = s.reviewed id)
      (approvals : s'.approvals = s.approvals ++ [input.approval]) (queue : s'.workerQueue.keys = s.workerQueue.keys)
  | approved (input : ApproveInput) (is : t = .approve input) (v : Reviewed)
      (found : s.reviewed input.proposalId = some v) (pending : v.state = .pendingReview)
      (writes : Writes s s' input.proposalId .approved)
      (approvals : s'.approvals = s.approvals ++ [input.approval]) (queue : s'.workerQueue.keys = s.workerQueue.keys)
      (complete : requiredApprovalCount v.proposal ≤ (s'.approvers input.proposalId).length)
  | byPolicy (input : PolicyInput) (is : t = .approveByPolicy input) (v : Reviewed)
      (found : s.reviewed input.proposalId = some v) (pending : v.state = .pendingReview)
      (bound : v.proposal.proposalHash = input.proposalHash ∧ v.proposal.proposalVersion = input.proposalVersion)
      (writes : Writes s s' input.proposalId .approved)
      (approvals : s'.approvals = s.approvals ++ [input.approval]) (queue : s'.workerQueue.keys = s.workerQueue.keys)
      (single : requiredApprovalCount v.proposal ≤ 1)
  | looked (blind : t.blindWrite s = none) (proposalId : String) (state : ProposalState) (v : Reviewed)
      (found : s.reviewed proposalId = some v) (move : LookedMove s proposalId v.state state)
      (writes : Writes s s' proposalId state) (approvals : s'.approvals = s.approvals)
      (queue : s'.workerQueue.keys = s.workerQueue.keys)
  | blindly (proposalId : String) (state : ProposalState) (is : t.blindWrite s = some (proposalId, state))
      (writes : Writes s s' proposalId state) (approvals : s'.approvals = s.approvals ++ t.inserts)
      (queue : s'.workerQueue.keys = s.workerQueue.keys)

/-- A transaction that touches neither proposals nor approvals, and puts nothing
    in the queue. -/
theorem Step.still {s s' : Store} {t : Transaction} (blind : t.blindWrite s = none) (proposals : s'.proposals = s.proposals)
    (approvals : s'.approvals = s.approvals) (queue : s'.workerQueue.keys = s.workerQueue.keys) : Step s t s' :=
  .quiet blind (reviewed_congr proposals) approvals fun _ member => .inl (queue ▸ member)

/-! ### The transactions -/

theorem create_step {s s' : Store} {row : ProposalRow} (committed : createTransaction s row = .ok s') :
    Step s (.create row) s' := by
  obtain ⟨_, fresh, rest⟩ := bind_eq_ok committed
  cases rest
  have absent : s.getProposal row.proposalId = none := by simpa using ensure_ok_iff.mp fresh
  refine .created row rfl (by rw [Store.reviewed, absent]; rfl) (fun id => ?_) rfl rfl
  simp only [Store.reviewed, Store.getProposal, KeyedMap.get?_set]
  split <;> rfl

theorem freshness_step {s s' : Store} {proof : FreshnessProof} {now : Nat}
    (committed : freshnessTransaction s proof now = .ok s') : Step s (.freshness proof now) s' := by
  unfold freshnessTransaction at committed
  dsimp only at committed
  split at committed
  · obtain ⟨current, required, rest⟩ := bind_eq_ok committed
    have found := reviewed_of_requireProposal required
    split at rest
    · rename_i active
      cases rest
      exact .looked rfl proof.proposalId .conflict current.reviewed found (.settled _ _ active rfl)
        ((writes_writeState _ _ _ _).congr rfl rfl) rfl rfl
    · cases rest
      exact .still rfl rfl rfl rfl
  · cases committed
    exact .still rfl rfl rfl rfl

theorem approve_step {runtime : StoreRuntime} {s s' : Store} {input : ApproveInput}
    (committed : approveTransaction runtime s input = .ok s') : Step s (.approve input) s' := by
  obtain ⟨current, required, rest⟩ := bind_eq_ok committed
  obtain ⟨_, state, rest⟩ := bind_eq_ok rest
  obtain ⟨_, _, rest⟩ := bind_eq_ok rest
  obtain ⟨_, _, rest⟩ := bind_eq_ok rest
  have found := reviewed_of_requireProposal required
  have pending := ensure_ok_iff.mp state
  dsimp only at rest
  split at rest
  · rename_i complete
    cases rest
    exact .approved input rfl current.reviewed found pending ((writes_writeState _ _ _ _).congr rfl rfl) rfl rfl complete
  · cases rest
    exact .recorded input rfl current.reviewed found pending (fun _ => rfl) rfl rfl

theorem approveByPolicy_step {runtime : StoreRuntime} {s s' : Store} {input : PolicyInput}
    (committed : approveByPolicyTransaction runtime s input = .ok s') : Step s (.approveByPolicy input) s' := by
  obtain ⟨proposal, required, rest⟩ := bind_eq_ok committed
  obtain ⟨_, _, rest⟩ := bind_eq_ok rest
  obtain ⟨_, identity, rest⟩ := bind_eq_ok rest
  obtain ⟨_, state, rest⟩ := bind_eq_ok rest
  split at rest
  · cases rest
    exact .still rfl rfl rfl rfl
  · rename_i single
    split at rest
    · cases rest
      exact .still rfl rfl rfl rfl
    · obtain ⟨_, _, rest⟩ := bind_eq_ok rest
      cases rest
      exact .byPolicy input rfl proposal.reviewed (reviewed_of_requireProposal required) (ensure_ok_iff.mp state)
        (assertProposalIdentity_ok_iff.mp identity) ((writes_writeState _ _ _ _).congr rfl rfl) rfl rfl (not_lt.mp single)

theorem createJob_step (s : Store) (proposalId : String) (read : ProposalState) (now : Nat) :
    Step s (.createJob proposalId read now) (createJobTransaction s proposalId read now) := by
  unfold createJobTransaction
  split
  · rename_i approved
    exact .blindly proposalId .pendingWorker (by simp [Transaction.blindWrite, approved]) (writes_writeState _ _ _ _)
      (by simp [Transaction.inserts]) rfl
  · rename_i other
    exact .still (by simp [Transaction.blindWrite, other]) rfl rfl rfl

theorem writes_receipt (s : Store) (receipt : ReceiptHeader) (mutated : Bool) (now : Nat) :
    Writes s (recordExecutionReceiptRows s receipt mutated now) receipt.proposalId (stateFromReceipt receipt.status) :=
  (writes_updateProposal _ _ _ _ fun _ _ => rfl).congr rfl rfl

theorem localState_closed {state : String} {localState : ProposalState}
    (projected : localStateFromCloudGovernance state = some localState) : ProposalState.active localState = false := by
  unfold localStateFromCloudGovernance at projected
  repeat' split at projected
  all_goals cases projected; try rfl

theorem cloudGovernance_step {s s' : Store} {proposalId state : String} {now : Nat}
    (committed : recordCloudGovernanceEvent s proposalId state now = .ok s') :
    Step s (.cloudGovernance proposalId state now) s' := by
  obtain ⟨row, required, rest⟩ := bind_eq_ok committed
  have stored := Store.requireProposal_ok_iff.mp required
  split at rest
  · cases rest
    exact .still rfl rfl rfl rfl
  · rename_i localState projected
    cases rest
    by_cases active : ProposalState.active row.state
    · refine .looked rfl proposalId localState row.reviewed (reviewed_of_requireProposal required)
        (.settled _ _ active (localState_closed projected)) (writes_updateProposal _ _ _ _ fun row' found => ?_) rfl rfl
      obtain rfl : row = row' := Option.some.inj (stored.symm.trans found)
      simp only [active, if_true]
      rfl
    · refine .quiet rfl (fun id => ?_) rfl fun _ member => .inl member
      rw [Store.reviewed, Store.getProposal_updateProposal]
      split
      · rename_i same
        subst same
        simp [Store.reviewed, stored, active]
      · rfl

theorem enqueue_step {s s' : Store} {input : EnqueueInput} {proposal : ProposalRow}
    (committed : enqueueTransaction s input proposal = .ok s') : Step s (.enqueue input proposal) s' := by
  unfold enqueueTransaction at committed
  dsimp only at committed
  split at committed
  · obtain ⟨_, _, rest⟩ := bind_eq_ok committed
    cases rest
    exact .still rfl rfl rfl rfl
  · obtain ⟨_, _, rest⟩ := bind_eq_ok committed
    cases rest
    refine .quiet rfl (fun _ => rfl) rfl fun id member => ?_
    rcases KeyedMap.mem_keys_set.mp member with rfl | before
    · exact .inr (List.mem_singleton.mpr rfl)
    · exact .inl before

theorem mem_keys_insertQueueItems {maxAttempts : Option Nat} {now : Nat} {proposalIds : List String}
    {queue : KeyedMap String WorkerQueueItem} {id : String}
    (member : id ∈ (proposalIds.foldl (insertQueueItem maxAttempts now) queue).keys) :
    id ∈ queue.keys ∨ id ∈ proposalIds := by
  induction proposalIds generalizing queue with
  | nil => exact .inl member
  | cons first rest ih =>
    rcases ih member with before | later
    · unfold insertQueueItem at before
      split at before
      · exact .inl before
      · rcases KeyedMap.mem_keys_set.mp before with rfl | queued
        · exact .inr List.mem_cons_self
        · exact .inl queued
    · exact .inr (List.mem_cons_of_mem _ later)

theorem enqueueApproved_step (s : Store) (proposalIds : List String) (maxAttempts : Option Nat) (now : Nat) :
    Step s (.enqueueApproved proposalIds maxAttempts now) (enqueueApprovedTransaction s proposalIds maxAttempts now) :=
  .quiet rfl (fun _ => rfl) rfl fun _ member => mem_keys_insertQueueItems member

theorem leaseItem_step {runtime : StoreRuntime} {s : Store} {input : ClaimInput} {proposalId : String}
    {row : ProposalRow} (found : s.getProposal proposalId = some row) (queued : proposalId ∈ s.workerQueue.keys) :
    Step s (.claim input) (leaseItem runtime s input proposalId row) := by
  unfold leaseItem
  dsimp only
  split
  · rename_i failed
    refine .looked rfl proposalId .pendingWorker row.reviewed (by rw [Store.reviewed, found]; rfl) ?_
      ((writes_writeState _ _ _ _).congr rfl rfl) rfl (by simp)
    have state : row.reviewed.state = .failed := failed
    rw [state]
    exact .claimed queued
  · exact .still rfl rfl rfl (by simp)

theorem claim_step (runtime : StoreRuntime) (s : Store) (input : ClaimInput) :
    Step s (.claim input) (claimTransaction runtime s input) := by
  have blocked : ∀ id errorCode, Step s (.claim input) (blockQueuedWorkerItem s id errorCode input.now) :=
    fun id errorCode => .still rfl rfl rfl (by simp [blockQueuedWorkerItem])
  unfold claimTransaction
  split
  · exact .still rfl rfl rfl rfl
  · split
    · exact .still rfl rfl rfl rfl
    · rename_i selected
      obtain ⟨queued, found⟩ := candidate_mem selected
      split
      · exact blocked _ _
      · split
        · exact blocked _ _
        · exact leaseItem_step found queued

theorem onLease_step {s s' : Store} {lease : Lease} {action : LeaseAction} {now : Nat}
    (committed : leaseTransaction s lease action now = .ok s') : Step s (.onLease lease action now) s' := by
  obtain ⟨_, _, rest⟩ := bind_eq_ok committed
  cases rest
  exact .still rfl rfl rfl (by simp)

theorem requireWorkerQueueItem_ok {s : Store} {proposalId : String} {item : WorkerQueueItem}
    (required : s.requireWorkerQueueItem proposalId = .ok item) : s.workerQueueItem proposalId = some item := by
  unfold Store.requireWorkerQueueItem at required
  split at required
  · rename_i found; cases required; exact found
  · cases required

theorem cancel_step {s s' : Store} {input : QueueDecision} {read : ProposalState}
    (committed : cancelTransaction s input read = .ok s') : Step s (.cancel input read) s' := by
  obtain ⟨item, required, rest⟩ := bind_eq_ok committed
  obtain ⟨_, cancellable, rest⟩ := bind_eq_ok rest
  have found := requireWorkerQueueItem_ok required
  have open' := ensure_ok_iff.mp cancellable
  split at rest
  · rename_i reads
    cases rest
    exact .blindly input.proposalId .canceled (by simp [Transaction.blindWrite, reads, found, open'])
      ((writes_writeState _ _ _ _).congr rfl rfl) (by simp [Transaction.inserts]) (by simp)
  · rename_i reads
    cases rest
    exact .still (by simp [Transaction.blindWrite, reads]) rfl rfl (by simp)

theorem requeue_step {s s' : Store} {input : QueueDecision} {retryBudget : Nat} {read : ProposalState}
    (committed : requeueTransaction s input retryBudget read = .ok s') : Step s (.requeue input retryBudget read) s' := by
  obtain ⟨item, required, rest⟩ := bind_eq_ok committed
  obtain ⟨_, dead, rest⟩ := bind_eq_ok rest
  obtain ⟨_, unapplied, rest⟩ := bind_eq_ok rest
  have found := requireWorkerQueueItem_ok required
  split at rest
  · rename_i reads
    cases rest
    refine .blindly input.proposalId .approved ?_ ((writes_writeState _ _ _ _).congr rfl rfl)
      (by simp [Transaction.inserts]) (by simp)
    rw [Transaction.blindWrite, if_pos ⟨reads, ⟨item, found, ensure_ok_iff.mp dead⟩, ensure_ok_iff.mp unapplied⟩]
  · rename_i reads
    cases rest
    exact .still (by simp [Transaction.blindWrite, reads]) rfl rfl (by simp)

theorem discard_step {s s' : Store} {input : QueueDecision} (committed : discardTransaction s input = .ok s') :
    Step s (.discard input) s' := by
  obtain ⟨_, _, rest⟩ := bind_eq_ok committed
  obtain ⟨_, _, rest⟩ := bind_eq_ok rest
  cases rest
  exact .still rfl rfl rfl (by simp)

theorem reconcile_step {s s' : Store} {input : ReconcileInput} {reconciled : StoredWritebackIntent} {mutated : Bool}
    {now : Nat} (committed : reconcileTransaction s input reconciled mutated now = .ok s') :
    Step s (.reconcile input reconciled mutated now) s' := by
  obtain ⟨intent, required, rest⟩ := bind_eq_ok committed
  obtain ⟨_, status, rest⟩ := bind_eq_ok rest
  cases rest
  refine .blindly input.receipt.header.proposalId (stateFromReceipt input.receipt.status) ?_
    ((writes_receipt _ _ _ _).congr rfl rfl) (by simp [Transaction.inserts, recordExecutionReceiptRows, Store.updateProposal])
    (by simp [recordExecutionReceiptRows, Store.updateProposal])
  rw [Transaction.blindWrite,
    if_pos ⟨intent, SqliteLedger.requireWritebackIntent_ok required, ensure_ok_iff.mp status⟩]

/-- What a transaction that goes through can do. -/
theorem commit_step {runtime : StoreRuntime} {s s' : Store} {t : Transaction}
    (committed : commit runtime s t = .ok s') : Step s t s' := by
  cases t with
  | nothing => cases committed; exact .still rfl rfl rfl rfl
  | create row => exact create_step committed
  | freshness proof now => exact freshness_step committed
  | approve input => exact approve_step committed
  | approveByPolicy input => exact approveByPolicy_step committed
  | reject input =>
    cases committed
    exact .blindly _ _ rfl ((writes_writeState _ _ _ _).congr rfl rfl) rfl rfl
  | setPendingWorker proposalId now =>
    cases committed
    exact .blindly _ _ rfl (writes_writeState _ _ _ _) (by simp [Transaction.inserts]) rfl
  | createJob proposalId read now => cases committed; exact createJob_step _ _ _ _
  | receipt receipt mutated now =>
    cases committed
    exact .blindly _ _ rfl (writes_receipt _ _ _ _)
      (by simp [Transaction.inserts, recordExecutionReceiptRows, Store.updateProposal]) rfl
  | cloudGovernance proposalId state now => exact cloudGovernance_step committed
  | enqueue input proposal => exact enqueue_step committed
  | enqueueApproved proposalIds maxAttempts now => cases committed; exact enqueueApproved_step _ _ _ _
  | claim input => cases committed; exact claim_step _ _ _
  | onLease lease action now => exact onLease_step committed
  | cancel input read => exact cancel_step committed
  | requeue input retryBudget read => exact requeue_step committed
  | discard input => exact discard_step committed
  | claimIntent job runnerId =>
    obtain ⟨_, _, rest⟩ := bind_eq_ok committed
    cases rest
    exact .still rfl rfl rfl rfl
  | markApplying intentId runnerId =>
    obtain ⟨_, _, rest⟩ := bind_eq_ok committed
    cases rest
    exact .still rfl rfl rfl rfl
  | completeIntent intentId result =>
    obtain ⟨_, _, rest⟩ := bind_eq_ok committed
    cases rest
    exact .still rfl rfl rfl rfl
  | requireReconciliation intentId reason =>
    obtain ⟨_, _, rest⟩ := bind_eq_ok committed
    cases rest
    exact .still rfl rfl rfl rfl
  | reconcile input reconciled mutated now => exact reconcile_step committed

end SynapsorRunner.ProposalStore
