import SynapsorRunner.PolicyDays
import SynapsorRunner.TransactionRows

/-!
The limits of a policy on what its proposals execute in a day, over runs of the store with
the leases that have not been given back beside it. A claim counts the proposals of the
policy that are with a worker by an unexpired lease or that finished on the day. So a
limit holds as long as every claim sees the executions that have not ended
(`execution_limited`). The worker of an expired lease may still be executing, and no claim
counts it (`expired_lease_not_counted`).
-/
namespace SynapsorRunner.ExecutionLimits
open SynapsorRunner.Protocol SynapsorRunner.Proposals SynapsorRunner.Intents SynapsorRunner.ProposalStore
open SynapsorRunner.Runs
open SynapsorRunner.LeaseRuns (ClaimInput.leases ClaimStep claimStep candidate_row leaseTransaction_ok queues queue_unchanged
  workerQueueItem_updateItem workerQueueItem_congr leasedRow workerQueueItem_leaseItem get?_insertQueueItems)
open SynapsorRunner.PolicyDays (exceeds Summable exceededBy_eq_exceeds)

/-! ### Executions -/

/-- The store, the latest time, and the leases granted and not given back. -/
structure Executions where
  store : Store
  clock : ℕ
  outstanding : List Lease

def Executions.start : Executions := ⟨.empty, 0, []⟩

def Executions.now (m : Executions) (t : Transaction) : ℕ := (writtenAt t).getD m.clock

def Executions.outstandingAfter (runtime : StoreRuntime) (m : Executions) : Transaction → List Lease
  | .claim input => match ClaimInput.leases input m.store with
    | some (id, item, _) => (LeaseRuns.grantOf runtime input id item).lease :: m.outstanding
    | none => m.outstanding
  | .onLease lease action _ =>
    if LeaseRuns.ends action then m.outstanding.filter fun other => decide (other ≠ lease) else m.outstanding
  | _ => m.outstanding

def Executions.step (runtime : StoreRuntime) (m : Executions) (t : Transaction) : Executions :=
  match commit runtime m.store t with
  | .error _ => { m with clock := m.now t }
  | .ok store => ⟨store, m.now t, m.outstandingAfter runtime t⟩

/-! ### What counts toward a limit -/

/-- A proposal with an approval of a policy, for its hash and version. -/
def policyApproved (s : Store) (policy : String) (row : ProposalRow) : Bool :=
  s.approvals.any fun a => decide (a.proposalId = row.proposalId ∧ a.approver = "policy:" ++ policy ∧
    a.status = .approved ∧ a.proposalHash = row.proposalHash ∧ a.proposalVersion = row.proposalVersion)

/-- An item with a worker, or one whose execution ended on the day and may have changed
    the source. -/
def busy (now : ℕ) (item : WorkerQueueItem) : Bool :=
  decide (item.status = .leased) ||
    (decide (item.status = .completed ∧
      (item.terminalOutcome = some "applied" ∨ item.terminalOutcome = some "already_applied")) && inDay now item.updatedAt) ||
    (decide (item.status = .reconciliationRequired) && inDay now item.updatedAt)

/-- A proposal that a worker has claimed and not finished, whether or not the lease has
    expired. -/
def Executions.running (m : Executions) (id : String) : Bool :=
  m.outstanding.any (fun lease => decide (lease.proposalId = id)) ||
    (m.store.workerQueueItem id).any fun item => decide (item.status = .leased)

/-- A proposal that was applied on the day of `now`, or that may be executing. -/
def Executions.engaged (m : Executions) (now : ℕ) (row : ProposalRow) : Bool :=
  (decide (row.state = .applied) && inDay now row.updatedAt) || (m.store.workerQueueItem row.proposalId).any (busy now) ||
    m.running row.proposalId

/-- The proposals of a policy that count with `row` toward a limit. -/
def sameLimit (s : Store) (policy : String) (limit : PolicyApprovalLimit) (row other : ProposalRow) : Bool :=
  decide (other.tenantId = row.tenantId) && limit.sameScope other row && policyApproved s policy other

/-- The change sets of what was applied on the day of the clock and of what may be
    executing. -/
def Executions.uses (m : Executions) (policy : String) (limit : PolicyApprovalLimit) (row : ProposalRow) : List Record :=
  (m.store.proposals.values.filter fun other => sameLimit m.store policy limit row other && m.engaged m.clock other).map
    (·.changeSet.patch)

/-- A limit of a policy holds, on the day of the clock, for every tenant and object. -/
def ExecutionLimited (policy : String) (limit : PolicyApprovalLimit) (m : Executions) : Prop :=
  ∀ row ∈ m.store.proposals.values, policyApproved m.store policy row = true → m.engaged m.clock row = true →
    exceeds limit (m.uses policy limit row) = false

/-! ### The condition -/

/-- The change sets that the check of a claim counts toward a limit. -/
def checked (s : Store) (policy : String) (limit : PolicyApprovalLimit) (now : ℕ) (proposal : ProposalRow) : List Record :=
  (s.proposals.values.filter fun row =>
    (decide (row.proposalId = proposal.proposalId) || executing s ("policy:" ++ policy) proposal now row) &&
      limit.sameScope row proposal).map (·.changeSet.patch)

/-- The values of a limit are not negative. -/
def NonNegative (limit : PolicyApprovalLimit) (patches : List Record) : Prop :=
  limit.kind = .total → ∀ values, patchValues limit.field patches = some values → ∀ v ∈ values, 0 ≤ v

/-- A claim of `row` that has the limit, and whose check counts every proposal with an
    execution that has not ended, adds exactly, and adds no negative value. -/
structure Covered (policy : String) (limit : PolicyApprovalLimit) (m : Executions) (input : ClaimInput) (row : ProposalRow) :
    Prop where
  inForce : ∃ execution, input.policyExecution = some execution ∧ execution.policy = policy ∧ limit ∈ execution.limits
  seen : ∀ other ∈ m.store.proposals.values, sameLimit m.store policy limit row other = true →
    m.running other.proposalId = true → other.proposalId ≠ row.proposalId →
      executing m.store ("policy:" ++ policy) row input.now other = true
  summable : Summable limit (checked m.store policy limit input.now row)
  nonNegative : NonNegative limit (checked m.store policy limit input.now row)

/-- The condition on a transaction: the time does not go back, a claim of a proposal of
    the policy is covered, and a proposal of the policy is recorded as applied while its
    execution is counted. -/
structure Checked (policy : String) (limit : PolicyApprovalLimit) (m : Executions) (t : Transaction) : Prop where
  forward : m.clock ≤ m.now t
  claimed : ∀ input id item row, t = .claim input → ClaimInput.leases input m.store = some (id, item, row) →
    policyApproved m.store policy row = true → Covered policy limit m input row
  applied : ∀ id ∈ applications t, ∀ row, m.store.getProposal id = some row → policyApproved m.store policy row = true →
    ∃ item, m.store.workerQueueItem id = some item ∧ busy (m.now t) item = true

/-! ### What a transaction does to the queue -/

/-- An item that a claim has leased, or that such an item became when its execution
    ended. -/
def begun (item : WorkerQueueItem) : Prop :=
  item.status = .leased ∨ item.status = .completed ∨ item.status = .reconciliationRequired

theorem begun_of_busy {now : ℕ} {item : WorkerQueueItem} (here : busy now item = true) : begun item := by
  simp only [busy, Bool.or_eq_true, Bool.and_eq_true, decide_eq_true_eq] at here
  rcases here with (leased | ⟨⟨completed, _⟩, _⟩) | ⟨reconciling, _⟩
  · exact .inl leased
  · exact .inr (.inl completed)
  · exact .inr (.inr reconciling)

theorem busy_of_leased {now : ℕ} {item : WorkerQueueItem} (leased : item.status = .leased) :
    busy now item = true := by
  simp [busy, leased]

/-- The row of an item after a transaction that starts no execution. -/
structure Eased (t : Transaction) (now : ℕ) (id : String) (old new : Option WorkerQueueItem) : Prop where
  kept : old ≠ none → new ≠ none
  busyBefore : ∀ item', new = some item' → busy now item' = true →
    (∃ item, old = some item ∧ busy now item = true) ∨ id ∈ applications t
  begunBefore : ∀ item', new = some item' → begun item' → ∃ item, old = some item ∧ begun item
  leasedBefore : ∀ item', new = some item' → item'.status = .leased → ∃ item, old = some item ∧ item.status = .leased
  timed : ∀ item', new = some item' → item'.updatedAt = now ∨ old = some item'

theorem Eased.same {t : Transaction} {now : ℕ} {id : String} {old new : Option WorkerQueueItem} (kept : new = old) :
    Eased t now id old new := by
  subst kept
  exact ⟨fun present => present, fun item is here => .inl ⟨item, is, here⟩, fun item is here => ⟨item, is, here⟩,
    fun item is here => ⟨item, is, here⟩, fun _ is => .inr is⟩

/-- An item that is put in the queue, or leaves it. -/
theorem Eased.idle {t : Transaction} {now : ℕ} {id : String} {old : Option WorkerQueueItem} {item : WorkerQueueItem}
    (status : ¬ begun item) (time : item.updatedAt = now) : Eased t now id old (some item) := by
  refine ⟨fun _ => by simp, fun item' is here => ?_, fun item' is here => ?_, fun item' is here => ?_, fun item' is => ?_⟩
  · cases is
    exact absurd (begun_of_busy here) status
  · cases is
    exact absurd here status
  · cases is
    exact absurd (.inl here) status
  · cases is
    exact .inl time

/-- An item whose worker renews its lease or ends its execution. -/
theorem Eased.ended {t : Transaction} {now : ℕ} {id : String} {item item' : WorkerQueueItem}
    (leased : item.status = .leased)
    (time : item'.updatedAt = now) : Eased t now id (some item) (some item') := by
  refine ⟨fun _ => by simp, fun _ _ _ => .inl ⟨item, rfl, busy_of_leased leased⟩, fun _ _ _ => ⟨item, rfl, .inl leased⟩,
    fun _ _ _ => ⟨item, rfl, leased⟩, fun item'' is => ?_⟩
  cases is
  exact .inl time

theorem Eased.update {t : Transaction} {now : ℕ} {s : Store} {id id' : String} {f : WorkerQueueItem → WorkerQueueItem}
    (each : ∀ item, s.workerQueueItem id = some item → Eased t now id (some item) (some (f item))) :
    Eased t now id' (s.workerQueueItem id') ((s.updateItem id f).workerQueueItem id') := by
  rw [workerQueueItem_updateItem]
  by_cases own : id' = id
  · subst own
    rw [if_pos rfl]
    cases found : s.workerQueueItem id' with
    | none => exact .same rfl
    | some item => exact each item found
  · rw [if_neg own]
    exact .same rfl

theorem Eased.updateIdle {t : Transaction} {now : ℕ} {s : Store} {id id' : String}
    {f : WorkerQueueItem → WorkerQueueItem}
    (status : ∀ item, ¬ begun (f item)) (time : ∀ item, (f item).updatedAt = now) :
    Eased t now id' (s.workerQueueItem id') ((s.updateItem id f).workerQueueItem id') :=
  .update fun item _ => .idle (status item) (time item)

theorem applyTo_updatedAt (action : LeaseAction) (now : ℕ) (item : WorkerQueueItem) :
    (action.applyTo now item).updatedAt = now := by
  cases action <;> rfl

theorem eased_reconciled {input : ReconcileInput} {reconciled : StoredWritebackIntent} {mutated : Bool} {now : ℕ}
    (item : WorkerQueueItem) :
    Eased (.reconcile input reconciled mutated now) now reconciled.proposalId (some item)
      (some (reconciledItem input.receipt.status now item)) := by
  by_cases reconciling : item.status = .reconciliationRequired
  · have was : begun item := .inr (.inr reconciling)
    rw [reconciledItem, if_pos reconciling]
    by_cases failed : input.receipt.status = .failed
    · rw [if_pos failed]
      exact .idle (by simp [begun, released]) rfl
    · rw [if_neg failed]
      refine ⟨fun _ => by simp, fun item' is here => .inr ?_, fun _ _ _ => ⟨item, rfl, was⟩, fun item' is leased => ?_,
        fun item' is => ?_⟩
      · cases is
        cases status : input.receipt.status <;>
          simp [status, released, busy, applications, stateFromReceipt, WritebackStatus.text] at here ⊢
      · cases is
        cases leased
      · cases is
        exact .inl rfl
  · rw [reconciledItem, if_neg reconciling]
    exact .same rfl

/-- The rows of the queue after a transaction, but for the row that a claim leases. -/
theorem eased {runtime : StoreRuntime} {s s' : Store} {t : Transaction} {id : String} (clock : ℕ)
    (committed : commit runtime s t = .ok s')
    (other : ∀ input item row, t = .claim input → ClaimInput.leases input s ≠ some (id, item, row)) :
    Eased t ((writtenAt t).getD clock) id (s.workerQueueItem id) (s'.workerQueueItem id) := by
  by_cases apart : queues t = false
  · exact .same (workerQueueItem_congr (queue_unchanged apart committed) id)
  cases t with
  | enqueue input proposal =>
    unfold commit enqueueTransaction at committed
    dsimp only at committed
    split at committed
    · obtain ⟨_, _, rest⟩ := bind_eq_ok committed
      cases rest
      exact .same rfl
    · obtain ⟨_, _, rest⟩ := bind_eq_ok committed
      cases rest
      show Eased _ _ id _ ((s.workerQueue.set proposal.proposalId _).get? id)
      rw [KeyedMap.get?_set]
      by_cases own : id = proposal.proposalId
      · rw [if_pos own]
        exact .idle (by simp [begun, newQueueItem]) rfl
      · rw [if_neg own]
        exact .same rfl
  | enqueueApproved proposalIds maxAttempts now =>
    cases committed
    rcases get?_insertQueueItems maxAttempts now proposalIds s.workerQueue id with same | ⟨_, is⟩
    · exact .same same
    · rw [show (enqueueApprovedTransaction s proposalIds maxAttempts now).workerQueueItem id = some _ from is]
      exact .idle (by simp [begun, newQueueItem]) rfl
  | claim input =>
    cases committed
    rcases claimStep runtime s input with ⟨_, same⟩ | ⟨id', item, row, _, _, code, is⟩ | ⟨id', item, row, _, leases, is⟩
    · rw [same]
      exact .same rfl
    · rw [is]
      exact .updateIdle (fun _ => by simp [begun]) fun _ => rfl
    · rw [is, workerQueueItem_leaseItem]
      by_cases own : id = id'
      · exact absurd (own ▸ leases) (other input item row rfl)
      · rw [if_neg own]
        exact .same rfl
  | onLease lease action now =>
    obtain ⟨item, found, leased, _, _, rfl⟩ := leaseTransaction_ok committed
    refine .update fun item' found' => ?_
    obtain rfl := Option.some.inj (found.symm.trans found')
    exact .ended leased (applyTo_updatedAt action now _)
  | cancel input read =>
    obtain ⟨item, _, rest⟩ := bind_eq_ok committed
    obtain ⟨_, _, rest⟩ := bind_eq_ok rest
    have cancelled : Eased (.cancel input read) input.now id (s.workerQueueItem id)
        ((s.updateItem input.proposalId fun item =>
          { item with status := .cancelled, leaseOwner := none, leaseId := none, leaseExpiresAt := none
                      terminalOutcome := some "cancelled", updatedAt := input.now }).workerQueueItem id) :=
      .updateIdle (fun _ => by simp [begun]) fun _ => rfl
    dsimp only at rest
    split at rest <;> cases rest <;> exact cancelled
  | requeue input retryBudget read =>
    obtain ⟨item, _, rest⟩ := bind_eq_ok committed
    obtain ⟨_, _, rest⟩ := bind_eq_ok rest
    obtain ⟨_, _, rest⟩ := bind_eq_ok rest
    have requeued : Eased (.requeue input retryBudget read) input.now id (s.workerQueueItem id)
        ((s.updateItem input.proposalId fun item =>
          { released item .queued none none input.now with
            attempts := 0, maxAttempts := max 1 (min retryBudget 100), nextAttemptAt := input.now }).workerQueueItem id) :=
      .updateIdle (fun _ => by simp [begun, released]) fun _ => rfl
    dsimp only at rest
    split at rest <;> cases rest <;> exact requeued
  | discard input =>
    obtain ⟨item, _, rest⟩ := bind_eq_ok committed
    obtain ⟨_, _, rest⟩ := bind_eq_ok rest
    cases rest
    exact .updateIdle (fun _ => by simp [begun]) fun _ => rfl
  | reconcile input reconciled mutated now =>
    obtain ⟨intent, _, rest⟩ := bind_eq_ok committed
    obtain ⟨_, _, rest⟩ := bind_eq_ok rest
    cases rest
    exact .update fun item _ => eased_reconciled item
  | nothing | create | freshness | approve | approveByPolicy | reject | setPendingWorker | createJob | receipt
  | cloudGovernance | claimIntent | markApplying | completeIntent | requireReconciliation => exact absurd rfl apart

theorem policyApproved_iff {s : Store} {policy : String} {row : ProposalRow} :
    policyApproved s policy row = true ↔ ∃ a ∈ s.approvals, a.proposalId = row.proposalId ∧ a.approver = "policy:" ++ policy ∧
      a.status = .approved ∧ a.proposalHash = row.proposalHash ∧ a.proposalVersion = row.proposalVersion := by
  simp [policyApproved]

/-- A proposal that a policy has approved had its approval before, or is under review. -/
theorem approved_or_pending {t : Transaction} {s s' : Store} (step : ApprovalsStep t s s') {policy : String}
    {row : ProposalRow} (approved : policyApproved s' policy row = true) :
    policyApproved s policy row = true ∨
      (applications t = [] ∧ ∃ pending, s.getProposal row.proposalId = some pending ∧ pending.state = .pendingReview) := by
  obtain ⟨a, member, own⟩ := policyApproved_iff.mp approved
  cases step with
  | same approvals => exact .inl (policyApproved_iff.mpr ⟨a, approvals ▸ member, own⟩)
  | rejected b status approvals =>
    rw [approvals] at member
    rcases List.mem_append.mp member with before | last
    · exact .inl (policyApproved_iff.mpr ⟨a, before, own⟩)
    · rw [List.mem_singleton.mp last, status] at own
      exact absurd own.2.2.1 (by simp)
  | approved b pending found state none approvals =>
    rw [approvals] at member
    rcases List.mem_append.mp member with before | last
    · exact .inl (policyApproved_iff.mpr ⟨a, before, own⟩)
    · rw [List.mem_singleton.mp last] at own
      exact .inr ⟨none, pending, own.1 ▸ found, state⟩

theorem policyApproved_rewritten {t : Transaction} {id : String} {row row' : ProposalRow}
    (step : Rewritten t id row row')
    (s : Store) (policy : String) :
    policyApproved s policy row' = policyApproved s policy row := by
  obtain ⟨id, _, _, _, _, hash, version⟩ := step.content
  simp only [policyApproved, id, hash, version]

theorem candidate_claimable {input : ClaimInput} {s : Store} {id : String} {item : WorkerQueueItem}
    {row : ProposalRow}
    (found : input.candidate s = some (id, item, row)) : row.state ≠ .pendingReview := by
  have sorted := List.mem_of_mem_head? found
  rw [List.mem_insertionSort, List.mem_filter] at sorted
  simp only [Bool.and_eq_true] at sorted
  intro pending
  rw [pending] at sorted
  cases sorted.2.1.2

theorem leases_candidate {input : ClaimInput} {s : Store} {chosen : String × WorkerQueueItem × ProposalRow}
    (leases : ClaimInput.leases input s = some chosen) : input.candidate s = some chosen := by
  unfold ClaimInput.leases at leases
  split at leases
  · cases leases
  · exact (Option.filter_eq_some_iff.mp leases).1

/-- A claim that leases an item leaves its row leased. -/
theorem claim_leases {runtime : StoreRuntime} {s : Store} {input : ClaimInput} {id : String} {item : WorkerQueueItem}
    {row : ProposalRow} (leases : ClaimInput.leases input s = some (id, item, row)) :
    claimTransaction runtime s input = leaseItem runtime s input id row := by
  rcases claimStep runtime s input with ⟨none, _⟩ | ⟨_, _, _, _, none, _, _⟩ | ⟨id', item', row', _, leases', is⟩
  · rw [leases] at none
    cases none
  · rw [leases] at none
    cases none
  · rw [leases] at leases'
    cases leases'
    exact is

/-! ### Sound stores -/

structure Sound (m : Executions) : Prop where
  keyed : ∀ id row, m.store.getProposal id = some row → row.proposalId = id
  approvals : ∀ a ∈ m.store.approvals, a.status = .approved → ∃ row, m.store.getProposal a.proposalId = some row
  begun : ∀ id item, m.store.workerQueueItem id = some item → begun item →
    ∃ row, m.store.getProposal id = some row ∧ row.state ≠ .pendingReview
  outstanding : ∀ lease ∈ m.outstanding, ∃ row, m.store.getProposal lease.proposalId = some row ∧ row.state ≠ .pendingReview
  rows : ∀ id row, m.store.getProposal id = some row → row.updatedAt ≤ m.clock
  items : ∀ id item, m.store.workerQueueItem id = some item → item.updatedAt ≤ m.clock

theorem mem_outstandingAfter {runtime : StoreRuntime} {m : Executions} {t : Transaction} {lease : Lease}
    (member : lease ∈ m.outstandingAfter runtime t) :
    lease ∈ m.outstanding ∨ ∃ input item row, t = .claim input ∧
      ClaimInput.leases input m.store = some (lease.proposalId, item, row) := by
  unfold Executions.outstandingAfter at member
  cases t with
  | claim input =>
    cases leases : ClaimInput.leases input m.store with
    | none =>
      simp only [leases] at member
      exact .inl member
    | some chosen =>
      obtain ⟨id, item, row⟩ := chosen
      simp only [leases] at member
      rcases List.mem_cons.mp member with rfl | before
      · exact .inr ⟨input, item, row, rfl, leases⟩
      · exact .inl before
  | onLease held action now =>
    dsimp only at member
    split at member
    · exact .inl (List.mem_filter.mp member).1
    · exact .inl member
  | _ => exact .inl member

theorem sound_commit {runtime : StoreRuntime} {m : Executions} {t : Transaction} {store : Store} (sound : Sound m)
    (forward : m.clock ≤ m.now t) (committed : commit runtime m.store t = .ok store) :
    Sound ⟨store, m.now t, m.outstandingAfter runtime t⟩ := by
  have rows := rowsStep committed
  have stays : ∀ {id row}, m.store.getProposal id = some row → row.state ≠ .pendingReview →
      ∃ row', store.getProposal id = some row' ∧ row'.state ≠ .pendingReview := by
    intro id row found state
    obtain ⟨row', found', step⟩ := rows.after found
    exact ⟨row', found', step.left state⟩
  have items : ∀ id item', store.workerQueueItem id = some item' →
      Eased t (m.now t) id (m.store.workerQueueItem id) (some item') ∨
        item'.updatedAt = m.now t ∧ ∃ row, m.store.getProposal id = some row ∧ row.state ≠ .pendingReview := by
    intro id item' found
    by_cases other : ∀ input item row, t = .claim input → ClaimInput.leases input m.store ≠ some (id, item, row)
    · exact .inl (found ▸ eased m.clock committed other)
    · push Not at other
      obtain ⟨input, item, row, rfl, leases⟩ := other
      have candidate := leases_candidate leases
      cases committed
      rw [claim_leases leases, workerQueueItem_leaseItem, if_pos rfl, (candidate_row candidate).1] at found
      cases found
      exact .inr ⟨rfl, row, (candidate_row candidate).2.2, candidate_claimable candidate⟩
  refine ⟨fun id row' found => ?_, fun a member status => ?_, fun id item' found here => ?_, fun lease member => ?_,
    fun id row' found => ?_, fun id item' found => ?_⟩
  · rcases rows.before found with ⟨row, _, _, rfl, own⟩ | ⟨row, found', step⟩
    · exact own.symm
    · rw [step.content.1]
      exact sound.keyed id row found'
  · have before : ∃ row, m.store.getProposal a.proposalId = some row := by
      cases approvalsStep committed with
      | same approvals => exact sound.approvals a (approvals ▸ member) status
      | rejected b rejected approvals =>
        rcases List.mem_append.mp (approvals ▸ member : a ∈ m.store.approvals ++ [b]) with before | last
        · exact sound.approvals a before status
        · rw [List.mem_singleton.mp last, rejected] at status
          cases status
      | approved b pending found state none approvals =>
        rcases List.mem_append.mp (approvals ▸ member : a ∈ m.store.approvals ++ [b]) with before | last
        · exact sound.approvals a before status
        · rw [List.mem_singleton.mp last]
          exact ⟨pending, found⟩
    obtain ⟨row, found⟩ := before
    obtain ⟨row', found', _⟩ := rows.after found
    exact ⟨row', found'⟩
  · rcases items id item' found with step | ⟨_, row, found', state⟩
    · obtain ⟨item, old, was⟩ := step.begunBefore item' rfl here
      obtain ⟨row, found', state⟩ := sound.begun id item old was
      exact stays found' state
    · exact stays found' state
  · rcases mem_outstandingAfter member with before | ⟨input, item, row, _, leases⟩
    · obtain ⟨row, found, state⟩ := sound.outstanding lease before
      exact stays found state
    · have candidate := leases_candidate leases
      exact stays (candidate_row candidate).2.2 (candidate_claimable candidate)
  · rcases rows.before found with ⟨row, is, _, rfl, _⟩ | ⟨row, found', step⟩
    · subst is
      exact Nat.le_refl _
    · have old := (sound.rows id row found').trans forward
      cases step with
      | kept same => rw [same]; exact old
      | moved state mutated now at' is left applied =>
        have time : m.now t = now := by rw [Executions.now, at']; rfl
        rw [is, time]
  · rcases items id item' found with step | ⟨time, _⟩
    · rcases step.timed item' rfl with time | old
      · exact time.le
      · exact (sound.items id item' old).trans forward
    · exact time.le

theorem sound_step {runtime : StoreRuntime} {m : Executions} {t : Transaction} (sound : Sound m)
    (forward : m.clock ≤ m.now t) : Sound (m.step runtime t) := by
  unfold Executions.step
  cases committed : commit runtime m.store t with
  | error e =>
    exact ⟨sound.keyed, sound.approvals, sound.begun, sound.outstanding,
      fun id row found => (sound.rows id row found).trans forward,
      fun id item found => (sound.items id item found).trans forward⟩
  | ok store => exact sound_commit sound forward committed

/-! ### Limits that hold -/

/-- A limit that holds, of values that are not negative. -/
def Within (limit : PolicyApprovalLimit) (patches : List Record) : Prop :=
  exceeds limit patches = false ∧ NonNegative limit patches

theorem patchValues_sublist {field : Option Column} {patches patches' : List Record}
    (fewer : patches'.Sublist patches)
    {values : List ℤ} (read : patchValues field patches = some values) :
    ∃ values', patchValues field patches' = some values' ∧ values'.Sublist values := by
  unfold patchValues at read ⊢
  cases named : field.filter nonEmpty with
  | none =>
    rw [named] at read
    cases read
  | some column =>
    simp only [named] at read ⊢
    induction fewer generalizing values with
    | slnil => exact ⟨[], rfl, by cases read; exact .slnil⟩
    | cons patch _ ih =>
      rw [List.mapM_cons] at read
      obtain ⟨v, _, rest⟩ := Option.bind_eq_some_iff.mp read
      obtain ⟨tail, readTail, rest⟩ := Option.bind_eq_some_iff.mp rest
      cases rest
      obtain ⟨values', read', fewer'⟩ := ih readTail
      exact ⟨values', read', fewer'.cons v⟩
    | cons_cons patch _ ih =>
      rw [List.mapM_cons] at read ⊢
      obtain ⟨v, here, rest⟩ := Option.bind_eq_some_iff.mp read
      obtain ⟨tail, readTail, rest⟩ := Option.bind_eq_some_iff.mp rest
      cases rest
      obtain ⟨values', read', fewer'⟩ := ih readTail
      refine ⟨v :: values', ?_, fewer'.cons_cons v⟩
      rw [here, read']
      rfl

theorem sum_le_of_sublist {values' values : List ℤ} (fewer : values'.Sublist values)
    (positive : ∀ v ∈ values, 0 ≤ v) :
    values'.sum ≤ values.sum := by
  induction fewer with
  | slnil => exact le_refl _
  | cons v _ ih =>
    have own := positive v (List.mem_cons_self ..)
    have rest := ih fun w member => positive w (List.mem_cons_of_mem _ member)
    simp only [List.sum_cons]
    omega
  | cons_cons v _ ih =>
    have rest := ih fun w member => positive w (List.mem_cons_of_mem _ member)
    simp only [List.sum_cons]
    omega

theorem Within.sublist {limit : PolicyApprovalLimit} {patches patches' : List Record} (within : Within limit patches)
    (fewer : patches'.Sublist patches) : Within limit patches' := by
  obtain ⟨holds, positive⟩ := within
  cases kind : limit.kind with
  | count =>
    refine ⟨?_, fun total => absurd (kind.symm.trans total) (by simp)⟩
    simp only [exceeds, kind, decide_eq_false_iff_not, not_lt] at holds ⊢
    have less : (patches'.length : ℚ) ≤ patches.length := by exact_mod_cast fewer.length_le
    exact less.trans holds
  | total =>
    cases read : patchValues limit.field patches with
    | none => simp [exceeds, kind, read] at holds
    | some values =>
      obtain ⟨values', read', fewer'⟩ := patchValues_sublist fewer read
      have above := positive kind values read
      simp only [exceeds, kind, read, decide_eq_false_iff_not, not_lt] at holds
      have less : (values'.sum : ℚ) ≤ values.sum := by exact_mod_cast sum_le_of_sublist fewer' above
      refine ⟨?_, fun _ values'' same v member => ?_⟩
      · simp only [exceeds, kind, read', decide_eq_false_iff_not, not_lt]
        exact less.trans holds
      · rw [read'] at same
        cases same
        exact above v (fewer'.subset member)

/-! ### One transaction -/

theorem inDay_before {now clock time : ℕ} (today : inDay now time = true) (past : time ≤ clock)
    (forward : clock ≤ now) :
    inDay clock time = true := by
  have same : dayStart clock = dayStart now := by
    have began : dayStart now ≤ clock := (of_decide_eq_true today).1.trans past
    have days : clock / 86400000 = now / 86400000 :=
      le_antisymm (Nat.div_le_div_right forward) ((Nat.le_div_iff_mul_le (by decide)).mpr began)
    rw [dayStart, dayStart, days]
  rw [inDay, same]
  exact today

theorem busy_before {now clock : ℕ} {item : WorkerQueueItem} (here : busy now item = true)
    (past : item.updatedAt ≤ clock)
    (forward : clock ≤ now) : busy clock item = true := by
  simp only [busy, Bool.or_eq_true, Bool.and_eq_true, decide_eq_true_eq] at here ⊢
  rcases here with (leased | ⟨completed, today⟩) | ⟨reconciling, today⟩
  · exact .inl (.inl leased)
  · exact .inl (.inr ⟨completed, inDay_before today past forward⟩)
  · exact .inr ⟨reconciling, inDay_before today past forward⟩

theorem engaged_iff {m : Executions} {now : ℕ} {row : ProposalRow} :
    m.engaged now row = true ↔ (row.state = .applied ∧ inDay now row.updatedAt = true) ∨
      (∃ item, m.store.workerQueueItem row.proposalId = some item ∧ busy now item = true) ∨
      m.running row.proposalId = true := by
  simp only [Executions.engaged, Bool.or_eq_true, Bool.and_eq_true, decide_eq_true_eq, Option.any_eq_true, or_assoc]

theorem running_iff {m : Executions} {id : String} :
    m.running id = true ↔ (∃ lease ∈ m.outstanding, lease.proposalId = id) ∨
      ∃ item, m.store.workerQueueItem id = some item ∧ item.status = .leased := by
  simp only [Executions.running, Bool.or_eq_true, List.any_eq_true, Option.any_eq_true, decide_eq_true_eq]

/-- A proposal that a claim leases. -/
def Leases (m : Executions) (t : Transaction) (id : String) : Prop :=
  ∃ input item row, t = .claim input ∧ ClaimInput.leases input m.store = some (id, item, row)

section Committed
variable {runtime : StoreRuntime} {policy : String} {limit : PolicyApprovalLimit} {m : Executions} {t : Transaction}
  {store : Store}

theorem eased_of_not_leases (committed : commit runtime m.store t = .ok store) {id : String}
    (other : ¬ Leases m t id) :
    Eased t (m.now t) id (m.store.workerQueueItem id) (store.workerQueueItem id) :=
  eased m.clock committed fun input item row is leases => other ⟨input, item, row, is, leases⟩

theorem running_before (committed : commit runtime m.store t = .ok store) {id : String} (other : ¬ Leases m t id)
    (running : Executions.running ⟨store, m.now t, m.outstandingAfter runtime t⟩ id = true) : m.running id = true := by
  rcases running_iff.mp running with ⟨lease, member, own⟩ | ⟨item', found, leased⟩
  · rcases mem_outstandingAfter member with before | ⟨input, item, row, is, leases⟩
    · exact running_iff.mpr (.inl ⟨lease, before, own⟩)
    · exact absurd ⟨input, item, row, is, own ▸ leases⟩ other
  · exact running_iff.mpr (.inr ((eased_of_not_leases committed other).leasedBefore item' found leased))

/-- A proposal with an execution, or one that was applied, has left the review. -/
theorem not_pending_of_running (sound : Sound m) {id : String} {row : ProposalRow}
    (found : m.store.getProposal id = some row)
    (running : m.running id = true) : row.state ≠ .pendingReview := by
  rcases running_iff.mp running with ⟨lease, member, own⟩ | ⟨item, stored, leased⟩
  · obtain ⟨row', found', state⟩ := sound.outstanding lease member
    rw [own, found] at found'
    cases found'
    exact state
  · obtain ⟨row', found', state⟩ := sound.begun id item stored (.inl leased)
    rw [found] at found'
    cases found'
    exact state

/-- A proposal of the policy comes from one, or from a proposal under review. -/
theorem approved_before (sound : Sound m) (committed : commit runtime m.store t = .ok store) {id : String}
    {row' : ProposalRow} (found' : store.getProposal id = some row') (approved : policyApproved store policy row' = true) :
    ∃ row, m.store.getProposal id = some row ∧ Rewritten t id row row' ∧
      (policyApproved m.store policy row = true ∨ (applications t = [] ∧ row.state = .pendingReview)) := by
  rcases (rowsStep committed).before found' with ⟨row, is, fresh, rfl, own⟩ | ⟨row, found, step⟩
  · -- a new proposal has no approval
    exfalso
    rcases approved_or_pending (approvalsStep committed) approved with before | ⟨_, pending, stored, _⟩
    · obtain ⟨a, member, same, _, status, _⟩ := policyApproved_iff.mp before
      obtain ⟨row, stored⟩ := sound.approvals a member status
      rw [same, fresh] at stored
      cases stored
    · rw [fresh] at stored
      cases stored
  · refine ⟨row, found, step, ?_⟩
    rcases approved_or_pending (approvalsStep committed) approved with before | ⟨none, pending, stored, state⟩
    · exact .inl (policyApproved_rewritten step m.store policy ▸ before)
    · rw [step.content.1, sound.keyed id row found, found] at stored
      cases stored
      exact .inr ⟨none, state⟩

/-- A transaction that applies nothing leaves a proposal under review unapplied. -/
theorem not_applied {row row' : ProposalRow} {id : String} (step : Rewritten t id row row')
    (none : applications t = [])
    (pending : row.state = .pendingReview) : row'.state ≠ .applied := by
  intro state
  cases step with
  | kept same =>
    rw [same, pending] at state
    cases state
  | moved new mutated now at' is left recorded =>
    subst is
    have nothing := recorded state
    rw [none] at nothing
    cases nothing

/-- What counts after a transaction that does not lease it counted before. -/
theorem engaged_before (sound : Sound m) (condition : Checked policy limit m t)
    (committed : commit runtime m.store t = .ok store) {id : String} (other : ¬ Leases m t id) {row' : ProposalRow}
    (found' : store.getProposal id = some row') (approved : policyApproved store policy row' = true)
    (engaged : Executions.engaged ⟨store, m.now t, m.outstandingAfter runtime t⟩ (m.now t) row' = true) :
    ∃ row, m.store.getProposal id = some row ∧ Rewritten t id row row' ∧ policyApproved m.store policy row = true ∧
      m.engaged m.clock row = true := by
  have eased := eased_of_not_leases committed other
  obtain ⟨row, found, step, was⟩ := approved_before sound committed found' approved
  have own : row.proposalId = id := sound.keyed id row found
  have own' : row'.proposalId = id := step.content.1.trans own
  rw [engaged_iff, own'] at engaged
  rcases was with before | ⟨none, state⟩
  · have applied : id ∈ applications t → m.engaged m.clock row = true := by
      intro recorded
      obtain ⟨item, stored, here⟩ := condition.applied id recorded row found before
      rw [engaged_iff, own]
      exact .inr (.inl ⟨item, stored, busy_before here (sound.items id item stored) condition.forward⟩)
    refine ⟨row, found, step, before, ?_⟩
    rcases engaged with ⟨state, today⟩ | ⟨item', stored, here⟩ | running
    · cases step with
      | kept same =>
        subst same
        exact engaged_iff.mpr (.inl ⟨state, inDay_before today (sound.rows id _ found) condition.forward⟩)
      | moved new mutated now at' is left recorded =>
        subst is
        exact applied (recorded state)
    · rcases eased.busyBefore item' stored here with ⟨item, old, busy⟩ | recorded
      · rw [engaged_iff, own]
        exact .inr (.inl ⟨item, old, busy_before busy (sound.items id item old) condition.forward⟩)
      · exact applied recorded
    · rw [engaged_iff, own]
      exact .inr (.inr (running_before committed other running))
  · -- a proposal that is approved now was under review, so it has no execution
    exfalso
    rcases engaged with ⟨state', _⟩ | ⟨item', stored', here⟩ | running
    · exact not_applied step none state state'
    · rcases eased.busyBefore item' stored' here with ⟨item, old, busy⟩ | recorded
      · obtain ⟨row'', found'', left⟩ := sound.begun id item old (begun_of_busy busy)
        rw [found] at found''
        cases found''
        exact left state
      · rw [none] at recorded
        cases recorded
    · exact not_pending_of_running sound found (running_before committed other running) state

end Committed

/-! ### Limits -/

theorem sameLimit_iff {s : Store} {policy : String} {limit : PolicyApprovalLimit} {row other : ProposalRow} :
    sameLimit s policy limit row other = true ↔
      other.tenantId = row.tenantId ∧ limit.sameScope other row = true ∧ policyApproved s policy other = true := by
  simp only [sameLimit, Bool.and_eq_true, decide_eq_true_eq, and_assoc]

theorem sameScope_trans {limit : PolicyApprovalLimit} {a b c : ProposalRow} (first : limit.sameScope a c = true)
    (second : limit.sameScope b c = true) : limit.sameScope a b = true := by
  simp only [PolicyApprovalLimit.sameScope, decide_eq_true_eq] at first second ⊢
  intro perObject
  obtain ⟨business, object⟩ := first perObject
  obtain ⟨business', object'⟩ := second perObject
  exact ⟨business.trans business'.symm, object.trans object'.symm⟩

theorem sameScope_rewritten {t : Transaction} {id : String} {row row' : ProposalRow} (step : Rewritten t id row row')
    (limit : PolicyApprovalLimit) (other : ProposalRow) : limit.sameScope row' other = limit.sameScope row other := by
  obtain ⟨_, _, business, object, _⟩ := step.content
  simp only [PolicyApprovalLimit.sameScope, business, object]

structure Limited (policy : String) (limit : PolicyApprovalLimit) (m : Executions) : Prop where
  sound : Sound m
  queued : ∀ id row, m.store.getProposal id = some row → policyApproved m.store policy row = true → row.state = .applied →
    ∃ item, m.store.workerQueueItem id = some item
  within : ∀ row, m.uses policy limit row = [] ∨ Within limit (m.uses policy limit row)

section Claimed
variable {runtime : StoreRuntime} {policy : String} {limit : PolicyApprovalLimit} {m : Executions} {input : ClaimInput}
  {id : String} {item : WorkerQueueItem} {row : ProposalRow}

/-- The change sets that the check of a covered claim counts are within the limit. -/
theorem checked_within (covered : Covered policy limit m input row)
    (leases : ClaimInput.leases input m.store = some (id, item, row)) (approved : policyApproved m.store policy row = true) :
    Within limit (checked m.store policy limit input.now row) := by
  refine ⟨?_, covered.nonNegative⟩
  rw [← exceededBy_eq_exceeds covered.summable]
  obtain ⟨execution, inForce, rfl, member⟩ := covered.inForce
  have untripped : workerPolicyLimitTrips m.store row execution input.now = false := by
    unfold ClaimInput.leases at leases
    split at leases
    · cases leases
    · have passed := (Option.filter_eq_some_iff.mp leases).2
      simp only [inForce, Option.any_some, Bool.not_eq_true', Bool.or_eq_false_iff] at passed
      exact passed.2
  by_contra exceeded
  have trips : workerPolicyLimitTrips m.store row execution input.now = true := by
    unfold workerPolicyLimitTrips
    rw [Bool.and_eq_true]
    exact ⟨approved, List.any_eq_true.mpr ⟨limit, member, Bool.eq_true_of_not_eq_false exceeded⟩⟩
  rw [trips] at untripped
  cases untripped

/-- The row of another proposal after a claim. -/
theorem getProposal_leaseItem {other : String} (apart : other ≠ id) :
    (leaseItem runtime m.store input id row).getProposal other = m.store.getProposal other := by
  unfold leaseItem
  dsimp only
  split
  · show (m.store.proposals.modify id _).get? other = _
    rw [KeyedMap.get?_modify, if_neg apart]
    rfl
  · rfl

/-- What the check of a claim counts: the work that it sees, on the day. -/
theorem executing_of {s : Store} {actor : String} {proposal other : ProposalRow} {now : ℕ} {queued : WorkerQueueItem}
    (tenant : other.tenantId = proposal.tenantId)
    (approved : ∃ a ∈ s.approvals, a.proposalId = other.proposalId ∧ a.approver = actor ∧ a.status = .approved)
    (found : s.workerQueueItem other.proposalId = some queued)
    (counts : (queued.status ≠ .leased ∧ busy now queued = true) ∨ (other.state = .applied ∧ inDay now other.updatedAt = true)) :
    executing s actor proposal now other = true := by
  obtain ⟨a, member, own⟩ := approved
  have some' : (s.approvals.any fun a =>
      decide (a.proposalId = other.proposalId ∧ a.approver = actor ∧ a.status = .approved)) = true :=
    List.any_eq_true.mpr ⟨a, member, decide_eq_true own⟩
  simp only [executing, tenant, decide_true, some', found, Option.any_some, Bool.true_and, Bool.or_eq_true, Bool.and_eq_true,
    decide_eq_true_eq]
  rcases counts with ⟨free, here⟩ | applied
  · simp only [busy, Bool.or_eq_true, Bool.and_eq_true, decide_eq_true_eq] at here
    rcases here with (leased | completed) | reconciling
    · exact absurd leased free
    · exact .inl (.inl (.inr completed))
    · exact .inl (.inr reconciling)
  · exact .inr applied

/-- After a covered claim, what counts with its proposal is what the check has counted. -/
theorem uses_claimed (limited : Limited policy limit m) (condition : Checked policy limit m (.claim input))
    (leases : ClaimInput.leases input m.store = some (id, item, row)) (approved : policyApproved m.store policy row = true)
    {with' : ProposalRow} (tenant : row.tenantId = with'.tenantId) (scope : limit.sameScope row with' = true) :
    (Executions.uses ⟨leaseItem runtime m.store input id row, input.now, m.outstandingAfter runtime (.claim input)⟩ policy
      limit with').Sublist (checked m.store policy limit input.now row) := by
  have covered := condition.claimed input id item row rfl leases approved
  have found := (candidate_row (leases_candidate leases)).2.2
  have own : row.proposalId = id := limited.sound.keyed id row found
  have committed : commit runtime m.store (.claim input) = .ok (leaseItem runtime m.store input id row) :=
    congrArg Except.ok (claim_leases leases)
  refine (rowsStep committed).sublist fun id' other' found' counts => ?_
  rw [Bool.and_eq_true, sameLimit_iff] at counts
  obtain ⟨⟨tenant', scope', approved'⟩, engaged⟩ := counts
  obtain ⟨other, before, step, _⟩ := approved_before limited.sound committed found' approved'
  refine ⟨other, before, ?_⟩
  have near : limit.sameScope other row = true := by
    rw [← sameScope_rewritten step]
    exact sameScope_trans scope' scope
  rw [Bool.and_eq_true, Bool.or_eq_true, decide_eq_true_eq]
  refine ⟨?_, near⟩
  by_cases here : id' = id
  · subst here
    rw [found] at before
    cases before
    exact .inl rfl
  right
  have kept : other' = other := by
    rw [getProposal_leaseItem here, before] at found'
    exact (Option.some.inj found').symm
  subst kept
  have name : other'.proposalId = id' := limited.sound.keyed id' other' before
  have apart : ¬ Leases m (.claim input) id' := by
    rintro ⟨_, item', row', is, leases'⟩
    cases is
    rw [leases] at leases'
    cases leases'
    exact here rfl
  have same : (leaseItem runtime m.store input id row).workerQueueItem id' = m.store.workerQueueItem id' := by
    rw [workerQueueItem_leaseItem, if_neg here]
  have was : policyApproved m.store policy other' = true := by
    have rows : (leaseItem runtime m.store input id row).approvals = m.store.approvals := by
      unfold leaseItem
      dsimp only
      split <;> rfl
    simpa only [policyApproved, rows] using approved'
  have sameTenant : other'.tenantId = row.tenantId := tenant'.trans tenant.symm
  have approval : ∃ a ∈ m.store.approvals, a.proposalId = other'.proposalId ∧ a.approver = "policy:" ++ policy ∧
      a.status = .approved := by
    obtain ⟨a, member, named, actor, status, _⟩ := policyApproved_iff.mp was
    exact ⟨a, member, named, actor, status⟩
  have seen : m.running id' = true → executing m.store ("policy:" ++ policy) row input.now other' = true := by
    intro running
    refine covered.seen other' (KeyedMap.mem_values_of_get? before) (sameLimit_iff.mpr ⟨sameTenant, near, was⟩) ?_ ?_
    · rw [name]
      exact running
    · rw [name, own]
      exact here
  rw [engaged_iff, name] at engaged
  rcases engaged with ⟨state, today⟩ | ⟨queued, stored, busy⟩ | running
  · obtain ⟨queued, stored⟩ := limited.queued id' other' before was state
    exact executing_of sameTenant approval (name ▸ stored) (.inr ⟨state, today⟩)
  · have stored : m.store.workerQueueItem id' = some queued := same ▸ stored
    by_cases leased : queued.status = .leased
    · exact seen (running_iff.mpr (.inr ⟨queued, stored, leased⟩))
    · exact executing_of sameTenant approval (name ▸ stored) (.inl ⟨leased, busy⟩)
  · exact seen (running_before committed apart running)

end Claimed

section Step
variable {runtime : StoreRuntime} {policy : String} {limit : PolicyApprovalLimit} {m : Executions} {t : Transaction}
  {store : Store}

theorem queued_commit (limited : Limited policy limit m) (condition : Checked policy limit m t)
    (committed : commit runtime m.store t = .ok store) {id : String} {row' : ProposalRow}
    (found' : store.getProposal id = some row') (approved : policyApproved store policy row' = true)
    (state : row'.state = .applied) : ∃ item, store.workerQueueItem id = some item := by
  by_cases leases : Leases m t id
  · obtain ⟨input, item, row, rfl, leases⟩ := leases
    cases committed
    refine ⟨leasedRow runtime input id item, ?_⟩
    rw [claim_leases leases, workerQueueItem_leaseItem, if_pos rfl, (candidate_row (leases_candidate leases)).1]
    rfl
  have present : ∃ item, m.store.workerQueueItem id = some item := by
    obtain ⟨row, found, step, was⟩ := approved_before limited.sound committed found' approved
    rcases was with before | ⟨none, pending⟩
    · cases step with
      | kept same =>
        subst same
        exact limited.queued id row' found before state
      | moved new mutated now at' is left recorded =>
        subst is
        obtain ⟨item, stored, _⟩ := condition.applied id (recorded state) row found before
        exact ⟨item, stored⟩
    · exact absurd state (not_applied step none pending)
  obtain ⟨item, stored⟩ := present
  exact Option.ne_none_iff_exists'.mp ((eased_of_not_leases committed leases).kept (by simp [stored]))

/-- What counts with a row after a transaction is what counted before, unless a claim has
    leased a proposal that counts with it. -/
theorem uses_commit (limited : Limited policy limit m) (condition : Checked policy limit m t)
    (committed : commit runtime m.store t = .ok store) {row : ProposalRow}
    (apart : ∀ input id item claimed, t = .claim input → ClaimInput.leases input m.store = some (id, item, claimed) →
      policyApproved m.store policy claimed = true → claimed.tenantId = row.tenantId →
        limit.sameScope claimed row = false) :
    (Executions.uses ⟨store, m.now t, m.outstandingAfter runtime t⟩ policy limit row).Sublist (m.uses policy limit row) := by
  refine (rowsStep committed).sublist fun id other' found' counts => ?_
  rw [Bool.and_eq_true, sameLimit_iff] at counts
  obtain ⟨⟨tenant, scope, approved⟩, engaged⟩ := counts
  have other : ¬ Leases m t id := by
    rintro ⟨input, item, claimed, rfl, leases⟩
    obtain ⟨before, stored, step, was⟩ := approved_before limited.sound committed found' approved
    have candidate := leases_candidate leases
    rw [(candidate_row candidate).2.2] at stored
    cases stored
    rcases was with before | ⟨_, pending⟩
    · have outside := apart input id item claimed rfl leases before (step.content.2.1 ▸ tenant)
      rw [← sameScope_rewritten step, scope] at outside
      cases outside
    · exact candidate_claimable candidate pending
  obtain ⟨before, stored, step, was, counted⟩ := engaged_before limited.sound condition committed other found' approved engaged
  refine ⟨before, stored, ?_⟩
  rw [Bool.and_eq_true, sameLimit_iff]
  exact ⟨⟨step.content.2.1 ▸ tenant, sameScope_rewritten step limit row ▸ scope, was⟩, counted⟩

theorem within_sublist {patches patches' : List Record} (fewer : patches'.Sublist patches)
    (within : patches = [] ∨ Within limit patches) : patches' = [] ∨ Within limit patches' := by
  rcases within with rfl | within
  · exact .inl (List.sublist_nil.mp fewer)
  · exact .inr (within.sublist fewer)

theorem limited_commit (limited : Limited policy limit m) (condition : Checked policy limit m t)
    (committed : commit runtime m.store t = .ok store) :
    Limited policy limit ⟨store, m.now t, m.outstandingAfter runtime t⟩ := by
  refine ⟨sound_commit limited.sound condition.forward committed,
    fun id row' found approved state => queued_commit limited condition committed found approved state, fun row => ?_⟩
  by_cases claims : ∃ input id item claimed, t = .claim input ∧
      ClaimInput.leases input m.store = some (id, item, claimed) ∧ policyApproved m.store policy claimed = true ∧
        claimed.tenantId = row.tenantId ∧ limit.sameScope claimed row = true
  · obtain ⟨input, id, item, claimed, rfl, leases, approved, tenant, scope⟩ := claims
    have covered := condition.claimed input id item claimed rfl leases approved
    cases committed
    rw [claim_leases leases]
    exact .inr ((checked_within covered leases approved).sublist
      (uses_claimed limited condition leases approved tenant scope))
  · refine within_sublist (uses_commit limited condition committed ?_) (limited.within row)
    intro input id item claimed is leases approved tenant
    by_contra scope
    exact claims ⟨input, id, item, claimed, is, leases, approved, tenant, Bool.eq_true_of_not_eq_false scope⟩

/-- The end of a day, or a refused transaction, leaves what counted at most. -/
theorem limited_later (limited : Limited policy limit m) {now : ℕ} (forward : m.clock ≤ now) :
    Limited policy limit { m with clock := now } := by
  refine ⟨⟨limited.sound.keyed, limited.sound.approvals, limited.sound.begun, limited.sound.outstanding,
    fun id row found => (limited.sound.rows id row found).trans forward,
    fun id item found => (limited.sound.items id item found).trans forward⟩, limited.queued, fun row => ?_⟩
  have none : RowsStep .nothing m.store m.store := .same rfl
  refine within_sublist (none.sublist fun id other found counts => ⟨other, found, ?_⟩) (limited.within row)
  rw [Bool.and_eq_true] at counts ⊢
  refine ⟨counts.1, engaged_iff.mpr ?_⟩
  rcases engaged_iff.mp counts.2 with ⟨state, today⟩ | ⟨item, stored, here⟩ | running
  · exact .inl ⟨state, inDay_before today (limited.sound.rows id other found) forward⟩
  · exact .inr (.inl ⟨item, stored, busy_before here (limited.sound.items _ item stored) forward⟩)
  · exact .inr (.inr running)

theorem limited_step (limited : Limited policy limit m) (condition : Checked policy limit m t) :
    Limited policy limit (m.step runtime t) := by
  unfold Executions.step
  cases committed : commit runtime m.store t with
  | error e => exact limited_later limited condition.forward
  | ok store => exact limited_commit limited condition committed

theorem Limited.executionLimited (limited : Limited policy limit m) : ExecutionLimited policy limit m := by
  intro row member approved engaged
  have counted : row.changeSet.patch ∈ m.uses policy limit row := by
    refine List.mem_map.mpr ⟨row, List.mem_filter.mpr ⟨member, ?_⟩, rfl⟩
    rw [Bool.and_eq_true, sameLimit_iff]
    exact ⟨⟨rfl, by simp [PolicyApprovalLimit.sameScope], approved⟩, engaged⟩
  rcases limited.within row with none | within
  · rw [none] at counted
    cases counted
  · exact within.1

end Step

/-! ### Runs -/

theorem limited_start (policy : String) (limit : PolicyApprovalLimit) : Limited policy limit .start := by
  refine ⟨⟨?_, ?_, ?_, ?_, ?_, ?_⟩, ?_, fun row => .inl rfl⟩
  · intro id row found
    cases found
  · intro a member
    cases member
  · intro id item found
    cases found
  · intro lease member
    cases member
  · intro id row found
    cases found
  · intro id item found
    cases found
  · intro id row found
    cases found

/-- In a run in which every claim of the policy's proposals sees the executions that have
    not ended, the limit holds. -/
theorem execution_limited (runtime : StoreRuntime) (policy : String) (limit : PolicyApprovalLimit)
    {events : List Transaction}
    (meets : Throughout (Executions.step runtime) (Checked policy limit) .start events) :
    ExecutionLimited policy limit (run (Executions.step runtime) .start events) :=
  (invariant_of_throughout (Limited policy limit) (fun _ _ limited condition => limited_step limited condition) meets
    (limited_start policy limit)).executionLimited

/-! ### An expired lease -/

def actionRow (id ticket action : String) : ProposalRow :=
  { closeTicketRow with proposalId := id, objectId := ticket, action }

def oneADay : PolicyApprovalLimit := ⟨.count, 1, none, none⟩

def smallCloses (id : String) (now : ℕ) : Transaction :=
  .approveByPolicy
    { proposalId := id, policy := "small_closes", proposalHash := "sha256:aa", proposalVersion := 1, reason := "small"
      limits := [], now, freshnessProofDigest := none }

def limitedClaim (workerId capability : String) (now : ℕ) : ClaimInput :=
  { workerId, leaseSeconds := some 15, executionMode := none, capability := some capability, tenant := none
    contractDigest := none, maxConcurrent := none, rateLimit := none, proposalTtlSeconds := none
    policyExecution := some ⟨"small_closes", [oneADay]⟩, now }

/-- A ticket that the policy has approved, with a worker. -/
def closedTicket : List Transaction :=
  [.create (actionRow "prop_1" "T-1" "close"), smallCloses "prop_1" 1,
    .enqueue ⟨"prop_1", none, none, none, none, 2⟩ (actionRow "prop_1" "T-1" "close"),
    .claim (limitedClaim "worker_1" "close" 3)]

/-- A ticket of another capability with the same policy, claimed when the lease of the
    first one has expired. -/
def reopenedLater : List Transaction :=
  closedTicket ++ [.create (actionRow "prop_2" "T-2" "reopen"), smallCloses "prop_2" 4,
    .enqueue ⟨"prop_2", none, none, none, none, 5⟩ (actionRow "prop_2" "T-2" "reopen"),
    .claim (limitedClaim "worker_2" "reopen" 15003)]

/-- A transaction that neither claims nor records an application. -/
theorem checked_quiet {policy : String} {limit : PolicyApprovalLimit} {m : Executions} {t : Transaction}
    (forward : m.clock ≤ m.now t) (none : applications t = []) (other : ∀ input, t ≠ .claim input) :
    Checked policy limit m t :=
  ⟨forward, fun input _ _ _ is => absurd is (other input), fun id member => absurd (none ▸ member) List.not_mem_nil⟩

theorem closedTicket_checked :
    Throughout (Executions.step constantStoreRuntime) (Checked "small_closes" oneADay) .start closedTicket := by
  refine ⟨checked_quiet (by decide) rfl (by simp), checked_quiet (by decide) rfl (by simp [smallCloses]),
    checked_quiet (by decide) rfl (by simp), ⟨by decide, ?_, fun id none => by cases none⟩, trivial⟩
  intro input id item row is leases approved
  cases is
  refine ⟨⟨_, rfl, rfl, List.mem_singleton.mpr rfl⟩, fun other member same running => ?_, by rintro ⟨⟩, by rintro ⟨⟩⟩
  -- no execution has begun
  have idle : ((run (Executions.step constantStoreRuntime) .start (closedTicket.take 3)).store.proposals.values.all fun other =>
      !(run (Executions.step constantStoreRuntime) .start (closedTicket.take 3)).running other.proposalId) = true := by
    decide
  have running' : (run (Executions.step constantStoreRuntime) .start (closedTicket.take 3)).running other.proposalId = true :=
    running
  have none := List.all_eq_true.mp idle other member
  rw [running'] at none
  cases none

theorem closedTicket_limited :
    ExecutionLimited "small_closes" oneADay (run (Executions.step constantStoreRuntime) .start closedTicket) :=
  execution_limited constantStoreRuntime "small_closes" oneADay closedTicket_checked

/-- Two tickets may be executing where one may be executed in a day: the claim of the
    second does not count the worker whose lease has expired. -/
theorem expired_lease_not_counted :
    ¬ ExecutionLimited "small_closes" oneADay (run (Executions.step constantStoreRuntime) .start reopenedLater) := by
  intro limited
  have second : ((run (Executions.step constantStoreRuntime) .start reopenedLater).store.proposals.values.any fun row =>
      policyApproved (run (Executions.step constantStoreRuntime) .start reopenedLater).store "small_closes" row &&
        ((run (Executions.step constantStoreRuntime) .start reopenedLater).engaged
          (run (Executions.step constantStoreRuntime) .start reopenedLater).clock row &&
        exceeds oneADay ((run (Executions.step constantStoreRuntime) .start reopenedLater).uses "small_closes" oneADay row))) =
        true := by
    decide
  obtain ⟨row, member, here⟩ := List.any_eq_true.mp second
  rw [Bool.and_eq_true, Bool.and_eq_true] at here
  have within := limited row member here.1 here.2.1
  rw [within] at here
  cases here.2.2

end SynapsorRunner.ExecutionLimits

