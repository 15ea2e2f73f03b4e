import SynapsorRunner.ProposalRuns

/-!
The quorum of approvals over runs of the proposal store, one operation after the
other. `QuorumInv` holds in every state: the approvals stand under the hash and
version of their proposal, a queued proposal has left the review, and what is
approved, with a worker or queued has its quorum. A rejected proposal stays out of
reach of the worker unless a failure is recorded for it.
-/
namespace SynapsorRunner.ProposalStore
open SynapsorRunner.Protocol SynapsorRunner.Proposals SynapsorRunner.Intents SynapsorRunner.Runs

/-! ### The invariant -/

/-- The states in which a worker takes a proposal. -/
def ready : ProposalState → Bool
  | .approved | .pendingWorker => true
  | _ => false

/-- The states from which a proposal may become ready. -/
def live : ProposalState → Bool
  | .pendingReview | .approved | .pendingWorker | .failed => true
  | _ => false

theorem live_of_ready {state : ProposalState} (here : ready state = true) : live state = true := by
  cases state <;> first | rfl | cases here

theorem ready_iff {state : ProposalState} : ready state = true ↔ state = .approved ∨ state = .pendingWorker := by
  cases state <;> simp [ready]

/-- The approvals table holds a rejection of a proposal. -/
def Rejected (s : Store) (proposalId : String) : Prop :=
  ∃ a ∈ s.approvals, a.proposalId = proposalId ∧ a.status = .rejected

/-- An approvals row stands under the hash and version of its proposal. -/
def BoundTo (v : Reviewed) (a : StoredApproval) : Prop :=
  v.proposal.proposalHash = a.proposalHash ∧ v.proposal.proposalVersion = a.proposalVersion

structure QuorumInv (s : Store) : Prop where
  keyed : ∀ id v, s.reviewed id = some v → v.proposal.proposalId = id
  bound : ∀ a ∈ s.approvals, ∃ v, s.reviewed a.proposalId = some v ∧ (a.status = .approved → BoundTo v a)
  queued : ∀ id ∈ s.workerQueue.keys, ∃ v, s.reviewed id = some v ∧ v.state ≠ .pendingReview
  closed : ∀ id v, s.reviewed id = some v → live v.state = true → ¬ Rejected s id
  quorum : ∀ id v, s.reviewed id = some v → v.approvalStatus = .pending →
    ready v.state = true ∨ id ∈ s.workerQueue.keys → requiredApprovalCount v.proposal ≤ (s.approvers id).length

theorem quorumInv_empty : QuorumInv .empty where
  keyed := by intro id v found; cases found
  bound := by intro a member; cases member
  queued := by intro id member; cases member
  closed := by intro id v found; cases found
  quorum := by intro id v found; cases found

theorem rejected_append {s s' : Store} {extra : List StoredApproval} {id : String}
    (approvals : s'.approvals = s.approvals ++ extra) :
    Rejected s' id ↔ Rejected s id ∨ ∃ a ∈ extra, a.proposalId = id ∧ a.status = .rejected := by
  simp only [Rejected, approvals, List.mem_append, or_and_right, exists_or]

/-- More approvals rows, no fewer approvers. -/
theorem approvers_length_le {s s' : Store} {extra : List StoredApproval} (approvals : s'.approvals = s.approvals ++ extra)
    (id : String) : (s.approvers id).length ≤ (s'.approvers id).length := by
  refine (List.subperm_of_subset (List.nodup_dedup _) fun approver member => ?_).length_le
  obtain ⟨a, stored, rest⟩ := Store.mem_approvers.mp member
  exact Store.mem_approvers.mpr ⟨a, approvals ▸ List.mem_append_left _ stored, rest⟩

/-- A write to one proposal, with approvals rows of that proposal, keeps the
    invariant when what it makes of this proposal is allowed. -/
theorem QuorumInv.advance {s s' : Store} {id : String} {state : ProposalState} {v : Reviewed} {extra : List StoredApproval}
    (inv : QuorumInv s) (found : s.reviewed id = some v) (writes : Writes s s' id state)
    (approvals : s'.approvals = s.approvals ++ extra) (queue : s'.workerQueue.keys = s.workerQueue.keys)
    (own : ∀ a ∈ extra, a.proposalId = id ∧ (a.status = .approved → BoundTo v a))
    (left : state = .pendingReview → v.state = .pendingReview) (closed : live state = true → ¬ Rejected s' id)
    (quorum : v.approvalStatus = .pending → ready state = true →
      requiredApprovalCount v.proposal ≤ (s'.approvers id).length) :
    QuorumInv s' := by
  have here : s'.reviewed id = some (v.withState state) := by rw [writes id, if_pos rfl, found]; rfl
  refine ⟨?_, ?_, ?_, ?_, ?_⟩
  · intro other w stored
    by_cases same : other = id
    · subst same
      obtain rfl := Option.some.inj (here.symm.trans stored)
      exact inv.keyed other v found
    · rw [writes.of_ne same] at stored
      exact inv.keyed other w stored
  · intro a member
    rw [approvals] at member
    rcases List.mem_append.mp member with before | new
    · obtain ⟨w, stored, bound⟩ := inv.bound a before
      by_cases same : a.proposalId = id
      · rw [same] at stored
        obtain rfl := Option.some.inj (found.symm.trans stored)
        exact ⟨v.withState state, by rw [same]; exact here, bound⟩
      · exact ⟨w, by rw [writes.of_ne same]; exact stored, bound⟩
    · obtain ⟨same, bound⟩ := own a new
      exact ⟨v.withState state, by rw [same]; exact here, bound⟩
  · intro other member
    rw [queue] at member
    obtain ⟨w, stored, past⟩ := inv.queued other member
    by_cases same : other = id
    · subst same
      obtain rfl := Option.some.inj (found.symm.trans stored)
      exact ⟨_, here, fun pending => past (left pending)⟩
    · exact ⟨w, by rw [writes.of_ne same]; exact stored, past⟩
  · intro other w stored alive
    by_cases same : other = id
    · subst same
      obtain rfl := Option.some.inj (here.symm.trans stored)
      exact closed alive
    · rw [writes.of_ne same] at stored
      rw [rejected_append approvals]
      rintro (before | ⟨a, new, elsewhere, _⟩)
      · exact inv.closed other w stored alive before
      · exact same (elsewhere.symm.trans (own a new).1)
  · intro other w stored pending counts
    rw [queue] at counts
    by_cases same : other = id
    · subst same
      obtain rfl := Option.some.inj (here.symm.trans stored)
      rcases counts with now | member
      · exact quorum pending now
      · exact (inv.quorum other v found pending (.inr member)).trans (approvers_length_le approvals other)
    · rw [writes.of_ne same] at stored
      exact (inv.quorum other w stored pending counts).trans (approvers_length_le approvals other)

/-- Only the queue changes, by proposals that are ready. -/
theorem QuorumInv.quiet {s s' : Store} (inv : QuorumInv s) (proposals : ∀ id, s'.reviewed id = s.reviewed id)
    (approvals : s'.approvals = s.approvals)
    (queue : ∀ id ∈ s'.workerQueue.keys, id ∈ s.workerQueue.keys ∨ ∃ v, s.reviewed id = some v ∧ ready v.state = true) :
    QuorumInv s' := by
  have approvers : ∀ id, s'.approvers id = s.approvers id := by
    intro id
    simp only [Store.approvers, Store.approvalsOf, approvals]
  refine ⟨?_, ?_, ?_, ?_, ?_⟩
  · intro id v found
    exact inv.keyed id v (proposals id ▸ found)
  · intro a member
    rw [proposals]
    exact inv.bound a (approvals ▸ member)
  · intro id member
    rw [proposals]
    rcases queue id member with before | ⟨v, found, now⟩
    · exact inv.queued id before
    · exact ⟨v, found, fun pending => by rw [pending] at now; cases now⟩
  · intro id v found alive
    rw [Rejected, approvals]
    exact inv.closed id v (proposals id ▸ found) alive
  · intro id v found pending counts
    rw [proposals] at found
    rw [approvers]
    rcases counts with now | member
    · exact inv.quorum id v found pending (.inl now)
    · rcases queue id member with before | ⟨w, stored, now⟩
      · exact inv.quorum id v found pending (.inr before)
      · obtain rfl := Option.some.inj (found.symm.trans stored)
        exact inv.quorum id v found pending (.inl now)

/-- A new proposal in the state of its change set. -/
theorem QuorumInv.created {s s' : Store} {row : ProposalRow} (inv : QuorumInv s)
    (state : row.state = stateFromChangeSet row.approvalStatus) (fresh : s.reviewed row.proposalId = none)
    (proposals : ∀ id, s'.reviewed id = if id = row.proposalId then some row.reviewed else s.reviewed id)
    (approvals : s'.approvals = s.approvals) (queue : s'.workerQueue.keys = s.workerQueue.keys) : QuorumInv s' := by
  have unknown : ∀ a ∈ s.approvals, a.proposalId ≠ row.proposalId := by
    intro a member same
    obtain ⟨v, stored, _⟩ := inv.bound a member
    rw [same, fresh] at stored
    cases stored
  have unqueued : row.proposalId ∉ s.workerQueue.keys := by
    intro member
    obtain ⟨v, stored, _⟩ := inv.queued _ member
    rw [fresh] at stored
    cases stored
  have old : ∀ id, id ≠ row.proposalId → s'.reviewed id = s.reviewed id := fun id apart => by rw [proposals, if_neg apart]
  refine ⟨?_, ?_, ?_, ?_, ?_⟩
  · intro id v found
    rw [proposals] at found
    split at found
    · rename_i same
      cases found
      exact same.symm
    · exact inv.keyed id v found
  · intro a member
    rw [approvals] at member
    rw [old _ (unknown a member)]
    exact inv.bound a member
  · intro id member
    rw [queue] at member
    rw [old id fun same => unqueued (same ▸ member)]
    exact inv.queued id member
  · intro id v found alive
    rw [Rejected, approvals]
    by_cases same : id = row.proposalId
    · rintro ⟨a, member, here, _⟩
      exact unknown a member (here.trans same)
    · exact inv.closed id v (old id same ▸ found) alive
  · intro id v found pending counts
    rw [queue] at counts
    by_cases same : id = row.proposalId
    · subst same
      rw [proposals, if_pos rfl] at found
      cases found
      rcases counts with now | member
      · have status : row.approvalStatus = .pending := pending
        have here : ready row.state = true := now
        rw [state, status] at here
        cases here
      · exact absurd member unqueued
    · simp only [Store.approvers, Store.approvalsOf, approvals]
      exact inv.quorum id v (old id same ▸ found) pending counts

/-! ### What the reads have established -/

/-- A proposal in one of the states that a read looks for. -/
def StandsIn (s : Store) (proposalId : String) (states : ProposalState → Prop) : Prop :=
  ∃ v, s.reviewed proposalId = some v ∧ states v.state

/-- What an operation has found out before its transaction, in the state that the
    transaction starts in. -/
def Transaction.Checked (s : Store) : Transaction → Prop
  | .create row => row.state = stateFromChangeSet row.approvalStatus
  | .approve input => ∃ v, s.reviewed input.proposalId = some v ∧ BoundTo v input.approval
  | .reject input => StandsIn s input.proposalId fun _ => True
  | .setPendingWorker proposalId _ => StandsIn s proposalId (· = .approved)
  | .createJob proposalId read _ => StandsIn s proposalId (· = read)
  | .cancel input read => StandsIn s input.proposalId (· = read)
  | .requeue input _ read => StandsIn s input.proposalId (· = read)
  | .receipt header _ _ => header.status = .failed → ¬ Rejected s header.proposalId
  | .reconcile input _ _ _ => input.receipt.status = .failed → ¬ Rejected s input.receipt.header.proposalId
  | .enqueue _ proposal => StandsIn s proposal.proposalId fun state => ready state = true
  | .enqueueApproved proposalIds _ _ => ∀ id ∈ proposalIds, StandsIn s id fun state => ready state = true
  | _ => True

/-- A step that records no failure for a rejected proposal. -/
def NoFailureOfRejected (s : Store) : StoreOperation → Prop
  | .recordExecutionReceipt receipt _ => receipt.status = .failed → ¬ Rejected s receipt.header.proposalId
  | .reconcileWritebackIntent input _ => input.receipt.status = .failed → ¬ Rejected s input.receipt.header.proposalId
  | _ => True

theorem standsIn_of_require {s : Store} {proposalId : String} {row : ProposalRow} (states : ProposalState → Prop)
    (required : s.requireProposal proposalId = .ok row) (here : states row.state) : StandsIn s proposalId states :=
  ⟨_, reviewed_of_requireProposal required, here⟩

theorem queueDecision_standsIn {s : Store} {input : QueueDecision} {action : String} {read : ProposalState}
    (prepared : prepareQueueDecision s input action = .ok read) : StandsIn s input.proposalId (· = read) := by
  obtain ⟨row, required, rest⟩ := bind_eq_ok prepared
  obtain ⟨_, _, rest⟩ := bind_eq_ok rest
  cases rest
  exact standsIn_of_require (· = row.state) required rfl

theorem prepareCreate_state {s : Store} {created row : ProposalRow} (prepared : prepareCreate s created = .ok (some row)) :
    row.state = stateFromChangeSet row.approvalStatus := by
  unfold prepareCreate at prepared
  split at prepared
  · split at prepared <;> cases prepared
  · split at prepared
    · cases prepared
    · cases prepared
      rfl

theorem approvedForWorker_standsIn {s : Store} (inv : QuorumInv s) {capability tenant : Option String}
    {limit : Option Nat} {id : String}
    (member : id ∈ (approvedForWorker s capability tenant limit).map (·.proposalId)) :
    StandsIn s id fun state => ready state = true := by
  obtain ⟨row, listed, rfl⟩ := List.mem_map.mp member
  have chosen : row ∈ s.proposals.values ∧ ready row.state = true := by
    have both := List.mem_insertionSort _ |>.mp (mem_of_mem_limited listed)
    rcases List.mem_append.mp both with one | other
    · obtain ⟨stored, passes⟩ := List.mem_filter.mp one
      exact ⟨stored, ready_iff.mpr (.inl (of_decide_eq_true passes).1)⟩
    · obtain ⟨stored, passes⟩ := List.mem_filter.mp other
      exact ⟨stored, ready_iff.mpr (.inr (of_decide_eq_true passes).1)⟩
  obtain ⟨⟨key, row'⟩, entry, same⟩ := List.mem_map.mp chosen.1
  obtain rfl : row' = row := same
  have found : s.reviewed key = some row'.reviewed := by
    rw [Store.reviewed, Store.getProposal, KeyedMap.get?_eq_some.mpr entry]
    rfl
  have here : row'.proposalId = key := inv.keyed key _ found
  exact ⟨row'.reviewed, by rw [here]; exact found, chosen.2⟩

/-- The reads of an operation establish what its transaction relies on. -/
theorem prepare_checked {runtime : StoreRuntime} {s : Store} {op : StoreOperation} {t : Transaction} (inv : QuorumInv s)
    (noFailure : NoFailureOfRejected s op) (prepared : prepare runtime s op = .ok t) : t.Checked s := by
  cases op with
  | createProposal created =>
    obtain ⟨outcome, created', rest⟩ := bind_eq_ok prepared
    cases outcome with
    | none => cases rest; trivial
    | some row => cases rest; exact prepareCreate_state created'
  | approveProposal input =>
    obtain ⟨_, approvable, rest⟩ := bind_eq_ok prepared
    cases rest
    obtain ⟨row, required, rest⟩ := bind_eq_ok approvable
    obtain ⟨_, _, rest⟩ := bind_eq_ok rest
    obtain ⟨_, identity, rest⟩ := bind_eq_ok rest
    exact ⟨_, reviewed_of_requireProposal required, assertProposalIdentity_ok_iff.mp identity⟩
  | rejectProposal input =>
    obtain ⟨_, rejectable, rest⟩ := bind_eq_ok prepared
    cases rest
    obtain ⟨row, required, _⟩ := bind_eq_ok rejectable
    exact standsIn_of_require (fun _ => True) required trivial
  | markPendingWorker proposalId proposalHash proposalVersion now =>
    obtain ⟨_, markable, rest⟩ := bind_eq_ok prepared
    cases rest
    obtain ⟨row, required, rest⟩ := bind_eq_ok markable
    obtain ⟨_, _, rest⟩ := bind_eq_ok rest
    obtain ⟨_, _, rest⟩ := bind_eq_ok rest
    exact standsIn_of_require (· = .approved) required (ensure_ok_iff.mp rest)
  | createWritebackJob proposalId attempt now =>
    obtain ⟨read, built, rest⟩ := bind_eq_ok prepared
    cases rest
    obtain ⟨row, required, rest⟩ := bind_eq_ok built
    obtain ⟨_, _, rest⟩ := bind_eq_ok rest
    cases rest
    exact standsIn_of_require (· = row.state) required rfl
  | recordExecutionReceipt input now =>
    obtain ⟨⟨receipt, mutated⟩, recordable, rest⟩ := bind_eq_ok prepared
    cases rest
    obtain ⟨parsed, accepted, rest⟩ := bind_eq_ok recordable
    obtain ⟨_, _, rest⟩ := bind_eq_ok rest
    obtain ⟨_, _, rest⟩ := bind_eq_ok rest
    cases rest
    cases parses : parseExecutionReceipt runtime.platform input with
    | error issues => rw [parses] at accepted; cases accepted
    | ok value =>
      rw [parses] at accepted
      cases accepted
      obtain rfl := parseExecutionReceipt_ok parses
      exact noFailure
  | enqueueWorkerProposal input =>
    obtain ⟨row, enqueueable, rest⟩ := bind_eq_ok prepared
    cases rest
    obtain ⟨row', required, rest⟩ := bind_eq_ok enqueueable
    obtain ⟨_, state, rest⟩ := bind_eq_ok rest
    obtain ⟨_, _, rest⟩ := bind_eq_ok rest
    obtain ⟨_, _, rest⟩ := bind_eq_ok rest
    cases rest
    have found := reviewed_of_requireProposal required
    have here : row.proposalId = input.proposalId := inv.keyed _ _ found
    exact ⟨row.reviewed, by rw [here]; exact found, ready_iff.mpr (ensure_ok_iff.mp state)⟩
  | enqueueApprovedForWorker capability tenant limit maxAttempts now =>
    cases prepared
    exact fun id member => approvedForWorker_standsIn inv member
  | cancelWorkerItem input =>
    obtain ⟨read, decided, rest⟩ := bind_eq_ok prepared
    cases rest
    exact queueDecision_standsIn decided
  | requeueDeadLetter input retryBudget =>
    obtain ⟨read, decided, rest⟩ := bind_eq_ok prepared
    cases rest
    exact queueDecision_standsIn decided
  | reconcileWritebackIntent input now =>
    obtain ⟨⟨reconciled, mutated⟩, _, rest⟩ := bind_eq_ok prepared
    cases rest
    exact noFailure
  | recordFreshnessProof proof now =>
    obtain ⟨_, _, rest⟩ := bind_eq_ok prepared
    cases rest
    trivial
  | discardDeadLetter input =>
    obtain ⟨_, _, rest⟩ := bind_eq_ok prepared
    cases rest
    trivial
  | _ => cases prepared; trivial

/-! ### Steps and runs -/

theorem checked_enqueues {s : Store} {t : Transaction} (checked : t.Checked s) {id : String} (member : id ∈ t.enqueues) :
    ∃ v, s.reviewed id = some v ∧ ready v.state = true := by
  cases t with
  | enqueue input proposal => rw [List.mem_singleton.mp member]; exact checked
  | enqueueApproved proposalIds maxAttempts now => exact checked id member
  | _ => cases member

/-- What a blind write makes ready was ready before, or comes from the queue
    without a rejection. -/
theorem blindWrite_ready {s : Store} {t : Transaction} {id : String} {state : ProposalState} {v : Reviewed}
    (checked : t.Checked s) (is : t.blindWrite s = some (id, state)) (found : s.reviewed id = some v)
    (alive : live state = true) :
    (live v.state = true ∧ (ready v.state = true ∨ id ∈ s.workerQueue.keys)) ∨ (state = .failed ∧ ¬ Rejected s id) := by
  have readFrom : ∀ {read : ProposalState}, StandsIn s id (· = read) → v.state = read := by
    rintro read ⟨w, stored, here⟩
    obtain rfl := Option.some.inj (found.symm.trans stored)
    exact here
  have failure : ∀ {status : WritebackStatus}, stateFromReceipt status = state → status = .failed := by
    rintro status rfl
    cases status <;> first | rfl | cases alive
  cases t with
  | reject input => cases is; cases alive
  | setPendingWorker proposalId now =>
    cases is
    rw [readFrom checked]
    exact .inl ⟨rfl, .inl rfl⟩
  | createJob proposalId read now =>
    rw [Transaction.blindWrite] at is
    split at is
    · rename_i reads
      cases is
      rw [readFrom checked, reads]
      exact .inl ⟨rfl, .inl rfl⟩
    · cases is
  | receipt receipt mutated now =>
    cases is
    have failed := failure rfl
    exact .inr ⟨by rw [failed]; rfl, checked failed⟩
  | cancel input read =>
    rw [Transaction.blindWrite] at is
    split at is
    · cases is; cases alive
    · cases is
  | requeue input retryBudget read =>
    rw [Transaction.blindWrite] at is
    split at is
    · rename_i goes
      obtain ⟨reads, ⟨item, queued, _⟩, _⟩ := goes
      cases is
      rw [readFrom checked, reads]
      exact .inl ⟨rfl, .inr (KeyedMap.mem_keys.mpr ⟨item, queued⟩)⟩
    · cases is
  | reconcile input reconciled mutated now =>
    rw [Transaction.blindWrite] at is
    split at is
    · cases is
      have failed := failure rfl
      exact .inr ⟨by rw [failed]; rfl, checked failed⟩
    · cases is
  | _ => cases is

theorem blindWrite_ne_pendingReview {s : Store} {t : Transaction} {id : String} {state : ProposalState}
    (is : t.blindWrite s = some (id, state)) : state ≠ .pendingReview := by
  rintro rfl
  have receipts : ∀ status, stateFromReceipt status ≠ .pendingReview := by intro status; cases status <;> simp [stateFromReceipt]
  cases t with
  | receipt header mutated now =>
    simp only [Transaction.blindWrite, Option.some.injEq, Prod.mk.injEq] at is
    exact receipts _ is.2
  | reconcile input reconciled mutated now =>
    rw [Transaction.blindWrite] at is
    split at is
    · simp only [Option.some.injEq, Prod.mk.injEq] at is
      exact receipts _ is.2
    · cases is
  | createJob proposalId read now =>
    rw [Transaction.blindWrite] at is
    split at is <;> cases is
  | cancel input read =>
    rw [Transaction.blindWrite] at is
    split at is <;> cases is
  | requeue input retryBudget read =>
    rw [Transaction.blindWrite] at is
    split at is <;> cases is
  | _ => cases is

theorem not_rejected_append {s s' : Store} {a : StoredApproval} {id : String} (approvals : s'.approvals = s.approvals ++ [a])
    (approved : a.status = .approved) (clean : ¬ Rejected s id) : ¬ Rejected s' id := by
  rw [rejected_append approvals]
  rintro (before | ⟨b, new, _, rejected⟩)
  · exact clean before
  · rw [List.mem_singleton] at new
    rw [new, approved] at rejected
    cases rejected

/-- One row of approval makes a quorum of one. -/
theorem approvers_pos {s s' : Store} {a : StoredApproval} (approvals : s'.approvals = s.approvals ++ [a])
    (approved : a.status = .approved) : 1 ≤ (s'.approvers a.proposalId).length := by
  have counted : a.approver ∈ s'.approvers a.proposalId :=
    Store.mem_approvers.mpr ⟨a, by rw [approvals]; simp, rfl, approved, rfl⟩
  exact List.length_pos_of_mem counted

theorem LookedMove.live_old {s : Store} {id : String} {old new : ProposalState} (move : LookedMove s id old new) :
    live old = true := by
  cases move with
  | settled _ _ active closed => cases old <;> first | rfl | cases active
  | claimed queued => rfl

theorem LookedMove.ne_pendingReview {s : Store} {id : String} {old new : ProposalState} (move : LookedMove s id old new) :
    new ≠ .pendingReview := by
  rintro rfl
  cases move with
  | settled _ _ active closed => cases closed

theorem LookedMove.queued_of_ready {s : Store} {id : String} {old new : ProposalState} (move : LookedMove s id old new)
    (now : ready new = true) : id ∈ s.workerQueue.keys := by
  cases move with
  | settled _ _ active closed => cases new <;> simp [ready, ProposalState.active] at now closed
  | claimed queued => exact queued

/-- An approval of a proposal in review, which may complete its quorum. -/
theorem QuorumInv.approving {s s' : Store} {a : StoredApproval} {v : Reviewed} {state : ProposalState} (inv : QuorumInv s)
    (found : s.reviewed a.proposalId = some v) (pending : v.state = .pendingReview) (approved : a.status = .approved)
    (bound : BoundTo v a) (writes : Writes s s' a.proposalId state) (approvals : s'.approvals = s.approvals ++ [a])
    (queue : s'.workerQueue.keys = s.workerQueue.keys)
    (complete : ready state = true → requiredApprovalCount v.proposal ≤ (s'.approvers a.proposalId).length) :
    QuorumInv s' := by
  have clean : ¬ Rejected s a.proposalId := inv.closed _ v found (by rw [pending]; rfl)
  refine inv.advance found writes approvals queue ?_ (fun _ => pending) (fun _ => ?_) fun _ now => complete now
  · intro b member
    rw [List.mem_singleton.mp member]
    exact ⟨rfl, fun _ => bound⟩
  · exact not_rejected_append approvals approved clean

/-- A write by a transaction that has looked at the state. -/
theorem QuorumInv.looked {s s' : Store} {id : String} {v : Reviewed} {state : ProposalState} (inv : QuorumInv s)
    (found : s.reviewed id = some v) (move : LookedMove s id v.state state) (writes : Writes s s' id state)
    (approvals : s'.approvals = s.approvals) (queue : s'.workerQueue.keys = s.workerQueue.keys) : QuorumInv s' := by
  have none' : s'.approvals = s.approvals ++ [] := by rw [approvals, List.append_nil]
  refine inv.advance found writes none' queue (by simp) (fun pending => absurd pending move.ne_pendingReview) ?_ ?_
  · intro alive
    have clean := inv.closed id v found move.live_old
    rwa [Rejected, approvals]
  · intro pending now
    exact (inv.quorum id v found pending (.inr (move.queued_of_ready now))).trans (approvers_length_le none' id)

/-- A write to a proposal that the store does not have. -/
theorem Writes.of_absent {s s' : Store} {id : String} {state : ProposalState} (writes : Writes s s' id state)
    (absent : s.reviewed id = none) (other : String) : s'.reviewed other = s.reviewed other := by
  rw [writes other]
  split
  · rename_i same
    rw [same, absent, Option.map_none]
  · rfl

/-- A transaction that writes blindly inserts rejections of the proposal that it
    rejects, and nothing else. -/
theorem inserts_rejected {s : Store} {t : Transaction} {id : String} {state : ProposalState}
    (is : t.blindWrite s = some (id, state)) {a : StoredApproval} (member : a ∈ t.inserts) :
    a.proposalId = id ∧ a.status = .rejected ∧ state = .rejected := by
  cases t with
  | reject input =>
    cases is
    rw [List.mem_singleton.mp member]
    exact ⟨rfl, rfl, rfl⟩
  | _ => cases member

/-- A write by a transaction that has not looked at the state, after the reads of
    its operation. -/
theorem QuorumInv.blindly {s s' : Store} {t : Transaction} {id : String} {v : Reviewed} {state : ProposalState}
    (inv : QuorumInv s) (checked : t.Checked s) (is : t.blindWrite s = some (id, state)) (found : s.reviewed id = some v)
    (writes : Writes s s' id state) (approvals : s'.approvals = s.approvals ++ t.inserts)
    (queue : s'.workerQueue.keys = s.workerQueue.keys) : QuorumInv s' := by
  refine inv.advance found writes approvals queue ?_ (fun pending => absurd pending (blindWrite_ne_pendingReview is)) ?_ ?_
  · intro a member
    obtain ⟨own, rejected, _⟩ := inserts_rejected is member
    exact ⟨own, fun approved => by rw [rejected] at approved; cases approved⟩
  · intro alive
    rw [rejected_append approvals]
    rintro (before | ⟨a, member, _, _⟩)
    · rcases blindWrite_ready checked is found alive with ⟨was, _⟩ | ⟨_, clean⟩
      · exact inv.closed id v found was before
      · exact clean before
    · rw [(inserts_rejected is member).2.2] at alive
      cases alive
  · intro pending now
    rcases blindWrite_ready checked is found (live_of_ready now) with ⟨_, counts⟩ | ⟨failed, _⟩
    · exact (inv.quorum id v found pending counts).trans (approvers_length_le approvals id)
    · rw [failed] at now
      cases now

/-- A transaction that goes through keeps the invariant, when its operation has
    made its checks in the same state. -/
theorem quorumInv_step {s s' : Store} {t : Transaction} (inv : QuorumInv s) (checked : t.Checked s) (step : Step s t s') :
    QuorumInv s' := by
  cases step with
  | quiet blind proposals approvals queue =>
    refine inv.quiet proposals approvals fun id member => ?_
    rcases queue id member with before | new
    · exact .inl before
    · exact .inr (checked_enqueues checked new)
  | created row is fresh proposals approvals queue =>
    subst is
    exact inv.created checked fresh proposals approvals queue
  | recorded input is v found pending proposals approvals queue =>
    subst is
    obtain ⟨w, stored, bound⟩ := checked
    obtain rfl := Option.some.inj (found.symm.trans stored)
    have writes : Writes s s' input.proposalId v.state := by
      intro other
      rw [proposals]
      split
      · rename_i same
        rw [same, found, Option.map_some, withState_self]
      · rfl
    exact inv.approving (a := input.approval) found pending rfl bound writes approvals queue fun now => by
      rw [pending] at now
      cases now
  | approved input is v found pending writes approvals queue complete =>
    subst is
    obtain ⟨w, stored, bound⟩ := checked
    obtain rfl := Option.some.inj (found.symm.trans stored)
    exact inv.approving (a := input.approval) found pending rfl bound writes approvals queue fun _ => complete
  | byPolicy input is v found pending bound writes approvals queue single =>
    subst is
    exact inv.approving (a := input.approval) found pending rfl bound writes approvals queue fun _ =>
      single.trans (approvers_pos approvals rfl)
  | looked blind id state v found move writes approvals queue => exact inv.looked found move writes approvals queue
  | blindly id state is writes approvals queue =>
    cases found : s.reviewed id with
    | some v => exact inv.blindly checked is found writes approvals queue
    | none =>
      have nothing : t.inserts = [] := by
        cases t with
        | reject input =>
          cases is
          obtain ⟨v, stored, _⟩ := checked
          rw [found] at stored
          cases stored
        | _ => rfl
      exact inv.quiet (writes.of_absent found) (by rw [approvals, nothing, List.append_nil]) fun other member =>
        .inl (queue ▸ member)

/-- An operation with nothing between its reads and its transaction. -/
def perform (runtime : StoreRuntime) (s : Store) (op : StoreOperation) : Except StoreError Store := do
  let t ← prepare runtime s op
  commit runtime s t

/-- The store after an operation. One that throws leaves it as it is. -/
def operate (runtime : StoreRuntime) (s : Store) (op : StoreOperation) : Store := (perform runtime s op).toOption.getD s

theorem quorumInv_operate (runtime : StoreRuntime) {s : Store} {op : StoreOperation} (inv : QuorumInv s)
    (noFailure : NoFailureOfRejected s op) : QuorumInv (operate runtime s op) := by
  unfold operate
  cases performed : perform runtime s op with
  | error e => exact inv
  | ok s' =>
    obtain ⟨t, prepared, committed⟩ := bind_eq_ok performed
    exact quorumInv_step inv (prepare_checked inv noFailure prepared) (commit_step committed)

/-- The approvals of a proposal by as many different approvers as its review
    requires, each under the hash and version that the proposal has. -/
def QuorumHeld (s : Store) (row : ProposalRow) : Prop :=
  ∃ approvers : List String, approvers.Nodup ∧ requiredApprovalCount row.toStoredProposal ≤ approvers.length ∧
    ∀ approver ∈ approvers, ∃ a ∈ s.approvals, a.proposalId = row.proposalId ∧ a.status = .approved ∧
      a.approver = approver ∧ a.proposalHash = row.proposalHash ∧ a.proposalVersion = row.proposalVersion

theorem QuorumInv.held {s : Store} (inv : QuorumInv s) {id : String} {row : ProposalRow}
    (found : s.getProposal id = some row) (reviewed : row.approvalStatus = .pending) (now : ready row.state = true) :
    QuorumHeld s row ∧ ¬ Rejected s row.proposalId := by
  have stored : s.reviewed id = some row.reviewed := by rw [Store.reviewed, found]; rfl
  have here : row.proposalId = id := inv.keyed id _ stored
  constructor
  · refine ⟨s.approvers id, List.nodup_dedup _, inv.quorum id _ stored reviewed (.inl now), fun approver member => ?_⟩
    obtain ⟨a, approved, own, status, same⟩ := Store.mem_approvers.mp member
    obtain ⟨v, stored', bound⟩ := inv.bound a approved
    rw [own] at stored'
    obtain rfl := Option.some.inj (stored.symm.trans stored')
    exact ⟨a, approved, own.trans here.symm, status, same, (bound status).1.symm, (bound status).2.symm⟩
  · rw [here]
    exact inv.closed id _ stored (live_of_ready now)

/-- `closeTicket` is created and approved. -/
def closeTicketApproved : List StoreOperation := [.createProposal closeTicketRow, .approveProposal closeTicketApproval]

/-- A worker's claim of any due item. -/
def anyClaim : ClaimInput :=
  { workerId := "worker_1", leaseSeconds := none, executionMode := none, capability := none, tenant := none
    contractDigest := none, maxConcurrent := none, rateLimit := none, proposalTtlSeconds := none
    policyExecution := none, now := 4 }

/-- A rejected proposal that is in the queue fails by a receipt and is claimed. -/
def failedAfterRejection : List StoreOperation :=
  closeTicketApproved ++
    [.enqueueWorkerProposal { proposalId := "prop_1", executionMode := none, contractDigest := none, maxAttempts := none
                              queueLimit := none, now := 2 },
     .rejectProposal closeTicketRejection, .recordExecutionReceipt (closeTicketReceipt .failed) 3, .claimWorkerItem anyClaim]

end SynapsorRunner.ProposalStore
