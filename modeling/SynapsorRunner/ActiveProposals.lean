import SynapsorRunner.ProposalRuns

/-!
The active proposals of an object. `createProposal` refuses a proposal for an
object that has an active one, but its insert does not look again, and neither do
the operations that take a proposal back from an inactive state: a claim and the
requeueing of a dead letter take a failed one, and `markPendingWorker` and
`createWritebackJobFromProposal` write what they have read before.

So an object keeps to one active proposal in a run exactly if no step of it
activates a proposal beside another one (`one_active_proposal_iff`).
-/
namespace SynapsorRunner.ProposalStore
open SynapsorRunner.Protocol SynapsorRunner.Proposals SynapsorRunner.Intents SynapsorRunner.Runs

/-! ### Objects -/

/-- What `findActiveProposal` looks a proposal up by. -/
structure ProposalObject where
  tenantId : String
  action : String
  businessObject : String
  objectId : String
  deriving DecidableEq, Repr

def Reviewed.object (v : Reviewed) : ProposalObject :=
  ⟨v.proposal.tenantId, v.proposal.action, v.proposal.businessObject, v.proposal.objectId⟩

@[simp] theorem withState_object (v : Reviewed) (state : ProposalState) : (v.withState state).object = v.object := rfl

/-- The object of a proposal that is active. -/
def Store.activeObject (s : Store) (id : String) : Option ProposalObject :=
  ((s.reviewed id).filter fun v => ProposalState.active v.state).map Reviewed.object

theorem activeObject_eq_some {s : Store} {id : String} {object : ProposalObject} :
    s.activeObject id = some object ↔
      ∃ v, s.reviewed id = some v ∧ ProposalState.active v.state = true ∧ v.object = object := by
  simp [Store.activeObject, Option.map_eq_some_iff, Option.filter_eq_some_iff, and_assoc]

theorem activeObject_congr {s s' : Store} {id : String} (same : s'.reviewed id = s.reviewed id) :
    s'.activeObject id = s.activeObject id := by
  rw [Store.activeObject, Store.activeObject, same]

theorem activeObject_of_reviewed {s : Store} {id : String} {v : Reviewed} (found : s.reviewed id = some v) :
    s.activeObject id = if ProposalState.active v.state then some v.object else none := by
  rw [Store.activeObject, found]
  cases active : ProposalState.active v.state <;> simp [Option.filter, active]

/-- Each object has at most one active proposal. -/
def OneActive (s : Store) : Prop :=
  ∀ id id' object, s.activeObject id = some object → s.activeObject id' = some object → id = id'

theorem oneActive_empty : OneActive .empty := by
  intro id id' object active
  simp [activeObject_eq_some, Store.reviewed, Store.getProposal, Store.empty] at active

/-! ### Activations -/

/-- The failed proposal that a claim takes. -/
def ClaimInput.retries (input : ClaimInput) (s : Store) : Option (String × ProposalRow) :=
  if input.atCapacity s || input.rateLimited s then none
  else match input.candidate s with
    | none => none
    | some (proposalId, _, proposal) =>
      if input.expired proposal then none
      else if input.policyExecution.any fun policy => workerPolicyLimitTrips s proposal policy input.now then none
      else if proposal.state = .failed then some (proposalId, proposal)
      else none

/-- The proposal that a write of a state activates, with its object. -/
def activatedBy (s : Store) : Option (String × ProposalState) → Option (String × ProposalObject)
  | some (proposalId, state) =>
    if ProposalState.active state then (s.reviewed proposalId).map fun v => (proposalId, v.object) else none
  | none => none

/-- The proposal that a transaction creates as active or writes an active state to
    without looking for another one, with its object. -/
def Transaction.activates (s : Store) (t : Transaction) : Option (String × ProposalObject) :=
  match t with
  | .create row =>
    if s.getProposal row.proposalId = none ∧ ProposalState.active row.state then some (row.proposalId, row.reviewed.object)
    else none
  | .claim input => (input.retries s).map fun (proposalId, row) => (proposalId, row.reviewed.object)
  | t => activatedBy s (t.blindWrite s)

/-- A transaction activates no proposal of an object that has another active one. -/
def NoSecond (s : Store) (t : Transaction) : Prop :=
  ∀ id object, t.activates s = some (id, object) → ∀ other, s.activeObject other = some object → other = id

/-- What a transaction that goes through does to the active proposals: it activates
    one, or none. -/
inductive Activation (s : Store) (t : Transaction) (s' : Store) : Prop where
  | none (none : t.activates s = none)
      (fewer : ∀ id object, s'.activeObject id = some object → s.activeObject id = some object)
  | one (id : String) (object : ProposalObject) (one : t.activates s = some (id, object))
      (others : ∀ other, s'.activeObject other = if other = id then some object else s.activeObject other)

/-- A store with one active proposal for each object stays so exactly if the
    transaction activates no second one. -/
theorem Activation.oneActive_iff {s s' : Store} {t : Transaction} (activation : Activation s t s') (single : OneActive s) :
    OneActive s' ↔ NoSecond s t := by
  cases activation with
  | none none fewer =>
    constructor
    · intro _ id object activated
      rw [none] at activated
      cases activated
    · intro _ id id' object here there
      exact single id id' object (fewer id object here) (fewer id' object there)
  | one id object one others =>
    constructor
    · intro after id₁ object₁ activated other active
      obtain ⟨rfl, rfl⟩ := Prod.mk.inj (Option.some.inj (one.symm.trans activated))
      refine after other id object ?_ (by rw [others, if_pos rfl])
      rw [others]
      split
      · rfl
      · exact active
    · intro noSecond id₁ id₂ object' here there
      rw [others] at here there
      split at here <;> split at there
      · rename_i same same'
        rw [same, same']
      · rename_i same apart
        cases here
        exact absurd (noSecond id object one id₂ there) apart
      · rename_i apart same
        cases there
        exact absurd (noSecond id object one id₁ here) apart
      · exact single id₁ id₂ object' here there

/-! ### Each transaction -/

/-- A write of the state of a proposal, seen by the active ones. -/
theorem Writes.activeObject {s s' : Store} {id : String} {state : ProposalState} {v : Reviewed}
    (writes : Writes s s' id state) (found : s.reviewed id = some v) (other : String) :
    s'.activeObject other =
      if other = id then (if ProposalState.active state then some v.object else none) else s.activeObject other := by
  split
  · rename_i same
    subst same
    have after : s'.reviewed other = some (v.withState state) := by rw [writes, if_pos rfl, found, Option.map_some]
    rw [activeObject_of_reviewed after, withState_state, withState_object]
  · rename_i apart
    exact activeObject_congr (writes.of_ne apart)

theorem Writes.absent {s s' : Store} {id : String} {state : ProposalState} (writes : Writes s s' id state)
    (absent : s.reviewed id = none) (other : String) : s'.reviewed other = s.reviewed other := by
  rw [writes]
  split
  · rename_i same
    rw [same, absent, Option.map_none]
  · rfl

/-- A transaction that activates no proposal and writes a state to one that is no
    more active than before. -/
theorem Activation.of_writes {s s' : Store} {t : Transaction} {id : String} {state : ProposalState} {v : Reviewed}
    (none : t.activates s = .none) (writes : Writes s s' id state) (found : s.reviewed id = some v)
    (kept : ProposalState.active state = true → ProposalState.active v.state = true) : Activation s t s' := by
  refine .none none fun other object after => ?_
  rw [writes.activeObject found] at after
  split at after
  · rename_i same
    subst same
    split at after
    · rename_i active
      rw [activeObject_of_reviewed found, kept active]
      exact after
    · cases after
  · exact after

theorem Activation.of_reviewed {s s' : Store} {t : Transaction} (none : t.activates s = .none)
    (same : ∀ id, s'.reviewed id = s.reviewed id) : Activation s t s' :=
  .none none fun id object after => by rwa [activeObject_congr (same id)] at after

theorem create_activation {s s' : Store} {row : ProposalRow} (committed : createTransaction s row = .ok s') :
    Activation s (.create row) s' := by
  obtain ⟨_, fresh, rest⟩ := bind_eq_ok committed
  cases rest
  have absent : s.getProposal row.proposalId = none := by simpa using ensure_ok_iff.mp fresh
  have after : ∀ id, ({ s with proposals := s.proposals.set row.proposalId row } : Store).reviewed id =
      if id = row.proposalId then some row.reviewed else s.reviewed id := by
    intro id
    simp only [Store.reviewed, Store.getProposal, KeyedMap.get?_set]
    split <;> rfl
  by_cases active : ProposalState.active row.state
  · refine .one row.proposalId row.reviewed.object (by simp [Transaction.activates, absent, active]) fun other => ?_
    split
    · rename_i same
      have stored : ({ s with proposals := s.proposals.set row.proposalId row } : Store).reviewed other =
          some row.reviewed := by rw [after, if_pos same]
      exact activeObject_eq_some.mpr ⟨_, stored, active, rfl⟩
    · rename_i apart
      exact activeObject_congr (by rw [after, if_neg apart])
  · refine .none (by simp [Transaction.activates, active]) fun other object here => ?_
    by_cases same : other = row.proposalId
    · obtain ⟨v, stored, activated, _⟩ := activeObject_eq_some.mp here
      rw [after, if_pos same, Option.some.injEq] at stored
      subst stored
      exact absurd activated active
    · exact (activeObject_congr ((after other).trans (if_neg same))).symm.trans here

theorem leaseItem_reviewed {runtime : StoreRuntime} {s : Store} {input : ClaimInput} {proposalId : String}
    {row : ProposalRow} (other : row.state ≠ .failed) (id : String) :
    (leaseItem runtime s input proposalId row).reviewed id = s.reviewed id := by
  unfold leaseItem
  dsimp only
  rw [if_neg other]
  rfl

theorem claim_quiet (runtime : StoreRuntime) {s : Store} {input : ClaimInput} (quiet : input.retries s = none) (id : String) :
    (claimTransaction runtime s input).reviewed id = s.reviewed id := by
  by_cases full : (input.atCapacity s || input.rateLimited s) = true
  · rw [claimTransaction, if_pos full]
  cases selected : input.candidate s with
  | none => simp only [claimTransaction, if_neg full, selected]
  | some found =>
    obtain ⟨proposalId, item, proposal⟩ := found
    simp only [ClaimInput.retries, if_neg full, selected] at quiet
    simp only [claimTransaction, if_neg full, selected]
    by_cases expired : input.expired proposal = true
    · rw [if_pos expired]
      rfl
    rw [if_neg expired] at quiet ⊢
    by_cases trips : (input.policyExecution.any fun policy => workerPolicyLimitTrips s proposal policy input.now) = true
    · rw [if_pos trips]
      rfl
    rw [if_neg trips] at quiet ⊢
    refine leaseItem_reviewed (fun failed => ?_) id
    rw [if_pos failed] at quiet
    cases quiet

/-- A claim that retries takes a failed proposal to its worker. -/
theorem claim_writes (runtime : StoreRuntime) {s : Store} {input : ClaimInput} {proposalId : String} {row : ProposalRow}
    (retries : input.retries s = some (proposalId, row)) :
    s.getProposal proposalId = some row ∧ Writes s (claimTransaction runtime s input) proposalId .pendingWorker := by
  by_cases full : (input.atCapacity s || input.rateLimited s) = true
  · rw [ClaimInput.retries, if_pos full] at retries
    cases retries
  cases selected : input.candidate s with
  | none =>
    simp only [ClaimInput.retries, if_neg full, selected] at retries
    cases retries
  | some found =>
    obtain ⟨id, item, proposal⟩ := found
    simp only [ClaimInput.retries, if_neg full, selected] at retries
    simp only [claimTransaction, if_neg full, selected]
    by_cases expired : input.expired proposal = true
    · rw [if_pos expired] at retries
      cases retries
    rw [if_neg expired] at retries ⊢
    by_cases trips : (input.policyExecution.any fun policy => workerPolicyLimitTrips s proposal policy input.now) = true
    · rw [if_pos trips] at retries
      cases retries
    rw [if_neg trips] at retries ⊢
    by_cases failed : proposal.state = .failed
    · rw [if_pos failed] at retries
      cases retries
      refine ⟨(candidate_mem selected).2, ?_⟩
      unfold leaseItem
      dsimp only
      rw [if_pos failed]
      exact (writes_writeState _ _ _ _).congr rfl rfl
    · rw [if_neg failed] at retries
      cases retries

theorem claim_activation (runtime : StoreRuntime) (s : Store) (input : ClaimInput) :
    Activation s (.claim input) (claimTransaction runtime s input) := by
  cases retries : input.retries s with
  | none => exact .of_reviewed (by simp [Transaction.activates, retries]) (claim_quiet runtime retries)
  | some retried =>
    obtain ⟨proposalId, row⟩ := retried
    obtain ⟨found, writes⟩ := claim_writes runtime retries
    refine .one proposalId row.reviewed.object (by simp [Transaction.activates, retries]) fun other => ?_
    rw [writes.activeObject (by rw [Store.reviewed, found]; rfl)]
    rfl

theorem freshness_activation {s s' : Store} {proof : FreshnessProof} {now : Nat}
    (committed : freshnessTransaction s proof now = .ok s') : Activation s (.freshness proof now) s' := by
  unfold freshnessTransaction at committed
  dsimp only at committed
  split at committed
  · obtain ⟨current, required, rest⟩ := bind_eq_ok committed
    have found := reviewed_of_requireProposal required
    split at rest
    · cases rest
      exact .of_writes rfl ((writes_writeState _ _ _ _).congr rfl rfl) found (fun active => by cases active)
    · cases rest
      exact .of_reviewed rfl fun _ => rfl
  · cases committed
    exact .of_reviewed rfl fun _ => rfl

theorem cloudGovernance_activation {s s' : Store} {proposalId state : String} {now : Nat}
    (committed : recordCloudGovernanceEvent s proposalId state now = .ok s') :
    Activation s (.cloudGovernance proposalId state now) s' := by
  cases cloudGovernance_step committed with
  | quiet blind proposals approvals queue => exact .of_reviewed rfl proposals
  | created row is | recorded input is | approved input is | byPolicy input is => cases is
  | blindly id state is => cases is
  | looked blind id state' v found move writes approvals queue =>
    refine .none rfl fun other object after => ?_
    obtain ⟨row, required, rest⟩ := bind_eq_ok committed
    split at rest
    · cases rest; exact after
    · rename_i localState projected
      cases rest
      obtain ⟨w, present, active, rfl⟩ := activeObject_eq_some.mp after
      rw [Store.reviewed, Store.getProposal_updateProposal] at present
      split at present
      · rename_i same
        subst same
        rw [Store.requireProposal_ok_iff.mp required, Option.map_some, Option.map_some, Option.some.injEq] at present
        subst present
        split at active
        · rename_i before
          exact absurd active (by simp [ProposalRow.reviewed, Reviewed.state, localState_closed projected])
        · rename_i before
          exact absurd active before
      · exact activeObject_eq_some.mpr ⟨w, present, active, rfl⟩

theorem activates_of_blindWrite {s : Store} {t : Transaction} {id : String} {state : ProposalState}
    (is : t.blindWrite s = some (id, state)) :
    t.activates s = if ProposalState.active state then (s.reviewed id).map fun v => (id, v.object) else none := by
  cases t with
  | create | claim => cases is
  | _ => exact congrArg (activatedBy s) is

/-- A transaction that writes without looking. -/
theorem blind_activation {s s' : Store} {t : Transaction} {id : String} {state : ProposalState}
    (is : t.blindWrite s = some (id, state)) (writes : Writes s s' id state) : Activation s t s' := by
  have activates := activates_of_blindWrite is
  cases found : s.reviewed id with
  | none => exact .of_reviewed (by simp [activates, found]) (writes.absent found)
  | some v =>
    by_cases active : ProposalState.active state
    · refine .one id v.object (by simp [activates, found, active]) fun other => ?_
      rw [writes.activeObject found, active]
      rfl
    · exact .of_writes (by simp [activates, active]) writes found fun activated => absurd activated active

theorem writes_of_blindWrite {runtime : StoreRuntime} {s s' : Store} {t : Transaction} {id : String} {state : ProposalState}
    (committed : commit runtime s t = .ok s') (is : t.blindWrite s = some (id, state)) : Writes s s' id state := by
  cases commit_step committed with
  | quiet blind => rw [blind] at is; cases is
  | looked blind => rw [blind] at is; cases is
  | created row same | recorded input same | approved input same | byPolicy input same => subst same; cases is
  | blindly id' state' is' writes =>
    rw [is'] at is
    cases is
    exact writes

theorem approve_activation {runtime : StoreRuntime} {s s' : Store} {input : ApproveInput}
    (committed : approveTransaction runtime s input = .ok s') : Activation s (.approve input) s' := by
  obtain ⟨current, required, rest⟩ := bind_eq_ok committed
  obtain ⟨_, state, rest⟩ := bind_eq_ok rest
  obtain ⟨_, _, rest⟩ := bind_eq_ok rest
  obtain ⟨_, _, rest⟩ := bind_eq_ok rest
  have pending : current.reviewed.state = .pendingReview := ensure_ok_iff.mp state
  dsimp only at rest
  split at rest
  · cases rest
    exact .of_writes rfl ((writes_writeState _ _ _ _).congr rfl rfl) (reviewed_of_requireProposal required)
      fun _ => by rw [pending]; rfl
  · cases rest
    exact .of_reviewed rfl fun _ => rfl

theorem approveByPolicy_activation {runtime : StoreRuntime} {s s' : Store} {input : PolicyInput}
    (committed : approveByPolicyTransaction runtime s input = .ok s') : Activation s (.approveByPolicy input) s' := by
  obtain ⟨proposal, required, rest⟩ := bind_eq_ok committed
  obtain ⟨_, _, rest⟩ := bind_eq_ok rest
  obtain ⟨_, _, rest⟩ := bind_eq_ok rest
  obtain ⟨_, state, rest⟩ := bind_eq_ok rest
  have pending : proposal.reviewed.state = .pendingReview := ensure_ok_iff.mp state
  split at rest
  · cases rest
    exact .of_reviewed rfl fun _ => rfl
  · split at rest
    · cases rest
      exact .of_reviewed rfl fun _ => rfl
    · obtain ⟨_, _, rest⟩ := bind_eq_ok rest
      cases rest
      exact .of_writes rfl ((writes_writeState _ _ _ _).congr rfl rfl) (reviewed_of_requireProposal required)
        fun _ => by rw [pending]; rfl

theorem enqueue_proposals {s s' : Store} {input : EnqueueInput} {proposal : ProposalRow}
    (committed : enqueueTransaction s input proposal = .ok s') : s'.proposals = s.proposals := by
  unfold enqueueTransaction at committed
  dsimp only at committed
  split at committed <;> obtain ⟨_, _, rest⟩ := bind_eq_ok committed <;> cases rest <;> rfl

/-- What a transaction that goes through does to the active proposals. -/
theorem commit_activation {runtime : StoreRuntime} {s s' : Store} {t : Transaction} (committed : commit runtime s t = .ok s') :
    Activation s t s' := by
  cases blind : t.blindWrite s with
  | some write => exact blind_activation blind (writes_of_blindWrite committed blind)
  | none =>
    cases t with
    | create row => exact create_activation committed
    | claim input => cases committed; exact claim_activation runtime s input
    | freshness proof now => exact freshness_activation committed
    | cloudGovernance id state now => exact cloudGovernance_activation committed
    | approve input => exact approve_activation committed
    | approveByPolicy input => exact approveByPolicy_activation committed
    | reject | setPendingWorker | receipt => cases blind
    | nothing | enqueueApproved => cases committed; exact .of_reviewed rfl fun _ => rfl
    | enqueue input proposal => exact .of_reviewed rfl (reviewed_congr (enqueue_proposals committed))
    | createJob id read now =>
      have other : read ≠ .approved := by
        intro approved
        simp [Transaction.blindWrite, approved] at blind
      cases committed
      refine .of_reviewed (congrArg (activatedBy s) blind) fun _ => ?_
      rw [createJobTransaction, if_neg other]
    | cancel input read =>
      obtain ⟨item, required, rest⟩ := bind_eq_ok committed
      obtain ⟨_, cancellable, rest⟩ := bind_eq_ok rest
      have found := requireWorkerQueueItem_ok required
      split at rest
      · rename_i reads
        simp [Transaction.blindWrite, reads, found, ensure_ok_iff.mp cancellable] at blind
      · cases rest
        exact .of_reviewed (congrArg (activatedBy s) blind) fun _ => rfl
    | requeue input retryBudget read =>
      obtain ⟨item, required, rest⟩ := bind_eq_ok committed
      obtain ⟨_, dead, rest⟩ := bind_eq_ok rest
      obtain ⟨_, unapplied, rest⟩ := bind_eq_ok rest
      have found := requireWorkerQueueItem_ok required
      split at rest
      · rename_i reads
        rw [Transaction.blindWrite, if_pos ⟨reads, ⟨item, found, ensure_ok_iff.mp dead⟩, ensure_ok_iff.mp unapplied⟩] at blind
        cases blind
      · cases rest
        exact .of_reviewed (congrArg (activatedBy s) blind) fun _ => rfl
    | reconcile input reconciled mutated now =>
      obtain ⟨intent, required, rest⟩ := bind_eq_ok committed
      obtain ⟨_, status, rest⟩ := bind_eq_ok rest
      rw [Transaction.blindWrite,
        if_pos ⟨intent, SqliteLedger.requireWritebackIntent_ok required, ensure_ok_iff.mp status⟩] at blind
      cases blind
    | discard input =>
      obtain ⟨_, _, rest⟩ := bind_eq_ok committed
      obtain ⟨_, _, rest⟩ := bind_eq_ok rest
      cases rest
      exact .of_reviewed rfl fun _ => rfl
    | onLease | claimIntent | markApplying | completeIntent | requireReconciliation =>
      obtain ⟨_, _, rest⟩ := bind_eq_ok committed
      cases rest
      exact .of_reviewed rfl fun _ => rfl

/-- A transaction that would activate a proposal goes through. -/
theorem commit_of_activates (runtime : StoreRuntime) {s : Store} {t : Transaction} {activated : String × ProposalObject}
    (activates : t.activates s = some activated) : ∃ s', commit runtime s t = .ok s' := by
  cases blind : t.blindWrite s with
  | some write => exact commit_of_blindWrite runtime blind
  | none =>
    cases t with
    | create row =>
      have absent : s.getProposal row.proposalId = none := by
        by_contra present
        simp [Transaction.activates, present] at activates
      exact ⟨_, by simp only [commit, createTransaction, absent]; rfl⟩
    | claim => exact ⟨_, rfl⟩
    | _ =>
      have idle : some activated = none := activates.symm.trans (congrArg (activatedBy s) blind)
      cases idle

theorem committed_oneActive_iff (runtime : StoreRuntime) {s : Store} {t : Transaction} (single : OneActive s) :
    OneActive (committed runtime s t) ↔ NoSecond s t := by
  unfold committed
  cases outcome : commit runtime s t with
  | ok s' => exact (commit_activation outcome).oneActive_iff single
  | error e =>
    refine ⟨fun _ id object activates => ?_, fun _ => single⟩
    obtain ⟨s', goes⟩ := commit_of_activates runtime activates
    rw [outcome] at goes
    cases goes

/-! ### Runs -/

section
variable {ι : Type} [DecidableEq ι]

/-- A step of processes that share the database that activates no second proposal
    of an object. -/
def NoSecondActive (w : World ι) : WorldEvent ι → Prop
  | .prepare _ _ => True
  | .commit process => ∀ t ∈ w.prepared process, NoSecond w.store t

theorem step_oneActive_iff (runtime : StoreRuntime) {w : World ι} (e : WorldEvent ι) (single : OneActive w.store) :
    OneActive (World.step runtime w e).store ↔ NoSecondActive w e := by
  cases e with
  | prepare process operation =>
    simp only [World.step]
    split <;> exact ⟨fun _ => trivial, fun _ => single⟩
  | commit process =>
    simp only [World.step]
    split
    · rename_i t prepared
      simp only [NoSecondActive, prepared, Option.mem_def, Option.some.injEq, forall_eq']
      exact committed_oneActive_iff runtime single
    · rename_i idle
      simp only [NoSecondActive, idle]
      exact ⟨fun _ _ member => (Option.not_mem_none _ member).elim, fun _ => single⟩

theorem findActiveProposal_isSome {s : Store} {created : ProposalRow} {id : String}
    (active : s.activeObject id = some created.reviewed.object) : (s.findActiveProposal created).isSome := by
  obtain ⟨v, found, activated, object⟩ := activeObject_eq_some.mp active
  obtain ⟨row, stored, rfl⟩ := Option.map_eq_some_iff.mp found
  rw [Store.findActiveProposal, List.find?_isSome]
  refine ⟨row, KeyedMap.mem_values_of_get? stored, ?_⟩
  simp only [Reviewed.object, ProposalRow.reviewed, ProposalObject.mk.injEq] at object
  simp only [Bool.and_eq_true, decide_eq_true_eq]
  exact ⟨object, activated⟩

/-- A creation whose transaction follows its reads at once activates no second
    proposal. -/
theorem create_undisturbed {runtime : StoreRuntime} {s : Store} {created : ProposalRow} {t : Transaction}
    (prepared : prepare runtime s (.createProposal created) = .ok t) : NoSecond s t := by
  obtain ⟨row?, read, rest⟩ := bind_eq_ok prepared
  intro id object activates other active
  cases row? with
  | none =>
    cases rest
    cases activates
  | some row =>
    cases rest
    have absent : s.findActiveProposal created = none ∧ row.reviewed.object = created.reviewed.object := by
      unfold prepareCreate at read
      split at read
      · split at read <;> cases read
      · split at read
        · cases read
        · rename_i free
          cases read
          exact ⟨free, rfl⟩
    simp only [Transaction.activates, Option.ite_none_right_eq_some, Option.some.injEq, Prod.mk.injEq] at activates
    rw [← activates.2.2, absent.2] at active
    have found := findActiveProposal_isSome active
    rw [absent.1] at found
    cases found

end

/-! ### Two active proposals -/

/-- The second proposal to close the ticket of `closeTicketRow`. -/
def closeTicketAgain : ProposalRow :=
  { closeTicketRow with
    proposalId := "prop_2", proposalHash := "sha256:bb"
    changeSet := { closeTicketRow.changeSet with proposalId := "prop_2" } }

/-- Two processes look for an active proposal before either inserts its own. -/
def createdAtOnce : List (WorldEvent Bool) :=
  [.prepare false (.createProposal closeTicketRow), .prepare true (.createProposal closeTicketAgain),
    .commit false, .commit true]

def requeueOperator : OperatorProof :=
  { provider := .signedKey, verified := true, subject := "ana"
    decision := ⟨"worker_requeue", "prop_1", 1, "sha256:aa", "ana"⟩, decisionHash := "sha256:cc"
    integrityHash := "sha256:dd", roles := [] }

def closeTicketLease : Lease := ⟨"prop_1", "worker_1", some "wlease_00"⟩

/-- A claim of any item. -/
def claimAny (now : Nat) : ClaimInput :=
  { workerId := "worker_1", leaseSeconds := none, executionMode := none, capability := none, tenant := none
    contractDigest := none, maxConcurrent := none, rateLimit := none, proposalTtlSeconds := none
    policyExecution := none, now }

/-- The write of the first proposal fails for good, the second one is created, and
    an operator requeues the first. -/
def failedAndRequeued : List (WorldEvent Bool) :=
  undisturbed false (.createProposal closeTicketRow) ++ undisturbed false (.approveProposal closeTicketApproval) ++
  undisturbed false (.enqueueWorkerProposal ⟨"prop_1", none, none, none, none, 2⟩) ++
  undisturbed false (.claimWorkerItem (claimAny 3)) ++
  undisturbed false (.recordExecutionReceipt (closeTicketReceipt .failed) 4) ++
  undisturbed false (.onLease closeTicketLease (.deadLetter "WRITE_FAILED") 5) ++
  undisturbed false (.createProposal closeTicketAgain) ++
  undisturbed false (.requeueDeadLetter ⟨"prop_1", ⟨"ana", some requeueOperator, true⟩, 7⟩ 3)

def storeAfter (events : List (WorldEvent Bool)) : Store := (run (World.step constantStoreRuntime) emptyWorld events).store

theorem not_oneActive {s : Store} (both : s.activeObject "prop_1" = some closeTicketRow.reviewed.object ∧
    s.activeObject "prop_2" = some closeTicketRow.reviewed.object) : ¬ OneActive s := by
  intro single
  exact absurd (single _ _ _ both.1 both.2) (by decide)

end SynapsorRunner.ProposalStore
