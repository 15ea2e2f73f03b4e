import SynapsorRunner.ProposalRuns

/-!
Runs of the worker queue with the leases that it has granted beside it. With a clock that
does not go back, an item has one unexpired lease at most, an item is completed or failed
under its current lease only, and a finished item stays as it is. A claim from the queue
or from a scheduled retry stays within the attempts of the item (`queue_safe`).

A lease that has expired and that nobody has claimed since still completes its item, and a
claim that takes over an expired lease is not held back by the attempts.
-/
namespace SynapsorRunner.LeaseRuns
open SynapsorRunner.Protocol SynapsorRunner.Proposals SynapsorRunner.Intents SynapsorRunner.ProposalStore SynapsorRunner.Runs

/-! ### The rows of the queue -/

theorem workerQueueItem_updateItem (s : Store) (id id' : String) (f : WorkerQueueItem → WorkerQueueItem) :
    (s.updateItem id f).workerQueueItem id' = if id' = id then (s.workerQueueItem id).map f else s.workerQueueItem id' :=
  KeyedMap.get?_modify ..

theorem workerQueueItem_congr {s s' : Store} (same : s'.workerQueue = s.workerQueue) (id : String) :
    s'.workerQueueItem id = s.workerQueueItem id := by
  simp only [Store.workerQueueItem, same]

/-- What a claim leases: the item that it selects, unless it is held back or blocks the
    item. -/
def ClaimInput.leases (input : ClaimInput) (s : Store) : Option (String × WorkerQueueItem × ProposalRow) :=
  if input.atCapacity s || input.rateLimited s then none
  else (input.candidate s).filter fun (_, _, proposal) =>
    !(input.expired proposal || input.policyExecution.any fun policy => workerPolicyLimitTrips s proposal policy input.now)

/-- What a claim does. -/
inductive ClaimStep (runtime : StoreRuntime) (s : Store) (input : ClaimInput) (s' : Store) : Prop where
  | held (none : ClaimInput.leases input s = none) (same : s' = s)
  | blocked (id : String) (item : WorkerQueueItem) (row : ProposalRow) (found : input.candidate s = some (id, item, row))
      (none : ClaimInput.leases input s = none) (code : String) (is : s' = blockQueuedWorkerItem s id code input.now)
  | leased (id : String) (item : WorkerQueueItem) (row : ProposalRow) (found : input.candidate s = some (id, item, row))
      (leases : ClaimInput.leases input s = some (id, item, row)) (is : s' = leaseItem runtime s input id row)

theorem claimStep (runtime : StoreRuntime) (s : Store) (input : ClaimInput) :
    ClaimStep runtime s input (claimTransaction runtime s input) := by
  unfold claimTransaction
  by_cases full : (input.atCapacity s || input.rateLimited s) = true
  · rw [if_pos full]
    exact .held (by rw [ClaimInput.leases, if_pos full]) rfl
  rw [if_neg full]
  cases selected : input.candidate s with
  | none => exact .held (by rw [ClaimInput.leases, if_neg full, selected]; rfl) rfl
  | some chosen =>
    obtain ⟨id, item, row⟩ := chosen
    dsimp only
    by_cases late : input.expired row = true
    · rw [if_pos late]
      exact .blocked id item row selected (by rw [ClaimInput.leases, if_neg full, selected]; simp [late]) _ rfl
    rw [if_neg late]
    by_cases tripped : (input.policyExecution.any fun policy => workerPolicyLimitTrips s row policy input.now) = true
    · rw [if_pos tripped]
      exact .blocked id item row selected (by rw [ClaimInput.leases, if_neg full, selected]; simp [tripped]) _ rfl
    · rw [if_neg tripped]
      rw [Bool.not_eq_true] at late tripped
      exact .leased id item row selected (by rw [ClaimInput.leases, if_neg full, selected]; simp [late, tripped]) rfl

/-- The selected item is the row of the queue, and it is due. -/
theorem candidate_row {input : ClaimInput} {s : Store} {id : String} {item : WorkerQueueItem} {row : ProposalRow}
    (found : input.candidate s = some (id, item, row)) :
    s.workerQueueItem id = some item ∧ item.due input.now = true ∧ s.getProposal id = some row := by
  have sorted := List.mem_of_mem_head? found
  rw [List.mem_insertionSort, List.mem_filter] at sorted
  obtain ⟨listed, due⟩ := sorted
  obtain ⟨⟨id', item'⟩, entry, paired⟩ := List.mem_filterMap.mp listed
  obtain ⟨row', found', same⟩ := Option.map_eq_some_iff.mp paired
  cases same
  simp only [Bool.and_eq_true] at due
  exact ⟨KeyedMap.get?_eq_some.mpr entry, due.1.1, found'⟩

/-- A leased item that is due has an expired lease. -/
theorem due_expired {item : WorkerQueueItem} {now expires : ℕ} (due : item.due now = true) (leased : item.status = .leased)
    (ends : item.leaseExpiresAt = some expires) : expires ≤ now := by
  simp only [WorkerQueueItem.due, leased, ends, Bool.or_eq_true, Bool.and_eq_true, decide_eq_true_eq] at due
  rcases due with ⟨waits, _⟩ | ⟨_, expired⟩
  · simp at waits
  · simpa using expired

theorem due_status {item : WorkerQueueItem} {now : ℕ} (due : item.due now = true) :
    item.status = .queued ∨ item.status = .retryWait ∨ item.status = .leased := by
  simp only [WorkerQueueItem.due, Bool.or_eq_true, Bool.and_eq_true, decide_eq_true_eq] at due
  rcases due with ⟨queued | waits, _⟩ | ⟨leased, _⟩
  · exact .inl queued
  · exact .inr (.inl waits)
  · exact .inr (.inr leased)

theorem assertWorkerLease_ok {s : Store} {lease : Lease} {item : WorkerQueueItem}
    (held : assertWorkerLease s lease = .ok item) :
    s.workerQueueItem lease.proposalId = some item ∧ item.status = .leased ∧ item.leaseOwner = some lease.workerId ∧
      item.leaseId = lease.leaseId := by
  obtain ⟨_, _, rest⟩ := bind_eq_ok held
  obtain ⟨row, required, rest⟩ := bind_eq_ok rest
  obtain ⟨_, owned, rest⟩ := bind_eq_ok rest
  cases rest
  exact ⟨requireWorkerQueueItem_ok required, ensure_ok_iff.mp owned⟩

theorem heldItem_ok {s : Store} {lease : Lease} {action : LeaseAction} {now : ℕ} {item : WorkerQueueItem}
    (held : action.heldItem s lease now = .ok item) : assertWorkerLease s lease = .ok item := by
  cases action with
  | renew leaseSeconds =>
    obtain ⟨row, owned, rest⟩ := bind_eq_ok held
    obtain ⟨_, _, rest⟩ := bind_eq_ok rest
    cases rest
    exact owned
  | complete outcome => exact held
  | retry errorCode retryAt => exact held
  | deadLetter errorCode => exact held
  | block errorCode => exact held
  | requireReconciliation errorCode => exact held

theorem leaseTransaction_ok {s s' : Store} {lease : Lease} {action : LeaseAction} {now : ℕ}
    (committed : leaseTransaction s lease action now = .ok s') :
    ∃ item, s.workerQueueItem lease.proposalId = some item ∧ item.status = .leased ∧
      item.leaseOwner = some lease.workerId ∧ item.leaseId = lease.leaseId ∧
      s' = s.updateItem lease.proposalId (action.applyTo now) := by
  obtain ⟨item, held, rest⟩ := bind_eq_ok committed
  cases rest
  obtain ⟨row, leased, owner, id⟩ := assertWorkerLease_ok (heldItem_ok held)
  exact ⟨item, row, leased, owner, id, rfl⟩

/-- The transactions that write rows of the queue. -/
def queues : Transaction → Bool
  | .enqueue .. | .enqueueApproved .. | .claim .. | .onLease .. | .cancel .. | .requeue .. | .discard .. | .reconcile .. => true
  | _ => false

theorem queue_unchanged {runtime : StoreRuntime} {s s' : Store} {t : Transaction} (apart : queues t = false)
    (committed : commit runtime s t = .ok s') : s'.workerQueue = s.workerQueue := by
  cases t with
  | nothing => cases committed; rfl
  | create row =>
    obtain ⟨_, _, rest⟩ := bind_eq_ok committed
    cases rest
    rfl
  | freshness proof now =>
    unfold commit freshnessTransaction at committed
    dsimp only at committed
    split at committed
    · obtain ⟨current, _, rest⟩ := bind_eq_ok committed
      split at rest <;> cases rest <;> rfl
    · cases committed
      rfl
  | approve input =>
    obtain ⟨current, _, rest⟩ := bind_eq_ok committed
    obtain ⟨_, _, rest⟩ := bind_eq_ok rest
    obtain ⟨_, _, rest⟩ := bind_eq_ok rest
    obtain ⟨_, _, rest⟩ := bind_eq_ok rest
    dsimp only at rest
    split at rest <;> cases rest <;> rfl
  | approveByPolicy input =>
    obtain ⟨proposal, _, rest⟩ := bind_eq_ok committed
    obtain ⟨_, _, rest⟩ := bind_eq_ok rest
    obtain ⟨_, _, rest⟩ := bind_eq_ok rest
    obtain ⟨_, _, rest⟩ := bind_eq_ok rest
    split at rest
    · cases rest
      rfl
    split at rest
    · cases rest
      rfl
    · obtain ⟨_, _, rest⟩ := bind_eq_ok rest
      cases rest
      rfl
  | reject input => cases committed; rfl
  | setPendingWorker proposalId now => cases committed; rfl
  | createJob proposalId read now =>
    cases committed
    unfold createJobTransaction
    split <;> rfl
  | receipt receipt mutated now => cases committed; rfl
  | cloudGovernance proposalId state now =>
    obtain ⟨row, _, rest⟩ := bind_eq_ok committed
    split at rest
    · cases rest
      rfl
    · cases rest
      rfl
  | claimIntent job runnerId =>
    obtain ⟨_, _, rest⟩ := bind_eq_ok committed
    cases rest
    rfl
  | markApplying intentId runnerId =>
    obtain ⟨_, _, rest⟩ := bind_eq_ok committed
    cases rest
    rfl
  | completeIntent intentId result =>
    obtain ⟨_, _, rest⟩ := bind_eq_ok committed
    cases rest
    rfl
  | requireReconciliation intentId reason =>
    obtain ⟨_, _, rest⟩ := bind_eq_ok committed
    cases rest
    rfl
  | enqueue | enqueueApproved | claim | onLease | cancel | requeue | discard | reconcile => cases apart

/-! ### Granted leases -/

/-- A lease that was granted, with the time that it lasts to. -/
structure Grant where
  lease : Lease
  expiresAt : ℕ
  deriving DecidableEq, Repr

/-- The lease of a claim. -/
def grantOf (runtime : StoreRuntime) (input : ClaimInput) (id : String) (item : WorkerQueueItem) : Grant :=
  ⟨⟨id, input.workerId, some (runtime.workerLeaseId id input.workerId (item.attempts + 1) input.now)⟩,
    input.now + clampedLease input.leaseSeconds * 1000⟩

/-- The store, the latest time of the queue, the leases granted and not given back, and
    the claims of each item since it was last put in the queue. -/
structure Monitor where
  store : Store
  clock : ℕ
  held : List Grant
  claims : List String

def Monitor.start : Monitor := ⟨.empty, 0, [], []⟩

/-- An action that finishes or fails the item, so that the lease is given back. -/
def ends : LeaseAction → Bool
  | .renew _ => false
  | _ => true

def Monitor.heldAfter (runtime : StoreRuntime) (m : Monitor) : Transaction → List Grant
  | .claim input => match ClaimInput.leases input m.store with
    | some (id, item, _) =>
      m.held.filter (fun g => decide (g.lease ≠ (grantOf runtime input id item).lease)) ++ [grantOf runtime input id item]
    | none => m.held
  | .onLease lease (.renew leaseSeconds) now =>
    m.held.map fun g => if g.lease = lease then ⟨lease, now + clampedLease leaseSeconds * 1000⟩ else g
  | .onLease lease _ _ => m.held.filter fun g => decide (g.lease ≠ lease)
  | _ => m.held

def Monitor.claimsAfter (m : Monitor) : Transaction → List String
  | .claim input => match ClaimInput.leases input m.store with
    | some (id, _, _) => id :: m.claims
    | none => m.claims
  | .requeue input _ _ => m.claims.filter fun id => decide (id ≠ input.proposalId)
  | _ => m.claims

/-- The time of an operation of the queue. -/
def time? : Transaction → Option ℕ
  | .enqueue input _ => some input.now
  | .enqueueApproved _ _ now => some now
  | .claim input => some input.now
  | .onLease _ _ now => some now
  | .cancel input _ => some input.now
  | .requeue input _ _ => some input.now
  | .discard input => some input.now
  | .reconcile _ _ _ now => some now
  | _ => none

def Monitor.step (runtime : StoreRuntime) (m : Monitor) (t : Transaction) : Monitor :=
  match commit runtime m.store t with
  | .error _ => { m with clock := (time? t).getD m.clock }
  | .ok store => ⟨store, (time? t).getD m.clock, m.heldAfter runtime t, m.claimsAfter t⟩

/-- The clock of the queue does not go back. -/
def Forward (m : Monitor) (t : Transaction) : Prop := ∀ now ∈ time? t, m.clock ≤ now

/-! ### What holds in every run -/

/-- A grant is the lease of a row. -/
structure Holds (g : Grant) (item : WorkerQueueItem) : Prop where
  leased : item.status = .leased
  owner : item.leaseOwner = some g.lease.workerId
  leaseId : item.leaseId = g.lease.leaseId
  expires : item.leaseExpiresAt = some g.expiresAt

def waits (item : WorkerQueueItem) : Prop := item.status = .queued ∨ item.status = .retryWait

structure Inv (m : Monitor) : Prop where
  current : ∀ id item, m.store.workerQueueItem id = some item → item.status = .leased →
    ∃ g ∈ m.held, g.lease.proposalId = id ∧ Holds g item
  stale : ∀ g ∈ m.held, m.clock < g.expiresAt → ∃ item, m.store.workerQueueItem g.lease.proposalId = some item ∧ Holds g item
  distinct : (m.held.map (·.lease)).Nodup
  attempts : ∀ id item, m.store.workerQueueItem id = some item →
    m.claims.count id = item.attempts ∧ (waits item → item.attempts < item.maxAttempts)
  absent : ∀ id, m.store.workerQueueItem id = none → m.claims.count id = 0

/-- The rows of the queue after a transaction that grants and ends no lease: as they were,
    or put in the queue, or moved on while no unexpired lease was on them. -/
inductive Unheld (clock : ℕ) (count : ℕ) (old new : Option WorkerQueueItem) : Prop where
  | same (kept : new = old) (counted : ∀ item, old = some item → count = item.attempts) (absent : old = none → count = 0)
  | moved (item : WorkerQueueItem) (is : new = some item) (status : item.status ≠ .leased)
      (free : ∀ before expires, old = some before → before.status = .leased → before.leaseExpiresAt = some expires →
        expires ≤ clock)
      (counted : count = item.attempts) (room : waits item → item.attempts < item.maxAttempts)

theorem inv_of_unheld {m m' : Monitor} (inv : Inv m) (forward : m.clock ≤ m'.clock) (held : m'.held = m.held)
    (rows : ∀ id, Unheld m'.clock (m'.claims.count id) (m.store.workerQueueItem id) (m'.store.workerQueueItem id)) :
    Inv m' where
  current id item found leased := by
    rcases rows id with ⟨kept, _, _⟩ | ⟨item', is, status, _, _, _⟩
    · rw [held]
      exact inv.current id item (kept.symm.trans found) leased
    · obtain rfl : item' = item := Option.some.inj (is.symm.trans found)
      exact absurd leased status
  stale g member unexpired := by
    rw [held] at member
    obtain ⟨item, found, holds⟩ := inv.stale g member (forward.trans_lt unexpired)
    rcases rows g.lease.proposalId with ⟨kept, _, _⟩ | ⟨_, _, _, free, _, _⟩
    · exact ⟨item, kept.trans found, holds⟩
    · have past := free item g.expiresAt found holds.leased holds.expires
      omega
  distinct := held ▸ inv.distinct
  attempts id item found := by
    rcases rows id with ⟨kept, counted, _⟩ | ⟨item', is, _, _, counted, room⟩
    · exact ⟨counted item (kept.symm.trans found), (inv.attempts id item (kept.symm.trans found)).2⟩
    · obtain rfl : item' = item := Option.some.inj (is.symm.trans found)
      exact ⟨counted, room⟩
  absent id missing := by
    rcases rows id with ⟨kept, _, absent⟩ | ⟨item', is, _, _, _, _⟩
    · exact absent (kept.symm.trans missing)
    · rw [is] at missing
      cases missing

theorem Inv.unheld_same {m : Monitor} (inv : Inv m) {clock : ℕ} {id : String} {new : Option WorkerQueueItem}
    (kept : new = m.store.workerQueueItem id) : Unheld clock (m.claims.count id) (m.store.workerQueueItem id) new :=
  .same kept (fun item found => (inv.attempts id item found).1) (inv.absent id)

/-- The rows after an update of one row that leaves no lease on it. -/
theorem unheld_update {m : Monitor} (inv : Inv m) (clock : ℕ) (claims : List String) {id : String} {item : WorkerQueueItem}
    {f : WorkerQueueItem → WorkerQueueItem} (found : m.store.workerQueueItem id = some item)
    (others : ∀ id', id' ≠ id → claims.count id' = m.claims.count id') (status : (f item).status ≠ .leased)
    (free : ∀ expires, item.status = .leased → item.leaseExpiresAt = some expires → expires ≤ clock)
    (counted : claims.count id = (f item).attempts) (room : waits (f item) → (f item).attempts < (f item).maxAttempts)
    (id' : String) :
    Unheld clock (claims.count id') (m.store.workerQueueItem id') ((m.store.updateItem id f).workerQueueItem id') := by
  rw [workerQueueItem_updateItem]
  by_cases own : id' = id
  · subst own
    rw [if_pos rfl, found]
    refine .moved (f item) rfl status (fun before expires is leased expiry => ?_) counted room
    obtain rfl := Option.some.inj is
    exact free expires leased expiry
  · rw [if_neg own, others id' own]
    exact inv.unheld_same rfl

theorem not_waits {item : WorkerQueueItem} (queued : item.status ≠ .queued) (retry : item.status ≠ .retryWait) : ¬ waits item := by
  rintro (is | is)
  · exact queued is
  · exact retry is

theorem clampedMaxAttempts_pos (maxAttempts : Option ℕ) : 0 < clampedMaxAttempts maxAttempts :=
  lt_of_lt_of_le Nat.one_pos (le_max_left ..)

/-- A new item where there was none. -/
theorem unheld_new {m : Monitor} (inv : Inv m) {clock : ℕ} {id : String} {mode : WorkerExecutionMode} {digest : Option String}
    {maxAttempts : Option ℕ} {now : ℕ} (missing : m.store.workerQueueItem id = none) :
    Unheld clock (m.claims.count id) (m.store.workerQueueItem id)
      (some (newQueueItem mode digest (clampedMaxAttempts maxAttempts) now)) := by
  refine .moved _ rfl (by simp [newQueueItem]) (fun before expires is => ?_) (inv.absent id missing) fun _ => ?_
  · rw [missing] at is
    cases is
  · exact clampedMaxAttempts_pos maxAttempts

theorem unheld_enqueue {m : Monitor} (inv : Inv m) {clock : ℕ} {input : EnqueueInput} {proposal : ProposalRow} {store : Store}
    (committed : enqueueTransaction m.store input proposal = .ok store) (id : String) :
    Unheld clock (m.claims.count id) (m.store.workerQueueItem id) (store.workerQueueItem id) := by
  unfold enqueueTransaction at committed
  dsimp only at committed
  cases found : m.store.workerQueueItem proposal.proposalId with
  | some existing =>
    simp only [found] at committed
    obtain ⟨_, _, rest⟩ := bind_eq_ok committed
    cases rest
    exact inv.unheld_same rfl
  | none =>
    simp only [found] at committed
    obtain ⟨_, _, rest⟩ := bind_eq_ok committed
    cases rest
    simp only [Store.workerQueueItem, KeyedMap.get?_set]
    by_cases own : id = proposal.proposalId
    · rw [if_pos own]
      subst own
      exact unheld_new inv found
    · rw [if_neg own]
      exact inv.unheld_same rfl

theorem get?_insertQueueItem (maxAttempts : Option ℕ) (now : ℕ) (queue : KeyedMap String WorkerQueueItem) (name id : String) :
    (insertQueueItem maxAttempts now queue name).get? id = queue.get? id ∨
      (queue.get? id = none ∧ (insertQueueItem maxAttempts now queue name).get? id =
        some (newQueueItem .legacy none (clampedMaxAttempts maxAttempts) now)) := by
  unfold insertQueueItem
  split
  · exact .inl rfl
  · rename_i fresh
    rw [KeyedMap.get?_set]
    by_cases own : id = name
    · rw [if_pos own]
      subst own
      rw [Bool.not_eq_true, KeyedMap.contains, Option.isSome_eq_false_iff, Option.isNone_iff_eq_none] at fresh
      exact .inr ⟨fresh, rfl⟩
    · rw [if_neg own]
      exact .inl rfl

theorem get?_insertQueueItems (maxAttempts : Option ℕ) (now : ℕ) (names : List String) (queue : KeyedMap String WorkerQueueItem)
    (id : String) :
    (names.foldl (insertQueueItem maxAttempts now) queue).get? id = queue.get? id ∨
      (queue.get? id = none ∧ (names.foldl (insertQueueItem maxAttempts now) queue).get? id =
        some (newQueueItem .legacy none (clampedMaxAttempts maxAttempts) now)) := by
  induction names generalizing queue with
  | nil => exact .inl rfl
  | cons name rest ih =>
    rw [List.foldl_cons]
    rcases get?_insertQueueItem maxAttempts now queue name id with kept | ⟨missing, new⟩
    · rw [← kept]
      exact ih _
    · rcases ih (insertQueueItem maxAttempts now queue name) with kept | ⟨gone, _⟩
      · exact .inr ⟨missing, kept.trans new⟩
      · rw [new] at gone
        cases gone

theorem unheld_enqueueApproved {m : Monitor} (inv : Inv m) {clock : ℕ} {names : List String} {maxAttempts : Option ℕ} {now : ℕ}
    (id : String) :
    Unheld clock (m.claims.count id) (m.store.workerQueueItem id)
      ((enqueueApprovedTransaction m.store names maxAttempts now).workerQueueItem id) := by
  rcases get?_insertQueueItems maxAttempts now names m.store.workerQueue id with kept | ⟨missing, new⟩
  · exact inv.unheld_same kept
  · have is : (enqueueApprovedTransaction m.store names maxAttempts now).workerQueueItem id = _ := new
    rw [is]
    exact unheld_new inv missing

theorem not_leased_free {item : WorkerQueueItem} {clock : ℕ} (other : item.status ≠ .leased) :
    ∀ expires, item.status = .leased → item.leaseExpiresAt = some expires → expires ≤ clock :=
  fun _ leased => absurd leased other

theorem unheld_cancel {m : Monitor} (inv : Inv m) {clock : ℕ} {input : QueueDecision} {read : ProposalState} {store : Store}
    (committed : cancelTransaction m.store input read = .ok store) (id : String) :
    Unheld clock (m.claims.count id) (m.store.workerQueueItem id) (store.workerQueueItem id) := by
  obtain ⟨item, required, rest⟩ := bind_eq_ok committed
  obtain ⟨_, cancellable, rest⟩ := bind_eq_ok rest
  have found := requireWorkerQueueItem_ok required
  have other : item.status ≠ .leased := by
    rcases ensure_ok_iff.mp cancellable with queued | retry
    · rw [queued]
      simp
    · rw [retry]
      simp
  have rows := unheld_update inv clock m.claims
    (f := fun item => { item with status := .cancelled, leaseOwner := none, leaseId := none, leaseExpiresAt := none
                                  terminalOutcome := some "cancelled", updatedAt := input.now })
    found (fun _ _ => rfl) (by simp) (not_leased_free other) (inv.attempts _ item found).1
    (fun waiting => absurd waiting (not_waits (by simp) (by simp))) id
  split at rest
  · cases rest
    exact rows
  · cases rest
    exact rows

theorem unheld_discard {m : Monitor} (inv : Inv m) {clock : ℕ} {input : QueueDecision} {store : Store}
    (committed : discardTransaction m.store input = .ok store) (id : String) :
    Unheld clock (m.claims.count id) (m.store.workerQueueItem id) (store.workerQueueItem id) := by
  obtain ⟨item, required, rest⟩ := bind_eq_ok committed
  obtain ⟨_, dead, rest⟩ := bind_eq_ok rest
  have found := requireWorkerQueueItem_ok required
  have other : item.status ≠ .leased := by
    rw [ensure_ok_iff.mp dead]
    simp
  cases rest
  exact unheld_update inv clock m.claims found (fun _ _ => rfl) (by simp) (not_leased_free other) (inv.attempts _ item found).1
    (fun waiting => absurd waiting (not_waits (by simp) (by simp))) id

theorem unheld_requeue {m : Monitor} (inv : Inv m) {clock : ℕ} {input : QueueDecision} {retryBudget : ℕ}
    {read : ProposalState} {store : Store} (committed : requeueTransaction m.store input retryBudget read = .ok store)
    (id : String) :
    Unheld clock ((m.claims.filter fun id => decide (id ≠ input.proposalId)).count id) (m.store.workerQueueItem id)
      (store.workerQueueItem id) := by
  obtain ⟨item, required, rest⟩ := bind_eq_ok committed
  obtain ⟨_, dead, rest⟩ := bind_eq_ok rest
  obtain ⟨_, _, rest⟩ := bind_eq_ok rest
  have found := requireWorkerQueueItem_ok required
  have other : item.status ≠ .leased := by
    rw [ensure_ok_iff.mp dead]
    simp
  have rows := unheld_update inv clock (m.claims.filter fun id => decide (id ≠ input.proposalId))
    (f := fun item => { released item .queued none none input.now with
      attempts := 0, maxAttempts := max 1 (min retryBudget 100), nextAttemptAt := input.now })
    found (fun id' apart => List.count_filter (decide_eq_true apart)) (by simp [released]) (not_leased_free other)
    (List.count_eq_zero.mpr fun member => absurd rfl (of_decide_eq_true (List.mem_filter.mp member).2))
    (fun _ => lt_of_lt_of_le Nat.one_pos (le_max_left ..)) id
  split at rest
  · cases rest
    exact rows
  · cases rest
    exact rows

theorem unheld_reconcile {m : Monitor} (inv : Inv m) {clock : ℕ} {input : ReconcileInput} {reconciled : StoredWritebackIntent}
    {mutated : Bool} {now : ℕ} {store : Store} (committed : reconcileTransaction m.store input reconciled mutated now = .ok store)
    (id : String) :
    Unheld clock (m.claims.count id) (m.store.workerQueueItem id) (store.workerQueueItem id) := by
  obtain ⟨intent, _, rest⟩ := bind_eq_ok committed
  obtain ⟨_, _, rest⟩ := bind_eq_ok rest
  cases rest
  have same : ∀ (s : Store) id', (recordExecutionReceiptRows s input.receipt.header mutated now).workerQueueItem id' =
      s.workerQueueItem id' := fun _ _ => rfl
  rw [workerQueueItem_updateItem, same, same]
  show Unheld clock (m.claims.count id) (m.store.workerQueueItem id) (if id = reconciled.proposalId then
    (m.store.workerQueueItem reconciled.proposalId).map (reconciledItem input.receipt.status now) else m.store.workerQueueItem id)
  by_cases own : id = reconciled.proposalId
  · rw [if_pos own]
    subst own
    cases found : m.store.workerQueueItem reconciled.proposalId with
    | none =>
      have kept : Unheld clock (m.claims.count reconciled.proposalId) (m.store.workerQueueItem reconciled.proposalId) none :=
        inv.unheld_same found.symm
      rw [found] at kept
      exact kept
    | some item =>
      by_cases reconciling : item.status = .reconciliationRequired
      · have counted := (inv.attempts _ item found).1
        refine .moved _ rfl ?_ (fun before expires is leased => ?_) ?_ fun waiting => ?_
        · simp only [reconciledItem, if_pos reconciling]
          split <;> simp [released]
        · obtain rfl := Option.some.inj is
          rw [reconciling] at leased
          cases leased
        · simp only [reconciledItem, if_pos reconciling]
          split <;> exact counted
        · simp only [reconciledItem, if_pos reconciling] at waiting
          split at waiting
          · exact absurd waiting (not_waits (by simp [released]) (by simp [released]))
          · exact absurd waiting (not_waits (by simp [released]) (by simp [released]))
      · have kept : reconciledItem input.receipt.status now item = item := if_neg reconciling
        rw [Option.map_some, kept, ← found]
        exact inv.unheld_same rfl
  · rw [if_neg own]
    exact inv.unheld_same rfl

/-- The lease of a row that a claim may take has expired. -/
theorem candidate_free {input : ClaimInput} {s : Store} {id : String} {item : WorkerQueueItem} {row : ProposalRow}
    (found : input.candidate s = some (id, item, row)) :
    ∀ expires, item.status = .leased → item.leaseExpiresAt = some expires → expires ≤ input.now :=
  fun _ leased ends => due_expired (candidate_row found).2.1 leased ends

theorem unheld_block {m : Monitor} (inv : Inv m) {input : ClaimInput} {id : String} {item : WorkerQueueItem} {row : ProposalRow}
    (found : input.candidate m.store = some (id, item, row)) (code : String) (id' : String) :
    Unheld input.now (m.claims.count id') (m.store.workerQueueItem id')
      ((blockQueuedWorkerItem m.store id code input.now).workerQueueItem id') :=
  unheld_update inv input.now m.claims (candidate_row found).1 (fun _ _ => rfl) (by simp) (candidate_free found)
    (inv.attempts id item (candidate_row found).1).1 (fun waiting => absurd waiting (not_waits (by simp) (by simp))) id'

/-- The row of a claimed item. -/
def leasedRow (runtime : StoreRuntime) (input : ClaimInput) (id : String) (item : WorkerQueueItem) : WorkerQueueItem :=
  { item with status := .leased, attempts := item.attempts + 1, leaseOwner := some input.workerId
              leaseId := some (runtime.workerLeaseId id input.workerId (item.attempts + 1) input.now)
              leaseExpiresAt := some (input.now + clampedLease input.leaseSeconds * 1000)
              lastErrorCode := none, terminalOutcome := none, updatedAt := input.now }

theorem workerQueueItem_leaseItem (runtime : StoreRuntime) (s : Store) (input : ClaimInput) (id id' : String) (row : ProposalRow) :
    (leaseItem runtime s input id row).workerQueueItem id' =
      if id' = id then (s.workerQueueItem id).map (leasedRow runtime input id) else s.workerQueueItem id' := by
  have leased : (leaseItem runtime s input id row).workerQueueItem id' =
      (s.updateItem id (leasedRow runtime input id)).workerQueueItem id' := by
    unfold leaseItem
    dsimp only
    split <;> rfl
  rw [leased, workerQueueItem_updateItem]

theorem holds_leasedRow (runtime : StoreRuntime) (input : ClaimInput) (id : String) (item : WorkerQueueItem) :
    Holds (grantOf runtime input id item) (leasedRow runtime input id item) := ⟨rfl, rfl, rfl, rfl⟩

theorem inv_leased {runtime : StoreRuntime} {m : Monitor} (inv : Inv m) {input : ClaimInput} (forward : m.clock ≤ input.now)
    {id : String} {item : WorkerQueueItem} {row : ProposalRow} (found : input.candidate m.store = some (id, item, row)) :
    Inv ⟨leaseItem runtime m.store input id row, input.now,
      m.held.filter (fun g => decide (g.lease ≠ (grantOf runtime input id item).lease)) ++ [grantOf runtime input id item],
      id :: m.claims⟩ := by
  obtain ⟨listed, due, _⟩ := candidate_row found
  have own : (leaseItem runtime m.store input id row).workerQueueItem id = some (leasedRow runtime input id item) := by
    rw [workerQueueItem_leaseItem, if_pos rfl, listed]
    rfl
  have other : ∀ id', id' ≠ id → (leaseItem runtime m.store input id row).workerQueueItem id' = m.store.workerQueueItem id' := by
    intro id' apart
    rw [workerQueueItem_leaseItem, if_neg apart]
  refine ⟨fun id' item' found' leased => ?_, fun g member unexpired => ?_, ?_, fun id' item' found' => ?_, fun id' missing => ?_⟩
  · by_cases here : id' = id
    · subst here
      obtain rfl := Option.some.inj (own.symm.trans found')
      exact ⟨_, List.mem_append_right _ (List.mem_singleton.mpr rfl), rfl, holds_leasedRow runtime input id' item⟩
    · have before := (other id' here).symm.trans found'
      obtain ⟨g, member, named, holds⟩ := inv.current id' item' before leased
      refine ⟨g, List.mem_append_left _ (List.mem_filter.mpr ⟨member, decide_eq_true fun same => here ?_⟩), named, holds⟩
      rw [← named, same]
      rfl
  · rcases List.mem_append.mp member with before | new
    · obtain ⟨item', found', holds⟩ := inv.stale g (List.mem_filter.mp before).1 (lt_of_le_of_lt forward unexpired)
      by_cases here : g.lease.proposalId = id
      · rw [here] at found'
        obtain rfl := Option.some.inj (listed.symm.trans found')
        have past := due_expired due holds.leased holds.expires
        have later : input.now < g.expiresAt := unexpired
        omega
      · exact ⟨item', (other _ here).trans found', holds⟩
    · rw [List.mem_singleton.mp new]
      exact ⟨_, own, holds_leasedRow runtime input id item⟩
  · show ((m.held.filter _ ++ [grantOf runtime input id item]).map (·.lease)).Nodup
    rw [List.map_append, List.nodup_append]
    refine ⟨inv.distinct.sublist (List.filter_sublist.map _), List.nodup_singleton _, ?_⟩
    intro lease before lease' new same
    obtain ⟨g, member, rfl⟩ := List.mem_map.mp before
    rw [List.map_singleton, List.mem_singleton] at new
    exact of_decide_eq_true (List.mem_filter.mp member).2 (same.trans new)
  · by_cases here : id' = id
    · subst here
      obtain rfl := Option.some.inj (own.symm.trans found')
      have counted := (inv.attempts id' item listed).1
      refine ⟨?_, fun waiting => absurd waiting (not_waits (by simp [leasedRow]) (by simp [leasedRow]))⟩
      show (id' :: m.claims).count id' = item.attempts + 1
      rw [List.count_cons_self, counted]
    · have counted := inv.attempts id' item' ((other id' here).symm.trans found')
      show (id :: m.claims).count id' = item'.attempts ∧ _
      rw [List.count_cons_of_ne (Ne.symm here)]
      exact counted
  · by_cases here : id' = id
    · subst here
      have found' : (leaseItem runtime m.store input id' row).workerQueueItem id' = none := missing
      rw [own] at found'
      cases found'
    · show (id :: m.claims).count id' = 0
      rw [List.count_cons_of_ne (Ne.symm here)]
      exact inv.absent id' ((other id' here).symm.trans missing)

/-- The grant of a row is the lease that the row names. -/
theorem Holds.lease_eq {g : Grant} {item : WorkerQueueItem} {lease : Lease} (holds : Holds g item)
    (named : g.lease.proposalId = lease.proposalId) (owner : item.leaseOwner = some lease.workerId)
    (leaseId : item.leaseId = lease.leaseId) : g.lease = lease := by
  have worker : g.lease.workerId = lease.workerId := Option.some.inj (holds.owner.symm.trans owner)
  have id : g.lease.leaseId = lease.leaseId := holds.leaseId.symm.trans leaseId
  obtain ⟨⟨proposalId, workerId, leaseId'⟩, expiresAt⟩ := g
  simp only at named worker id
  subst named worker id
  rfl

theorem inv_renew {m : Monitor} (inv : Inv m) {lease : Lease} {leaseSeconds : Option ℕ} {now : ℕ} (forward : m.clock ≤ now)
    {item : WorkerQueueItem} (listed : m.store.workerQueueItem lease.proposalId = some item) (leased : item.status = .leased)
    (owner : item.leaseOwner = some lease.workerId) (leaseId : item.leaseId = lease.leaseId) :
    Inv ⟨m.store.updateItem lease.proposalId ((LeaseAction.renew leaseSeconds).applyTo now), now,
      m.held.map (fun g => if g.lease = lease then ⟨lease, now + clampedLease leaseSeconds * 1000⟩ else g), m.claims⟩ := by
  have rows := workerQueueItem_updateItem m.store lease.proposalId
  have named : ∀ g : Grant, (if g.lease = lease then (⟨lease, now + clampedLease leaseSeconds * 1000⟩ : Grant) else g).lease =
      g.lease := by
    intro g
    split
    · rename_i same
      exact same.symm
    · rfl
  have mine : ∃ g ∈ m.held, g.lease = lease := by
    obtain ⟨g, member, here, holds⟩ := inv.current _ item listed leased
    exact ⟨g, member, holds.lease_eq here owner leaseId⟩
  refine ⟨fun id' item' found' leased' => ?_, fun g member unexpired => ?_, ?_, fun id' item' found' => ?_, fun id' missing => ?_⟩
  · have found : (if id' = lease.proposalId then (m.store.workerQueueItem lease.proposalId).map _
        else m.store.workerQueueItem id') = some item' := (rows id' _).symm.trans found'
    by_cases here : id' = lease.proposalId
    · rw [if_pos here, listed] at found
      obtain rfl := Option.some.inj found
      obtain ⟨g, member, same⟩ := mine
      refine ⟨_, List.mem_map_of_mem member, ?_, ?_⟩
      · rw [named, same, here]
      · rw [if_pos same]
        exact ⟨leased, owner, leaseId, rfl⟩
    · rw [if_neg here] at found
      obtain ⟨g, member, same, holds⟩ := inv.current id' item' found leased'
      have other : g.lease ≠ lease := fun is => here (same.symm.trans (congrArg Lease.proposalId is))
      refine ⟨_, List.mem_map_of_mem member, ?_, ?_⟩
      · rw [named, same]
      · rw [if_neg other]
        exact holds
  · obtain ⟨g', before, rfl⟩ := List.mem_map.mp member
    by_cases same : g'.lease = lease
    · simp only [if_pos same]
      refine ⟨(LeaseAction.renew leaseSeconds).applyTo now item, ?_, ⟨leased, owner, leaseId, rfl⟩⟩
      show (m.store.updateItem lease.proposalId _).workerQueueItem lease.proposalId = _
      rw [rows, if_pos rfl, listed]
      rfl
    · simp only [if_neg same] at unexpired ⊢
      obtain ⟨item', found', holds⟩ := inv.stale g' before (lt_of_le_of_lt forward unexpired)
      have other : g'.lease.proposalId ≠ lease.proposalId := by
        intro here
        have found' := here ▸ found'
        obtain rfl := Option.some.inj (listed.symm.trans found')
        exact same (holds.lease_eq here owner leaseId)
      refine ⟨item', ?_, holds⟩
      show (m.store.updateItem lease.proposalId _).workerQueueItem g'.lease.proposalId = _
      rw [rows, if_neg other]
      exact found'
  · show ((m.held.map _).map fun g : Grant => g.lease).Nodup
    rw [List.map_map]
    have same : (fun g : Grant => g.lease) ∘ (fun g : Grant => if g.lease = lease then
        (⟨lease, now + clampedLease leaseSeconds * 1000⟩ : Grant) else g) = fun g => g.lease := funext named
    rw [same]
    exact inv.distinct
  · have found : (if id' = lease.proposalId then (m.store.workerQueueItem lease.proposalId).map _
        else m.store.workerQueueItem id') = some item' := (rows id' _).symm.trans found'
    by_cases here : id' = lease.proposalId
    · rw [if_pos here, listed] at found
      obtain rfl := Option.some.inj found
      subst here
      refine ⟨(inv.attempts _ item listed).1, fun waiting => ?_⟩
      exact (inv.attempts _ item listed).2 waiting
    · rw [if_neg here] at found
      exact inv.attempts id' item' found
  · have found : (if id' = lease.proposalId then (m.store.workerQueueItem lease.proposalId).map _
        else m.store.workerQueueItem id') = none := (rows id' _).symm.trans missing
    by_cases here : id' = lease.proposalId
    · rw [if_pos here, listed] at found
      cases found
    · rw [if_neg here] at found
      exact inv.absent id' found

theorem applyTo_ended {action : LeaseAction} (ended : ends action = true) (now : ℕ) (item : WorkerQueueItem) :
    (action.applyTo now item).status ≠ .leased ∧ (action.applyTo now item).attempts = item.attempts ∧
      (waits (action.applyTo now item) → (action.applyTo now item).attempts < (action.applyTo now item).maxAttempts) := by
  cases action with
  | renew leaseSeconds => cases ended
  | retry errorCode retryAt =>
    by_cases exhausted : item.maxAttempts ≤ item.attempts
    · simp [LeaseAction.applyTo, released, exhausted, waits]
    · simp only [LeaseAction.applyTo, released, if_neg exhausted]
      exact ⟨by simp, trivial, fun _ => not_le.mp exhausted⟩
  | complete outcome => simp [LeaseAction.applyTo, released, waits]
  | deadLetter errorCode => simp [LeaseAction.applyTo, released, waits]
  | block errorCode => simp [LeaseAction.applyTo, released, waits]
  | requireReconciliation errorCode => simp [LeaseAction.applyTo, released, waits]

theorem inv_ended {m : Monitor} (inv : Inv m) {lease : Lease} {action : LeaseAction} (ended : ends action = true) {now : ℕ}
    (forward : m.clock ≤ now) {item : WorkerQueueItem} (listed : m.store.workerQueueItem lease.proposalId = some item)
    (owner : item.leaseOwner = some lease.workerId) (leaseId : item.leaseId = lease.leaseId) :
    Inv ⟨m.store.updateItem lease.proposalId (action.applyTo now), now, m.held.filter (fun g => decide (g.lease ≠ lease)),
      m.claims⟩ := by
  obtain ⟨status, kept, room⟩ := applyTo_ended ended now item
  have own : (m.store.updateItem lease.proposalId (action.applyTo now)).workerQueueItem lease.proposalId =
      some (action.applyTo now item) := by
    rw [workerQueueItem_updateItem, if_pos rfl, listed]
    rfl
  have other : ∀ id', id' ≠ lease.proposalId →
      (m.store.updateItem lease.proposalId (action.applyTo now)).workerQueueItem id' = m.store.workerQueueItem id' := by
    intro id' apart
    rw [workerQueueItem_updateItem, if_neg apart]
  refine ⟨fun id' item' found' leased => ?_, fun g member unexpired => ?_, inv.distinct.sublist (List.filter_sublist.map _),
    fun id' item' found' => ?_, fun id' missing => ?_⟩
  · by_cases here : id' = lease.proposalId
    · subst here
      obtain rfl := Option.some.inj (own.symm.trans found')
      exact absurd leased status
    · obtain ⟨g, member, named, holds⟩ := inv.current id' item' ((other id' here).symm.trans found') leased
      refine ⟨g, List.mem_filter.mpr ⟨member, decide_eq_true fun same => here ?_⟩, named, holds⟩
      rw [← named, same]
  · obtain ⟨before, apart⟩ := List.mem_filter.mp member
    obtain ⟨item', found', holds⟩ := inv.stale g before (lt_of_le_of_lt forward unexpired)
    by_cases here : g.lease.proposalId = lease.proposalId
    · have same : some item = some item' := listed.symm.trans (here ▸ found')
      obtain rfl := Option.some.inj same
      exact absurd (holds.lease_eq here owner leaseId) (of_decide_eq_true apart)
    · exact ⟨item', (other _ here).trans found', holds⟩
  · by_cases here : id' = lease.proposalId
    · subst here
      obtain rfl := Option.some.inj (own.symm.trans found')
      exact ⟨(inv.attempts _ item listed).1.trans kept.symm, room⟩
    · exact inv.attempts id' item' ((other id' here).symm.trans found')
  · by_cases here : id' = lease.proposalId
    · subst here
      have found' : (m.store.updateItem lease.proposalId (action.applyTo now)).workerQueueItem lease.proposalId = none := missing
      rw [own] at found'
      cases found'
    · exact inv.absent id' ((other id' here).symm.trans missing)

/-- A transaction that grants and ends no lease. -/
theorem inv_quiet {runtime : StoreRuntime} {m : Monitor} (inv : Inv m) {t : Transaction} (forward : Forward m t) {store : Store}
    (held : m.heldAfter runtime t = m.held)
    (rows : ∀ id, Unheld ((time? t).getD m.clock) ((m.claimsAfter t).count id) (m.store.workerQueueItem id)
      (store.workerQueueItem id)) :
    Inv ⟨store, (time? t).getD m.clock, m.heldAfter runtime t, m.claimsAfter t⟩ := by
  refine inv_of_unheld inv ?_ held rows
  cases time : time? t with
  | none => exact le_rfl
  | some now => exact forward now time

theorem inv_step {runtime : StoreRuntime} (m : Monitor) (t : Transaction) (inv : Inv m) (forward : Forward m t) :
    Inv (m.step runtime t) := by
  unfold Monitor.step
  cases committed : commit runtime m.store t with
  | error e =>
    have later : m.clock ≤ (time? t).getD m.clock := by
      cases time : time? t with
      | none => exact le_rfl
      | some now => exact forward now time
    exact inv_of_unheld inv later rfl fun id => inv.unheld_same rfl
  | ok store =>
    by_cases apart : queues t = false
    · have held : m.heldAfter runtime t = m.held := by
        cases t <;> first | rfl | cases apart
      have claims : m.claimsAfter t = m.claims := by
        cases t <;> first | rfl | cases apart
      refine inv_quiet inv forward held fun id => ?_
      rw [claims]
      exact inv.unheld_same (workerQueueItem_congr (queue_unchanged apart committed) id)
    · cases t with
      | enqueue input proposal => exact inv_quiet inv forward rfl (unheld_enqueue inv committed)
      | enqueueApproved names maxAttempts now =>
        cases committed
        exact inv_quiet inv forward rfl fun id => unheld_enqueueApproved inv id
      | claim input =>
        cases committed
        rcases claimStep runtime m.store input with ⟨none, same⟩ | ⟨id, item, row, found, none, code, is⟩ |
          ⟨id, item, row, found, leases, is⟩
        · refine inv_quiet inv forward (by simp only [Monitor.heldAfter, none]) fun id => ?_
          simp only [Monitor.claimsAfter, none, same]
          exact inv.unheld_same rfl
        · refine inv_quiet inv forward (by simp only [Monitor.heldAfter, none]) fun id' => ?_
          simp only [Monitor.claimsAfter, none, is]
          exact unheld_block inv found code id'
        · simp only [Monitor.heldAfter, Monitor.claimsAfter, leases, is]
          exact inv_leased inv (forward _ rfl) found
      | onLease lease action now =>
        obtain ⟨item, listed, leased, owner, leaseId, rfl⟩ := leaseTransaction_ok committed
        have later : m.clock ≤ now := forward now rfl
        cases action with
        | renew leaseSeconds => exact inv_renew inv later listed leased owner leaseId
        | complete outcome => exact inv_ended inv rfl later listed owner leaseId
        | retry errorCode retryAt => exact inv_ended inv rfl later listed owner leaseId
        | deadLetter errorCode => exact inv_ended inv rfl later listed owner leaseId
        | block errorCode => exact inv_ended inv rfl later listed owner leaseId
        | requireReconciliation errorCode => exact inv_ended inv rfl later listed owner leaseId
      | cancel input read => exact inv_quiet inv forward rfl (unheld_cancel inv committed)
      | requeue input retryBudget read => exact inv_quiet inv forward rfl (unheld_requeue inv committed)
      | discard input => exact inv_quiet inv forward rfl (unheld_discard inv committed)
      | reconcile input reconciled mutated now => exact inv_quiet inv forward rfl (unheld_reconcile inv committed)
      | _ => exact absurd rfl apart

theorem inv_start : Inv .start where
  current _ _ found := nomatch found
  stale _ member := nomatch member
  distinct := List.nodup_nil
  attempts _ _ found := nomatch found
  absent _ _ := rfl

/-! ### Safety -/

/-- The leases of an item that have not expired. -/
def Monitor.unexpired (m : Monitor) (id : String) : List Grant :=
  m.held.filter fun g => decide (g.lease.proposalId = id ∧ m.clock < g.expiresAt)

/-- An action that completes or fails an item presents its current lease, which is the one
    on its row; every other lease of the item has expired. -/
def ByHolder (m : Monitor) : Transaction → Prop
  | .onLease lease action now => ends action = true → (∃ store, leaseTransaction m.store lease action now = .ok store) →
    ∃ g ∈ m.held, g.lease = lease ∧ (∃ item, m.store.workerQueueItem lease.proposalId = some item ∧ Holds g item) ∧
      ∀ g' ∈ m.held, g'.lease.proposalId = lease.proposalId → g' ≠ g → g'.expiresAt ≤ m.clock
  | _ => True

/-- A claim from the queue, or from a scheduled retry, is one of the attempts of the item. -/
def WithinAttempts (m : Monitor) : Transaction → Prop
  | .claim input => ∀ id item row, ClaimInput.leases input m.store = some (id, item, row) → waits item →
    m.claims.count id < item.maxAttempts
  | _ => True

def finished (item : WorkerQueueItem) : Prop :=
  item.status = .completed ∨ item.status = .cancelled ∨ item.status = .discarded ∨ item.status = .blocked

/-- The queue is safe throughout a run. -/
structure QueueSafe (runtime : StoreRuntime) (events : List Transaction) : Prop where
  one : ∀ before after, events = before ++ after → ∀ id, ((run (Monitor.step runtime) .start before).unexpired id).length ≤ 1
  holder : Throughout (Monitor.step runtime) ByHolder .start events
  attempts : Throughout (Monitor.step runtime) WithinAttempts .start events
  final : ∀ before after, events = before ++ after → ∀ id item,
    (run (Monitor.step runtime) .start before).store.workerQueueItem id = some item → finished item →
      (run (Monitor.step runtime) .start events).store.workerQueueItem id = some item

theorem eq_of_unexpired {m : Monitor} (inv : Inv m) {g g' : Grant} (member : g ∈ m.held) (member' : g' ∈ m.held)
    (same : g'.lease.proposalId = g.lease.proposalId) {item : WorkerQueueItem}
    (listed : m.store.workerQueueItem g.lease.proposalId = some item) (holds : Holds g item) (unexpired : m.clock < g'.expiresAt) :
    g' = g := by
  obtain ⟨item', found, holds'⟩ := inv.stale g' member' unexpired
  obtain rfl := Option.some.inj (listed.symm.trans (same ▸ found))
  exact List.inj_on_of_nodup_map inv.distinct member' member (holds'.lease_eq same holds.owner holds.leaseId)

theorem unexpired_le_one {m : Monitor} (inv : Inv m) (id : String) : (m.unexpired id).length ≤ 1 := by
  have distinct : (m.unexpired id).Nodup := (List.Nodup.of_map _ inv.distinct).filter _
  have alone : ∀ g ∈ m.unexpired id, ∀ g' ∈ m.unexpired id, g' = g := by
    intro g member g' member'
    obtain ⟨held, here⟩ := List.mem_filter.mp member
    obtain ⟨held', here'⟩ := List.mem_filter.mp member'
    obtain ⟨named, late⟩ := of_decide_eq_true here
    obtain ⟨named', late'⟩ := of_decide_eq_true here'
    obtain ⟨item, found, holds⟩ := inv.stale g held late
    exact eq_of_unexpired inv held held' (named'.trans named.symm) found holds late'
  cases listed : m.unexpired id with
  | nil => exact Nat.zero_le _
  | cons g rest =>
    cases rest with
    | nil => exact le_rfl
    | cons g' rest =>
      rw [listed] at distinct alone
      have same := alone g List.mem_cons_self g' (List.mem_cons_of_mem _ List.mem_cons_self)
      rw [same, List.nodup_cons] at distinct
      exact absurd List.mem_cons_self distinct.1

theorem byHolder_of_inv {m : Monitor} (inv : Inv m) (t : Transaction) : ByHolder m t := by
  cases t with
  | onLease lease action now =>
    rintro _ ⟨store, committed⟩
    obtain ⟨item, listed, leased, owner, leaseId, _⟩ := leaseTransaction_ok committed
    obtain ⟨g, member, named, holds⟩ := inv.current _ item listed leased
    have mine := holds.lease_eq named owner leaseId
    refine ⟨g, member, mine, ⟨item, listed, holds⟩, fun g' member' same apart => ?_⟩
    by_contra late
    refine apart (eq_of_unexpired inv member member' ?_ ?_ holds (not_le.mp late))
    · rw [mine, same]
    · rw [mine, listed]
  | _ => trivial

theorem withinAttempts_of_inv {m : Monitor} (inv : Inv m) (t : Transaction) : WithinAttempts m t := by
  cases t with
  | claim input =>
    intro id item row leases waiting
    have found : input.candidate m.store = some (id, item, row) := by
      unfold ClaimInput.leases at leases
      split at leases
      · cases leases
      · exact (Option.filter_eq_some_iff.mp leases).1
    obtain ⟨counted, room⟩ := inv.attempts id item (candidate_row found).1
    rw [counted]
    exact room waiting
  | _ => trivial

theorem finished_not_due {item : WorkerQueueItem} (done : finished item) (now : ℕ) : item.due now = false := by
  rw [Bool.eq_false_iff]
  intro due
  rcases due_status due with is | is | is
  all_goals
    simp [finished, is] at done

/-- An update of another row, or of a row that is not finished, leaves a finished row. -/
theorem finished_update {s : Store} {id id' : String} {item item' : WorkerQueueItem} {f : WorkerQueueItem → WorkerQueueItem}
    (listed : s.workerQueueItem id = some item) (done : finished item) (other : s.workerQueueItem id' = some item')
    (active : ¬ finished item') : (s.updateItem id' f).workerQueueItem id = some item := by
  rw [workerQueueItem_updateItem]
  by_cases own : id = id'
  · subst own
    obtain rfl := Option.some.inj (listed.symm.trans other)
    exact absurd done active
  · rw [if_neg own]
    exact listed

theorem not_finished_of_status {item : WorkerQueueItem} {status : WorkerQueueStatus} (is : item.status = status)
    (other : status ≠ .completed ∧ status ≠ .cancelled ∧ status ≠ .discarded ∧ status ≠ .blocked) : ¬ finished item := by
  rintro (here | here | here | here)
  · exact other.1 (is.symm.trans here)
  · exact other.2.1 (is.symm.trans here)
  · exact other.2.2.1 (is.symm.trans here)
  · exact other.2.2.2 (is.symm.trans here)

/-- A transaction leaves a finished row. -/
theorem finished_commit {runtime : StoreRuntime} {s s' : Store} {t : Transaction} (committed : commit runtime s t = .ok s')
    {id : String} {item : WorkerQueueItem} (listed : s.workerQueueItem id = some item) (done : finished item) :
    s'.workerQueueItem id = some item := by
  by_cases apart : queues t = false
  · rw [workerQueueItem_congr (queue_unchanged apart committed), listed]
  · cases t with
    | enqueue input proposal =>
      have rows : enqueueTransaction s input proposal = .ok s' := committed
      unfold enqueueTransaction at rows
      dsimp only at rows
      cases found : s.workerQueueItem proposal.proposalId with
      | some existing =>
        simp only [found] at rows
        obtain ⟨_, _, rest⟩ := bind_eq_ok rows
        cases rest
        exact listed
      | none =>
        simp only [found] at rows
        obtain ⟨_, _, rest⟩ := bind_eq_ok rows
        cases rest
        have other : id ≠ proposal.proposalId := by
          rintro rfl
          rw [listed] at found
          cases found
        simp only [Store.workerQueueItem, KeyedMap.get?_set, if_neg other]
        exact listed
    | enqueueApproved names maxAttempts now =>
      cases committed
      rcases get?_insertQueueItems maxAttempts now names s.workerQueue id with kept | ⟨missing, _⟩
      · exact kept.trans listed
      · rw [← Store.workerQueueItem, listed] at missing
        cases missing
    | claim input =>
      cases committed
      have active : ∀ id' item' row, input.candidate s = some (id', item', row) → ¬ finished item' := by
        intro id' item' row found done'
        have due := (candidate_row found).2.1
        rw [finished_not_due done'] at due
        cases due
      rcases claimStep runtime s input with ⟨_, same⟩ | ⟨id', item', row, found, _, code, is⟩ |
        ⟨id', item', row, found, _, is⟩
      · rw [same]
        exact listed
      · rw [is]
        exact finished_update listed done (candidate_row found).1 (active _ _ _ found)
      · rw [is, workerQueueItem_leaseItem, ← workerQueueItem_updateItem]
        exact finished_update listed done (candidate_row found).1 (active _ _ _ found)
    | onLease lease action now =>
      obtain ⟨item', listed', leased, _, _, rfl⟩ := leaseTransaction_ok committed
      exact finished_update listed done listed' (not_finished_of_status leased (by decide))
    | cancel input read =>
      obtain ⟨item', required, rest⟩ := bind_eq_ok committed
      obtain ⟨_, cancellable, rest⟩ := bind_eq_ok rest
      have active : ¬ finished item' := by
        rcases ensure_ok_iff.mp cancellable with queued | retry
        · exact not_finished_of_status queued (by decide)
        · exact not_finished_of_status retry (by decide)
      split at rest
      · cases rest
        exact finished_update listed done (requireWorkerQueueItem_ok required) active
      · cases rest
        exact finished_update listed done (requireWorkerQueueItem_ok required) active
    | requeue input retryBudget read =>
      obtain ⟨item', required, rest⟩ := bind_eq_ok committed
      obtain ⟨_, dead, rest⟩ := bind_eq_ok rest
      obtain ⟨_, _, rest⟩ := bind_eq_ok rest
      have active : ¬ finished item' := not_finished_of_status (ensure_ok_iff.mp dead) (by decide)
      split at rest
      · cases rest
        exact finished_update listed done (requireWorkerQueueItem_ok required) active
      · cases rest
        exact finished_update listed done (requireWorkerQueueItem_ok required) active
    | discard input =>
      obtain ⟨item', required, rest⟩ := bind_eq_ok committed
      obtain ⟨_, dead, rest⟩ := bind_eq_ok rest
      cases rest
      exact finished_update listed done (requireWorkerQueueItem_ok required)
        (not_finished_of_status (ensure_ok_iff.mp dead) (by decide))
    | reconcile input reconciled mutated now =>
      obtain ⟨intent, _, rest⟩ := bind_eq_ok committed
      obtain ⟨_, _, rest⟩ := bind_eq_ok rest
      cases rest
      have same : ∀ (s : Store) id', (recordExecutionReceiptRows s input.receipt.header mutated now).workerQueueItem id' =
          s.workerQueueItem id' := fun _ _ => rfl
      rw [workerQueueItem_updateItem, same, same]
      show (if id = reconciled.proposalId then (s.workerQueueItem reconciled.proposalId).map
        (reconciledItem input.receipt.status now) else s.workerQueueItem id) = some item
      by_cases own : id = reconciled.proposalId
      · subst own
        have other : item.status ≠ .reconciliationRequired := fun is => not_finished_of_status is (by decide) done
        rw [if_pos rfl, listed, Option.map_some, reconciledItem, if_neg other]
      · rw [if_neg own]
        exact listed
    | _ => exact absurd rfl apart

theorem finished_step {runtime : StoreRuntime} (m : Monitor) (t : Transaction) {id : String} {item : WorkerQueueItem}
    (done : finished item) (listed : m.store.workerQueueItem id = some item) :
    (m.step runtime t).store.workerQueueItem id = some item := by
  unfold Monitor.step
  cases committed : commit runtime m.store t with
  | error e => exact listed
  | ok store => exact finished_commit committed listed done

/-- The queue is safe in every run with a clock that does not go back. -/
theorem queue_safe (runtime : StoreRuntime) (events : List Transaction)
    (forward : Throughout (Monitor.step runtime) Forward .start events) : QueueSafe runtime events := by
  have inv : ∀ before after, events = before ++ after → Inv (run (Monitor.step runtime) .start before) := by
    rintro before after rfl
    exact invariant_of_throughout Inv inv_step (throughout_append.mp forward).1 inv_start
  refine ⟨fun before after parts id => unexpired_le_one (inv before after parts) id, ?_, ?_, ?_⟩
  · exact throughout_iff_splits.mpr fun before t after parts => byHolder_of_inv (inv before _ parts) t
  · exact throughout_iff_splits.mpr fun before t after parts => withinAttempts_of_inv (inv before _ parts) t
  · rintro before after rfl id item listed done
    rw [run_append]
    exact invariant (fun m => m.store.workerQueueItem id = some item) (fun m t here => finished_step m t done here) listed after

/-! ### An expired lease -/

/-- An action that completes or fails an item does so under a lease that has not expired. -/
def UnderUnexpired (m : Monitor) : Transaction → Prop
  | .onLease lease action now => ends action = true → (∃ store, leaseTransaction m.store lease action now = .ok store) →
    ∃ g ∈ m.held, g.lease = lease ∧ now < g.expiresAt
  | _ => True

/-- An item is claimed no more often than its attempts. -/
def AttemptsBounded (m : Monitor) : Prop :=
  ∀ id item, m.store.workerQueueItem id = some item → m.claims.count id ≤ item.maxAttempts

def approvedTicket : ProposalRow := { closeTicketRow with state := .approved }

def ticketClaim (workerId : String) (now : ℕ) : Transaction :=
  .claim { workerId, leaseSeconds := some 15, executionMode := none, capability := none, tenant := none, contractDigest := none
           maxConcurrent := none, rateLimit := none, proposalTtlSeconds := none, policyExecution := none, now }

def ticketCompletion (workerId : String) (now : ℕ) : Transaction :=
  .onLease ⟨"prop_1", workerId, some "wlease_00"⟩ (.complete "applied") now

/-- An approved proposal in the queue, with one attempt. -/
def queuedTicket : List Transaction :=
  [.create approvedTicket, .enqueue ⟨"prop_1", none, none, some 1, none, 0⟩ approvedTicket]

theorem completed_ticket_forward : Throughout (Monitor.step constantStoreRuntime) Forward .start
    (queuedTicket ++ [ticketClaim "worker_1" 0, ticketCompletion "worker_1" 5000]) := by
  refine ⟨?_, ?_, ?_, ?_, trivial⟩
  · rintro now ⟨⟩
  · rintro now ⟨⟩
    decide
  · rintro now ⟨⟩
    decide
  · rintro now ⟨⟩
    decide

/-- A claim and its completion. -/
theorem completed_ticket_safe :
    QueueSafe constantStoreRuntime (queuedTicket ++ [ticketClaim "worker_1" 0, ticketCompletion "worker_1" 5000]) :=
  queue_safe constantStoreRuntime _ completed_ticket_forward

/-- A second worker takes over the expired lease of the only attempt, and completes the
    item when its own lease has expired. -/
def takenOver : List Transaction := queuedTicket ++ [ticketClaim "worker_1" 0, ticketClaim "worker_2" 15000]

theorem takenOver_forward :
    Throughout (Monitor.step constantStoreRuntime) Forward .start (takenOver ++ [ticketCompletion "worker_2" 60000]) := by
  refine ⟨?_, ?_, ?_, ?_, ?_, trivial⟩
  · rintro now ⟨⟩
  · rintro now ⟨⟩
    decide
  · rintro now ⟨⟩
    decide
  · rintro now ⟨⟩
    decide
  · rintro now ⟨⟩
    decide

/-- One attempt is claimed twice, and an item is completed under an expired lease. -/
theorem expired_lease_still_counts :
    (¬ ∀ runtime events, Throughout (Monitor.step runtime) Forward .start events →
      AttemptsBounded (run (Monitor.step runtime) .start events)) ∧
    ¬ ∀ runtime events, Throughout (Monitor.step runtime) Forward .start events →
      Throughout (Monitor.step runtime) UnderUnexpired .start events := by
  constructor
  · intro bounded
    have few := bounded constantStoreRuntime takenOver (throughout_append.mp takenOver_forward).1
    have listed : ∃ item, (run (Monitor.step constantStoreRuntime) .start takenOver).store.workerQueueItem "prop_1" = some item ∧
        item.maxAttempts = 1 := ⟨_, by rfl, by rfl⟩
    obtain ⟨item, found, one⟩ := listed
    have twice : (run (Monitor.step constantStoreRuntime) .start takenOver).claims.count "prop_1" = 2 := by decide
    have most := few "prop_1" item found
    omega
  · intro unexpired
    have all := unexpired constantStoreRuntime _ takenOver_forward
    have here := throughout_at all
    obtain ⟨g, member, same, late⟩ := here rfl ⟨_, rfl⟩
    have past : ∀ g ∈ (run (Monitor.step constantStoreRuntime) .start takenOver).held, g.expiresAt ≤ 60000 := by decide
    have late' := past g member
    omega

end SynapsorRunner.LeaseRuns
