import Mathlib.Data.List.Induction
import SynapsorRunner.ActiveProposals

/-!
The tables that record the outcome of a write: `writeback_receipts`,
`idempotency_receipts`, `writeback_jobs` and the state of the proposal. A receipt
replaces the row of its idempotency key and updates its job and its proposal, but
`INSERT OR IGNORE` keeps an earlier receipt of the same job and key.

So the tables agree on the latest outcome of every proposal in a run exactly if no
step of it records another outcome beside a receipt that stays, and none takes a
proposal or a job with a receipt away from its outcome (`tables_agree_iff`).
-/
namespace SynapsorRunner.ProposalStore
open SynapsorRunner.Protocol SynapsorRunner.Proposals SynapsorRunner.Intents SynapsorRunner.Runs

/-! ### Tables -/

/-- `writeback_jobs.status`. -/
inductive JobStatus where
  | pendingWorker
  | recorded (status : WritebackStatus)
  deriving DecidableEq, Repr

/-- The state of a proposal whose job has a status. -/
def JobStatus.state : JobStatus → ProposalState
  | .pendingWorker => .pendingWorker
  | .recorded status => stateFromReceipt status

/-- A row of `writeback_jobs`, which stands under its job id. -/
structure StoredWritebackJob where
  proposalId : String
  proposalHash : String
  status : JobStatus
  deriving DecidableEq, Repr

/-- A row of `idempotency_receipts`, which stands under its idempotency key. -/
structure IdempotencyReceipt where
  writebackJobId : String
  proposalId : String
  receiptStatus : WritebackStatus
  deriving DecidableEq, Repr

/-- The store with the tables that it leaves out. `effects` is not a table: it
    remembers the proposals for which a receipt of an effect was recorded. -/
structure Tables where
  store : Store
  writebackJobs : KeyedMap String StoredWritebackJob
  idempotencyReceipts : KeyedMap String IdempotencyReceipt
  effects : List String

def Tables.empty : Tables := ⟨.empty, .empty, .empty, []⟩

/-- What `requeueDeadLetter` takes for a proof of an effect. -/
def StoredWritebackReceipt.provesEffect (r : StoredWritebackReceipt) : Bool :=
  decide (r.sourceDatabaseMutated = true ∨ r.status = .applied ∨ r.status = .alreadyApplied)

def StoredWritebackReceipt.outcome (r : StoredWritebackReceipt) : ProposalState := stateFromReceipt r.status

def headerOutcome (header : ReceiptHeader) : ProposalState := stateFromReceipt header.status

namespace Tables

/-- The rest of `recordExecutionReceiptRows`. -/
def recordOutcome (T : Tables) (header : ReceiptHeader) : Tables :=
  { T with
    idempotencyReceipts := T.idempotencyReceipts.set header.idempotencyKey
      ⟨header.writebackJobId, header.proposalId, header.status⟩
    writebackJobs := T.writebackJobs.modify header.writebackJobId fun row => { row with status := .recorded header.status }
    effects := if (receiptRow header).provesEffect then header.proposalId :: T.effects else T.effects }

/-- `INSERT INTO writeback_jobs ... ON CONFLICT(writeback_job_id) DO UPDATE`. -/
def upsertJob (T : Tables) (jobId proposalId proposalHash : String) : Tables :=
  { T with
    writebackJobs := match T.writebackJobs.get? jobId with
      | some row => T.writebackJobs.set jobId { row with status := .pendingWorker }
      | none => T.writebackJobs.set jobId ⟨proposalId, proposalHash, .pendingWorker⟩ }

theorem get?_upsertJob (T : Tables) (jobId proposalId proposalHash other : String) :
    ((T.upsertJob jobId proposalId proposalHash).writebackJobs.get? other).map StoredWritebackJob.status =
      if other = jobId then some .pendingWorker else (T.writebackJobs.get? other).map StoredWritebackJob.status := by
  unfold upsertJob
  dsimp only
  split <;> rw [KeyedMap.get?_set] <;> split <;> rfl

end Tables

/-! ### Operations -/

inductive TableOperation where
  | store (operation : StoreOperation)
  | recordWritebackJob (job : WritebackJob)
  | recordHandlerWritebackJob (writebackJobId proposalId proposalHash : String)

inductive TableTransaction where
  | store (t : Transaction)
  | createJob (jobId proposalId proposalHash : String) (read : ProposalState) (now : Nat)
  | recordJob (jobId proposalId proposalHash : String)

/-- The reads of `recordWritebackJob` and `recordHandlerWritebackJob`. -/
def prepareRecordJob (s : Store) (operation jobId proposalId proposalHash : String) : Except StoreError TableTransaction := do
  let proposal ← s.requireProposal proposalId
  assertWritebackAllowed proposal.toStoredProposal operation
  assertProposalIdentity proposal.toStoredProposal proposalHash proposal.proposalVersion
  pure (.recordJob jobId proposalId proposalHash)

/-- The reads of `createWritebackJobFromProposal` with the identity of its job. -/
def prepareStoredJob (runtime : StoreRuntime) (s : Store) (proposalId : String) (attempt now : Nat) :
    Except StoreError TableTransaction := do
  let proposal ← s.requireProposal proposalId
  let job ← createWritebackJobFromProposal runtime.platform proposal.toStoredProposal attempt
  pure (.createJob job.jobId proposalId proposal.proposalHash proposal.state now)

def prepareTables (runtime : StoreRuntime) (T : Tables) : TableOperation → Except StoreError TableTransaction
  | .store (.createWritebackJob proposalId attempt now) => prepareStoredJob runtime T.store proposalId attempt now
  | .store operation => (prepare runtime T.store operation).map .store
  | .recordWritebackJob job =>
    prepareRecordJob T.store "recorded with a writeback job" job.jobId job.proposalId job.approvalId
  | .recordHandlerWritebackJob writebackJobId proposalId proposalHash =>
    prepareRecordJob T.store "recorded with a handler writeback job" writebackJobId proposalId proposalHash

/-- The receipt that a transaction records. -/
def Transaction.records (s : Store) (t : Transaction) : Option ReceiptHeader :=
  match t with
  | .receipt header _ _ => some header
  | .reconcile input _ _ _ => (t.blindWrite s).map fun _ => input.receipt.header
  | _ => none

/-- The other tables after a transaction of the store. -/
def Tables.after (T : Tables) (t : Transaction) (store : Store) : Tables :=
  match t.records T.store with
  | some header => recordOutcome { T with store } header
  | none => { T with store }

def commitTables (runtime : StoreRuntime) (T : Tables) : TableTransaction → Except StoreError Tables
  | .store t => (commit runtime T.store t).map (T.after t)
  | .createJob jobId proposalId proposalHash read now =>
    .ok (({ T with store := createJobTransaction T.store proposalId read now } : Tables).upsertJob jobId proposalId proposalHash)
  | .recordJob jobId proposalId proposalHash => .ok (T.upsertJob jobId proposalId proposalHash)

/-! ### Agreement -/

/-- The last receipt that `receipts` returns for a proposal. -/
def Store.latestReceipt (s : Store) (proposalId : String) : Option StoredWritebackReceipt :=
  (s.receiptsOf proposalId).getLast?

/-- The tables describe the outcome of the latest receipt of a proposal. -/
structure Agree (T : Tables) (proposalId : String) (r : StoredWritebackReceipt) : Prop where
  idempotency : ∃ row, T.idempotencyReceipts.get? r.idempotencyKey = some row ∧
    stateFromReceipt row.receiptStatus = r.outcome
  job : ∀ row, T.writebackJobs.get? r.writebackJobId = some row → row.status.state = r.outcome
  proposal : ∃ v, T.store.reviewed proposalId = some v ∧ v.state = r.outcome

def TablesAgree (T : Tables) : Prop := ∀ id r, T.store.latestReceipt id = some r → Agree T id r

/-! ### What keeps the agreement -/

/-- A receipt with the job and key of another one, which is ignored. -/
def Recorded (s : Store) (header : ReceiptHeader) : Prop :=
  ∃ r ∈ s.receipts, r.writebackJobId = header.writebackJobId ∧ r.idempotencyKey = header.idempotencyKey

/-- A receipt that brings no other outcome where an earlier one stays. -/
structure RecordsNewest (T : Tables) (header : ReceiptHeader) : Prop where
  repeated : Recorded T.store header → ∀ r, T.store.latestReceipt header.proposalId = some r →
    r.outcome = headerOutcome header
  apart : ∀ id r, id ≠ header.proposalId → T.store.latestReceipt id = some r →
    r.idempotencyKey = header.idempotencyKey ∨
      (r.writebackJobId = header.writebackJobId ∧ header.writebackJobId ∈ T.writebackJobs.keys) →
    r.outcome = headerOutcome header

/-- The state that a transaction writes to a proposal that need not be active. -/
def Transaction.unlookedWrite (s : Store) (t : Transaction) : Option (String × ProposalState) :=
  match t with
  | .claim input => (input.retries s).map fun (proposalId, _) => (proposalId, .pendingWorker)
  | t => t.blindWrite s

/-- A write that leaves a recorded outcome. -/
def KeepsOutcome (s : Store) (written : Option (String × ProposalState)) : Prop :=
  ∀ id state r, written = some (id, state) → s.latestReceipt id = some r → state = r.outcome

/-- No latest receipt is that of a job. -/
def Unsettled (s : Store) (jobId : String) : Prop := ∀ id r, s.latestReceipt id = some r → r.writebackJobId ≠ jobId

/-- A transaction after which the tables agree as before. -/
def Sound (T : Tables) : TableTransaction → Prop
  | .store t => match t.records T.store with
    | some header => RecordsNewest T header
    | none => KeepsOutcome T.store (t.unlookedWrite T.store)
  | .createJob jobId proposalId _ read _ =>
    Unsettled T.store jobId ∧ (read = .approved → T.store.latestReceipt proposalId = none)
  | .recordJob jobId _ _ => Unsettled T.store jobId

/-! ### Receipts after a transaction -/

theorem Transaction.records_blindWrite {s : Store} {t : Transaction} {header : ReceiptHeader}
    (records : t.records s = some header) : t.blindWrite s = some (header.proposalId, headerOutcome header) := by
  cases t with
  | receipt h mutated now => cases records; rfl
  | reconcile input reconciled mutated now =>
    obtain ⟨write, blind, rfl⟩ := Option.map_eq_some_iff.mp records
    rw [blind]
    rw [Transaction.blindWrite] at blind
    split at blind <;> cases blind
    rfl
  | _ => cases records

/-- The receipts after a transaction that goes through. -/
theorem commit_receipts {runtime : StoreRuntime} {s s' : Store} {t : Transaction} (committed : commit runtime s t = .ok s') :
    s'.receipts = match t.records s with
      | some header => insertReceipt s.receipts (receiptRow header)
      | none => s.receipts := by
  cases t with
  | nothing | reject | setPendingWorker | receipt | enqueueApproved => cases committed; rfl
  | createJob => cases committed; exact (apply_ite Store.receipts _ _ _).trans (ite_self _)
  | create row =>
    obtain ⟨_, _, rest⟩ := bind_eq_ok committed
    cases rest; rfl
  | freshness proof now =>
    unfold commit freshnessTransaction at committed
    dsimp only at committed
    split at committed
    · obtain ⟨_, _, rest⟩ := bind_eq_ok committed
      split at rest <;> cases rest <;> rfl
    · cases committed; rfl
  | approve input =>
    obtain ⟨_, _, rest⟩ := bind_eq_ok committed
    obtain ⟨_, _, rest⟩ := bind_eq_ok rest
    obtain ⟨_, _, rest⟩ := bind_eq_ok rest
    obtain ⟨_, _, rest⟩ := bind_eq_ok rest
    dsimp only at rest
    split at rest <;> cases rest <;> rfl
  | approveByPolicy input =>
    obtain ⟨_, _, rest⟩ := bind_eq_ok committed
    obtain ⟨_, _, rest⟩ := bind_eq_ok rest
    obtain ⟨_, _, rest⟩ := bind_eq_ok rest
    obtain ⟨_, _, rest⟩ := bind_eq_ok rest
    split at rest
    · cases rest; rfl
    · split at rest
      · cases rest; rfl
      · obtain ⟨_, _, rest⟩ := bind_eq_ok rest
        cases rest; rfl
  | cloudGovernance id state now =>
    obtain ⟨_, _, rest⟩ := bind_eq_ok committed
    split at rest <;> cases rest <;> rfl
  | enqueue input proposal =>
    unfold commit enqueueTransaction at committed
    dsimp only at committed
    split at committed <;> obtain ⟨_, _, rest⟩ := bind_eq_ok committed <;> cases rest <;> rfl
  | claim input =>
    cases committed
    have leased : ∀ id row, (leaseItem runtime s input id row).receipts = s.receipts := by
      intro id row
      unfold leaseItem
      dsimp only
      split <;> rfl
    show (claimTransaction runtime s input).receipts = s.receipts
    unfold claimTransaction
    repeat' split
    all_goals first | rfl | exact leased _ _
  | cancel input read =>
    obtain ⟨_, _, rest⟩ := bind_eq_ok committed
    obtain ⟨_, _, rest⟩ := bind_eq_ok rest
    split at rest <;> cases rest <;> rfl
  | requeue input retryBudget read =>
    obtain ⟨_, _, rest⟩ := bind_eq_ok committed
    obtain ⟨_, _, rest⟩ := bind_eq_ok rest
    obtain ⟨_, _, rest⟩ := bind_eq_ok rest
    split at rest <;> cases rest <;> rfl
  | discard input =>
    obtain ⟨_, _, rest⟩ := bind_eq_ok committed
    obtain ⟨_, _, rest⟩ := bind_eq_ok rest
    cases rest; rfl
  | onLease | claimIntent | markApplying | completeIntent | requireReconciliation =>
    obtain ⟨_, _, rest⟩ := bind_eq_ok committed
    cases rest; rfl
  | reconcile input reconciled mutated now =>
    obtain ⟨intent, required, rest⟩ := bind_eq_ok committed
    obtain ⟨_, status, rest⟩ := bind_eq_ok rest
    cases rest
    have goes : ∃ intent ∈ s.ledger.getWritebackIntent input.intentId,
        intent.status = .applying ∨ intent.status = .reconciliationRequired :=
      ⟨intent, SqliteLedger.requireWritebackIntent_ok required, ensure_ok_iff.mp status⟩
    simp only [Transaction.records, Transaction.blindWrite, if_pos goes, Option.map_some]
    rfl

theorem insertReceipt_of_absent {s : Store} {header : ReceiptHeader} (absent : ¬ Recorded s header) :
    insertReceipt s.receipts (receiptRow header) = s.receipts ++ [receiptRow header] := by
  unfold insertReceipt
  rw [if_neg]
  intro present
  obtain ⟨r, member, same⟩ := List.any_eq_true.mp present
  exact absent ⟨r, member, of_decide_eq_true same⟩

theorem insertReceipt_of_recorded {s : Store} {header : ReceiptHeader} (recorded : Recorded s header) :
    insertReceipt s.receipts (receiptRow header) = s.receipts := by
  obtain ⟨r, member, same⟩ := recorded
  unfold insertReceipt
  rw [if_pos]
  exact List.any_eq_true.mpr ⟨r, member, decide_eq_true same⟩

theorem latestReceipt_congr {s s' : Store} (same : s'.receipts = s.receipts) (id : String) :
    s'.latestReceipt id = s.latestReceipt id := by
  rw [Store.latestReceipt, Store.latestReceipt, Store.receiptsOf, Store.receiptsOf, same]

/-- The latest receipts after a receipt is recorded. -/
theorem latestReceipt_record {s s' : Store} {header : ReceiptHeader}
    (receipts : s'.receipts = insertReceipt s.receipts (receiptRow header)) (id : String) :
    (¬ Recorded s header ∧ id = header.proposalId ∧ s'.latestReceipt id = some (receiptRow header)) ∨
      ((Recorded s header ∨ id ≠ header.proposalId) ∧ s'.latestReceipt id = s.latestReceipt id) := by
  by_cases recorded : Recorded s header
  · rw [insertReceipt_of_recorded recorded] at receipts
    exact .inr ⟨.inl recorded, latestReceipt_congr receipts id⟩
  · rw [insertReceipt_of_absent recorded] at receipts
    by_cases own : id = header.proposalId
    · refine .inl ⟨recorded, own, ?_⟩
      have mine : (receiptRow header).proposalId = id := own.symm
      rw [Store.latestReceipt, Store.receiptsOf, receipts, List.filter_append]
      simp [mine]
    · refine .inr ⟨.inr own, ?_⟩
      have other : (receiptRow header).proposalId ≠ id := fun same => own same.symm
      rw [Store.latestReceipt, Store.latestReceipt, Store.receiptsOf, Store.receiptsOf, receipts, List.filter_append]
      simp [other]

/-! ### States after a transaction -/

theorem stateFromReceipt_closed (status : WritebackStatus) : ProposalState.active (stateFromReceipt status) = false := by
  cases status <;> rfl

theorem activates_cases {s : Store} {t : Transaction} {id : String} {object : ProposalObject}
    (activates : t.activates s = some (id, object)) (still : t.unlookedWrite s = none) : s.reviewed id = none := by
  cases t with
  | create row =>
    simp only [Transaction.activates, Option.ite_none_right_eq_some, Option.some.injEq, Prod.mk.injEq] at activates
    rw [← activates.2.1, Store.reviewed, activates.1.1, Option.map_none]
  | claim input =>
    rw [Transaction.unlookedWrite, Option.map_eq_none_iff] at still
    rw [Transaction.activates, still] at activates
    cases activates
  | _ =>
    have none : some (id, object) = none := activates.symm.trans (congrArg (activatedBy s) still)
    cases none

/-- A claim apart, a write without looking is a blind write. -/
theorem writes_of_unlookedWrite {runtime : StoreRuntime} {s s' : Store} {t : Transaction} {id : String}
    {state : ProposalState} (committed : commit runtime s t = .ok s') (is : t.unlookedWrite s = some (id, state)) :
    Writes s s' id state := by
  cases t with
  | claim input =>
    obtain ⟨⟨proposalId, row⟩, retries, same⟩ := Option.map_eq_some_iff.mp is
    cases same
    cases committed
    exact (claim_writes runtime retries).2
  | _ => exact writes_of_blindWrite committed is

theorem unlookedWrite_of_not_claim {s : Store} {t : Transaction} (other : ∀ input, t ≠ .claim input) :
    t.unlookedWrite s = t.blindWrite s := by
  cases t with
  | claim input => exact absurd rfl (other input)
  | _ => rfl

theorem commit_of_unlookedWrite (runtime : StoreRuntime) {s : Store} {t : Transaction} {write : String × ProposalState}
    (is : t.unlookedWrite s = some write) : ∃ s', commit runtime s t = .ok s' := by
  by_cases claims : ∃ input, t = .claim input
  · obtain ⟨input, rfl⟩ := claims
    exact ⟨_, rfl⟩
  · rw [unlookedWrite_of_not_claim fun input same => claims ⟨input, same⟩] at is
    exact commit_of_blindWrite runtime is

theorem LookedMove.activates {s : Store} {id : String} {old new : ProposalState} (move : LookedMove s id old new)
    (closed : ¬ ProposalState.active old = true) : ProposalState.active new = true := by
  cases move with
  | settled _ _ active => exact absurd active closed
  | claimed => rfl

/-- A proposal that is not active keeps its state unless a transaction writes
    without looking. -/
theorem reviewed_of_still {runtime : StoreRuntime} {s s' : Store} {t : Transaction} {id : String} {v : Reviewed}
    (committed : commit runtime s t = .ok s') (still : t.unlookedWrite s = none) (found : s.reviewed id = some v)
    (closed : ProposalState.active v.state = false) : s'.reviewed id = some v := by
  have elsewhere : ∀ {written : String} {w : Reviewed} {state : ProposalState}, Writes s s' written state →
      s.reviewed written = some w → ProposalState.active w.state = true → s'.reviewed id = some v := by
    intro written w state writes present active
    have apart : id ≠ written := by
      rintro rfl
      obtain rfl : v = w := Option.some.inj (found.symm.trans present)
      rw [active] at closed
      cases closed
    rw [writes.of_ne apart, found]
  cases commit_step committed with
  | quiet blind proposals => rw [proposals, found]
  | created row is fresh proposals =>
    have apart : id ≠ row.proposalId := by
      rintro rfl
      rw [found] at fresh
      cases fresh
    rw [proposals, if_neg apart, found]
  | recorded input is w present pending proposals => rw [proposals, found]
  | approved input is w present pending writes => exact elsewhere writes present (by rw [pending]; rfl)
  | byPolicy input is w present pending bound writes => exact elsewhere writes present (by rw [pending]; rfl)
  | looked blind written state w present move writes =>
    by_cases active : ProposalState.active w.state = true
    · exact elsewhere writes present active
    · -- a transaction that looks takes an inactive proposal only into an active state
      exfalso
      have before : s.activeObject written = none := by rw [activeObject_of_reviewed present, if_neg active]
      have after : s'.activeObject written = some w.object := by
        rw [writes.activeObject present, if_pos rfl, if_pos (move.activates active)]
      cases commit_activation committed with
      | none none fewer =>
        rw [fewer written w.object after] at before
        cases before
      | one id' object one others =>
        rw [others] at after
        split at after
        · rename_i same
          subst same
          rw [activates_cases one still] at present
          cases present
        · rw [after] at before
          cases before
  | blindly written state is writes =>
    have none : some (written, state) = none := by
      rw [← is]
      cases t with
      | claim => rfl
      | _ => exact still
    cases none

/-! ### Agreement after a transaction -/

theorem recordOutcome_idempotency (T : Tables) (s' : Store) (header : ReceiptHeader) (key : String) :
    (Tables.recordOutcome { T with store := s' } header).idempotencyReceipts.get? key =
      if key = header.idempotencyKey then some ⟨header.writebackJobId, header.proposalId, header.status⟩
      else T.idempotencyReceipts.get? key :=
  KeyedMap.get?_set _ _ _ _

theorem recordOutcome_job (T : Tables) (s' : Store) (header : ReceiptHeader) (jobId : String) :
    (Tables.recordOutcome { T with store := s' } header).writebackJobs.get? jobId =
      if jobId = header.writebackJobId then
        (T.writebackJobs.get? header.writebackJobId).map fun row => { row with status := .recorded header.status }
      else T.writebackJobs.get? jobId :=
  KeyedMap.get?_modify _ _ _ _

/-- After a receipt is recorded, a latest receipt of its outcome agrees with the
    tables it shares with the receipt, and any other with the rest. -/
theorem agree_recorded {T : Tables} {s' : Store} {header : ReceiptHeader} {id : String} {r : StoredWritebackReceipt}
    (idempotency : r.idempotencyKey ≠ header.idempotencyKey → ∃ row,
      T.idempotencyReceipts.get? r.idempotencyKey = some row ∧ stateFromReceipt row.receiptStatus = r.outcome)
    (job : r.writebackJobId ≠ header.writebackJobId → ∀ row, T.writebackJobs.get? r.writebackJobId = some row →
      row.status.state = r.outcome)
    (shared : r.idempotencyKey = header.idempotencyKey ∨
      (r.writebackJobId = header.writebackJobId ∧ header.writebackJobId ∈ T.writebackJobs.keys) →
        r.outcome = headerOutcome header)
    (proposal : ∃ v, s'.reviewed id = some v ∧ v.state = r.outcome) :
    Agree (Tables.recordOutcome { T with store := s' } header) id r := by
  refine ⟨?_, fun row stored => ?_, proposal⟩
  · by_cases same : r.idempotencyKey = header.idempotencyKey
    · exact ⟨⟨header.writebackJobId, header.proposalId, header.status⟩, by rw [recordOutcome_idempotency, if_pos same], (shared (.inl same)).symm⟩
    · obtain ⟨row, stored, outcome⟩ := idempotency same
      exact ⟨row, by rw [recordOutcome_idempotency, if_neg same, stored], outcome⟩
  · rw [recordOutcome_job] at stored
    split at stored
    · rename_i same
      obtain ⟨before, found, rfl⟩ := Option.map_eq_some_iff.mp stored
      exact (shared (.inr ⟨same, KeyedMap.mem_keys.mpr ⟨before, found⟩⟩)).symm
    · rename_i apart
      exact job apart row stored

/-- A receipt keeps the tables in agreement exactly if it brings no other outcome
    where an earlier one stays. -/
theorem record_agree_iff {T : Tables} {s' : Store} {header : ReceiptHeader} (agree : TablesAgree T)
    (writes : Writes T.store s' header.proposalId (headerOutcome header))
    (receipts : s'.receipts = insertReceipt T.store.receipts (receiptRow header))
    (stored : (T.store.reviewed header.proposalId).isSome) :
    TablesAgree (Tables.recordOutcome { T with store := s' } header) ↔ RecordsNewest T header := by
  obtain ⟨v, found⟩ := Option.isSome_iff_exists.mp stored
  have written : s'.reviewed header.proposalId = some (v.withState (headerOutcome header)) := by
    rw [writes, if_pos rfl, found, Option.map_some]
  constructor
  · intro after
    refine ⟨fun recorded r latest => ?_, fun id r other latest shared => ?_⟩
    · have stays : s'.latestReceipt header.proposalId = some r := by
        rcases latestReceipt_record receipts header.proposalId with ⟨fresh, _⟩ | ⟨_, same⟩
        · exact absurd recorded fresh
        · rw [same, latest]
      obtain ⟨v', found', state⟩ := (after _ r stays).proposal
      change s'.reviewed header.proposalId = some v' at found'
      rw [written] at found'
      cases found'
      exact state.symm
    · have stays : s'.latestReceipt id = some r := by
        rcases latestReceipt_record receipts id with ⟨_, own, _⟩ | ⟨_, same⟩
        · exact absurd own other
        · rw [same, latest]
      have there := after id r stays
      rcases shared with key | ⟨job, queued⟩
      · obtain ⟨row, kept, outcome⟩ := there.idempotency
        rw [recordOutcome_idempotency, if_pos key] at kept
        cases kept
        exact outcome.symm
      · obtain ⟨row, kept⟩ := KeyedMap.mem_keys.mp queued
        refine (there.job { row with status := .recorded header.status } ?_).symm
        rw [recordOutcome_job, if_pos job, kept, Option.map_some]
  · intro newest id r latest
    rcases latestReceipt_record receipts id with ⟨_, rfl, mine⟩ | ⟨kept, same⟩
    · obtain rfl : receiptRow header = r := Option.some.inj (mine.symm.trans latest)
      exact agree_recorded (fun apart => absurd rfl apart) (fun apart => absurd rfl apart) (fun _ => rfl)
        ⟨_, written, rfl⟩
    · have before : T.store.latestReceipt id = some r := same.symm.trans latest
      have there := agree id r before
      by_cases own : id = header.proposalId
      · subst own
        have outcome := newest.repeated (kept.resolve_right fun other => other rfl) r before
        exact agree_recorded (fun _ => there.idempotency) (fun _ => there.job) (fun _ => outcome)
          ⟨_, written, outcome.symm⟩
      · refine agree_recorded (fun _ => there.idempotency) (fun _ => there.job) (newest.apart id r own before) ?_
        obtain ⟨w, found', state⟩ := there.proposal
        exact ⟨w, by rw [writes.of_ne own, found'], state⟩

/-- A transaction that records no receipt keeps the tables in agreement exactly if
    what it writes leaves the outcomes. -/
theorem store_agree_iff {runtime : StoreRuntime} {T : Tables} {s' : Store} {t : Transaction} (agree : TablesAgree T)
    (committed : commit runtime T.store t = .ok s') (records : t.records T.store = none) :
    TablesAgree { T with store := s' } ↔ KeepsOutcome T.store (t.unlookedWrite T.store) := by
  have receipts : s'.receipts = T.store.receipts := by
    have after := commit_receipts committed
    rwa [records] at after
  constructor
  · intro after id state r is latest
    have writes := writes_of_unlookedWrite committed is
    obtain ⟨v, found, _⟩ := (agree id r latest).proposal
    obtain ⟨v', found', state'⟩ := (after id r ((latestReceipt_congr receipts id).trans latest)).proposal
    change s'.reviewed id = some v' at found'
    rw [writes, if_pos rfl, found, Option.map_some] at found'
    cases found'
    exact state'
  · intro keeps id r latest
    have before : T.store.latestReceipt id = some r := (latestReceipt_congr receipts id).symm.trans latest
    have there := agree id r before
    refine ⟨there.idempotency, there.job, ?_⟩
    obtain ⟨v, found, state⟩ := there.proposal
    cases is : t.unlookedWrite T.store with
    | none =>
      have closed : ProposalState.active v.state = false := by
        rw [state]
        exact stateFromReceipt_closed r.status
      exact ⟨v, reviewed_of_still committed is found closed, state⟩
    | some write =>
      obtain ⟨written, new⟩ := write
      have writes := writes_of_unlookedWrite committed is
      by_cases own : id = written
      · subst own
        refine ⟨v.withState new, ?_, keeps id new r is before⟩
        change s'.reviewed id = _
        rw [writes, if_pos rfl, found, Option.map_some]
      · exact ⟨v, by rw [← found]; exact writes.of_ne own, state⟩

theorem pendingWorker_ne_outcome (r : StoredWritebackReceipt) : ProposalState.pendingWorker ≠ r.outcome := by
  intro same
  have closed := stateFromReceipt_closed r.status
  rw [show stateFromReceipt r.status = .pendingWorker from same.symm] at closed
  cases closed

/-- A job that is stored for a worker keeps the tables in agreement exactly if no
    latest receipt is that of the job. -/
theorem upsertJob_agree_iff {T : Tables} {jobId proposalId proposalHash : String} :
    TablesAgree (T.upsertJob jobId proposalId proposalHash) ↔ TablesAgree T ∧ Unsettled T.store jobId := by
  have status := T.get?_upsertJob jobId proposalId proposalHash
  constructor
  · intro after
    have unsettled : Unsettled T.store jobId := by
      intro id r latest same
      have waits := status r.writebackJobId
      rw [if_pos same] at waits
      obtain ⟨row, stored, waiting⟩ := Option.map_eq_some_iff.mp waits
      have outcome := (after id r latest).job row stored
      rw [waiting] at outcome
      exact pendingWorker_ne_outcome r outcome
    refine ⟨fun id r latest => ?_, unsettled⟩
    have there := after id r latest
    refine ⟨there.idempotency, fun row stored => ?_, there.proposal⟩
    have same := status r.writebackJobId
    rw [if_neg (unsettled id r latest), stored, Option.map_some] at same
    obtain ⟨row', found, equal⟩ := Option.map_eq_some_iff.mp same
    rw [← equal]
    exact there.job row' found
  · rintro ⟨agree, unsettled⟩ id r latest
    have there := agree id r latest
    refine ⟨there.idempotency, fun row stored => ?_, there.proposal⟩
    have same := status r.writebackJobId
    rw [if_neg (unsettled id r latest), stored, Option.map_some] at same
    obtain ⟨before, found, equal⟩ := Option.map_eq_some_iff.mp same.symm
    rw [← equal]
    exact there.job before found

theorem createJob_keepsOutcome {s : Store} {proposalId : String} {read : ProposalState} {now : Nat} :
    KeepsOutcome s ((Transaction.createJob proposalId read now).unlookedWrite s) ↔
      (read = .approved → s.latestReceipt proposalId = none) := by
  constructor
  · intro keeps approved
    cases latest : s.latestReceipt proposalId with
    | none => rfl
    | some r =>
      exact absurd (keeps proposalId .pendingWorker r (by simp [Transaction.unlookedWrite, Transaction.blindWrite, approved])
        latest) (pendingWorker_ne_outcome r)
  · intro absent id state r is latest
    rw [Transaction.unlookedWrite, Transaction.blindWrite] at is
    · split at is
      · rename_i approved
        cases is
        rw [absent approved] at latest
        cases latest
      · cases is
    · intro input same
      cases same

/-! ### Processes on one database -/

/-- A database with all its tables, and for each process the transaction it is
    about to run. -/
structure TableWorld (ι : Type) where
  tables : Tables
  prepared : ι → Option TableTransaction

inductive TableEvent (ι : Type) where
  | prepare (process : ι) (operation : TableOperation)
  | commit (process : ι)

/-- The tables after a transaction. One that throws is rolled back. -/
def committedTables (runtime : StoreRuntime) (T : Tables) (t : TableTransaction) : Tables :=
  (commitTables runtime T t).toOption.getD T

/-- The receipt that a transaction is to record. -/
def Transaction.header : Transaction → Option ReceiptHeader
  | .receipt header _ _ => some header
  | .reconcile input _ _ _ => some input.receipt.header
  | _ => none

theorem Transaction.header_of_records {s : Store} {t : Transaction} {header : ReceiptHeader}
    (records : t.records s = some header) : t.header = some header := by
  cases t with
  | receipt => exact records
  | reconcile input reconciled mutated now =>
    obtain ⟨_, _, rfl⟩ := Option.map_eq_some_iff.mp records
    rfl
  | _ => cases records

/-- A transaction that records a receipt does so for a proposal that is stored. -/
def Grounded (T : Tables) (t : TableTransaction) : Prop :=
  ∀ t' header, t = .store t' → t'.header = some header → (T.store.reviewed header.proposalId).isSome

theorem reviewed_isSome_commit {runtime : StoreRuntime} {s s' : Store} {t : Transaction} {id : String}
    (committed : commit runtime s t = .ok s') (stored : (s.reviewed id).isSome) : (s'.reviewed id).isSome := by
  have written : ∀ {written : String} {state : ProposalState}, Writes s s' written state → (s'.reviewed id).isSome := by
    intro written state writes
    rw [writes]
    split
    · rename_i same
      subst same
      simpa using stored
    · exact stored
  cases commit_step committed with
  | quiet blind proposals => rwa [proposals]
  | created row is fresh proposals =>
    rw [proposals]
    split
    · rfl
    · exact stored
  | recorded input is v found pending proposals => rwa [proposals]
  | approved input is v found pending writes => exact written writes
  | byPolicy input is v found pending bound writes => exact written writes
  | looked blind id' state v found move writes => exact written writes
  | blindly id' state is writes => exact written writes

theorem prepareReceipt_stored {runtime : StoreRuntime} {s : Store} {input receipt : ExecutionReceipt} {mutated : Bool}
    (prepared : prepareReceipt runtime s input = .ok (receipt, mutated)) : (s.reviewed receipt.header.proposalId).isSome := by
  obtain ⟨parsed, _, rest⟩ := bind_eq_ok prepared
  obtain ⟨proposal, required, rest⟩ := bind_eq_ok rest
  obtain ⟨_, _, rest⟩ := bind_eq_ok rest
  cases rest
  rw [reviewed_of_requireProposal required]
  rfl

theorem prepareReconcile_stored {runtime : StoreRuntime} {s : Store} {input : ReconcileInput}
    {reconciled : StoredWritebackIntent} {mutated : Bool}
    (prepared : prepareReconcile runtime s input = .ok (reconciled, mutated)) :
    (s.reviewed input.receipt.header.proposalId).isSome := by
  obtain ⟨intent, _, rest⟩ := bind_eq_ok prepared
  obtain ⟨proposal, required, rest⟩ := bind_eq_ok rest
  obtain ⟨row, matched, rest⟩ := bind_eq_ok rest
  obtain ⟨_, _, rest'⟩ := bind_eq_ok matched
  obtain ⟨_, _, rest'⟩ := bind_eq_ok rest'
  obtain ⟨_, _, rest'⟩ := bind_eq_ok rest'
  obtain ⟨_, receipt, _⟩ := bind_eq_ok rest'
  have same : input.receipt.header.proposalId = intent.proposalId := by
    have governed := (ensure_ok_iff.mp receipt).1
    unfold receiptMatchesIntent at governed
    cases kind : input.receipt <;> rw [kind] at governed <;> simp at governed
    all_goals exact governed.2.2.1
  rw [same, reviewed_of_requireProposal required]
  rfl

theorem prepare_header {runtime : StoreRuntime} {s : Store} {operation : StoreOperation} {t : Transaction}
    {header : ReceiptHeader} (prepared : prepare runtime s operation = .ok t) (is : t.header = some header) :
    (s.reviewed header.proposalId).isSome := by
  cases operation with
  | recordExecutionReceipt input now =>
    obtain ⟨⟨receipt, mutated⟩, read, rest⟩ := bind_eq_ok prepared
    cases rest
    cases is
    exact prepareReceipt_stored read
  | reconcileWritebackIntent input now =>
    obtain ⟨⟨reconciled, mutated⟩, read, rest⟩ := bind_eq_ok prepared
    cases rest
    cases is
    exact prepareReconcile_stored read
  | createProposal created =>
    obtain ⟨row?, _, rest⟩ := bind_eq_ok prepared
    cases row? <;> cases rest <;> cases is
  | approveProposalByPolicy | recordCloudGovernanceEvent | enqueueApprovedForWorker | claimWorkerItem | onLease
  | claimWritebackIntent | markWritebackIntentApplying | completeWritebackIntent | requireWritebackReconciliation =>
    cases prepared
    cases is
  | _ =>
    obtain ⟨_, _, rest⟩ := bind_eq_ok prepared
    cases rest
    cases is

theorem prepareTables_grounded {runtime : StoreRuntime} {T : Tables} {operation : TableOperation} {t : TableTransaction}
    (prepared : prepareTables runtime T operation = .ok t) : Grounded T t := by
  intro t' header same is
  subst same
  unfold prepareTables at prepared
  split at prepared
  · obtain ⟨_, _, rest⟩ := bind_eq_ok prepared
    obtain ⟨_, _, rest⟩ := bind_eq_ok rest
    cases rest
  · rename_i operation _
    cases read : prepare runtime T.store operation with
    | error e => rw [read] at prepared; cases prepared
    | ok t =>
      rw [read] at prepared
      cases prepared
      exact prepare_header read is
  all_goals
    obtain ⟨_, _, rest⟩ := bind_eq_ok prepared
    obtain ⟨_, _, rest⟩ := bind_eq_ok rest
    obtain ⟨_, _, rest⟩ := bind_eq_ok rest
    cases rest

theorem committedTables_ok {runtime : StoreRuntime} {T : Tables} {t : Transaction} {s' : Store}
    (committed : commit runtime T.store t = .ok s') : committedTables runtime T (.store t) = T.after t s' := by
  simp only [committedTables, commitTables, committed]
  rfl

theorem committedTables_error {runtime : StoreRuntime} {T : Tables} {t : Transaction} {e : StoreError}
    (throws : commit runtime T.store t = .error e) : committedTables runtime T (.store t) = T := by
  simp only [committedTables, commitTables, throws]
  rfl

theorem after_store (T : Tables) (t : Transaction) (store : Store) : (T.after t store).store = store := by
  unfold Tables.after
  split <;> rfl

theorem committedTables_isSome (runtime : StoreRuntime) {T : Tables} (t : TableTransaction) {id : String}
    (stored : (T.store.reviewed id).isSome) : ((committedTables runtime T t).store.reviewed id).isSome := by
  cases t with
  | store t =>
    cases outcome : commit runtime T.store t with
    | error e => rwa [committedTables_error outcome]
    | ok s' =>
      rw [committedTables_ok outcome, after_store]
      exact reviewed_isSome_commit outcome stored
  | createJob jobId proposalId proposalHash read now =>
    have committed : commit runtime T.store (.createJob proposalId read now) =
      .ok (createJobTransaction T.store proposalId read now) := rfl
    exact reviewed_isSome_commit committed stored
  | recordJob => exact stored

/-- A transaction keeps the tables in agreement exactly if it is sound. -/
theorem committedTables_agree_iff (runtime : StoreRuntime) {T : Tables} {t : TableTransaction} (agree : TablesAgree T)
    (grounded : Grounded T t) : TablesAgree (committedTables runtime T t) ↔ Sound T t := by
  cases t with
  | recordJob jobId proposalId proposalHash =>
    exact upsertJob_agree_iff.trans ⟨fun both => both.2, fun unsettled => ⟨agree, unsettled⟩⟩
  | createJob jobId proposalId proposalHash read now =>
    have committed : commit runtime T.store (.createJob proposalId read now) =
      .ok (createJobTransaction T.store proposalId read now) := rfl
    have same := commit_receipts committed
    have unsettled : Unsettled (createJobTransaction T.store proposalId read now) jobId ↔ Unsettled T.store jobId := by
      simp only [Unsettled, latestReceipt_congr same]
    exact (upsertJob_agree_iff.trans (and_congr (store_agree_iff agree committed rfl) unsettled)).trans
      (and_comm.trans (and_congr_right fun _ => createJob_keepsOutcome))
  | store t =>
    simp only [Sound]
    cases outcome : commit runtime T.store t with
    | ok s' =>
      rw [committedTables_ok outcome]
      have receipts := commit_receipts outcome
      unfold Tables.after
      cases records : t.records T.store with
      | none => exact store_agree_iff agree outcome records
      | some header =>
        rw [records] at receipts
        exact record_agree_iff agree (writes_of_blindWrite outcome (Transaction.records_blindWrite records)) receipts
          (grounded t header rfl (Transaction.header_of_records records))
    | error e =>
      rw [committedTables_error outcome]
      refine ⟨fun _ => ?_, fun _ => agree⟩
      cases records : t.records T.store with
      | some header =>
        obtain ⟨s', goes⟩ := commit_of_blindWrite runtime (Transaction.records_blindWrite records)
        rw [goes] at outcome
        cases outcome
      | none =>
        intro id state r is
        obtain ⟨s', goes⟩ := commit_of_unlookedWrite runtime is
        rw [goes] at outcome
        cases outcome

section
variable {ι : Type} [DecidableEq ι]

def TableWorld.step (runtime : StoreRuntime) (w : TableWorld ι) : TableEvent ι → TableWorld ι
  | .prepare process operation =>
    match prepareTables runtime w.tables operation with
    | .ok t => { w with prepared := Function.update w.prepared process (some t) }
    | .error _ => w
  | .commit process =>
    match w.prepared process with
    | some t => ⟨committedTables runtime w.tables t, Function.update w.prepared process none⟩
    | none => w

/-- A sound step of processes that share the database. -/
def SoundStep (w : TableWorld ι) : TableEvent ι → Prop
  | .prepare _ _ => True
  | .commit process => ∀ t ∈ w.prepared process, Sound w.tables t

def AllGrounded (w : TableWorld ι) : Prop := ∀ process t, w.prepared process = some t → Grounded w.tables t

theorem allGrounded_step (runtime : StoreRuntime) {w : TableWorld ι} (e : TableEvent ι) (grounded : AllGrounded w) :
    AllGrounded (TableWorld.step runtime w e) := by
  cases e with
  | prepare process operation =>
    simp only [TableWorld.step]
    split
    · rename_i t prepared
      intro other t' is
      dsimp only at is
      by_cases same : other = process
      · subst same
        rw [Function.update_self] at is
        cases is
        exact prepareTables_grounded prepared
      · rw [Function.update_of_ne same] at is
        exact grounded other t' is
    · exact grounded
  | commit process =>
    simp only [TableWorld.step]
    split
    · rename_i t prepared
      intro other t' is
      dsimp only at is
      by_cases same : other = process
      · subst same
        rw [Function.update_self] at is
        cases is
      · rw [Function.update_of_ne same] at is
        intro t'' header kind stored
        exact committedTables_isSome runtime t (grounded other t' is t'' header kind stored)
    · exact grounded

theorem tables_step_agree_iff (runtime : StoreRuntime) {w : TableWorld ι} (e : TableEvent ι) (grounded : AllGrounded w)
    (agree : TablesAgree w.tables) : TablesAgree (TableWorld.step runtime w e).tables ↔ SoundStep w e := by
  cases e with
  | prepare process operation =>
    simp only [TableWorld.step]
    split <;> exact ⟨fun _ => trivial, fun _ => agree⟩
  | commit process =>
    simp only [TableWorld.step]
    split
    · rename_i t prepared
      simp only [SoundStep, prepared, Option.mem_def, Option.some.injEq, forall_eq']
      exact committedTables_agree_iff runtime agree (grounded process t prepared)
    · rename_i idle
      simp only [SoundStep, idle]
      exact ⟨fun _ _ member => (Option.not_mem_none _ member).elim, fun _ => agree⟩

/-! ### Effects and dead letters -/

/-- An operator cannot requeue the item of a proposal with a committed effect. -/
def RequeueRefusesEffects (T : Tables) : Prop :=
  ∀ input retryBudget read, input.proposalId ∈ T.effects → ∃ e, requeueTransaction T.store input retryBudget read = .error e

/-- The receipts of every proposal with a committed effect prove it. -/
def EffectsProven (T : Tables) : Prop := ∀ id ∈ T.effects, ∃ r ∈ T.store.receiptsOf id, r.provesEffect = true

theorem EffectsProven.refuses {T : Tables} (proven : EffectsProven T) : RequeueRefusesEffects T := by
  intro input retryBudget read effect
  obtain ⟨r, member, proof⟩ := proven _ effect
  cases outcome : requeueTransaction T.store input retryBudget read with
  | error e => exact ⟨e, rfl⟩
  | ok s' =>
    obtain ⟨_, _, rest⟩ := bind_eq_ok outcome
    obtain ⟨_, _, rest⟩ := bind_eq_ok rest
    obtain ⟨_, unapplied, _⟩ := bind_eq_ok rest
    exact absurd (of_decide_eq_true proof) (ensure_ok_iff.mp unapplied r member)

/-- A step that records no effect in a receipt that is ignored, unless an earlier
    receipt of the proposal proves one. -/
def ProvenStep (w : TableWorld ι) : TableEvent ι → Prop
  | .prepare _ _ => True
  | .commit process => ∀ t header, w.prepared process = some (.store t) → t.records w.tables.store = some header →
      (receiptRow header).provesEffect = true → Recorded w.tables.store header →
        ∃ r ∈ w.tables.store.receiptsOf header.proposalId, r.provesEffect = true

theorem receiptsOf_mono {s s' : Store} {header : ReceiptHeader} {id : String} {r : StoredWritebackReceipt}
    (receipts : s'.receipts = insertReceipt s.receipts (receiptRow header)) (member : r ∈ s.receiptsOf id) :
    r ∈ s'.receiptsOf id := by
  rw [Store.receiptsOf, List.mem_filter] at member ⊢
  refine ⟨?_, member.2⟩
  rw [receipts]
  unfold insertReceipt
  split
  · exact member.1
  · exact List.mem_append_left _ member.1

theorem after_proven {runtime : StoreRuntime} {T : Tables} {t : Transaction} {s' : Store} (proven : EffectsProven T)
    (committed : commit runtime T.store t = .ok s')
    (keeps : ∀ header, t.records T.store = some header → (receiptRow header).provesEffect = true →
      Recorded T.store header → ∃ r ∈ T.store.receiptsOf header.proposalId, r.provesEffect = true) :
    EffectsProven (T.after t s') := by
  have receipts := commit_receipts committed
  unfold Tables.after
  cases records : t.records T.store with
  | none =>
    rw [records] at receipts
    intro id effect
    obtain ⟨r, member, proof⟩ := proven id effect
    refine ⟨r, ?_, proof⟩
    simpa only [Store.receiptsOf, receipts] using member
  | some header =>
    rw [records] at receipts
    have kept : ∀ id ∈ T.effects, ∃ r ∈ s'.receiptsOf id, r.provesEffect = true := by
      intro id effect
      obtain ⟨r, member, proof⟩ := proven id effect
      exact ⟨r, receiptsOf_mono receipts member, proof⟩
    intro id effect
    simp only [Tables.recordOutcome] at effect
    split at effect
    · rename_i proves
      rcases List.mem_cons.mp effect with rfl | before
      · by_cases recorded : Recorded T.store header
        · obtain ⟨r, member, proof⟩ := keeps header records proves recorded
          exact ⟨r, receiptsOf_mono receipts member, proof⟩
        · refine ⟨receiptRow header, ?_, proves⟩
          change receiptRow header ∈ s'.receiptsOf header.proposalId
          have appended : s'.receipts = T.store.receipts ++ [receiptRow header] :=
            Eq.trans receipts (insertReceipt_of_absent recorded)
          rw [Store.receiptsOf, appended, List.mem_filter]
          exact ⟨List.mem_append_right _ (List.mem_singleton.mpr rfl), decide_eq_true rfl⟩
      · exact kept id before
    · exact kept id effect

theorem effectsProven_step (runtime : StoreRuntime) {w : TableWorld ι} (e : TableEvent ι) (proven : EffectsProven w.tables)
    (keeps : ProvenStep w e) : EffectsProven (TableWorld.step runtime w e).tables := by
  cases e with
  | prepare process operation =>
    simp only [TableWorld.step]
    split <;> exact proven
  | commit process =>
    simp only [TableWorld.step]
    split
    · rename_i t prepared
      cases t with
      | recordJob => exact proven
      | createJob jobId proposalId proposalHash read now =>
        have same : (createJobTransaction w.tables.store proposalId read now).receipts = w.tables.store.receipts := by
          unfold createJobTransaction
          split <;> rfl
        intro id effect
        obtain ⟨r, member, proof⟩ := proven id effect
        refine ⟨r, ?_, proof⟩
        change r ∈ (createJobTransaction w.tables.store proposalId read now).receiptsOf id
        simpa only [Store.receiptsOf, same] using member
      | store t =>
        cases outcome : commit runtime w.tables.store t with
        | error e => rwa [committedTables_error outcome]
        | ok s' =>
          rw [committedTables_ok outcome]
          exact after_proven proven outcome fun header => keeps t header prepared
    · exact proven

/-! ### Runs -/

/-- The tables after a run of processes from an empty database. -/
def tablesAfter (runtime : StoreRuntime) (events : List (TableEvent ι)) : Tables :=
  (run (TableWorld.step runtime) ⟨.empty, fun _ => none⟩ events).tables

end

/-! ### A superseded receipt that stays -/

/-- The receipt of an apply whose outcome is unknown. -/
def unknownOutcome : ExecutionReceipt :=
  .v1 { writebackJobId := "wbj_prop_1", proposalId := "prop_1", runnerId := "worker_1", status := .reconciliationRequired
        rowsAffected := 0, idempotencyKey := "prop_1:7", sourceDatabaseMutated := false
        executedAt := "2026-07-12T00:00:00.000Z", safeErrorCode := none, receiptHash := ⟨"00"⟩
        reconciliation := some ⟨"wbi:wbj_prop_1", "commit not acknowledged"⟩, previousVersion := none, newVersion := none }

/-- The receipt of an operator who finds the write in the source. -/
def foundApplied : ExecutionReceipt :=
  .v2 { writebackJobId := "wbj_prop_1", proposalId := "prop_1", runnerId := "worker_1", status := .applied
        rowsAffected := 1, idempotencyKey := "prop_1:7", sourceDatabaseMutated := true
        executedAt := "2026-07-12T01:00:00.000Z", safeErrorCode := none, receiptHash := ⟨"01"⟩, reconciliation := none
        proposalHash := "sha256:aa", approvalId := "sha256:aa", receiptAuthority := .runnerLedger, sourceId := "crm"
        schema := "public", table := "tickets", identities := [⟨"id", .str "7"⟩], safeOutcomeCode := "APPLIED"
        inverse := none, operation := .update, beforeDigest := none, afterDigest := none, tombstoneDigest := none }

/-- An operation on the tables whose transaction follows its reads at once. -/
def uninterrupted (operation : TableOperation) : List (TableEvent Bool) := [.prepare false operation, .commit false]

/-- The apply of an approved proposal ends without a known outcome, and its worker
    gives the item up. -/
def outcomeUnknown : List (TableEvent Bool) :=
  [.createProposal closeTicketRow, .approveProposal closeTicketApproval,
    .enqueueWorkerProposal ⟨"prop_1", none, none, none, none, 2⟩, .claimWorkerItem (claimAny 3),
    .createWritebackJob "prop_1" 1 4, .claimWritebackIntent (closeTicketJob 1) "worker_1",
    .markWritebackIntentApplying "wbi:wbj_prop_1" "worker_1", .recordExecutionReceipt unknownOutcome 5,
    .onLease closeTicketLease (.deadLetter "RECONCILIATION_REQUIRED") 6].flatMap fun operation =>
      uninterrupted (.store operation)

/-- Then an operator reconciles the intent to applied. -/
def reconciledToApplied : List (TableEvent Bool) :=
  outcomeUnknown ++
    uninterrupted (.store (.reconcileWritebackIntent ⟨"wbi:wbj_prop_1", foundApplied, "row is closed", .ok ()⟩ 7))

def reconciledTables : Tables := tablesAfter constantStoreRuntime reconciledToApplied

/-- The decision to requeue the item of the applied proposal. -/
def requeueApplied : QueueDecision := ⟨"prop_1", ⟨"ana", some requeueOperator, true⟩, 8⟩

/-- The receipt of an approved proposal that was applied. -/
def appliedAtOnce : List (TableEvent Bool) :=
  uninterrupted (.store (.createProposal closeTicketRow)) ++
  uninterrupted (.store (.recordExecutionReceipt (closeTicketReceipt .applied) 3))

end SynapsorRunner.ProposalStore
