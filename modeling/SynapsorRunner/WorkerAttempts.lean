import SynapsorRunner.LeaseRuns

/-!
One iteration of the worker loop after its claim. `applyProposal` returns or throws,
the outcome is folded into the queue from the state of the proposal, its last receipt
and the code of an error, and every call of the store on the way may fail. A failure
of the `try` block goes to the handler with the same item, and what the handler throws
ends the loop.

The handler reads the code of an error only, whatever the attempt has done at its
source. So the queue agrees with the proposal after an iteration exactly where no
error comes after an effect, except with a code for reconciliation, and where the
handler still finds the lease (`iteration_agrees`).
-/
namespace SynapsorRunner.WorkerAttempts
open SynapsorRunner.Protocol SynapsorRunner.Proposals SynapsorRunner.Intents SynapsorRunner.ProposalStore
open SynapsorRunner.LeaseRuns

/-! ### Error codes -/

/-- The code and the message of an error. -/
structure Failure where
  code : Option String
  message : String
  deriving DecidableEq, Repr

/-- What a call throws: the refusal of `assertWorkerLease`, or another error. -/
inductive Thrown where
  | lease (error : StoreError)
  | failure (error : Failure)
  deriving DecidableEq, Repr

def Thrown.code : Thrown → Option String
  | lease (.proposalStore code _) => some code
  | lease _ => none
  | failure error => error.code

def Thrown.message : Thrown → String
  | lease (.proposalStore _ message) => message
  | lease _ => ""
  | failure error => error.message

/-- `/^[A-Z][A-Z0-9_:-]{1,79}$/`. -/
def operationalCode (code : String) : Bool :=
  match code.toList with
  | [] => false
  | first :: rest => first.isUpper && decide (1 ≤ rest.length ∧ rest.length ≤ 79) &&
      rest.all fun c => c.isUpper || c.isDigit || c == '_' || c == ':' || c == '-'

def safeOperationalErrorCode (error : Thrown) : String := (error.code.filter operationalCode).getD "COMMAND_REJECTED"

/-- `/timeout/i`. -/
def mentionsTimeout (message : String) : Bool :=
  (message.toList.map Char.toLower).tails.any fun rest => "timeout".toList.isPrefixOf rest

def workerErrorCode (error : Thrown) : String :=
  let safe := safeOperationalErrorCode error
  if safe ≠ "COMMAND_REJECTED" then safe
  else if mentionsTimeout error.message then "HANDLER_TIMEOUT"
  else "WORKER_EXECUTION_ERROR"

/-- `HANDLER_HTTP_(429|5\d\d)`. -/
def retryableHttpCode (code : String) : Bool :=
  "HANDLER_HTTP_".toList.isPrefixOf code.toList &&
    match code.toList.drop 13 with
    | [a, b, c] => (a == '4' && b == '2' && c == '9') || (a == '5' && b.isDigit && c.isDigit)
    | _ => false

def isRetryableWritebackCode (code : String) : WorkerExecutionMode → Bool
  | .supervisedWorker =>
    ["DATABASE_UNAVAILABLE", "TEMPORARILY_UNAVAILABLE", "TRANSACTION_FAILED", "IDEMPOTENCY_RECEIPT_IN_PROGRESS"].contains code
  | .legacy =>
    ["DATABASE_UNAVAILABLE", "TRANSACTION_FAILED", "HANDLER_TIMEOUT", "HANDLER_REQUEST_FAILED",
      "IDEMPOTENCY_RECEIPT_IN_PROGRESS", "WORKER_EXECUTION_ERROR"].contains code || retryableHttpCode code

/-- `/^(OUTCOME_UNKNOWN|RECONCILIATION_REQUIRED|RECEIPT_OUTCOME_UNKNOWN)$/`. -/
def unknownOutcomeCode (code : String) : Bool :=
  ["OUTCOME_UNKNOWN", "RECONCILIATION_REQUIRED", "RECEIPT_OUTCOME_UNKNOWN"].contains code

/-! ### The claimed item -/

structure Worker where
  workerId : String
  retryBaseMs : Nat
  retryMaxMs : Nat

/-- An item as `claimWorkerItem` returns it, with its lease. -/
structure ClaimedItem where
  proposalId : String
  item : WorkerQueueItem
  leaseId : String
  leased : item.leaseId = some leaseId
  given : nonEmpty leaseId = true

namespace ClaimedItem
variable (claimed : ClaimedItem) (worker : Worker)

def lease : Lease := ⟨claimed.proposalId, worker.workerId, some claimed.leaseId⟩

def supervised : Bool := decide (claimed.item.executionMode = .supervisedWorker)

end ClaimedItem

/-! ### Steps that may throw -/

/-- A piece of the loop: the store it leaves, and what it throws. -/
abbrev Step := Store → Store × Option Thrown

namespace Step

def andThen (a b : Step) : Step := fun s =>
  match (a s).2 with
  | none => b (a s).1
  | some error => ((a s).1, some error)

/-- `try { a } catch (error) { handler }`. -/
def onError (a : Step) (handler : Thrown → Step) : Step := fun s =>
  match (a s).2 with
  | none => a s
  | some error => handler error (a s).1

/-- `try { a } finally { close() }`: what the closing throws comes first. -/
def closing (a : Step) (close : Option Thrown) : Step := fun s => ((a s).1, close <|> (a s).2)

/-- A call that leaves the store as it is. -/
def failing (error : Option Thrown) : Step := fun s => (s, error)

@[simp] theorem failing_apply (error : Option Thrown) (s : Store) : failing error s = (s, error) := rfl

theorem failing_andThen (error : Option Thrown) (b : Step) (s : Store) :
    (failing error).andThen b s = if error = none then b s else (s, error) := by
  cases error <;> simp [andThen]

theorem andThen_failing (a : Step) (error : Option Thrown) (s : Store) :
    a.andThen (failing error) s = ((a s).1, (a s).2 <|> error) := by
  unfold andThen
  cases thrown : (a s).2 <;> simp

end Step

/-! ### One iteration -/

/-- The calls of the store in an iteration, those of the handler last. -/
inductive Call where
  | openAfter
  | getProposal
  | receipts
  | settle
  | backlogAttention
  | expiryAttention
  | closeAfter
  | openFailure
  | finish
  | failureBacklog
  | failureExpiry
  | closeFailure
  deriving DecidableEq, Repr

/-- A failure of a call, before its transaction has committed or after. -/
structure Fault where
  error : Failure
  committed : Bool

/-- Which calls fail, and when each is made. -/
structure Calls where
  fault : Call → Option Fault
  now : Call → Nat

def Calls.thrown (calls : Calls) (call : Call) : Option Thrown := (calls.fault call).map fun fault => .failure fault.error

/-- The call gets as far as its transaction. -/
def Calls.reaches (calls : Calls) (call : Call) : Bool := (calls.fault call).all (·.committed)

/-- What an attempt did at its source, as far as it can be proven. -/
inductive Effect where
  | nothing
  | committed
  | unknown
  deriving DecidableEq, Repr

/-- What the iteration reads of `receipts(proposal_id).at(-1)?.receipt`. -/
structure LastReceipt where
  status : WritebackStatus
  safeErrorCode : Option String

/-- How `applyProposal` ends: the store it leaves, the last receipt there, what it
    throws, and what has happened at the source. -/
structure Attempt where
  store : Store
  receipt : Option LastReceipt
  thrown : Option Thrown
  effect : Effect

section
variable (worker : Worker) (claimed : ClaimedItem) (calls : Calls)

/-- An operation of the store under the lease of the item. -/
def leaseStep (call : Call) (action : LeaseAction) : Step := fun s =>
  if calls.reaches call then
    match leaseTransaction s (claimed.lease worker) action (calls.now call) with
    | .error error => (s, some (.lease error))
    | .ok s' => (s', calls.thrown call)
  else (s, calls.thrown call)

/-- `Math.min(retryMaxMs, retryBaseMs * 2 ** Math.max(0, item.attempts - 1))`. -/
def retryDelay : Nat := min worker.retryMaxMs (worker.retryBaseMs * 2 ^ (claimed.item.attempts - 1))

/-- What `finishWorkerFailure` does with the item. -/
def failureAction (errorCode : String) (now : Nat) : LeaseAction :=
  if claimed.supervised && unknownOutcomeCode errorCode then .requireReconciliation errorCode
  else if !isRetryableWritebackCode errorCode claimed.item.executionMode then
    if claimed.supervised then .block errorCode else .deadLetter errorCode
  else .retry errorCode (now + retryDelay worker claimed)

def finishWorkerFailure (call : Call) (errorCode : String) : Step :=
  leaseStep worker claimed calls call (failureAction worker claimed errorCode (calls.now call))

/-- What the `try` block does with the item, from the state of the proposal and its
    last receipt. -/
def settleAction (state : ProposalState) (receipt : Option LastReceipt) (now : Nat) : LeaseAction :=
  let reported := receipt.bind (·.safeErrorCode)
  match state with
  | .applied => .complete (if receipt.any fun r => decide (r.status = .alreadyApplied) then "already_applied" else "applied")
  | .conflict => .complete "conflict"
  | .reconciliationRequired => .requireReconciliation (reported.getD "RECONCILIATION_REQUIRED")
  | .failed => failureAction worker claimed (reported.getD "WRITEBACK_FAILED") now
  | _ => failureAction worker claimed "WORKER_STATE_INVALID" now

/-- `updateSupervisedWorkerBacklogAttention` and `updateSupervisedProposalExpiryAttention`,
    which write no table of the queue. -/
def updateAttention (backlog expiry : Call) : Step :=
  Step.failing (if claimed.supervised then calls.thrown backlog <|> calls.thrown expiry else none)

/-- The outcome of an attempt that returned, between `afterStore` and its closing. -/
def settleProposal (receipt : Option LastReceipt) : Step := fun s =>
  match s.getProposal claimed.proposalId with
  | none => (s, some (.failure ⟨none, "proposal not found: " ++ claimed.proposalId⟩))
  | some proposal => Step.andThen (.failing (calls.thrown .receipts))
      (.andThen
        (leaseStep worker claimed calls .settle (settleAction worker claimed proposal.state receipt (calls.now .settle)))
        (updateAttention claimed calls .backlogAttention .expiryAttention)) s

/-- The `try` block. -/
def tryAttempt (attempt : Attempt) : Step :=
  Step.andThen (fun _ => (attempt.store, attempt.thrown))
    (.andThen (.failing (calls.thrown .openAfter))
      (.closing (.andThen (.failing (calls.thrown .getProposal)) (settleProposal worker claimed calls attempt.receipt))
        (calls.thrown .closeAfter)))

/-- The `catch` block. -/
def handleFailure (error : Thrown) : Step :=
  Step.andThen (.failing (calls.thrown .openFailure))
    (.closing (.andThen (finishWorkerFailure worker claimed calls .finish (workerErrorCode error))
        (updateAttention claimed calls .failureBacklog .failureExpiry))
      (calls.thrown .closeFailure))

/-- The iteration for a claimed item. What it throws ends the loop. -/
def iteration (attempt : Attempt) : Step :=
  (tryAttempt worker claimed calls attempt).onError (handleFailure worker claimed calls)

end


/-! ### The agreement -/

/-- The statuses from which a retry or an operator starts another attempt. -/
def restartable : WorkerQueueStatus → Bool
  | .retryWait | .blocked | .deadLetter => true
  | _ => false

def ProposalApplied (s : Store) (proposalId : String) : Prop :=
  ∃ proposal, s.getProposal proposalId = some proposal ∧ proposal.state = .applied

/-- An item that suits its proposal and what its attempt did at the source. -/
structure Suits (s : Store) (proposalId : String) (effect : Effect) (status : WorkerQueueStatus) : Prop where
  done : ProposalApplied s proposalId ∨ effect = .committed → restartable status = false
  unknown : effect = .unknown → status = .reconciliationRequired ∨ status = .leased

/-- The queue and the proposal agree, and no lost lease ends the loop. -/
structure Agrees (proposalId : String) (effect : Effect) (ended : Store × Option Thrown) : Prop where
  suits : ∀ item, ended.1.workerQueueItem proposalId = some item → Suits ended.1 proposalId effect item.status
  goesOn : ∀ error, ended.2 ≠ some (.lease error)

section
variable (worker : Worker) (claimed : ClaimedItem) (calls : Calls) (attempt : Attempt)

/-- The worker holds its lease when `applyProposal` ends. -/
def Held (s : Store) : Prop := ∃ row, assertWorkerLease s (claimed.lease worker) = .ok row

/-- The `try` block gets to its operation on the item, and finds the lease. -/
def Settles (proposal : ProposalRow) : Prop :=
  attempt.thrown = none ∧ calls.thrown .openAfter = none ∧ calls.thrown .getProposal = none ∧
    calls.thrown .receipts = none ∧ calls.reaches .settle = true ∧ Held worker claimed attempt.store ∧
    attempt.store.getProposal claimed.proposalId = some proposal

/-- The first failure of the `try` block apart from a lost lease. Its closing comes
    before what fails inside. -/
def firstFailure : Option Thrown :=
  attempt.thrown <|> calls.thrown .openAfter <|> calls.thrown .closeAfter <|> calls.thrown .getProposal <|>
    (if attempt.store.getProposal claimed.proposalId = none
      then some (.failure ⟨none, "proposal not found: " ++ claimed.proposalId⟩) else none) <|>
    calls.thrown .receipts <|> calls.thrown .settle <|>
    if claimed.supervised then calls.thrown .backlogAttention <|> calls.thrown .expiryAttention else none

/-- The handler gets to its operation on the item. -/
def HandlerReaches : Prop := calls.thrown .openFailure = none ∧ calls.reaches .finish = true

/-- A code that sends the item of a supervised worker to reconciliation. -/
def Reconciles (errorCode : String) : Prop := claimed.supervised = true ∧ unknownOutcomeCode errorCode = true

/-- What an attempt that returned may have done, by the state of its proposal. -/
def StateTells (state : ProposalState) : Prop :=
  match state with
  | .applied | .conflict => attempt.effect ≠ .unknown
  | .reconciliationRequired => True
  | .failed =>
    Reconciles claimed ((attempt.receipt.bind (·.safeErrorCode)).getD "WRITEBACK_FAILED") ∨ attempt.effect = .nothing
  | _ => attempt.effect = .nothing

/-- When the loop settles the item of an attempt as it should. -/
structure Settled : Prop where
  /-- The handler is not entered without the lease, nor after the item was settled. -/
  leased : firstFailure claimed calls attempt ≠ none ∨ ¬ Held worker claimed attempt.store → HandlerReaches calls →
    calls.thrown .closeFailure = none →
    Held worker claimed attempt.store ∧ ∀ proposal, ¬ Settles worker claimed calls attempt proposal
  returned : ∀ proposal, Settles worker claimed calls attempt proposal → StateTells claimed attempt proposal.state
  /-- What the handler takes for a failure has changed nothing, or has a code for
      the reconciliation. -/
  failed : Held worker claimed attempt.store → (∀ proposal, ¬ Settles worker claimed calls attempt proposal) →
    HandlerReaches calls → ∀ error, firstFailure claimed calls attempt = some error →
    Reconciles claimed (workerErrorCode error) ∨
      (attempt.effect = .nothing ∧ ¬ ProposalApplied attempt.store claimed.proposalId)
  /-- Without the lease, the item is left as others have left it. -/
  elsewhere : ¬ Held worker claimed attempt.store → ∀ item, attempt.store.workerQueueItem claimed.proposalId = some item →
    Suits attempt.store claimed.proposalId attempt.effect item.status

end

/-! ### Under the lease -/

section
variable {worker : Worker} {claimed : ClaimedItem} {calls : Calls} {attempt : Attempt}

theorem thrown_ne_lease (call : Call) (error : StoreError) : calls.thrown call ≠ some (.lease error) := by
  unfold Calls.thrown
  cases calls.fault call <;> simp

theorem thrown_of_not_reaches {call : Call} (short : calls.reaches call = false) : calls.thrown call ≠ none := by
  intro none
  rw [Calls.thrown, Option.map_eq_none_iff] at none
  rw [Calls.reaches, none] at short
  cases short

theorem or_ne_lease {a b : Option Thrown} (first : ∀ error, a ≠ some (.lease error))
    (second : ∀ error, b ≠ some (.lease error)) (error : StoreError) : (a <|> b) ≠ some (.lease error) := by
  cases a with
  | none => exact second error
  | some thrown => exact first error

theorem leaseTransaction_of_held {s : Store} {lease : Lease} {action : LeaseAction} {now : Nat} {row : WorkerQueueItem}
    (ending : ends action = true) (owned : assertWorkerLease s lease = .ok row) :
    leaseTransaction s lease action now = .ok (s.updateItem lease.proposalId (action.applyTo now)) := by
  cases action with
  | renew leaseSeconds => cases ending
  | _ => simp only [leaseTransaction, LeaseAction.heldItem, owned]; rfl

theorem leaseTransaction_of_lost {s : Store} {lease : Lease} {action : LeaseAction} {now : Nat} {error : StoreError}
    (ending : ends action = true) (refused : assertWorkerLease s lease = .error error) :
    leaseTransaction s lease action now = .error error := by
  cases action with
  | renew leaseSeconds => cases ending
  | _ => simp only [leaseTransaction, LeaseAction.heldItem, refused]; rfl

theorem applyTo_status_ne_leased {action : LeaseAction} (ending : ends action = true) (now : Nat) (item : WorkerQueueItem) :
    (action.applyTo now item).status ≠ .leased := by
  cases action with
  | renew leaseSeconds => cases ending
  | retry errorCode retryAt =>
    simp only [LeaseAction.applyTo, released]
    split <;> simp
  | _ => simp [LeaseAction.applyTo, released]

/-- An operation that ends the lease of an item leaves it without one. -/
theorem not_held_after {s : Store} {action : LeaseAction} (ending : ends action = true) (now : Nat) :
    ¬ Held worker claimed (s.updateItem claimed.proposalId (action.applyTo now)) := by
  rintro ⟨row, owned⟩
  obtain ⟨found, leased, _⟩ := assertWorkerLease_ok owned
  rw [workerQueueItem_updateItem] at found
  have after : (s.workerQueueItem claimed.proposalId).map (action.applyTo now) = some row := by
    simpa [ClaimedItem.lease] using found
  obtain ⟨item, _, rfl⟩ := Option.map_eq_some_iff.mp after
  exact applyTo_status_ne_leased ending now item leased

theorem leaseStep_short {call : Call} (short : calls.reaches call = false) (action : LeaseAction) (s : Store) :
    leaseStep worker claimed calls call action s = (s, calls.thrown call) := by
  simp [leaseStep, short]

theorem leaseStep_held {call : Call} {action : LeaseAction} {s : Store} (reaches : calls.reaches call = true)
    (ending : ends action = true) (held : Held worker claimed s) :
    leaseStep worker claimed calls call action s =
      (s.updateItem claimed.proposalId (action.applyTo (calls.now call)), calls.thrown call) := by
  obtain ⟨row, owned⟩ := held
  simp only [leaseStep, reaches, leaseTransaction_of_held ending owned, if_true]
  rfl

theorem leaseStep_lost {call : Call} {action : LeaseAction} {s : Store} (reaches : calls.reaches call = true)
    (ending : ends action = true) (lost : ¬ Held worker claimed s) :
    ∃ error, leaseStep worker claimed calls call action s = (s, some (.lease error)) := by
  cases refused : assertWorkerLease s (claimed.lease worker) with
  | ok row => exact absurd ⟨row, refused⟩ lost
  | error error => exact ⟨error, by simp only [leaseStep, reaches, leaseTransaction_of_lost ending refused, if_true]⟩

/-! ### What the actions leave -/

theorem failureAction_ends (errorCode : String) (now : Nat) : ends (failureAction worker claimed errorCode now) = true := by
  unfold failureAction
  split
  · rfl
  split
  · split <;> rfl
  · rfl

theorem settleAction_ends (state : ProposalState) (receipt : Option LastReceipt) (now : Nat) :
    ends (settleAction worker claimed state receipt now) = true := by
  cases state <;> first | rfl | exact failureAction_ends ..

/-- A failure ends in reconciliation, or where another attempt starts from. -/
theorem failureAction_status (errorCode : String) (now later : Nat) (item : WorkerQueueItem) :
    (Reconciles claimed errorCode ∧
        ((failureAction worker claimed errorCode now).applyTo later item).status = .reconciliationRequired) ∨
      (¬ Reconciles claimed errorCode ∧
        restartable ((failureAction worker claimed errorCode now).applyTo later item).status = true) := by
  by_cases unknown : (claimed.supervised && unknownOutcomeCode errorCode) = true
  · refine .inl ⟨by simpa [Reconciles] using unknown, ?_⟩
    rw [failureAction, if_pos unknown]
    rfl
  · refine .inr ⟨by simpa [Reconciles] using unknown, ?_⟩
    rw [failureAction, if_neg unknown]
    split
    · split <;> rfl
    · simp only [LeaseAction.applyTo, released]
      split <;> rfl

theorem suits_restartable {s : Store} {id : String} {effect : Effect} {status : WorkerQueueStatus}
    (again : restartable status = true) :
    Suits s id effect status ↔ effect = .nothing ∧ ¬ ProposalApplied s id := by
  have apart : status ≠ .reconciliationRequired ∧ status ≠ .leased := by
    cases status <;> simp [restartable] at again ⊢
  constructor
  · intro suits
    have notDone : ¬ (ProposalApplied s id ∨ effect = .committed) := by
      intro done
      rw [suits.done done] at again
      cases again
    have known : effect ≠ .unknown := fun unknown => (suits.unknown unknown).elim apart.1 apart.2
    refine ⟨?_, fun applied => notDone (.inl applied)⟩
    cases effect with
    | nothing => rfl
    | committed => exact absurd (.inr rfl) notDone
    | unknown => exact absurd rfl known
  · rintro ⟨rfl, unapplied⟩
    exact ⟨fun done => (done.elim unapplied (by simp)).elim, by simp⟩

theorem suits_reconciliation (s : Store) (id : String) (effect : Effect) : Suits s id effect .reconciliationRequired :=
  ⟨fun _ => rfl, fun _ => .inl rfl⟩

theorem suits_leased (s : Store) (id : String) (effect : Effect) : Suits s id effect .leased :=
  ⟨fun _ => rfl, fun _ => .inr rfl⟩

theorem suits_completed {s : Store} {id : String} {effect : Effect} : Suits s id effect .completed ↔ effect ≠ .unknown :=
  ⟨fun suits unknown => by simpa using suits.unknown unknown,
    fun known => ⟨fun _ => rfl, fun unknown => absurd unknown known⟩⟩

theorem suits_failure {s : Store} {id errorCode : String} {effect : Effect} {now later : Nat} {item : WorkerQueueItem} :
    Suits s id effect ((failureAction worker claimed errorCode now).applyTo later item).status ↔
      Reconciles claimed errorCode ∨ (effect = .nothing ∧ ¬ ProposalApplied s id) := by
  rcases failureAction_status errorCode now later item with
    ⟨reconciles, status⟩ | ⟨not, again⟩
  · rw [status]
    exact ⟨fun _ => .inl reconciles, fun _ => suits_reconciliation s id effect⟩
  · rw [suits_restartable again]
    exact ⟨.inr, fun either => either.resolve_left not⟩

/-- What settling the item of a returned attempt leaves. -/
theorem suits_settle {proposal : ProposalRow} {now later : Nat} {item : WorkerQueueItem}
    (found : attempt.store.getProposal claimed.proposalId = some proposal) :
    Suits attempt.store claimed.proposalId attempt.effect
        ((settleAction worker claimed proposal.state attempt.receipt now).applyTo later item).status ↔
      StateTells claimed attempt proposal.state := by
  have unapplied (state : ProposalState) (is : proposal.state = state) (other : state ≠ .applied) :
      ¬ ProposalApplied attempt.store claimed.proposalId := by
    rintro ⟨row, again, applied⟩
    obtain rfl : proposal = row := Option.some.inj (found.symm.trans again)
    exact other (is.symm.trans applied)
  have invalid : ¬ Reconciles claimed "WORKER_STATE_INVALID" := by
    rintro ⟨_, unknown⟩
    exact absurd unknown (by decide)
  cases is : proposal.state with
  | applied => exact suits_completed
  | conflict => exact suits_completed
  | reconciliationRequired => exact iff_of_true (suits_reconciliation ..) trivial
  | failed =>
    refine suits_failure.trans (or_congr_right (and_iff_left ?_))
    exact unapplied .failed is (by simp)
  | _ =>
    refine suits_failure.trans ((or_iff_right invalid).trans (and_iff_left ?_))
    exact unapplied _ is (by simp)

/-! ### The handler -/

theorem attention_ne_lease (backlog expiry : Call) (error : StoreError) :
    (if claimed.supervised then calls.thrown backlog <|> calls.thrown expiry else none) ≠ some (.lease error) := by
  split
  · exact or_ne_lease (thrown_ne_lease backlog) (thrown_ne_lease expiry) error
  · simp

theorem handleFailure_opened (opened : calls.thrown .openFailure = none) (error : Thrown) (s : Store) :
    handleFailure worker claimed calls error s =
      ((finishWorkerFailure worker claimed calls .finish (workerErrorCode error) s).1,
        calls.thrown .closeFailure <|> (finishWorkerFailure worker claimed calls .finish (workerErrorCode error) s).2 <|>
          if claimed.supervised then calls.thrown .failureBacklog <|> calls.thrown .failureExpiry else none) := by
  rw [handleFailure, Step.failing_andThen, if_pos opened, Step.closing, updateAttention, Step.andThen_failing]

theorem handleFailure_short (short : ¬ HandlerReaches calls) (error : Thrown) (s : Store) :
    (handleFailure worker claimed calls error s).1 = s ∧
      ∀ refusal, (handleFailure worker claimed calls error s).2 ≠ some (.lease refusal) := by
  by_cases opened : calls.thrown .openFailure = none
  · have before : calls.reaches .finish = false := Bool.eq_false_of_not_eq_true fun reaches => short ⟨opened, reaches⟩
    rw [handleFailure_opened opened, finishWorkerFailure, leaseStep_short before]
    exact ⟨rfl, or_ne_lease (thrown_ne_lease _) (or_ne_lease (thrown_ne_lease _) (attention_ne_lease _ _))⟩
  · rw [handleFailure, Step.failing_andThen, if_neg opened]
    exact ⟨rfl, thrown_ne_lease _⟩

theorem handleFailure_held {s : Store} (reaches : HandlerReaches calls) (held : Held worker claimed s) (error : Thrown) :
    (handleFailure worker claimed calls error s).1 = s.updateItem claimed.proposalId
        ((failureAction worker claimed (workerErrorCode error) (calls.now .finish)).applyTo (calls.now .finish)) ∧
      ∀ refusal, (handleFailure worker claimed calls error s).2 ≠ some (.lease refusal) := by
  rw [handleFailure_opened reaches.1, finishWorkerFailure, leaseStep_held reaches.2 (failureAction_ends ..) held]
  exact ⟨rfl, or_ne_lease (thrown_ne_lease _) (or_ne_lease (thrown_ne_lease _) (attention_ne_lease _ _))⟩

/-- Without the lease, the handler ends the loop, unless its closing throws first. -/
theorem handleFailure_lost {s : Store} (reaches : HandlerReaches calls) (lost : ¬ Held worker claimed s) (error : Thrown) :
    (handleFailure worker claimed calls error s).1 = s ∧
      ((∀ refusal, (handleFailure worker claimed calls error s).2 ≠ some (.lease refusal)) ↔
        calls.thrown .closeFailure ≠ none) := by
  obtain ⟨refusal, refused⟩ := leaseStep_lost reaches.2
    (failureAction_ends (workerErrorCode error) (calls.now .finish)) lost
  rw [handleFailure_opened reaches.1, finishWorkerFailure, refused]
  refine ⟨rfl, ?_⟩
  cases closes : calls.thrown .closeFailure with
  | none => simp
  | some thrown =>
    refine iff_of_true ?_ (by simp)
    intro other same
    exact thrown_ne_lease .closeFailure other (closes.trans same)

/-! ### The `try` block -/

theorem tryAttempt_returned (returned : attempt.thrown = none) (opened : calls.thrown .openAfter = none) (s : Store) :
    tryAttempt worker claimed calls attempt s =
      Step.closing (Step.andThen (.failing (calls.thrown .getProposal)) (settleProposal worker claimed calls attempt.receipt))
        (calls.thrown .closeAfter) attempt.store := by
  simp only [tryAttempt, Step.andThen, returned, opened, Step.failing_apply]

theorem settleProposal_found {proposal : ProposalRow} (found : attempt.store.getProposal claimed.proposalId = some proposal)
    (read : calls.thrown .receipts = none) :
    settleProposal worker claimed calls attempt.receipt attempt.store =
      let settled := leaseStep worker claimed calls .settle
        (settleAction worker claimed proposal.state attempt.receipt (calls.now .settle)) attempt.store
      (settled.1, settled.2 <|>
        if claimed.supervised then calls.thrown .backlogAttention <|> calls.thrown .expiryAttention else none) := by
  simp only [settleProposal, found, Step.failing_andThen, read, if_true, updateAttention, Step.andThen_failing]

theorem tryAttempt_settles {proposal : ProposalRow} (settles : Settles worker claimed calls attempt proposal) (s : Store) :
    tryAttempt worker claimed calls attempt s =
      (attempt.store.updateItem claimed.proposalId
        ((settleAction worker claimed proposal.state attempt.receipt (calls.now .settle)).applyTo (calls.now .settle)),
      firstFailure claimed calls attempt) := by
  obtain ⟨returned, opened, proposed, read, reaches, held, found⟩ := settles
  rw [tryAttempt_returned returned opened, Step.closing, Step.failing_andThen, if_pos proposed,
    settleProposal_found found read, leaseStep_held reaches (settleAction_ends ..) held]
  simp [firstFailure, returned, opened, proposed, found, read]

/-- A `try` block that does not settle the item leaves the store, and throws. -/
theorem tryAttempt_unsettled (unsettled : ∀ proposal, ¬ Settles worker claimed calls attempt proposal) (s : Store) :
    (tryAttempt worker claimed calls attempt s).1 = attempt.store ∧
      (tryAttempt worker claimed calls attempt s).2 ≠ none ∧
      (Held worker claimed attempt.store →
        (tryAttempt worker claimed calls attempt s).2 = firstFailure claimed calls attempt) := by
  cases threw : attempt.thrown with
  | some error => simp [tryAttempt, Step.andThen, firstFailure, threw]
  | none =>
  cases opened : calls.thrown .openAfter with
  | some error => simp [tryAttempt, Step.andThen, firstFailure, threw, opened]
  | none =>
  rw [tryAttempt_returned threw opened, Step.closing, Step.failing_andThen]
  cases proposed : calls.thrown .getProposal with
  | some error => cases closes : calls.thrown .closeAfter <;> simp [firstFailure, threw, opened, proposed, closes]
  | none =>
  cases found : attempt.store.getProposal claimed.proposalId with
  | none =>
    cases closes : calls.thrown .closeAfter <;> simp [settleProposal, firstFailure, threw, opened, proposed, found, closes]
  | some proposal =>
  cases read : calls.thrown .receipts with
  | some error =>
    cases closes : calls.thrown .closeAfter <;>
      simp [settleProposal, Step.failing_andThen, firstFailure, threw, opened, proposed, found, read, closes]
  | none =>
  rw [if_pos rfl, settleProposal_found found read]
  cases reaches : calls.reaches .settle with
  | false =>
    obtain ⟨error, fails⟩ := Option.ne_none_iff_exists'.mp (thrown_of_not_reaches reaches)
    rw [leaseStep_short reaches]
    cases closes : calls.thrown .closeAfter <;>
      simp [firstFailure, threw, opened, proposed, found, read, fails, closes]
  | true =>
    have lost : ¬ Held worker claimed attempt.store := fun held =>
      unsettled proposal ⟨threw, opened, proposed, read, reaches, held, found⟩
    obtain ⟨refusal, refused⟩ := leaseStep_lost reaches
      (settleAction_ends proposal.state attempt.receipt (calls.now .settle)) lost
    rw [refused]
    refine ⟨rfl, ?_, fun held => absurd held lost⟩
    cases closes : calls.thrown .closeAfter <;> simp

/-! ### One iteration -/

theorem item_after_update {s : Store} {id : String} {f : WorkerQueueItem → WorkerQueueItem}
    {P : WorkerQueueStatus → Prop} :
    (∀ item, (s.updateItem id f).workerQueueItem id = some item → P item.status) ↔
      ∀ item, s.workerQueueItem id = some item → P (f item).status := by
  rw [workerQueueItem_updateItem, if_pos rfl]
  constructor
  · exact fun all item found => all _ (by rw [found]; rfl)
  · intro all item found
    obtain ⟨before, row, rfl⟩ := Option.map_eq_some_iff.mp found
    exact all before row

theorem held_row {s : Store} (held : Held worker claimed s) :
    ∃ item, s.workerQueueItem claimed.proposalId = some item ∧ item.status = .leased := by
  obtain ⟨row, owned⟩ := held
  obtain ⟨found, leased, _⟩ := assertWorkerLease_ok owned
  exact ⟨row, found, leased⟩

theorem suits_update (s : Store) (id : String) (f : WorkerQueueItem → WorkerQueueItem) (effect : Effect)
    (status : WorkerQueueStatus) : Suits (s.updateItem id f) id effect status ↔ Suits s id effect status := by
  constructor <;> exact fun suits => ⟨suits.done, suits.unknown⟩

theorem iteration_thrown {s : Store} {error : Thrown} (thrown : (tryAttempt worker claimed calls attempt s).2 = some error) :
    iteration worker claimed calls attempt s =
      handleFailure worker claimed calls error (tryAttempt worker claimed calls attempt s).1 := by
  simp only [iteration, Step.onError, thrown]

/-- The item is settled in the `try` block: the handler can only end the loop. -/
theorem agrees_of_settles {proposal : ProposalRow} (settles : Settles worker claimed calls attempt proposal) (s : Store) :
    Agrees claimed.proposalId attempt.effect (iteration worker claimed calls attempt s) ↔
      StateTells claimed attempt proposal.state ∧
        (firstFailure claimed calls attempt ≠ none → HandlerReaches calls → calls.thrown .closeFailure ≠ none) := by
  have tried := tryAttempt_settles settles s
  obtain ⟨held, found⟩ := settles.2.2.2.2.2
  obtain ⟨row, queued, _⟩ := held_row held
  let updated := attempt.store.updateItem claimed.proposalId
    ((settleAction worker claimed proposal.state attempt.receipt (calls.now .settle)).applyTo (calls.now .settle))
  have suits : (∀ item, updated.workerQueueItem claimed.proposalId = some item →
      Suits updated claimed.proposalId attempt.effect item.status) ↔ StateTells claimed attempt proposal.state := by
    simp only [updated, suits_update]
    rw [item_after_update]
    exact ⟨fun all => (suits_settle found).mp (all row queued), fun tells item _ => (suits_settle found).mpr tells⟩
  have agrees (ended : Store × Option Thrown) (store : ended.1 = updated) :
      Agrees claimed.proposalId attempt.effect ended ↔
        StateTells claimed attempt proposal.state ∧ ∀ error, ended.2 ≠ some (.lease error) := by
    rw [← suits]
    exact ⟨fun both => ⟨store ▸ both.suits, both.goesOn⟩, fun both => ⟨store ▸ both.1, both.2⟩⟩
  cases failed : firstFailure claimed calls attempt with
  | none =>
    have through : iteration worker claimed calls attempt s = (updated, none) := by
      simp only [iteration, Step.onError, tried, failed, updated]
    rw [agrees _ (congrArg Prod.fst through), through]
    simp
  | some error =>
    rw [iteration_thrown (by rw [tried, failed]), tried]
    by_cases reaches : HandlerReaches calls
    · obtain ⟨store, ended⟩ := handleFailure_lost (s := updated) reaches (not_held_after (settleAction_ends ..) _) error
      rw [agrees _ store, ended]
      simp [reaches]
    · obtain ⟨store, ended⟩ := handleFailure_short reaches error updated
      rw [agrees _ store]
      simp [reaches, ended]

/-- The handler is the first to find the lease. -/
theorem agrees_of_failed (held : Held worker claimed attempt.store)
    (unsettled : ∀ proposal, ¬ Settles worker claimed calls attempt proposal) (s : Store) :
    Agrees claimed.proposalId attempt.effect (iteration worker claimed calls attempt s) ↔
      (HandlerReaches calls → ∀ error, firstFailure claimed calls attempt = some error →
        Reconciles claimed (workerErrorCode error) ∨
          (attempt.effect = .nothing ∧ ¬ ProposalApplied attempt.store claimed.proposalId)) := by
  obtain ⟨kept, throws, first⟩ := tryAttempt_unsettled unsettled s
  obtain ⟨error, thrown⟩ := Option.ne_none_iff_exists'.mp throws
  have failed : firstFailure claimed calls attempt = some error := (first held).symm.trans thrown
  obtain ⟨row, queued, leased⟩ := held_row held
  rw [iteration_thrown thrown, kept]
  by_cases reaches : HandlerReaches calls
  · obtain ⟨store, ended⟩ := handleFailure_held reaches held error
    constructor
    · intro agrees _ error' same
      obtain rfl : error = error' := Option.some.inj (failed.symm.trans same)
      have suits := agrees.suits
      simp only [store, suits_update] at suits
      rw [item_after_update] at suits
      exact suits_failure.mp (suits row queued)
    · intro condition
      refine ⟨?_, ended⟩
      simp only [store, suits_update]
      rw [item_after_update]
      exact fun item _ => suits_failure.mpr (condition reaches error failed)
  · obtain ⟨store, ended⟩ := handleFailure_short reaches error attempt.store
    refine iff_of_true ⟨?_, ended⟩ fun reached => absurd reached reaches
    rw [store]
    intro item found
    obtain rfl : row = item := Option.some.inj (queued.symm.trans found)
    exact leased ▸ suits_leased ..

/-- The worker has lost its lease: the handler throws. -/
theorem agrees_of_lost (lost : ¬ Held worker claimed attempt.store) (s : Store) :
    Agrees claimed.proposalId attempt.effect (iteration worker claimed calls attempt s) ↔
      (∀ item, attempt.store.workerQueueItem claimed.proposalId = some item →
        Suits attempt.store claimed.proposalId attempt.effect item.status) ∧
      (HandlerReaches calls → calls.thrown .closeFailure ≠ none) := by
  have unsettled : ∀ proposal, ¬ Settles worker claimed calls attempt proposal := fun proposal settles =>
    lost settles.2.2.2.2.2.1
  obtain ⟨kept, throws, _⟩ := tryAttempt_unsettled unsettled s
  obtain ⟨error, thrown⟩ := Option.ne_none_iff_exists'.mp throws
  rw [iteration_thrown thrown, kept]
  by_cases reaches : HandlerReaches calls
  · obtain ⟨store, ended⟩ := handleFailure_lost reaches lost error
    exact ⟨fun agrees => ⟨by simpa only [store] using agrees.suits, fun _ => ended.mp agrees.goesOn⟩,
      fun both => ⟨by simpa only [store] using both.1, ended.mpr (both.2 reaches)⟩⟩
  · obtain ⟨store, ended⟩ := handleFailure_short reaches error attempt.store
    exact ⟨fun agrees => ⟨by simpa only [store] using agrees.suits, fun reached => absurd reached reaches⟩,
      fun both => ⟨by simpa only [store] using both.1, ended⟩⟩

end

/-- The queue and the proposal agree after an iteration exactly when the loop settles
    the attempt as it should. -/
theorem iteration_agrees (worker : Worker) (claimed : ClaimedItem) (calls : Calls) (attempt : Attempt) (s : Store) :
    Agrees claimed.proposalId attempt.effect (iteration worker claimed calls attempt s) ↔
      Settled worker claimed calls attempt := by
  by_cases lost : ¬ Held worker claimed attempt.store
  · rw [agrees_of_lost lost]
    constructor
    · rintro ⟨others, closes⟩
      exact ⟨fun _ reaches none => absurd none (closes reaches), fun _ settles => absurd settles.2.2.2.2.2.1 lost,
        fun held => absurd held lost, fun _ => others⟩
    · intro settled
      exact ⟨settled.elsewhere lost, fun reaches none => lost (settled.leased (.inr lost) reaches none).1⟩
  have held := not_not.mp lost
  by_cases settles : ∃ proposal, Settles worker claimed calls attempt proposal
  · obtain ⟨proposal, settles⟩ := settles
    rw [agrees_of_settles settles]
    constructor
    · rintro ⟨tells, closes⟩
      refine ⟨?_, ?_, fun _ unsettled => absurd settles (unsettled proposal), fun lost => absurd held lost⟩
      · intro enters reaches none
        exact absurd none (closes (enters.resolve_right lost) reaches)
      · intro other again
        obtain rfl : proposal = other := Option.some.inj (settles.2.2.2.2.2.2.symm.trans again.2.2.2.2.2.2)
        exact tells
    · intro settled
      refine ⟨settled.returned proposal settles, fun failed reaches none => ?_⟩
      exact (settled.leased (.inl failed) reaches none).2 proposal settles
  · have unsettled := not_exists.mp settles
    rw [agrees_of_failed held unsettled]
    constructor
    · intro condition
      exact ⟨fun _ _ _ => ⟨held, unsettled⟩, fun proposal settles => absurd settles (unsettled proposal),
        fun _ _ => condition, fun lost => absurd held lost⟩
    · exact fun settled => settled.failed held unsettled

/-! ### Attempts that the queue gets wrong -/

/-- An approved ticket in the queue, and what its claims leave. -/
def afterClaims (claims : List Transaction) : Store :=
  (Runs.run (Monitor.step constantStoreRuntime) .start
    ([.create approvedTicket, .enqueue ⟨"prop_1", none, none, none, none, 0⟩ approvedTicket] ++ claims)).store

def claimedStore : Store := afterClaims [ticketClaim "worker_1" 0]

/-- The ticket as a legacy worker has claimed it. -/
def claimedTicket : ClaimedItem :=
  { proposalId := "prop_1", leaseId := "wlease_00", leased := rfl, given := rfl
    item :=
      { status := .leased, executionMode := .legacy, contractDigest := none, attempts := 1, maxAttempts := 5
        nextAttemptAt := 0, leaseOwner := some "worker_1", leaseId := some "wlease_00", leaseExpiresAt := some 15000
        lastErrorCode := none, terminalOutcome := none, createdAt := 0, updatedAt := 0 } }

def ticketWorker : Worker := ⟨"worker_1", 1000, 60000⟩

def undisturbed : Calls := ⟨fun _ => none, fun _ => 20000⟩

/-- An attempt that has applied the proposal and then throws an error without a code. -/
def appliedThenThrew : Attempt :=
  { store := claimedStore.writeState "prop_1" .applied 500, receipt := some ⟨.applied, none⟩
    thrown := some (.failure ⟨none, "the ledger mirror cannot be reached"⟩), effect := .committed }

def outcomeUnknown : Attempt :=
  { store := claimedStore, receipt := none, thrown := some (.failure ⟨some "OUTCOME_UNKNOWN", ""⟩), effect := .unknown }

/-- An attempt that has applied the proposal, while a second worker took over the
    expired lease. -/
def overtaken : Attempt :=
  { store := (afterClaims [ticketClaim "worker_1" 0, ticketClaim "worker_2" 15000]).writeState "prop_1" .applied 15500
    receipt := some ⟨.applied, none⟩, thrown := none, effect := .committed }

def ticketIteration (attempt : Attempt) : Store × Option Thrown :=
  iteration ticketWorker claimedTicket undisturbed attempt claimedStore

/-- An applied proposal waits for a retry, an unknown outcome is a dead letter, and a
    lost lease ends the loop. -/
theorem claimed_attempts_disagree :
    (claimedStore.workerQueueItem "prop_1" = some claimedTicket.item ∧
      ((ticketIteration appliedThenThrew).1.workerQueueItem "prop_1").map (·.status) = some .retryWait ∧
      ((ticketIteration outcomeUnknown).1.workerQueueItem "prop_1").map (·.status) = some .deadLetter ∧
      (ticketIteration overtaken).2 =
        some (.lease (.proposalStore "WORKER_LEASE_MISMATCH" "worker worker_1 does not hold the lease for prop_1"))) ∧
    ¬ Agrees "prop_1" .committed (ticketIteration appliedThenThrew) ∧
    ¬ Agrees "prop_1" .unknown (ticketIteration outcomeUnknown) ∧
    ¬ Agrees "prop_1" .committed (ticketIteration overtaken) := by
  have waits : ((ticketIteration appliedThenThrew).1.workerQueueItem "prop_1").map (·.status) = some .retryWait := by
    decide
  have dead : ((ticketIteration outcomeUnknown).1.workerQueueItem "prop_1").map (·.status) = some .deadLetter := by
    decide
  have ended : (ticketIteration overtaken).2 =
      some (.lease (.proposalStore "WORKER_LEASE_MISMATCH" "worker worker_1 does not hold the lease for prop_1")) := by
    decide
  refine ⟨⟨by decide, waits, dead, ended⟩, ?_, ?_, ?_⟩
  · intro agrees
    obtain ⟨item, found, status⟩ := Option.map_eq_some_iff.mp waits
    have safe := (agrees.suits item found).done (.inr rfl)
    rw [status] at safe
    cases safe
  · intro agrees
    obtain ⟨item, found, status⟩ := Option.map_eq_some_iff.mp dead
    have held := (agrees.suits item found).unknown rfl
    rw [status] at held
    simp at held
  · exact fun agrees => agrees.goesOn _ ended

end SynapsorRunner.WorkerAttempts
