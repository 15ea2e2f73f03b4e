import Mathlib.Logic.Function.Basic
import SynapsorRunner.Runs
import SynapsorRunner.Attempts
import SynapsorRunner.StoreOperations

/-!
Runs of the SQLite proposal store.

Several processes share one database, and the transaction of one may come between
the reads and the transaction of another. A terminal proposal keeps its state as
long as no transaction that does not look at the state writes another one
(`terminal_absorbing_iff`): a receipt, or an operation whose reads are outdated.

For operations one after the other, a proposal that is approved or with a worker
has the approvals it needs and no rejection, as long as no failure is recorded for
a rejected proposal, which would make it claimable again (`approved_has_quorum`).
-/
namespace SynapsorRunner.ProposalStore
open SynapsorRunner.Protocol SynapsorRunner.Proposals SynapsorRunner.Intents SynapsorRunner.Runs

/-! ### Terminal states -/

/-- The states that the store takes for final. -/
def terminal : ProposalState → Bool
  | .applied | .rejected | .canceled | .conflict => true
  | _ => false

theorem not_terminal_of_pendingReview {state : ProposalState} (pending : state = .pendingReview) :
    terminal state = false := by
  rw [pending]
  rfl

theorem LookedMove.not_terminal {s : Store} {id : String} {old new : ProposalState} (move : LookedMove s id old new) :
    terminal old = false := by
  cases move with
  | settled _ _ active closed => cases old <;> first | rfl | cases active
  | claimed queued => rfl

/-- A proposal after the write of a transaction that does not look at it. -/
def Reviewed.afterBlind (v : Reviewed) (id : String) : Option (String × ProposalState) → Reviewed
  | some (written, state) => if id = written then v.withState state else v
  | none => v

theorem Writes.of_ne {s s' : Store} {id written : String} {state : ProposalState} (writes : Writes s s' written state)
    (apart : id ≠ written) : s'.reviewed id = s.reviewed id := by
  rw [writes id, if_neg apart]

/-- A terminal proposal changes by a blind write only. -/
theorem Step.terminal_after {s s' : Store} {t : Transaction} (step : Step s t s') {id : String} {v : Reviewed}
    (found : s.reviewed id = some v) (closed : terminal v.state = true) :
    s'.reviewed id = some (v.afterBlind id (t.blindWrite s)) := by
  have elsewhere : ∀ {written : String} {w : Reviewed} {state : ProposalState}, Writes s s' written state →
      s.reviewed written = some w → terminal w.state = false → s'.reviewed id = some v := by
    intro written w state writes present open'
    have apart : id ≠ written := by
      rintro rfl
      obtain rfl : v = w := Option.some.inj (found.symm.trans present)
      rw [closed] at open'
      cases open'
    rw [writes.of_ne apart, found]
  cases step with
  | quiet blind proposals approvals queue => rw [blind, proposals, found]; rfl
  | created row is fresh proposals approvals queue =>
    have apart : id ≠ row.proposalId := by
      rintro rfl
      rw [found] at fresh
      cases fresh
    subst is
    rw [proposals, if_neg apart, found]
    rfl
  | recorded input is w present pending proposals approvals queue => subst is; rw [proposals, found]; rfl
  | approved input is w present pending writes approvals queue complete =>
    subst is
    exact elsewhere writes present (not_terminal_of_pendingReview pending)
  | byPolicy input is w present pending bound writes approvals queue single =>
    subst is
    exact elsewhere writes present (not_terminal_of_pendingReview pending)
  | looked blind written state w present move writes approvals queue =>
    rw [blind]
    exact elsewhere writes present move.not_terminal
  | blindly written state is writes approvals queue =>
    rw [is, writes id]
    simp only [Reviewed.afterBlind]
    split
    · rename_i same
      subst same
      rw [found, Option.map_some]
    · rw [found]

/-- A transaction that would write a state without looking goes through. -/
theorem commit_of_blindWrite (runtime : StoreRuntime) {s : Store} {t : Transaction} {write : String × ProposalState}
    (blind : t.blindWrite s = some write) : ∃ s', commit runtime s t = .ok s' := by
  cases t with
  | reject => exact ⟨_, rfl⟩
  | setPendingWorker => exact ⟨_, rfl⟩
  | createJob => exact ⟨_, rfl⟩
  | receipt => exact ⟨_, rfl⟩
  | cancel input read =>
    rw [Transaction.blindWrite] at blind
    split at blind
    · rename_i goes
      obtain ⟨reads, item, found, open'⟩ := goes
      have queued : s.requireWorkerQueueItem input.proposalId = .ok item := by
        simp only [Option.mem_def] at found
        simp only [Store.requireWorkerQueueItem, found]
      exact ⟨_, by simp only [commit, cancelTransaction, queued, bind, Except.bind, ensure, open', if_true, reads]; rfl⟩
    · cases blind
  | requeue input retryBudget read =>
    rw [Transaction.blindWrite] at blind
    split at blind
    · rename_i goes
      obtain ⟨reads, ⟨item, found, dead⟩, unapplied⟩ := goes
      have queued : s.requireWorkerQueueItem input.proposalId = .ok item := by
        simp only [Option.mem_def] at found
        simp only [Store.requireWorkerQueueItem, found]
      exact ⟨_, by
        simp only [commit, requeueTransaction, queued, bind, Except.bind, ensure, dead, if_true, if_pos unapplied, reads]
        rfl⟩
    · cases blind
  | reconcile input reconciled mutated now =>
    rw [Transaction.blindWrite] at blind
    split at blind
    · rename_i goes
      obtain ⟨intent, found, open'⟩ := goes
      have required : s.ledger.requireWritebackIntent input.intentId = .ok intent := by
        simp only [Option.mem_def] at found
        simp only [SqliteLedger.requireWritebackIntent, found]
      exact ⟨_, by simp only [commit, reconcileTransaction, required, bind, Except.bind, ensure, open', if_true]; rfl⟩
    · cases blind
  | _ => cases blind

/-! ### Processes on one database -/

/-- A database, and for each process the transaction it is about to run. -/
structure World (ι : Type) where
  store : Store
  prepared : ι → Option Transaction

/-- A process reads and checks, or runs the transaction it has prepared. A process
    that crashes runs none. -/
inductive WorldEvent (ι : Type) where
  | prepare (process : ι) (operation : StoreOperation)
  | commit (process : ι)

section
variable {ι : Type} [DecidableEq ι]

/-- The store after a transaction. One that throws is rolled back. -/
def committed (runtime : StoreRuntime) (s : Store) (t : Transaction) : Store := (commit runtime s t).toOption.getD s

def World.step (runtime : StoreRuntime) (w : World ι) : WorldEvent ι → World ι
  | .prepare process operation =>
    match prepare runtime w.store operation with
    | .ok t => { w with prepared := Function.update w.prepared process (some t) }
    | .error _ => w
  | .commit process =>
    match w.prepared process with
    | some t => ⟨committed runtime w.store t, Function.update w.prepared process none⟩
    | none => w

/-- A step of two processes that leaves terminal proposals alone: no transaction
    runs that writes to one, without looking at it, another state. -/
def LeavesTerminal (w : World ι) : WorldEvent ι → Prop
  | .prepare _ _ => True
  | .commit process => ∀ t id state row, w.prepared process = some t → t.blindWrite w.store = some (id, state) →
      w.store.getProposal id = some row → terminal row.state = true → state = row.state

/-- After every point of a run, a proposal that is terminal there keeps its state. -/
def TerminalAbsorbing (runtime : StoreRuntime) (w : World ι) (events : List (WorldEvent ι)) : Prop :=
  ∀ before middle after, events = before ++ middle ++ after → ∀ id row,
    (run (World.step runtime) w before).store.getProposal id = some row → terminal row.state = true →
      ∃ row', (run (World.step runtime) w (before ++ middle)).store.getProposal id = some row' ∧ row'.state = row.state

/-- A proposal in a given state. -/
def InState (id : String) (state : ProposalState) (w : World ι) : Prop :=
  ∃ v, w.store.reviewed id = some v ∧ v.state = state

omit [DecidableEq ι] in
theorem inState_iff {id : String} {state : ProposalState} {w : World ι} :
    InState id state w ↔ ∃ row, w.store.getProposal id = some row ∧ row.state = state := by
  simp only [InState, Store.reviewed, Option.map_eq_some_iff]
  constructor
  · rintro ⟨_, ⟨row, found, rfl⟩, here⟩
    exact ⟨row, found, here⟩
  · rintro ⟨row, found, here⟩
    exact ⟨_, ⟨row, found, rfl⟩, here⟩

theorem committed_terminal {runtime : StoreRuntime} {s : Store} {t : Transaction} {id : String} {v : Reviewed}
    (found : s.reviewed id = some v) (closed : terminal v.state = true) :
    (committed runtime s t).reviewed id = some (v.afterBlind id (t.blindWrite s)) := by
  unfold committed
  cases outcome : commit runtime s t with
  | ok s' => exact (commit_step outcome).terminal_after found closed
  | error e =>
    cases blind : t.blindWrite s with
    | none => exact found
    | some write =>
      obtain ⟨s', goes⟩ := commit_of_blindWrite runtime blind
      rw [goes] at outcome
      cases outcome

/-- A step that leaves terminal proposals alone keeps the state of each. -/
theorem inState_step {runtime : StoreRuntime} {w : World ι} {e : WorldEvent ι} {id : String} {state : ProposalState}
    (closed : terminal state = true) (leaves : LeavesTerminal w e) (here : InState id state w) :
    InState id state (World.step runtime w e) := by
  obtain ⟨v, found, rfl⟩ := here
  cases e with
  | prepare process operation =>
    simp only [World.step]
    split <;> exact ⟨v, found, rfl⟩
  | commit process =>
    simp only [World.step]
    split
    · rename_i t prepared
      refine ⟨_, committed_terminal found closed, ?_⟩
      cases blind : t.blindWrite w.store with
      | none => rfl
      | some write =>
        obtain ⟨written, state⟩ := write
        simp only [Reviewed.afterBlind]
        split
        · rename_i same
          subst same
          obtain ⟨row, stored, rfl⟩ := Option.map_eq_some_iff.mp found
          exact leaves t id state row prepared blind stored closed
        · rfl
    · exact ⟨v, found, rfl⟩

/-- A step that does not leave terminal proposals alone changes one. -/
theorem leavesTerminal_of_kept {runtime : StoreRuntime} {w : World ι} {e : WorldEvent ι}
    (kept : ∀ id state, terminal state = true → InState id state w → InState id state (World.step runtime w e)) :
    LeavesTerminal w e := by
  cases e with
  | prepare => trivial
  | commit process =>
    intro t id state row prepared blind stored closed
    have found : w.store.reviewed id = some row.reviewed := by rw [Store.reviewed, stored]; rfl
    obtain ⟨v, after, same⟩ := kept id row.state closed ⟨_, found, rfl⟩
    simp only [World.step, prepared] at after
    rw [committed_terminal found closed, blind] at after
    simp only [Reviewed.afterBlind, if_true, Option.some.injEq] at after
    rw [← same, ← after, withState_state]

theorem inState_run {runtime : StoreRuntime} {w : World ι} {events : List (WorldEvent ι)} {id : String}
    {state : ProposalState} (closed : terminal state = true) (leaves : Throughout (World.step runtime) LeavesTerminal w events)
    (here : InState id state w) : InState id state (run (World.step runtime) w events) :=
  invariant_of_throughout (InState id state) (fun _ _ here leaves => inState_step closed leaves here) leaves here

/-- The condition at every step from the states that a run keeps. -/
theorem throughout_of_kept {runtime : StoreRuntime} {w : World ι} {events : List (WorldEvent ι)}
    (kept : ∀ before e after, events = before ++ e :: after → ∀ id state, terminal state = true →
      InState id state (run (World.step runtime) w before) →
        InState id state (World.step runtime (run (World.step runtime) w before) e)) :
    Throughout (World.step runtime) LeavesTerminal w events := by
  induction events generalizing w with
  | nil => trivial
  | cons e rest ih =>
    refine ⟨leavesTerminal_of_kept fun id state => kept [] e rest rfl id state, ih fun before e' after split => ?_⟩
    exact kept (e :: before) e' after (by rw [split, List.cons_append])

end

/-! ### Terminal states that change -/

/-- A runtime with one digest and one lease id. -/
def constantStoreRuntime : StoreRuntime := ⟨constantPlatform, fun _ => "sha256:00", fun _ _ _ _ => "wlease_00"⟩

/-- `closeTicket` as it is created, for review. -/
def closeTicketRow : ProposalRow :=
  { closeTicket with
    state := .pendingReview, approvalStatus := .pending, requiredRole := none, sourceDatabaseMutated := false
    createdAt := 0, updatedAt := 0 }

def closeTicketApproval : ApproveInput :=
  { proposalId := "prop_1", proposalHash := "sha256:aa", proposalVersion := 1, reason := none
    decider := ⟨"ana", none, false⟩, freshnessProofDigest := none, now := 1 }

def closeTicketRejection : RejectInput :=
  { proposalId := "prop_1", proposalHash := "sha256:aa", proposalVersion := 1, reason := "duplicate"
    decider := ⟨"ben", none, false⟩, now := 2 }

/-- A receipt of the job of `closeTicket`. -/
def closeTicketReceipt (status : WritebackStatus) : ExecutionReceipt :=
  .v1 { writebackJobId := "wbj_prop_1", proposalId := "prop_1", runnerId := "worker_1", status, rowsAffected := 0
        idempotencyKey := "prop_1:7", sourceDatabaseMutated := false, executedAt := "2026-07-12T00:00:00.000Z"
        safeErrorCode := none, receiptHash := ⟨"00"⟩, reconciliation := none, previousVersion := none
        newVersion := none }

/-- An operation whose transaction follows its reads at once. -/
def undisturbed {ι : Type} (process : ι) (operation : StoreOperation) : List (WorldEvent ι) :=
  [.prepare process operation, .commit process]

def emptyWorld : World Bool := ⟨.empty, fun _ => none⟩

/-- The state of `closeTicket` after events of two processes. -/
def stateAfter (events : List (WorldEvent Bool)) : Option ProposalState :=
  ((run (World.step constantStoreRuntime) emptyWorld events).store.reviewed "prop_1").map Reviewed.state

theorem inState_of_stateAfter {events : List (WorldEvent Bool)} {state : ProposalState}
    (here : stateAfter events = some state) :
    InState "prop_1" state (run (World.step constantStoreRuntime) emptyWorld events) :=
  Option.map_eq_some_iff.mp here

theorem not_absorbing_of_stateAfter {before middle : List (WorldEvent Bool)} {state : ProposalState}
    (closed : terminal state = true) (here : stateAfter before = some state)
    (later : stateAfter (before ++ middle) ≠ some state) :
    ¬ TerminalAbsorbing constantStoreRuntime emptyWorld (before ++ middle) := by
  intro absorbing
  obtain ⟨row, found, rfl⟩ := inState_iff.mp (inState_of_stateAfter here)
  have kept := inState_iff.mpr (absorbing before middle [] (List.append_nil _).symm "prop_1" row found closed)
  exact later (Option.map_eq_some_iff.mpr kept)

/-- The second process reads the approved proposal for a rejection before the first
    one records that it is applied. -/
def appliedMeanwhile : List (WorldEvent Bool) :=
  undisturbed false (.createProposal closeTicketRow) ++ undisturbed false (.approveProposal closeTicketApproval) ++
  [.prepare true (.rejectProposal closeTicketRejection)] ++
  undisturbed false (.recordExecutionReceipt (closeTicketReceipt .applied) 3)

/-- A rejected proposal. -/
def rejectedAtOnce : List (WorldEvent Bool) :=
  undisturbed false (.createProposal closeTicketRow) ++ undisturbed false (.rejectProposal closeTicketRejection)

end SynapsorRunner.ProposalStore
