import Mathlib.Logic.Function.Basic
import SynapsorRunner.Attempts

/-!
Concurrent calls of `applyWithRunnerLedger` for one job over one SQLite ledger.
A call moves from statement to statement: it reads its intent, inserts it, marks
it `applying`, opens a source transaction, mutates, sends COMMIT and completes the
intent; every statement may fail and every call may crash. The source keeps a
session for each call and may commit one whose COMMIT it received after the call
is gone.

At most one call marks the intent (`Owned`), and only that call opens a source
transaction, so the mutation is committed at most once. Once a call stood between
`applying` and completion, the intent has left `intent_recorded` for good
(`one_commit_and_declined_after_crash`).
-/
namespace SynapsorRunner.LedgerWorkers
open SynapsorRunner.Protocol SynapsorRunner.Proposals SynapsorRunner.Intents SynapsorRunner.Runs

/-! ### Statements -/

/-- `UPDATE writeback_intents SET … WHERE intent_id = ? AND status IN (…)`, when
    it changes a row. -/
def updateWhere (s : SqliteLedger) (intentId : String) (among : IntentStatus → Bool)
    (f : StoredWritebackIntent → StoredWritebackIntent) (keeps : ∀ i, (f i).identity = i.identity) :
    Option SqliteLedger :=
  match s.getWritebackIntent intentId with
  | some i => if among i.status then some (s.updateIntent intentId f keeps) else none
  | none => none

theorem updateWhere_some {s s' : SqliteLedger} {intentId : String} {among : IntentStatus → Bool}
    {f : StoredWritebackIntent → StoredWritebackIntent} {keeps : ∀ i, (f i).identity = i.identity}
    (changed : updateWhere s intentId among f keeps = some s') :
    ∃ i, s.getWritebackIntent intentId = some i ∧ among i.status = true ∧ s' = s.updateIntent intentId f keeps := by
  unfold updateWhere at changed
  split at changed
  · rename_i i found
    split at changed
    · rename_i holds
      cases changed
      exact ⟨i, found, holds, rfl⟩
    · cases changed
  · cases changed

/-- The statuses in which `completeWritebackIntent` and `reconcileWritebackIntent`
    update an intent. -/
def openStatus (status : IntentStatus) : Bool := status == .applying || status == .reconciliationRequired

/-! ### Calls and source sessions -/

/-- Where a call of `applyWithRunnerLedger` stands. -/
inductive Pc where
  /-- before the SELECT of `claimWritebackIntent` -/
  | claiming
  /-- the SELECT found no intent -/
  | inserting
  /-- the claim said `proceed` -/
  | marking
  /-- `markWritebackIntentApplying` returned -/
  | marked
  /-- BEGIN was acknowledged -/
  | working
  /-- COMMIT was sent -/
  | committing
  /-- COMMIT was acknowledged -/
  | acknowledged
  /-- the transaction failed before COMMIT -/
  | failed
  /-- before the SELECT of `requireWritebackReconciliation` -/
  | reconciling
  /-- before its UPDATE -/
  | updating
  /-- returned, thrown or crashed -/
  | ended
  deriving DecidableEq, Repr

/-- Between `applying` and completion. -/
def Pc.holdsIntent : Pc → Bool
  | .marked | .working | .committing | .acknowledged | .failed => true
  | _ => false

/-- What the source knows of the transaction of a call. -/
inductive SourceSession where
  | idle
  | active (mutated : Bool)
  | commitSent (mutated : Bool)
  | committed (mutated : Bool)
  | rolledBack
  deriving DecidableEq, Repr

namespace SourceSession

def beginTransaction : SourceSession → SourceSession
  | .idle => .active false
  | s => s

/-- A statement of the mutation, which may change rows of the target. -/
def execute (changes : Bool) : SourceSession → SourceSession
  | .active mutated => .active (mutated || changes)
  | s => s

def sendCommit : SourceSession → SourceSession
  | .active mutated => .commitSent mutated
  | s => s

def commit : SourceSession → SourceSession
  | .commitSent mutated => .committed mutated
  | s => s

/-- ROLLBACK, or the loss of the connection. -/
def rollBack : SourceSession → SourceSession
  | .active _ => .rolledBack
  | .commitSent _ => .rolledBack
  | s => s

/-- The committed mutations of a session. -/
def effects : SourceSession → Nat
  | .committed true => 1
  | _ => 0

def gain : SourceSession → Nat
  | .commitSent true => 1
  | _ => 0

@[simp] theorem effects_beginTransaction (s : SourceSession) : s.beginTransaction.effects = s.effects := by cases s <;> rfl
@[simp] theorem effects_execute (changes : Bool) (s : SourceSession) : (s.execute changes).effects = s.effects := by
  cases s <;> rfl
@[simp] theorem effects_sendCommit (s : SourceSession) : s.sendCommit.effects = s.effects := by cases s <;> rfl
@[simp] theorem effects_rollBack (s : SourceSession) : s.rollBack.effects = s.effects := by cases s <;> rfl

theorem effects_commit (s : SourceSession) : s.commit.effects = s.effects + s.gain := by
  rcases s with _ | _ | mutated | _ | _
  all_goals try rfl
  cases mutated <;> rfl

theorem effects_le_one (s : SourceSession) : s.effects ≤ 1 := by
  unfold effects
  split <;> omega

end SourceSession

/-- A ledger, the calls on it, their source sessions and the number of committed
    mutations. -/
structure World (ι : Type) where
  ledger : SqliteLedger
  pc : ι → Pc
  session : ι → SourceSession
  commits : Nat

namespace World
variable {ι : Type}

def start (ledger : SqliteLedger) : World ι := ⟨ledger, fun _ => .claiming, fun _ => .idle, 0⟩

def withLedger (w : World ι) (ledger : SqliteLedger) : World ι := { w with ledger }

variable [DecidableEq ι]

def goto (w : World ι) (c : ι) (pc : Pc) : World ι := { w with pc := Function.update w.pc c pc }

def inSession (w : World ι) (c : ι) (f : SourceSession → SourceSession) : World ι :=
  { w with session := Function.update w.session c (f (w.session c)) }

end World

/-! ### Steps -/

/-- What happens next, to which call. -/
inductive Event (ι : Type) where
  | readIntent (c : ι)
  | insertIntent (c : ι)
  /-- the UPDATE of the mark, after which the event row may fail to append -/
  | markApplying (c : ι) (appended : Bool)
  | beginTransaction (c : ι)
  | beginFails (c : ι)
  | execute (c : ι) (changes : Bool)
  /-- an error before COMMIT, and the ROLLBACK that follows -/
  | rollBack (c : ι)
  | rollBackFails (c : ι)
  | sendCommit (c : ι)
  /-- the source executes a COMMIT it received -/
  | sourceCommits (c : ι)
  /-- the source gives up a session -/
  | sourceDrops (c : ι)
  | observeCommit (c : ι)
  | commitUnknown (c : ι)
  | stopAfterCommit (c : ι)
  | completeIntent (c : ι) (result : WritebackResult) (finished : result.status ≠ .canceled)
  | readForReconciliation (c : ι)
  | updateForReconciliation (c : ι) (reason : String)
  | crash (c : ι)
  /-- `reconcileWritebackIntent`, by an operator -/
  | reconcile (input : ReconcileInput)

section
variable {ι : Type} [DecidableEq ι] (platform : Platform) (job : WritebackJob) (runner : ι → String)

/-- The intent id of the job. -/
def jobIntent : String := intentIdOf job.jobId

/-- The SELECTs of `claimWritebackIntent`, and its decision on an intent that
    exists. -/
def readIntent (w : World ι) (c : ι) : World ι :=
  match w.ledger.claimableProposal job with
  | .error _ => w.goto c .ended
  | .ok _ =>
    match w.ledger.getWritebackIntent (jobIntent job) with
    | none => w.goto c .inserting
    | some existing =>
      match claimExisting existing job with
      | .ok (.proceed _) => w.goto c .marking
      | _ => w.goto c .ended

def insertIntent (w : World ι) (c : ι) : World ι :=
  match w.ledger.intents.insert (recordedIntent job (runner c)) with
  | .error _ => w.goto c .ended
  | .ok intents => (w.withLedger { w.ledger with intents }).goto c .marking

def markApplying (w : World ι) (c : ι) (appended : Bool) : World ι :=
  match updateWhere w.ledger (jobIntent job) (· == .intentRecorded) (applyingRow (runner c)) (applyingRow_identity _) with
  | none => w.goto c .reconciling
  | some ledger => (w.withLedger ledger).goto c (if appended then .marked else .reconciling)

def completeIntent (w : World ι) (c : ι) (result : WritebackResult) : World ι :=
  match updateWhere w.ledger (jobIntent job) openStatus (completedRow result) (completedRow_identity _) with
  | none => w.goto c .ended
  | some ledger => (w.withLedger ledger).goto c .ended

def readForReconciliation (w : World ι) (c : ι) : World ι :=
  match w.ledger.getWritebackIntent (jobIntent job) with
  | none => w.goto c .ended
  | some i => w.goto c (if i.status = .applied ∨ i.status = .alreadyApplied then .ended else .updating)

def updateForReconciliation (w : World ι) (c : ι) (reason : String) : World ι :=
  match updateWhere w.ledger (jobIntent job) (fun _ => true) (reconciliationRow (slice500 reason))
      (reconciliationRow_identity _) with
  | none => w.goto c .ended
  | some ledger => (w.withLedger ledger).goto c .ended

/-- One statement of one call, or a step of the source or the operator. -/
def step (w : World ι) : Event ι → World ι
  | .readIntent c => if w.pc c = .claiming then readIntent job w c else w
  | .insertIntent c => if w.pc c = .inserting then insertIntent job runner w c else w
  | .markApplying c appended => if w.pc c = .marking then markApplying job runner w c appended else w
  | .beginTransaction c =>
    if w.pc c = .marked then (w.inSession c .beginTransaction).goto c .working else w
  | .beginFails c => if w.pc c = .marked then w.goto c .failed else w
  | .execute c changes => if w.pc c = .working then w.inSession c (.execute changes) else w
  | .rollBack c => if w.pc c = .working then (w.inSession c .rollBack).goto c .failed else w
  | .rollBackFails c => if w.pc c = .working then w.goto c .reconciling else w
  | .sendCommit c => if w.pc c = .working then (w.inSession c .sendCommit).goto c .committing else w
  | .sourceCommits c => { w.inSession c .commit with commits := w.commits + (w.session c).gain }
  | .sourceDrops c => w.inSession c .rollBack
  | .observeCommit c =>
    if w.pc c = .committing ∧ (w.session c = .committed true ∨ w.session c = .committed false) then
      w.goto c .acknowledged
    else w
  | .commitUnknown c => if w.pc c = .committing then w.goto c .reconciling else w
  | .stopAfterCommit c => if w.pc c = .acknowledged then w.goto c .reconciling else w
  | .completeIntent c result _ =>
    if w.pc c = .acknowledged ∨ w.pc c = .failed then completeIntent job w c result else w
  | .readForReconciliation c => if w.pc c = .reconciling then readForReconciliation job w c else w
  | .updateForReconciliation c reason => if w.pc c = .updating then updateForReconciliation job w c reason else w
  | .crash c => w.goto c .ended
  | .reconcile input => w.withLedger ((sqliteIntentStore platform).step w.ledger (.reconcile input))

end

/-! ### What a step can do -/

/-- How one statement may change the ledger. -/
structure LedgerStep (s s' : SqliteLedger) : Prop where
  proposals : s'.proposals = s.proposals
  rows : ∀ intentId, RowStep (s.getWritebackIntent intentId) (s'.getWritebackIntent intentId)

theorem LedgerStep.refl (s : SqliteLedger) : LedgerStep s s := ⟨rfl, fun _ => .stay _⟩

theorem ledgerStep_updateWhere {s s' : SqliteLedger} {intentId : String} {among : IntentStatus → Bool}
    {f : StoredWritebackIntent → StoredWritebackIntent} {keeps : ∀ i, (f i).identity = i.identity}
    (moves : ∀ i, among i.status = true → RowStep (some i) (some (f i)))
    (changed : updateWhere s intentId among f keeps = some s') : LedgerStep s s' := by
  obtain ⟨i, found, holds, rfl⟩ := updateWhere_some changed
  exact ⟨rfl, SqliteLedger.rowStep_updateIntent found (moves i holds)⟩

/-- A ledger after a statement, or the ledger as it was. -/
theorem ledgerStep_store (platform : Platform) (s : SqliteLedger) (e : IntentEvent) :
    LedgerStep s ((sqliteIntentStore platform).step s e) :=
  ⟨SqliteLedger.proposals_step s e, SqliteLedger.rowStep_step s e⟩

/-- The ledger admits the job and holds its intent. -/
def Matched (job : WritebackJob) (s : SqliteLedger) : Prop :=
  s.Admits job ∧ ∃ i, s.getWritebackIntent (jobIntent job) = some i ∧ i.identity = jobIdentity job

/-- What a call has seen in the ledger on its way. -/
def Ready (job : WritebackJob) (s : SqliteLedger) : Pc → Prop
  | .claiming | .ended => True
  | .inserting => s.Admits job
  | _ => Matched job s

theorem Matched.ready {job : WritebackJob} {s : SqliteLedger} (matched : Matched job s) (pc : Pc) : Ready job s pc := by
  cases pc <;> first | trivial | exact matched.1

theorem Ready.matched {job : WritebackJob} {s : SqliteLedger} {pc : Pc} (ready : Ready job s pc)
    (holds : pc.holdsIntent = true) : Matched job s := by
  cases pc <;> first | exact ready | cases holds

theorem LedgerStep.admits {job : WritebackJob} {s s' : SqliteLedger} (steps : LedgerStep s s') (admits : s.Admits job) :
    s'.Admits job := by
  obtain ⟨proposal, found, rest⟩ := admits
  exact ⟨proposal, by rw [steps.proposals]; exact found, rest⟩

theorem LedgerStep.matched {job : WritebackJob} {s s' : SqliteLedger} (steps : LedgerStep s s')
    (matched : Matched job s) : Matched job s' := by
  obtain ⟨admits, i, found, same⟩ := matched
  obtain ⟨j, found', same', _⟩ := (steps.rows _).advances i found
  exact ⟨steps.admits admits, j, found', same'.trans same⟩

theorem LedgerStep.ready {job : WritebackJob} {s s' : SqliteLedger} (steps : LedgerStep s s') {pc : Pc}
    (ready : Ready job s pc) : Ready job s' pc := by
  cases pc <;> first | trivial | exact steps.admits ready | exact steps.matched ready

section
variable {ι : Type} [DecidableEq ι] {platform : Platform} {job : WritebackJob} {runner : ι → String}

/-- What one event can do: move one call on along with the ledger, let the call
    that holds the intent act on its source session, or move the source or the
    operator. Only a mark takes the intent. -/
inductive Move (job : WritebackJob) (w : World ι) : World ι → Prop where
  | stay : Move job w w
  | call (c : ι) (pc : Pc) (ledger : SqliteLedger) (rows : LedgerStep w.ledger ledger)
      (quiet : pc.holdsIntent = true → (w.pc c).holdsIntent = true)
      (ready : Ready job w.ledger (w.pc c) → Ready job ledger pc) : Move job w ((w.withLedger ledger).goto c pc)
  | mark (c : ι) (i : StoredWritebackIntent) (ledger : SqliteLedger) (rows : LedgerStep w.ledger ledger)
      (claimed : w.pc c = .marking) (found : w.ledger.getWritebackIntent (jobIntent job) = some i)
      (recorded : i.status = .intentRecorded)
      (crossed : ∃ j, ledger.getWritebackIntent (jobIntent job) = some j ∧ j.status ≠ .intentRecorded) :
      Move job w ((w.withLedger ledger).goto c .marked)
  | transact (c : ι) (pc : Pc) (f : SourceSession → SourceSession) (held : (w.pc c).holdsIntent = true)
      (effects : ∀ s, (f s).effects = s.effects) : Move job w ((w.inSession c f).goto c pc)
  | commit (c : ι) : Move job w { w.inSession c .commit with commits := w.commits + (w.session c).gain }
  | drop (c : ι) : Move job w (w.inSession c .rollBack)
  | operator (ledger : SqliteLedger) (rows : LedgerStep w.ledger ledger) : Move job w (w.withLedger ledger)

/-- A call that moves on and leaves the ledger as it is. -/
theorem Move.goto {w : World ι} (c : ι) (pc : Pc) (quiet : pc.holdsIntent = true → (w.pc c).holdsIntent = true)
    (ready : Ready job w.ledger (w.pc c) → Ready job w.ledger pc) : Move job w (w.goto c pc) :=
  .call c pc w.ledger (.refl _) quiet ready

theorem move_readIntent {w : World ι} {c : ι} : Move job w (readIntent job w c) := by
  unfold readIntent
  split
  · exact .goto c .ended (by simp [Pc.holdsIntent]) fun _ => trivial
  · rename_i proposal claimable
    have admits : w.ledger.Admits job := SqliteLedger.claimableProposal_ok_iff.mp ⟨proposal, claimable⟩
    split
    · exact .goto c .inserting (by simp [Pc.holdsIntent]) fun _ => admits
    · rename_i existing found
      split
      · rename_i intentId decided
        obtain ⟨_, matched, _⟩ := bind_eq_ok decided
        refine .goto c .marking (by simp [Pc.holdsIntent]) fun _ => ?_
        exact ⟨admits, existing, found, assertIntentMatchesJob_ok_iff.mp matched⟩
      · exact .goto c .ended (by simp [Pc.holdsIntent]) fun _ => trivial

theorem move_insertIntent {w : World ι} {c : ι} (here : w.pc c = .inserting) : Move job w (insertIntent job runner w c) := by
  unfold insertIntent
  split
  · exact .goto c .ended (by simp [Pc.holdsIntent]) fun _ => trivial
  · rename_i intents inserted
    have rows : LedgerStep w.ledger { w.ledger with intents } := ⟨rfl, SqliteLedger.rowStep_insert inserted⟩
    refine .call c .marking _ rows (by simp [Pc.holdsIntent]) fun ready => ?_
    rw [here] at ready
    refine ⟨rows.admits ready, recordedIntent job (runner c), ?_, rfl⟩
    have stored := (WritebackIntents.insert_ok inserted).2.2
    simp only [SqliteLedger.getWritebackIntent, stored]
    exact KeyedMap.get?_set_self _ _ _

theorem move_markApplying {w : World ι} {c : ι} {appended : Bool} (here : w.pc c = .marking) :
    Move job w (markApplying job runner w c appended) := by
  unfold markApplying
  split
  · exact .goto c .reconciling (by simp [Pc.holdsIntent]) fun ready => by rw [here] at ready; exact ready
  · rename_i ledger changed
    have rows := ledgerStep_updateWhere (fun _ recorded => .applying (runner c) (by simpa using recorded)) changed
    cases appended with
    | false =>
      refine .call c .reconciling ledger rows (by simp [Pc.holdsIntent]) fun ready => ?_
      rw [here] at ready
      exact rows.matched ready
    | true =>
      obtain ⟨i, found, recorded, rfl⟩ := updateWhere_some changed
      refine .mark c i _ rows here found (by simpa using recorded) ⟨applyingRow (runner c) i, ?_, by simp [applyingRow]⟩
      rw [SqliteLedger.getWritebackIntent_updateIntent, if_pos rfl, found]
      rfl

theorem move_completeIntent {w : World ι} {c : ι} {result : WritebackResult} (finished : result.status ≠ .canceled) :
    Move job w (completeIntent job w c result) := by
  unfold completeIntent
  split
  · exact .goto c .ended (by simp [Pc.holdsIntent]) fun _ => trivial
  · rename_i ledger changed
    exact .call c .ended ledger (ledgerStep_updateWhere (fun _ _ => .completed finished) changed) (by simp [Pc.holdsIntent])
      fun _ => trivial

theorem move_readForReconciliation {w : World ι} {c : ι} (here : w.pc c = .reconciling) :
    Move job w (readForReconciliation job w c) := by
  unfold readForReconciliation
  split
  · exact .goto c .ended (by simp [Pc.holdsIntent]) fun _ => trivial
  · split
    · exact .goto c .ended (by simp [Pc.holdsIntent]) fun _ => trivial
    · exact .goto c .updating (by simp [Pc.holdsIntent]) fun ready => by rw [here] at ready; exact ready

theorem move_updateForReconciliation {w : World ι} {c : ι} {reason : String} :
    Move job w (updateForReconciliation job w c reason) := by
  unfold updateForReconciliation
  split
  · exact .goto c .ended (by simp [Pc.holdsIntent]) fun _ => trivial
  · rename_i ledger changed
    exact .call c .ended ledger (ledgerStep_updateWhere (fun _ _ => .reconciliation _) changed) (by simp [Pc.holdsIntent])
      fun _ => trivial

theorem move_ite {w w' : World ι} {guard : Prop} [Decidable guard] (move : guard → Move job w w') :
    Move job w (if guard then w' else w) := by
  split
  · rename_i holds
    exact move holds
  · exact .stay

/-- Every event is a move. -/
theorem step_move (w : World ι) (e : Event ι) : Move job w (step platform job runner w e) := by
  cases e with
  | readIntent c => exact move_ite fun _ => move_readIntent
  | insertIntent c => exact move_ite move_insertIntent
  | markApplying c appended => exact move_ite move_markApplying
  | beginTransaction c =>
    exact move_ite fun here => .transact c .working _ (by simp [here, Pc.holdsIntent]) SourceSession.effects_beginTransaction
  | beginFails c =>
    exact move_ite fun here => .goto c .failed (by simp [here, Pc.holdsIntent]) fun ready => by rw [here] at ready; exact ready
  | execute c changes =>
    refine move_ite fun here => ?_
    have acted : Move job w ((w.inSession c (.execute changes)).goto c (w.pc c)) :=
      .transact c (w.pc c) _ (by simp [here, Pc.holdsIntent]) (SourceSession.effects_execute changes)
    have same : (w.inSession c (.execute changes)).goto c (w.pc c) = w.inSession c (.execute changes) := by
      simp [World.goto, World.inSession]
    rwa [same] at acted
  | rollBack c =>
    exact move_ite fun here => .transact c .failed _ (by simp [here, Pc.holdsIntent]) SourceSession.effects_rollBack
  | rollBackFails c =>
    exact move_ite fun here => .goto c .reconciling (by simp [Pc.holdsIntent]) fun ready => by
      rw [here] at ready; exact ready
  | sendCommit c =>
    exact move_ite fun here => .transact c .committing _ (by simp [here, Pc.holdsIntent]) SourceSession.effects_sendCommit
  | sourceCommits c => exact .commit c
  | sourceDrops c => exact .drop c
  | observeCommit c =>
    exact move_ite fun here => .goto c .acknowledged (by simp [here.1, Pc.holdsIntent]) fun ready => by
      rw [here.1] at ready; exact ready
  | commitUnknown c =>
    exact move_ite fun here => .goto c .reconciling (by simp [Pc.holdsIntent]) fun ready => by
      rw [here] at ready; exact ready
  | stopAfterCommit c =>
    exact move_ite fun here => .goto c .reconciling (by simp [Pc.holdsIntent]) fun ready => by
      rw [here] at ready; exact ready
  | completeIntent c result finished => exact move_ite fun _ => move_completeIntent finished
  | readForReconciliation c => exact move_ite move_readForReconciliation
  | updateForReconciliation c reason => exact move_ite fun _ => move_updateForReconciliation
  | crash c => exact .goto c .ended (by simp [Pc.holdsIntent]) fun _ => trivial
  | reconcile input => exact .operator _ (ledgerStep_store platform w.ledger (.reconcile input))

/-! ### One holder of the intent -/

/-- The intent has left `intent_recorded`. -/
def IntentCrossed (job : WritebackJob) (s : SqliteLedger) : Prop :=
  ∃ i, s.getWritebackIntent (jobIntent job) = some i ∧ i.status ≠ .intentRecorded

theorem LedgerStep.crossed {s s' : SqliteLedger} (steps : LedgerStep s s') (crossed : IntentCrossed job s) :
    IntentCrossed job s' := by
  obtain ⟨i, found, moved⟩ := crossed
  obtain ⟨j, found', _, moved'⟩ := (steps.rows _).advances i found
  exact ⟨j, found', moved' moved⟩

/-- Only the owner, if there is one, holds the intent and has used its source
    session. -/
structure Owned (job : WritebackJob) (w : World ι) (owner : Option ι) : Prop where
  crossed : owner.isSome = true → IntentCrossed job w.ledger
  others : ∀ c, some c ≠ owner → w.session c = .idle ∧ (w.pc c).holdsIntent = false
  commits : w.commits = owner.elim 0 fun c => (w.session c).effects

theorem Owned.holder {w : World ι} {owner : Option ι} (owned : Owned job w owner) {c : ι}
    (holds : (w.pc c).holdsIntent = true) : owner = some c := by
  by_contra other
  have idle := (owned.others c (Ne.symm other)).2
  rw [holds] at idle
  cases idle

theorem owned_call {w : World ι} {owner : Option ι} {c : ι} {pc : Pc} {ledger : SqliteLedger}
    (owned : Owned job w owner) (rows : LedgerStep w.ledger ledger)
    (quiet : pc.holdsIntent = true → (w.pc c).holdsIntent = true) :
    Owned job ((w.withLedger ledger).goto c pc) owner := by
  refine ⟨fun present => rows.crossed (owned.crossed present), fun d other => ⟨(owned.others d other).1, ?_⟩, owned.commits⟩
  by_cases here : d = c
  · subst here
    have before := (owned.others d other).2
    simp only [World.goto, World.withLedger, Function.update_self]
    cases after : pc.holdsIntent with
    | false => rfl
    | true => rw [quiet after] at before; cases before
  · simp only [World.goto, World.withLedger, Function.update_of_ne here]
    exact (owned.others d other).2

/-- A mark finds the intent free. -/
theorem owned_mark {w : World ι} {owner : Option ι} {c : ι} {i : StoredWritebackIntent} {ledger : SqliteLedger}
    (owned : Owned job w owner) (found : w.ledger.getWritebackIntent (jobIntent job) = some i)
    (recorded : i.status = .intentRecorded) (crossed : IntentCrossed job ledger) :
    Owned job ((w.withLedger ledger).goto c .marked) (some c) := by
  have free : owner = none := by
    cases owner with
    | none => rfl
    | some d =>
      obtain ⟨j, found', moved⟩ := owned.crossed rfl
      rw [found] at found'
      cases found'
      exact absurd recorded moved
  subst free
  refine ⟨fun _ => crossed, fun d other => ⟨(owned.others d (by simp)).1, ?_⟩, ?_⟩
  · have apart : d ≠ c := fun same => other (congrArg some same)
    simp only [World.goto, World.withLedger, Function.update_of_ne apart]
    exact (owned.others d (by simp)).2
  · have idle := (owned.others c (by simp)).1
    have none := owned.commits
    simp only [World.goto, World.withLedger, Option.elim_some, idle, SourceSession.effects]
    simpa using none

/-- A step of one source session: only the owner's session may change, and the
    commits count its effects. -/
theorem owned_session {w : World ι} {owner : Option ι} {c : ι} {f : SourceSession → SourceSession} (gained : Nat)
    (owned : Owned job w owner) (idle : some c ≠ owner → f .idle = .idle ∧ gained = 0)
    (gains : (f (w.session c)).effects = (w.session c).effects + gained) :
    Owned job { w.inSession c f with commits := w.commits + gained } owner := by
  refine ⟨owned.crossed, fun d other => ⟨?_, (owned.others d other).2⟩, ?_⟩
  · by_cases here : d = c
    · subst here
      simp only [World.inSession, Function.update_self, (owned.others d other).1]
      exact (idle other).1
    · simp only [World.inSession, Function.update_of_ne here]
      exact (owned.others d other).1
  · have before := owned.commits
    cases owner with
    | none =>
      simp only [Option.elim_none] at before ⊢
      rw [before, (idle (by simp)).2]
    | some d =>
      simp only [Option.elim_some] at before ⊢
      by_cases here : d = c
      · subst here
        simp only [World.inSession, Function.update_self, before, gains]
      · have apart : some c ≠ some d := fun same => here (Option.some.inj same).symm
        simp only [World.inSession, Function.update_of_ne here, before, (idle apart).2, Nat.add_zero]

/-! ### The invariant -/

/-- What holds in every world that the calls reach. -/
structure Inv (job : WritebackJob) (w : World ι) : Prop where
  ready : ∀ c, Ready job w.ledger (w.pc c)
  finished : NotCanceled (w.ledger.getWritebackIntent (jobIntent job))
  owned : ∃ owner, Owned job w owner

omit [DecidableEq ι] in
theorem inv_start {ledger : SqliteLedger} (fresh : ledger.getWritebackIntent (jobIntent job) = none) :
    Inv job (World.start ledger : World ι) := by
  refine ⟨fun _ => trivial, ?_, none, ?_⟩
  · intro i found
    have absent : (World.start ledger : World ι).ledger.getWritebackIntent (jobIntent job) = none := fresh
    rw [absent] at found
    cases found
  · exact ⟨fun present => (by cases present), fun _ _ => ⟨rfl, rfl⟩, rfl⟩

theorem ready_goto {w : World ι} {c : ι} {pc : Pc} {ledger : SqliteLedger} (ready : ∀ d, Ready job w.ledger (w.pc d))
    (rows : LedgerStep w.ledger ledger) (here : Ready job ledger pc) (d : ι) :
    Ready job ledger (((w.withLedger ledger).goto c pc).pc d) := by
  by_cases same : d = c
  · subst same
    simpa only [World.goto, World.withLedger, Function.update_self] using here
  · simp only [World.goto, World.withLedger, Function.update_of_ne same]
    exact rows.ready (ready d)

theorem inv_move {w w' : World ι} (inv : Inv job w) (move : Move job w w') : Inv job w' := by
  obtain ⟨owner, owned⟩ := inv.owned
  cases move with
  | stay => exact inv
  | call c pc ledger rows quiet ready =>
    exact ⟨ready_goto inv.ready rows (ready (inv.ready c)), (rows.rows _).notCanceled inv.finished, owner,
      owned_call owned rows quiet⟩
  | mark c i ledger rows claimed found recorded crossed =>
    have matched : Matched job w.ledger := by
      have ready := inv.ready c
      rw [claimed] at ready
      exact ready
    exact ⟨ready_goto inv.ready rows (rows.matched matched), (rows.rows _).notCanceled inv.finished, some c,
      owned_mark owned found recorded crossed⟩
  | transact c pc f held effects =>
    have holder := owned.holder held
    have acted : Owned job (w.inSession c f) owner :=
      owned_session 0 owned (fun other => absurd holder.symm other) (effects _)
    have moved : Owned job ((w.inSession c f).goto c pc) owner :=
      owned_call acted (.refl _) fun _ => held
    exact ⟨ready_goto inv.ready (.refl _) (((inv.ready c).matched held).ready pc), inv.finished, owner, moved⟩
  | commit c =>
    refine ⟨inv.ready, inv.finished, owner, owned_session _ owned (fun other => ⟨rfl, ?_⟩) (SourceSession.effects_commit _)⟩
    rw [(owned.others c other).1]
    rfl
  | drop c =>
    exact ⟨inv.ready, inv.finished, owner,
      owned_session 0 owned (fun _ => ⟨rfl, rfl⟩) (SourceSession.effects_rollBack _)⟩
  | operator ledger rows =>
    exact ⟨fun c => rows.ready (inv.ready c), (rows.rows _).notCanceled inv.finished, owner,
      fun present => rows.crossed (owned.crossed present), owned.others, owned.commits⟩

theorem inv_run {ledger : SqliteLedger} (fresh : ledger.getWritebackIntent (jobIntent job) = none)
    (events : List (Event ι)) : Inv job (run (step platform job runner) (World.start ledger) events) :=
  invariant (Inv job) (fun w e inv => inv_move inv (step_move w e)) (inv_start fresh) events

omit [DecidableEq ι] in
theorem commits_le_one {w : World ι} (inv : Inv job w) : w.commits ≤ 1 := by
  obtain ⟨owner, owned⟩ := inv.owned
  rw [owned.commits]
  cases owner with
  | none => exact Nat.zero_le 1
  | some c => exact SourceSession.effects_le_one _

/-! ### Claims after a crash -/

theorem crossed_of_holder {w : World ι} (inv : Inv job w) {c : ι} (holds : (w.pc c).holdsIntent = true) :
    Matched job w.ledger ∧ IntentCrossed job w.ledger := by
  obtain ⟨owner, owned⟩ := inv.owned
  exact ⟨(inv.ready c).matched holds, owned.crossed (by rw [owned.holder holds]; rfl)⟩

theorem crossed_move {w w' : World ι} (move : Move job w w')
    (crossed : Matched job w.ledger ∧ IntentCrossed job w.ledger) :
    Matched job w'.ledger ∧ IntentCrossed job w'.ledger := by
  cases move with
  | stay | transact _ _ _ _ _ | commit _ | drop _ => exact crossed
  | call _ _ ledger rows _ _ | mark _ _ ledger rows _ _ _ _ | operator ledger rows =>
    exact ⟨rows.matched crossed.1, rows.crossed crossed.2⟩

/-- An intent that a call holds stays out of `intent_recorded` in every run. -/
theorem crossed_run (platform : Platform) (runner : ι → String) {w : World ι}
    (crossed : Matched job w.ledger ∧ IntentCrossed job w.ledger)
    (events : List (Event ι)) :
    Matched job (run (step platform job runner) w events).ledger ∧
      IntentCrossed job (run (step platform job runner) w events).ledger :=
  invariant (fun w => Matched job w.ledger ∧ IntentCrossed job w.ledger)
    (fun w e crossed => crossed_move (step_move w e) crossed) crossed events

omit [DecidableEq ι] in
theorem declined_of_crossed {w : World ι} (inv : Inv job w)
    (crossed : Matched job w.ledger ∧ IntentCrossed job w.ledger) (runnerId : String) :
    Declined ((sqliteIntentStore platform).decision w.ledger job runnerId) := by
  obtain ⟨⟨admits, i, found, same⟩, j, found', moved⟩ := crossed
  rw [found] at found'
  cases found'
  exact (declined_iff_crossed (sqliteIntentStore_lawful platform) admits inv.finished).mpr ⟨i, found, same, moved⟩

/-- However the calls for one job interleave and crash, at most one mutation is
    committed, and from the crash of a call between `applying` and completion on
    every claim of the job is declined. -/
theorem one_commit_and_declined_after_crash (platform : Platform) (job : WritebackJob) (runner : ι → String)
    {ledger : SqliteLedger} (fresh : ledger.getWritebackIntent (intentIdOf job.jobId) = none) (events : List (Event ι)) :
    (run (step platform job runner) (World.start ledger) events).commits ≤ 1 ∧
    ∀ before after c, events = before ++ .crash c :: after →
      ((run (step platform job runner) (World.start ledger) before).pc c).holdsIntent = true →
      ∀ runnerId, Declined ((sqliteIntentStore platform).decision
        (run (step platform job runner) (World.start ledger) events).ledger job runnerId) := by
  refine ⟨commits_le_one (inv_run fresh events), ?_⟩
  intro before after c split holds runnerId
  have crossed := crossed_of_holder (inv_run fresh before) holds
  have still := crossed_run platform runner crossed (.crash c :: after)
  rw [← run_append, ← split] at still
  exact declined_of_crossed (inv_run fresh events) still runnerId

end

/-- One call that crashes while its transaction is open. -/
def crashedApply : List (Event Nat) :=
  [.readIntent 0, .insertIntent 0, .markApplying 0 true, .beginTransaction 0, .crash 0]

theorem crashedApply_declines :
    Declined ((sqliteIntentStore constantPlatform).decision
      (run (step constantPlatform (closeTicketJob 1) fun _ => "worker_1")
        (World.start (.ofProposals (.ofList [("prop_1", closeTicket)]))) crashedApply).ledger
      (closeTicketJob 1) "worker_2") := by
  have declined := (one_commit_and_declined_after_crash constantPlatform (closeTicketJob 1) (fun _ => "worker_1")
    (show (SqliteLedger.ofProposals (.ofList [("prop_1", closeTicket)])).getWritebackIntent
      (intentIdOf (closeTicketJob 1).jobId) = none by decide) crashedApply).2
  exact declined (crashedApply.take 4) [] 0 rfl (by decide) "worker_2"

/-- A call that loses the acknowledgement of its COMMIT, and a second call that
    reads the intent while the first one works. -/
example :
    (run (step constantPlatform (closeTicketJob 1) fun _ => "worker_1")
      (World.start (.ofProposals (.ofList [("prop_1", closeTicket)])))
      [.readIntent 0, .insertIntent 0, .readIntent 1, .markApplying 0 true, .markApplying 1 true, .beginTransaction 0,
        .execute 0 true, .sendCommit 0, .crash 0, .sourceCommits 0, .beginTransaction 1, .sourceCommits 1]).commits =
      1 := by
  decide

end SynapsorRunner.LedgerWorkers
