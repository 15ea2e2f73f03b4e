import SynapsorRunner.IntentStores
import SynapsorRunner.ProposalRuns
import SynapsorRunner.SnapshotSessions

/-!
The shared Postgres ledger `ledger_entries`. Three kinds of writers work on it
under three different advisory locks: `withWrite` of the Postgres runtime store and
the bridge of the command line read every entry into a SQLite store, run on it
and write every entry of it back; `PostgresWritebackIntentStore` works on the row
of one intent.

A row is selected FOR UPDATE by an intent operation, which makes the operation one
step when the row is there. A claim that finds no row locks none, so what is
committed before its INSERT is overwritten as well: it is a session with one row.

No intent goes back and no commit is lost exactly in the runs where every
write-back is valid (`no_lost_update_iff`).
-/
namespace SynapsorRunner.SharedLedger
open SynapsorRunner.Protocol SynapsorRunner.Proposals SynapsorRunner.Intents SynapsorRunner.ProposalStore
open SynapsorRunner.Sessions SynapsorRunner.Runs

/-! ### Entries -/

/-- The tables of the ledger besides `proposals` and `writeback_intents`. -/
inductive LedgerTable where
  | proposalEvents
  | approvals
  | writebackJobs
  | idempotencyReceipts
  | writebackReceipts
  | evidenceBundles
  | evidenceItems
  | queryAudit
  | exploreBudgetReservations
  | replayRecords
  | shadowHumanActions
  | shadowStudies
  | shadowStudyCases
  | shadowOutcomes
  | workerQueue
  | attentionEvents
  | attentionItems
  | notificationDeliveries
  | runnerState
  | policyRecommendations
  | cloudOutbox
  | cloudGovernanceEvents
  deriving DecidableEq, Repr

/-- The tables whose key is `INTEGER PRIMARY KEY AUTOINCREMENT`. -/
def LedgerTable.autoIncrement : LedgerTable → Bool
  | .proposalEvents | .approvals | .writebackReceipts | .evidenceItems | .queryAudit | .shadowHumanActions => true
  | _ => false

/-- The key of a row: a given one, or a number. -/
inductive RowKey where
  | named (text : String)
  | numbered (n : Nat)
  deriving DecidableEq, Repr

structure RecordKey where
  table : LedgerTable
  key : RowKey
  deriving DecidableEq, Repr

/-- `entry_key`: the table and the key of the row. -/
inductive LedgerKey where
  | proposal (proposalId : String)
  | writebackIntent (intentId : String)
  | record (key : RecordKey)
  deriving DecidableEq, Repr

inductive LedgerRow (ρ : Type) where
  | proposal (row : ProposalRow)
  | writebackIntent (intent : StoredWritebackIntent)
  | record (row : ρ)

/-- The entries by their keys, which the table of a key divides. -/
structure Entries (ρ : Type) where
  proposals : KeyedMap String ProposalRow
  intents : KeyedMap String StoredWritebackIntent
  records : KeyedMap RecordKey ρ

namespace Entries
variable {ρ : Type}

def row? (entries : Entries ρ) : LedgerKey → Option (LedgerRow ρ)
  | .proposal proposalId => (entries.proposals.get? proposalId).map .proposal
  | .writebackIntent intentId => (entries.intents.get? intentId).map .writebackIntent
  | .record key => (entries.records.get? key).map .record

/-- `upsertSharedLedgerEntries`: every entry over the one of its key. -/
def upsert (entries written : Entries ρ) : Entries ρ :=
  { proposals := entries.proposals.setAll written.proposals.entries
    intents := entries.intents.setAll written.intents.entries
    records := entries.records.setAll written.records.entries }

theorem map_or {α β : Type} (f : α → β) (a b : Option α) : (a.or b).map f = (a.map f).or (b.map f) := by
  cases a <;> rfl

theorem row?_upsert (entries written : Entries ρ) (key : LedgerKey) :
    (entries.upsert written).row? key = (written.row? key).or (entries.row? key) := by
  cases key <;> simp only [row?, upsert, KeyedMap.get?_setAll_entries, map_or]

theorem row?_eq_intent {entries : Entries ρ} {key : LedgerKey} {i : StoredWritebackIntent}
    (found : entries.row? key = some (.writebackIntent i)) :
    ∃ intentId, key = .writebackIntent intentId ∧ entries.intents.get? intentId = some i := by
  cases key with
  | proposal proposalId => simp [row?] at found
  | writebackIntent intentId =>
    simp only [row?, Option.map_eq_some_iff, LedgerRow.writebackIntent.injEq, exists_eq_right] at found
    exact ⟨intentId, rfl, found⟩
  | record key => simp [row?] at found

end Entries

/-! ### The SQLite store of a session -/

structure LocalStore (ρ : Type) where
  proposals : KeyedMap String ProposalRow
  intents : WritebackIntents
  records : KeyedMap RecordKey ρ

/-- What a callback does to its store: the operations on intents, and writes to
    the other tables. -/
inductive LocalChange (ρ : Type) where
  | intent (e : IntentEvent)
  | putProposal (row : ProposalRow)
  | putRecord (key : RecordKey) (row : ρ)
  | appendRecord (table : LedgerTable) (row : ρ)
  | removeRecord (key : RecordKey)

/-- The number of a key in a table. -/
def RecordKey.number? (table : LedgerTable) (key : RecordKey) : Option Nat :=
  match key.key with
  | .numbered n => if key.table = table then some n else none
  | .named _ => none

namespace LocalStore
variable {ρ : Type}

/-- `importSharedLedgerEntries` into an empty store. The UNIQUE columns of the
    intents and their proposals are checked; the import throws otherwise. -/
def importSharedLedgerEntries (entries : Entries ρ) : Option (LocalStore ρ) :=
  if unique : (entries.intents.values.map (·.idempotencyKey)).Nodup ∧
      (entries.intents.values.map (·.writebackJobId)).Nodup then
    if ∀ i ∈ entries.intents.values, entries.proposals.contains i.proposalId = true then
      some ⟨entries.proposals, ⟨entries.intents, unique.1, unique.2⟩, entries.records⟩
    else none
  else none

def sharedLedgerEntries (store : LocalStore ρ) : Entries ρ :=
  ⟨store.proposals, store.intents.rows, store.records⟩

theorem importSharedLedgerEntries_some {entries : Entries ρ} {store : LocalStore ρ}
    (restored : importSharedLedgerEntries entries = some store) : store.sharedLedgerEntries = entries := by
  unfold importSharedLedgerEntries at restored
  split at restored
  · split at restored
    · cases restored
      rfl
    · cases restored
  · cases restored

/-- What the intent operations read. -/
def ledger (store : LocalStore ρ) : SqliteLedger :=
  ⟨store.proposals.mapValues ProposalRow.toStoredProposal, store.intents⟩

/-- The number that SQLite gives to the next row of a table. -/
def nextNumber (store : LocalStore ρ) (table : LedgerTable) : Nat :=
  (store.records.keys.filterMap (RecordKey.number? table)).foldl max 0 + 1

def change (platform : Platform) (store : LocalStore ρ) : LocalChange ρ → LocalStore ρ
  | .intent e => { store with intents := ((sqliteIntentStore platform).step store.ledger e).intents }
  | .putProposal row => { store with proposals := store.proposals.set row.proposalId row }
  | .putRecord key row => { store with records := store.records.set key row }
  | .appendRecord table row =>
    if table.autoIncrement then
      { store with records := store.records.set ⟨table, .numbered (store.nextNumber table)⟩ row }
    else store
  | .removeRecord key => { store with records := store.records.filterKeys fun k => decide (k ≠ key) }

/-- The intents of a store come no less far by a change. -/
theorem change_onward (platform : Platform) (store : LocalStore ρ) (c : LocalChange ρ) (intentId : String) :
    Onward (store.intents.rows.get? intentId) ((store.change platform c).intents.rows.get? intentId) := by
  cases c with
  | intent e => exact (SqliteLedger.rowStep_step store.ledger e intentId).onward
  | putProposal row => exact .refl _
  | putRecord key row => exact .refl _
  | appendRecord table row =>
    simp only [change]
    split <;> exact .refl _
  | removeRecord key => exact .refl _

end LocalStore

/-! ### The writers -/

/-- The advisory locks of a schema. -/
inductive Lock where
  | runtimeStore
  | sharedLedgerMirror
  | writebackIntent (jobId : String)
  deriving DecidableEq, Repr

/-- How a session begins: `withWrite`, `withSharedPostgresRuntimeStoreBridge`, or
    a claim that selects no row. -/
inductive Opening where
  | withWrite
  | bridge
  | claim (job : WritebackJob) (runnerId : String)

def Opening.lock : Opening → Lock
  | .withWrite => .runtimeStore
  | .bridge => .sharedLedgerMirror
  | .claim job _ => .writebackIntent job.jobId

inductive SessionStore (ρ : Type) where
  | runtime (store : LocalStore ρ)
  | claim (job : WritebackJob) (runnerId : String)

namespace SessionStore
variable {ρ : Type}

def restore (entries : Entries ρ) : Opening → Option (SessionStore ρ)
  | .withWrite | .bridge => (LocalStore.importSharedLedgerEntries entries).map .runtime
  | .claim job runnerId =>
    if (entries.intents.get? (intentIdOf job.jobId)).isNone then some (.claim job runnerId) else none

def change (platform : Platform) (c : LocalChange ρ) : SessionStore ρ → SessionStore ρ
  | .runtime store => .runtime (store.change platform c)
  | .claim job runnerId => .claim job runnerId

/-- The entries that the session writes at its end. -/
def entries : SessionStore ρ → Entries ρ
  | .runtime store => store.sharedLedgerEntries
  | .claim job runnerId => ⟨.empty, KeyedMap.empty.set (intentIdOf job.jobId) (recordedIntent job runnerId), .empty⟩

/-- What a session holds of the intents: a copy that came on, or the row of a
    claim that found none. -/
def Held (snapshot : Entries ρ) : SessionStore ρ → Prop
  | .runtime store => ∀ intentId, Onward (snapshot.intents.get? intentId) (store.intents.rows.get? intentId)
  | .claim job _ => snapshot.intents.get? (intentIdOf job.jobId) = none

end SessionStore

/-- The job of an intent id, whose lock an operation takes. -/
def lockedJob (intentId : String) : String := (PostgresIntents.intentJobId intentId).toOption.getD intentId

/-- The lock of an operation of `PostgresWritebackIntentStore`. -/
def operationLock : IntentEvent → Lock
  | .claim job _ => .writebackIntent job.jobId
  | .markApplying intentId _ => .writebackIntent (lockedJob intentId)
  | .complete intentId _ _ => .writebackIntent (lockedJob intentId)
  | .requireReconciliation intentId _ => .writebackIntent (lockedJob intentId)
  | .reconcile input => .writebackIntent (lockedJob input.intentId)

/-- An operation of `PostgresWritebackIntentStore`, which has no reconciliation. -/
def operation (platform : Platform) {ρ : Type} (entries : Entries ρ) : IntentEvent → Entries ρ
  | .reconcile _ => entries
  | e => { entries with intents := (postgresIntentStore platform).step entries.intents e }

theorem operation_onward (platform : Platform) {ρ : Type} (entries : Entries ρ) (e : IntentEvent) (intentId : String) :
    Onward (entries.intents.get? intentId) ((operation platform entries e).intents.get? intentId) := by
  cases e with
  | claim job runnerId => exact (PostgresIntents.rowStep_step entries.intents (.claim job runnerId) intentId).onward
  | markApplying id runnerId => exact (PostgresIntents.rowStep_step entries.intents (.markApplying id runnerId) _).onward
  | complete id result finished =>
    exact (PostgresIntents.rowStep_step entries.intents (.complete id result finished) _).onward
  | requireReconciliation id reason =>
    exact (PostgresIntents.rowStep_step entries.intents (.requireReconciliation id reason) _).onward
  | reconcile input => exact .refl _

/-- The shared ledger and its writers. -/
def ledger (platform : Platform) (ρ : Type) :
    Shared (Entries ρ) LedgerKey (LedgerRow ρ) (SessionStore ρ) Lock Opening (LocalChange ρ) IntentEvent where
  row? := Entries.row?
  upsert := Entries.upsert
  row?_upsert := Entries.row?_upsert
  lock := Opening.lock
  restore := fun request entries => SessionStore.restore entries request
  edit := fun store c => store.change platform c
  entries := SessionStore.entries
  directLock := operationLock
  direct := operation platform

/-! ### Intents come on -/

/-- `Onward` on the rows of the ledger. -/
def RowOnward {ρ : Type} (a b : Option (LedgerRow ρ)) : Prop :=
  ∀ i, a = some (.writebackIntent i) → ∃ j, b = some (.writebackIntent j) ∧ i.status.rank ≤ j.status.rank

section
variable {ρ : Type}

theorem RowOnward.refl (a : Option (LedgerRow ρ)) : RowOnward a a := fun i found => ⟨i, found, Nat.le_refl _⟩

theorem RowOnward.trans {a b c : Option (LedgerRow ρ)} (first : RowOnward a b) (second : RowOnward b c) :
    RowOnward a c := by
  intro i found
  obtain ⟨j, middle, le⟩ := first i found
  obtain ⟨k, last, le'⟩ := second j middle
  exact ⟨k, last, le.trans le'⟩

theorem rowOnward_intent {a b : Option StoredWritebackIntent} :
    RowOnward (ρ := ρ) (a.map .writebackIntent) (b.map .writebackIntent) ↔ Onward a b := by
  constructor
  · intro onward i found
    obtain ⟨j, later, le⟩ := onward i (by rw [found]; rfl)
    simp only [Option.map_eq_some_iff, LedgerRow.writebackIntent.injEq, exists_eq_right] at later
    exact ⟨j, later, le⟩
  · intro onward i found
    simp only [Option.map_eq_some_iff, LedgerRow.writebackIntent.injEq, exists_eq_right] at found
    obtain ⟨j, later, le⟩ := onward i found
    exact ⟨j, by rw [later]; rfl, le⟩

/-- Rows that are not intents are no concern of `RowOnward`. -/
theorem rowOnward_of_intents {before after : Entries ρ}
    (onward : ∀ intentId, Onward (before.intents.get? intentId) (after.intents.get? intentId)) (key : LedgerKey) :
    RowOnward (before.row? key) (after.row? key) := by
  cases key with
  | writebackIntent intentId => exact rowOnward_intent.mpr (onward intentId)
  | proposal proposalId =>
    intro i found
    obtain ⟨_, is, _⟩ := Entries.row?_eq_intent found
    cases is
  | record key =>
    intro i found
    obtain ⟨_, is, _⟩ := Entries.row?_eq_intent found
    cases is

theorem held_change (platform : Platform) {snapshot : Entries ρ} {store : SessionStore ρ} (c : LocalChange ρ)
    (held : store.Held snapshot) : (store.change platform c).Held snapshot := by
  cases store with
  | runtime store => exact fun intentId => (held intentId).trans (store.change_onward platform c intentId)
  | claim job runnerId => exact held

theorem held_restore {entries : Entries ρ} {request : Opening} {store : SessionStore ρ}
    (restored : SessionStore.restore entries request = some store) : store.Held entries := by
  have imported : ∀ {local' : LocalStore ρ}, LocalStore.importSharedLedgerEntries entries = some local' →
      SessionStore.Held entries (.runtime local') := by
    intro local' is intentId
    rw [← LocalStore.importSharedLedgerEntries_some is]
    exact .refl _
  cases request with
  | withWrite =>
    obtain ⟨local', is, rfl⟩ := Option.map_eq_some_iff.mp restored
    exact imported is
  | bridge =>
    obtain ⟨local', is, rfl⟩ := Option.map_eq_some_iff.mp restored
    exact imported is
  | claim job runnerId =>
    simp only [SessionStore.restore] at restored
    split at restored
    · rename_i absent
      cases restored
      exact Option.isNone_iff_eq_none.mp absent
    · cases restored

theorem held_entries {snapshot : Entries ρ} {store : SessionStore ρ} (held : store.Held snapshot) {key : LedgerKey}
    {row : LedgerRow ρ} (holds : store.entries.row? key = some row) : RowOnward (snapshot.row? key) (some row) := by
  rw [← holds]
  cases store with
  | runtime store =>
    have onward : ∀ intentId, Onward (snapshot.intents.get? intentId) (store.intents.rows.get? intentId) := held
    exact rowOnward_of_intents onward key
  | claim job runnerId =>
    intro i found
    obtain ⟨intentId, rfl, present⟩ := Entries.row?_eq_intent found
    simp only [SessionStore.entries, Entries.row?, KeyedMap.get?_set, Option.map_eq_some_iff] at holds
    obtain ⟨j, other, _⟩ := holds
    split at other
    · rename_i same
      have absent : snapshot.intents.get? (intentIdOf job.jobId) = none := held
      rw [same, absent] at present
      cases present
    · simp at other

theorem ledger_follows (platform : Platform) : (ledger platform ρ).Follows RowOnward fun snapshot store =>
    SessionStore.Held snapshot store where
  refl := .refl
  trans := fun _ _ _ => .trans
  direct := fun entries e => rowOnward_of_intents (operation_onward platform entries e)
  restored := fun _ _ _ => held_restore
  edited := fun _ _ c => held_change platform c
  holds := fun _ _ held _ _ => held_entries held

/-! ### Lost updates -/

/-- The ledger with its writers. -/
abbrev LedgerWorld (ρ : Type) := World (Entries ρ) (SessionStore ρ) Lock
abbrev LedgerEvent (ρ : Type) := Event Lock Opening (LocalChange ρ) IntentEvent

/-- At no two points of a run has an intent gone or come back to an earlier
    status in between. -/
def IntentsNeverGoBack (platform : Platform) (w : LedgerWorld ρ) (events : List (LedgerEvent ρ)) : Prop :=
  ∀ before middle after, events = before ++ middle ++ after → ∀ intentId,
    Onward ((run (ledger platform ρ).step w before).table.intents.get? intentId)
      ((run (ledger platform ρ).step w (before ++ middle)).table.intents.get? intentId)

theorem intentsNeverGoBack_of_validated (platform : Platform) {w : LedgerWorld ρ} (quiet : w.Quiet)
    {events : List (LedgerEvent ρ)} (valid : Throughout (ledger platform ρ).step (ledger platform ρ).Validated w events) :
    IntentsNeverGoBack platform w events := by
  rintro before middle after rfl intentId
  have first := (throughout_append.mp valid).1
  exact rowOnward_intent.mp ((ledger_follows platform).related_of_validated quiet first (.writebackIntent intentId))

/-- No update is lost, neither of an intent nor of another entry, in exactly the
    runs whose write-backs are all valid. -/
theorem no_lost_update_iff (platform : Platform) {w : LedgerWorld ρ} (quiet : w.Quiet) (events : List (LedgerEvent ρ)) :
    (IntentsNeverGoBack platform w events ∧ (ledger platform ρ).NoCommitLost w events) ↔
      Throughout (ledger platform ρ).step (ledger platform ρ).Validated w events := by
  constructor
  · rintro ⟨_, kept⟩
    exact (Shared.noCommitLost_iff_validated quiet events).mp kept
  · intro valid
    exact ⟨intentsNeverGoBack_of_validated platform quiet valid, (Shared.noCommitLost_iff_validated quiet events).mpr valid⟩

end

/-! ### An intent that goes back -/

/-- A ledger with the proposal of `closeTicket` and no session. -/
def ticketLedger : LedgerWorld String :=
  ⟨⟨.ofList [("prop_1", closeTicketRow)], .empty, .empty⟩, fun _ => none⟩

theorem ticketLedger_quiet : ticketLedger.Quiet := fun _ => rfl

/-- A session alone that records an approval. -/
def approvalAlone : List (LedgerEvent String) :=
  [.opens .withWrite, .edit .runtimeStore (.appendRecord .approvals "ana"), .writeBack .runtimeStore]

theorem approvalAlone_loses_nothing :
    IntentsNeverGoBack constantPlatform ticketLedger approvalAlone ∧
      (ledger constantPlatform String).NoCommitLost ticketLedger approvalAlone := by
  have under : ∀ e ∈ approvalAlone, (ledger constantPlatform String).UnderLock .runtimeStore e := by
    simp [approvalAlone, Shared.UnderLock, ledger, Opening.lock]
  exact (no_lost_update_iff constantPlatform ticketLedger_quiet approvalAlone).mpr
    (Shared.validated_of_one_lock ticketLedger_quiet under)

/-- `withWrite` and the bridge copy the ledger while the intent of `closeTicket` is
    recorded. -/
def copiedWhileRecorded : List (LedgerEvent String) :=
  [.direct (.claim (closeTicketJob 1) "worker_1"), .opens .withWrite, .opens .bridge]

/-- The apply crosses to the source, and both sessions record an approval. -/
def crossedMeanwhile : List (LedgerEvent String) :=
  [.direct (.markApplying "wbi:wbj_prop_1" "worker_1"), .edit .runtimeStore (.appendRecord .approvals "ana"),
    .edit .sharedLedgerMirror (.appendRecord .approvals "ben")]

def statusAfter (events : List (LedgerEvent String)) : Option IntentStatus :=
  ((run (ledger constantPlatform String).step ticketLedger events).table.intents.get? "wbi:wbj_prop_1").map (·.status)

def firstApprovalAfter (events : List (LedgerEvent String)) : Option String :=
  (run (ledger constantPlatform String).step ticketLedger events).table.records.get? ⟨.approvals, .numbered 1⟩

/-- The applying intent is recorded again by the first write-back, and the approval
    of the first session is overwritten by the second one's of the same number. -/
theorem shared_ledger_loses_updates :
    statusAfter (copiedWhileRecorded ++ crossedMeanwhile) = some .applying ∧
    statusAfter (copiedWhileRecorded ++ crossedMeanwhile ++ [.writeBack .runtimeStore]) = some .intentRecorded ∧
    ¬ IntentsNeverGoBack constantPlatform ticketLedger
      (copiedWhileRecorded ++ crossedMeanwhile ++ [.writeBack .runtimeStore]) ∧
    firstApprovalAfter (copiedWhileRecorded ++ crossedMeanwhile ++ [.writeBack .runtimeStore]) = some "ana" ∧
    firstApprovalAfter (copiedWhileRecorded ++ crossedMeanwhile ++
      [.writeBack .runtimeStore, .writeBack .sharedLedgerMirror]) = some "ben" ∧
    ¬ (ledger constantPlatform String).NoCommitLost ticketLedger
      (copiedWhileRecorded ++ crossedMeanwhile ++ [.writeBack .runtimeStore, .writeBack .sharedLedgerMirror]) := by
  have applying : statusAfter (copiedWhileRecorded ++ crossedMeanwhile) = some .applying := by decide
  have recorded : statusAfter (copiedWhileRecorded ++ crossedMeanwhile ++ [.writeBack .runtimeStore]) =
      some .intentRecorded := by decide
  have ana : firstApprovalAfter (copiedWhileRecorded ++ crossedMeanwhile ++ [.writeBack .runtimeStore]) = some "ana" := by
    decide
  have ben : firstApprovalAfter (copiedWhileRecorded ++ crossedMeanwhile ++
      [.writeBack .runtimeStore, .writeBack .sharedLedgerMirror]) = some "ben" := by decide
  refine ⟨applying, recorded, ?_, ana, ben, ?_⟩
  · intro onward
    obtain ⟨i, found, status⟩ := Option.map_eq_some_iff.mp applying
    obtain ⟨j, later, le⟩ := onward _ [.writeBack .runtimeStore] [] (List.append_nil _).symm "wbi:wbj_prop_1" i found
    have back : j.status = .intentRecorded := by
      have known := recorded
      simp only [statusAfter, later, Option.map_some, Option.some.injEq] at known
      exact known
    rw [status, back] at le
    exact absurd le (by decide)
  · intro kept
    have none' : firstApprovalAfter [.direct (.claim (closeTicketJob 1) "worker_1"), .opens .withWrite] = none := by
      decide
    have opens : (ledger constantPlatform String).Opens
        (run (ledger constantPlatform String).step ticketLedger
          [.direct (.claim (closeTicketJob 1) "worker_1"), .opens .withWrite]) .bridge :=
      ⟨rfl, _, rfl⟩
    have still := kept [.direct (.claim (closeTicketJob 1) "worker_1"), .opens .withWrite] .bridge
      (crossedMeanwhile ++ [.writeBack .runtimeStore]) [] rfl opens
      (by simp [crossedMeanwhile, Event.Closes, Opening.lock, ledger]) (.record ⟨.approvals, .numbered 1⟩)
    have overwritten : (some "ben").map LedgerRow.record = (some "ana").map LedgerRow.record := by
      rw [← ben, ← ana]
      refine still fun same => ?_
      have unchanged : (some "ana").map LedgerRow.record = (none : Option String).map LedgerRow.record := by
        rw [← ana, ← none']
        exact same
      cases unchanged
    simp at overwritten

end SynapsorRunner.SharedLedger
