import SynapsorRunner.HandlerRequests
import SynapsorRunner.KeyedMap
import SynapsorRunner.Runs

/-!
Concurrent requests to an app-owned writeback handler on PostgreSQL at READ COMMITTED. Each
request runs one transaction: it looks for a receipt, locks the row of the target, compares
the version, lets the business function write, records its receipt and commits. Statements
see what is committed when they run, a row that another transaction has locked or written is
waited for, and a row that is not there locks nothing.

`effects` is the history of the committed runs of the business function. They happen at most
once for a key and are answered for what they are (`effects_once_and_told`) in the runs where
no receipt is recorded over an applied one, no key comes back with other content after its
effect, and the acknowledgement of the COMMIT of an effect arrives.
-/
namespace SynapsorRunner.HandlerTransactions
open SynapsorRunner.Doubles SynapsorRunner.NumberText SynapsorRunner.JsonText SynapsorRunner.Proposals
open SynapsorRunner.ExploreBoundaries (entry)
open SynapsorRunner.HandlerRequests SynapsorRunner.Runs

/-! ### Rows -/

/-- A value of a row as the driver gives it. Of an object of another kind only its
    `String(value)` counts, which may throw. -/
inductive ColumnValue where
  | null
  | bool (value : Bool)
  | number (value : Number)
  | text (value : Text)
  | date (instant : Int)
  | other (text : Option Text)

structure TableRow where
  schema : Text
  table : Text
  columns : List (Text × ColumnValue)

/-- What the handler takes from PostgreSQL: the comparison of a column with a parameter. -/
structure Source extends Platform where
  equal : ColumnValue → Json → Bool

def rowColumn (row : TableRow) (column : Text) : Option ColumnValue := entry row.columns column

/-- The WHERE clause of `lockTarget`. -/
def isTarget (p : Source) (job : HandlerJob) (row : TableRow) : Bool :=
  decide (row.schema = job.target.schema) && decide (row.table = job.target.table) &&
    (rowColumn row job.target.primaryKey.column).any (fun value => p.equal value job.target.primaryKey.value) &&
    (rowColumn row job.tenantGuard.column).any (fun value => p.equal value job.tenantGuard.value)

/-- `String(value)` of a column, which is `undefined` where the row has none of the name. -/
def columnString : Option ColumnValue → Option Text
  | none => some (ascii "undefined")
  | some .null => some (ascii "null")
  | some (.bool value) => some (if value then ascii "true" else ascii "false")
  | some (.number value) => some (numberString value)
  | some (.text value) => some value
  | some (.date _) => none
  | some (.other t) => t

def actualText (p : Source) : Option ColumnValue → Option Text
  | some (.date instant) => some (p.isoText instant)
  | value => columnString value

/-- `versionValuesMatch`, which throws where a value has no text. -/
def versionValuesMatch (p : Source) (actual : Option ColumnValue) (expected : Json) : Option Bool := do
  let actual ← actualText p actual
  let expected ← stringOf expected
  match p.instant actual, p.instant expected with
  | some a, some b => pure (decide (a = b))
  | _, _ => pure (decide (actual = expected))

def scalarOrNull (p : Source) : Option ColumnValue → Json
  | none => .null
  | some .null => .null
  | some (.bool value) => .bool value
  | some (.number value) => .number value
  | some (.text value) => .string value
  | some (.date instant) => .string (p.isoText instant)
  -- the comparison of the versions has read the text before
  | some (.other t) => .string (t.getD [])

/-! ### States -/

/-- A row of the table of receipts under its key. -/
structure StoredReceipt where
  proposalId : Text
  action : Text
  status : HandlerReceiptStatus
  receiptJson : Json

section
variable {R K : Type} [DecidableEq R] [DecidableEq K]

/-- Writes of a business function: a row, or its removal. -/
abbrev Writes (K : Type) := List (K × Option TableRow)

/-- Where a request stands. A duplicate is `closing`: its COMMIT publishes nothing. -/
inductive Phase (K : Type) where
  | idle
  | ensuring (job : HandlerJob)
  | looking (job : HandlerJob)
  | locking (job : HandlerJob)
  | awaiting (job : HandlerJob) (candidates : List K)
  | working (job : HandlerJob) (row : TableRow)
  | recording (job : HandlerJob) (receipt : HandlerReceipt) (effect : Option (Writes K))
  | committing (job : HandlerJob) (receipt : HandlerReceipt) (effect : Option (Writes K))
  | closing (job : HandlerJob) (receipt : HandlerReceipt)
  | answered (job : Option HandlerJob) (response : Response)
  | gone

/-- A committed run of the business function. -/
structure Effect (R : Type) where
  request : R
  job : HandlerJob

structure State (R K : Type) where
  /-- The table of receipts is there. -/
  receiptTable : Bool
  /-- The transaction that creates it. -/
  creator : Option R
  receipts : KeyedMap Text StoredReceipt
  rows : KeyedMap K TableRow
  keyLock : Text → Option R
  rowLock : K → Option R
  phase : R → Phase K
  effects : List (Effect R)

def State.initial (rows : KeyedMap K TableRow) : State R K where
  receiptTable := false
  creator := none
  receipts := KeyedMap.empty
  rows := rows
  keyLock := fun _ => none
  rowLock := fun _ => none
  phase := fun _ => .idle
  effects := []

inductive Event (R K : Type) where
  /-- A request arrives. -/
  | start (r : R) (request : HttpRequest) (now : Int)
  /-- The next statement of its transaction runs, unless it waits. -/
  | act (r : R)
  /-- The business function writes and returns. -/
  | business (r : R) (effects : HandlerEffects) (writes : Writes K)
  /-- A statement, the business function or COMMIT fails, and nothing is committed. -/
  | fail (r : R) (businessError : Bool)
  /-- COMMIT takes effect, and the error of its connection is what the request sees. -/
  | commitLost (r : R)
  /-- The process of the request ends. -/
  | crash (r : R)

namespace State

/-- Someone else holds a lock. -/
def heldByOther (r : R) (holder : Option R) : Bool := holder.any fun other => decide (other ≠ r)

def enter (s : State R K) (r : R) (phase : Phase K) : State R K :=
  { s with phase := fun other => if other = r then phase else s.phase other }

def lockKey (s : State R K) (r : R) (key : Text) : State R K :=
  { s with keyLock := fun other => if other = key then some r else s.keyLock other }

def lockRows (s : State R K) (r : R) (ids : List K) : State R K :=
  { s with rowLock := fun id => if id ∈ ids then some r else s.rowLock id }

/-- The end of a transaction: its locks are released. -/
def release (s : State R K) (r : R) : State R K :=
  { s with
    creator := if s.creator = some r then none else s.creator
    keyLock := fun key => if s.keyLock key = some r then none else s.keyLock key
    rowLock := fun id => if s.rowLock id = some r then none else s.rowLock id }

/-- The upsert of `recordReceipt`, which leaves the proposal and the action of a row that is there. -/
def upsertReceipt (receipts : KeyedMap Text StoredReceipt) (job : HandlerJob) (receipt : HandlerReceipt) :
    KeyedMap Text StoredReceipt :=
  match receipts.get? job.idempotencyKey with
  | some row =>
    receipts.set job.idempotencyKey { row with status := receipt.status, receiptJson := receiptJson receipt }
  | none =>
    receipts.set job.idempotencyKey ⟨job.proposalId, job.action, receipt.status, receiptJson receipt⟩

def writeRows (rows : KeyedMap K TableRow) : Writes K → KeyedMap K TableRow
  | [] => rows
  | (id, some row) :: rest => writeRows (rows.set id row) rest
  | (id, none) :: rest => writeRows (rows.filterKeys fun other => decide (other ≠ id)) rest

/-- What the COMMIT of a receipt and an effect publishes. -/
def publish (s : State R K) (r : R) (job : HandlerJob) (receipt : HandlerReceipt) (effect : Option (Writes K)) :
    State R K :=
  { s with
    receiptTable := true
    receipts := upsertReceipt s.receipts job receipt
    rows := writeRows s.rows (effect.getD [])
    effects := s.effects ++ (effect.map fun _ => ⟨r, job⟩).toList }

/-- The answer after the end of the transaction. -/
def answer (s : State R K) (r : R) (job : Option HandlerJob) (response : Response) : State R K :=
  (s.release r).enter r (.answered job response)

/-- `ROLLBACK`, and the answer to an error. -/
def rollback (s : State R K) (r : R) (job : HandlerJob) (code : String) : State R K :=
  s.answer r (some job) ⟨500, failedReceipt code⟩

/-- The answer to what a transaction returns, which is no failed receipt. -/
def complete (s : State R K) (r : R) (job : HandlerJob) (receipt : HandlerReceipt) : State R K :=
  s.answer r (some job) ⟨if receipt.status = .failed then 500 else 200, receipt⟩

def ensureReceiptTable (s : State R K) (r : R) (job : HandlerJob) : State R K :=
  if s.receiptTable then s.enter r (.looking job)
  else if s.creator.isNone then { s with creator := some r }.enter r (.looking job)
  else s

/-- `findReceipt`, and what its result decides. -/
def findReceipt (s : State R K) (r : R) (job : HandlerJob) : State R K :=
  match s.receipts.get? job.idempotencyKey with
  | none => s.enter r (.locking job)
  | some row =>
    if heldByOther r (s.keyLock job.idempotencyKey) then s
    else
      let locked := s.lockKey r job.idempotencyKey
      match coerceReceipt row.receiptJson with
      | none => locked.enter r (.locking job)
      | some duplicate =>
        if duplicate.status = .applied ∨ duplicate.status = .alreadyApplied then
          locked.enter r (.closing job (duplicateReceipt duplicate))
        else locked.enter r (.locking job)

/-- `lockTarget` begins: the rows that it sees. -/
def selectTarget (p : Source) (s : State R K) (r : R) (job : HandlerJob) : State R K :=
  s.enter r (.awaiting job ((s.rows.entries.filter fun e => isTarget p job e.2).map Prod.fst))

/-- A row, or what there is of it, against the expected version. -/
def compareVersion (p : Source) (s : State R K) (r : R) (job : HandlerJob) : Option TableRow → State R K
  | none => s.enter r (.recording job (conflictReceipt "ROW_NOT_FOUND_OR_WRONG_TENANT" none) none)
  | some row =>
    let current := rowColumn row job.expectedVersion.column
    match versionValuesMatch p current job.expectedVersion.value with
    | none => s.rollback r job "HANDLER_EXCEPTION"
    | some true => s.enter r (.working job row)
    | some false =>
      s.enter r (.recording job (conflictReceipt "ROW_CHANGED_AFTER_PROPOSAL" (some (scalarOrNull p current))) none)

/-- `lockTarget` gets its locks: the rows are read again, and those that still match are locked. -/
def lockTarget (p : Source) (s : State R K) (r : R) (job : HandlerJob) (candidates : List K) : State R K :=
  if candidates.any fun id => heldByOther r (s.rowLock id) then s
  else
    let found := candidates.filterMap fun id => (s.rows.get? id).bind fun row =>
      if isTarget p job row then some (id, row) else none
    compareVersion p (s.lockRows r (found.map Prod.fst)) r job (found.head?.map Prod.snd)

/-- The receipt of what the business function did in the row. -/
def worked (p : Source) (s : State R K) (r : R) (job : HandlerJob) (row : TableRow) (effects : HandlerEffects)
    (writes : Writes K) : State R K :=
  if writes.any fun write => heldByOther r (s.rowLock write.1) then s
  else
    let receipt := appliedReceipt (scalarOrNull p (rowColumn row job.expectedVersion.column)) effects
    (s.lockRows r (writes.map Prod.fst)).enter r (.recording job receipt (some writes))

/-- `recordReceipt` -/
def recordReceipt (s : State R K) (r : R) (job : HandlerJob) (receipt : HandlerReceipt) (effect : Option (Writes K)) :
    State R K :=
  if heldByOther r (s.keyLock job.idempotencyKey) then s
  else (s.lockKey r job.idempotencyKey).enter r (.committing job receipt effect)

def act (p : Source) (s : State R K) (r : R) : State R K :=
  match s.phase r with
  | .ensuring job => s.ensureReceiptTable r job
  | .looking job => s.findReceipt r job
  | .locking job => s.selectTarget p r job
  | .awaiting job candidates => s.lockTarget p r job candidates
  | .recording job receipt effect => s.recordReceipt r job receipt effect
  | .committing job receipt effect => (s.publish r job receipt effect).complete r job receipt
  | .closing job receipt => s.complete r job receipt
  | _ => s

def fail (s : State R K) (r : R) (businessError : Bool) : State R K :=
  match s.phase r with
  | .working job _ => s.rollback r job (if businessError then "HANDLER_BUSINESS_ERROR" else "HANDLER_EXCEPTION")
  | .ensuring job | .looking job | .locking job | .awaiting job _ | .recording job _ _ | .committing job _ _
  | .closing job _ => s.rollback r job "HANDLER_EXCEPTION"
  | _ => s

def commitLost (s : State R K) (r : R) : State R K :=
  match s.phase r with
  | .committing job receipt effect => (s.publish r job receipt effect).rollback r job "HANDLER_EXCEPTION"
  | .closing job _ => s.rollback r job "HANDLER_EXCEPTION"
  | _ => s

end State

open State in
def step (p : Source) (options : HandlerOptions) (s : State R K) : Event R K → State R K
  | .start r request now =>
    match s.phase r with
    | .idle => match acceptRequest p.toPlatform options request now with
      | .ok job => s.enter r (.ensuring job)
      | .error response => s.enter r (.answered none response)
    | _ => s
  | .act r => s.act p r
  | .business r effects writes =>
    match s.phase r with
    | .working job row => s.worked p r job row effects writes
    | _ => s
  | .fail r businessError => s.fail r businessError
  | .commitLost r => s.commitLost r
  | .crash r => (s.release r).enter r .gone

/-! ### What is asked of a run -/

/-- Requests for one and the same effect. -/
def SameEffect (a b : HandlerJob) : Prop :=
  a.proposalId = b.proposalId ∧ a.action = b.action ∧ a.target = b.target ∧ a.tenantGuard = b.tenantGuard ∧
    a.patch = b.patch

/-- A request has committed no effect. -/
def Without (s : State R K) (r : R) : Prop := ∀ e ∈ s.effects, e.request ≠ r

/-- An effect with the content of a job is committed. -/
def Done (s : State R K) (job : HandlerJob) : Prop := ∃ e ∈ s.effects, SameEffect e.job job

/-- An answer tells what is committed. -/
structure Told (s : State R K) (r : R) (job : Option HandlerJob) (receipt : HandlerReceipt) : Prop where
  reported : receipt.status = .applied ∨ receipt.status = .alreadyApplied → ∃ j, job = some j ∧ Done s j
  denied : receipt.status = .failed ∨ receipt.status = .conflict → receipt.sourceDatabaseMutated = false → Without s r

/-- Effects happen at most once for a key, every answer tells what is committed, and the
    receipt of a committed effect stays. -/
structure OnceAndTold (s : State R K) : Prop where
  once : (s.effects.map fun e => e.job.idempotencyKey).Nodup
  told : ∀ r job response, s.phase r = .answered job response → Told s r job response.receipt
  kept : ∀ e ∈ s.effects, ∃ row, s.receipts.get? e.job.idempotencyKey = some row ∧ row.status = .applied

/-- No lookup finds the effect of other content under its key, no receipt is recorded over an
    applied one, and no acknowledgement of an effect is lost. -/
def Safe (s : State R K) : Event R K → Prop
  | .act r => match s.phase r with
    | .looking job => ∀ e ∈ s.effects, e.job.idempotencyKey = job.idempotencyKey → SameEffect e.job job
    | .recording job _ _ => ∀ row, s.receipts.get? job.idempotencyKey = some row → row.status ≠ .applied
    | _ => True
  | .commitLost r => match s.phase r with
    | .committing _ _ effect => effect = none
    | _ => True
  | _ => True

/-! ### The invariant -/

/-- A receipt that a transaction records goes with its effect. -/
def Fits (receipt : HandlerReceipt) (effect : Option (Writes K)) : Prop :=
  (receipt.status = .applied ∧ effect.isSome) ∨ (receipt.status = .conflict ∧ effect = none)

/-- What holds of a request where it stands. From its record to its COMMIT it holds the lock
    of its key. -/
def Stands (s : State R K) (r : R) : Phase K → Prop
  | .recording _ receipt effect => Without s r ∧ Fits receipt effect
  | .committing job receipt effect => Without s r ∧ Fits receipt effect ∧ s.keyLock job.idempotencyKey = some r ∧
      ∀ row, s.receipts.get? job.idempotencyKey = some row → row.status ≠ .applied
  | .closing job receipt => Without s r ∧ receipt.status = .alreadyApplied ∧ Done s job
  | .answered job response => Told s r job response.receipt
  | .gone => True
  | _ => Without s r

/-- A row of the table of receipts is read with its status, and an applied one has its effect. -/
structure Backed (s : State R K) (key : Text) (row : StoredReceipt) : Prop where
  read : ∀ receipt, coerceReceipt row.receiptJson = some receipt → receipt.status = row.status
  recorded : row.status = .applied ∨ row.status = .conflict
  effect : row.status = .applied → ∃ e ∈ s.effects, e.job.idempotencyKey = key

structure Inv (s : State R K) : Prop where
  once : (s.effects.map fun e => e.job.idempotencyKey).Nodup
  kept : ∀ e ∈ s.effects, ∃ row, s.receipts.get? e.job.idempotencyKey = some row ∧ row.status = .applied
  backed : ∀ key row, s.receipts.get? key = some row → Backed s key row
  stands : ∀ r, Stands s r (s.phase r)

theorem Inv.told {s : State R K} (inv : Inv s) : OnceAndTold s where
  once := inv.once
  told := fun r job response at' => by
    have stands := inv.stands r
    rw [at'] at stands
    exact stands
  kept := inv.kept

theorem Inv.initial (rows : KeyedMap K TableRow) : Inv (State.initial rows : State R K) where
  once := List.nodup_nil
  kept := fun e member => absurd member List.not_mem_nil
  backed := fun key row found => by simp [State.initial] at found
  stands := fun r => fun e member => absurd member List.not_mem_nil

/-- A request that has not recorded its receipt has committed nothing. -/
theorem Stands.without {s : State R K} {r : R} {phase : Phase K} (stands : Stands s r phase)
    (open' : ∀ job response, phase ≠ .answered job response) (here : phase ≠ .gone) : Without s r := by
  cases phase with
  | recording | committing | closing => exact stands.1
  | answered job response => exact absurd rfl (open' job response)
  | gone => exact absurd rfl here
  | _ => exact stands

/-! ### Steps that commit nothing -/

/-- What a step of one request that commits nothing leaves: the tables, and the locks and the
    phases of the others. -/
structure Quiet (r : R) (s s' : State R K) : Prop where
  effects : s'.effects = s.effects
  receipts : s'.receipts = s.receipts
  locks : ∀ key other, other ≠ r → s.keyLock key = some other → s'.keyLock key = some other
  phases : ∀ other, other ≠ r → s'.phase other = s.phase other

theorem Quiet.refl (r : R) (s : State R K) : Quiet r s s := ⟨rfl, rfl, fun _ _ _ held => held, fun _ _ => rfl⟩

theorem Quiet.trans {r : R} {a b c : State R K} (first : Quiet r a b) (second : Quiet r b c) : Quiet r a c where
  effects := second.effects.trans first.effects
  receipts := second.receipts.trans first.receipts
  locks := fun key other apart held => second.locks key other apart (first.locks key other apart held)
  phases := fun other apart => (second.phases other apart).trans (first.phases other apart)

theorem quiet_enter (s : State R K) (r : R) (phase : Phase K) : Quiet r s (s.enter r phase) :=
  ⟨rfl, rfl, fun _ _ _ held => held, fun _ apart => by simp [State.enter, apart]⟩

theorem quiet_release (s : State R K) (r : R) : Quiet r s (s.release r) := by
  refine ⟨rfl, rfl, fun key other apart held => ?_, fun _ _ => rfl⟩
  have another : s.keyLock key ≠ some r := by
    rw [held]
    simpa using apart
  simp only [State.release, if_neg another]
  exact held

theorem quiet_lockRows (s : State R K) (r : R) (ids : List K) : Quiet r s (s.lockRows r ids) :=
  ⟨rfl, rfl, fun _ _ _ held => held, fun _ _ => rfl⟩

theorem quiet_lockKey {s : State R K} {r : R} {key : Text} (free : ¬ State.heldByOther r (s.keyLock key)) :
    Quiet r s (s.lockKey r key) := by
  refine ⟨rfl, rfl, fun other holder apart held => ?_, fun _ _ => rfl⟩
  by_cases same : other = key
  · subst same
    rw [held] at free
    simp [State.heldByOther, apart] at free
  · simp only [State.lockKey, if_neg same]
    exact held

theorem quiet_answer (s : State R K) (r : R) (job : Option HandlerJob) (response : Response) :
    Quiet r s (s.answer r job response) := (quiet_release s r).trans (quiet_enter _ r _)

@[simp] theorem enter_phase (s : State R K) (r : R) (phase : Phase K) : (s.enter r phase).phase r = phase := by
  simp [State.enter]

theorem Without.of_quiet {r other : R} {s s' : State R K} (quiet : Quiet r s s') (none' : Without s other) :
    Without s' other := by
  rw [Without, quiet.effects]
  exact none'

theorem Done.of_quiet {r : R} {s s' : State R K} {job : HandlerJob} (quiet : Quiet r s s') (done : Done s job) :
    Done s' job := by
  rw [Done, quiet.effects]
  exact done

theorem Told.of_quiet {r other : R} {s s' : State R K} {job : Option HandlerJob} {receipt : HandlerReceipt}
    (quiet : Quiet r s s') (told : Told s other job receipt) : Told s' other job receipt where
  reported := fun status => by
    obtain ⟨j, is, done⟩ := told.reported status
    exact ⟨j, is, done.of_quiet quiet⟩
  denied := fun status mutated => (told.denied status mutated).of_quiet quiet

/-- The others stand as they did. -/
theorem Stands.of_quiet {r other : R} {s s' : State R K} {phase : Phase K} (quiet : Quiet r s s') (apart : other ≠ r)
    (stands : Stands s other phase) : Stands s' other phase := by
  cases phase with
  | recording => exact ⟨stands.1.of_quiet quiet, stands.2⟩
  | committing =>
    obtain ⟨none', fits, held, fresh⟩ := stands
    refine ⟨none'.of_quiet quiet, fits, quiet.locks _ _ apart held, ?_⟩
    rw [quiet.receipts]
    exact fresh
  | closing => exact ⟨stands.1.of_quiet quiet, stands.2.1, stands.2.2.of_quiet quiet⟩
  | answered => exact Told.of_quiet quiet stands
  | gone => trivial
  | _ => exact Without.of_quiet quiet stands

theorem Inv.of_quiet {r : R} {s s' : State R K} (inv : Inv s) (quiet : Quiet r s s')
    (mine : Stands s' r (s'.phase r)) :
    Inv s' where
  once := by
    rw [quiet.effects]
    exact inv.once
  kept := by
    rw [quiet.effects, quiet.receipts]
    exact inv.kept
  backed := by
    rw [quiet.receipts]
    intro key row found
    obtain ⟨read, recorded, effect⟩ := inv.backed key row found
    exact ⟨read, recorded, by rw [quiet.effects]; exact effect⟩
  stands := fun other => by
    by_cases same : other = r
    · subst same
      exact mine
    · rw [quiet.phases other same]
      exact (inv.stands other).of_quiet quiet same

/-- A request enters a phase in which it has nothing but to have committed nothing. -/
theorem Inv.enter {r : R} {s s' : State R K} {phase : Phase K} (inv : Inv s) (quiet : Quiet r s s')
    (mine : Stands (s'.enter r phase) r phase) : Inv (s'.enter r phase) :=
  inv.of_quiet (quiet.trans (quiet_enter s' r phase)) (by rw [enter_phase]; exact mine)

/-- A request that has committed nothing is answered as failed or with a conflict. -/
theorem Inv.refused {r : R} {s : State R K} (inv : Inv s) (without : Without s r) (job : Option HandlerJob)
    {response : Response} (status : response.receipt.status = .failed ∨ response.receipt.status = .conflict) :
    Inv (s.answer r job response) := by
  refine inv.enter (quiet_release s r) ⟨fun reported => ?_, fun _ _ => without⟩
  rcases status with is | is <;> rw [is] at reported <;> rcases reported with other | other <;> cases other

theorem Inv.rollback {r : R} {s : State R K} (inv : Inv s) (without : Without s r) (job : HandlerJob)
    (code : String) :
    Inv (s.rollback r job code) := inv.refused without (some job) (.inl rfl)

theorem Inv.ensureReceiptTable {r : R} {s : State R K} (inv : Inv s) (without : Without s r) (job : HandlerJob) :
    Inv (s.ensureReceiptTable r job) := by
  unfold State.ensureReceiptTable
  split_ifs
  · exact inv.enter (Quiet.refl r s) without
  · have created : Quiet r s { s with creator := some r } := ⟨rfl, rfl, fun _ _ _ held => held, fun _ _ => rfl⟩
    exact inv.enter created without
  · exact inv

/-- A lookup finds nothing, or a receipt that it locks; of an effect it finds what was done. -/
theorem Inv.findReceipt {r : R} {s : State R K} (inv : Inv s) (without : Without s r) {job : HandlerJob}
    (same : ∀ e ∈ s.effects, e.job.idempotencyKey = job.idempotencyKey → SameEffect e.job job) :
    Inv (s.findReceipt r job) := by
  unfold State.findReceipt
  cases found : s.receipts.get? job.idempotencyKey with
  | none => exact inv.enter (Quiet.refl r s) without
  | some row =>
    simp only
    by_cases other : State.heldByOther r (s.keyLock job.idempotencyKey)
    · rw [if_pos other]
      exact inv
    · rw [if_neg other]
      have locked := quiet_lockKey other
      cases coerced : coerceReceipt row.receiptJson with
      | none => exact inv.enter locked without
      | some duplicate =>
        simp only
        by_cases applied : duplicate.status = .applied ∨ duplicate.status = .alreadyApplied
        · rw [if_pos applied]
          obtain ⟨read, recorded, effect⟩ := inv.backed _ row found
          have status : row.status = .applied := by
            rw [read duplicate coerced] at applied
            rcases recorded with is | is
            · exact is
            · rw [is] at applied
              rcases applied with no | no <;> cases no
          obtain ⟨e, member, key⟩ := effect status
          exact inv.enter locked ⟨without, rfl, e, member, same e member key⟩
        · rw [if_neg applied]
          exact inv.enter locked without

theorem Inv.compareVersion (p : Source) {r : R} {s : State R K} (inv : Inv s) (without : Without s r)
    (job : HandlerJob)
    (row : Option TableRow) : Inv (s.compareVersion p r job row) := by
  cases row with
  | none => exact inv.enter (Quiet.refl r s) ⟨without, .inr ⟨rfl, rfl⟩⟩
  | some row =>
    simp only [State.compareVersion]
    cases versionValuesMatch p (rowColumn row job.expectedVersion.column) job.expectedVersion.value with
    | none => exact inv.rollback without job _
    | some agree =>
      cases agree with
      | true => exact inv.enter (Quiet.refl r s) without
      | false => exact inv.enter (Quiet.refl r s) ⟨without, .inr ⟨rfl, rfl⟩⟩

theorem Inv.lockTarget (p : Source) {r : R} {s : State R K} (inv : Inv s) (phase : Without s r) (job : HandlerJob)
    (candidates : List K) (awaiting : s.phase r = .awaiting job candidates) : Inv (s.lockTarget p r job candidates) := by
  unfold State.lockTarget
  split_ifs
  · exact inv
  · refine Inv.compareVersion p (inv.of_quiet (quiet_lockRows s r _) ?_) phase job _
    show Stands _ r (s.phase r)
    rw [awaiting]
    exact phase

theorem Inv.worked (p : Source) {r : R} {s : State R K} (inv : Inv s) (without : Without s r) (job : HandlerJob)
    (row : TableRow) (effects : HandlerEffects) (writes : Writes K) : Inv (s.worked p r job row effects writes) := by
  unfold State.worked
  split_ifs
  · exact inv
  · exact inv.enter (quiet_lockRows s r _) ⟨without, .inl ⟨rfl, rfl⟩⟩

/-- A receipt is recorded under the lock of its key, over none that is applied. -/
theorem Inv.recordReceipt {r : R} {s : State R K} (inv : Inv s) {job : HandlerJob} {receipt : HandlerReceipt}
    {effect : Option (Writes K)} (without : Without s r) (fits : Fits receipt effect)
    (fresh : ∀ row, s.receipts.get? job.idempotencyKey = some row → row.status ≠ .applied) :
    Inv (s.recordReceipt r job receipt effect) := by
  unfold State.recordReceipt
  by_cases other : State.heldByOther r (s.keyLock job.idempotencyKey)
  · rw [if_pos other]
    exact inv
  · rw [if_neg other]
    refine inv.enter (quiet_lockKey other) ⟨without, fits, ?_, fresh⟩
    simp [State.enter, State.lockKey]

/-! ### Commits -/

theorem get?_upsertReceipt (receipts : KeyedMap Text StoredReceipt) (job : HandlerJob) (receipt : HandlerReceipt) :
    ∃ row, (State.upsertReceipt receipts job receipt).get? job.idempotencyKey = some row ∧
      row.status = receipt.status ∧ row.receiptJson = receiptJson receipt := by
  unfold State.upsertReceipt
  cases receipts.get? job.idempotencyKey with
  | none => exact ⟨_, KeyedMap.get?_set_self .., rfl, rfl⟩
  | some old => exact ⟨_, KeyedMap.get?_set_self .., rfl, rfl⟩

theorem get?_upsertReceipt_of_ne (receipts : KeyedMap Text StoredReceipt) {job : HandlerJob}
    (receipt : HandlerReceipt)
    {key : Text} (apart : key ≠ job.idempotencyKey) :
    (State.upsertReceipt receipts job receipt).get? key = receipts.get? key := by
  unfold State.upsertReceipt
  cases receipts.get? job.idempotencyKey with
  | none => exact KeyedMap.get?_set_of_ne _ _ apart
  | some old => exact KeyedMap.get?_set_of_ne _ _ apart

section Publish
variable {s : State R K} {r : R} {job : HandlerJob} {receipt : HandlerReceipt} {effect : Option (Writes K)}

theorem mem_publish_effects {e : Effect R} :
    e ∈ (s.publish r job receipt effect).effects ↔ e ∈ s.effects ∨ (effect.isSome ∧ e = ⟨r, job⟩) := by
  cases effect <;> simp [State.publish]

theorem Without.publish {other : R} (without : Without s other) (apart : other ≠ r) :
    Without (s.publish r job receipt effect) other := by
  intro e member
  rcases mem_publish_effects.mp member with old | ⟨-, rfl⟩
  · exact without e old
  · exact fun same => apart same.symm

theorem Done.publish {j : HandlerJob} (done : Done s j) : Done (s.publish r job receipt effect) j := by
  obtain ⟨e, member, same⟩ := done
  exact ⟨e, mem_publish_effects.mpr (.inl member), same⟩

/-- The COMMIT of another leaves a request where it stands: one that holds the lock of its
    key is not overtaken. -/
theorem Stands.publish {other : R} {phase : Phase K} (mine : s.keyLock job.idempotencyKey = some r)
    (apart : other ≠ r)
    (stands : Stands s other phase) : Stands (s.publish r job receipt effect) other phase := by
  cases phase with
  | recording => exact ⟨stands.1.publish apart, stands.2⟩
  | committing j =>
    obtain ⟨without, fits, held, fresh⟩ := stands
    refine ⟨without.publish apart, fits, held, ?_⟩
    have keys : j.idempotencyKey ≠ job.idempotencyKey := by
      intro same
      rw [same, mine, Option.some.injEq] at held
      exact apart held.symm
    intro row found
    refine fresh row ?_
    rw [← found]
    exact (get?_upsertReceipt_of_ne s.receipts receipt keys).symm
  | closing => exact ⟨stands.1.publish apart, stands.2.1, stands.2.2.publish⟩
  | answered j response =>
    refine ⟨fun reported => ?_, fun status mutated => (stands.denied status mutated).publish apart⟩
    obtain ⟨j', is, done⟩ := stands.reported reported
    exact ⟨j', is, done.publish⟩
  | gone => trivial
  | _ => exact Without.publish stands apart

/-- The effects of a commit: the ones before, and its own under a key that had none. -/
theorem Inv.publish_once (inv : Inv s)
    (fresh : ∀ row, s.receipts.get? job.idempotencyKey = some row → row.status ≠ .applied) :
    ((s.publish r job receipt effect).effects.map fun e => e.job.idempotencyKey).Nodup := by
  have free : job.idempotencyKey ∉ s.effects.map fun e => e.job.idempotencyKey := by
    intro member
    obtain ⟨e, at', key⟩ := List.mem_map.mp member
    obtain ⟨row, found, applied⟩ := inv.kept e at'
    rw [key] at found
    exact fresh row found applied
  cases effect with
  | none => simpa [State.publish] using inv.once
  | some writes =>
    simp only [State.publish, Option.map_some, Option.toList_some, List.map_append, List.map_cons, List.map_nil]
    refine List.nodup_append.mpr ⟨inv.once, List.nodup_singleton _, ?_⟩
    intro a before b last same
    rw [List.mem_singleton.mp last] at same
    exact free (same ▸ before)

theorem Inv.publish_kept (inv : Inv s) (fits : Fits receipt effect)
    (fresh : ∀ row, s.receipts.get? job.idempotencyKey = some row → row.status ≠ .applied) :
    ∀ e ∈ (s.publish r job receipt effect).effects, ∃ row,
      (s.publish r job receipt effect).receipts.get? e.job.idempotencyKey = some row ∧ row.status = .applied := by
  intro e member
  rcases mem_publish_effects.mp member with old | ⟨some', rfl⟩
  · obtain ⟨row, found, applied⟩ := inv.kept e old
    have keys : e.job.idempotencyKey ≠ job.idempotencyKey := by
      intro same
      rw [same] at found
      exact fresh row found applied
    exact ⟨row, (get?_upsertReceipt_of_ne s.receipts receipt keys).trans found, applied⟩
  · obtain ⟨row, found, status, -⟩ := get?_upsertReceipt s.receipts job receipt
    rcases fits with ⟨applied, -⟩ | ⟨-, no⟩
    · exact ⟨row, found, status.trans applied⟩
    · rw [no] at some'
      cases some'

theorem Inv.publish_backed (inv : Inv s) (fits : Fits receipt effect) (key : Text) (row : StoredReceipt)
    (found : (s.publish r job receipt effect).receipts.get? key = some row) :
    Backed (s.publish r job receipt effect) key row := by
  by_cases same : key = job.idempotencyKey
  · obtain ⟨written, at', status, json⟩ := get?_upsertReceipt s.receipts job receipt
    have is : row = written := Option.some.inj (found.symm.trans (same ▸ at'))
    rw [is]
    refine ⟨fun read coerced => ?_, ?_, fun applied => ?_⟩
    · rw [json] at coerced
      rw [status]
      exact coerceReceipt_status coerced
    · rw [status]
      exact fits.imp And.left And.left
    · rcases fits with ⟨-, some'⟩ | ⟨conflict, -⟩
      · exact ⟨⟨r, job⟩, mem_publish_effects.mpr (.inr ⟨some', rfl⟩), same.symm⟩
      · rw [status, conflict] at applied
        cases applied
  · have before : s.receipts.get? key = some row := (get?_upsertReceipt_of_ne s.receipts receipt same).symm.trans found
    obtain ⟨read, recorded, effect'⟩ := inv.backed key row before
    refine ⟨read, recorded, fun applied => ?_⟩
    obtain ⟨e, member, is⟩ := effect' applied
    exact ⟨e, mem_publish_effects.mpr (.inl member), is⟩

/-- A COMMIT and the answer after it keep the invariant. -/
theorem Inv.commit (inv : Inv s) (fits : Fits receipt effect) (mine : s.keyLock job.idempotencyKey = some r)
    (fresh : ∀ row, s.receipts.get? job.idempotencyKey = some row → row.status ≠ .applied) {response : Response}
    (told : Told (s.publish r job receipt effect) r (some job) response.receipt) :
    Inv ((s.publish r job receipt effect).answer r (some job) response) := by
  have quiet := quiet_answer (s.publish r job receipt effect) r (some job) response
  refine ⟨?_, ?_, ?_, fun other => ?_⟩
  · rw [quiet.effects]
    exact inv.publish_once fresh
  · rw [quiet.effects, quiet.receipts]
    exact inv.publish_kept fits fresh
  · rw [quiet.receipts]
    intro key row found
    obtain ⟨read, recorded, backing⟩ := inv.publish_backed fits key row found
    exact ⟨read, recorded, by rw [quiet.effects]; exact backing⟩
  · by_cases same : other = r
    · subst same
      simp only [State.answer, enter_phase]
      exact Told.of_quiet quiet told
    · rw [quiet.phases other same]
      exact Stands.of_quiet quiet same ((inv.stands other).publish mine same)

/-- The answer to a committed receipt tells what the commit published. -/
theorem told_of_fits (without : Without s r) (fits : Fits receipt effect) :
    Told (s.publish r job receipt effect) r (some job) receipt := by
  rcases fits with ⟨applied, some'⟩ | ⟨conflict, none'⟩
  · refine ⟨fun _ => ⟨job, rfl, ⟨r, job⟩, mem_publish_effects.mpr (.inr ⟨some', rfl⟩), rfl, rfl, rfl, rfl, rfl⟩, ?_⟩
    intro status
    rw [applied] at status
    rcases status with no | no <;> cases no
  · refine ⟨fun status => ?_, fun _ _ e member => ?_⟩
    · rw [conflict] at status
      rcases status with no | no <;> cases no
    · rcases mem_publish_effects.mp member with old | ⟨some', -⟩
      · exact without e old
      · rw [none'] at some'
        cases some'

end Publish

/-! ### Runs -/

theorem Inv.act (p : Source) (options : HandlerOptions) {r : R} {s : State R K} (inv : Inv s)
    (safe : Safe s (.act r)) : Inv (step p options s (.act r)) := by
  have mine := inv.stands r
  simp only [Safe] at safe
  simp only [step, State.act]
  cases phase : s.phase r with
  | ensuring job =>
    rw [phase] at mine
    exact inv.ensureReceiptTable mine job
  | looking job =>
    rw [phase] at mine safe
    exact inv.findReceipt mine safe
  | locking job =>
    rw [phase] at mine
    exact inv.enter (Quiet.refl r s) mine
  | awaiting job candidates =>
    rw [phase] at mine
    exact inv.lockTarget p mine job candidates phase
  | recording job receipt effect =>
    rw [phase] at mine safe
    exact inv.recordReceipt mine.1 mine.2 safe
  | committing job receipt effect =>
    rw [phase] at mine
    obtain ⟨without, fits, held, fresh⟩ := mine
    exact inv.commit fits held fresh (told_of_fits without fits)
  | closing job receipt =>
    rw [phase] at mine
    obtain ⟨without, already, done⟩ := mine
    refine inv.enter (quiet_release s r) ⟨fun _ => ⟨job, rfl, done⟩, fun _ _ => without⟩
  | idle | working _ _ | answered _ _ | gone => exact inv

theorem Inv.fail {r : R} {s : State R K} (inv : Inv s) (businessError : Bool) : Inv (s.fail r businessError) := by
  have mine := inv.stands r
  unfold State.fail
  cases phase : s.phase r with
  | working job row =>
    rw [phase] at mine
    exact inv.rollback mine job _
  | ensuring job | looking job | locking job | awaiting job _ =>
    rw [phase] at mine
    exact inv.rollback mine job _
  | recording job _ _ | committing job _ _ | closing job _ =>
    rw [phase] at mine
    exact inv.rollback mine.1 job _
  | idle | answered _ _ | gone => exact inv

/-- A lost acknowledgement is a failure that tells the truth where nothing but a receipt of a
    conflict was committed. -/
theorem Inv.commitLost {r : R} {s : State R K} (inv : Inv s)
    (harmless : ∀ job receipt effect, s.phase r = .committing job receipt effect → effect = none) :
    Inv (s.commitLost r) := by
  have mine := inv.stands r
  unfold State.commitLost
  cases phase : s.phase r with
  | committing job receipt effect =>
    rw [phase] at mine
    obtain ⟨without, fits, held, fresh⟩ := mine
    have nothing := harmless job receipt effect phase
    subst nothing
    refine inv.commit fits held fresh ⟨fun reported => ?_, fun _ _ e member => ?_⟩
    · rcases reported with no | no <;> cases no
    · rcases mem_publish_effects.mp member with old | ⟨some', -⟩
      · exact without e old
      · cases some'
  | closing job receipt =>
    rw [phase] at mine
    exact inv.rollback mine.1 job _
  | _ => exact inv

theorem Inv.start (p : Source) (options : HandlerOptions) {r : R} {s : State R K} (inv : Inv s)
    (request : HttpRequest)
    (now : Int) : Inv (step p options s (.start r request now)) := by
  have mine := inv.stands r
  simp only [step]
  cases phase : s.phase r with
  | idle =>
    rw [phase] at mine
    simp only
    cases admitted : acceptRequest p.toPlatform options request now with
    | ok job => exact inv.enter (Quiet.refl r s) mine
    | error response =>
      obtain ⟨failed, -⟩ := acceptRequest_refuses p.toPlatform options request now response admitted
      refine inv.enter (Quiet.refl r s) ⟨fun reported => ?_, fun _ _ => mine⟩
      rw [failed] at reported
      rcases reported with no | no <;> cases no
  | _ => exact inv

theorem Inv.step (p : Source) (options : HandlerOptions) {s : State R K} (e : Event R K) (inv : Inv s)
    (safe : Safe s e) : Inv (HandlerTransactions.step p options s e) := by
  cases e with
  | start r request now => exact inv.start p options request now
  | act r => exact inv.act p options safe
  | business r effects writes =>
    have mine := inv.stands r
    simp only [HandlerTransactions.step]
    cases phase : s.phase r with
    | working job row =>
      rw [phase] at mine
      exact inv.worked p mine job row effects writes
    | _ => exact inv
  | fail r businessError => exact inv.fail businessError
  | commitLost r =>
    refine inv.commitLost fun job receipt effect phase => ?_
    simp only [Safe, phase] at safe
    exact safe
  | crash r => exact inv.enter (quiet_release s r) trivial

/-- Effects happen at most once for a key, every answer tells what is committed, and the
    receipts of committed effects stay, in every run without a record over an applied receipt,
    a key of other content and a lost acknowledgement of an effect. -/
theorem effects_once_and_told (p : Source) (options : HandlerOptions) (rows : KeyedMap K TableRow)
    (events : List (Event R K))
    (safe : Throughout (step p options) Safe (State.initial rows) events) :
    OnceAndTold (run (step p options) (State.initial rows) events) :=
  (invariant_of_throughout Inv (fun _ e inv meets => inv.step p options e meets) safe (Inv.initial rows)).told

end

/-! ### A handler of refunds -/

/-- A source of texts: no text of this run is a date. -/
def textSource : Source where
  signHandlerRequest := fun _ rawBody => rawBody
  instant := fun _ => none
  isoText := fun _ => []
  equal := fun column value => match column, value with
    | .text t, .string s => decide (t = s)
    | _, _ => false

def refunds : HandlerOptions where
  tokenEnv := none
  signingSecretEnv := none
  issuedAtSkewMs := none
  env := fun _ => none
  capabilities := fun action => decide (action = ascii "refund")

def order (version : String) : TableRow where
  schema := ascii "public"
  table := ascii "orders"
  columns := [(ascii "id", .text (ascii "o")), (ascii "tenant", .text (ascii "t")), (ascii "version", .text (ascii version))]

def orders : KeyedMap ℕ TableRow := KeyedMap.empty.set 0 (order "abc")

def guardJson (column value : String) : Json :=
  .object [(ascii "column", .string (ascii column)), (ascii "value", .string (ascii value))]

def refundBody (key : String) : Json :=
  .object [(ascii "proposal_id", .string (ascii "p")), (ascii "idempotency_key", .string (ascii key)),
    (ascii "action", .string (ascii "refund")),
    (ascii "source", .object [(ascii "schema", .string (ascii "public")), (ascii "table", .string (ascii "orders")),
      (ascii "primary_key", guardJson "id" "o")]),
    (ascii "guards", .object [(ascii "tenant", guardJson "tenant" "t"), (ascii "expected_version", guardJson "version" "abc")]),
    (ascii "patch", .object [(ascii "state", .string (ascii "refunded"))])]

def refundRequest (key : String) : HttpRequest where
  method := some (ascii "POST")
  authorization := none
  signature := none
  issuedAt := none
  rawBody := some (refundBody key).text

/-- The next statements of a request. -/
def acts (n : ℕ) (r : ℕ) : List (Event ℕ ℕ) := List.replicate n (.act r)

def asks (r : ℕ) (key : String) : Event ℕ ℕ := .start r (refundRequest key) 0

/-- The business function returns, after it wrote these rows. -/
def writes (r : ℕ) (rows : Writes ℕ) : Event ℕ ℕ := .business r ⟨none, none, none, none⟩ rows

/-- No effect of the key is there at a lookup or a record, and no acknowledgement is lost. -/
def plain (s : State ℕ ℕ) : Event ℕ ℕ → Bool
  | .act r => match s.phase r with
    | .looking job => s.effects.all fun e => decide (e.job.idempotencyKey ≠ job.idempotencyKey)
    | .recording job _ _ => (s.receipts.get? job.idempotencyKey).all fun row => decide (row.status ≠ .applied)
    | _ => true
  | .commitLost _ => false
  | _ => true

def allPlain (s : State ℕ ℕ) : List (Event ℕ ℕ) → Bool
  | [] => true
  | e :: events => plain s e && allPlain (step textSource refunds s e) events

theorem safe_of_plain {s : State ℕ ℕ} {e : Event ℕ ℕ} (is : plain s e = true) : Safe s e := by
  cases e with
  | act r =>
    simp only [plain] at is
    simp only [Safe]
    cases phase : s.phase r with
    | looking job =>
      simp only [phase, List.all_eq_true, decide_eq_true_eq] at is
      exact fun e member key => absurd key (is e member)
    | recording job receipt effect =>
      simp only [phase] at is
      intro row found
      simpa [found] using is
    | _ => trivial
  | commitLost r => cases is
  | start | business | fail | crash => trivial

theorem safe_of_allPlain {s : State ℕ ℕ} {events : List (Event ℕ ℕ)} (all : allPlain s events = true) :
    Throughout (step textSource refunds) Safe s events := by
  induction events generalizing s with
  | nil => trivial
  | cons e events ih =>
    obtain ⟨first, rest⟩ := Bool.and_eq_true_iff.mp all
    exact ⟨safe_of_plain first, ih rest⟩

/-- An effect that changes the version of its row, a conflict of another proposal, and a
    business function that fails. -/
def apart : List (Event ℕ ℕ) :=
  asks 0 "k" :: acts 4 0 ++ writes 0 [(0, some (order "abd"))] :: acts 2 0 ++ asks 1 "other" :: acts 6 1 ++
    asks 2 "third" :: acts 1 2 ++ [.fail 2 false]

theorem effects_once_and_told_apart :
    OnceAndTold (run (step textSource refunds) (State.initial orders) apart) :=
  effects_once_and_told textSource refunds orders apart (safe_of_allPlain (by decide +kernel))

/-- What is committed under a key: the requests of its effects, and the status of its receipt. -/
def committed (events : List (Event ℕ ℕ)) (key : String) : List ℕ × Option HandlerReceiptStatus :=
  let s := run (step textSource refunds) (State.initial orders) events
  ((s.effects.filter fun e => e.job.idempotencyKey = ascii key).map Effect.request,
    (s.receipts.get? (ascii key)).map StoredReceipt.status)

/-- Two requests of a key: the second looks for a receipt before the first commits one, and
    goes on to the row after it. -/
def overlapping (rows : Writes ℕ) : List (Event ℕ ℕ) :=
  asks 2 "first" :: acts 4 2 ++ writes 2 [] :: acts 2 2 ++ [asks 0 "k", asks 1 "k"] ++ acts 4 0 ++ acts 3 1 ++
    writes 0 rows :: acts 2 0 ++ acts 1 1

/-- A business function that leaves the version as it is runs twice for a key. -/
theorem effect_committed_twice :
    ¬ ∀ events : List (Event ℕ ℕ), OnceAndTold (run (step textSource refunds) (State.initial orders) events) := by
  intro claim
  have once := (claim (overlapping [] ++ writes 1 [] :: acts 2 1)).once
  have keys : (run (step textSource refunds) (State.initial orders)
      (overlapping [] ++ writes 1 [] :: acts 2 1)).effects.map (fun e => e.job.idempotencyKey) =
        [ascii "first", ascii "k", ascii "k"] := by
    decide +kernel
  rw [keys] at once
  simp at once

/-- Where it changes the version, the receipt of its effect becomes one of a conflict. -/
example : committed (overlapping [(0, some (order "abd"))] ++ acts 2 1) "k" = ([0], some .conflict) := by
  decide +kernel

end SynapsorRunner.HandlerTransactions
