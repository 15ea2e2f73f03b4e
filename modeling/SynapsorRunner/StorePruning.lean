import SynapsorRunner.LedgerTables
import SynapsorRunner.References
import SynapsorRunner.Runs

/-!
The clean-up of the SQLite store. `pruneBefore` takes the proposals that ended before a
date, and what the tables hold of them, in one transaction.

What a retained proposal needs stays and nothing refers to what goes exactly when the
tables can be separated at the date (`prunes_safely_iff`). The evidence is taken by its
own date: a bundle from before the date goes also when its proposal still waits for its
review.
-/
namespace SynapsorRunner.StorePruning
open SynapsorRunner.NumberText SynapsorRunner.JsonText SynapsorRunner.SharedLedger SynapsorRunner.LedgerTables
open SynapsorRunner.References SynapsorRunner.References.Schema

/-! ### The tables -/

/-- A row with its columns that the clean-up reads or that name rows of other tables.
    `rowId` is the key of a table that has a key column of its own, `changeSetBundleId`
    the bundle in `change_set_json`. -/
structure Row where
  rowId : Option String
  proposalId : Option String
  evidenceBundleId : Option String
  writebackJobId : Option String
  jobId : Option String
  changeSetBundleId : Option String
  state : Option String
  status : Option String
  acknowledgedAt : Option String
  createdAt : Option String
  deriving DecidableEq, Repr

abbrev Store := Tables ExportedTable Row

abbrev evidenceBundles : ExportedTable := .record .evidenceBundles
abbrev evidenceItems : ExportedTable := .record .evidenceItems
abbrev queryAudit : ExportedTable := .record .queryAudit
abbrev writebackJobs : ExportedTable := .record .writebackJobs
abbrev cloudOutbox : ExportedTable := .record .cloudOutbox
abbrev shadowStudyCases : ExportedTable := .record .shadowStudyCases
abbrev attentionEvents : ExportedTable := .record .attentionEvents

def primaryKey : ExportedTable → Row → Option String
  | .proposals => Row.proposalId
  | .record .workerQueue => Row.proposalId
  | .record .evidenceBundles => Row.evidenceBundleId
  | .record .writebackJobs => Row.writebackJobId
  | _ => Row.rowId

def columns : List (String × (Row → Option String)) :=
  [("proposal_id", Row.proposalId), ("evidence_bundle_id", Row.evidenceBundleId), ("writeback_job_id", Row.writebackJobId),
    ("job_id", Row.jobId), ("state", Row.state), ("status", Row.status), ("acknowledged_at", Row.acknowledgedAt),
    ("created_at", Row.createdAt)]

/-- Does the row have the columns of the table, those that are NOT NULL with a value? -/
def admits (table : ExportedTable) (row : Row) : Bool :=
  (primaryKey table row).isSome && (decide (table = .proposals) || row.changeSetBundleId.isNone) &&
    columns.all fun column =>
      (decide (ascii column.1 ∈ table.spec.columns) || (column.2 row).isNone) &&
        (decide (ascii column.1 ∉ table.spec.required) || (column.2 row).isSome)

/-- The tables whose `proposal_id` is a FOREIGN KEY. -/
def proposalChildren : List ExportedTable :=
  [.record .proposalEvents, .record .approvals, .record .writebackReceipts, evidenceBundles, queryAudit, writebackJobs,
    .record .idempotencyReceipts, .writebackIntents, .record .replayRecords, .record .shadowHumanActions, shadowStudyCases,
    .record .shadowOutcomes, cloudOutbox, .record .cloudGovernanceEvents, .record .workerQueue]

/-- The FOREIGN KEYs of `migrate` into the tables that the clean-up takes rows of. -/
def foreignKeys : List (Reference ExportedTable Row String) :=
  proposalChildren.map (fun table => ⟨table, Row.proposalId, .proposals⟩) ++
    [⟨evidenceItems, Row.evidenceBundleId, evidenceBundles⟩, ⟨queryAudit, Row.evidenceBundleId, evidenceBundles⟩,
      ⟨.record .idempotencyReceipts, Row.writebackJobId, writebackJobs⟩]

/-- The ids that name a row of these tables without a FOREIGN KEY. -/
def plainIds : List (Reference ExportedTable Row String) :=
  [⟨.proposals, Row.changeSetBundleId, evidenceBundles⟩, ⟨shadowStudyCases, Row.evidenceBundleId, evidenceBundles⟩,
    ⟨.record .writebackReceipts, Row.writebackJobId, writebackJobs⟩, ⟨.writebackIntents, Row.writebackJobId, writebackJobs⟩,
    ⟨attentionEvents, Row.proposalId, .proposals⟩, ⟨attentionEvents, Row.jobId, writebackJobs⟩]

def schema : Schema ExportedTable Row String := ⟨primaryKey, admits, foreignKeys⟩

/-! ### The clean-up -/

/-- `created_at < ?` -/
def before (cutoffIso : String) (row : Row) : Bool := row.createdAt.any fun time => decide (time < cutoffIso)

/-- `inWhere`, none for no values. -/
def inWhere (column : Row → Option String) (values : List String) : Option (Row → Bool) :=
  if values = [] then none else some fun row => (column row).any fun value => decide (value ∈ values)

/-- The condition of the proposals that `pruneBefore` selects. -/
def ended (s : Store) (cutoffIso : String) (proposal : Row) : Bool :=
  before cutoffIso proposal &&
    (proposal.state.any fun state => decide (state ∈ ["applied", "conflict", "rejected", "canceled"])) &&
    !(s cloudOutbox).any fun event => event.proposalId.any (fun id => decide (proposal.proposalId = some id)) &&
      event.status.any fun status => decide (status ≠ "acknowledged")

def endedIds (s : Store) (cutoffIso : String) : List String :=
  ((s .proposals).filter (ended s cutoffIso)).filterMap Row.proposalId

def evidenceIdsForPrune (s : Store) (cutoffIso : String) (proposalIds : List String) : List String :=
  match inWhere Row.proposalId proposalIds with
  | none => ((s evidenceBundles).filter (before cutoffIso)).filterMap Row.evidenceBundleId
  | some proposalWhere =>
    ((s evidenceBundles).filter fun row => before cutoffIso row || proposalWhere row).filterMap Row.evidenceBundleId

/-- A table with the condition of its rows, none where the source only notes a zero. -/
abbrev Statement := ExportedTable × Option (Row → Bool)

/-- The tables after `cloud_outbox` that go by `proposal_id` alone. -/
def proposalTables : List ExportedTable :=
  [.record .cloudGovernanceEvents, .record .idempotencyReceipts, .record .writebackReceipts, writebackJobs,
    .writebackIntents,
    .record .approvals, .record .proposalEvents, .record .shadowOutcomes, shadowStudyCases, .record .shadowHumanActions,
    .record .workerQueue, .record .replayRecords]

def statements (s : Store) (cutoffIso : String) : List Statement :=
  let proposalIds := endedIds s cutoffIso
  let proposalWhere := inWhere Row.proposalId proposalIds
  let evidenceWhere := inWhere Row.evidenceBundleId (evidenceIdsForPrune s cutoffIso proposalIds)
  [(cloudOutbox, proposalWhere.map fun clause row => clause row && decide (row.status = some "acknowledged"))] ++
    proposalTables.map (fun table => (table, proposalWhere)) ++
    [(queryAudit, some fun row => proposalWhere.any (fun clause => clause row) ||
        evidenceWhere.any (fun clause => clause row) ||
        (row.proposalId.isNone && row.evidenceBundleId.isNone && before cutoffIso row)),
      (evidenceItems, evidenceWhere), (evidenceBundles, evidenceWhere), (.proposals, proposalWhere)]

structure Pruning where
  tables : Store
  deleted : List (ExportedTable × Nat)

/-- `run`: the rows are counted, and deleted unless the run is dry. -/
def run (dryRun : Bool) (p : Pruning) (statement : Statement) : Option Pruning :=
  match statement.2 with
  | none => some { p with deleted := p.deleted ++ [(statement.1, 0)] }
  | some condition =>
    let count := (p.tables statement.1).countP condition
    let noted := p.deleted ++ [(statement.1, count)]
    if !dryRun && decide (0 < count) then
      (schema.deleteWhere p.tables statement.1 condition).map fun tables => ⟨tables, noted⟩
    else some ⟨p.tables, noted⟩

structure StorePruneResult where
  cutoff : String
  dryRun : Bool
  deleted : List (ExportedTable × Nat)

/-- The result and the store after the transaction, which a refused deletion rolls back. -/
def pruneBefore (s : Store) (cutoffIso : String) (dryRun : Option Bool) : Except String StorePruneResult × Store :=
  let dry := decide (dryRun ≠ some false)
  match (statements s cutoffIso).foldlM (run dry) ⟨s, []⟩ with
  | some p => (.ok ⟨cutoffIso, dry, p.deleted⟩, p.tables)
  | none => (.error "FOREIGN KEY constraint failed", s)

/-! ### What a run of the clean-up computes -/

def condition (statement : Statement) : Row → Bool := statement.2.getD fun _ => false

/-- The statements as deletions. -/
def deletions (l : List Statement) : List (Deletion ExportedTable Row) :=
  l.map fun statement => (statement.1, condition statement)

/-- The number of rows in each table that the statements select. -/
def counts (s : Store) (l : List Statement) : List (ExportedTable × Nat) :=
  l.map fun statement => (statement.1, (s statement.1).countP (condition statement))

theorem run_dry (p : Pruning) (statement : Statement) :
    run true p statement = some ⟨p.tables, p.deleted ++ counts p.tables [statement]⟩ := by
  obtain ⟨table, _ | selected⟩ := statement
  · simp [run, counts, condition]
  · simp [run, counts, condition]

theorem run_real (p : Pruning) (statement : Statement) :
    run false p statement = (schema.deleteWhere p.tables statement.1 (condition statement)).map fun tables =>
      ⟨tables, p.deleted ++ counts p.tables [statement]⟩ := by
  obtain ⟨table, _ | selected⟩ := statement
  · have nothing : schema.deleteWhere p.tables table (fun _ => false) = some p.tables := schema.deleteWhere_none (by simp)
    simp [run, counts, condition, nothing]
  · by_cases some' : 0 < (p.tables table).countP selected
    · simp [run, counts, condition, some']
    · have none' : (p.tables table).countP selected = 0 := by omega
      have nothing := schema.deleteWhere_none none'
      simp [run, counts, condition, none', nothing]

theorem runs_dry (l : List Statement) (p : Pruning) :
    l.foldlM (run true) p = some ⟨p.tables, p.deleted ++ counts p.tables l⟩ := by
  induction l generalizing p with
  | nil => simp [counts]
  | cons statement rest ih =>
    rw [List.foldlM_cons, run_dry]
    change List.foldlM (run true) _ rest = _
    rw [ih]
    simp [counts]

theorem counts_remove {s : Store} {table : ExportedTable} {selected : Row → Bool} {l : List Statement}
    (others : ∀ statement ∈ l, statement.1 ≠ table) : counts (remove s table selected) l = counts s l := by
  refine List.map_congr_left fun statement member => ?_
  rw [remove, Function.update_of_ne (others statement member)]

/-- A real run notes what a dry run notes, and deletes what the statements select. -/
theorem runs_real (l : List Statement) (distinct : (l.map Prod.fst).Nodup) (p : Pruning) :
    l.foldlM (run false) p = (schema.deleteEach (deletions l) p.tables).map fun tables =>
      ⟨tables, p.deleted ++ counts p.tables l⟩ := by
  induction l generalizing p with
  | nil => simp [deletions, counts, deleteEach]
  | cons statement rest ih =>
    obtain ⟨fresh, distinct'⟩ := List.nodup_cons.mp distinct
    have others : ∀ other ∈ rest, other.1 ≠ statement.1 := fun other member same =>
      fresh (same ▸ List.mem_map_of_mem member)
    rw [List.foldlM_cons, run_real, deletions, List.map_cons, deleteEach]
    cases deleted : schema.deleteWhere p.tables statement.1 (condition statement) with
    | none => rfl
    | some tables =>
      obtain ⟨-, rfl⟩ := schema.deleteWhere_eq_some.mp deleted
      change List.foldlM (run false) _ rest = Option.map _ (schema.deleteEach (deletions rest) _)
      rw [ih distinct', counts_remove others]
      simp [counts]

theorem statements_tables (s : Store) (cutoffIso : String) : (statements s cutoffIso).map Prod.fst =
    cloudOutbox :: proposalTables ++ [queryAudit, evidenceItems, evidenceBundles, .proposals] := by
  simp [statements, Function.comp_def]

theorem deletions_tables (l : List Statement) : (deletions l).map Prod.fst = l.map Prod.fst := by
  simp [deletions, Function.comp_def]

theorem statements_distinct (s : Store) (cutoffIso : String) : ((statements s cutoffIso).map Prod.fst).Nodup := by
  rw [statements_tables]
  decide

/-- The order of the statements in the source: every table after those that refer to it. -/
theorem statements_ordered (s : Store) (cutoffIso : String) : schema.ChildrenFirst (deletions (statements s cutoffIso)) := by
  have ordered : ((statements s cutoffIso).map Prod.fst).Pairwise fun table other =>
      ∀ r ∈ schema.references, r.parent = table → r.child ≠ other := by
    rw [statements_tables]
    decide
  rw [← deletions_tables, List.pairwise_map] at ordered
  exact ordered

/-! ### The rows that the clean-up takes -/

section
variable (s : Store) (cutoffIso : String)

/-- The id of a proposal that the clean-up takes. -/
def Ended (id : String) : Prop := ∃ p ∈ s .proposals, p.proposalId = some id ∧ ended s cutoffIso p = true

/-- A row of such a proposal. -/
def Done (row : Row) : Prop := ∃ id, row.proposalId = some id ∧ Ended s cutoffIso id

/-- The id of a bundle that the clean-up takes: one from before the date, or of such a proposal. -/
def Discarded (bundleId : String) : Prop :=
  ∃ bundle ∈ s evidenceBundles, bundle.evidenceBundleId = some bundleId ∧
    (before cutoffIso bundle = true ∨ Done s cutoffIso bundle)

/-- A row that names such a bundle. -/
def Bundled (row : Row) : Prop := ∃ bundleId, row.evidenceBundleId = some bundleId ∧ Discarded s cutoffIso bundleId

variable {s cutoffIso}

theorem mem_endedIds {id : String} : id ∈ endedIds s cutoffIso ↔ Ended s cutoffIso id := by
  simp only [endedIds, List.mem_filterMap, List.mem_filter, Ended]
  constructor
  · rintro ⟨p, ⟨member, done⟩, named⟩
    exact ⟨p, member, named, done⟩
  · rintro ⟨p, member, named, done⟩
    exact ⟨p, ⟨member, done⟩, named⟩

theorem inWhere_any {column : Row → Option String} {values : List String} {row : Row} :
    (inWhere column values).any (fun clause => clause row) = true ↔ ∃ value ∈ values, column row = some value := by
  unfold inWhere
  split
  case isTrue none' => simp [none']
  case isFalse =>
    simp only [Option.any_some, Option.any_eq_true, decide_eq_true_eq]
    exact ⟨fun ⟨value, found, listed⟩ => ⟨value, listed, found⟩, fun ⟨value, listed, found⟩ => ⟨value, found, listed⟩⟩

theorem inWhere_getD {column : Row → Option String} {values : List String} {row : Row} :
    (inWhere column values).getD (fun _ => false) row = (inWhere column values).any fun clause => clause row := by
  unfold inWhere
  split <;> rfl

theorem inWhere_ended {row : Row} :
    (inWhere Row.proposalId (endedIds s cutoffIso)).any (fun clause => clause row) = true ↔ Done s cutoffIso row := by
  rw [inWhere_any]
  exact ⟨fun ⟨id, listed, named⟩ => ⟨id, named, mem_endedIds.mp listed⟩,
    fun ⟨id, named, done⟩ => ⟨id, mem_endedIds.mpr done, named⟩⟩

theorem mem_evidenceIdsForPrune {bundleId : String} :
    bundleId ∈ evidenceIdsForPrune s cutoffIso (endedIds s cutoffIso) ↔ Discarded s cutoffIso bundleId := by
  have clause : ∀ row, (before cutoffIso row ||
      (inWhere Row.proposalId (endedIds s cutoffIso)).any fun clause => clause row) = true ↔
        before cutoffIso row = true ∨ Done s cutoffIso row := fun row => by rw [Bool.or_eq_true, inWhere_ended]
  have members : bundleId ∈ evidenceIdsForPrune s cutoffIso (endedIds s cutoffIso) ↔
      ∃ bundle, (bundle ∈ s evidenceBundles ∧ (before cutoffIso bundle ||
        (inWhere Row.proposalId (endedIds s cutoffIso)).any fun clause => clause bundle) = true) ∧
        bundle.evidenceBundleId = some bundleId := by
    unfold evidenceIdsForPrune
    split
    case h_1 none' => simp [none', List.mem_filterMap, List.mem_filter]
    case h_2 proposalWhere some' => simp [some', List.mem_filterMap, List.mem_filter]
  rw [members]
  simp only [clause, Discarded]
  exact ⟨fun ⟨bundle, ⟨member, taken⟩, named⟩ => ⟨bundle, member, named, taken⟩,
    fun ⟨bundle, member, named, taken⟩ => ⟨bundle, ⟨member, taken⟩, named⟩⟩

theorem inWhere_discarded {row : Row} :
    (inWhere Row.evidenceBundleId (evidenceIdsForPrune s cutoffIso (endedIds s cutoffIso))).any
      (fun clause => clause row) = true ↔
      Bundled s cutoffIso row := by
  rw [inWhere_any]
  exact ⟨fun ⟨bundleId, listed, named⟩ => ⟨bundleId, named, mem_evidenceIdsForPrune.mp listed⟩,
    fun ⟨bundleId, named, discarded⟩ => ⟨bundleId, mem_evidenceIdsForPrune.mpr discarded, named⟩⟩

variable (s cutoffIso) in
/-- The rows that the statements select, table by table. -/
inductive Taken : ExportedTable → Row → Prop
  | outbox {row} (done : Done s cutoffIso row) (acknowledged : row.status = some "acknowledged") : Taken cloudOutbox row
  | ofProposal {table row} (listed : table ∈ proposalTables) (done : Done s cutoffIso row) : Taken table row
  | audit {row} (done : Done s cutoffIso row) : Taken queryAudit row
  | auditOfBundle {row} (bundled : Bundled s cutoffIso row) : Taken queryAudit row
  | looseAudit {row} (proposal : row.proposalId = none) (bundle : row.evidenceBundleId = none)
      (old : before cutoffIso row = true) : Taken queryAudit row
  | item {row} (bundled : Bundled s cutoffIso row) : Taken evidenceItems row
  | bundle {row} (bundled : Bundled s cutoffIso row) : Taken evidenceBundles row
  | proposal {row} (done : Done s cutoffIso row) : Taken .proposals row

theorem inWhere_acknowledged {row : Row} :
    ((inWhere Row.proposalId (endedIds s cutoffIso)).map fun clause row =>
      clause row && decide (row.status = some "acknowledged")).getD (fun _ => false) row = true ↔
      Done s cutoffIso row ∧ row.status = some "acknowledged" := by
  rw [← inWhere_ended (s := s)]
  cases inWhere Row.proposalId (endedIds s cutoffIso) <;> simp

theorem taken_iff {table : ExportedTable} {row : Row} :
    selects (deletions (statements s cutoffIso)) table row = true ↔ Taken s cutoffIso table row := by
  simp only [selects, deletions, statements, condition, List.any_map, List.any_append, List.any_cons, List.any_nil,
    Function.comp_def, Bool.or_eq_true, Bool.and_eq_true, decide_eq_true_eq, Bool.or_false, List.any_eq_true,
    Option.getD_some, inWhere_getD, inWhere_ended, inWhere_discarded, Bool.false_eq_true, or_false, List.map_append,
    List.map_cons, List.map_nil, List.map_map, inWhere_acknowledged, Option.isNone_iff_eq_none]
  constructor
  · rintro ((⟨rfl, done, acknowledged⟩ | ⟨table, listed, rfl, done⟩) | ⟨rfl, (done | bundled) | ⟨⟨proposal, bundle⟩, old⟩⟩ |
      ⟨rfl, bundled⟩ | ⟨rfl, bundled⟩ | ⟨rfl, done⟩)
    · exact .outbox done acknowledged
    · exact .ofProposal listed done
    · exact .audit done
    · exact .auditOfBundle bundled
    · exact .looseAudit proposal bundle old
    · exact .item bundled
    · exact .bundle bundled
    · exact .proposal done
  · intro taken
    cases taken with
    | outbox done acknowledged => exact .inl (.inl ⟨rfl, done, acknowledged⟩)
    | ofProposal listed done => exact .inl (.inr ⟨table, listed, rfl, done⟩)
    | audit done => exact .inr (.inl ⟨rfl, .inl (.inl done)⟩)
    | auditOfBundle bundled => exact .inr (.inl ⟨rfl, .inl (.inr bundled)⟩)
    | looseAudit proposal bundle old => exact .inr (.inl ⟨rfl, .inr ⟨⟨proposal, bundle⟩, old⟩⟩)
    | item bundled => exact .inr (.inr (.inl ⟨rfl, bundled⟩))
    | bundle bundled => exact .inr (.inr (.inr (.inl ⟨rfl, bundled⟩)))
    | proposal done => exact .inr (.inr (.inr (.inr ⟨rfl, done⟩)))

theorem done_of_taken {table : ExportedTable} (listed : table ∈ .proposals :: cloudOutbox :: proposalTables) {row : Row}
    (taken : Taken s cutoffIso table row) : Done s cutoffIso row := by
  cases taken with
  | outbox done => exact done
  | ofProposal _ done => exact done
  | audit done => exact done
  | proposal done => exact done
  | auditOfBundle => exact absurd listed (by decide)
  | looseAudit => exact absurd listed (by decide)
  | item => exact absurd listed (by decide)
  | bundle => exact absurd listed (by decide)

/-- The approvals, receipts, intents, events, jobs and messages of a proposal stay with it. -/
theorem rows_kept {table : ExportedTable} (listed : table ∈ .proposals :: cloudOutbox :: proposalTables) {row : Row}
    {id : String}
    (named : row.proposalId = some id) (stays : ¬ Ended s cutoffIso id) : ¬ Taken s cutoffIso table row := by
  intro taken
  obtain ⟨id', named', ends⟩ := done_of_taken listed taken
  obtain rfl := Option.some.inj (named.symm.trans named')
  exact stays ends

theorem bundled_of_taken {row : Row} (taken : Taken s cutoffIso evidenceBundles row) : Bundled s cutoffIso row := by
  cases taken with
  | ofProposal listed => exact absurd listed (by decide)
  | bundle bundled => exact bundled

theorem attention_not_taken {row : Row} : ¬ Taken s cutoffIso attentionEvents row := by
  intro taken
  cases taken with
  | ofProposal listed => exact absurd listed (by decide)

end

/-! ### Consistent stores -/

section
variable {s : Store} {cutoffIso : String} (consistent : schema.Consistent s)
include consistent

theorem admitted_column {table : ExportedTable} {row : Row} (member : row ∈ s table)
    (column : String × (Row → Option String)) (listed : column ∈ columns) :
    (ascii column.1 ∈ table.spec.columns ∨ column.2 row = none) ∧
      (ascii column.1 ∉ table.spec.required ∨ (column.2 row).isSome = true) := by
  have admitted := (Bool.and_eq_true_iff.mp (consistent.admitted table row member)).2
  simpa using List.all_eq_true.mp admitted column listed

theorem primaryKey_some {table : ExportedTable} {row : Row} (member : row ∈ s table) :
    ∃ key, primaryKey table row = some key := by
  have admitted := (Bool.and_eq_true_iff.mp (consistent.admitted table row member)).1
  exact Option.isSome_iff_exists.mp (Bool.and_eq_true_iff.mp admitted).1

theorem item_proposal {row : Row} (member : row ∈ s evidenceItems) : row.proposalId = none := by
  have admitted := (admitted_column consistent member ("proposal_id", Row.proposalId) (by simp [columns])).1
  exact admitted.resolve_left (by decide)

theorem outbox_status {row : Row} (member : row ∈ s cloudOutbox) : ∃ status, row.status = some status := by
  have admitted := (admitted_column consistent member ("status", Row.status) (by simp [columns])).2
  exact Option.isSome_iff_exists.mp (admitted.resolve_left (by decide))

/-- The proposals that the clean-up takes have no message that is not acknowledged. -/
theorem acknowledged_of_done {row : Row} (member : row ∈ s cloudOutbox) (done : Done s cutoffIso row) :
    row.status = some "acknowledged" := by
  obtain ⟨id, named, p, -, proposal, ends⟩ := done
  obtain ⟨status, status'⟩ := outbox_status consistent member
  have quiet := (Bool.and_eq_true_iff.mp ends).2
  by_contra waiting
  have waits : (s cloudOutbox).any (fun event => event.proposalId.any (fun id => decide (p.proposalId = some id)) &&
      event.status.any fun status => decide (status ≠ "acknowledged")) = true := by
    refine List.any_eq_true.mpr ⟨row, member, ?_⟩
    rw [status'] at waiting
    simp only [named, proposal, status', Option.any_some, decide_true, Bool.true_and, decide_eq_true_eq]
    exact fun same => waiting (congrArg some same)
  rw [waits] at quiet
  cases quiet

omit consistent in
theorem proposalChildren_tables : ∀ table ∈ proposalChildren,
    table ∈ proposalTables ∨ table = evidenceBundles ∨ table = queryAudit ∨ table = cloudOutbox := by decide

theorem taken_of_done {table : ExportedTable} (listed : table ∈ proposalChildren) {row : Row} (member : row ∈ s table)
    (done : Done s cutoffIso row) : Taken s cutoffIso table row := by
  by_cases plain : table ∈ proposalTables
  · exact .ofProposal plain done
  · rcases (proposalChildren_tables table listed).resolve_left plain with rfl | rfl | rfl
    · obtain ⟨key, key'⟩ := primaryKey_some consistent member
      exact .bundle ⟨key, key', row, member, key', .inr done⟩
    · exact .audit done
    · exact .outbox done (acknowledged_of_done consistent member done)

end

/-! ### What the clean-up keeps and leaves -/

/-- The row is about the proposal: it names it, or names none and is part of a bundle that does. -/
def Belongs (s : Store) (id : String) (table : ExportedTable) (row : Row) : Prop :=
  table ≠ .proposals ∧ (row.proposalId = some id ∨ row.proposalId = none ∧ ∃ bundle ∈ s evidenceBundles,
    bundle.proposalId = some id ∧ ∃ bundleId, row.evidenceBundleId = some bundleId ∧ bundle.evidenceBundleId = some bundleId)

/-- The columns that name rows of other tables. -/
def references : List (Reference ExportedTable Row String) := foreignKeys ++ plainIds

/-- The row is about the proposal, or the proposal or a row about it names the row. -/
def NeededBy (s : Store) (id : String) (table : ExportedTable) (row : Row) : Prop :=
  Belongs s id table row ∨ ∃ r ∈ references, r.parent = table ∧ ∃ source ∈ s r.child,
    (Belongs s id r.child source ∨ r.child = .proposals ∧ source.proposalId = some id) ∧ schema.refers r source row = true

/-- No row is deleted that a proposal needs which stays. -/
def KeepsNeeded (s s' : Store) : Prop :=
  ∀ p ∈ s' .proposals, ∀ id, p.proposalId = some id → ∀ table, ∀ row ∈ s table, NeededBy s id table row → row ∈ s' table

/-- No row is left that names a deleted one. -/
def LeavesNoReference (s s' : Store) : Prop :=
  ∀ r ∈ references, ∀ row ∈ s' r.child, ∀ gone ∈ s r.parent, gone ∉ s' r.parent → schema.refers r row gone = false

/-- The numbers are those of the rows deleted. -/
def Counted (s s' : Store) (deleted : List (ExportedTable × Nat)) : Prop :=
  ∀ table, (KeyedMap.find table deleted).getD 0 + (s' table).length = (s table).length

/-- What the real run does to the store, with the result of the dry run on it. -/
def PrunesSafely (s : Store) (cutoffIso : String) : Prop :=
  ∃ result, (pruneBefore s cutoffIso (some true)).1 = .ok result ∧
    KeepsNeeded s (pruneBefore s cutoffIso (some false)).2 ∧ LeavesNoReference s (pruneBefore s cutoffIso (some false)).2 ∧
    Counted s (pruneBefore s cutoffIso (some false)).2 result.deleted

/-- The id of a writeback job of a proposal that the clean-up takes. -/
def DoneJob (s : Store) (cutoffIso : String) (jobId : String) : Prop :=
  ∃ job ∈ s writebackJobs, job.writebackJobId = some jobId ∧ Done s cutoffIso job

/-- The proposals that ended before the date can be told from the rest of the store: no
    evidence from before it is of another proposal, and no row that stays names their
    evidence, their jobs or themselves. -/
structure Separate (s : Store) (cutoffIso : String) : Prop where
  evidence : ∀ bundle ∈ s evidenceBundles, before cutoffIso bundle = true → ∀ id, bundle.proposalId = some id →
    Ended s cutoffIso id
  audits : ∀ audit ∈ s queryAudit, Bundled s cutoffIso audit → ∀ id, audit.proposalId = some id → Ended s cutoffIso id
  cases : ∀ row ∈ s shadowStudyCases, Bundled s cutoffIso row → Done s cutoffIso row
  changeSets : ∀ p ∈ s .proposals, ∀ bundleId, p.changeSetBundleId = some bundleId → Discarded s cutoffIso bundleId →
    Done s cutoffIso p
  jobs : ∀ table ∈ [.record .idempotencyReceipts, .record .writebackReceipts, .writebackIntents], ∀ row ∈ s table, ∀ jobId,
    row.writebackJobId = some jobId → DoneJob s cutoffIso jobId → Done s cutoffIso row
  attention : ∀ event ∈ s attentionEvents, ¬ Done s cutoffIso event ∧ ∀ jobId, event.jobId = some jobId →
    ¬ DoneJob s cutoffIso jobId

section
variable {s : Store} {cutoffIso : String} (consistent : schema.Consistent s)
include consistent

theorem bundle_eq {bundle other : Row} (member : bundle ∈ s evidenceBundles) (member' : other ∈ s evidenceBundles)
    {bundleId : String} (key : bundle.evidenceBundleId = some bundleId) (key' : other.evidenceBundleId = some bundleId) :
    bundle = other :=
  consistent.eq_of_key member member' (key.trans key'.symm)

omit consistent in
theorem proposalKey {table : ExportedTable} (listed : table ∈ proposalChildren) :
    ⟨table, Row.proposalId, .proposals⟩ ∈ foreignKeys :=
  List.mem_append_left _ (List.mem_map.mpr ⟨table, listed, rfl⟩)

/-- The proposal that a row names by a FOREIGN KEY. -/
theorem proposal_of {table : ExportedTable} (listed : table ∈ proposalChildren) {row : Row} (member : row ∈ s table)
    {id : String} (named : row.proposalId = some id) : ∃ p ∈ s .proposals, p.proposalId = some id :=
  consistent.closed _ (proposalKey listed) row member id named

/-- A bundle of another proposal is not taken. -/
theorem bundle_kept (separate : Separate s cutoffIso) {bundle : Row} (member : bundle ∈ s evidenceBundles)
    {bundleId : String}
    (key : bundle.evidenceBundleId = some bundleId) {id : String} (named : bundle.proposalId = some id)
    (stays : ¬ Ended s cutoffIso id) : ¬ Discarded s cutoffIso bundleId := by
  rintro ⟨other, member', key', old | ⟨id', named', ends⟩⟩
  · obtain rfl := bundle_eq consistent member member' key key'
    exact stays (separate.evidence bundle member old id named)
  · obtain rfl := bundle_eq consistent member member' key key'
    obtain rfl := Option.some.inj (named.symm.trans named')
    exact stays ends

omit consistent in
theorem belongs_not_done {table : ExportedTable} {row : Row} {id : String} (belongs : Belongs s id table row)
    (stays : ¬ Ended s cutoffIso id) : ¬ Done s cutoffIso row := by
  rintro ⟨id', named', ends⟩
  rcases belongs.2 with named | ⟨none', -⟩
  · obtain rfl := Option.some.inj (named.symm.trans named')
    exact stays ends
  · rw [named'] at none'
    cases none'

/-- The rows about a proposal that stays are not taken. -/
theorem belongs_kept (separate : Separate s cutoffIso) {table : ExportedTable} {row : Row} (member : row ∈ s table)
    {id : String}
    (belongs : Belongs s id table row) (stays : ¬ Ended s cutoffIso id) : ¬ Taken s cutoffIso table row := by
  have undone := belongs_not_done belongs stays
  intro taken
  cases taken with
  | outbox done => exact undone done
  | ofProposal _ done => exact undone done
  | audit done => exact undone done
  | proposal done => exact undone done
  | looseAudit proposal bundle =>
    rcases belongs.2 with named | ⟨-, _, -, -, bundleId, named, -⟩
    · simp [proposal] at named
    · simp [bundle] at named
  | auditOfBundle bundled =>
    rcases belongs.2 with named | ⟨-, bundle, there, named, bundleId, named', key⟩
    · exact stays (separate.audits row member bundled id named)
    · obtain ⟨bundleId', named'', discarded⟩ := bundled
      obtain rfl := Option.some.inj (named'.symm.trans named'')
      exact bundle_kept consistent separate there key named stays discarded
  | item bundled =>
    rcases belongs.2 with named | ⟨-, bundle, there, named, bundleId, named', key⟩
    · rw [item_proposal consistent member] at named
      cases named
    · obtain ⟨bundleId', named'', discarded⟩ := bundled
      obtain rfl := Option.some.inj (named'.symm.trans named'')
      exact bundle_kept consistent separate there key named stays discarded
  | bundle bundled =>
    obtain ⟨bundleId, key, discarded⟩ := bundled
    rcases belongs.2 with named | ⟨none', bundle, there, named, bundleId', named', key'⟩
    · exact bundle_kept consistent separate member key named stays discarded
    · obtain rfl := bundle_eq consistent member there named' key'
      rw [named] at none'
      cases none'

/-- What separate tables mean for the references: where a row is taken, what names it is. -/
theorem named_taken (separate : Separate s cutoffIso) {r : Reference ExportedTable Row String} (listed : r ∈ references)
    {row gone : Row} (member : row ∈ s r.child) (there : gone ∈ s r.parent) (refers : schema.refers r row gone = true)
    (taken : Taken s cutoffIso r.parent gone) : Taken s cutoffIso r.child row := by
  obtain ⟨key, named, key'⟩ := schema.refers_iff.mp refers
  rcases List.mem_append.mp listed with declared | plain
  · rcases List.mem_append.mp declared with ofProposal | ofOthers
    · obtain ⟨table, child, rfl⟩ := List.mem_map.mp ofProposal
      obtain ⟨id, named', ends⟩ := done_of_taken (by simp) taken
      obtain rfl := Option.some.inj (key'.symm.trans named')
      exact taken_of_done consistent child member ⟨_, named, ends⟩
    · simp only [List.mem_cons, List.not_mem_nil, or_false] at ofOthers
      rcases ofOthers with rfl | rfl | rfl
      · obtain ⟨bundleId, named', discarded⟩ := bundled_of_taken taken
        obtain rfl := Option.some.inj (key'.symm.trans named')
        exact .item ⟨_, named, discarded⟩
      · obtain ⟨bundleId, named', discarded⟩ := bundled_of_taken taken
        obtain rfl := Option.some.inj (key'.symm.trans named')
        exact .auditOfBundle ⟨_, named, discarded⟩
      · have job : DoneJob s cutoffIso key := ⟨gone, there, key', done_of_taken (by decide) taken⟩
        exact .ofProposal (by decide) (separate.jobs _ (by decide) row member key named job)
  · simp only [plainIds, List.mem_cons, List.not_mem_nil, or_false] at plain
    rcases plain with rfl | rfl | rfl | rfl | rfl | rfl
    · obtain ⟨bundleId, named', discarded⟩ := bundled_of_taken taken
      obtain rfl := Option.some.inj (key'.symm.trans named')
      exact .proposal (separate.changeSets row member _ named discarded)
    · obtain ⟨bundleId, named', discarded⟩ := bundled_of_taken taken
      obtain rfl := Option.some.inj (key'.symm.trans named')
      exact .ofProposal (by decide) (separate.cases row member ⟨_, named, discarded⟩)
    · have job : DoneJob s cutoffIso key := ⟨gone, there, key', done_of_taken (by decide) taken⟩
      exact .ofProposal (by decide) (separate.jobs _ (by decide) row member key named job)
    · have job : DoneJob s cutoffIso key := ⟨gone, there, key', done_of_taken (by decide) taken⟩
      exact .ofProposal (by decide) (separate.jobs _ (by decide) row member key named job)
    · obtain ⟨id, named', ends⟩ := done_of_taken (by simp) taken
      obtain rfl := Option.some.inj (key'.symm.trans named')
      exact absurd ⟨_, named, ends⟩ (separate.attention row member).1
    · have job : DoneJob s cutoffIso key := ⟨gone, there, key', done_of_taken (by decide) taken⟩
      exact absurd job ((separate.attention row member).2 key named)

variable (s cutoffIso) in
/-- The store after the clean-up. -/
def pruned : Store := without (deletions (statements s cutoffIso)) s

omit consistent in
theorem mem_pruned {table : ExportedTable} {row : Row} :
    row ∈ pruned s cutoffIso table ↔ row ∈ s table ∧ ¬ Taken s cutoffIso table row := by
  rw [pruned, mem_without, taken_iff]

omit consistent in
/-- A proposal is retained exactly when its id is not the one of an ended proposal. -/
theorem retained_iff {p : Row} {id : String} (named : p.proposalId = some id) :
    ¬ Taken s cutoffIso .proposals p ↔ ¬ Ended s cutoffIso id :=
  ⟨fun kept ends => kept (.proposal ⟨id, named, ends⟩), rows_kept (by simp) named⟩

theorem leaves_of_separate (separate : Separate s cutoffIso) : LeavesNoReference s (pruned s cutoffIso) := by
  intro r listed row member gone there deleted
  obtain ⟨member, kept⟩ := mem_pruned.mp member
  have taken : Taken s cutoffIso r.parent gone := by
    by_contra stays
    exact deleted (mem_pruned.mpr ⟨there, stays⟩)
  exact Bool.eq_false_iff.mpr fun refers => kept (named_taken consistent separate listed member there refers taken)

theorem keeps_of_separate (separate : Separate s cutoffIso) : KeepsNeeded s (pruned s cutoffIso) := by
  intro p retained id named table row member needed
  have stays := (retained_iff named).mp (mem_pruned.mp retained).2
  refine mem_pruned.mpr ⟨member, ?_⟩
  rcases needed with belongs | ⟨r, listed, rfl, source, there, about, refers⟩
  · exact belongs_kept consistent separate member belongs stays
  · intro taken
    have source' := named_taken consistent separate listed there member refers taken
    rcases about with belongs | ⟨child, named'⟩
    · exact belongs_kept consistent separate there belongs stays source'
    · rw [child] at source'
      exact (retained_iff named').mpr stays source'

/-- Where nothing needed goes and no reference is left, the tables are separate. -/
theorem separate_of_pruned (keeps : KeepsNeeded s (pruned s cutoffIso)) (leaves : LeavesNoReference s (pruned s cutoffIso)) :
    Separate s cutoffIso := by
  have kept : ∀ {table row id}, table ∈ proposalChildren → row ∈ s table → row.proposalId = some id →
      ¬ Ended s cutoffIso id → ¬ Taken s cutoffIso table row := by
    intro table row id listed member named stays
    obtain ⟨p, there, named'⟩ := proposal_of consistent listed member named
    have retained := mem_pruned.mpr ⟨there, (retained_iff named').mpr stays⟩
    have table' : table ≠ .proposals := by
      rintro rfl
      exact absurd listed (by decide)
    exact (mem_pruned.mp (keeps p retained id named' table row member (.inl ⟨table', .inl named⟩))).2
  have unnamed : ∀ r ∈ references, ∀ row ∈ s r.child, ¬ Taken s cutoffIso r.child row → ∀ gone ∈ s r.parent,
      Taken s cutoffIso r.parent gone → ∀ key, r.column row = some key → primaryKey r.parent gone ≠ some key := by
    intro r listed row member stays gone there taken key named key'
    have refers := leaves r listed row (mem_pruned.mpr ⟨member, stays⟩) gone there fun left => (mem_pruned.mp left).2 taken
    rw [schema.refers_iff.mpr ⟨key, named, key'⟩] at refers
    cases refers
  have discarded : ∀ {bundleId}, Discarded s cutoffIso bundleId → ∃ bundle ∈ s evidenceBundles,
      bundle.evidenceBundleId = some bundleId ∧ Taken s cutoffIso evidenceBundles bundle := by
    rintro bundleId ⟨bundle, member, key, taken⟩
    exact ⟨bundle, member, key, .bundle ⟨bundleId, key, bundle, member, key, taken⟩⟩
  have ofJob : ∀ {job}, Done s cutoffIso job → Taken s cutoffIso writebackJobs job :=
    fun ends => .ofProposal (by decide) ends
  refine ⟨?_, ?_, ?_, ?_, ?_, ?_⟩
  · intro bundle member old id named
    by_contra stays
    obtain ⟨key, key'⟩ := primaryKey_some consistent member
    exact kept (by decide) member named stays (.bundle ⟨key, key', bundle, member, key', .inl old⟩)
  · intro audit member bundled id named
    by_contra stays
    exact kept (by decide) member named stays (.auditOfBundle bundled)
  · rintro row member ⟨bundleId, named, taken⟩
    by_contra undone
    obtain ⟨bundle, there, key, gone⟩ := discarded taken
    exact unnamed ⟨shadowStudyCases, Row.evidenceBundleId, evidenceBundles⟩ (by simp [references, plainIds]) row member
      (fun taken' => undone (done_of_taken (by decide) taken')) bundle there gone bundleId named key
  · intro p member bundleId named taken
    by_contra undone
    obtain ⟨bundle, there, key, gone⟩ := discarded taken
    exact unnamed ⟨.proposals, Row.changeSetBundleId, evidenceBundles⟩ (by simp [references, plainIds]) p member
      (fun taken' => undone (done_of_taken (by decide) taken')) bundle there gone bundleId named key
  · rintro table listed row member jobId named ⟨job, there, key, ends⟩
    by_contra undone
    have reference : ⟨table, Row.writebackJobId, writebackJobs⟩ ∈ references := by
      simp only [List.mem_cons, List.not_mem_nil, or_false] at listed
      rcases listed with rfl | rfl | rfl <;> simp [references, foreignKeys, plainIds]
    have byProposal : table ∈ .proposals :: cloudOutbox :: proposalTables := by
      simp only [List.mem_cons, List.not_mem_nil, or_false] at listed
      rcases listed with rfl | rfl | rfl <;> decide
    exact unnamed _ reference row member (fun taken => undone (done_of_taken byProposal taken)) job there
      (ofJob ends) jobId named key
  · intro event member
    refine ⟨?_, ?_⟩
    · rintro ⟨id, named, ends⟩
      have ⟨p, there, named', _⟩ := ends
      exact unnamed ⟨attentionEvents, Row.proposalId, .proposals⟩ (by simp [references, plainIds]) event member
        attention_not_taken p there (.proposal ⟨id, named', ends⟩) id named named'
    · rintro jobId named ⟨job, there, key, ends⟩
      exact unnamed ⟨attentionEvents, Row.jobId, writebackJobs⟩ (by simp [references, plainIds]) event member
        attention_not_taken job there (ofJob ends) jobId named key

end

/-! ### Runs of the store -/

/-- The writes of the store that matter here. Every INSERT and UPDATE is of one row. -/
inductive Event where
  | write (table : ExportedTable) (row : Row)
  | compactCloudOutbox (acknowledgedBefore : String)
  | discardReservations (createdBefore : String)
  | pruneBefore (cutoffIso : String) (dryRun : Option Bool)

def compacted (acknowledgedBefore : String) (row : Row) : Bool :=
  decide (row.status = some "acknowledged") && row.acknowledgedAt.any fun time => decide (time < acknowledgedBefore)

/-- A refused write leaves the store as it is. -/
def step (s : Store) : Event → Store
  | .write table row => (schema.upsert s table row).getD s
  | .compactCloudOutbox acknowledgedBefore => (schema.deleteWhere s cloudOutbox (compacted acknowledgedBefore)).getD s
  | .discardReservations createdBefore =>
    (schema.deleteWhere s (.record .exploreBudgetReservations) (before createdBefore)).getD s
  | .pruneBefore cutoffIso dryRun => (pruneBefore s cutoffIso dryRun).2

def emptyStore : Store := fun _ => []

def Reachable (s : Store) : Prop := ∃ events, s = Runs.run step emptyStore events

theorem pruneBefore_dry (s : Store) (cutoffIso : String) {dryRun : Option Bool} (dry : dryRun ≠ some false) :
    pruneBefore s cutoffIso dryRun = (.ok ⟨cutoffIso, true, counts s (statements s cutoffIso)⟩, s) := by
  simp [pruneBefore, dry, runs_dry]

theorem pruneBefore_frees {s : Store} {cutoffIso : String} (frees : schema.Frees (deletions (statements s cutoffIso)) s) :
    pruneBefore s cutoffIso (some false) =
      (.ok ⟨cutoffIso, false, counts s (statements s cutoffIso)⟩, pruned s cutoffIso) := by
  have deleted := (schema.deleteEach_eq_some (statements_ordered s cutoffIso)).mpr ⟨frees, rfl⟩
  simp [pruneBefore, runs_real _ (statements_distinct s cutoffIso), deleted, pruned]

/-- A FOREIGN KEY that a deletion would break rolls the whole transaction back. -/
theorem pruneBefore_blocked {s : Store} {cutoffIso : String}
    (blocked : ¬ schema.Frees (deletions (statements s cutoffIso)) s) :
    pruneBefore s cutoffIso (some false) = (.error "FOREIGN KEY constraint failed", s) := by
  have refused : schema.deleteEach (deletions (statements s cutoffIso)) s = none := by
    rw [Option.eq_none_iff_forall_ne_some]
    intro s' deleted
    exact blocked ((schema.deleteEach_eq_some (statements_ordered s cutoffIso)).mp deleted).1
  simp [pruneBefore, runs_real _ (statements_distinct s cutoffIso), refused]

theorem pruneBefore_consistent {s : Store} (consistent : schema.Consistent s) (cutoffIso : String) (dryRun : Option Bool) :
    schema.Consistent (pruneBefore s cutoffIso dryRun).2 := by
  by_cases dry : dryRun = some false
  · subst dry
    by_cases frees : schema.Frees (deletions (statements s cutoffIso)) s
    · rw [pruneBefore_frees frees]
      exact schema.deleteEach_consistent consistent
        ((schema.deleteEach_eq_some (statements_ordered s cutoffIso)).mpr ⟨frees, rfl⟩)
    · rw [pruneBefore_blocked frees]
      exact consistent
  · rw [pruneBefore_dry s cutoffIso dry]
    exact consistent

theorem getD_consistent {s : Store} (consistent : schema.Consistent s) {written : Option Store}
    (keeps : ∀ s', written = some s' → schema.Consistent s') : schema.Consistent (written.getD s) := by
  cases written with
  | none => exact consistent
  | some s' => exact keeps s' rfl

theorem step_consistent (s : Store) (e : Event) (consistent : schema.Consistent s) : schema.Consistent (step s e) := by
  cases e with
  | write table row => exact getD_consistent consistent fun _ => schema.upsert_consistent consistent
  | compactCloudOutbox acknowledgedBefore =>
    simp only [step]
    exact getD_consistent consistent fun _ => schema.deleteWhere_consistent consistent
  | discardReservations createdBefore =>
    simp only [step]
    exact getD_consistent consistent fun _ => schema.deleteWhere_consistent consistent
  | pruneBefore cutoffIso dryRun => exact pruneBefore_consistent consistent cutoffIso dryRun

theorem reachable_consistent {s : Store} (reachable : Reachable s) : schema.Consistent s := by
  obtain ⟨events, rfl⟩ := reachable
  exact Runs.invariant schema.Consistent step_consistent schema.consistent_empty events

/-! ### When the clean-up is safe -/

theorem find_counts (s : Store) {l : List Statement} (distinct : (l.map Prod.fst).Nodup) (table : ExportedTable) :
    (KeyedMap.find table (counts s l)).getD 0 = (s table).countP (selects (deletions l) table) := by
  have keys : (counts s l).map Prod.fst = l.map Prod.fst := by simp [counts, Function.comp_def]
  by_cases listed : table ∈ l.map Prod.fst
  · obtain ⟨statement, member, rfl⟩ := List.mem_map.mp listed
    have noted : (statement.1, (s statement.1).countP (condition statement)) ∈ counts s l := List.mem_map_of_mem member
    have deletion : (statement.1, condition statement) ∈ deletions l := List.mem_map_of_mem member
    rw [KeyedMap.find_of_mem (by rw [keys]; exact distinct) noted,
      selects_eq (by rw [deletions_tables]; exact distinct) deletion, Option.getD_some]
  · have unselected : ∀ row, selects (deletions l) table row = false := by
      intro row
      rw [selects, List.any_eq_false]
      intro d member selected
      refine listed ?_
      rw [← deletions_tables]
      exact List.mem_map.mpr ⟨d, member, of_decide_eq_true (Bool.and_eq_true_iff.mp selected).1⟩
    rw [KeyedMap.find_eq_none.mpr (by rw [keys]; exact listed), Option.getD_none, eq_comm]
    exact List.countP_eq_zero.mpr fun row _ => by simp [unselected row]

/-- The numbers of a dry run are those of the rows that a real run deletes. -/
theorem counted_pruned (s : Store) (cutoffIso : String) :
    Counted s (pruned s cutoffIso) (counts s (statements s cutoffIso)) := by
  intro table
  rw [find_counts s (statements_distinct s cutoffIso)]
  exact length_without _ s table

/-- A run that was rolled back deletes no row, though it selected some. -/
theorem not_counted_blocked {s : Store} {cutoffIso : String}
    (blocked : ¬ schema.Frees (deletions (statements s cutoffIso)) s) :
    ¬ Counted s s (counts s (statements s cutoffIso)) := by
  refine fun counted => blocked fun r _ row _ _ gone there taken => ?_
  have none' := counted r.parent
  rw [find_counts s (statements_distinct s cutoffIso)] at none'
  have zero : (s r.parent).countP (selects (deletions (statements s cutoffIso)) r.parent) = 0 := by omega
  exact absurd taken (List.countP_eq_zero.mp zero gone there)

theorem frees_of_leaves {s : Store} {cutoffIso : String} (leaves : LeavesNoReference s (pruned s cutoffIso)) :
    schema.Frees (deletions (statements s cutoffIso)) s := by
  intro r listed row member kept gone there taken
  refine leaves r (List.mem_append_left _ listed) row (mem_without.mpr ⟨member, by simp [kept]⟩) gone there fun left => ?_
  exact (mem_without.mp left).2 taken

/-- The clean-up keeps what the retained proposals need, leaves nothing that names a
    deleted row and deletes as many rows as its dry run says exactly when the proposals
    that ended before the date can be told from the rest of the store. -/
theorem prunes_safely_iff {s : Store} (reachable : Reachable s) (cutoffIso : String) :
    PrunesSafely s cutoffIso ↔ Separate s cutoffIso := by
  have consistent := reachable_consistent reachable
  unfold PrunesSafely
  rw [pruneBefore_dry s cutoffIso (by decide)]
  constructor
  · rintro ⟨result, result', keeps, leaves, counted⟩
    obtain rfl := Except.ok.inj result'
    by_cases frees : schema.Frees (deletions (statements s cutoffIso)) s
    · rw [pruneBefore_frees frees] at keeps leaves
      exact separate_of_pruned consistent keeps leaves
    · rw [pruneBefore_blocked frees] at counted
      exact absurd counted (not_counted_blocked frees)
  · intro separate
    have leaves := leaves_of_separate consistent separate
    rw [pruneBefore_frees (frees_of_leaves leaves)]
    exact ⟨_, rfl, keeps_of_separate consistent separate, leaves, counted_pruned s cutoffIso⟩

/-! ### A proposal that waits for its review -/

def blankRow : Row := ⟨none, none, none, none, none, none, none, none, none, none⟩

/-- The rows of a proposal from June 20 with a bundle of one item. -/
def waitingProposal : Row :=
  { blankRow with
    proposalId := some "wrp_123"
    changeSetBundleId := some "ev_123"
    state := some "pending_review"
    createdAt := some "2026-06-20T00:00:00.000Z" }

def itsBundle : Row :=
  { blankRow with
    proposalId := some "wrp_123"
    evidenceBundleId := some "ev_123"
    createdAt := some "2026-06-20T00:00:00.000Z" }

def itsItem : Row :=
  { blankRow with
    rowId := some "1"
    evidenceBundleId := some "ev_123"
    createdAt := some "2026-06-20T00:00:00.000Z" }

def waitingRun : List Event :=
  [.write .proposals waitingProposal, .write evidenceBundles itsBundle, .write evidenceItems itsItem]

def waitingStore : Store := Runs.run step emptyStore waitingRun

def june21 : String := "2026-06-21T00:00:00.000Z"

/-- The clean-up of June 21 takes the evidence of the proposal that waits for its review. -/
theorem evidence_of_waiting_proposal_pruned : ¬ ∀ s, Reachable s → ∀ cutoffIso, PrunesSafely s cutoffIso := by
  intro safely
  obtain ⟨-, -, keeps, -, -⟩ := safely waitingStore ⟨waitingRun, rfl⟩ june21
  have retained : (pruneBefore waitingStore june21 (some false)).2 .proposals = [waitingProposal] := by decide
  have gone : (pruneBefore waitingStore june21 (some false)).2 evidenceBundles = [] := by decide
  have there : waitingStore evidenceBundles = [itsBundle] := by decide
  have kept := keeps waitingProposal (by simp [retained]) "wrp_123" rfl evidenceBundles itsBundle (by simp [there])
    (.inl ⟨by decide, .inl rfl⟩)
  rw [gone] at kept
  cases kept

/-- A proposal that was rejected, with its bundle. The bundle of the one that waits is
    from June 22. -/
def rejectedProposal : Row :=
  { waitingProposal with
    proposalId := some "wrp_terminal"
    changeSetBundleId := some "ev_terminal"
    state := some "rejected" }

def rejectedBundle : Row := { itsBundle with proposalId := some "wrp_terminal", evidenceBundleId := some "ev_terminal" }

def laterBundle : Row := { itsBundle with createdAt := some "2026-06-22T00:00:00.000Z" }

def rejectedRun : List Event :=
  [.write .proposals waitingProposal, .write .proposals rejectedProposal, .write evidenceBundles rejectedBundle,
    .write evidenceBundles laterBundle]

def rejectedStore : Store := Runs.run step emptyStore rejectedRun

theorem rejectedStore_separate : Separate rejectedStore june21 := by
  have proposals : rejectedStore .proposals = [waitingProposal, rejectedProposal] := by decide
  have bundles : rejectedStore evidenceBundles = [rejectedBundle, laterBundle] := by decide
  have ends : Ended rejectedStore june21 "wrp_terminal" :=
    ⟨rejectedProposal, by simp [proposals], rfl, by decide⟩
  have empty : ∀ table ∈ [queryAudit, shadowStudyCases, attentionEvents, .record .idempotencyReceipts,
      .record .writebackReceipts, .writebackIntents], rejectedStore table = [] := by decide
  refine ⟨?_, ?_, ?_, ?_, ?_, ?_⟩
  · intro bundle member old id named
    rw [bundles] at member
    simp only [List.mem_cons, List.not_mem_nil, or_false] at member
    rcases member with rfl | rfl
    · obtain rfl : "wrp_terminal" = id := Option.some.inj named
      exact ends
    · exact absurd old (by decide)
  · simp [empty queryAudit (by simp)]
  · simp [empty shadowStudyCases (by simp)]
  · intro p member bundleId named discarded
    rw [proposals] at member
    simp only [List.mem_cons, List.not_mem_nil, or_false] at member
    rcases member with rfl | rfl
    · obtain ⟨bundle, member', key, taken⟩ := discarded
      obtain rfl : "ev_123" = bundleId := Option.some.inj named
      rw [bundles] at member'
      simp only [List.mem_cons, List.not_mem_nil, or_false] at member'
      rcases member' with rfl | rfl
      · exact absurd key (by decide)
      · rcases taken with old | ⟨id, named', p', there, named'', ends'⟩
        · exact absurd old (by decide)
        · obtain rfl : "wrp_123" = id := Option.some.inj named'
          rw [proposals] at there
          simp only [List.mem_cons, List.not_mem_nil, or_false] at there
          rcases there with rfl | rfl
          · exact absurd ends' (by decide)
          · exact absurd named'' (by decide)
    · exact ⟨"wrp_terminal", rfl, ends⟩
  · intro table listed row member
    rw [empty table (by simp only [List.mem_cons] at listed ⊢; tauto)] at member
    cases member
  · simp [empty attentionEvents (by simp)]

theorem rejected_prunes_safely : PrunesSafely rejectedStore june21 :=
  (prunes_safely_iff ⟨rejectedRun, rfl⟩ _).mpr rejectedStore_separate

end SynapsorRunner.StorePruning
