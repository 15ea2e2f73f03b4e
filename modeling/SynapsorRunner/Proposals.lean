import SynapsorRunner.Protocol

/-!
Stored proposals and the writeback jobs built from them. A change set is what
was reviewed: the source row or frozen set, the patch and the guards. An approved
proposal becomes a job of the protocol version of its change set; every attempt
has its own job id and all attempts of a proposal share one idempotency key
(`createWritebackJobFromProposal_identity`).
-/
namespace SynapsorRunner.Proposals
open SynapsorRunner.Protocol

/-- What a store operation throws: a `ProposalStoreError` with its stable code
    and text, the issues of a schema, or a violated constraint of the database. -/
inductive StoreError where
  | proposalStore (code message : String)
  | schema (issues : List Issue)
  | constraint (column : String)
  deriving DecidableEq, Repr

/-- Throw unless a check holds. -/
def ensure (holds : Prop) [Decidable holds] (error : StoreError) : Except StoreError Unit :=
  if holds then .ok () else .error error

@[simp] theorem ensure_ok_iff {holds : Prop} [Decidable holds] {error : StoreError} {u : Unit} :
    ensure holds error = .ok u ↔ holds := by
  unfold ensure
  split <;> simp [*]

theorem bind_eq_ok {ε α β : Type} {x : Except ε α} {f : α → Except ε β} {b : β} (run : x >>= f = .ok b) :
    ∃ a, x = .ok a ∧ f a = .ok b := by
  cases x with
  | error e => cases run
  | ok a => exact ⟨a, rfl, run⟩

/-! ### Change sets -/

inductive ChangeSetMode where
  | readOnly
  | shadow
  | reviewRequired
  | approvedForWriteback
  deriving DecidableEq, Repr

inductive SourceKind where
  | externalPostgres
  | externalMysql
  | synapsorTable
  deriving DecidableEq, Repr

def SourceKind.text : SourceKind → String
  | .externalPostgres => "external_postgres"
  | .externalMysql => "external_mysql"
  | .synapsorTable => "synapsor_table"

inductive WritebackMode where
  | trustedWorkerRequired
  | synapsorMerge
  | readOnly
  deriving DecidableEq, Repr

def WritebackMode.text : WritebackMode → String
  | .trustedWorkerRequired => "trusted_worker_required"
  | .synapsorMerge => "synapsor_merge"
  | .readOnly => "read_only"

structure ChangeSetSource where
  kind : SourceKind
  sourceId : String
  schema : String
  table : String
  primaryKey : PrimaryKeyTarget
  deriving DecidableEq, Repr

structure ChangeSetGuards where
  tenant : ColumnValue
  principalScope : Option PrincipalScopeGuard
  allowedColumns : List Column
  expectedVersion : Option ColumnValue
  versionAdvance : Option VersionAdvance
  deduplication : Option (List DeduplicationComponent)
  deriving DecidableEq, Repr

/-- The part of a change set that depends on its schema version. -/
inductive ChangeSetBody where
  | v1
  | v2 (operation : RowOperation) (reversibility : Option ReversalLineage)
  | v3 (operation : SetOperation) (frozenSet : FrozenSet) (reversibility : Option ReversalLineage)
  | compensation (descriptor : InverseDescriptor) (forwardReceiptHash : Digest)
  deriving DecidableEq

structure ChangeSet where
  proposalId : String
  mode : ChangeSetMode
  source : ChangeSetSource
  before : Record
  patch : Record
  after : Record
  guards : ChangeSetGuards
  freshness : Option FreshnessAuthority
  requiredApprovals : Option Nat
  writebackMode : WritebackMode
  writebackExecutor : Option String
  body : ChangeSetBody
  deriving DecidableEq

/-! ### Stored proposals -/

/-- `LocalProposalState`. -/
inductive ProposalState where
  | pendingReview
  | approved
  | rejected
  | canceled
  | pendingWorker
  | applied
  | conflict
  | failed
  | reconciliationRequired
  deriving DecidableEq, Repr, Inhabited

def ProposalState.text : ProposalState → String
  | .pendingReview => "pending_review"
  | .approved => "approved"
  | .rejected => "rejected"
  | .canceled => "canceled"
  | .pendingWorker => "pending_worker"
  | .applied => "applied"
  | .conflict => "conflict"
  | .failed => "failed"
  | .reconciliationRequired => "reconciliation_required"

structure StoredProposal where
  proposalId : String
  proposalVersion : Nat
  proposalHash : String
  state : ProposalState
  tenantId : String
  businessObject : String
  objectId : String
  action : String
  sourceId : String
  sourceSchema : String
  sourceTable : String
  changeSet : ChangeSet
  deriving DecidableEq

/-- `requiredApprovalCount`: the reviewed quorum, at least one. A number outside
    the safe integers counts as one. -/
def requiredApprovalCount (proposal : StoredProposal) : Nat :=
  match proposal.changeSet.requiredApprovals with
  | some configured => if 1 ≤ configured ∧ configured ≤ 9007199254740991 then configured else 1
  | none => 1

def assertWritebackAllowed (proposal : StoredProposal) (operation : String) : Except StoreError Unit :=
  match proposal.changeSet.mode with
  | .shadow => .error (.proposalStore "SHADOW_WRITEBACK_DISABLED" ("shadow proposal " ++ proposal.proposalId ++ " cannot be " ++ operation ++
      "; shadow mode stores proposals, evidence, query audit, and replay only and never mutates the source database"))
  | .readOnly => .error (.proposalStore "READ_ONLY_WRITEBACK_DISABLED" ("read-only proposal " ++ proposal.proposalId ++ " cannot be " ++
      operation ++ "; read-only mode does not allow proposal writeback"))
  | _ => .ok ()

def assertProposalIdentity (proposal : StoredProposal) (hash : String) (version : Nat) : Except StoreError Unit :=
  if proposal.proposalHash ≠ hash then
    .error (.proposalStore "PROPOSAL_HASH_MISMATCH" ("proposal " ++ proposal.proposalId ++ " hash mismatch"))
  else if proposal.proposalVersion ≠ version then
    .error (.proposalStore "PROPOSAL_VERSION_MISMATCH" ("proposal " ++ proposal.proposalId ++ " version mismatch"))
  else .ok ()

/-- A proposal whose mode lets it reach the source. -/
def WritebackAllowed (proposal : StoredProposal) : Prop :=
  proposal.changeSet.mode ≠ .shadow ∧ proposal.changeSet.mode ≠ .readOnly

instance (proposal : StoredProposal) : Decidable (WritebackAllowed proposal) :=
  inferInstanceAs (Decidable (_ ∧ _))

theorem assertWritebackAllowed_ok_iff {proposal : StoredProposal} (operation : String) :
    assertWritebackAllowed proposal operation = .ok () ↔ WritebackAllowed proposal := by
  unfold assertWritebackAllowed WritebackAllowed
  cases proposal.changeSet.mode <;> simp

theorem assertProposalIdentity_ok_iff {proposal : StoredProposal} {hash : String} {version : Nat} :
    assertProposalIdentity proposal hash version = .ok () ↔
      proposal.proposalHash = hash ∧ proposal.proposalVersion = version := by
  unfold assertProposalIdentity
  split
  · rename_i differs
    simp [differs]
  · rename_i same
    split
    · rename_i differs
      simp [differs]
    · rename_i sameVersion
      simp only [not_not] at same sameVersion
      simp [same, sameVersion]

/-! ### Inverse capture -/

/-- `[...new Set(columns)].sort()`; the sort is that of the column names. -/
def sortedColumns (columns : List Column) : List Column := columns.dedup.mergeSort fun a b => decide (a ≤ b)

/-- `selectReviewedState`. -/
def selectReviewedState (value : Record) (columns : List Column) : Record :=
  KeyedMap.ofList ((sortedColumns columns).filterMap fun column => (value.get? column).map fun item => (column, item))

def hardDeleteReasons : List String :=
  ["HARD_DELETE_HIDDEN_STATE_NOT_RESTORABLE", "HARD_DELETE_SIDE_EFFECTS_NOT_REVERSIBLE"]

/-- The version guard that a reversible update needs. -/
def reversibleVersion (changeSet : ChangeSet) : Except StoreError VersionAdvance :=
  match changeSet.guards.versionAdvance with
  | some ⟨column, .integerIncrement⟩ => .ok ⟨column, .integerIncrement⟩
  | _ => .error (.proposalStore "REVERSIBILITY_INTEGER_VERSION_REQUIRED"
      ("reversible proposal " ++ changeSet.proposalId ++ " requires integer version advancement"))

/-- `inverseCaptureFromChangeSet`: the inverse that the reviewed change set
    determines before its job runs. -/
def inverseCaptureFromChangeSet (changeSet : ChangeSet) (writebackJobId : String) :
    Except StoreError (Option InverseDescriptor) :=
  let base (cardinality : Cardinality) (lineage : ReversalLineage) : InverseDescriptor :=
    { availability := .available, reasonCodes := [], operation := .removeInsert, cardinality
      forwardProposalId := changeSet.proposalId, forwardWritebackJobId := writebackJobId
      target := ⟨changeSet.source.sourceId, changeSet.source.schema, changeSet.source.table,
        changeSet.source.primaryKey.column⟩
      tenantGuard := changeSet.guards.tenant, principalScope := changeSet.guards.principalScope
      allowedColumns := changeSet.guards.allowedColumns, members := [], maxRows := 1, aggregateBounds := []
      versionAdvance := none, lineage }
  let guardColumns := changeSet.source.primaryKey.column :: changeSet.guards.tenant.column ::
    (changeSet.guards.principalScope.map (·.column)).toList
  match changeSet.body with
  | .v2 operation (some lineage) =>
    match changeSet.source.primaryKey.value with
    | none => .error (.proposalStore "REVERSIBILITY_PRIMARY_KEY_REQUIRED"
        ("reversible proposal " ++ changeSet.proposalId ++ " has no deterministic primary-key identity"))
    | some primaryValue =>
      let primaryKey : ColumnValue := ⟨changeSet.source.primaryKey.column, primaryValue⟩
      match operation with
      | .delete => .ok (some { base .single lineage with
          availability := .bestEffortUnavailable, reasonCodes := hardDeleteReasons, operation := .restoreInsert
          members := [⟨primaryKey, .empty, none⟩] })
      | .insert => .ok (some { base .single lineage with
          members := [⟨primaryKey,
            selectReviewedState changeSet.after (guardColumns ++ changeSet.guards.allowedColumns), none⟩] })
      | .update => do
        let version ← reversibleVersion changeSet
        pure (some { base .single lineage with
          operation := .restoreUpdate
          members := [⟨primaryKey,
            selectReviewedState changeSet.after (changeSet.guards.allowedColumns ++ [version.column]),
            some (selectReviewedState changeSet.before changeSet.guards.allowedColumns)⟩]
          versionAdvance := some version })
  | .v3 operation set (some lineage) =>
    let bounded : InverseDescriptor :=
      { base .set lineage with maxRows := set.maxRows, aggregateBounds := set.aggregateBounds }
    match operation with
    | .delete => .ok (some { bounded with
        availability := .bestEffortUnavailable, reasonCodes := hardDeleteReasons, operation := .restoreInsert
        members := set.members.map fun m => ⟨m.primaryKey, .empty, none⟩ })
    | .batchInsert => .ok (some { bounded with
        members := set.members.map fun m => ⟨m.primaryKey, selectReviewedState m.after
          (changeSet.source.primaryKey.column :: changeSet.guards.tenant.column :: changeSet.guards.allowedColumns),
          none⟩ })
    | .update => do
      let version ← reversibleVersion changeSet
      pure (some { bounded with
        operation := .restoreUpdate
        members := set.members.map fun m => ⟨m.primaryKey,
          selectReviewedState m.after (changeSet.guards.allowedColumns ++ [version.column]),
          some (selectReviewedState m.before changeSet.guards.allowedColumns)⟩
        versionAdvance := some version })
  | _ => .ok none

/-! ### Jobs of a proposal -/

/-- `replace(/[^A-Za-z0-9_:-]/g, "_")`. The expression matches UTF-16 code units,
    of which a character past the basic plane has two. -/
def sanitizedId (proposalId : String) : String :=
  String.ofList (proposalId.toList.flatMap fun c =>
    if c.isAlphanum || c == '_' || c == ':' || c == '-' then [c]
    else if c.toNat > 0xFFFF then ['_', '_'] else ['_'])

/-- `Math.max(1, Math.min(attempt, 100))`. -/
def clampedAttempt (attempt : Nat) : Nat := max 1 (min attempt 100)

def writebackJobId (proposalId : String) (attempt : Nat) : String :=
  "wbj_" ++ sanitizedId proposalId ++ (if clampedAttempt attempt > 1 then "_a" ++ toString (clampedAttempt attempt) else "")

/-- The issues that the public schema of a job's version raises, on the job's
    normalized form. -/
def publicJobIssues (platform : Platform) : WritebackJob → List Issue
  | .v1 job => legacyJobIssues job
  | .v2 job => rowJobIssues job
  | .v3 job =>
    frozenSetIssues platform job.frozenSet ++
    validateFreshnessBinding job.freshness job.sourceId job.engine
      (if job.operation = .batchInsert then .notApplicable else .frozenSet)
      (if job.operation = .batchInsert then 0 else job.frozenSet.rowCount)
  | .v4 job =>
    issueIf (decide (job.compensation.availability ≠ .available)) "compensation job requires an available inverse"
      [.key "compensation", .key "availability"] ++
    issueIf (decide (job.compensation.target.sourceId ≠ job.sourceId)) "compensation source must match runner scope"
      [.key "compensation", .key "target", .key "source_id"] ++
    issueIf (decide (job.operation ≠ job.compensation.operation ∨ job.target.schema ≠ job.compensation.target.schema ∨
        job.target.table ≠ job.compensation.target.table ∨
        job.target.primaryKey.column ≠ job.compensation.target.primaryKeyColumn ∨
        job.target.tenantGuard ≠ job.compensation.tenantGuard))
      "compensation public authority must match descriptor" [.key "compensation"] ++
    issueIf (decide (job.target.principalScope ≠ job.compensation.principalScope))
      "compensation principal authority must match descriptor" [.key "compensation", .key "principal_scope"]

/-- `conflictGuardFromChangeSet`, in normalized form. -/
def conflictGuardFromChangeSet (changeSet : ChangeSet) : ConflictGuard :=
  match changeSet.body, changeSet.guards.expectedVersion with
  | .v3 _ _ _, _ => .none
  | .compensation _ _, _ => .none
  | _, none => .none
  | _, some ⟨column, value⟩ =>
    if column = "__row_hash" then
      .rowHash (match value with
        | .null => "null"
        | .bool b => toString b
        | .num n => toString n
        | .str s => s)
    else if column = "" ∨ value = .null then .none
    else .versionColumn column value

/-- The job that a change set and its header determine. `writebackMutationFromChangeSet`
    is the case of version 2. -/
def jobFromChangeSet (changeSet : ChangeSet) (header : JobHeader) (inverseCapture : Option InverseDescriptor) :
    Except StoreError WritebackJob :=
  match changeSet.body with
  | .v1 => .ok (.v1 { header with
      patch := changeSet.patch, conflictGuard := conflictGuardFromChangeSet changeSet, freshness := changeSet.freshness })
  | .v2 operation _ =>
    let job (patch : Record) (guard : ConflictGuard) (version : Option VersionAdvance)
        (deduplication : Option (List DeduplicationComponent)) : WritebackJob :=
      .v2 { header with
        operation, patch, conflictGuard := guard, freshness := changeSet.freshness, versionAdvance := version
        deduplication, inverseCapture }
    match operation, changeSet.guards.deduplication, changeSet.guards.expectedVersion with
    | .insert, none, _ => .error (.proposalStore "INSERT_DEDUPLICATION_REQUIRED"
        ("proposal " ++ changeSet.proposalId ++ " has no resolved deduplication identity"))
    | .insert, some components, _ => .ok (job changeSet.patch .none none (some components))
    | _, _, none => .error (.proposalStore "CONFLICT_GUARD_REQUIRED" ("proposal " ++ changeSet.proposalId ++ " has no exact version guard"))
    | .delete, _, some guard => .ok (job .empty (.versionColumn guard.column guard.value) none none)
    | .update, _, some guard =>
      .ok (job changeSet.patch (.versionColumn guard.column guard.value) changeSet.guards.versionAdvance none)
  | .v3 operation frozenSet _ => .ok (.v3 { header with
      operation, patch := changeSet.patch, freshness := changeSet.freshness
      versionAdvance := changeSet.guards.versionAdvance, frozenSet, inverseCapture
      target := { header.target with primaryKey := { header.target.primaryKey with value := none } } })
  | .compensation descriptor forwardReceiptHash => .ok (.v4 { header with
      operation := descriptor.operation, compensation := descriptor, forwardReceiptHash
      target := { header.target with primaryKey := ⟨header.target.primaryKey.column, match descriptor.members with
        | [member] => some member.primaryKey.value
        | _ => none⟩ } })

/-- The header of the job of an attempt. -/
def jobHeader (proposal : StoredProposal) (engine : Engine) (attempt : Nat) : JobHeader :=
  { jobId := writebackJobId proposal.proposalId attempt
    proposalId := proposal.proposalId
    approvalId := proposal.proposalHash
    sourceId := proposal.sourceId
    engine
    target := ⟨proposal.sourceSchema, proposal.sourceTable, proposal.changeSet.source.primaryKey,
      proposal.changeSet.guards.tenant, proposal.changeSet.guards.principalScope⟩
    allowedColumns := proposal.changeSet.guards.allowedColumns
    idempotencyKey := proposal.proposalId ++ ":" ++ proposal.objectId
    attemptCount := clampedAttempt attempt }

/-- The engine of an external source. -/
def writebackEngine (proposal : StoredProposal) : Except StoreError Engine :=
  match proposal.changeSet.source.kind with
  | .externalPostgres => .ok .postgres
  | .externalMysql => .ok .mysql
  | .synapsorTable => .error (.proposalStore "WRITEBACK_TARGET_NOT_EXTERNAL"
      ("proposal " ++ proposal.proposalId ++ " targets " ++ proposal.changeSet.source.kind.text))

/-- The checks of `createWritebackJobFromProposal` before it builds the job. -/
def assertWritebackJobBuildable (proposal : StoredProposal) : Except StoreError Engine := do
  assertWritebackAllowed proposal "converted into a writeback job"
  ensure (proposal.state = .approved ∨ proposal.state = .pendingWorker)
    (.proposalStore "PROPOSAL_NOT_APPROVED" ("proposal " ++ proposal.proposalId ++ " is " ++ proposal.state.text))
  ensure (proposal.changeSet.writebackMode = .trustedWorkerRequired)
    (.proposalStore "WRITEBACK_NOT_REQUIRED"
      ("proposal " ++ proposal.proposalId ++ " uses " ++ proposal.changeSet.writebackMode.text))
  ensure (∀ executor ∈ proposal.changeSet.writebackExecutor,
      executor = "sql_update" ∨ executor = "trusted_worker_required")
    (.proposalStore "WRITEBACK_NOT_DIRECT_SQL"
      ("proposal " ++ proposal.proposalId ++ " uses app-owned or non-local writeback executor " ++
        proposal.changeSet.writebackExecutor.getD ""))
  writebackEngine proposal

/-- The job of `createWritebackJobFromProposal`, as `parseWritebackJob` normalizes
    it. -/
def createWritebackJobFromProposal (platform : Platform) (proposal : StoredProposal) (attempt : Nat) :
    Except StoreError WritebackJob := do
  let engine ← assertWritebackJobBuildable proposal
  let inverseCapture ← inverseCaptureFromChangeSet proposal.changeSet (writebackJobId proposal.proposalId attempt)
  let job ← jobFromChangeSet proposal.changeSet (jobHeader proposal engine attempt) inverseCapture
  ensure (jobFields platform job ∧ publicJobIssues platform job = []) (.schema (publicJobIssues platform job))
  pure job

/-- What identifies a job in the intent stores. -/
structure JobIdentity where
  jobId : String
  idempotencyKey : String
  proposalId : String
  approvalId : String
  deriving DecidableEq, Repr

def jobIdentity (job : WritebackJob) : JobIdentity := ⟨job.jobId, job.idempotencyKey, job.proposalId, job.approvalId⟩

/-- The identity of the job of an attempt. -/
def attemptIdentity (proposal : StoredProposal) (attempt : Nat) : JobIdentity :=
  ⟨writebackJobId proposal.proposalId attempt, proposal.proposalId ++ ":" ++ proposal.objectId, proposal.proposalId,
    proposal.proposalHash⟩

theorem jobFromChangeSet_identity {changeSet : ChangeSet} {header : JobHeader} {inverse : Option InverseDescriptor}
    {job : WritebackJob} (built : jobFromChangeSet changeSet header inverse = .ok job) :
    jobIdentity job = ⟨header.jobId, header.idempotencyKey, header.proposalId, header.approvalId⟩ := by
  unfold jobFromChangeSet at built
  split at built
  · cases built; rfl
  · dsimp only at built
    split at built <;> cases built <;> rfl
  · cases built; rfl
  · cases built; rfl

/-- The job of an attempt has the identity of the attempt. -/
theorem createWritebackJobFromProposal_identity {platform : Platform} {proposal : StoredProposal} {attempt : Nat}
    {job : WritebackJob} (created : createWritebackJobFromProposal platform proposal attempt = .ok job) :
    jobIdentity job = attemptIdentity proposal attempt := by
  obtain ⟨engine, _, rest⟩ := bind_eq_ok created
  obtain ⟨inverse, _, rest⟩ := bind_eq_ok rest
  obtain ⟨built, fromChangeSet, rest⟩ := bind_eq_ok rest
  obtain ⟨_, _, rest⟩ := bind_eq_ok rest
  cases rest
  exact jobFromChangeSet_identity fromChangeSet

/-- A proposal that becomes a job is approved, by its mode too. -/
theorem createWritebackJobFromProposal_allowed {platform : Platform} {proposal : StoredProposal} {attempt : Nat}
    {job : WritebackJob} (created : createWritebackJobFromProposal platform proposal attempt = .ok job) :
    WritebackAllowed proposal := by
  obtain ⟨engine, checked, _⟩ := bind_eq_ok created
  obtain ⟨_, allowed, _⟩ := bind_eq_ok checked
  exact (assertWritebackAllowed_ok_iff _).mp allowed

end SynapsorRunner.Proposals
