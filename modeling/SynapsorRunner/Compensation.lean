import Mathlib.Data.List.Dedup
import Mathlib.Data.List.Perm.Subperm
import SynapsorRunner.Proposals

/-!
Compensation jobs: the check that binds a job to its inverse descriptor
(`assertCompensationJobIntegrity`), and the inverse of an applied compensation
(`compensationInverseFromJob`). The inverse repeats the target, the tenant guard
and the columns of the descriptor but not its principal scope, so it reaches no
more than its job exactly when the job has no principal scope
(`inverse_sameAuthority_iff`).
-/
namespace SynapsorRunner.Compensation
open SynapsorRunner.Protocol SynapsorRunner.Proposals

/-- `throw new Error(code)` when a check fails. -/
def throwIf (broken : Prop) [Decidable broken] (code : String) : Except String Unit :=
  if broken then .error code else .ok ()

@[simp] theorem throwIf_ok_iff {broken : Prop} [Decidable broken] {code : String} {u : Unit} :
    throwIf broken code = .ok u ↔ ¬ broken := by
  unfold throwIf
  split <;> simp [*]

/-- A check of every element of a list, in order. -/
def checkEach {α ε : Type} (check : α → Except ε Unit) : List α → Except ε Unit
  | [] => .ok ()
  | a :: rest => do
    check a
    checkEach check rest

theorem checkEach_ok_iff {α ε : Type} {check : α → Except ε Unit} {l : List α} :
    checkEach check l = .ok () ↔ ∀ a ∈ l, check a = .ok () := by
  induction l with
  | nil => simp [checkEach]
  | cons a rest ih =>
    simp only [checkEach, List.mem_cons, forall_eq_or_imp, ← ih]
    cases check a with
    | error e => simp [bind, Except.bind]
    | ok u => simp [bind, Except.bind]

/-- `typeof record[column] === "number"`, with the number. -/
def numberAt (r : Record) (column : Column) : Option Rat :=
  match r.get? column with
  | some (.num n) => some n
  | _ => none

/-- The checks of `assertCompensationJobIntegrity` on one member. -/
def assertCompensationMember (job : CompensationJob) (member : InverseMember) : Except String Unit := do
  throwIf (member.primaryKey.column ≠ job.target.primaryKey.column) "COMPENSATION_PRIMARY_KEY_MISMATCH"
  match job.operation with
  | .restoreUpdate => do
    throwIf (¬ job.compensation.versionAdvance.any fun v => v.strategy == .integerIncrement)
      "COMPENSATION_VERSION_GUARD_REQUIRED"
    throwIf (job.compensation.versionAdvance.all fun v => (numberAt member.expectedState v.column).isNone)
      "COMPENSATION_VERSION_GUARD_REQUIRED"
    throwIf (¬ hasFields member.restoreValues) "COMPENSATION_RESTORE_VALUES_REQUIRED"
    throwIf (∃ values ∈ member.restoreValues, ∃ column ∈ values.keys, column ∉ job.allowedColumns)
      "COMPENSATION_COLUMN_NOT_ALLOWED"
  | .removeInsert =>
    throwIf (member.expectedState.entries.isEmpty ∨ member.restoreValues.isSome) "COMPENSATION_EXPECTED_STATE_REQUIRED"
  | .restoreInsert =>
    throwIf (¬ member.expectedState.entries.isEmpty ∨ ¬ hasFields member.restoreValues)
      "COMPENSATION_RESTORE_VALUES_REQUIRED"

def assertCompensationJobIntegrity (platform : Platform) (job : CompensationJob) : Except String Unit := do
  let descriptor := job.compensation
  throwIf (descriptor.availability ≠ .available) "COMPENSATION_UNAVAILABLE"
  throwIf (descriptor.operation ≠ job.operation) "COMPENSATION_OPERATION_MISMATCH"
  throwIf (descriptor.target.sourceId ≠ job.sourceId ∨ descriptor.target.schema ≠ job.target.schema ∨
      descriptor.target.table ≠ job.target.table ∨
      descriptor.target.primaryKeyColumn ≠ job.target.primaryKey.column) "COMPENSATION_TARGET_MISMATCH"
  throwIf (descriptor.tenantGuard.column ≠ job.target.tenantGuard.column ∨
      descriptor.tenantGuard.value ≠ job.target.tenantGuard.value) "COMPENSATION_TENANT_MISMATCH"
  throwIf (descriptor.principalScope ≠ job.target.principalScope) "COMPENSATION_PRINCIPAL_SCOPE_MISMATCH"
  throwIf (descriptor.members.length < 1 ∨ descriptor.members.length > descriptor.maxRows ∨ descriptor.maxRows > 100)
    "COMPENSATION_ROW_CAP_EXCEEDED"
  throwIf (¬ descriptor.identities.Nodup) "COMPENSATION_IDENTITY_NOT_UNIQUE"
  throwIf (¬ identitiesOrdered platform descriptor.identities) "COMPENSATION_IDENTITY_ORDER_INVALID"
  throwIf (descriptor.allowedColumns.length ≠ job.allowedColumns.dedup.length ∨
      ∃ column ∈ descriptor.allowedColumns, column ∉ job.allowedColumns) "COMPENSATION_ALLOWLIST_MISMATCH"
  checkEach (assertCompensationMember job) descriptor.members

/-- What an accepted compensation job shares with its descriptor. -/
structure CompensationIntegrity (platform : Platform) (job : CompensationJob) : Prop where
  availability : job.compensation.availability = .available
  operation : job.compensation.operation = job.operation
  target : job.compensation.target = ⟨job.sourceId, job.target.schema, job.target.table, job.target.primaryKey.column⟩
  tenantGuard : job.compensation.tenantGuard = job.target.tenantGuard
  principalScope : job.compensation.principalScope = job.target.principalScope
  rows : 1 ≤ job.compensation.members.length ∧ job.compensation.members.length ≤ job.compensation.maxRows ∧
    job.compensation.maxRows ≤ 100
  identities : job.compensation.identities.Nodup
  columnCount : job.compensation.allowedColumns.length = job.allowedColumns.dedup.length
  columns : ∀ column ∈ job.compensation.allowedColumns, column ∈ job.allowedColumns
  members : ∀ member ∈ job.compensation.members, assertCompensationMember job member = .ok ()

theorem assertCompensationJobIntegrity_ok {platform : Platform} {job : CompensationJob}
    (accepted : assertCompensationJobIntegrity platform job = .ok ()) : CompensationIntegrity platform job := by
  obtain ⟨_, availability, rest⟩ := bind_eq_ok accepted
  obtain ⟨_, operation, rest⟩ := bind_eq_ok rest
  obtain ⟨_, target, rest⟩ := bind_eq_ok rest
  obtain ⟨_, tenantGuard, rest⟩ := bind_eq_ok rest
  obtain ⟨_, principalScope, rest⟩ := bind_eq_ok rest
  obtain ⟨_, rows, rest⟩ := bind_eq_ok rest
  obtain ⟨_, identities, rest⟩ := bind_eq_ok rest
  obtain ⟨_, _, rest⟩ := bind_eq_ok rest
  obtain ⟨_, columns, rest⟩ := bind_eq_ok rest
  have members := checkEach_ok_iff.mp rest
  simp only [throwIf_ok_iff, not_or, not_not, not_exists, not_and, not_lt, ne_eq, gt_iff_lt]
    at availability operation target tenantGuard principalScope rows identities columns
  refine ⟨availability, operation, ?_, ?_, principalScope, rows, identities, columns.1, columns.2, members⟩
  · obtain ⟨sourceId, schema, table, primaryKey⟩ := target
    cases descriptor : job.compensation.target
    simp only [descriptor] at sourceId schema table primaryKey
    simp [sourceId, schema, table, primaryKey]
  · cases descriptor : job.compensation.tenantGuard
    cases guard : job.target.tenantGuard
    simp only [descriptor, guard] at tenantGuard
    simp [tenantGuard.1, tenantGuard.2]

/-! ### The inverse of a compensation -/

/-- `Number(value) + 1`; what is not a number has no successor. -/
def nextVersion : Option Scalar → Scalar
  | some (.num n) => .num (n + 1)
  | _ => .null

/-- The member that takes back a restored row. -/
def restoredMember (descriptor : InverseDescriptor) (version : Column) (member : InverseMember) : InverseMember :=
  { primaryKey := member.primaryKey
    expectedState := (member.restoreValues.getD .empty).set version (nextVersion (member.expectedState.get? version))
    restoreValues := some (member.expectedState.filterKeys descriptor.allowedColumns.contains) }

/-- `compensationInverseFromJob`. -/
def compensationInverseFromJob (platform : Platform) (job : CompensationJob) : Except String InverseDescriptor := do
  assertCompensationJobIntegrity platform job
  let descriptor := job.compensation
  let depthExhausted := decide (descriptor.lineage.depth ≥ 16)
  let common : InverseDescriptor :=
    { availability := if depthExhausted then .bestEffortUnavailable else .available
      reasonCodes := if depthExhausted then ["REVERSAL_CHAIN_DEPTH_EXHAUSTED"] else []
      operation := descriptor.operation
      cardinality := descriptor.cardinality
      forwardProposalId := job.proposalId
      forwardWritebackJobId := job.jobId
      target := descriptor.target
      tenantGuard := descriptor.tenantGuard
      principalScope := none
      allowedColumns := descriptor.allowedColumns
      members := []
      maxRows := descriptor.maxRows
      aggregateBounds := descriptor.aggregateBounds
      versionAdvance := none
      lineage := if depthExhausted then descriptor.lineage
        else ⟨descriptor.lineage.rootProposalId, job.proposalId, job.proposalId, descriptor.lineage.depth + 1⟩ }
  match job.operation with
  | .restoreUpdate =>
    match descriptor.versionAdvance with
    | none => .error "TypeError"
    | some version => pure { common with
        operation := .restoreUpdate
        members := descriptor.members.map (restoredMember descriptor version.column)
        versionAdvance := some version }
  | .removeInsert => pure { common with
      operation := .restoreInsert
      members := descriptor.members.map fun member => ⟨member.primaryKey, .empty, some member.expectedState⟩ }
  | .restoreInsert => pure { common with
      operation := .removeInsert
      members := descriptor.members.map fun member => ⟨member.primaryKey, member.restoreValues.getD .empty, none⟩ }

/-- What the inverse of every operation takes from the descriptor of its job. -/
structure InverseCarries (job : CompensationJob) (inverse : InverseDescriptor) : Prop where
  target : inverse.target = job.compensation.target
  tenantGuard : inverse.tenantGuard = job.compensation.tenantGuard
  principalScope : inverse.principalScope = none
  allowedColumns : inverse.allowedColumns = job.compensation.allowedColumns
  maxRows : inverse.maxRows = job.compensation.maxRows
  identities : inverse.members.map (·.primaryKey) = job.compensation.members.map (·.primaryKey)

theorem compensationInverseFromJob_ok {platform : Platform} {job : CompensationJob} {inverse : InverseDescriptor}
    (built : compensationInverseFromJob platform job = .ok inverse) :
    CompensationIntegrity platform job ∧ InverseCarries job inverse := by
  obtain ⟨_, accepted, rest⟩ := bind_eq_ok built
  refine ⟨assertCompensationJobIntegrity_ok accepted, ?_⟩
  cases operation : job.operation with
  | restoreUpdate =>
    simp only [operation] at rest
    split at rest
    · cases rest
    · cases rest
      exact ⟨rfl, rfl, rfl, rfl, rfl, by simp [Function.comp_def, restoredMember]⟩
  | removeInsert =>
    simp only [operation] at rest
    cases rest
    exact ⟨rfl, rfl, rfl, rfl, rfl, by simp [Function.comp_def]⟩
  | restoreInsert =>
    simp only [operation] at rest
    cases rest
    exact ⟨rfl, rfl, rfl, rfl, rfl, by simp [Function.comp_def]⟩

/-! ### Authority -/

/-- Whether the guards of a write let it touch a row, under the comparison of the
    database. -/
def guardsAdmit (sameValue : Scalar → Scalar → Prop) (tenantGuard : ColumnValue)
    (principalScope : Option PrincipalScopeGuard) (row : Column → Scalar) : Prop :=
  sameValue (row tenantGuard.column) tenantGuard.value ∧
    ∀ scope ∈ principalScope, ∃ value ∈ scope.value, sameValue (row scope.column) value

/-- The rows that an inverse may write: its members, under its own guards. -/
def inverseReaches (sameValue : Scalar → Scalar → Prop) (inverse : InverseDescriptor) (row : Column → Scalar) : Prop :=
  (∃ member ∈ inverse.members, sameValue (row inverse.target.primaryKeyColumn) member.primaryKey.value) ∧
    guardsAdmit sameValue inverse.tenantGuard inverse.principalScope row

/-- An inverse has the authority of its forward job. -/
structure SameAuthority (job : CompensationJob) (inverse : InverseDescriptor) : Prop where
  target : inverse.target = ⟨job.sourceId, job.target.schema, job.target.table, job.target.primaryKey.column⟩
  tenantGuard : inverse.tenantGuard = job.target.tenantGuard
  principalScope : inverse.principalScope = job.target.principalScope
  allowedColumns : ∀ column, column ∈ inverse.allowedColumns ↔ column ∈ job.allowedColumns
  rows : inverse.members.length ≤ job.compensation.maxRows ∧ inverse.maxRows ≤ job.compensation.maxRows
  confined : ∀ sameValue row, inverseReaches sameValue inverse row →
    guardsAdmit sameValue job.target.tenantGuard job.target.principalScope row

/-- A list of allowed columns as long as the set of another names the same columns
    when it repeats none. -/
theorem mem_iff_of_length_dedup {l m : List Column} (count : l.length = m.dedup.length) (sub : ∀ c ∈ l, c ∈ m) :
    (∀ c, c ∈ l ↔ c ∈ m) ↔ l.Nodup := by
  constructor
  · intro same
    have permuted : l.dedup.Perm m.dedup :=
      (List.perm_ext_iff_of_nodup (List.nodup_dedup l) (List.nodup_dedup m)).mpr fun c => by
        rw [List.mem_dedup, List.mem_dedup, same c]
    have whole : l.dedup = l := (List.dedup_sublist l).eq_of_length (permuted.length_eq.trans count.symm)
    rw [← whole]
    exact List.nodup_dedup l
  · intro distinct c
    have within : l.Subperm m.dedup := List.subperm_of_subset distinct fun a member => List.mem_dedup.mpr (sub a member)
    have permuted := within.perm_of_length_le (le_of_eq count.symm)
    rw [permuted.mem_iff, List.mem_dedup]

/-- An available inverse has the authority of its job exactly when the job has no
    principal scope and its descriptor repeats no column. -/
theorem inverse_sameAuthority_iff {platform : Platform} {job : CompensationJob} {inverse : InverseDescriptor}
    (built : compensationInverseFromJob platform job = .ok inverse) :
    SameAuthority job inverse ↔ job.target.principalScope = none ∧ job.compensation.allowedColumns.Nodup := by
  obtain ⟨integrity, carries⟩ := compensationInverseFromJob_ok built
  have columns := mem_iff_of_length_dedup integrity.columnCount integrity.columns
  have count : inverse.members.length = job.compensation.members.length := by
    simpa using congrArg List.length carries.identities
  constructor
  · intro same
    refine ⟨same.principalScope.symm.trans carries.principalScope, columns.mp ?_⟩
    rw [← carries.allowedColumns]
    exact same.allowedColumns
  · rintro ⟨unscoped, distinct⟩
    refine ⟨carries.target.trans integrity.target, carries.tenantGuard.trans integrity.tenantGuard,
      carries.principalScope.trans unscoped.symm, ?_, ?_, ?_⟩
    · rw [carries.allowedColumns]
      exact columns.mpr distinct
    · rw [count, carries.maxRows]
      exact ⟨integrity.rows.2.1, Nat.le_refl _⟩
    · rintro sameValue row ⟨_, admitted, _⟩
      refine ⟨?_, fun scope present => ?_⟩
      · rw [← integrity.tenantGuard, ← carries.tenantGuard]
        exact admitted
      · rw [unscoped] at present
        cases present

/-! ### The removal of an inserted ticket -/

/-- The removal of ticket 7 of tenant `acme`, under a principal scope. -/
def removeTicket (principalScope : Option PrincipalScopeGuard) : CompensationJob :=
  { jobId := "wbj_prop_2", proposalId := "prop_2", approvalId := "sha256:bb", sourceId := "crm", engine := .postgres
    target := ⟨"public", "tickets", ⟨"id", some (.str "7")⟩, ⟨"tenant_id", .str "acme"⟩, principalScope⟩
    allowedColumns := ["status"], idempotencyKey := "prop_2:7", attemptCount := 1
    operation := .removeInsert
    compensation :=
      { availability := .available, reasonCodes := [], operation := .removeInsert, cardinality := .single
        forwardProposalId := "prop_1", forwardWritebackJobId := "wbj_prop_1"
        target := ⟨"crm", "public", "tickets", "id"⟩
        tenantGuard := ⟨"tenant_id", .str "acme"⟩
        principalScope
        allowedColumns := ["status"]
        members := [⟨⟨"id", .str "7"⟩, .ofList [("status", .str "open")], none⟩]
        maxRows := 1, aggregateBounds := [], versionAdvance := none
        lineage := ⟨"prop_1", "prop_1", "prop_1", 1⟩ }
    forwardReceiptHash := ⟨"cc"⟩ }

/-- The principal scope of agent `ann`. -/
def annScope : PrincipalScopeGuard := ⟨"agent", "agent", .httpClaims, ⟨"dd"⟩, some (.str "ann")⟩

/-- The inverse of the removal, which inserts the ticket again. -/
def insertTicketAgain (principalScope : Option PrincipalScopeGuard) : InverseDescriptor :=
  { (removeTicket principalScope).compensation with
    operation := .restoreInsert
    forwardProposalId := "prop_2"
    forwardWritebackJobId := "wbj_prop_2"
    principalScope := none
    members := [⟨⟨"id", .str "7"⟩, .empty, some (.ofList [("status", .str "open")])⟩]
    lineage := ⟨"prop_1", "prop_2", "prop_2", 2⟩ }

/-- The ticket of another agent of the tenant. -/
def bobsTicket (column : Column) : Scalar :=
  if column = "id" then .str "7" else if column = "tenant_id" then .str "acme" else .str "bob"

/-- The inverse of a removal under the scope of `ann` reaches the ticket of
    another agent. -/
theorem scoped_inverse_reaches_other_principal :
    parseWritebackJob constantPlatform (.v4 (removeTicket (some annScope))) = .ok (.v4 (removeTicket (some annScope))) ∧
    compensationInverseFromJob constantPlatform (removeTicket (some annScope)) = .ok (insertTicketAgain (some annScope)) ∧
    (insertTicketAgain (some annScope)).availability = .available ∧
    inverseReaches (· = ·) (insertTicketAgain (some annScope)) bobsTicket ∧
    ¬ guardsAdmit (· = ·) (removeTicket (some annScope)).target.tenantGuard
      (removeTicket (some annScope)).target.principalScope bobsTicket ∧
    ¬ SameAuthority (removeTicket (some annScope)) (insertTicketAgain (some annScope)) := by
  refine ⟨by decide, by decide, rfl, ?_, ?_, ?_⟩
  · refine ⟨⟨_, List.mem_singleton.mpr rfl, by decide⟩, by decide, ?_⟩
    intro scope present
    cases present
  · rintro ⟨_, admitted⟩
    obtain ⟨value, given, same⟩ := admitted annScope rfl
    cases given
    exact absurd same (by decide)
  · intro same
    exact absurd same.principalScope (by decide)

/-- The inverse of the same removal without a principal scope. -/
theorem unscoped_inverse_sameAuthority : SameAuthority (removeTicket none) (insertTicketAgain none) :=
  (inverse_sameAuthority_iff
    (show compensationInverseFromJob constantPlatform (removeTicket none) = .ok (insertTicketAgain none) by
      decide)).mpr ⟨rfl, by decide⟩

end SynapsorRunner.Compensation
