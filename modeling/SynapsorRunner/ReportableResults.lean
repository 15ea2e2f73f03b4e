import SynapsorRunner.Applies
import SynapsorRunner.StoredResults

/-!
What an apply reports. Every outcome of a mutation fits the result schema of its job
(`Fits`), and so do the results for a failure, for an unknown outcome and for an
effect that an earlier run recorded; the ledger of the runner answers a claim with
results of the same job (`AnsweredByLedger`). A result names its job and no proposal.

Two results are left out. The dry run of a set job says `applied` without a member
effect (`dryRun_set_refused`). The reversal of a restored update restores the expected
columns that are allowed; the schema refuses its inverse when there is none of them, or
when the version is one column too many (`inverse_accepted_iff`).
-/
namespace SynapsorRunner.Adapters
open SynapsorRunner.Protocol SynapsorRunner.Proposals SynapsorRunner.Compensation SynapsorRunner.Intents
open SynapsorRunner.Programs SynapsorRunner.Programs.Program

/-! ### The inverse of a compensation -/

/-- What the member of a restored update restores on its reversal: at most as many
    columns as a record may have, and at least one. -/
def restorable (descriptor : InverseDescriptor) (version : Column) (member : InverseMember) : Bool :=
  boundedRecord (restoredMember descriptor version member).expectedState &&
    (decide (descriptor.lineage.depth ≥ 16) || hasFields (restoredMember descriptor version member).restoreValues)

/-- Every member of a restored update can be restored again. -/
def Invertible (job : CompensationJob) : Prop :=
  job.operation = .restoreUpdate → ∀ version ∈ job.compensation.versionAdvance, ∀ member ∈ job.compensation.members,
    restorable job.compensation version.column member = true

instance (job : CompensationJob) : Decidable (Invertible job) := inferInstanceAs (Decidable (_ → _))

theorem boundedRecord_filterKeys {r : Record} {p : Column → Bool} (bounded : boundedRecord r = true) :
    boundedRecord (r.filterKeys p) = true := by
  simp only [boundedRecord, decide_eq_true_eq] at bounded ⊢
  exact (List.length_filter_le _ _).trans bounded

/-- What the schema of inverse descriptors asks for. -/
structure AcceptedInverse (platform : Platform) (d : InverseDescriptor) : Prop where
  reasonCodes : (∀ code ∈ d.reasonCodes, safeCode code = true) ∧ d.reasonCodes.length ≤ 8
  forward : nonEmpty d.forwardProposalId = true ∧ nonEmpty d.forwardWritebackJobId = true
  target : nonEmpty d.target.sourceId = true ∧ safeIdentifier d.target.schema = true ∧
    safeIdentifier d.target.table = true ∧ safeIdentifier d.target.primaryKeyColumn = true
  tenantGuard : safeIdentifier d.tenantGuard.column = true
  principalScope : d.principalScope.all (fun s => safeIdentifier s.column && safeIdentifier s.binding) = true
  allowedColumns : (∀ column ∈ d.allowedColumns, safeIdentifier column = true) ∧ d.allowedColumns.length ≤ 256
  count : 1 ≤ d.members.length ∧ d.members.length ≤ 100
  members : ∀ m ∈ d.members, (safeIdentifier m.primaryKey.column = true ∧ boundedRecord m.expectedState = true) ∧
    m.restoreValues.all boundedRecord = true
  maxRows : 1 ≤ d.maxRows ∧ d.maxRows ≤ 100
  aggregateBounds : d.aggregateBounds.length ≤ 8 ∧
    ∀ b ∈ d.aggregateBounds, safeIdentifier b.column = true ∧ 0 ≤ b.maximum ∧ 0 ≤ b.actual
  versionAdvance : d.versionAdvance.all (fun v => safeIdentifier v.column) = true
  proposals : (nonEmpty d.lineage.rootProposalId = true ∧ nonEmpty d.lineage.parentProposalId = true) ∧
    nonEmpty d.lineage.revertsProposalId = true
  depth : 1 ≤ d.lineage.depth ∧ d.lineage.depth ≤ 16
  rows : d.members.length ≤ d.maxRows
  identities : d.identities.Nodup ∧ identitiesOrdered platform d.identities = true
  memberIssues : ∀ m ∈ d.members, inverseMemberIssues d m 0 = []
  advanced : (decide (d.operation = .restoreUpdate) &&
    !d.versionAdvance.any (fun v => decide (v.strategy = .integerIncrement))) = false
  unadvanced : (decide (d.operation ≠ .restoreUpdate) && d.versionAdvance.isSome) = false
  available : (decide (d.availability = .available) && !d.reasonCodes.isEmpty) = false
  unavailable : (decide (d.availability = .bestEffortUnavailable) && d.reasonCodes.isEmpty) = false

theorem inverseMemberIssues_eq_nil {d : InverseDescriptor} {m : InverseMember} {i : ℕ} :
    inverseMemberIssues d m i = [] ↔ inverseMemberIssues d m 0 = [] := by
  simp [inverseMemberIssues]

theorem flatMap_zipIdx_eq_nil {d : InverseDescriptor} {members : List InverseMember} {start : ℕ} :
    (members.zipIdx start).flatMap (fun (m, i) => inverseMemberIssues d m i) = [] ↔
      ∀ m ∈ members, inverseMemberIssues d m 0 = [] := by
  induction members generalizing start with
  | nil => simp
  | cons m rest ih =>
    simp only [List.zipIdx_cons, List.flatMap_cons, List.append_eq_nil_iff, ih, List.forall_mem_cons,
      inverseMemberIssues_eq_nil]

theorem inverseDescriptorV1Schema_iff {platform : Platform} {d : InverseDescriptor} :
    inverseDescriptorV1Schema platform d = true ↔ AcceptedInverse platform d := by
  simp only [inverseDescriptorV1Schema, inverseDescriptorFields, inverseDescriptorIssues, Bool.and_eq_true,
    List.isEmpty_iff, List.append_eq_nil_iff, issueIf_eq_nil, decide_eq_true_eq, decide_eq_false_iff_not,
    List.all_eq_true, Bool.not_eq_false', flatMap_zipIdx_eq_nil, not_not, not_lt, gt_iff_lt]
  constructor
  · rintro ⟨⟨⟨⟨⟨⟨⟨⟨⟨⟨⟨⟨⟨⟨⟨⟨⟨⟨⟨⟨⟨codes, forwardProposal⟩, forwardJob⟩, source⟩, schema⟩, table⟩, key⟩, tenant⟩, scope⟩, columns⟩,
      columnCount⟩, count⟩, members⟩, maxRows⟩, boundCount⟩, bounds⟩, version⟩, root⟩, parent⟩, reverts⟩, depth⟩,
      ⟨⟨⟨⟨⟨⟨rows, distinct⟩, ordered⟩, each⟩, advanced⟩, unadvanced⟩, available⟩, unavailable⟩
    exact ⟨codes, ⟨forwardProposal, forwardJob⟩, ⟨source, schema, table, key⟩, tenant, scope, ⟨columns, columnCount⟩,
      count, members, maxRows, ⟨boundCount, bounds⟩, version, ⟨⟨root, parent⟩, reverts⟩, depth, rows, ⟨distinct, ordered⟩,
      each, advanced, unadvanced, available, unavailable⟩
  · intro a
    obtain ⟨source, schema, table, key⟩ := a.target
    exact ⟨⟨⟨⟨⟨⟨⟨⟨⟨⟨⟨⟨⟨⟨⟨⟨⟨⟨⟨⟨⟨a.reasonCodes, a.forward.1⟩, a.forward.2⟩, source⟩, schema⟩, table⟩, key⟩, a.tenantGuard⟩,
      a.principalScope⟩, a.allowedColumns.1⟩, a.allowedColumns.2⟩, a.count⟩, a.members⟩, a.maxRows⟩,
      a.aggregateBounds.1⟩, a.aggregateBounds.2⟩, a.versionAdvance⟩, a.proposals.1.1⟩, a.proposals.1.2⟩, a.proposals.2⟩,
      a.depth⟩, ⟨⟨⟨⟨⟨⟨a.rows, a.identities.1⟩, a.identities.2⟩, a.memberIssues⟩, a.advanced⟩, a.unadvanced⟩, a.available⟩,
      a.unavailable⟩

/-- The lineage of an inverse, and what becomes of it at its sixteenth reversal. -/
structure Renewed (job : CompensationJob) (inverse : InverseDescriptor) : Prop where
  forward : inverse.forwardProposalId = job.proposalId ∧ inverse.forwardWritebackJobId = job.jobId
  aggregateBounds : inverse.aggregateBounds = job.compensation.aggregateBounds
  depth : (16 ≤ job.compensation.lineage.depth ∧ inverse.availability = .bestEffortUnavailable ∧
      inverse.reasonCodes = ["REVERSAL_CHAIN_DEPTH_EXHAUSTED"] ∧ inverse.lineage = job.compensation.lineage) ∨
    (job.compensation.lineage.depth < 16 ∧ inverse.availability = .available ∧ inverse.reasonCodes = [] ∧
      inverse.lineage = ⟨job.compensation.lineage.rootProposalId, job.proposalId, job.proposalId,
        job.compensation.lineage.depth + 1⟩)

/-- What an inverse has of its job is accepted as the descriptor of the job is. -/
theorem acceptedInverse_of_carries {platform : Platform} {job : CompensationJob} {inverse : InverseDescriptor}
    (d : AcceptedInverse platform job.compensation) (carries : InverseCarries job inverse) (renewed : Renewed job inverse)
    (proposalId : nonEmpty job.proposalId = true) (jobId : nonEmpty job.jobId = true)
    (bounded : ∀ m ∈ inverse.members, boundedRecord m.expectedState = true ∧ m.restoreValues.all boundedRecord = true)
    (version : inverse.versionAdvance.all (fun v => safeIdentifier v.column) = true)
    (memberIssues : ∀ m ∈ inverse.members, inverseMemberIssues inverse m 0 = [])
    (advanced : (decide (inverse.operation = .restoreUpdate) &&
      !inverse.versionAdvance.any (fun v => decide (v.strategy = .integerIncrement))) = false)
    (unadvanced : (decide (inverse.operation ≠ .restoreUpdate) && inverse.versionAdvance.isSome) = false) :
    AcceptedInverse platform inverse := by
  have count : inverse.members.length = job.compensation.members.length := by
    simpa using congrArg List.length carries.identities
  have identities : inverse.identities = job.compensation.identities := by
    simpa [InverseDescriptor.identities, Function.comp_def] using congrArg (List.map (·.value)) carries.identities
  have keys : ∀ m ∈ inverse.members, safeIdentifier m.primaryKey.column = true := by
    intro m member
    have among : m.primaryKey ∈ job.compensation.members.map (·.primaryKey) := by
      rw [← carries.identities]
      exact List.mem_map_of_mem member
    obtain ⟨m', member', same⟩ := List.mem_map.mp among
    rw [← same]
    exact (d.members m' member').1.1
  have chain : (∀ code ∈ inverse.reasonCodes, safeCode code = true) ∧ inverse.reasonCodes.length ≤ 8 := by
    rcases renewed.depth with ⟨_, _, codes, _⟩ | ⟨_, _, codes, _⟩
    · rw [codes]
      refine ⟨?_, by decide⟩
      simp only [List.forall_mem_singleton]
      exact safeCode_ofList rfl
    · rw [codes]
      simp
  have lineage : ((nonEmpty inverse.lineage.rootProposalId = true ∧ nonEmpty inverse.lineage.parentProposalId = true) ∧
      nonEmpty inverse.lineage.revertsProposalId = true) ∧ 1 ≤ inverse.lineage.depth ∧ inverse.lineage.depth ≤ 16 := by
    rcases renewed.depth with ⟨_, _, _, same⟩ | ⟨below, _, _, next⟩
    · rw [same]
      exact ⟨d.proposals, d.depth⟩
    · rw [next]
      refine ⟨⟨⟨d.proposals.1.1, proposalId⟩, proposalId⟩, ?_⟩
      show 1 ≤ job.compensation.lineage.depth + 1 ∧ job.compensation.lineage.depth + 1 ≤ 16
      omega
  refine
    { reasonCodes := chain, forward := ?_, target := ?_, tenantGuard := ?_, principalScope := ?_, allowedColumns := ?_
      count := by rw [count]; exact d.count
      members := fun m member => ⟨⟨keys m member, (bounded m member).1⟩, (bounded m member).2⟩
      maxRows := by rw [carries.maxRows]; exact d.maxRows
      aggregateBounds := by rw [renewed.aggregateBounds]; exact d.aggregateBounds
      versionAdvance := version, proposals := lineage.1, depth := lineage.2
      rows := by rw [count, carries.maxRows]; exact d.rows
      identities := by rw [identities]; exact d.identities
      memberIssues, advanced, unadvanced, available := ?_, unavailable := ?_ }
  · rw [renewed.forward.1, renewed.forward.2]
    exact ⟨proposalId, jobId⟩
  · rw [carries.target]
    exact d.target
  · rw [carries.tenantGuard]
    exact d.tenantGuard
  · rw [carries.principalScope]
    rfl
  · rw [carries.allowedColumns]
    exact d.allowedColumns
  · rcases renewed.depth with ⟨_, unavailable, _, _⟩ | ⟨_, _, codes, _⟩
    · simp [unavailable]
    · simp [codes]
  · rcases renewed.depth with ⟨_, _, codes, _⟩ | ⟨_, available, _, _⟩
    · simp [codes]
    · simp [available]

theorem entries_set_ne_nil (r : Record) (column : Column) (value : Scalar) : (r.set column value).entries ≠ [] := by
  intro empty
  have member : column ∈ (r.set column value).keys := KeyedMap.mem_keys_set.mpr (.inl rfl)
  rw [KeyedMap.keys, empty] at member
  cases member

theorem hasFields_some {r : Record} : hasFields (some r) = true ↔ r.entries.isEmpty = false := by
  simp [hasFields]

/-- What the check of a compensation says of one of its members. -/
theorem assertCompensationMember_ok {job : CompensationJob} {m : InverseMember}
    (accepted : assertCompensationMember job m = .ok ()) :
    m.primaryKey.column = job.target.primaryKey.column ∧
      (job.operation = .restoreUpdate → job.compensation.versionAdvance.any (fun v => v.strategy == .integerIncrement) = true) ∧
      (job.operation = .removeInsert → m.expectedState.entries.isEmpty = false) ∧
      (job.operation = .restoreInsert → hasFields m.restoreValues = true) := by
  obtain ⟨_, key, rest⟩ := bind_eq_ok accepted
  simp only [throwIf_ok_iff, not_not] at key
  refine ⟨key, ?_, ?_, ?_⟩
  · intro operation
    simp only [operation] at rest
    obtain ⟨_, integer, _⟩ := bind_eq_ok rest
    simpa only [throwIf_ok_iff, not_not] using integer
  · intro operation
    simp only [operation, throwIf_ok_iff, not_or] at rest
    simpa using rest.1
  · intro operation
    simp only [operation, throwIf_ok_iff, not_or, not_not] at rest
    exact rest.2

/-- The inverse of a job under the condition is one that the schema accepts. -/
theorem inverse_accepted {platform : Platform} {job : CompensationJob} {inverse : InverseDescriptor}
    (accepted : inverseDescriptorV1Schema platform job.compensation = true) (proposalId : nonEmpty job.proposalId = true)
    (jobId : nonEmpty job.jobId = true) (invertible : Invertible job)
    (built : compensationInverseFromJob platform job = .ok inverse) :
    inverseDescriptorV1Schema platform inverse = true := by
  obtain ⟨integrity, carries⟩ := compensationInverseFromJob_ok built
  have d := inverseDescriptorV1Schema_iff.mp accepted
  obtain ⟨_, _, rest⟩ := bind_eq_ok built
  have key : ∀ m ∈ job.compensation.members, m.primaryKey.column = job.compensation.target.primaryKeyColumn := by
    intro m member
    rw [integrity.target]
    exact (assertCompensationMember_ok (integrity.members m member)).1
  rw [inverseDescriptorV1Schema_iff]
  cases operation : job.operation with
  | restoreUpdate =>
    simp only [operation] at rest
    cases advance : job.compensation.versionAdvance with
    | none =>
      simp only [advance] at rest
      cases rest
    | some version =>
      simp only [advance] at rest
      cases rest
      have restored := invertible operation version advance
      refine acceptedInverse_of_carries d carries ⟨⟨rfl, rfl⟩, rfl, ?_⟩ proposalId jobId ?_ ?_ ?_ ?_ ?_
      · by_cases exhausted : job.compensation.lineage.depth ≥ 16
        · simp [exhausted]
        · simp [exhausted, Nat.lt_of_not_ge exhausted]
      · intro m member
        obtain ⟨m', member', rfl⟩ := List.mem_map.mp member
        have fits := restored m' member'
        simp only [restorable, Bool.and_eq_true] at fits
        exact ⟨fits.1, boundedRecord_filterKeys (d.members m' member').1.2⟩
      · have safe := d.versionAdvance
        rw [advance] at safe
        exact safe
      · intro m member
        obtain ⟨m', member', rfl⟩ := List.mem_map.mp member
        have fits := restored m' member'
        simp only [restorable, Bool.and_eq_true, Bool.or_eq_true, decide_eq_true_eq] at fits
        have expected : (restoredMember job.compensation version.column m').expectedState.entries ≠ [] :=
          entries_set_ne_nil _ _ _
        have same : (restoredMember job.compensation version.column m').primaryKey.column =
            job.compensation.target.primaryKeyColumn := key m' member'
        rcases fits.2 with exhausted | some
        · simp [inverseMemberIssues, same, exhausted]
        · simp [inverseMemberIssues, same, expected, some]
      · have first : ∃ m, m ∈ job.compensation.members := List.exists_mem_of_length_pos d.count.1
        obtain ⟨m, member⟩ := first
        have integer := (assertCompensationMember_ok (integrity.members m member)).2.1 operation
        rw [advance] at integer
        simpa using integer
      · simp
  | removeInsert =>
    simp only [operation] at rest
    cases rest
    refine acceptedInverse_of_carries d carries ⟨⟨rfl, rfl⟩, rfl, ?_⟩ proposalId jobId ?_ rfl ?_ rfl rfl
    · by_cases exhausted : job.compensation.lineage.depth ≥ 16
      · simp [exhausted]
      · simp [exhausted, Nat.lt_of_not_ge exhausted]
    · intro m member
      obtain ⟨m', member', rfl⟩ := List.mem_map.mp member
      exact ⟨rfl, (d.members m' member').1.2⟩
    · intro m member
      obtain ⟨m', member', rfl⟩ := List.mem_map.mp member
      have expected := (assertCompensationMember_ok (integrity.members m' member')).2.2.1 operation
      have fields := hasFields_some.mpr expected
      simp [inverseMemberIssues, key m' member', fields, KeyedMap.empty]
  | restoreInsert =>
    simp only [operation] at rest
    cases rest
    refine acceptedInverse_of_carries d carries ⟨⟨rfl, rfl⟩, rfl, ?_⟩ proposalId jobId ?_ rfl ?_ rfl rfl
    · by_cases exhausted : job.compensation.lineage.depth ≥ 16
      · simp [exhausted]
      · simp [exhausted, Nat.lt_of_not_ge exhausted]
    · intro m member
      obtain ⟨m', member', rfl⟩ := List.mem_map.mp member
      refine ⟨?_, rfl⟩
      have bounded := (d.members m' member').2
      cases values : m'.restoreValues with
      | none => rfl
      | some r =>
        rw [values] at bounded
        exact bounded
    · intro m member
      obtain ⟨m', member', rfl⟩ := List.mem_map.mp member
      have fields := (assertCompensationMember_ok (integrity.members m' member')).2.2.2 operation
      cases values : m'.restoreValues with
      | none =>
        rw [values] at fields
        cases fields
      | some r =>
        rw [values, hasFields_some] at fields
        have some : r.entries ≠ [] := by simpa using fields
        simp [inverseMemberIssues, key m' member', some]

/-! ### Outcomes and results -/

def MutationOutcome.codeSafe (outcome : MutationOutcome) : Bool := outcome.code.all safeCode

/-- The identity of a row, as the result schema of a row job takes it. -/
def rowIdentified (identity : List ColumnValue) : Bool :=
  decide (1 ≤ identity.length ∧ identity.length ≤ 8) && identity.all fun c => safeIdentifier c.column

/-- The effects of members, as the result schemas of several rows take them. -/
def membersReported (outcome : MutationOutcome) : Bool :=
  decide (outcome.affectedRows ≤ 100) && decide (outcome.memberEffects.length ≤ 100) &&
    outcome.memberEffects.all fun e => safeIdentifier e.primaryKey.column

/-- An outcome that the result schema of a job takes. -/
def Fits (job : WritebackJob) (outcome : MutationOutcome) : Prop :=
  outcome.codeSafe = true ∧
    match job with
    | .v1 _ => True
    | .v2 _ => outcome.affectedRows ≤ 1 ∧ rowIdentified outcome.targetIdentity = true
    | .v3 set => membersReported outcome = true ∧ (outcome.status = .applied →
        outcome.affectedRows = set.frozenSet.members.length ∧ outcome.memberEffects.length = set.frozenSet.members.length)
    | .v4 reversal => membersReported outcome = true ∧ (outcome.status = .applied →
        outcome.affectedRows = reversal.compensation.members.length)

/-- The protocol version of a result is that of its job. -/
def SameVersion : WritebackJob → WritebackResult → Prop
  | .v1 _, .v1 _ | .v2 _, .v2 _ | .v3 _, .v3 _ | .v4 _, .v4 _ => True
  | _, _ => False

/-- What the schema of an accepted job says for its results. -/
structure Reviewed (rt : SourceRuntime) (job : WritebackJob) : Prop where
  fields : jobFields rt.platform job = true
  issues : jobIssues rt.platform job = []

/-- A job whose inverse can be reported, if its success is. -/
def Restores (job : WritebackJob) (status : WritebackStatus) : Prop :=
  succeeded status = true → ∀ reversal, job = .v4 reversal → Invertible reversal

theorem headerFields_of_jobFields {platform : Platform} {job : WritebackJob}
    (fields : jobFields platform job = true) :
    headerFields job.header = true := by
  cases job <;>
  · simp only [jobFields, legacyJobFields, rowJobFields, setJobFields, compensationJobFields, Bool.and_eq_true] at fields
    simp only [WritebackJob.header]
    tauto

theorem nonEmpty_of_headerFields {header : JobHeader} (fields : headerFields header = true) :
    nonEmpty header.jobId = true ∧ nonEmpty header.proposalId = true := by
  simp only [headerFields, Bool.and_eq_true] at fields
  tauto

theorem headerReported (rt : SourceRuntime) (config : RunnerConfig) {job : WritebackJob} {outcome : MutationOutcome}
    (hash : Digest) (intentId : Option String) (jobId : nonEmpty job.jobId = true) (code : outcome.codeSafe = true)
    (intent : intentId.all nonEmpty = true) :
    resultHeaderFields { resultHeader rt config job outcome hash with intentId } = true := by
  simp only [resultHeaderFields, resultHeader, Bool.and_eq_true]
  exact ⟨⟨⟨⟨jobId, config.runnerIdNonEmpty⟩, rt.nowNonEmpty⟩, code⟩, intent⟩

theorem set_identities {platform : Platform} {set : SetJob} (fields : setJobFields platform set = true) :
    (1 ≤ set.frozenSet.members.length ∧ set.frozenSet.members.length ≤ 100) ∧
      ∀ m ∈ set.frozenSet.members, safeIdentifier m.primaryKey.column = true := by
  simp only [setJobFields, memberFields, Bool.and_eq_true, decide_eq_true_eq, List.all_eq_true] at fields
  refine ⟨fields.1.1.2, fun m member => ?_⟩
  have here := fields.1.2 m member
  tauto

theorem setResult_accepted {platform : Platform} {set : SetJob} {r : SetResult}
    (fields : setJobFields platform set = true)
    (header : resultHeaderFields r.toResultHeader = true)
    (identities : r.targetIdentities = set.frozenSet.members.map (·.primaryKey))
    (rows : r.affectedRows ≤ 100 ∧ r.memberEffects.length ≤ 100)
    (effects : r.memberEffects.all (fun e => safeIdentifier e.primaryKey.column) = true)
    (inverse : r.inverse.all (inverseDescriptorV1Schema platform) = true)
    (applied : r.status = .applied → r.affectedRows = set.frozenSet.members.length ∧
      r.memberEffects.length = set.frozenSet.members.length)
    (intent : reconciliationIntentIssues r.toResultHeader = []) :
    parseWritebackResult platform (.v3 r) = .ok (.v3 r) := by
  obtain ⟨count, keys⟩ := set_identities fields
  refine accept_ok_iff.mpr ⟨?_, ?_, rfl⟩
  · simp only [Bool.and_eq_true, decide_eq_true_eq, identities, List.length_map, List.all_map]
    refine ⟨⟨⟨⟨⟨⟨header, rows.1⟩, count⟩, ?_⟩, rows.2⟩, effects⟩, inverse⟩
    simpa only [List.all_eq_true, Function.comp_apply] using keys
  · refine List.append_eq_nil_iff.mpr ⟨?_, intent⟩
    by_cases status : r.status = .applied
    · simp [identities, (applied status).1, (applied status).2]
    · simp [status]

theorem compensationResult_accepted {platform : Platform} {reversal : CompensationJob} {r : CompensationResult}
    (accepted : inverseDescriptorV1Schema platform reversal.compensation = true)
    (header : resultHeaderFields r.toResultHeader = true)
    (identities : r.targetIdentities = reversal.compensation.members.map (·.primaryKey))
    (rows : r.affectedRows ≤ 100 ∧ r.memberEffects.length ≤ 100)
    (effects : r.memberEffects.all (fun e => safeIdentifier e.primaryKey.column) = true)
    (inverse : r.inverse.all (inverseDescriptorV1Schema platform) = true)
    (applied : r.status = .applied → r.affectedRows = reversal.compensation.members.length)
    (inverted : succeeded r.status = true → r.inverse.isSome = true)
    (intent : reconciliationIntentIssues r.toResultHeader = []) :
    parseWritebackResult platform (.v4 r) = .ok (.v4 r) := by
  have d := inverseDescriptorV1Schema_iff.mp accepted
  refine accept_ok_iff.mpr ⟨?_, ?_, rfl⟩
  · simp only [Bool.and_eq_true, decide_eq_true_eq, identities, List.length_map, List.all_map]
    refine ⟨⟨⟨⟨⟨⟨header, rows.1⟩, d.count⟩, ?_⟩, rows.2⟩, effects⟩, inverse⟩
    simp only [List.all_eq_true, Function.comp_apply]
    exact fun m member => (d.members m member).1.1
  · simp only [List.append_eq_nil_iff]
    refine ⟨⟨?_, ?_⟩, intent⟩
    · by_cases status : r.status = .applied
      · simp [identities, applied status]
      · simp [status]
    · by_cases success : succeeded r.status = true
      · simp [inverted success]
      · simp only [succeeded, decide_eq_true_eq] at success
        simp [success]

theorem rowResult_accepted {platform : Platform} {r : RowResult} (header : resultHeaderFields r.toResultHeader = true)
    (rows : r.affectedRows ≤ 1) (identity : rowIdentified r.targetIdentity = true)
    (inverse : r.inverse.all (inverseDescriptorV1Schema platform) = true)
    (intent : reconciliationIntentIssues r.toResultHeader = []) :
    parseWritebackResult platform (.v2 r) = .ok (.v2 r) := by
  refine accept_ok_iff.mpr ⟨?_, intent, rfl⟩
  simp only [rowIdentified, Bool.and_eq_true, decide_eq_true_eq] at identity
  simp only [Bool.and_eq_true, decide_eq_true_eq]
  exact ⟨⟨⟨⟨header, rows⟩, identity.1⟩, identity.2⟩, inverse⟩

theorem legacyResult_accepted {platform : Platform} {r : LegacyResult}
    (header : resultHeaderFields r.toResultHeader = true)
    (intent : reconciliationIntentIssues r.toResultHeader = []) :
    parseWritebackResult platform (.v1 r) = .ok (.v1 r) := by
  refine accept_ok_iff.mpr ⟨?_, intent, rfl⟩
  simp only [resultHeaderFields, Bool.and_eq_true] at header
  simp only [Bool.and_eq_true]
  tauto

/-- A result that reports on its job in the protocol version of the job. -/
structure Reported (rt : SourceRuntime) (job : WritebackJob) (result : WritebackResult) : Prop where
  accepted : Restores job result.status → parseWritebackResult rt.platform result = .ok result
  named : result.jobId = job.jobId
  version : SameVersion job result

theorem finished_no_issues {header : ResultHeader} (finished : header.status ≠ .reconciliationRequired) :
    reconciliationIntentIssues header = [] := by
  simp [reconciliationIntentIssues, finished]

/-- The result of an outcome that fits, and whose inverse is accepted. -/
theorem outcomeResult_reported {rt : SourceRuntime} {job : WritebackJob} {outcome : MutationOutcome} (engine : Engine)
    (config : RunnerConfig) {inverse : Option InverseDescriptor} (hash : Digest) (reviewed : Reviewed rt job)
    (fits : Fits job outcome) (finished : outcome.status ≠ .reconciliationRequired)
    (accepted : Restores job outcome.status → inverse.all (inverseDescriptorV1Schema rt.platform) = true)
    (inverted : succeeded outcome.status = true → ∀ reversal, job = .v4 reversal → inverse.isSome = true) :
    Reported rt job (outcomeResult rt engine config job outcome inverse hash) := by
  have jobId := (nonEmpty_of_headerFields (headerFields_of_jobFields reviewed.fields)).1
  have header : resultHeaderFields (resultHeader rt config job outcome hash) = true :=
    headerReported rt config hash none jobId fits.1 rfl
  have intent : reconciliationIntentIssues (resultHeader rt config job outcome hash) = [] := finished_no_issues finished
  obtain ⟨_, fits⟩ := fits
  cases job with
  | v1 legacy => exact ⟨fun _ => legacyResult_accepted header intent, rfl, trivial⟩
  | v2 row =>
    exact ⟨fun restores => rowResult_accepted header fits.1 fits.2 (accepted restores) intent, rfl, trivial⟩
  | v3 set =>
    obtain ⟨members, applied⟩ := fits
    simp only [membersReported, Bool.and_eq_true, decide_eq_true_eq] at members
    exact ⟨fun restores => setResult_accepted reviewed.fields header rfl members.1 members.2 (accepted restores) applied
      intent, rfl, trivial⟩
  | v4 reversal =>
    obtain ⟨members, applied⟩ := fits
    simp only [membersReported, Bool.and_eq_true, decide_eq_true_eq] at members
    have descriptor := reviewed.fields
    simp only [jobFields, compensationJobFields, Bool.and_eq_true] at descriptor
    exact ⟨fun restores => compensationResult_accepted descriptor.2 header rfl members.1 members.2 (accepted restores) applied
      (fun success => inverted success reversal rfl) intent, rfl, trivial⟩

theorem resultInverse_accepted {rt : SourceRuntime} {job : WritebackJob} {outcome : MutationOutcome}
    {inverse : Option InverseDescriptor} (reviewed : Reviewed rt job)
    (carried : Restores job outcome.status → outcome.inverse.all (inverseDescriptorV1Schema rt.platform) = true)
    (resolved : resultInverse rt job outcome = .ok inverse) :
    (Restores job outcome.status → inverse.all (inverseDescriptorV1Schema rt.platform) = true) ∧
      (succeeded outcome.status = true → ∀ reversal, job = .v4 reversal → inverse.isSome = true) := by
  have fields := reviewed.fields
  unfold resultInverse at resolved
  by_cases success : succeeded outcome.status = true
  · rw [if_pos success] at resolved
    cases job with
    | v1 legacy =>
      cases resolved
      exact ⟨fun _ => rfl, by simp⟩
    | v2 row =>
      cases resolved
      simp only [jobFields, rowJobFields, Bool.and_eq_true] at fields
      exact ⟨fun _ => fields.2, by simp⟩
    | v3 set =>
      cases resolved
      simp only [jobFields, setJobFields, Bool.and_eq_true] at fields
      exact ⟨fun _ => fields.2, by simp⟩
    | v4 reversal =>
      cases own : outcome.inverse with
      | some d =>
        simp only [own] at resolved
        cases resolved
        rw [own] at carried
        exact ⟨carried, by simp⟩
      | none =>
        simp only [own] at resolved
        cases built : compensationInverseFromJob rt.platform reversal with
        | error e => rw [built] at resolved; cases resolved
        | ok d =>
          rw [built] at resolved
          cases resolved
          have named := nonEmpty_of_headerFields (headerFields_of_jobFields reviewed.fields)
          simp only [jobFields, compensationJobFields, Bool.and_eq_true] at fields
          refine ⟨fun restores => ?_, by simp⟩
          exact inverse_accepted fields.2 named.2 named.1 (restores success reversal rfl) built
  · rw [if_neg success] at resolved
    cases resolved
    exact ⟨fun _ => rfl, fun good => absurd good success⟩

theorem resultFromOutcome_reported {rt : SourceRuntime} {engine : Engine} {config : RunnerConfig} {job : WritebackJob}
    {outcome : MutationOutcome} {overrideHash : Option Digest} {result : WritebackResult} (reviewed : Reviewed rt job)
    (fits : Fits job outcome) (finished : outcome.status ≠ .reconciliationRequired)
    (carried : Restores job outcome.status → outcome.inverse.all (inverseDescriptorV1Schema rt.platform) = true)
    (built : resultFromOutcome rt engine config job outcome overrideHash = .ok result) : Reported rt job result := by
  obtain ⟨inverse, hash, resolved, rfl⟩ := resultFromOutcome_ok built
  obtain ⟨accepted, inverted⟩ := resultInverse_accepted reviewed carried resolved
  exact outcomeResult_reported engine config hash reviewed fits finished accepted inverted

/-! ### Identities -/

theorem addIdentity_safe {identity : List ColumnValue} {components : List DeduplicationComponent}
    (safe : ∀ item ∈ identity, safeIdentifier item.column = true)
    (columns : ∀ c ∈ components, safeIdentifier c.column = true) :
    ∀ item ∈ components.foldl addIdentity identity, safeIdentifier item.column = true := by
  induction components generalizing identity with
  | nil => exact safe
  | cons c rest ih =>
    refine ih ?_ fun c' member => columns c' (List.mem_cons_of_mem _ member)
    intro item member
    unfold addIdentity at member
    split at member
    · exact safe item member
    · rcases List.mem_append.mp member with old | new
      · exact safe item old
      · rw [List.mem_singleton.mp new]
        exact columns c (List.mem_cons_self ..)

/-- The columns that identify the row of a job are safe. -/
structure RowColumns (job : RowJob) : Prop where
  primaryKey : safeIdentifier job.target.primaryKey.column = true
  tenantGuard : safeIdentifier job.target.tenantGuard.column = true
  deduplication : ∀ c ∈ job.deduplication.getD [], safeIdentifier c.column = true

theorem rowIdentified_take {identity : List ColumnValue} {guard : ColumnValue}
    (tenantGuard : safeIdentifier guard.column = true)
    (safe : ∀ item ∈ identity, safeIdentifier item.column = true) :
    rowIdentified (if identity.isEmpty then [guard] else identity.take 8) = true := by
  by_cases empty : identity.isEmpty = true
  · simp [empty, rowIdentified, tenantGuard]
  · rw [if_neg empty]
    simp only [rowIdentified, Bool.and_eq_true, decide_eq_true_eq, List.length_take, List.all_eq_true]
    refine ⟨?_, fun item member => safe item (List.mem_of_mem_take member)⟩
    have some : identity ≠ [] := by simpa using empty
    have length := List.length_pos_iff.mpr some
    omega

theorem rowIdentity_identified {job : RowJob} (columns : RowColumns job) (engine : Engine)
    (inserted : Option DbValue) :
    rowIdentified (rowIdentity engine job inserted) = true := by
  refine rowIdentified_take columns.tenantGuard (addIdentity_safe ?_ columns.deduplication)
  intro item member
  split at member
  · rw [List.mem_singleton.mp member]
    exact columns.primaryKey
  · obtain ⟨value, _, rfl⟩ := List.mem_map.mp member
    exact columns.primaryKey

theorem rowColumns_of_fields {platform : Platform} {job : RowJob} (fields : rowJobFields platform job = true) :
    RowColumns job := by
  simp only [rowJobFields, headerFields, Bool.and_eq_true] at fields
  refine ⟨by tauto, by tauto, ?_⟩
  have components : job.deduplication.all componentFields = true := by tauto
  cases given : job.deduplication with
  | none => simp
  | some l =>
    rw [given] at components
    simp only [Option.all_some, componentFields, Bool.and_eq_true, List.all_eq_true] at components
    exact components.2

theorem rowColumns_of_legacy {legacy : LegacyJob} (fields : legacyJobFields legacy = true) :
    RowColumns (LegacyJob.toRowJob legacy) := by
  simp only [legacyJobFields, headerFields, Bool.and_eq_true] at fields
  exact ⟨by simp only [LegacyJob.toRowJob]; tauto, by simp only [LegacyJob.toRowJob]; tauto, by simp [LegacyJob.toRowJob]⟩

/-- An outcome without effect fits when its code is safe and its identity that of the
    job; several rows are not applied without an effect. -/
theorem outcomeOf_fits {job : WritebackJob} {status : WritebackStatus} {code : Option String}
    {identity : List ColumnValue} (safe : code.all safeCode = true)
    (single : status = .applied → (∃ legacy, job = .v1 legacy) ∨ ∃ row, job = .v2 row)
    (identified : ∀ row, job = .v2 row → rowIdentified identity = true) : Fits job (outcomeOf status code identity) := by
  refine ⟨safe, ?_⟩
  cases job with
  | v1 legacy => trivial
  | v2 row => exact ⟨Nat.zero_le 1, identified row rfl⟩
  | v3 set =>
    refine ⟨rfl, fun applied => ?_⟩
    rcases single applied with ⟨_, other⟩ | ⟨_, other⟩ <;> cases other
  | v4 reversal =>
    refine ⟨rfl, fun applied => ?_⟩
    rcases single applied with ⟨_, other⟩ | ⟨_, other⟩ <;> cases other

theorem identityForJob_identified {platform : Platform} {job : WritebackJob} (engine : Engine)
    (fields : jobFields platform job = true) : ∀ row, job = .v2 row → rowIdentified (identityForJob engine job) = true := by
  rintro row rfl
  exact rowIdentity_identified (rowColumns_of_fields fields) engine none

/-! ### The results of an apply -/

section
variable {rt : SourceRuntime} {engine : Engine} {config : RunnerConfig} {job : WritebackJob}

theorem failedResult_reported (engine : Engine) (config : RunnerConfig) (reviewed : Reviewed rt job) {code : String}
    (safe : safeCode code = true) : Reported rt job (failedResult rt engine config job code) := by
  refine outcomeResult_reported engine config _ reviewed ?_ (by simp [outcomeOf]) (fun _ => rfl) (by simp [outcomeOf, succeeded])
  exact outcomeOf_fits safe (by simp) (identityForJob_identified engine reviewed.fields)

theorem reconciliationResult_reported (engine : Engine) (config : RunnerConfig) (reviewed : Reviewed rt job)
    {intentId code : String} (safe : safeCode code = true) (named : nonEmpty intentId = true) :
    Reported rt job (Adapters.reconciliationResult rt engine config job intentId code) := by
  have fields := reviewed.fields
  have jobId := (nonEmpty_of_headerFields (headerFields_of_jobFields reviewed.fields)).1
  have header : resultHeaderFields
      { resultHeader rt config job (outcomeOf .reconciliationRequired (some code) (identityForJob engine job))
          (resultHash rt job .reconciliationRequired none) with intentId := some intentId } = true :=
    headerReported rt config _ _ jobId safe named
  have intent : reconciliationIntentIssues
      { resultHeader rt config job (outcomeOf .reconciliationRequired (some code) (identityForJob engine job))
          (resultHash rt job .reconciliationRequired none) with intentId := some intentId } = [] := by
    simp [reconciliationIntentIssues]
  cases job with
  | v1 legacy => exact ⟨fun _ => legacyResult_accepted header intent, rfl, trivial⟩
  | v2 row =>
    exact ⟨fun _ => rowResult_accepted header (Nat.zero_le 1) (identityForJob_identified engine fields row rfl) rfl intent, rfl,
      trivial⟩
  | v3 set =>
    exact ⟨fun _ => setResult_accepted fields header rfl ⟨Nat.zero_le _, Nat.zero_le _⟩ rfl rfl (by simp [resultHeader, outcomeOf])
      intent, rfl, trivial⟩
  | v4 reversal =>
    simp only [jobFields, compensationJobFields, Bool.and_eq_true] at fields
    exact ⟨fun _ => compensationResult_accepted fields.2 header rfl ⟨Nat.zero_le _, Nat.zero_le _⟩ rfl rfl
      (by simp [resultHeader, outcomeOf]) (by simp [resultHeader, outcomeOf, succeeded]) intent, rfl, trivial⟩

theorem asAlreadyApplied_reported (reviewed : Reviewed rt job) {stored result : WritebackResult}
    (built : asAlreadyApplied rt engine config job stored = .ok result) : Reported rt job result ∨ result = stored := by
  unfold asAlreadyApplied at built
  split at built
  · have fits : Fits job (outcomeOf .alreadyApplied none (identityForJob engine job)) :=
      outcomeOf_fits rfl (by simp) (identityForJob_identified engine reviewed.fields)
    refine .inl (resultFromOutcome_reported reviewed ?_ ?_ ?_ built)
    · exact fits
    · simp [outcomeOf]
    · exact fun _ => rfl
  · cases built
    exact .inr rfl

theorem resultFromExistingReceipt_reported (reviewed : Reviewed rt job) {status : String} {hash : Option Digest}
    {result : WritebackResult} (built : resultFromExistingReceipt rt engine config job status hash = .ok result) :
    Reported rt job result := by
  have identified := identityForJob_identified engine reviewed.fields
  have safe : safeCode "IDEMPOTENT_CONFLICT" = true := safeCode_ofList rfl
  have conflict : Option.all safeCode (some "IDEMPOTENT_CONFLICT") = true := safe
  unfold resultFromExistingReceipt at built
  simp only at built
  split at built
  · exact resultFromOutcome_reported reviewed (outcomeOf_fits rfl (by simp) identified) (by simp [outcomeOf]) (fun _ => rfl) built
  split at built
  · exact resultFromOutcome_reported reviewed (outcomeOf_fits conflict (by simp) identified)
      (by simp [outcomeOf]) (fun _ => rfl) built
  split at built
  · cases built
    exact failedResult_reported engine config reviewed (safeCode_ofList rfl)
  · cases built
    exact failedResult_reported engine config reviewed (safeCode_ofList rfl)

/-- A dry run, but for a set job. -/
theorem dryRunResult_reported (reviewed : Reviewed rt job) (single : ∀ set, job ≠ .v3 set) {result : WritebackResult}
    (built : dryRunResult rt engine config job = .ok result) : Reported rt job result := by
  obtain ⟨_, _, rest⟩ := bind_eq_ok built
  have identified := identityForJob_identified engine reviewed.fields
  cases job with
  | v1 legacy =>
    exact resultFromOutcome_reported reviewed (outcomeOf_fits rfl (fun _ => .inl ⟨legacy, rfl⟩) identified)
      (by simp [outcomeOf]) (fun _ => rfl) rest
  | v2 row =>
    exact resultFromOutcome_reported reviewed (outcomeOf_fits rfl (fun _ => .inr ⟨row, rfl⟩) identified)
      (by simp [outcomeOf]) (fun _ => rfl) rest
  | v3 set => exact absurd rfl (single set)
  | v4 reversal =>
    exact resultFromOutcome_reported reviewed (outcomeOf_fits rfl (by simp) identified) (by simp [outcomeOf]) (fun _ => rfl) rest

end

/-! ### The outcomes of a mutation -/

/-- An outcome of the transaction of a job: it fits its result schema, it is final,
    and the schema of inverse descriptors accepts its inverse. -/
structure Reportable (rt : SourceRuntime) (job : WritebackJob) (outcome : MutationOutcome) : Prop where
  fits : Fits job outcome
  finished : outcome.status ≠ .reconciliationRequired
  carried : Restores job outcome.status → outcome.inverse.all (inverseDescriptorV1Schema rt.platform) = true

theorem refused_reportable {rt : SourceRuntime} {job : WritebackJob} {status : WritebackStatus} {code : String}
    {identity : List ColumnValue} (safe : safeCode code = true) (refused : status = .conflict ∨ status = .failed)
    (identified : ∀ row, job = .v2 row → rowIdentified identity = true) :
    Reportable rt job (outcomeOf status (some code) identity) := by
  refine ⟨outcomeOf_fits safe ?_ identified, ?_, fun _ => rfl⟩
  · rintro rfl
    simp at refused
  · rintro same
    simp only [outcomeOf] at same
    simp [same] at refused

@[simp] theorem returns_required {α : Type} (x : Except String α) {R : α → Prop} :
    (required x).Returns R ↔ ∀ a, x = .ok a → R a := by
  unfold required
  rw [returns_lift]
  cases x with
  | error e => simp [Except.mapError]
  | ok a => simp [Except.mapError]

theorem returns_lockFreshnessDependencies (rt : SourceRuntime) (engine : Engine) (job : WritebackJob) :
    (lockFreshnessDependencies rt engine job).Returns fun stale => ∀ code ∈ stale, safeCode code = true := by
  refine returns_findSome fun d _ => returns_after fun scope => ?_
  have scopeCode : safeCode "FRESHNESS_DEPENDENCY_SCOPE_INVALID" = true := safeCode_ofList rfl
  have staleCode : safeCode "FRESHNESS_DEPENDENCY_STALE" = true := safeCode_ofList rfl
  cases scope with
  | none => simpa using scopeCode
  | some conditions =>
    refine returns_after fun rows => (returns_pure _).mpr ?_
    intro code found
    split at found
    · split at found
      · cases found
      · cases found
        exact staleCode
    · cases found
      exact staleCode

theorem returns_deleteSafetyCode (engine : Engine) (table : TableName) :
    (deleteSafetyCode engine table).Returns fun found => ∀ code ∈ found, safeCode code = true := by
  have trigger : safeCode "DELETE_TRIGGER_BLOCKED" = true := safeCode_ofList rfl
  have cascade : safeCode "DELETE_CASCADE_BLOCKED" = true := safeCode_ofList rfl
  have triggers : safeCode "DELETE_TRIGGER_VISIBILITY_REQUIRED" = true := safeCode_ofList rfl
  have keys : safeCode "DELETE_FK_VISIBILITY_REQUIRED" = true := safeCode_ofList rfl
  cases engine with
  | postgres =>
    refine returns_after fun found => (returns_pure _).mpr ?_
    split_ifs <;> simp [trigger, cascade]
  | mysql =>
    refine returns_after fun visible => ?_
    split
    · simpa using triggers
    split
    · simpa using keys
    refine returns_after fun triggers => ?_
    split
    · simpa using trigger
    · refine returns_after fun cascades => (returns_pure _).mpr ?_
      split_ifs <;> simp [cascade]

theorem returns_compensationSafetyCode (engine : Engine) (table : TableName) (operation : ReversalOperation) :
    (compensationSafetyCode engine table operation).Returns fun found => ∀ code ∈ found, safeCode code = true := by
  have trigger : safeCode "COMPENSATION_TRIGGER_BLOCKED" = true := safeCode_ofList rfl
  have cascade : safeCode "COMPENSATION_CASCADE_BLOCKED" = true := safeCode_ofList rfl
  have triggers : safeCode "COMPENSATION_TRIGGER_VISIBILITY_REQUIRED" = true := safeCode_ofList rfl
  have keys : safeCode "COMPENSATION_FK_VISIBILITY_REQUIRED" = true := safeCode_ofList rfl
  cases engine with
  | postgres =>
    refine returns_after fun found => (returns_pure _).mpr ?_
    split_ifs <;> simp [trigger, cascade]
  | mysql =>
    refine returns_after fun visible => ?_
    split
    · simpa using triggers
    refine returns_after fun triggers => ?_
    split
    · simpa using trigger
    split
    · simp
    split
    · simpa using keys
    · refine returns_after fun cascades => (returns_pure _).mpr ?_
      split_ifs <;> simp [cascade]

/-- A code of a safety check is a failure to report. -/
theorem blockedBy_reportable {rt : SourceRuntime} {job : WritebackJob} {identity : List ColumnValue}
    {code : Option String}
    (safe : ∀ c ∈ code, safeCode c = true) (identified : ∀ row, job = .v2 row → rowIdentified identity = true) :
    ∀ outcome ∈ blockedBy identity code, Reportable rt job outcome := by
  intro outcome blocked
  obtain ⟨c, given, rfl⟩ := Option.mem_map.mp blocked
  exact refused_reportable (safe c given) (.inr rfl) identified

theorem rowConflict_reportable {rt : SourceRuntime} {engine : Engine} {wire : WritebackJob} {job : RowJob}
    {row : Option DbRow} (columns : RowColumns job) :
    ∀ outcome ∈ rowConflict rt engine job row, Reportable rt wire outcome := by
  have missing : safeCode "ROW_NOT_FOUND" = true := safeCode_ofList rfl
  have conflict : safeCode "VERSION_CONFLICT" = true := safeCode_ofList rfl
  have changed : safeCode "ROW_CHANGED_AFTER_PROPOSAL" = true := safeCode_ofList rfl
  have identified := rowIdentity_identified columns engine none
  intro outcome found
  unfold rowConflict at found
  simp only at found
  split at found
  · cases found
    exact refused_reportable missing (.inl rfl) fun _ _ => identified
  · split at found
    · cases found
      have refused : Reportable rt wire (outcomeOf .conflict (some "VERSION_CONFLICT") (rowIdentity engine job none)) :=
        refused_reportable conflict (.inl rfl) fun _ _ => identified
      exact ⟨refused.fits, refused.finished, refused.carried⟩
    · split at found
      · cases found
      · cases found
        exact refused_reportable changed (.inl rfl) fun _ _ => identified

theorem returns_rowRefusal {rt : SourceRuntime} {engine : Engine} {wire : WritebackJob} {job : RowJob}
    (columns : RowColumns job) :
    (rowRefusal rt engine job).Returns fun refused => ∀ outcome ∈ refused, Reportable rt wire outcome := by
  have duplicate : safeCode "INSERT_DEDUP_CONFLICT" = true := safeCode_ofList rfl
  unfold rowRefusal
  cases job.operation with
  | insert =>
    show (insertRefusal engine job).Returns _
    unfold insertRefusal
    split
    · trivial
    · refine returns_after fun _ => returns_after fun rows => (returns_pure _).mpr ?_
      intro outcome found
      obtain ⟨row, _, rfl⟩ := Option.mem_map.mp found
      exact refused_reportable duplicate (.inl rfl) fun _ _ => rowIdentity_identified columns engine _
  | update => exact returns_after fun row => (returns_pure _).mpr (rowConflict_reportable columns)
  | delete =>
    refine returns_after fun row => ?_
    cases conflict : rowConflict rt engine job row with
    | some outcome =>
      refine (returns_pure _).mpr ?_
      rw [← conflict]
      exact rowConflict_reportable columns
    | none =>
      refine (returns_bind _ _).mpr ((returns_deleteSafetyCode engine (targetTable job.target)).mono ?_)
      intro code safe
      exact (returns_pure _).mpr (blockedBy_reportable safe fun _ _ => rowIdentity_identified columns engine none)

theorem returns_setRefusal {rt : SourceRuntime} {engine : Engine} {set : SetJob} :
    (setRefusal rt engine set).Returns fun refused => ∀ outcome ∈ refused, Reportable rt (.v3 set) outcome := by
  have duplicate : safeCode "INSERT_DEDUP_CONFLICT" = true := safeCode_ofList rfl
  have drift : safeCode "SET_DRIFT_CONFLICT" = true := safeCode_ofList rfl
  refine returns_after fun _ => ?_
  split
  · refine returns_after fun _ => returns_findSome fun m _ => returns_after fun rows => (returns_pure _).mpr ?_
    intro outcome found
    split at found
    · cases found
    · cases found
      exact refused_reportable duplicate (.inl rfl) (by simp)
  · refine returns_after fun locked => ?_
    split
    · refine (returns_pure _).mpr ?_
      intro outcome found
      cases found
      exact refused_reportable drift (.inl rfl) (by simp)
    split
    · refine (returns_bind _ _).mpr ((returns_deleteSafetyCode engine (targetTable set.target)).mono ?_)
      intro code safe
      exact (returns_pure _).mpr (blockedBy_reportable safe (by simp))
    · simp

theorem safeCode_compensationConflict {rt : SourceRuntime} {job : CompensationJob} {rows : List DbRow} :
    ∀ code ∈ compensationConflict rt job rows, safeCode code = true := by
  have target : safeCode "COMPENSATION_TARGET_PRESENT" = true := safeCode_ofList rfl
  have missing : safeCode "COMPENSATION_TARGET_MISSING" = true := safeCode_ofList rfl
  have changed : safeCode "ROW_CHANGED_AFTER_FORWARD_WRITE" = true := safeCode_ofList rfl
  unfold compensationConflict
  simp only
  split_ifs <;> simp [target, missing, changed]

theorem returns_compensationRefusal {rt : SourceRuntime} {engine : Engine} {reversal : CompensationJob} :
    (compensationRefusal rt engine reversal).Returns fun refused =>
      ∀ outcome ∈ refused, Reportable rt (.v4 reversal) outcome := by
  refine returns_after fun _ => returns_after fun rows => ?_
  cases conflict : compensationConflict rt reversal rows with
  | some code =>
    refine (returns_pure _).mpr ?_
    intro outcome found
    cases found
    exact refused_reportable (safeCode_compensationConflict code conflict) (.inl rfl) (by simp)
  | none =>
    simp only
    split
    · simp
    · refine (returns_bind _ _).mpr ((returns_compensationSafetyCode engine (targetTable reversal.target) _).mono ?_)
      intro code safe
      exact (returns_pure _).mpr (blockedBy_reportable safe (by simp))

theorem returns_targetRefusal {rt : SourceRuntime} (engine : Engine) {job : WritebackJob}
    (reviewed : Reviewed rt job) :
    (targetRefusal rt engine job).Returns fun refused => ∀ outcome ∈ refused, Reportable rt job outcome := by
  have fields := reviewed.fields
  cases job with
  | v1 legacy => exact returns_rowRefusal (rowColumns_of_legacy fields)
  | v2 row => exact returns_rowRefusal (rowColumns_of_fields fields)
  | v3 set => exact returns_setRefusal
  | v4 reversal => exact returns_compensationRefusal

theorem returns_refusal {rt : SourceRuntime} (engine : Engine) {job : WritebackJob} (reviewed : Reviewed rt job) :
    (refusal rt engine job).Returns fun refused => ∀ outcome ∈ refused, Reportable rt job outcome := by
  refine (returns_bind _ _).mpr ((returns_lockFreshnessDependencies rt engine job).mono ?_)
  intro stale safe
  cases stale with
  | some code =>
    refine (returns_pure _).mpr ?_
    intro outcome found
    cases found
    exact refused_reportable (safe code rfl) (.inl rfl) (identityForJob_identified engine reviewed.fields)
  | none => exact returns_targetRefusal engine reviewed

theorem rowOutcome_reportable {rt : SourceRuntime} {engine : Engine} {wire : WritebackJob} {job : RowJob}
    (columns : RowColumns job) (single : (∃ legacy, wire = .v1 legacy) ∨ ∃ row, wire = .v2 row)
    (returned : Option DbValue) (inserted : Record) (version : Option Scalar) :
    Reportable rt wire (rowOutcome rt engine job returned inserted version) := by
  have identified := rowIdentity_identified columns engine
  have fits : ∀ outcome : MutationOutcome, outcome.code = none → outcome.affectedRows = 1 →
      rowIdentified outcome.targetIdentity = true → Fits wire outcome := by
    intro outcome code rows identity
    refine ⟨by simp [MutationOutcome.codeSafe, code], ?_⟩
    rcases single with ⟨legacy, rfl⟩ | ⟨row, rfl⟩
    · trivial
    · exact ⟨le_of_eq rows, identity⟩
  unfold rowOutcome
  cases job.operation with
  | update => exact ⟨fits _ rfl rfl (identified none), by simp [outcomeOf], fun _ => rfl⟩
  | delete => exact ⟨fits _ rfl rfl (identified none), by simp [outcomeOf], fun _ => rfl⟩
  | insert => exact ⟨fits _ rfl rfl (identified returned), by simp [outcomeOf], fun _ => rfl⟩

theorem returns_writeRow {rt : SourceRuntime} {engine : Engine} {wire : WritebackJob} {job : RowJob}
    (columns : RowColumns job) (single : (∃ legacy, wire = .v1 legacy) ∨ ∃ row, wire = .v2 row) :
    (writeRow rt engine job).Returns (Reportable rt wire) := by
  refine returns_after fun statement => returns_after fun affected => returns_after fun _ => ?_
  refine returns_after fun version => returns_after fun _ => returns_after fun inserted => (returns_pure _).mpr ?_
  exact rowOutcome_reportable columns single affected.returned inserted version

/-- The effects of members are the members, one by one. -/
theorem safe_effects {α : Type} {members : List α} {key : α → ColumnValue} {effects : List MemberEffect}
    (each : List.Forall₂ (fun m e => e.primaryKey = key m) members effects)
    (safe : ∀ m ∈ members, safeIdentifier (key m).column = true) :
    effects.all (fun e => safeIdentifier e.primaryKey.column) = true := by
  induction each with
  | nil => rfl
  | cons here _ ih =>
    rw [List.all_cons, Bool.and_eq_true, here]
    exact ⟨safe _ (List.mem_cons_self ..), ih fun m member => safe m (List.mem_cons_of_mem _ member)⟩

theorem returns_writeSet {rt : SourceRuntime} (engine : Engine) {set : SetJob} (reviewed : Reviewed rt (.v3 set)) :
    (writeSet rt engine set).Returns (Reportable rt (.v3 set)) := by
  obtain ⟨count, keys⟩ := set_identities reviewed.fields
  have rows : set.frozenSet.rowCount = set.frozenSet.members.length := by
    have issues := reviewed.issues
    simp only [jobIssues, setJobIssues, frozenSetIssues, List.append_eq_nil_iff, issueIf_eq_nil,
      decide_eq_false_iff_not, not_or, not_not] at issues
    exact issues.1.1.1.1.1.1.1.1.1.symm
  have effects : (each (writeMember rt engine set) set.frozenSet.members).Returns
      (List.Forall₂ (fun m e => e.primaryKey = m.primaryKey) set.frozenSet.members) := by
    refine returns_each fun m _ => ?_
    refine returns_after fun statement => returns_after fun affected => returns_after fun _ => (returns_pure _).mpr ?_
    unfold memberEffect
    cases set.operation <;> rfl
  refine (returns_bind _ _).mpr (effects.mono ?_)
  intro memberEffects each
  have length := each.length_eq
  refine (returns_pure _).mpr ⟨⟨rfl, ?_, ?_⟩, by simp [outcomeOf], fun _ => rfl⟩
  · simp only [membersReported, Bool.and_eq_true, decide_eq_true_eq]
    exact ⟨⟨by omega, by omega⟩, safe_effects each keys⟩
  · intro _
    exact ⟨rows, length.symm⟩

theorem returns_writeCompensation {rt : SourceRuntime} (engine : Engine) {reversal : CompensationJob}
    (reviewed : Reviewed rt (.v4 reversal)) :
    (writeCompensation rt engine reversal).Returns (Reportable rt (.v4 reversal)) := by
  have named := nonEmpty_of_headerFields (headerFields_of_jobFields reviewed.fields)
  have fields := reviewed.fields
  simp only [jobFields, compensationJobFields, Bool.and_eq_true] at fields
  have d := inverseDescriptorV1Schema_iff.mp fields.2
  have effects : (each (writeCompensationMember rt engine reversal) reversal.compensation.members).Returns
      (List.Forall₂ (fun m e => e.primaryKey = m.primaryKey) reversal.compensation.members) := by
    refine returns_each fun m _ => ?_
    refine returns_after fun statement => returns_after fun affected => returns_after fun _ => ?_
    refine returns_after fun scope => (returns_pure _).mpr ?_
    unfold compensationEffect
    cases reversal.operation <;> rfl
  refine (returns_bind _ _).mpr (effects.mono ?_)
  intro memberEffects each
  refine (returns_bind _ _).mpr ((returns_required _).mpr ?_)
  intro inverse built
  have length := each.length_eq
  have count := d.count
  refine (returns_pure _).mpr ⟨⟨rfl, ?_, ?_⟩, by simp [outcomeOf], ?_⟩
  · simp only [membersReported, Bool.and_eq_true, decide_eq_true_eq]
    exact ⟨⟨by omega, by omega⟩, safe_effects each fun m member => (d.members m member).1.1⟩
  · intro _
    rfl
  · intro restores
    exact inverse_accepted fields.2 named.2 named.1 (restores rfl reversal rfl) built

/-- The outcome of every transaction of an accepted job can be reported. -/
theorem returns_mutate {rt : SourceRuntime} (engine : Engine) {job : WritebackJob} (reviewed : Reviewed rt job) :
    (mutate rt engine job).Returns (Reportable rt job) := by
  refine (returns_bind _ _).mpr ((returns_refusal engine reviewed).mono ?_)
  intro refused reportable
  cases refused with
  | some outcome => exact (returns_pure _).mpr (reportable outcome rfl)
  | none =>
    have fields := reviewed.fields
    cases job with
    | v1 legacy => exact returns_writeRow (rowColumns_of_legacy fields) (.inl ⟨legacy, rfl⟩)
    | v2 row => exact returns_writeRow (rowColumns_of_fields fields) (.inr ⟨row, rfl⟩)
    | v3 set => exact returns_writeSet engine reviewed
    | v4 reversal => exact returns_writeCompensation engine reviewed

/-! ### An apply -/

abbrev SourceTrace := List (Answered SourceCall Answer AdapterError)

/-- The claims of a run are answered by a ledger of the runner. -/
def LedgerAnswers (platform : Platform) (trace : SourceTrace) : Prop :=
  ∀ job runnerId d, ⟨.claimIntent job runnerId, .ok d⟩ ∈ trace → AnsweredByLedger platform job runnerId d

/-- The ledger answered the claim of a run with this result. -/
def FoundInLedger (job : WritebackJob) (trace : SourceTrace) (result : WritebackResult) : Prop :=
  ∃ runnerId intentId, ⟨.claimIntent job runnerId, .ok (.existingResult intentId result)⟩ ∈ trace

/-- What a run reports: a result that names the job, in the version of the job unless the
    ledger had it. The result schema accepts it, but for the success of a reversal whose
    own inverse it refuses. -/
structure ReportedBy (rt : SourceRuntime) (job : WritebackJob) (trace : SourceTrace) (result : WritebackResult) : Prop where
  accepted : Restores job result.status → parseWritebackResult rt.platform result = .ok result
  named : result.jobId = job.jobId
  version : SameVersion job result ∨ FoundInLedger job trace result

section
variable {rt : SourceRuntime} {engine : Engine} {config : RunnerConfig} {job : WritebackJob} {trace : SourceTrace}

theorem Reported.by {result : WritebackResult} (reported : Reported rt job result) : ReportedBy rt job trace result :=
  ⟨reported.accepted, reported.named, .inl reported.version⟩

theorem nonEmpty_sourceReconciliationIntentId (rt : SourceRuntime) (engine : Engine) (job : WritebackJob) :
    nonEmpty (sourceReconciliationIntentId rt engine job) = true := by
  simp only [nonEmpty, bne_iff_ne, ne_eq]
  intro empty
  have length := congrArg String.length empty
  have marker : "source-db:sha256:".length = 17 := rfl
  rw [sourceReconciliationIntentId, String.length_append, marker] at length
  simp at length

/-- The calls of one run, answered as a ledger does. -/
def Within (rt : SourceRuntime) (trace : SourceTrace) (c : Answered SourceCall Answer AdapterError) : Prop :=
  c ∈ trace ∧ LedgerAnswers rt.platform trace

variable {G : Answered SourceCall Answer AdapterError → Prop}

theorem required_given {α : Type} {x : Except String α} {R : α → Prop} (values : ∀ a, x = .ok a → R a) :
    (required x).ReturnsGiven G R :=
  ((returns_required x).mpr values).given

theorem given_after {α β : Type} {p : Adapter β} {f : β → Adapter α} {R : α → Prop}
    (rest : ∀ b, (f b).ReturnsGiven G R) : (p >>= f).ReturnsGiven G R :=
  ReturnsGiven.bind (returns_of_forall fun _ => trivial : p.Returns fun _ => True).given fun b _ => rest b

/-- A step that is taken under a condition only. -/
theorem given_when {α : Type} {c : Prop} [Decidable c] {p : Adapter Unit} {f : Unit → Adapter α} {R : α → Prop}
    (rest : (f ()).ReturnsGiven G R) : (if c then p >>= f else f ()).ReturnsGiven G R := by
  split
  · exact given_after fun _ => rest
  · exact rest

/-- A transaction returns what its function does. -/
theorem given_sourceTransaction {α : Type} {fn : Adapter α} {R : α → Prop} {hooked : Bool}
    (returns : fn.ReturnsGiven G R) :
    (sourceTransaction rt engine config job hooked fn).ReturnsGiven G R := by
  unfold sourceTransaction
  refine given_when ?_
  refine given_after fun _ => ReturnsGiven.tryCatch ?_ fun e => ?_
  · refine given_after fun _ => given_after fun _ => ReturnsGiven.bind returns fun result good => ?_
    exact given_after fun _ => given_after fun _ => given_after fun _ => good
  · unfold rollbackSource
    refine given_when ?_
    trivial

/-! ### Receipts in the source -/

theorem given_claimSourceReceipt (reviewed : Reviewed rt job) :
    (claimSourceReceipt rt engine config job).ReturnsGiven G fun found => ∀ result ∈ found, Reported rt job result := by
  have unavailable : safeCode "SOURCE_RECEIPT_UNAVAILABLE" = true := safeCode_ofList rfl
  refine given_after fun claimed => ?_
  split
  · simp
  · refine given_after fun receipt => ?_
    cases receipt with
    | none =>
      refine (returnsGiven_pure _).mpr ?_
      intro result found
      cases found
      exact failedResult_reported engine config reviewed unavailable
    | some row =>
      refine ReturnsGiven.bind (required_given fun _ built => resultFromExistingReceipt_reported reviewed built) ?_
      intro result reported
      simpa using reported

theorem given_mutateAndRecord (reviewed : Reviewed rt job) :
    (mutateAndRecord rt engine config job).ReturnsGiven G (Reported rt job) := by
  refine ReturnsGiven.bind (returns_mutate engine reviewed).given fun outcome reportable => ?_
  refine ReturnsGiven.bind (required_given fun _ built => resultFromOutcome_reported reviewed reportable.fits
    reportable.finished reportable.carried built) fun result reported => ?_
  exact given_after fun _ => reported

theorem given_applyWithSourceReceipt (reviewed : Reviewed rt job) :
    (applyWithSourceReceipt rt engine config job).ReturnsGiven G (Reported rt job) := by
  have unknown : safeCode "OUTCOME_UNKNOWN" = true := safeCode_ofList rfl
  unfold applyWithSourceReceipt
  refine given_when ?_
  refine ReturnsGiven.tryCatch (given_sourceTransaction ?_) fun e => ?_
  · refine ReturnsGiven.bind (given_claimSourceReceipt reviewed) fun existing reported => ?_
    cases existing with
    | some result => exact (returnsGiven_pure _).mpr (reported result rfl)
    | none => exact given_mutateAndRecord reviewed
  · split
    · refine (returnsGiven_pure _).mpr (reconciliationResult_reported engine config reviewed unknown ?_)
      exact nonEmpty_sourceReconciliationIntentId rt engine job
    · trivial

/-! ### Receipts in the ledger of the runner -/

theorem given_reconcileIntent (reviewed : Reviewed rt job) {intentId reason : String}
    (named : nonEmpty intentId = true) :
    (reconcileIntent rt engine config job intentId reason).ReturnsGiven G (Reported rt job) :=
  given_after fun _ => reconciliationResult_reported engine config reviewed (safeCode_ofList rfl) named

theorem given_mutateWithIntent (reviewed : Reviewed rt job) {intentId : String} (named : nonEmpty intentId = true) :
    (mutateWithIntent rt engine config job intentId).ReturnsGiven G (Sum.elim (Reported rt job) (Reported rt job)) := by
  refine ReturnsGiven.tryCatch ?_ fun e => ?_
  · refine ReturnsGiven.bind (given_sourceTransaction (returns_mutate engine reviewed).given) fun outcome reportable => ?_
    refine ReturnsGiven.bind (required_given fun _ built => resultFromOutcome_reported reviewed reportable.fits
      reportable.finished reportable.carried built) fun result reported => ?_
    exact reported
  · split
    · exact ReturnsGiven.bind (given_reconcileIntent reviewed named) fun result reported => reported
    · exact given_after fun _ =>
        failedResult_reported engine config reviewed (safeCode_safeErrorCode engine job.operation e)

theorem given_completeWithIntent (reviewed : Reviewed rt job) {intentId : String} (named : nonEmpty intentId = true)
    {result : WritebackResult} (reported : Reported rt job result) :
    (completeWithIntent rt engine config job intentId result).ReturnsGiven G (Reported rt job) := by
  refine given_after fun stopped => ?_
  split
  · exact given_reconcileIntent reviewed named
  · exact given_after fun _ => given_after fun _ => reported

theorem given_applyIntent (reviewed : Reviewed rt job) {intentId : String} (named : nonEmpty intentId = true) :
    (applyIntent rt engine config job intentId).ReturnsGiven G (Reported rt job) := by
  refine given_after fun _ => given_after fun taken => ?_
  split
  · exact given_reconcileIntent reviewed named
  · refine given_after fun _ => ReturnsGiven.bind (given_mutateWithIntent reviewed named) fun ended reported => ?_
    cases ended with
    | inl result => exact given_completeWithIntent reviewed named reported
    | inr result => exact reported

theorem given_applyWithRunnerLedger (reviewed : Reviewed rt job) :
    (applyWithRunnerLedger rt engine config job).ReturnsGiven (Within rt trace) (ReportedBy rt job trace) := by
  unfold applyWithRunnerLedger
  split
  · exact (failedResult_reported engine config reviewed (safeCode_ofList rfl)).by
  · refine ReturnsGiven.bind (returnsGiven_ask fun d within => (⟨within.2 _ _ _ within.1, within.1⟩ :
      AnsweredByLedger rt.platform job config.runnerId d ∧ ⟨.claimIntent job config.runnerId, .ok d⟩ ∈ trace)) ?_
    rintro claim ⟨answered, asked⟩
    have answers := answered.answers
    cases claim with
    | existingResult intentId stored =>
      refine required_given fun result built => ?_
      rcases asAlreadyApplied_reported reviewed built with reported | rfl
      · exact reported.by
      · exact ⟨fun _ => answers.accepted, answers.named, .inr ⟨config.runnerId, intentId, asked⟩⟩
    | reconciliationRequired intentId reason =>
      exact (reconciliationResult_reported engine config reviewed (safeCode_ofList rfl) answers).by
    | proceed intentId => exact (given_applyIntent reviewed answers).mono fun _ => Reported.by

/-! ### Jobs -/

theorem given_applyConnected (reviewed : Reviewed rt job) :
    (applyConnected rt engine config job).ReturnsGiven (Within rt trace) (ReportedBy rt job trace) := by
  refine given_after fun _ => ?_
  split
  · exact given_applyWithRunnerLedger reviewed
  · exact (given_applyWithSourceReceipt reviewed).mono fun _ => Reported.by

theorem given_applyJob (reviewed : Reviewed rt job) (live : config.dryRun = true → ∀ set, job ≠ .v3 set) :
    (applyJob rt engine config job).ReturnsGiven (Within rt trace) (ReportedBy rt job trace) := by
  have failed : ∀ e, (pure (failedResult rt engine config job (safeErrorCode engine job.operation e)) :
      Adapter WritebackResult).ReturnsGiven (Within rt trace) (ReportedBy rt job trace) := fun e =>
    (failedResult_reported engine config reviewed (safeCode_safeErrorCode engine job.operation e)).by
  unfold applyJob
  simp only
  split
  · rename_i dry
    exact required_given fun result built => (dryRunResult_reported reviewed (live dry) built).by
  split
  · exact (failedResult_reported engine config reviewed (safeCode_ofList rfl)).by
  cases engine with
  | postgres => exact ReturnsGiven.tryCatch (given_after fun _ => given_applyConnected reviewed) failed
  | mysql => exact given_after fun _ => ReturnsGiven.tryCatch (given_applyConnected reviewed) failed

end

/-- Whatever a run of either adapter on an accepted job returns, the result schema
    accepts it, and it names the job. -/
theorem applied_result_reportable (rt : SourceRuntime) (engine : Engine) (config : RunnerConfig) {job : WritebackJob}
    (accepted : parseWritebackJob rt.platform job = .ok job) (live : config.dryRun = true → ∀ set, job ≠ .v3 set)
    {trace : SourceTrace} {result : WritebackResult} (runs : (applyJob rt engine config job).Run trace (.ok result))
    (ledger : LedgerAnswers rt.platform trace) : ReportedBy rt job trace result := by
  obtain ⟨_, fields, issues⟩ := parseWritebackJob_ok accepted
  have given : (applyJob rt engine config job).ReturnsGiven (Within rt trace) (ReportedBy rt job trace) :=
    given_applyJob ⟨fields, issues⟩ live
  exact returnsGiven_iff_run.mp given trace result runs fun c member => ⟨member, ledger⟩

/-! ### A ticket that two proposals close -/

/-- A runtime with one digest and one clock time, to evaluate definitions with. -/
def quietRuntime : SourceRuntime :=
  { platform := constantPlatform, versionValuesMatch := fun _ _ => false, number := fun _ => none, text := fun _ => ""
    digest := fun _ => ⟨"00"⟩, now := "2026-01-01T00:00:00Z", nowNonEmpty := rfl }

def rehearsal : RunnerConfig :=
  { runnerId := "runner_1", runnerIdNonEmpty := rfl, databaseUrl := "", dryRun := true, statementTimeoutMs := none
    receipts := none, databaseScope := none, writebackIntentStore := false }

/-- The job that closes ticket 7 for a proposal. -/
def closeFor (proposalId idempotencyKey : String) : WritebackJob :=
  .v1
    { jobId := "wbj_1", proposalId, approvalId := "sha256:bb", sourceId := "crm", engine := .postgres
      target := ⟨"public", "tickets", ⟨"id", some (.str "7")⟩, ⟨"tenant_id", .str "acme"⟩, none⟩
      allowedColumns := ["status"], idempotencyKey, attemptCount := 1
      patch := .ofList [("status", .str "closed")], conflictGuard := .versionColumn "version" (.num 3), freshness := none }

def closedResult : WritebackResult :=
  .v1
    { jobId := "wbj_1", runnerId := "runner_1", status := .applied, affectedRows := 0, resultHash := some ⟨"00"⟩
      completedAt := "2026-01-01T00:00:00Z", errorCode := none, intentId := none, resultVersion := none }

theorem closeFor_rehearsed (proposalId idempotencyKey : String) :
    (applyJob quietRuntime .postgres rehearsal (closeFor proposalId idempotencyKey)).Run [] (.ok closedResult) := by
  have same : validateOperation .postgres constantPlatform (closeFor proposalId idempotencyKey) =
      validateOperation .postgres constantPlatform (closeFor "" "") := rfl
  have valid : validateOperation .postgres constantPlatform (closeFor "" "") = .ok () := by decide
  have result : dryRunResult quietRuntime .postgres rehearsal (closeFor proposalId idempotencyKey) = .ok closedResult := by
    simp only [dryRunResult, show quietRuntime.platform = constantPlatform from rfl, same, valid]
    rfl
  have dry : rehearsal.dryRun = true := rfl
  simp only [applyJob, if_pos dry, result]
  exact ⟨rfl, rfl⟩

/-- A result tells neither the proposal nor the idempotency key of its job. -/
theorem result_names_no_proposal :
    ¬ ∃ proposalOf keyOf : WritebackResult → String, ∀ rt engine config job trace result,
      parseWritebackJob rt.platform job = .ok job → (applyJob rt engine config job).Run trace (.ok result) →
      LedgerAnswers rt.platform trace → proposalOf result = job.proposalId ∧ keyOf result = job.idempotencyKey := by
  rintro ⟨proposalOf, keyOf, names⟩
  have first := names quietRuntime .postgres rehearsal (closeFor "prop_1" "prop_1:7") [] closedResult (by decide)
    (closeFor_rehearsed ..) (fun _ _ _ member => by cases member)
  have second := names quietRuntime .postgres rehearsal (closeFor "prop_2" "prop_2:7") [] closedResult (by decide)
    (closeFor_rehearsed ..) (fun _ _ _ member => by cases member)
  have same : (closeFor "prop_1" "prop_1:7").proposalId = (closeFor "prop_2" "prop_2:7").proposalId :=
    first.1.symm.trans second.1
  exact absurd same (by decide)

theorem closed_result_reportable : ReportedBy quietRuntime (closeFor "prop_1" "prop_1:7") [] closedResult :=
  applied_result_reportable quietRuntime .postgres rehearsal (by decide) (fun _ _ other => by cases other)
    (closeFor_rehearsed ..) (fun _ _ _ member => by cases member)

/-! ### The results that are left out -/

/-- The result schema refuses the dry run of every accepted set job. -/
theorem dryRun_set_refused {rt : SourceRuntime} {engine : Engine} {config : RunnerConfig} {set : SetJob}
    {result : WritebackResult} (fields : setJobFields rt.platform set = true)
    (built : dryRunResult rt engine config (.v3 set) = .ok result) :
    parseWritebackResult rt.platform result ≠ .ok result := by
  obtain ⟨_, _, rest⟩ := bind_eq_ok built
  obtain ⟨inverse, hash, _, rfl⟩ := resultFromOutcome_ok rest
  obtain ⟨count, _⟩ := set_identities fields
  intro accepted
  obtain ⟨_, issues, _⟩ := accept_ok_iff.mp accepted
  simp [resultHeader, outcomeOf, identityForJob] at issues
  omega

/-- The schema of inverse descriptors refuses the inverse of an update that cannot be
    restored again. -/
theorem inverse_accepted_iff {platform : Platform} {job : CompensationJob} {inverse : InverseDescriptor}
    (accepted : inverseDescriptorV1Schema platform job.compensation = true) (proposalId : nonEmpty job.proposalId = true)
    (jobId : nonEmpty job.jobId = true) (built : compensationInverseFromJob platform job = .ok inverse) :
    inverseDescriptorV1Schema platform inverse = true ↔ Invertible job := by
  constructor
  · intro good operation version advance member inside
    have d := inverseDescriptorV1Schema_iff.mp good
    obtain ⟨_, _, rest⟩ := bind_eq_ok built
    have advance' : job.compensation.versionAdvance = some version := advance
    simp only [operation, advance'] at rest
    cases rest
    have here := List.mem_map_of_mem inside (f := restoredMember job.compensation version.column)
    have bounded := (d.members _ here).1.2
    have issues := d.memberIssues _ here
    simp only [restorable, bounded, Bool.true_and, Bool.or_eq_true, decide_eq_true_eq]
    by_cases exhausted : job.compensation.lineage.depth ≥ 16
    · exact .inl exhausted
    · simp [inverseMemberIssues, exhausted] at issues
      exact .inr issues.2.1
  · intro invertible
    exact inverse_accepted accepted proposalId jobId invertible built

end SynapsorRunner.Adapters
