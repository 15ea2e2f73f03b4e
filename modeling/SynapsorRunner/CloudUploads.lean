import SynapsorRunner.JobNormalisation
import SynapsorRunner.JsonText
import SynapsorRunner.ProposalStore

/-!
Change sets that leave the runner. `cloudSafeChangeSet` empties the evidence, strips the
principal's column from the images of a change set, replaces the principal by the
fingerprint of its value and drops the value of the guard. The components of a
deduplication and the guard that a compensation carries in its descriptor are left as they
are: `cloudSafeChangeSet_hides_iff` says when two change sets that differ only in where the
value stands are uploaded as one.
-/
namespace SynapsorRunner.CloudUploads
open SynapsorRunner.Protocol
open SynapsorRunner.Proposals (ChangeSetBody ChangeSetMode SourceKind WritebackMode)
open SynapsorRunner.ProposalStore (ReviewStatus)
open SynapsorRunner.JobNormalisation (principalScopeFields principalScopeFingerprint)
open SynapsorRunner.JsonText (Json)

/-! ### Whole change sets -/

inductive PrincipalSource where
  | trustedSession
  | cloudSession
  | environment
  | staticDev
  deriving DecidableEq

structure Principal where
  id : String
  source : PrincipalSource
  deriving DecidableEq

structure ContractProvenance where
  digest : Digest
  version : String
  deriving DecidableEq

structure ProposalScope where
  tenantId : String
  businessObject : String
  objectId : String
  deriving DecidableEq

/-- The properties that an object schema passes through. -/
abbrev Extras := List (String × Json)

structure Evidence where
  bundleId : String
  queryFingerprint : Digest
  items : List Json
  extras : Extras

inductive ApprovalMode where
  | human
  | operator
  deriving DecidableEq

structure Approval where
  status : ReviewStatus
  mode : Option ApprovalMode
  requiredRole : Option String
  extras : Extras

inductive WritebackStatus where
  | notApplied
  | pendingWorker
  | applied
  | conflict
  | failed
  | canceled
  | reconciliationRequired
  deriving DecidableEq

/-- A change set with all of its envelope. -/
structure ChangeSet extends Proposals.ChangeSet where
  proposalVersion : Nat
  action : String
  contract : Option ContractProvenance
  principal : Principal
  scope : ProposalScope
  evidence : Evidence
  approval : Approval
  writebackStatus : WritebackStatus
  writebackExtras : Extras
  sourceDatabaseMutated : Bool
  proposalHash : Digest
  createdAt : String

/-! ### The schemas of change sets -/

/-- `!value` of a scalar that may be absent. -/
def falsy : Option Scalar → Bool
  | none => true
  | some .null => true
  | some (.bool b) => !b
  | some (.num n) => decide (n = 0)
  | some (.str s) => s == ""

def sourceEngine : SourceKind → Option Engine
  | .externalPostgres => some .postgres
  | .externalMysql => some .mysql
  | .synapsorTable => none

/-- `validateFreshnessBinding` of a change set, whose source may have no engine. -/
def freshnessIssues (cs : ChangeSet) (mode : FreshnessTargetMode) (members : Nat) : List Issue :=
  match sourceEngine cs.source.kind with
  | some engine => validateFreshnessBinding cs.freshness cs.source.sourceId engine mode members
  | none => issueIf cs.freshness.isSome "freshness authority requires an external PostgreSQL or MySQL source"
      [.key "freshness"]

/-- The field checks that the schemas of all versions share. -/
def headerFields (platform : Platform) (cs : ChangeSet) : Bool :=
  nonEmpty cs.proposalId && decide (0 < cs.proposalVersion) && nonEmpty cs.action &&
  cs.contract.all (fun c => nonEmpty c.version && decide (c.version.length ≤ 128)) &&
  nonEmpty cs.principal.id && nonEmpty cs.scope.tenantId && nonEmpty cs.scope.businessObject && nonEmpty cs.scope.objectId &&
  nonEmpty cs.source.sourceId && safeIdentifier cs.source.primaryKey.column && safeIdentifier cs.guards.tenant.column &&
  cs.guards.principalScope.all (principalScopeFields platform) &&
  cs.guards.expectedVersion.all (fun v => safeIdentifier v.column) && nonEmpty cs.evidence.bundleId &&
  cs.requiredApprovals.all (fun n => decide (1 ≤ n ∧ n ≤ 10)) && nonEmpty cs.createdAt

/-- The field checks that the versions after the first share. -/
def boundedFields (cs : ChangeSet) (maxItems : Nat) : Bool :=
  safeIdentifier cs.source.schema && safeIdentifier cs.source.table &&
  boundedRecord cs.before && boundedRecord cs.patch && boundedRecord cs.after &&
  cs.guards.allowedColumns.all safeIdentifier && decide (cs.guards.allowedColumns.length ≤ 256) &&
  cs.guards.versionAdvance.all (fun v => safeIdentifier v.column) && decide (cs.evidence.items.length ≤ maxItems)

/-- What sets and compensations ask of their writeback. -/
def workerWriteback (cs : ChangeSet) : Bool :=
  decide (cs.writebackMode = .trustedWorkerRequired) && decide (cs.writebackExecutor = some "sql_update")

def lineageFields (lineage : ReversalLineage) : Bool :=
  nonEmpty lineage.rootProposalId && nonEmpty lineage.parentProposalId && nonEmpty lineage.revertsProposalId &&
  decide (1 ≤ lineage.depth ∧ lineage.depth ≤ 16)

def frozenSetFields (set : FrozenSet) : Bool :=
  decide (1 ≤ set.maxRows ∧ set.maxRows ≤ 100) && decide (1 ≤ set.rowCount ∧ set.rowCount ≤ 100) &&
  decide (1 ≤ set.aggregateBounds.length ∧ set.aggregateBounds.length ≤ 8) &&
  set.aggregateBounds.all (fun b => safeIdentifier b.column && decide (0 ≤ b.maximum ∧ 0 ≤ b.actual)) &&
  decide (1 ≤ set.members.length ∧ set.members.length ≤ 100) && set.members.all memberFields

/-- The field checks of the four schemas. A field that a version does not know is absent. -/
def changeSetFields (platform : Platform) (cs : ChangeSet) : Bool :=
  headerFields platform cs && match cs.body with
  | .v1 =>
    nonEmpty cs.source.schema && nonEmpty cs.source.table && cs.source.primaryKey.value.isSome &&
    !cs.before.entries.isEmpty && !cs.patch.entries.isEmpty && !cs.after.entries.isEmpty &&
    cs.guards.allowedColumns.all nonEmpty && !cs.guards.allowedColumns.isEmpty && cs.guards.expectedVersion.isSome &&
    cs.guards.versionAdvance.isNone && cs.guards.deduplication.isNone && cs.approval.mode.isNone &&
    decide (cs.writebackStatus ≠ .reconciliationRequired)
  | .v2 _ reversibility =>
    boundedFields cs 1000 && cs.guards.deduplication.all componentFields && reversibility.all lineageFields &&
    cs.approval.mode.isNone
  | .v3 _ set reversibility =>
    boundedFields cs 100 && frozenSetFields set && cs.guards.deduplication.isNone && reversibility.all lineageFields &&
    cs.approval.mode.isSome && cs.approval.requiredRole.all nonEmpty && workerWriteback cs
  | .compensation _ _ =>
    boundedFields cs 100 && decide (cs.mode = .reviewRequired) && decide (cs.source.kind ≠ .synapsorTable) &&
    cs.guards.expectedVersion.isNone && cs.guards.versionAdvance.isNone && cs.guards.deduplication.isNone &&
    cs.freshness.isNone && cs.approval.mode.isSome && cs.approval.requiredRole.all nonEmpty &&
    decide (cs.writebackStatus = .notApplied) && cs.writebackExtras.isEmpty && workerWriteback cs &&
    !cs.sourceDatabaseMutated

def patchIssues (cs : ChangeSet) : List Issue :=
  cs.patch.keys.flatMap fun column =>
    issueIf (!cs.guards.allowedColumns.contains column) ("patch column not allowed: " ++ column) [.key "patch", .key column]

def allowlistIssue (cs : ChangeSet) (subject : String) (column : Column) : List Issue :=
  issueIf (cs.guards.allowedColumns.contains column) (subject ++ " column must not be patch-allowlisted")
    [.key "guards", .key "allowed_columns"]

def principalIssue (cs : ChangeSet) : List Issue :=
  match cs.guards.principalScope with
  | some scope => allowlistIssue cs "principal scope" scope.column
  | none => []

/-- What the first two versions ask of patch and allowlist. -/
def rowAllowlistIssues (cs : ChangeSet) : List Issue :=
  patchIssues cs ++ allowlistIssue cs "primary key" cs.source.primaryKey.column ++
  allowlistIssue cs "tenant guard" cs.guards.tenant.column ++ principalIssue cs

def insertIssues (cs : ChangeSet) : List Issue :=
  issueIf (!cs.before.entries.isEmpty) "INSERT before must be empty" [.key "before"] ++
  (match cs.guards.deduplication with
  | none => [⟨"INSERT requires source-enforced deduplication", [.key "guards", .key "deduplication"]⟩]
  | some components =>
    issueIf (!components.any fun c => decide (c.source = .proposalId)) "INSERT deduplication requires proposal identity"
      [.key "guards", .key "deduplication", .key "components"] ++
    issueIf (!components.any fun c => decide (c.source = .trustedTenant ∧ c.column = cs.guards.tenant.column ∧
        c.value = cs.guards.tenant.value)) "INSERT deduplication requires the trusted tenant guard"
      [.key "guards", .key "deduplication", .key "components"]) ++
  issueIf (cs.guards.expectedVersion.isSome || cs.guards.versionAdvance.isSome) "INSERT must not declare version guards"
    [.key "guards"]

/-- What an update and a delete have in common. -/
def guardedIssues (cs : ChangeSet) : List Issue :=
  issueIf cs.before.entries.isEmpty "UPDATE and DELETE require reviewed before data" [.key "before"] ++
  issueIf (falsy cs.source.primaryKey.value) "UPDATE and DELETE require a primary-key value"
    [.key "source", .key "primary_key", .key "value"] ++
  issueIf cs.guards.expectedVersion.isNone "UPDATE and DELETE require an exact version guard"
    [.key "guards", .key "expected_version"] ++
  issueIf cs.guards.deduplication.isSome "deduplication is only valid for INSERT" [.key "guards", .key "deduplication"]

def rowIssues (cs : ChangeSet) : RowOperation → List Issue
  | .insert => insertIssues cs
  | .update => guardedIssues cs ++
    issueIf cs.patch.entries.isEmpty "UPDATE patch must not be empty" [.key "patch"] ++
    issueIf cs.after.entries.isEmpty "UPDATE after must not be empty" [.key "after"]
  | .delete => guardedIssues cs ++
    issueIf (!cs.patch.entries.isEmpty || !cs.after.entries.isEmpty || !cs.guards.allowedColumns.isEmpty)
      "DELETE has no patch, after row, or writable columns" [.key "patch"] ++
    issueIf cs.guards.versionAdvance.isSome "DELETE must not advance a version" [.key "guards", .key "version_advance"]

def setMemberIssues (cs : ChangeSet) (operation : SetOperation) (m : FrozenSetMember) (i : Nat) : List Issue :=
  issueIf (decide (m.primaryKey.column ≠ cs.source.primaryKey.column)) "member primary key column must match source"
    [.key "frozen_set", .key "members", .index i, .key "primary_key", .key "column"] ++
  match operation with
  | .update => issueIf (m.expectedVersion.isNone || m.beforeDigest.isNone || m.afterDigest.isNone ||
      m.tombstoneDigest.isSome || m.deduplication.isSome) "set UPDATE members require version and before/after digests"
      [.key "frozen_set", .key "members", .index i]
  | .delete => issueIf (m.expectedVersion.isNone || m.beforeDigest.isNone || m.tombstoneDigest.isNone ||
      !m.after.entries.isEmpty || m.afterDigest.isSome || m.deduplication.isSome)
      "set DELETE members require version and tombstone" [.key "frozen_set", .key "members", .index i]
  | .batchInsert => issueIf (m.expectedVersion.isSome || !m.before.entries.isEmpty || m.beforeDigest.isSome ||
      m.afterDigest.isNone || m.deduplication.isNone) "batch INSERT members require exact after data and deduplication"
      [.key "frozen_set", .key "members", .index i]

def setIssues (platform : Platform) (cs : ChangeSet) (operation : SetOperation) (set : FrozenSet) : List Issue :=
  frozenSetIssues platform set ++
  freshnessIssues cs (if operation = .batchInsert then .notApplicable else .frozenSet)
    (if operation = .batchInsert then 0 else set.rowCount) ++
  issueIf (cs.source.primaryKey.value.isSome || cs.guards.expectedVersion.isSome)
    "set guards live on frozen members, not the top-level envelope" [.key "frozen_set"] ++
  patchIssues cs ++ principalIssue cs ++
  (set.members.zipIdx.flatMap fun (m, i) => setMemberIssues cs operation m i) ++
  issueIf (decide (operation ≠ .update) && cs.guards.versionAdvance.isSome) "version advance is valid only for set UPDATE"
    [.key "guards", .key "version_advance"] ++
  issueIf (decide (operation = .delete) && !cs.guards.allowedColumns.isEmpty) "set DELETE has no allowed write columns"
    [.key "guards", .key "allowed_columns"]

def compensationIssues (cs : ChangeSet) (d : InverseDescriptor) : List Issue :=
  issueIf (decide (d.availability ≠ .available)) "compensation proposal requires an available inverse"
    [.key "compensation", .key "descriptor", .key "availability"] ++
  issueIf (decide (d.target.sourceId ≠ cs.source.sourceId ∨ d.target.schema ≠ cs.source.schema ∨
      d.target.table ≠ cs.source.table ∨ d.target.primaryKeyColumn ≠ cs.source.primaryKey.column))
    "compensation descriptor target must match proposal source" [.key "compensation", .key "descriptor", .key "target"] ++
  issueIf (decide (d.tenantGuard.column ≠ cs.guards.tenant.column ∨ d.tenantGuard.value ≠ cs.guards.tenant.value ∨
      d.tenantGuard.value ≠ .str cs.scope.tenantId))
    "compensation tenant authority must match trusted proposal scope" [.key "guards", .key "tenant"] ++
  issueIf (decide (d.principalScope ≠ cs.guards.principalScope))
    "compensation principal authority must match inverse descriptor" [.key "guards", .key "principal_scope"] ++
  issueIf (decide (d.allowedColumns ≠ cs.guards.allowedColumns))
    "compensation allowlist must match inverse descriptor" [.key "guards", .key "allowed_columns"]

/-- The refinements of the four schemas. -/
def changeSetIssues (platform : Platform) (cs : ChangeSet) : List Issue :=
  match cs.body with
  | .v1 => freshnessIssues cs .exactGuard 1 ++ rowAllowlistIssues cs
  | .v2 operation _ =>
    freshnessIssues cs (if operation = .insert then .notApplicable else .exactGuard)
      (if operation = .insert then 0 else 1) ++
    rowAllowlistIssues cs ++ rowIssues cs operation
  | .v3 operation set _ => setIssues platform cs operation set
  | .compensation d _ => inverseDescriptorIssues platform d ++ compensationIssues cs d

/-- The descriptor of a compensation is parsed with its own guard. -/
def descriptorFields (platform : Platform) : ChangeSetBody → Bool
  | .compensation d _ => inverseDescriptorFields d && d.principalScope.all (principalScopeFields platform)
  | _ => true

/-- `parseChangeSet` accepts. -/
def parseChangeSet (platform : Platform) (cs : ChangeSet) : Bool :=
  changeSetFields platform cs && descriptorFields platform cs.body && (changeSetIssues platform cs).isEmpty

/-! ### What is uploaded -/

/-- `delete value[column]`. -/
def strip (column : Column) (value : Record) : Record := value.filterKeys (· != column)

def stripMember (column : Column) (m : FrozenSetMember) : FrozenSetMember :=
  { m with before := strip column m.before, after := strip column m.after }

def stripInverseMember (column : Column) (m : InverseMember) : InverseMember :=
  { m with expectedState := strip column m.expectedState, restoreValues := m.restoreValues.map (strip column) }

def stripDescriptor (column : Column) (d : InverseDescriptor) : InverseDescriptor :=
  { d with members := d.members.map (stripInverseMember column) }

def stripBody (column : Column) : ChangeSetBody → ChangeSetBody
  | .v3 operation set reversibility =>
    .v3 operation { set with members := set.members.map (stripMember column) } reversibility
  | .compensation d receipt => .compensation (stripDescriptor column d) receipt
  | body => body

def stripCloudPrincipalColumn (cs : ChangeSet) (column : Column) : ChangeSet :=
  { cs with before := strip column cs.before, after := strip column cs.after, body := stripBody column cs.body }

/-- The JSON round trip of the source copies the change set. -/
def cloudSafeChangeSet (cs : ChangeSet) : ChangeSet :=
  let sanitized := { cs with evidence := { cs.evidence with items := [] } }
  match cs.guards.principalScope with
  | none => sanitized
  | some scope =>
    let stripped := stripCloudPrincipalColumn sanitized scope.column
    { stripped with
      principal := { stripped.principal with id := "sha256:" ++ scope.valueFingerprint.hex }
      guards := { stripped.guards with principalScope := some { scope with value := none } } }

/-! ### Where the value of the principal stands -/

def maskComponent (column : Column) (c : DeduplicationComponent) : DeduplicationComponent :=
  if c.column = column then { c with value := .null } else c

def maskMember (column : Column) (m : FrozenSetMember) : FrozenSetMember :=
  { stripMember column m with deduplication := m.deduplication.map (·.map (maskComponent column)) }

def maskGuard (scope : PrincipalScopeGuard) : PrincipalScopeGuard := { scope with value := none }

def maskDescriptor (column : Column) (d : InverseDescriptor) : InverseDescriptor :=
  { stripDescriptor column d with principalScope := d.principalScope.map maskGuard }

def maskBody (column : Column) : ChangeSetBody → ChangeSetBody
  | .v3 operation set reversibility =>
    .v3 operation { set with members := set.members.map (maskMember column) } reversibility
  | .compensation d receipt => .compensation (maskDescriptor column d) receipt
  | body => body

/-- A change set without the places where the value of its principal occurs and without
    evidence items. -/
def masked (cs : ChangeSet) (scope : PrincipalScopeGuard) : ChangeSet :=
  { cs with
    principal := { cs.principal with id := "" }
    before := strip scope.column cs.before
    after := strip scope.column cs.after
    guards := { cs.guards with
      principalScope := some (maskGuard scope)
      deduplication := cs.guards.deduplication.map (·.map (maskComponent scope.column)) }
    evidence := { cs.evidence with items := [] }
    body := maskBody scope.column cs.body }

/-- Two change sets with a principal scope that differ only in where its value occurs and
    in their evidence items. -/
structure Alike (cs other : ChangeSet) (scope : PrincipalScopeGuard) (otherScope : PrincipalScopeGuard) : Prop where
  first : cs.guards.principalScope = some scope
  second : other.guards.principalScope = some otherScope
  same : masked cs scope = masked other otherScope

def componentValues (column : Column) (components : Option (List DeduplicationComponent)) : List Scalar :=
  (components.getD []).filterMap fun c => if c.column = column then some c.value else none

/-- The values that a body keeps after `stripBody`: of the components on the column and of
    the guard that a descriptor carries. -/
def bodyValues (column : Column) : ChangeSetBody → List (List Scalar) × Option Scalar
  | .v3 _ set _ => (set.members.map fun m => componentValues column m.deduplication, none)
  | .compensation d _ => ([], d.principalScope.bind (·.value))
  | _ => ([], none)

/-- The values of the principal that are uploaded. -/
def uploadedValues (cs : ChangeSet) (scope : PrincipalScopeGuard) : List Scalar × List (List Scalar) × Option Scalar :=
  (componentValues scope.column cs.guards.deduplication, bodyValues scope.column cs.body)

/-! ### Stripping and masking -/

theorem strip_strip (column : Column) (value : Record) : strip column (strip column value) = strip column value := by
  apply KeyedMap.ext
  simp [strip, KeyedMap.filterKeys]

theorem stripInverseMember_twice (column : Column) (m : InverseMember) :
    stripInverseMember column (stripInverseMember column m) = stripInverseMember column m := by
  simp [stripInverseMember, strip_strip, Function.comp_def]

theorem maskMember_stripMember (column : Column) (m : FrozenSetMember) :
    maskMember column (stripMember column m) = maskMember column m := by
  simp [maskMember, stripMember, strip_strip]

theorem maskBody_stripBody (column : Column) (body : ChangeSetBody) :
    maskBody column (stripBody column body) = maskBody column body := by
  cases body with
  | v1 => rfl
  | v2 operation reversibility => rfl
  | v3 operation set reversibility => simp [maskBody, stripBody, maskMember_stripMember]
  | compensation d receipt => simp [maskBody, stripBody, maskDescriptor, stripDescriptor, stripInverseMember_twice]

theorem bodyValues_stripBody (column : Column) (body : ChangeSetBody) :
    bodyValues column (stripBody column body) = bodyValues column body := by
  cases body with
  | v1 => rfl
  | v2 operation reversibility => rfl
  | v3 operation set reversibility => simp [bodyValues, stripBody, stripMember]
  | compensation d receipt => rfl

/-- What is uploaded, from what is masked and what is left. -/
theorem cloudSafeChangeSet_eq {cs : ChangeSet} {scope : PrincipalScopeGuard}
    (guarded : cs.guards.principalScope = some scope) : cloudSafeChangeSet cs = { masked cs scope with
      principal := { (masked cs scope).principal with id := "sha256:" ++ scope.valueFingerprint.hex }
      guards := { (masked cs scope).guards with deduplication := cs.guards.deduplication }
      body := stripBody scope.column cs.body } := by
  simp only [cloudSafeChangeSet, guarded]
  rfl

theorem cloudSafeChangeSet_deduplication {cs : ChangeSet} {scope : PrincipalScopeGuard}
    (guarded : cs.guards.principalScope = some scope) :
    (cloudSafeChangeSet cs).guards.deduplication = cs.guards.deduplication := by
  rw [cloudSafeChangeSet_eq guarded]

theorem cloudSafeChangeSet_body {cs : ChangeSet} {scope : PrincipalScopeGuard}
    (guarded : cs.guards.principalScope = some scope) : (cloudSafeChangeSet cs).body = stripBody scope.column cs.body := by
  rw [cloudSafeChangeSet_eq guarded]

/-- Every field outside those places is kept. -/
theorem masked_cloudSafeChangeSet {cs : ChangeSet} {scope : PrincipalScopeGuard}
    (guarded : cs.guards.principalScope = some scope) :
    masked (cloudSafeChangeSet cs) (maskGuard scope) = masked cs scope := by
  rw [cloudSafeChangeSet_eq guarded]
  simp [masked, maskGuard, strip_strip, maskBody_stripBody]

/-! ### Two change sets -/

theorem map_eq_of_both {α β γ δ : Type} {f : α → β} {g : α → γ} {h : α → δ}
    (determined : ∀ a b, f a = f b → g a = g b → h a = h b) {l l' : List α} (first : l.map f = l'.map f)
    (second : l.map g = l'.map g) : l.map h = l'.map h := by
  induction l generalizing l' with
  | nil =>
    cases l' with
    | nil => rfl
    | cons b rest => simp at first
  | cons a rest ih =>
    cases l' with
    | nil => simp at first
    | cons b rest' =>
      simp only [List.map_cons, List.cons.injEq] at first second ⊢
      exact ⟨determined a b first.1 second.1, ih first.2 second.2⟩

/-- Components are their masked form and their values on the column. -/
theorem components_eq {column : Column} {l l' : List DeduplicationComponent}
    (masks : l.map (maskComponent column) = l'.map (maskComponent column))
    (values : componentValues column (some l) = componentValues column (some l')) : l = l' := by
  simp only [componentValues, Option.getD_some] at values
  induction l generalizing l' with
  | nil =>
    cases l' with
    | nil => rfl
    | cons c rest => simp at masks
  | cons c rest ih =>
    cases l' with
    | nil => simp at masks
    | cons c' rest' =>
      simp only [List.map_cons, List.cons.injEq] at masks
      have columns : c.column = c'.column := by
        have := congrArg DeduplicationComponent.column masks.1
        simp only [maskComponent] at this
        split at this <;> split at this <;> simpa using this
      by_cases onColumn : c.column = column
      · have onColumn' : c'.column = column := columns ▸ onColumn
        simp only [List.filterMap_cons, if_pos onColumn, if_pos onColumn', List.cons.injEq] at values
        have source : c.source = c'.source := by
          simpa [maskComponent, onColumn, onColumn'] using congrArg DeduplicationComponent.source masks.1
        rw [ih masks.2 values.2]
        cases c
        cases c'
        simp_all
      · have offColumn : ¬ c'.column = column := columns ▸ onColumn
        simp only [List.filterMap_cons, if_neg onColumn, if_neg offColumn] at values
        rw [ih masks.2 values]
        simpa [maskComponent, onColumn, offColumn] using masks.1

theorem deduplication_eq {column : Column} {d d' : Option (List DeduplicationComponent)}
    (masks : d.map (·.map (maskComponent column)) = d'.map (·.map (maskComponent column)))
    (values : componentValues column d = componentValues column d') : d = d' := by
  cases d with
  | none =>
    cases d' with
    | none => rfl
    | some l => simp at masks
  | some l =>
    cases d' with
    | none => simp at masks
    | some l' => rw [components_eq (by simpa using masks) values]

theorem stripMember_eq {column : Column} (m m' : FrozenSetMember) (masks : maskMember column m = maskMember column m')
    (values : componentValues column m.deduplication = componentValues column m'.deduplication) :
    stripMember column m = stripMember column m' := by
  have kept : m.deduplication = m'.deduplication :=
    deduplication_eq (congrArg FrozenSetMember.deduplication masks) values
  have whole (n : FrozenSetMember) :
      stripMember column n = { maskMember column n with deduplication := n.deduplication } := rfl
  rw [whole m, whole m', masks, kept]

theorem guard_eq {s s' : Option PrincipalScopeGuard} (masks : s.map maskGuard = s'.map maskGuard)
    (values : s.bind (·.value) = s'.bind (·.value)) : s = s' := by
  cases s with
  | none =>
    cases s' with
    | none => rfl
    | some scope => simp at masks
  | some scope =>
    cases s' with
    | none => simp at masks
    | some scope' =>
      cases scope
      cases scope'
      simp_all [maskGuard]

theorem stripBody_eq {column : Column} {body body' : ChangeSetBody} (masks : maskBody column body = maskBody column body')
    (values : bodyValues column body = bodyValues column body') : stripBody column body = stripBody column body' := by
  cases body with
  | v1 => cases body' <;> simp_all [maskBody, stripBody]
  | v2 operation reversibility => cases body' <;> simp_all [maskBody, stripBody]
  | v3 operation set reversibility =>
    cases body' with
    | v3 operation' set' reversibility' =>
      simp only [maskBody, ChangeSetBody.v3.injEq, FrozenSet.mk.injEq] at masks
      simp only [bodyValues, Prod.mk.injEq, and_true] at values
      obtain ⟨rfl, ⟨maxRows, rowCount, bounds, members, digest⟩, rfl⟩ := masks
      simp [stripBody, maxRows, rowCount, bounds, digest, map_eq_of_both stripMember_eq members values]
    | _ => simp [maskBody] at masks
  | compensation d receipt =>
    cases body' with
    | compensation d' receipt' =>
      simp only [maskBody, ChangeSetBody.compensation.injEq] at masks
      simp only [bodyValues, Prod.mk.injEq, true_and] at values
      have kept : d.principalScope = d'.principalScope :=
        guard_eq (congrArg InverseDescriptor.principalScope masks.1) values
      have whole (e : InverseDescriptor) :
          stripDescriptor column e = { maskDescriptor column e with principalScope := e.principalScope } := rfl
      simp only [stripBody, whole d, whole d', masks.1, masks.2, kept]
    | _ => simp [maskBody] at masks

theorem Alike.scopes {cs other : ChangeSet} {scope otherScope : PrincipalScopeGuard}
    (alike : Alike cs other scope otherScope) :
    scope.column = otherScope.column ∧ scope.valueFingerprint = otherScope.valueFingerprint := by
  have masks := congrArg (fun c : ChangeSet => c.guards.principalScope) alike.same
  simp only [masked, maskGuard, Option.some.injEq, PrincipalScopeGuard.mk.injEq] at masks
  exact ⟨masks.1, masks.2.2.2.1⟩

/-- What is uploaded still holds the values that were not masked. -/
theorem uploadedValues_eq {cs other : ChangeSet} {scope otherScope : PrincipalScopeGuard}
    (alike : Alike cs other scope otherScope) (same : cloudSafeChangeSet cs = cloudSafeChangeSet other) :
    uploadedValues cs scope = uploadedValues other otherScope := by
  have components : cs.guards.deduplication = other.guards.deduplication := by
    rw [← cloudSafeChangeSet_deduplication alike.first, same, cloudSafeChangeSet_deduplication alike.second]
  have bodies : stripBody scope.column cs.body = stripBody otherScope.column other.body := by
    rw [← cloudSafeChangeSet_body alike.first, same, cloudSafeChangeSet_body alike.second]
  have values := congrArg (bodyValues scope.column) bodies
  rw [alike.scopes.1, bodyValues_stripBody, bodyValues_stripBody] at values
  simp only [uploadedValues, components, alike.scopes.1, values]

/-- The schema makes the guard of a compensation's descriptor that of the change set: with
    the value in one, it is uploaded in the other. -/
theorem uploadedValues_compensation {platform : Platform} {cs : ChangeSet} {d : InverseDescriptor} {receipt : Digest}
    {scope : PrincipalScopeGuard} (accepted : parseChangeSet platform cs = true)
    (guarded : cs.guards.principalScope = some scope) (isCompensation : cs.body = .compensation d receipt) : (uploadedValues cs scope).2.2 = scope.value := by
  have issues : changeSetIssues platform cs = [] := by
    simp only [parseChangeSet, Bool.and_eq_true, List.isEmpty_iff] at accepted
    exact accepted.2
  simp only [changeSetIssues, isCompensation, compensationIssues, List.append_eq_nil_iff, issueIf_eq_nil,
    decide_eq_false_iff_not, not_not] at issues
  have guards : d.principalScope = some scope := issues.2.1.2.trans guarded
  simp [uploadedValues, bodyValues, isCompensation, guards]

/-- Two change sets that differ only in where the value of their principal stands
    and in their evidence are uploaded as one, with every other field as it was, exactly
    when their deduplication components on the principal's column and the guards of their
    descriptors have the same values. -/
theorem cloudSafeChangeSet_hides_iff {cs other : ChangeSet} {scope otherScope : PrincipalScopeGuard}
    (alike : Alike cs other scope otherScope) :
    (cloudSafeChangeSet cs = cloudSafeChangeSet other ∧
      masked (cloudSafeChangeSet cs) (maskGuard scope) = masked cs scope) ↔
    uploadedValues cs scope = uploadedValues other otherScope := by
  constructor
  · rintro ⟨same, _⟩
    exact uploadedValues_eq alike same
  · intro values
    refine ⟨?_, masked_cloudSafeChangeSet alike.first⟩
    obtain ⟨columns, fingerprints⟩ := alike.scopes
    simp only [uploadedValues, Prod.mk.injEq, columns] at values
    have masks := alike.same
    have maskedComponents := congrArg (fun c : ChangeSet => c.guards.deduplication) masks
    have maskedBodies := congrArg (fun c : ChangeSet => c.body) masks
    simp only [masked, columns] at maskedComponents maskedBodies
    have components := deduplication_eq maskedComponents values.1
    have bodies := stripBody_eq maskedBodies values.2
    rw [← columns] at bodies
    rw [cloudSafeChangeSet_eq alike.first, cloudSafeChangeSet_eq alike.second, masks, components, bodies, columns,
      fingerprints]

/-- A reviewed update of one field of a row of `owner`. -/
def rename (owner : String) (fingerprint : Digest) : ChangeSet :=
  { proposalId := "w", mode := .reviewRequired
    before := .ofList [("o", .str owner), ("f", .num 1)], patch := .ofList [("f", .num 2)]
    after := .ofList [("o", .str owner), ("f", .num 2)]
    source := { kind := .externalPostgres, sourceId := "s", schema := "c", table := "t"
                primaryKey := ⟨"id", some (.num 1)⟩ }
    guards := { tenant := ⟨"n", .str "a"⟩
                principalScope := some ⟨"o", "p", .environment, fingerprint, some (.str owner)⟩
                allowedColumns := ["f"], expectedVersion := some ⟨"v", .num 1⟩, versionAdvance := none
                deduplication := none }
    freshness := none, requiredApprovals := none, writebackMode := .trustedWorkerRequired, writebackExecutor := none
    body := .v1, proposalVersion := 1, action := "r", contract := none, principal := ⟨owner, .environment⟩
    scope := { tenantId := "a", businessObject := "b", objectId := "1" }
    evidence := { bundleId := "e", queryFingerprint := ⟨"q"⟩, items := [], extras := [] }
    approval := { status := .pending, mode := none, requiredRole := none, extras := [] }
    writebackStatus := .notApplied, writebackExtras := [], sourceDatabaseMutated := false
    proposalHash := ⟨"h"⟩, createdAt := "d" }

/-- Two owners with one fingerprint are uploaded as one. -/
theorem renames_uploaded_alike : cloudSafeChangeSet (rename "u1" ⟨"f"⟩) = cloudSafeChangeSet (rename "u2" ⟨"f"⟩) :=
  ((cloudSafeChangeSet_hides_iff ⟨rfl, rfl, rfl⟩).mpr rfl).1

/-- The guard of `u1`, with the value or without it. -/
def ownerScope (platform : Platform) (value : Option Scalar) : PrincipalScopeGuard :=
  { column := "o", binding := "p", provider := .environment, value
    valueFingerprint := principalScopeFingerprint platform ⟨"o", "p", .environment, ⟨""⟩, none⟩ (.str "u1") }

/-- A compensation that restores one field of a row of `u1`. -/
def restoration (platform : Platform) (value : Option Scalar) : ChangeSet :=
  { proposalId := "w", mode := .reviewRequired, before := .empty, patch := .empty, after := .empty
    source := { kind := .externalPostgres, sourceId := "s", schema := "c", table := "t", primaryKey := ⟨"id", none⟩ }
    guards := { tenant := ⟨"n", .str "a"⟩, principalScope := some (ownerScope platform value), allowedColumns := ["f"]
                expectedVersion := none, versionAdvance := none, deduplication := none }
    freshness := none, requiredApprovals := none, writebackMode := .trustedWorkerRequired
    writebackExecutor := some "sql_update"
    body := .compensation
      { availability := .available, reasonCodes := [], operation := .restoreUpdate, cardinality := .single
        forwardProposalId := "p", forwardWritebackJobId := "j"
        target := { sourceId := "s", schema := "c", table := "t", primaryKeyColumn := "id" }
        tenantGuard := ⟨"n", .str "a"⟩, principalScope := some (ownerScope platform value), allowedColumns := ["f"]
        members := [⟨⟨"id", .num 1⟩, .ofList [("f", .num 2)], some (.ofList [("f", .num 1)])⟩]
        maxRows := 1, aggregateBounds := [], versionAdvance := some ⟨"v", .integerIncrement⟩
        lineage := { rootProposalId := "p", parentProposalId := "p", revertsProposalId := "p", depth := 1 } } ⟨"f"⟩
    proposalVersion := 1, action := "r", contract := none, principal := ⟨"u1", .environment⟩
    scope := { tenantId := "a", businessObject := "b", objectId := "1" }
    evidence := { bundleId := "e", queryFingerprint := ⟨"q"⟩, items := [], extras := [] }
    approval := { status := .pending, mode := some .human, requiredRole := none, extras := [] }
    writebackStatus := .notApplied, writebackExtras := [], sourceDatabaseMutated := false
    proposalHash := ⟨"h"⟩, createdAt := "d" }

theorem restoration_names : ["o", "p", "n", "c", "t", "f", "v", "id"].all safeIdentifier = true := by decide

theorem ownerScope_names (platform : Platform) (value : Option Scalar) :
    (ownerScope platform value).column = "o" ∧ (ownerScope platform value).binding = "p" := ⟨rfl, rfl⟩

theorem ownerScope_fields (platform : Platform) {value : Option Scalar} (principal : ∀ v ∈ value, v = .str "u1") :
    principalScopeFields platform (ownerScope platform value) = true := by
  have names := restoration_names
  simp only [List.all_cons, Bool.and_eq_true] at names
  cases value with
  | none => simp [principalScopeFields, ownerScope, names]
  | some v =>
    obtain rfl := principal v rfl
    simp [principalScopeFields, principalScopeFingerprint, ownerScope, names]

theorem restoration_accepted (platform : Platform) (value : Option Scalar) (principal : ∀ v ∈ value, v = .str "u1") :
    parseChangeSet platform (restoration platform value) = true := by
  have guard := ownerScope_fields platform principal
  have names := restoration_names
  simp only [List.all_cons, Bool.and_eq_true] at names
  have fields : changeSetFields platform (restoration platform value) = true := by
    simp [changeSetFields, headerFields, boundedFields, workerWriteback, restoration, guard, names, nonEmpty, boundedRecord,
      KeyedMap.size, KeyedMap.empty]
  have descriptor : descriptorFields platform (restoration platform value).body = true := by
    simp [descriptorFields, inverseDescriptorFields, restoration, guard, ownerScope_names, names, nonEmpty, boundedRecord,
      KeyedMap.size, KeyedMap.ofList, KeyedMap.set, KeyedMap.put, KeyedMap.empty]
  have issues : changeSetIssues platform (restoration platform value) = [] := by
    simp [changeSetIssues, inverseDescriptorIssues, compensationIssues, inverseMemberIssues, restoration,
      InverseDescriptor.identities, identitiesOrdered, hasFields, KeyedMap.ofList, KeyedMap.set, KeyedMap.put,
      KeyedMap.empty]
  rw [parseChangeSet, fields, descriptor, issues]
  rfl

theorem restoration_alike (platform : Platform) (value value' : Option Scalar) :
    Alike (restoration platform value) (restoration platform value') (ownerScope platform value)
      (ownerScope platform value') :=
  ⟨rfl, rfl, rfl⟩

theorem descriptor_names_principal :
    ¬ ∃ platform : Platform, ∀ (cs other : ChangeSet) (scope otherScope : PrincipalScopeGuard),
      parseChangeSet platform cs = true → parseChangeSet platform other = true → Alike cs other scope otherScope →
      cloudSafeChangeSet cs = cloudSafeChangeSet other := by
  rintro ⟨platform, claimed⟩
  have same := claimed _ _ _ _ (restoration_accepted platform (some (.str "u1")) (by simp))
    (restoration_accepted platform none (by simp)) (restoration_alike platform _ _)
  have values := uploadedValues_eq (restoration_alike platform _ _) same
  simp [uploadedValues, bodyValues, restoration, ownerScope] at values

end SynapsorRunner.CloudUploads
