import SynapsorRunner.AllOrNothing

/-!
What is left of a change that was reversed. A proposal with a reviewed inverse becomes a
job, and the inverse that the job captures becomes the job of a later proposal; the table
after both has its old rows (`undo_restores`). The versions are two further, and a column
that is written but was not reviewed before keeps what the first job wrote. Nothing is
asked of the rows but that the key columns are no versions.
-/
namespace SynapsorRunner.ReversedChanges
open SynapsorRunner.Protocol SynapsorRunner.Proposals SynapsorRunner.Compensation SynapsorRunner.Adapters
open SynapsorRunner.Tables SynapsorRunner.Confinement SynapsorRunner.AllOrNothing

/-! ### A change after a change -/

section
variable {β γ : Type} {post : β → Option TableRow → Option TableRow → Prop}
  {post' : γ → Option TableRow → Option TableRow → Prop} {target : JobTarget} {members : List β} {inverse : β → γ}
  {table table' table'' : Table}

/-- The row at a place is the one of a key. -/
def RowOf (target : JobTarget) (key : Scalar) (found : Option TableRow) : Prop :=
  ∃ row, found = some row ∧ row target.tenantGuard.column = target.tenantGuard.value ∧ row target.primaryKey.column = key

/-- When the second change finds the rows that the first has left, each place is as it was
    or has been changed twice. -/
theorem exactly_twice (key : β → Scalar) (keyed : Keyed target table') (first : Exactly post members table table')
    (second : Exactly post' (members.map inverse) table' table'')
    (left : ∀ m ∈ members, ∀ before after, post m before after → RowOf target (key m) after)
    (found : ∀ m ∈ members, ∀ before after, post' (inverse m) before after → RowOf target (key m) before) (p : Nat) :
    table'' p = table p ∨ ∃ m ∈ members, post m (table p) (table' p) ∧ post' (inverse m) (table' p) (table'' p) := by
  obtain ⟨place, -, changed, kept⟩ := first
  obtain ⟨place', -, changed', kept'⟩ := second
  have same : ∀ m ∈ members, place' (inverse m) = place m := by
    intro m member
    obtain ⟨row, here, tenant, known⟩ := left m member _ _ (changed m member)
    obtain ⟨row', there, tenant', known'⟩ := found m member _ _ (changed' _ (List.mem_map_of_mem member))
    exact keyed _ _ row' row there here (tenant'.trans tenant.symm) (known'.trans known.symm)
  by_cases touched : ∃ m ∈ members, place m = p
  · obtain ⟨m, member, rfl⟩ := touched
    refine .inr ⟨m, member, changed m member, ?_⟩
    have again := changed' _ (List.mem_map_of_mem member)
    rwa [same m member] at again
  · left
    rw [kept' p ?_, kept p fun m member here => touched ⟨m, member, here⟩]
    intro c listed here
    obtain ⟨m, member, rfl⟩ := List.mem_map.mp listed
    exact touched ⟨m, member, (same m member).symm.trans here⟩

end

/-! ### Reviewed states -/

/-- A reviewed state has the chosen columns of an image. -/
theorem get?_selectReviewedState (value : Record) (columns : List Column) (column : Column) :
    (selectReviewedState value columns).get? column = if column ∈ columns then value.get? column else none := by
  have distinct : (((sortedColumns columns).filterMap fun column =>
      (value.get? column).map fun item => (column, item)).map Prod.fst).Nodup := by
    rw [List.map_filterMap]
    refine List.Nodup.filterMap ?_ (List.nodup_mergeSort.mpr (List.nodup_dedup columns))
    intro c c' d here there
    simp only [Option.map_map, Option.mem_def, Option.map_eq_some_iff, Function.comp_apply] at here there
    obtain ⟨_, -, rfl⟩ := here
    obtain ⟨_, -, rfl⟩ := there
    rfl
  have whole := KeyedMap.get?_setAll_entries .empty ⟨_, distinct⟩ column
  rw [KeyedMap.get?_empty, Option.or_none] at whole
  refine Eq.trans whole (Option.ext fun v => ?_)
  rw [KeyedMap.get?_eq_some]
  simp only [List.mem_filterMap, sortedColumns, List.mem_mergeSort, List.mem_dedup, Option.map_eq_some_iff, Prod.mk.injEq]
  constructor
  · rintro ⟨_, listed, _, given, rfl, rfl⟩
    rw [if_pos listed, given]
  · intro given
    split at given
    · exact ⟨column, ‹_›, v, given, rfl, rfl⟩
    · cases given

/-! ### A change and its reversal -/

/-- A row is as before, up to what `versionValuesMatch` takes for equal, but for the version
    columns and those that were written without a value that was reviewed before. -/
def AsBefore (rt : SourceRuntime) (before patch : Record) (versions : List Column) (row row'' : TableRow) : Prop :=
  ∀ column ∉ versions, (column ∈ patch.keys → column ∈ before.keys) →
    row'' column = row column ∨ ∃ value, scalar value = row column ∧ rt.versionValuesMatch value (row'' column) = true

/-! ### Proposals and their reversals -/

/-- The inverse that a job carries for its reversal. -/
def capturedInverse : WritebackJob → Option InverseDescriptor
  | .v2 job => job.inverseCapture
  | .v3 job => job.inverseCapture
  | _ => none

/-- The images of the rows that were reviewed before a change. -/
def reviewedImages (changeSet : ChangeSet) : List Record :=
  match changeSet.body with
  | .v3 _ set _ => set.members.map (·.before)
  | _ => [changeSet.before]

def versionColumns (changeSet : ChangeSet) : List Column :=
  (changeSet.guards.expectedVersion.map (·.column)).toList ++ (changeSet.guards.versionAdvance.map (·.column)).toList

/-- A place after a change and its reversal. -/
def Undone (rt : SourceRuntime) (changeSet : ChangeSet) (before after : Option TableRow) : Prop :=
  after = before ∨ ∃ row row'' image, before = some row ∧ after = some row'' ∧ image ∈ reviewedImages changeSet ∧
    AsBefore rt image changeSet.patch (versionColumns changeSet) row row''

/-- The columns that tell rows apart are no versions, and an inserted row has the key that
    its inverse names. -/
structure KeysApart (changeSet : ChangeSet) (job : WritebackJob) : Prop where
  primaryKey : ∀ v ∈ changeSet.guards.versionAdvance, v.column ≠ job.target.primaryKey.column
  tenant : ∀ v ∈ changeSet.guards.versionAdvance, v.column ≠ job.target.tenantGuard.column
  inserted : ∀ row, job = .v2 row → row.operation = .insert → ∀ values, insertValues row = .ok values →
    values.get? row.target.primaryKey.column = row.target.primaryKey.value

/-- A job of a change set, and the job of its reversal. -/
structure Reverses (changeSet : ChangeSet) (job : JobHeader) (back : CompensationJob) : Prop where
  primaryKey : job.target.primaryKey.column = changeSet.source.primaryKey.column
  allowed : job.allowedColumns = changeSet.guards.allowedColumns
  column : back.target.primaryKey.column = job.target.primaryKey.column
  tenant : back.target.tenantGuard = job.target.tenantGuard

section
variable {rt : SourceRuntime} {changeSet : ChangeSet} {back : CompensationJob} {table table' table'' : Table}

/-- The row that a member of a compensation takes back is the one of its key. -/
theorem rowOf_expected {job : JobHeader} (reverses : Reverses changeSet job back) {m : InverseMember} {row : TableRow}
    (expected : Expected back m row) : RowOf job.target m.primaryKey.value (some row) := by
  refine ⟨row, rfl, ?_, ?_⟩
  · rw [← reverses.tenant]
    exact expected.inScope.tenant
  · rw [← reverses.column]
    exact expected.key

/-- The row that a patch of allowed columns leaves is the one of the same key. -/
theorem rowOf_afterImage {job : JobHeader} {patch : Record} (patchable : PatchAllowed job patch) {version : Column}
    (primaryKey : version ≠ job.target.primaryKey.column) (tenant : version ≠ job.target.tenantGuard.column) {row : TableRow}
    {key : Scalar} (own : RowOf job.target key (some row)) :
    RowOf job.target key (some (afterImage patch (some version) row)) := by
  obtain ⟨_, ⟨⟩, guard, known⟩ := own
  refine ⟨_, rfl, ?_, ?_⟩
  · rw [afterImage_kept (by simpa using tenant) fun patched => patchable.tenantGuard (patchable.columns _ patched)]
    exact guard
  · rw [afterImage_kept (by simpa using primaryKey) fun patched => patchable.primaryKey (patchable.columns _ patched)]
    exact known

/-- A restoring UPDATE, from the row that it finds. -/
theorem restored_of_done (restores : back.operation = .restoreUpdate) {version : Column} {strategy : VersionStrategy}
    (advance : back.compensation.versionAdvance = some ⟨version, strategy⟩) {m : InverseMember}
    {before after : Option TableRow} (done : CompensationDone back m before after) :
    ∃ row, before = some row ∧ Expected back m row ∧
      after = some (afterImage (m.restoreValues.getD .empty) (some version) row) := by
  simp only [CompensationDone, restores, advance, Option.map_some] at done
  obtain ⟨row, _, found, expected, after, rfl⟩ := done
  exact ⟨row, found, expected, after⟩

/-- An UPDATE of allowed columns, of a row that was reviewed as an image. -/
def Patched (rt : SourceRuntime) (changeSet : ChangeSet) (target : JobTarget) (version : Column) (key : Scalar)
    (image : Record) (before after : Option TableRow) : Prop :=
  ∃ row, before = some row ∧ RowOf target key before ∧ after = some (afterImage changeSet.patch (some version) row) ∧
    Matched rt row ((selectReviewedState image changeSet.guards.allowedColumns).entries.filter fun e =>
      e.1 ∉ versionColumns changeSet)

/-- The patch, and then the reviewed values of the allowed columns. -/
theorem asBefore_of_images {image : Record} {version : Column} {row : TableRow} (own : version ∈ versionColumns changeSet)
    (reviewed : Matched rt row ((selectReviewedState image changeSet.guards.allowedColumns).entries.filter fun e =>
      e.1 ∉ versionColumns changeSet))
    (within : ∀ column ∈ changeSet.patch.keys, column ∈ changeSet.guards.allowedColumns) :
    AsBefore rt image changeSet.patch (versionColumns changeSet) row
      (afterImage (selectReviewedState image changeSet.guards.allowedColumns) (some version)
        (afterImage changeSet.patch (some version) row)) := by
  intro column other known
  have apart : ¬ some version = some column := by
    rintro ⟨⟩
    exact other own
  unfold afterImage
  rw [if_neg apart, if_neg apart]
  cases given : (selectReviewedState image changeSet.guards.allowedColumns).get? column with
  | some v =>
    obtain ⟨value, shown, same⟩ := reviewed (column, v)
      (List.mem_filter.mpr ⟨KeyedMap.get?_eq_some.mp given, by simpa using other⟩)
    exact .inr ⟨value, shown, same⟩
  | none =>
    have unpatched : column ∉ changeSet.patch.keys := by
      intro patched
      rw [get?_selectReviewedState, if_pos (within column patched)] at given
      exact KeyedMap.get?_eq_none.mp given (known patched)
    rw [Option.getD_none, KeyedMap.get?_eq_none.mpr unpatched]
    exact .inl rfl

variable {β : Type} {post : β → Option TableRow → Option TableRow → Prop} {members : List β} {job : JobHeader}

/-- Updates and their reversals, member by member. -/
theorem updates_undone (reverses : Reverses changeSet job back) (patchable : PatchAllowed job changeSet.patch)
    {version : Column} (own : version ∈ versionColumns changeSet) (primaryKey : version ≠ job.target.primaryKey.column)
    (tenant : version ≠ job.target.tenantGuard.column) (restores : back.operation = .restoreUpdate)
    {strategy : VersionStrategy} (advance : back.compensation.versionAdvance = some ⟨version, strategy⟩)
    (key : β → Scalar) (image : β → Record) (inverse : β → InverseMember)
    (images : ∀ m ∈ members, image m ∈ reviewedImages changeSet)
    (keys : ∀ m ∈ members, (inverse m).primaryKey.value = key m)
    (values : ∀ m ∈ members,
      (inverse m).restoreValues = some (selectReviewedState (image m) changeSet.guards.allowedColumns))
    (forward : ∀ m ∈ members, ∀ before after, post m before after →
      Patched rt changeSet job.target version (key m) (image m) before after)
    (keyed : Keyed job.target table') (first : Exactly post members table table')
    (second : Exactly (CompensationDone back) (members.map inverse) table' table'') (p : Nat) :
    Undone rt changeSet (table p) (table'' p) := by
  have twice := exactly_twice key keyed first second ?_ ?_ p
  rcases twice with same | ⟨m, member, done, again⟩
  · exact .inl same
  · obtain ⟨row, found, -, left, reviewed⟩ := forward m member _ _ done
    obtain ⟨_, found', -, left'⟩ := restored_of_done restores advance again
    rw [left] at found'
    cases found'
    rw [values m member, Option.getD_some] at left'
    refine .inr ⟨row, _, image m, found, left', images m member, asBefore_of_images own reviewed ?_⟩
    rw [← reverses.allowed]
    exact patchable.columns
  · intro m member before after done
    obtain ⟨row, rfl, known, rfl, -⟩ := forward m member _ _ done
    exact rowOf_afterImage patchable primaryKey tenant known
  · intro m member before after done
    obtain ⟨row, rfl, expected, -⟩ := restored_of_done restores advance done
    rw [← keys m member]
    exact rowOf_expected reverses expected

/-- Inserts and their removals, member by member. -/
theorem inserts_undone (reverses : Reverses changeSet job back) (removes : back.operation = .removeInsert) (key : β → Scalar)
    (inverse : β → InverseMember) (keys : ∀ m ∈ members, (inverse m).primaryKey.value = key m)
    (forward : ∀ m ∈ members, ∀ before after, post m before after → before = none ∧ RowOf job.target (key m) after)
    (keyed : Keyed job.target table') (first : Exactly post members table table')
    (second : Exactly (CompensationDone back) (members.map inverse) table' table'') (p : Nat) :
    Undone rt changeSet (table p) (table'' p) := by
  have removed : ∀ m before after, CompensationDone back m before after → ∃ row, before = some row ∧ Expected back m row ∧
      after = none := by
    intro m before after done
    simpa only [CompensationDone, removes] using done
  have twice := exactly_twice key keyed first second ?_ ?_ p
  rcases twice with same | ⟨m, member, done, again⟩
  · exact .inl same
  · obtain ⟨_, -, -, left⟩ := removed _ _ _ again
    rw [left, (forward m member _ _ done).1]
    exact .inl rfl
  · intro m member before after done
    exact (forward m member _ _ done).2
  · intro m member before after done
    obtain ⟨row, rfl, expected, -⟩ := removed _ _ _ done
    rw [← keys m member]
    exact rowOf_expected reverses expected

end

/-! ### Jobs of proposals -/

section
variable {rt : SourceRuntime} {changeSet : ChangeSet} {back : CompensationJob} {table table' table'' : Table}

/-- What every captured inverse takes from its change set. -/
theorem captured_carries {id : String} {inverse : InverseDescriptor}
    (captured : inverseCaptureFromChangeSet changeSet id = .ok (some inverse)) :
    inverse.target.primaryKeyColumn = changeSet.source.primaryKey.column ∧
      inverse.tenantGuard = changeSet.guards.tenant := by
  unfold inverseCaptureFromChangeSet at captured
  split at captured
  · split at captured
    · cases captured
    · split at captured
      · cases captured; exact ⟨rfl, rfl⟩
      · cases captured; exact ⟨rfl, rfl⟩
      · obtain ⟨_, -, rest⟩ := bind_eq_ok captured
        cases rest; exact ⟨rfl, rfl⟩
  · split at captured
    · cases captured; exact ⟨rfl, rfl⟩
    · cases captured; exact ⟨rfl, rfl⟩
    · obtain ⟨_, -, rest⟩ := bind_eq_ok captured
      cases rest; exact ⟨rfl, rfl⟩
  · cases captured

theorem reverses_of_captured {platform : Platform} (integrity : CompensationIntegrity platform back) {id : String}
    (captured : inverseCaptureFromChangeSet changeSet id = .ok (some back.compensation)) {job : JobHeader}
    (primaryKey : job.target.primaryKey.column = changeSet.source.primaryKey.column)
    (tenant : job.target.tenantGuard = changeSet.guards.tenant)
    (allowed : job.allowedColumns = changeSet.guards.allowedColumns) : Reverses changeSet job back := by
  obtain ⟨column, guard⟩ := captured_carries captured
  refine ⟨primaryKey, allowed, ?_, ?_⟩
  · rw [primaryKey, ← column, integrity.target]
  · rw [tenant, ← guard, integrity.tenantGuard]

theorem reversibleVersion_ok {version : VersionAdvance} (reversible : reversibleVersion changeSet = .ok version) :
    version.strategy = .integerIncrement ∧ changeSet.guards.versionAdvance = some version := by
  unfold reversibleVersion at reversible
  split at reversible
  · rename_i column given
    cases reversible
    exact ⟨rfl, given⟩
  · cases reversible

theorem versionColumn_mem {version : VersionAdvance} (given : changeSet.guards.versionAdvance = some version) :
    version.column ∈ versionColumns changeSet := by
  simp [versionColumns, given]

/-- An update of a reviewed row is a patch of what was reviewed. -/
theorem patched_of_rowDone {job : RowJob} (operation : job.operation = .update) (patch : job.patch = changeSet.patch)
    {version : Column} (advances : job.versionAdvance = some ⟨version, .integerIncrement⟩) {guard : ColumnValue}
    (guarded : job.conflictGuard = .versionColumn guard.column guard.value)
    (expected : changeSet.guards.expectedVersion = some guard)
    (reviewed : reviewedBefore job = selectReviewedState changeSet.before changeSet.guards.allowedColumns) {key : Scalar}
    (known : job.target.primaryKey.value = some key) {before after : Option TableRow} (done : RowDone rt job before after) :
    Patched rt changeSet job.target version key changeSet.before before after := by
  simp only [RowDone, operation] at done
  obtain ⟨row, row', rfl, seen, rfl, image⟩ := done
  refine ⟨row, rfl, ⟨row, rfl, seen.inScope.tenant, ?_⟩, congrArg some (funext fun column => ?_), ?_⟩
  · have own := seen.key
    rw [known] at own
    exact (Option.some.inj own).symm
  · have steady : ¬ rowGenerated job column := by
      rintro ⟨v, given, generated, -⟩
      rw [advances] at given
      cases given
      cases generated
    rw [image column (.inr steady), advances, patch]
    rfl
  · intro e listed
    rw [List.mem_filter, decide_eq_true_eq] at listed
    refine seen.matched e ?_
    simp only [reviewedValues, reviewed, List.mem_filter, listed.1, true_and, guardColumns, guarded, List.all_cons,
      List.all_nil, Bool.and_true, decide_eq_true_eq]
    intro same
    exact listed.2 (by simp [versionColumns, expected, same])

/-- An update of a frozen set is a patch of the reviewed image of each member. -/
theorem patched_of_setDone {job : SetJob} (operation : job.operation = .update) (patch : job.patch = changeSet.patch)
    {version : Column} {strategy : VersionStrategy} (advances : job.versionAdvance = some ⟨version, strategy⟩)
    {m : FrozenSetMember} {before after : Option TableRow} (done : SetDone rt job m before after) :
    Patched rt changeSet job.target version m.primaryKey.value m.before before after := by
  simp only [SetDone, operation] at done
  obtain ⟨row, row', rfl, seen, -, rfl, image, -⟩ := done
  refine ⟨row, rfl, ⟨row, rfl, seen.inScope.tenant, seen.key⟩, ?_, fun e listed => seen.matched e ?_⟩
  · rw [image, advances, patch]
    rfl
  · have given := KeyedMap.get?_eq_some.mpr (List.mem_filter.mp listed).1
    rw [get?_selectReviewedState] at given
    split at given
    · exact KeyedMap.get?_eq_some.mp given
    · cases given

/-- What a row job takes from its change set. -/
theorem rowJob_of_changeSet {header : JobHeader} {inverse : Option InverseDescriptor} {job : RowJob}
    (built : jobFromChangeSet changeSet header inverse = .ok (.v2 job)) :
    (∃ lineage, changeSet.body = .v2 job.operation lineage) ∧ job.toJobHeader = header ∧ job.inverseCapture = inverse ∧
      (job.operation = .update → job.patch = changeSet.patch ∧ job.versionAdvance = changeSet.guards.versionAdvance ∧
        ∃ guard, changeSet.guards.expectedVersion = some guard ∧
          job.conflictGuard = .versionColumn guard.column guard.value) := by
  unfold jobFromChangeSet at built
  split at built
  · cases built
  · rename_i operation lineage body
    dsimp only at built
    split at built
    · cases built
    · cases built
      exact ⟨⟨lineage, body⟩, rfl, rfl, fun update => nomatch update⟩
    · cases built
    · cases built
      exact ⟨⟨lineage, body⟩, rfl, rfl, fun update => nomatch update⟩
    · rename_i _ _ guard expected
      cases built
      exact ⟨⟨lineage, body⟩, rfl, rfl, fun _ => ⟨rfl, rfl, guard, expected, rfl⟩⟩
  · cases built
  · cases built

/-- What a set job takes from its change set. -/
theorem setJob_of_changeSet {header : JobHeader} {inverse : Option InverseDescriptor} {job : SetJob}
    (built : jobFromChangeSet changeSet header inverse = .ok (.v3 job)) :
    (∃ lineage, changeSet.body = .v3 job.operation job.frozenSet lineage) ∧ job.patch = changeSet.patch ∧
      job.versionAdvance = changeSet.guards.versionAdvance ∧ job.inverseCapture = inverse ∧
      job.allowedColumns = header.allowedColumns ∧ job.target.primaryKey.column = header.target.primaryKey.column ∧
      job.target.tenantGuard = header.target.tenantGuard := by
  unfold jobFromChangeSet at built
  split at built
  · cases built
  · dsimp only at built
    split at built <;> cases built
  · rename_i operation set lineage body
    cases built
    exact ⟨⟨lineage, body⟩, rfl, rfl, rfl, rfl, rfl, rfl⟩
  · cases built

variable {id : String} {header : JobHeader}

/-- A row job and its reversal. -/
theorem row_undone {job : RowJob} (captured : inverseCaptureFromChangeSet changeSet id = .ok (some back.compensation))
    (built : jobFromChangeSet changeSet header (some back.compensation) = .ok (.v2 job))
    (primaryKey : header.target.primaryKey = changeSet.source.primaryKey)
    (tenant : header.target.tenantGuard = changeSet.guards.tenant)
    (allowed : header.allowedColumns = changeSet.guards.allowedColumns)
    (valid : validateOperation .postgres rt.platform (.v2 job) = .ok ()) (integrity : CompensationIntegrity rt.platform back)
    (apart : KeysApart changeSet (.v2 job)) (keyed : Keyed job.target table')
    (first : Exactly (RowDone rt) [job] table table')
    (second : Exactly (CompensationDone back) back.compensation.members table' table'') (p : Nat) :
    Undone rt changeSet (table p) (table'' p) := by
  obtain ⟨⟨lineage, body⟩, own, capture, update⟩ := rowJob_of_changeSet built
  rw [← own] at primaryKey tenant allowed
  have reverses := reverses_of_captured integrity captured (congrArg _ primaryKey) tenant allowed
  have images : changeSet.before ∈ reviewedImages changeSet := by simp [reviewedImages, body]
  unfold inverseCaptureFromChangeSet at captured
  rw [body] at captured
  cases lineage with
  | none => cases captured
  | some lineage =>
    dsimp only at captured
    split at captured
    · cases captured
    rename_i key known
    rw [← primaryKey] at known
    cases operation : job.operation with
    | update =>
      rw [operation] at captured
      obtain ⟨patch, advances, guard, expected, guarded⟩ := update operation
      obtain ⟨version, reversible, rest⟩ := bind_eq_ok captured
      obtain ⟨strategy, given⟩ := reversibleVersion_ok reversible
      obtain ⟨column, _⟩ := version
      cases strategy
      have inverse := Option.some.inj (Except.ok.inj rest)
      have restores : back.operation = .restoreUpdate := by rw [← integrity.operation, ← inverse]
      have members := congrArg InverseDescriptor.members inverse
      have reviewed : reviewedBefore job = selectReviewedState changeSet.before changeSet.guards.allowedColumns := by
        simp [reviewedBefore, capture, ← inverse]
      obtain ⟨_, valid, -⟩ : ∃ s, buildUpdate .postgres job = .ok s ∧ True := by
        cases checked : buildUpdate .postgres job with
        | error e => simp [validateOperation, buildRow, operation, checked, Except.map] at valid
        | ok s => exact ⟨s, rfl, trivial⟩
      obtain ⟨_, _, _, _, _, _, patchable, _⟩ := buildUpdate_ok valid
      rw [patch] at patchable
      dsimp only at members
      rw [← members] at second
      refine updates_undone reverses patchable (versionColumn_mem given) (apart.primaryKey _ given) (apart.tenant _ given)
        restores (by rw [← inverse]) (fun _ => key) (fun _ => changeSet.before) (fun _ => _) (fun _ _ => images)
        (fun _ _ => rfl) (fun _ _ => rfl) ?_ keyed first second p
      intro m member before after done
      obtain rfl := List.mem_singleton.mp member
      exact patched_of_rowDone operation patch (advances.trans given) guarded expected reviewed known done
    | insert =>
      rw [operation] at captured
      have inverse := Option.some.inj (Except.ok.inj captured)
      have removes : back.operation = .removeInsert := by rw [← integrity.operation, ← inverse]
      have members := congrArg InverseDescriptor.members inverse
      dsimp only at members
      rw [← members] at second
      refine inserts_undone reverses removes (fun _ => key) (fun _ => _) (fun _ _ => rfl) ?_ keyed first second p
      intro m member before after done
      obtain rfl := List.mem_singleton.mp member
      simp only [RowDone, operation] at done
      obtain ⟨rfl, row, values, rfl, inserted, given⟩ := done
      refine ⟨rfl, row, rfl, given _ (KeyedMap.get?_eq_some.mp (insertValues_ok inserted).tenant), ?_⟩
      have own := apart.inserted _ rfl operation values inserted
      rw [known] at own
      exact given _ (KeyedMap.get?_eq_some.mp own)
    | delete =>
      rw [operation] at captured
      have inverse := Option.some.inj (Except.ok.inj captured)
      have available := integrity.availability
      rw [← inverse] at available
      cases available

/-- A set job and its reversal. -/
theorem set_undone {job : SetJob} (captured : inverseCaptureFromChangeSet changeSet id = .ok (some back.compensation))
    (built : jobFromChangeSet changeSet header (some back.compensation) = .ok (.v3 job))
    (primaryKey : header.target.primaryKey = changeSet.source.primaryKey)
    (tenant : header.target.tenantGuard = changeSet.guards.tenant)
    (allowed : header.allowedColumns = changeSet.guards.allowedColumns)
    (valid : validateOperation .postgres rt.platform (.v3 job) = .ok ()) (integrity : CompensationIntegrity rt.platform back)
    (apart : KeysApart changeSet (.v3 job)) (keyed : Keyed job.target table')
    (first : Exactly (SetDone rt job) job.frozenSet.members table table')
    (second : Exactly (CompensationDone back) back.compensation.members table' table'') (p : Nat) :
    Undone rt changeSet (table p) (table'' p) := by
  obtain ⟨⟨lineage, body⟩, patch, advances, -, ownAllowed, ownKey, ownTenant⟩ := setJob_of_changeSet built
  have reverses : Reverses changeSet job.toJobHeader back := by
    refine reverses_of_captured integrity captured ?_ (ownTenant.trans tenant) (ownAllowed.trans allowed)
    rw [ownKey, primaryKey]
  obtain ⟨_, members, rest⟩ := bind_eq_ok valid
  obtain ⟨_, -, rest⟩ := bind_eq_ok rest
  unfold inverseCaptureFromChangeSet at captured
  rw [body] at captured
  cases lineage with
  | none => cases captured
  | some lineage =>
    cases operation : job.operation with
    | update =>
      rw [operation] at captured rest
      obtain ⟨version, reversible, taken⟩ := bind_eq_ok captured
      obtain ⟨-, given⟩ := reversibleVersion_ok reversible
      have inverse := Option.some.inj (Except.ok.inj taken)
      have restores : back.operation = .restoreUpdate := by rw [← integrity.operation, ← inverse]
      have reversed := congrArg InverseDescriptor.members inverse
      dsimp only at reversed
      rw [← reversed] at second
      obtain ⟨_, patchable, -⟩ := bind_eq_ok rest
      have patchable := validatePatch_ok patchable
      rw [patch] at patchable
      refine updates_undone reverses patchable (versionColumn_mem given) (apart.primaryKey _ given) (apart.tenant _ given)
        restores (by rw [← inverse]) (fun m => m.primaryKey.value) (·.before) _ ?_ (fun _ _ => rfl) (fun _ _ => rfl) ?_ keyed
        first second p
      · intro m member
        rw [reviewedImages, body]
        exact List.mem_map_of_mem member
      · intro m member before after done
        exact patched_of_setDone operation patch (advances.trans given) done
    | delete =>
      rw [operation] at captured
      have inverse := Option.some.inj (Except.ok.inj captured)
      have available := integrity.availability
      rw [← inverse] at available
      cases available
    | batchInsert =>
      rw [operation] at captured
      have inverse := Option.some.inj (Except.ok.inj captured)
      have removes : back.operation = .removeInsert := by rw [← integrity.operation, ← inverse]
      have reversed := congrArg InverseDescriptor.members inverse
      dsimp only at reversed
      rw [← reversed] at second
      refine inserts_undone reverses removes (fun m => m.primaryKey.value) _ (fun _ _ => rfl) ?_ keyed first second p
      intro m member before after done
      simp only [SetDone, operation] at done
      obtain ⟨rfl, row, rfl, given⟩ := done
      exact ⟨rfl, row, rfl, given _ (KeyedMap.get?_eq_some.mp (batchMember_inScope members operation member).1),
        given _ (KeyedMap.get?_eq_some.mp (batchMember_key members operation member))⟩

end

/-- The proposal that closes ticket 7 at version 3 of its row, with a reviewed inverse. -/
def closeReversibly : StoredProposal :=
  { Intents.closeTicket with
    changeSet := { Intents.closeTicket.changeSet with
      after := .ofList [("status", .str "closed"), ("version", .num 4)]
      guards := { Intents.closeTicket.changeSet.guards with
        expectedVersion := some ⟨"version", .num 3⟩, versionAdvance := some ⟨"version", .integerIncrement⟩ }
      body := .v2 .update (some ⟨"prop_1", "prop_1", "prop_1", 1⟩) } }

/-- The captured inverse: ticket 7 is open again, when it is closed at version 4. -/
def reopening : InverseDescriptor :=
  { availability := .available, reasonCodes := [], operation := .restoreUpdate, cardinality := .single
    forwardProposalId := "prop_1", forwardWritebackJobId := "wbj_prop_1", target := ⟨"crm", "public", "tickets", "id"⟩
    tenantGuard := ⟨"tenant_id", .str "acme"⟩, principalScope := none, allowedColumns := ["status"]
    members := [⟨⟨"id", .str "7"⟩, .ofList [("status", .str "closed"), ("version", .num 4)],
      some (.ofList [("status", .str "open")])⟩]
    maxRows := 1, aggregateBounds := [], versionAdvance := some ⟨"version", .integerIncrement⟩
    lineage := ⟨"prop_1", "prop_1", "prop_1", 1⟩ }

def closeRow : RowJob :=
  { jobHeader closeReversibly .postgres 1 with
    operation := .update, patch := .ofList [("status", .str "closed")], conflictGuard := .versionColumn "version" (.num 3)
    freshness := none, versionAdvance := some ⟨"version", .integerIncrement⟩, deduplication := none
    inverseCapture := some reopening }

def reopenTicket : CompensationJob :=
  { jobHeader closeReversibly .postgres 1 with
    jobId := "wbj_prop_2", proposalId := "prop_2", operation := .restoreUpdate, compensation := reopening
    forwardReceiptHash := ⟨"cc"⟩ }

/-- A runtime that takes only the same values for equal. -/
def exactRuntime : SourceRuntime :=
  { CommitOutcomes.matchingRuntime with
    versionValuesMatch := fun value reviewed => decide (Adapters.scalar value = reviewed) }

/-- Ticket 7 of tenant `acme`. -/
def versionedRow (status : String) (version : Rat) : TableRow := fun column =>
  if column = "id" then .str "7"
  else if column = "tenant_id" then .str "acme"
  else if column = "status" then .str status
  else if column = "version" then .num version
  else .null

def versionedTable (status : String) (version : Rat) : Table := fun place =>
  if place = 0 then some (versionedRow status version) else none

theorem versionedTable_keyed (status : String) (version : Rat) (target : JobTarget) :
    Keyed target (versionedTable status version) := by
  intro place place' row row' found found' _ _
  unfold versionedTable at found found'
  split at found <;> split at found' <;> simp_all

/-- One member that changes the ticket. -/
theorem exactly_versioned {β : Type} {post : β → Option TableRow → Option TableRow → Prop} {m : β} {status status' : String}
    {version version' : Rat} (here : post m (some (versionedRow status version)) (some (versionedRow status' version'))) :
    Exactly post [m] (versionedTable status version) (versionedTable status' version') :=
  exactly_one (p := 0) here fun p other => by simp [versionedTable, other]

theorem afterImage_versioned (status status' : String) {version next : Rat} (advances : version + 1 = next) :
    afterImage (.ofList [("status", .str status')]) (some "version") (versionedRow status version) =
      versionedRow status' next := by
  funext column
  by_cases advanced : column = "version"
  · subst column
    rw [afterImage_version, ← advances]
    rfl
  · have other : ¬ some "version" = some column := by simpa using Ne.symm advanced
    unfold afterImage
    rw [if_neg other]
    by_cases patched : column = "status"
    · subst column
      rfl
    · have unpatched : (KeyedMap.ofList [("status", Scalar.str status')]).get? column = none := by
        rw [KeyedMap.get?_eq_none]
        exact fun member => patched (List.mem_singleton.mp member)
      rw [unpatched]
      simp [versionedRow, advanced, patched]

theorem ticket_closed : Applied exactRuntime (.v2 closeRow) (versionedTable "open" 3) (versionedTable "closed" 4) := by
  refine exactly_versioned ?_
  have matched : Matched exactRuntime (versionedRow "open" 3) (reviewedValues closeRow) := by
    intro e listed
    have only : reviewedValues closeRow = [("status", .str "open")] := by decide
    rw [only, List.mem_singleton] at listed
    subst listed
    exact ⟨some (.scalar (.str "open")), rfl, by decide⟩
  refine ⟨_, _, rfl, ⟨rfl, ⟨rfl, fun s within => nomatch within⟩, ⟨"version", rfl⟩, matched⟩, rfl, fun column _ => ?_⟩
  rw [← afterImage_versioned "open" "closed" (show (3 : Rat) + 1 = 4 by decide +kernel)]
  rfl

theorem ticket_reopened : Applied exactRuntime (.v4 reopenTicket) (versionedTable "closed" 4) (versionedTable "open" 5) := by
  refine exactly_versioned ?_
  have restored := afterImage_versioned "closed" "open" (show (4 : Rat) + 1 = 5 by decide +kernel)
  refine ⟨_, _, rfl, ⟨rfl, ⟨rfl, fun s within => nomatch within⟩, ?_⟩, rfl, restored.symm⟩
  decide

theorem sorted_once : sortedColumns ["status"] = ["status"] := List.mergeSort_of_pairwise (by decide)

theorem sorted_twice : sortedColumns (["status"] ++ ["version"]) = ["status", "version"] :=
  List.mergeSort_of_pairwise (by decide)

theorem reopening_captured :
    inverseCaptureFromChangeSet closeReversibly.changeSet (writebackJobId "prop_1" 1) = .ok (some reopening) := by
  show Except.ok (some { reopening with
    forwardWritebackJobId := writebackJobId "prop_1" 1
    members := [⟨⟨"id", .str "7"⟩, selectReviewedState closeReversibly.changeSet.after (["status"] ++ ["version"]),
      some (selectReviewedState closeReversibly.changeSet.before ["status"])⟩] }) = _
  rw [selectReviewedState, selectReviewedState, sorted_twice, sorted_once]
  decide

theorem closeRow_created :
    createWritebackJobFromProposal exactRuntime.platform closeReversibly 1 = .ok (.v2 closeRow) := by
  unfold createWritebackJobFromProposal
  rw [show closeReversibly.proposalId = "prop_1" from rfl, reopening_captured]
  decide

end SynapsorRunner.ReversedChanges
