import SynapsorRunner.DedupUniqueness
import SynapsorRunner.TableContents

/-!
The authority of guarded writes. A statement is confined when it touches only rows
of the tenant and the principal of its job, leaves the key, the tenant and the
principal of every row as they are, and writes no column but the allowed ones and
those that the Runner supplies. Which accepted jobs have confined statements only is
a matter of the columns that they restore and of the version that they advance
(`confined_iff`).
-/
namespace SynapsorRunner.Confinement
open SynapsorRunner.Protocol SynapsorRunner.Proposals SynapsorRunner.Compensation SynapsorRunner.Adapters
open SynapsorRunner.Programs SynapsorRunner.Tables

/-! ### Confined statements -/

/-- The columns that say whose row it is, and which. -/
def keyColumns (target : JobTarget) : List Column :=
  target.primaryKey.column :: target.tenantGuard.column :: target.principalScope.toList.map (·.column)

/-- The columns that a job writes beside the allowed ones. -/
def suppliedColumns : WritebackJob → List Column
  | .v1 job => keyColumns job.target
  | .v2 job => keyColumns job.target ++ (job.deduplication.getD []).map (·.column) ++
      job.versionAdvance.toList.map (·.column)
  | .v3 job => keyColumns job.target ++ (job.frozenSet.members.flatMap fun m => (m.deduplication.getD []).map (·.column)) ++
      job.versionAdvance.toList.map (·.column)
  | .v4 job => keyColumns job.target ++ job.compensation.versionAdvance.toList.map (·.column)

def writtenColumns : Statement → List Column
  | .insert _ values => values.keys
  | .update _ assignments _ => assignments.map (·.column)
  | .delete _ _ => []

/-- The rows that a statement touches. -/
def Touches : Statement → TableRow → Prop
  | .insert _ _, _ => False
  | .update _ _ conditions, row => Matches conditions row
  | .delete _ conditions, row => Matches conditions row

/-- A row of the tenant and the principal of a job. -/
structure InScope (target : JobTarget) (row : TableRow) : Prop where
  tenant : row target.tenantGuard.column = target.tenantGuard.value
  principal : ∀ s ∈ target.principalScope, ∀ value ∈ s.value, row s.column = value

/-- What a statement does by itself, on a table that sets no column of its own. -/
abbrev OwnEffect : Statement → Table → Table → Prop := Effect fun _ => False

structure Confined (job : WritebackJob) (s : Statement) : Prop where
  columns : ∀ column ∈ writtenColumns s, column ∈ job.allowedColumns ∨ column ∈ suppliedColumns job
  touched : ∀ row, Touches s row → InScope job.target row
  added : ∀ table table', OwnEffect s table table' → ∀ place row, table place = none → table' place = some row →
    InScope job.target row
  keys : ∀ table table', OwnEffect s table table' → ∀ place row row', table place = some row → table' place = some row' →
    ∀ column ∈ keyColumns job.target, row' column = row column

/-! ### Deletes -/

/-- Conditions that ask for the tenant and the principal of a job. -/
structure Guards (target : JobTarget) (conditions : List Condition) : Prop where
  tenant : ∃ c ∈ conditions, c.column = target.tenantGuard.column ∧ conditionValue c = target.tenantGuard.value
  principal : ∀ s ∈ target.principalScope, ∃ c ∈ conditions, c.column = s.column ∧ s.value = some (conditionValue c)

theorem Guards.inScope {target : JobTarget} {conditions : List Condition} (guards : Guards target conditions)
    {row : TableRow} (met : Matches conditions row) : InScope target row := by
  constructor
  · obtain ⟨c, member, column, value⟩ := guards.tenant
    rw [← column, met.value member, value]
  · intro s within value given
    obtain ⟨c, member, column, same⟩ := guards.principal s within
    rw [same] at given
    cases given
    rw [← column, met.value member]

theorem confined_delete (job : WritebackJob) {table : TableName} {conditions : List Condition}
    (guards : Guards job.target conditions) : Confined job (.delete table conditions) := by
  refine ⟨by simp [writtenColumns], fun row met => guards.inScope met, ?_, ?_⟩
  · intro before after effect place row absent present
    have here := effect place
    rw [absent, present] at here
    cases here
  · intro before after effect place row row' old new column _
    have here := effect place
    rw [old, new] at here
    by_cases met : Matches conditions row
    · simp [deletedAt, met] at here
    · simp only [deletedAt, met, ↓reduceIte, Option.some.injEq] at here
      rw [here]

/-! ### Inserts -/

theorem confined_insert_iff (job : WritebackJob) {table : TableName} {values : Record}
    (tenant : job.target.tenantGuard.column ∈ values.keys)
    (principal : ∀ s ∈ job.target.principalScope, ∀ value ∈ s.value, s.column ∈ values.keys) :
    Confined job (.insert table values) ↔
      (∀ column ∈ values.keys, column ∈ job.allowedColumns ∨ column ∈ suppliedColumns job) ∧
        InScope job.target fun column => (values.get? column).getD .null := by
  have agrees : ∀ row : TableRow, (∀ e ∈ values.entries, row e.1 = e.2) → ∀ column ∈ values.keys,
      row column = (values.get? column).getD .null := by
    intro row given column member
    obtain ⟨value, found⟩ := KeyedMap.mem_keys.mp member
    rw [found, given (column, value) (KeyedMap.get?_eq_some.mp found), Option.getD_some]
  constructor
  · intro confined
    refine ⟨confined.columns, ?_⟩
    refine confined.added (fun _ => none) _ ⟨0, fun column => (values.get? column).getD .null, rfl, ?_, rfl⟩ 0 _ rfl
      (by simp)
    intro e member
    show (values.get? e.1).getD .null = e.2
    rw [KeyedMap.get?_eq_some.mpr (show (e.1, e.2) ∈ values.entries from member), Option.getD_some]
  · rintro ⟨written, scope⟩
    refine ⟨written, fun row touched => touched.elim, ?_, ?_⟩
    · rintro before after ⟨place, row, free, given, rfl⟩ place' row' absent present
      by_cases here : place' = place
      · subst here
        simp only [Function.update_self, Option.some.injEq] at present
        subst present
        refine ⟨?_, fun s within value known => ?_⟩
        · rw [agrees row given _ tenant]
          exact scope.tenant
        · rw [agrees row given _ (principal s within value known)]
          exact scope.principal s within value known
      · rw [Function.update_of_ne here, absent] at present
        cases present
    · rintro before after ⟨place, row, free, given, rfl⟩ place' old new present kept column _
      by_cases here : place' = place
      · subst here
        rw [free] at present
        cases present
      · rw [Function.update_of_ne here, present] at kept
        cases kept
        rfl

/-! ### Updates -/

/-- What an UPDATE assigns to key columns is what its conditions require there,
    unless no row meets them or the UPDATE fails on every one that does. -/
def KeepsKeys (keys : List Column) (assignments : List Assignment) (conditions : List Condition) : Prop :=
  Matches conditions (described conditions) → Assignable assignments (described conditions) →
    ∀ a ∈ assignments, a.column ∈ keys → newValue (described conditions) a = some (described conditions a.column)

instance (keys : List Column) (assignments : List Assignment) (conditions : List Condition) :
    Decidable (KeepsKeys keys assignments conditions) :=
  inferInstanceAs (Decidable (_ → _ → ∀ a ∈ assignments, _))

/-- An assignment has a value on the described row when it has one on a row that
    meets the conditions. -/
theorem assignable_described {assignments : List Assignment} {conditions : List Condition} {row : TableRow}
    (met : Matches conditions row) (assignable : Assignable assignments row) :
    Assignable assignments (described conditions) := by
  refine ⟨assignable.1, fun a member => ?_⟩
  have valued := assignable.2 a member
  cases a with
  | value column value => rfl
  | increment column =>
    by_cases conditioned : ∃ c ∈ conditions, c.column = column
    · obtain ⟨c, asked, rfl⟩ := conditioned
      simpa only [newValue, met.described_eq asked] using valued
    · have none : described conditions column = .null := by
        have absent : (conditions.find? fun c => c.column = column) = none := by
          refine List.find?_eq_none.mpr fun c asked => ?_
          simp only [decide_eq_true_eq]
          exact fun same => conditioned ⟨c, asked, same⟩
        simp only [described, absent, Option.map_none, Option.getD_none]
      simp only [newValue, none, Option.isSome_some]

theorem confined_update_iff (job : WritebackJob) {table : TableName} {assignments : List Assignment}
    {conditions : List Condition} (guards : Guards job.target conditions)
    (conditioned : ∀ column ∈ keyColumns job.target, ∃ c ∈ conditions, c.column = column)
    (columns : ∀ column ∈ assignments.map (·.column), column ∈ job.allowedColumns ∨ column ∈ suppliedColumns job) :
    Confined job (.update table assignments conditions) ↔ KeepsKeys (keyColumns job.target) assignments conditions := by
  constructor
  · intro confined satisfiable assignable a member key
    have effect : OwnEffect (.update table assignments conditions) (fun _ => some (described conditions))
        (fun _ => some (assign assignments (described conditions))) := by
      intro place
      simp only [UpdatedAt, satisfiable, ↓reduceIte]
      exact ⟨_, rfl, assignable, fun _ _ => rfl⟩
    have kept := confined.keys _ _ effect 0 _ _ rfl rfl a.column key
    rw [← assign_of_mem assignable member, kept]
  · intro keeps
    refine ⟨columns, fun row met => guards.inScope met, ?_, ?_⟩
    · intro before after effect place row absent present
      have here := effect place
      rw [absent, present] at here
      cases here
    · intro before after effect place row row' old new column key
      have here := effect place
      rw [old, new] at here
      by_cases met : Matches conditions row
      · obtain ⟨_, same, assignable, values⟩ := here.of_matches met
        cases same
        rw [values column (.inr id)]
        by_cases assigned : column ∈ assignments.map (·.column)
        · obtain ⟨a, member, rfl⟩ := List.mem_map.mp assigned
          obtain ⟨c, asked, same⟩ := conditioned a.column key
          have described_eq : described conditions a.column = row a.column := by
            have := met.described_eq asked
            rwa [same] at this
          have kept := keeps met.described (assignable_described met assignable) a member key
          have value : newValue row a = newValue (described conditions) a := by
            cases a with
            | value column value => rfl
            | increment column =>
              simp only [Assignment.column] at described_eq
              simp only [newValue, described_eq]
          have whole := assign_of_mem assignable member
          rw [value, kept, described_eq] at whole
          exact Option.some.inj whole
        · exact assign_of_not_mem assigned
      · have same := here.eq_of_not_matches met
        cases same
        rfl

/-! ### The statements of row jobs -/

theorem quoted_ok_iff {engine : Engine} {s s' : Statement} :
    s.quoted engine = .ok s' ↔ s' = s ∧ ∀ identifier ∈ s.identifiers, safeIdentifier identifier = true := by
  unfold Statement.quoted quoteIdentifiers
  cases unsafe' : s.identifiers.find? (!safeIdentifier ·) with
  | none =>
    have all : ∀ identifier ∈ s.identifiers, safeIdentifier identifier = true := by
      simpa using List.find?_eq_none.mp unsafe'
    constructor
    · intro quoted
      cases quoted
      exact ⟨rfl, all⟩
    · rintro ⟨rfl, _⟩
      rfl
  | some identifier =>
    constructor
    · intro quoted
      cases quoted
    · rintro ⟨rfl, all⟩
      have broken := List.find?_some unsafe'
      rw [all identifier (List.mem_of_find?_eq_some unsafe')] at broken
      cases broken

/-- What a resolved scope says of the scope of a target. -/
theorem principalScope_ok {target : JobTarget} {scope : Option ColumnValue} (resolved : principalScope target = .ok scope) :
    (∀ s ∈ target.principalScope, ∃ v ∈ scope, v.column = s.column ∧ s.value = some v.value) ∧
      ∀ v ∈ scope, ∃ s ∈ target.principalScope, s.column = v.column ∧ s.value = some v.value := by
  unfold principalScope at resolved
  split at resolved
  · rename_i unscoped
    cases resolved
    simp [unscoped]
  · rename_i s given
    split at resolved
    · cases resolved
    · rename_i value known
      cases resolved
      simp [given, known]

/-- The conditions on the key, the tenant and the principal are guards. -/
theorem guards_rowConditions {target : JobTarget} {scope : Option ColumnValue}
    (resolved : principalScope target = .ok scope) (primaryKey : Scalar) (more : List Condition) :
    Guards target (rowConditions .equals target primaryKey scope ++ more) := by
  refine ⟨⟨.equals target.tenantGuard.column target.tenantGuard.value, by simp [rowConditions], rfl, rfl⟩, ?_⟩
  intro s within
  obtain ⟨v, given, column, value⟩ := (principalScope_ok resolved).1 s within
  refine ⟨.equals v.column v.value, ?_, column, value⟩
  simp only [rowConditions, scopeConditions, List.mem_append, List.mem_map, Option.mem_toList]
  exact .inl (.inr ⟨v, given, rfl⟩)

theorem conditioned_rowConditions {target : JobTarget} {scope : Option ColumnValue}
    (resolved : principalScope target = .ok scope) (primaryKey : Scalar) (more : List Condition) :
    ∀ column ∈ keyColumns target, ∃ c ∈ rowConditions .equals target primaryKey scope ++ more, c.column = column := by
  intro column member
  simp only [keyColumns, List.mem_cons, List.mem_map, Option.mem_toList] at member
  rcases member with rfl | rfl | ⟨s, within, rfl⟩
  · exact ⟨.equals target.primaryKey.column primaryKey, by simp [rowConditions], rfl⟩
  · obtain ⟨c, asked, column, -⟩ := (guards_rowConditions resolved primaryKey more).tenant
    exact ⟨c, asked, column⟩
  · obtain ⟨c, asked, column, -⟩ := (guards_rowConditions resolved primaryKey more).principal s within
    exact ⟨c, asked, column⟩

theorem guard_iff {conflictGuard : ConflictGuard} {operation : String} {guard : ColumnValue}
    (guarded : exactConflictGuard conflictGuard operation = .ok guard) (other : ColumnValue) :
    conflictGuard = .versionColumn other.column other.value ↔ other = guard := by
  unfold exactConflictGuard at guarded
  split at guarded
  · cases guarded
  · split at guarded
    · cases guarded
    · cases guarded
      cases other
      simp [eq_comm]
  · cases guarded

/-- An UPDATE of a row job: its allowed patch, under its guards. -/
theorem buildUpdate_ok {engine : Engine} {job : RowJob} {s : Statement} (built : buildUpdate engine job = .ok s) :
    ∃ (guard : ColumnValue) (primaryKey : Scalar) (scope : Option ColumnValue),
      exactConflictGuard job.conflictGuard (engineText engine ++ " update") = .ok guard ∧
      job.target.primaryKey.value = some primaryKey ∧ principalScope job.target = .ok scope ∧
      PatchAllowed job.toJobHeader job.patch ∧
      s = .update (targetTable job.target) (patched job.patch ++ incremented job.versionAdvance)
        (rowConditions .equals job.target primaryKey scope ++ [.equals guard.column guard.value]) := by
  obtain ⟨_, -, rest⟩ := bind_eq_ok built
  obtain ⟨guard, guarded, rest⟩ := bind_eq_ok rest
  obtain ⟨_, allowed, rest⟩ := bind_eq_ok rest
  cases known : job.target.primaryKey.value with
  | none =>
    rw [known] at rest
    cases rest
  | some primaryKey =>
    rw [known] at rest
    obtain ⟨scope, resolved, rest⟩ := bind_eq_ok rest
    exact ⟨guard, primaryKey, scope, guarded, rfl, resolved, validatePatch_ok allowed, (quoted_ok_iff.mp rest).1⟩

theorem buildDelete_ok {engine : Engine} {job : RowJob} {s : Statement} (built : buildDelete engine job = .ok s) :
    ∃ (guard : ColumnValue) (primaryKey : Scalar) (scope : Option ColumnValue),
      job.conflictGuard = .versionColumn guard.column guard.value ∧ job.target.primaryKey.value = some primaryKey ∧
      principalScope job.target = .ok scope ∧
      s = .delete (targetTable job.target)
        (rowConditions .equals job.target primaryKey scope ++ [.equals guard.column guard.value]) := by
  obtain ⟨_, -, rest⟩ := bind_eq_ok built
  obtain ⟨guard, guarded, rest⟩ := bind_eq_ok rest
  cases known : job.target.primaryKey.value with
  | none =>
    rw [known] at rest
    cases rest
  | some primaryKey =>
    rw [known] at rest
    obtain ⟨scope, resolved, rest⟩ := bind_eq_ok rest
    exact ⟨guard, primaryKey, scope, (guard_iff guarded guard).mpr rfl, rfl, resolved, (quoted_ok_iff.mp rest).1⟩

theorem addComponents_keys {components : List DeduplicationComponent} {values out : Record}
    (added : addComponents values components = .ok out) :
    ∀ column ∈ out.keys, column ∈ values.keys ∨ column ∈ components.map (·.column) := by
  induction components generalizing values with
  | nil =>
    cases added
    exact fun column member => .inl member
  | cons c rest ih =>
    rw [addComponents] at added
    split at added
    · cases added
    · intro column member
      rcases ih added column member with old | new
      · rcases KeyedMap.mem_keys_set.mp old with rfl | old
        · exact .inr (by simp)
        · exact .inl old
      · exact .inr (List.mem_cons_of_mem _ new)

/-- What the values of an insert are, and where they come from. -/
structure InsertedAs (job : RowJob) (values : Record) : Prop where
  tenant : values.get? job.target.tenantGuard.column = some job.target.tenantGuard.value
  principal : ∀ s ∈ job.target.principalScope, values.get? s.column = s.value
  columns : ∀ column ∈ values.keys, column ∈ job.patch.keys ∨ column ∈ suppliedColumns (.v2 job)

theorem insertValues_ok {job : RowJob} {values : Record} (inserted : insertValues job = .ok values) :
    InsertedAs job values := by
  unfold insertValues at inserted
  split at inserted
  · cases inserted
  rename_i components deduplication
  obtain ⟨_, -, inserted⟩ := bind_eq_ok inserted
  obtain ⟨own, added, inserted⟩ := bind_eq_ok inserted
  obtain ⟨_, identified, inserted⟩ := bind_eq_ok inserted
  obtain ⟨scope, resolved, inserted⟩ := bind_eq_ok inserted
  obtain ⟨-, all⟩ := DedupUniqueness.addComponents_ok added
  have tenant : own.get? job.target.tenantGuard.column = some job.target.tenantGuard.value := by
    simp only [throwIf_ok_iff, not_or, not_not, List.any_eq_true, decide_eq_true_eq] at identified
    obtain ⟨c, member, -, column, value⟩ := identified.1
    rw [← column, ← value]
    exact all c member
  have columns : ∀ column ∈ own.keys, column ∈ job.patch.keys ∨ column ∈ suppliedColumns (.v2 job) := by
    intro column member
    rcases addComponents_keys added column member with patched | component
    · exact .inl patched
    · exact .inr (by simp [suppliedColumns, deduplication, List.mem_append, component])
  obtain ⟨forward, backward⟩ := principalScope_ok resolved
  cases scope with
  | none =>
    cases inserted
    refine ⟨tenant, fun s within => ?_, columns⟩
    obtain ⟨v, absent, -⟩ := forward s within
    cases absent
  | some v =>
    obtain ⟨_, apart, inserted⟩ := bind_eq_ok inserted
    rw [throwIf_ok_iff] at apart
    cases inserted
    obtain ⟨guard, declared, own, -⟩ := backward v rfl
    refine ⟨?_, fun s within => ?_, fun column member => ?_⟩
    · rw [KeyedMap.get?_set_of_ne]
      · exact tenant
      · rintro same
        exact apart (by simp [KeyedMap.contains, ← same, tenant])
    · obtain ⟨w, here, column, value⟩ := forward s within
      cases here
      rw [← column, KeyedMap.get?_set_self, value]
    · rcases KeyedMap.mem_keys_set.mp member with rfl | old
      · refine .inr ?_
        simp only [suppliedColumns, keyColumns, List.mem_append, List.mem_cons, List.mem_map, Option.mem_toList]
        exact .inl (.inl (.inr (.inr ⟨guard, declared, own⟩)))
      · exact columns column old

/-! ### The condition -/

/-- An UPDATE of the job keeps the key columns, and a restored row names no other
    columns than the allowed ones and the key columns, of which the tenant and the
    principal are not one column with two values. -/
def Settled : WritebackJob → Prop
  | .v1 _ => True
  | .v2 job => job.operation = .update → ∀ (guard : ColumnValue) (primaryKey : Scalar) (scope : Option ColumnValue),
      job.conflictGuard = .versionColumn guard.column guard.value → job.target.primaryKey.value = some primaryKey →
      principalScope job.target = .ok scope →
      KeepsKeys (keyColumns job.target) (patched job.patch ++ incremented job.versionAdvance)
        (rowConditions .equals job.target primaryKey scope ++ [.equals guard.column guard.value])
  | .v3 job => job.operation = .update → ∀ m ∈ job.frozenSet.members, ∀ scope, principalScope job.target = .ok scope →
      KeepsKeys (keyColumns job.target) (patched job.patch ++ job.versionAdvance.toList.map fun v => .increment v.column)
        (rowConditions .equals job.target m.primaryKey.value scope ++
          m.expectedVersion.toList.map fun v => .equals v.column v.value)
  | .v4 job => ∀ m ∈ job.compensation.members, ∀ scope, principalScope job.target = .ok scope →
      match job.operation with
      | .restoreUpdate => (∀ column ∈ m.expectedState.keys, safeIdentifier column = true) →
          KeepsKeys (keyColumns job.target) (restoreAssignments job m) (compensationConditions .postgres job m scope)
      | .restoreInsert => (∀ column ∈ (m.restoreValues.getD .empty).keys, safeIdentifier column = true) →
          (∀ column ∈ (m.restoreValues.getD .empty).keys,
            column ∈ job.allowedColumns ∨ column ∈ keyColumns job.target) ∧
          ∀ s ∈ job.target.principalScope, s.column = job.target.tenantGuard.column →
            s.value = some job.target.tenantGuard.value
      | .removeInsert => True

/-! ### Row jobs -/

theorem patched_columns (patch : Record) : (patched patch).map (·.column) = patch.keys := by
  simp [patched, KeyedMap.keys, Function.comp_def, Assignment.column]

theorem incremented_columns (advance : Option VersionAdvance) :
    ∀ column ∈ (incremented advance).map (·.column), column ∈ advance.toList.map (·.column) := by
  intro column member
  unfold incremented at member
  split at member
  · simpa [Assignment.column] using member
  · simp at member

/-- An allowed column is no key column. -/
theorem not_key_of_allowed {job : JobHeader} {patch : Record} (allowed : PatchAllowed job patch) {column : Column}
    (member : column ∈ job.allowedColumns) : column ∉ keyColumns job.target := by
  obtain ⟨scope, resolved, apart⟩ := allowed.scope
  intro key
  simp only [keyColumns, List.mem_cons, List.mem_map, Option.mem_toList] at key
  rcases key with rfl | rfl | ⟨s, within, rfl⟩
  · exact allowed.primaryKey member
  · exact allowed.tenantGuard member
  · obtain ⟨v, given, same, -⟩ := (principalScope_ok resolved).1 s within
    exact apart v given (same ▸ member)

/-- A patch of allowed columns alone keeps the key columns. -/
theorem keepsKeys_patched {job : JobHeader} {patch : Record} (allowed : PatchAllowed job patch)
    (conditions : List Condition) : KeepsKeys (keyColumns job.target) (patched patch) conditions := by
  intro _ _ a member key
  have written : a.column ∈ patch.keys := by
    rw [← patched_columns]
    exact List.mem_map_of_mem member
  exact absurd key (not_key_of_allowed allowed (allowed.columns _ written))

theorem confined_legacy {engine : Engine} {job : LegacyJob} {s : Statement}
    (built : buildRow engine (LegacyJob.toRowJob job) = .ok s) : Confined (.v1 job) s := by
  obtain ⟨guard, primaryKey, scope, -, -, resolved, allowed, rfl⟩ := buildUpdate_ok built
  refine (confined_update_iff (.v1 job) (guards_rowConditions resolved ..) (conditioned_rowConditions resolved _ _)
    ?_).mpr ?_
  · intro column member
    simp only [incremented, LegacyJob.toRowJob, List.append_nil, patched_columns] at member
    exact .inl (allowed.columns column member)
  · simp only [incremented, LegacyJob.toRowJob, List.append_nil]
    exact keepsKeys_patched allowed _

theorem confined_row_iff {engine : Engine} {job : RowJob} {s : Statement} (built : buildRow engine job = .ok s) :
    Confined (.v2 job) s ↔ Settled (.v2 job) := by
  unfold buildRow at built
  cases operation : job.operation with
  | update =>
    rw [operation] at built
    obtain ⟨guard, primaryKey, scope, guarded, key, resolved, allowed, rfl⟩ := buildUpdate_ok built
    rw [confined_update_iff (.v2 job) (guards_rowConditions resolved ..) (conditioned_rowConditions resolved _ _)]
    · constructor
      · intro keeps _ other primaryKey' scope' asked key' resolved'
        obtain rfl := (guard_iff guarded other).mp asked
        rw [key] at key'
        rw [resolved] at resolved'
        cases key'
        cases resolved'
        exact keeps
      · intro settled
        exact settled operation guard primaryKey scope ((guard_iff guarded guard).mpr rfl) key resolved
    · intro column member
      rw [List.map_append, patched_columns, List.mem_append] at member
      rcases member with patched | advanced
      · exact .inl (allowed.columns column patched)
      · refine .inr ?_
        simp only [suppliedColumns, List.mem_append]
        exact .inr (incremented_columns _ column advanced)
  | insert =>
    rw [operation] at built
    refine iff_of_true ?_ (by simp [Settled, operation])
    obtain ⟨_, -, rest⟩ := bind_eq_ok built
    obtain ⟨_, patch, rest⟩ := bind_eq_ok rest
    obtain ⟨values, inserted, rest⟩ := bind_eq_ok rest
    obtain ⟨rfl, -⟩ := quoted_ok_iff.mp rest
    have allowed := validatePatch_ok patch
    obtain ⟨tenant, principal, columns⟩ := insertValues_ok inserted
    refine (confined_insert_iff (.v2 job) ?_ ?_).mpr ⟨?_, ?_, ?_⟩
    · exact KeyedMap.mem_keys.mpr ⟨_, tenant⟩
    · intro s within value known
      exact KeyedMap.mem_keys.mpr ⟨value, (principal s within).trans known⟩
    · intro column member
      rcases columns column member with patched | supplied
      · exact .inl (allowed.columns column patched)
      · exact .inr supplied
    · show (values.get? job.target.tenantGuard.column).getD .null = job.target.tenantGuard.value
      rw [tenant, Option.getD_some]
    · intro s within value known
      show (values.get? s.column).getD .null = value
      rw [principal s within, known, Option.getD_some]
  | delete =>
    rw [operation] at built
    refine iff_of_true ?_ (by simp [Settled, operation])
    obtain ⟨guard, primaryKey, scope, -, -, resolved, rfl⟩ := buildDelete_ok built
    exact confined_delete (.v2 job) (guards_rowConditions resolved ..)

/-! ### Set jobs and compensations -/

/-- The identifiers that a schema has found safe. -/
structure SafeHeader (job : JobHeader) : Prop where
  schema : safeIdentifier job.target.schema = true
  table : safeIdentifier job.target.table = true
  keys : ∀ column ∈ keyColumns job.target, safeIdentifier column = true
  allowed : ∀ column ∈ job.allowedColumns, safeIdentifier column = true

theorem safeHeader_of_fields {job : JobHeader} (fields : headerFields job = true) : SafeHeader job := by
  simp only [headerFields, Bool.and_eq_true, List.all_eq_true] at fields
  obtain ⟨⟨⟨⟨⟨⟨⟨-, schema⟩, table⟩, primaryKey⟩, tenant⟩, principal⟩, allowed⟩, -⟩ := fields
  refine ⟨schema, table, ?_, allowed⟩
  intro column member
  simp only [keyColumns, List.mem_cons, List.mem_map, Option.mem_toList] at member
  rcases member with rfl | rfl | ⟨s, within, rfl⟩
  · exact primaryKey
  · exact tenant
  · rw [Option.mem_def.mp within] at principal
    simp only [Option.all_some, Bool.and_eq_true] at principal
    exact principal.1

theorem mem_filterMap_toOption {α β ε : Type} {build : α → Except ε β} {l : List α} {b : β} :
    b ∈ l.filterMap (fun a => (build a).toOption) ↔ ∃ a ∈ l, build a = .ok b := by
  simp only [List.mem_filterMap]
  refine exists_congr fun a => and_congr_right fun _ => ?_
  cases build a <;> simp [Except.toOption]

theorem advanced_columns (advance : Option VersionAdvance) :
    (advance.toList.map fun v => Assignment.increment v.column).map (·.column) = advance.toList.map (·.column) := by
  simp [Function.comp_def, Assignment.column]

/-- The columns of the UPDATE of a member are safe identifiers. -/
theorem buildMember_update {platform : Platform} {job : SetJob} (fields : setJobFields platform job = true)
    (operation : job.operation = .update) (allowed : PatchAllowed job.toJobHeader job.patch) {m : FrozenSetMember}
    (member : m ∈ job.frozenSet.members) {scope : Option ColumnValue} (resolved : principalScope job.target = .ok scope) :
    buildMember .postgres job m = .ok (.update (targetTable job.target)
      (patched job.patch ++ job.versionAdvance.toList.map fun v => .increment v.column)
      (rowConditions .equals job.target m.primaryKey.value scope ++
        m.expectedVersion.toList.map fun v => .equals v.column v.value)) := by
  simp only [setJobFields, Bool.and_eq_true, List.all_eq_true, decide_eq_true_eq] at fields
  obtain ⟨⟨⟨⟨⟨⟨⟨⟨⟨⟨⟨⟨header, -⟩, -⟩, -⟩, -⟩, advance⟩, -⟩, -⟩, -⟩, -⟩, -⟩, members⟩, -⟩ := fields
  obtain ⟨schema, table, keys, columns⟩ := safeHeader_of_fields header
  have expected := members m member
  simp only [memberFields, Bool.and_eq_true] at expected
  obtain ⟨⟨⟨⟨-, expected⟩, -⟩, -⟩, -⟩ := expected
  have safe : ∀ identifier ∈ (Statement.update (targetTable job.target)
      (patched job.patch ++ job.versionAdvance.toList.map fun v => .increment v.column)
      (rowConditions .equals job.target m.primaryKey.value scope ++
        m.expectedVersion.toList.map fun v => .equals v.column v.value)).identifiers, safeIdentifier identifier = true := by
    intro identifier named
    simp only [Statement.identifiers, List.map_append, patched_columns, advanced_columns, List.mem_append, List.mem_cons,
      targetTable] at named
    rcases named with (rfl | rfl | patch | version) | row | guard
    · exact schema
    · exact table
    · exact columns _ (allowed.columns _ patch)
    · cases known : job.versionAdvance with
      | none => simp [known] at version
      | some v =>
        obtain rfl : identifier = v.column := by simpa [known] using version
        simpa [known] using advance
    · simp only [rowConditions, scopeConditions, List.map_append, List.map_cons, List.map_nil, List.map_map,
        List.mem_append, List.mem_cons, List.not_mem_nil, or_false, List.mem_map, Option.mem_toList, Function.comp_apply,
        Condition.column] at row
      rcases row with (rfl | rfl) | ⟨v, given, rfl⟩
      · exact keys _ (by simp [keyColumns])
      · exact keys _ (by simp [keyColumns])
      · obtain ⟨s, declared, same, -⟩ := (principalScope_ok resolved).2 v given
        rw [← same]
        refine keys _ ?_
        simp only [keyColumns, List.mem_cons, List.mem_map, Option.mem_toList]
        exact .inr (.inr ⟨s, declared, rfl⟩)
    · cases known : m.expectedVersion with
      | none => simp [known] at guard
      | some v =>
        obtain rfl : identifier = v.column := by simpa [known, Condition.column] using guard
        simpa [known] using expected
  unfold buildMember
  rw [operation, resolved]
  exact quoted_ok_iff.mpr ⟨rfl, safe⟩

/-- The row of a batch insert is of the tenant and the principal of its job. -/
theorem batchMember_inScope {platform : Platform} {job : SetJob}
    (integrity : assertFrozenSetJobIntegrity platform job = .ok ()) (operation : job.operation = .batchInsert)
    {m : FrozenSetMember} (member : m ∈ job.frozenSet.members) :
    m.after.get? job.target.tenantGuard.column = some job.target.tenantGuard.value ∧
      ∀ s ∈ job.target.principalScope, m.after.get? s.column = s.value := by
  obtain ⟨_, -, rest⟩ := bind_eq_ok integrity
  obtain ⟨_, -, rest⟩ := bind_eq_ok rest
  obtain ⟨_, -, rest⟩ := bind_eq_ok rest
  obtain ⟨_, members, -⟩ := bind_eq_ok rest
  have checked := checkEach_ok_iff.mp members m member
  obtain ⟨_, -, checked⟩ := bind_eq_ok checked
  rw [operation] at checked
  obtain ⟨_, -, checked⟩ := bind_eq_ok checked
  obtain ⟨_, identity, checked⟩ := bind_eq_ok checked
  obtain ⟨_, principal, -⟩ := bind_eq_ok checked
  simp only [throwIf_ok_iff, not_or, not_not, not_exists, not_and] at identity principal
  exact ⟨identity.2, principal⟩

/-- The columns of a batch insert are allowed or supplied. -/
theorem batchMember_columns {job : SetJob} {m : FrozenSetMember} (member : m ∈ job.frozenSet.members)
    (checked : validateBatchInsertMember job m = .ok ()) :
    ∀ column ∈ m.after.keys, column ∈ job.allowedColumns ∨ column ∈ suppliedColumns (.v3 job) := by
  obtain ⟨_, columns, -⟩ := bind_eq_ok checked
  intro column written
  have known := checkEach_ok_iff.mp columns column written
  simp only [throwIf_ok_iff, not_and, not_not] at known
  by_cases allowed : column ∈ job.allowedColumns
  · exact .inl allowed
  refine .inr ?_
  simp only [suppliedColumns, List.mem_append, List.mem_flatMap]
  by_cases component : column ∈ (m.deduplication.getD []).map (·.column)
  · exact .inl (.inr ⟨m, member, component⟩)
  refine .inl (.inl ?_)
  have principal := known allowed component
  cases declared : job.target.principalScope with
  | none => simp [declared] at principal
  | some s =>
    rw [declared, Option.map_some, Option.some.injEq] at principal
    simp [keyColumns, declared, principal]

theorem confined_set_iff {platform : Platform} {job : SetJob} (fields : setJobFields platform job = true)
    (valid : validateSetJob .postgres platform job = .ok ()) :
    (∀ s ∈ statements .postgres (.v3 job), Confined (.v3 job) s) ↔ Settled (.v3 job) := by
  obtain ⟨_, integrity, rest⟩ := bind_eq_ok valid
  obtain ⟨_, -, rest⟩ := bind_eq_ok rest
  cases operation : job.operation with
  | update =>
    rw [operation] at rest
    obtain ⟨_, patch, rest⟩ := bind_eq_ok rest
    have allowed := validatePatch_ok patch
    have columns : ∀ column ∈ (patched job.patch ++ job.versionAdvance.toList.map fun v => Assignment.increment v.column).map
        (·.column), column ∈ job.allowedColumns ∨ column ∈ suppliedColumns (.v3 job) := by
      intro column member
      rw [List.map_append, patched_columns, advanced_columns, List.mem_append] at member
      rcases member with patched | advanced
      · exact .inl (allowed.columns column patched)
      · refine .inr ?_
        simp only [suppliedColumns, List.mem_append]
        exact .inr advanced
    constructor
    · intro confined _ m member scope resolved
      have built := buildMember_update fields operation allowed member resolved
      have here := confined _ (mem_filterMap_toOption.mpr ⟨m, member, built⟩)
      exact (confined_update_iff (.v3 job) (guards_rowConditions resolved ..) (conditioned_rowConditions resolved _ _)
        columns).mp here
    · intro settled s listed
      obtain ⟨m, member, built⟩ := mem_filterMap_toOption.mp listed
      obtain ⟨scope, resolved, -⟩ := allowed.scope
      rw [buildMember_update fields operation allowed member resolved] at built
      cases built
      exact (confined_update_iff (.v3 job) (guards_rowConditions resolved ..) (conditioned_rowConditions resolved _ _)
        columns).mpr (settled operation m member scope resolved)
  | delete =>
    refine iff_of_true (fun s listed => ?_) (by simp [Settled, operation])
    obtain ⟨m, member, built⟩ := mem_filterMap_toOption.mp listed
    unfold buildMember at built
    rw [operation] at built
    obtain ⟨scope, resolved, built⟩ := bind_eq_ok built
    obtain ⟨rfl, -⟩ := quoted_ok_iff.mp built
    exact confined_delete (.v3 job) (guards_rowConditions resolved ..)
  | batchInsert =>
    rw [operation] at rest
    refine iff_of_true (fun s listed => ?_) (by simp [Settled, operation])
    obtain ⟨m, member, built⟩ := mem_filterMap_toOption.mp listed
    unfold buildMember at built
    rw [operation] at built
    obtain ⟨rfl, -⟩ := quoted_ok_iff.mp built
    obtain ⟨tenant, principal⟩ := batchMember_inScope integrity operation member
    obtain ⟨_, -, columns⟩ := bind_eq_ok (checkEach_ok_iff.mp rest m member)
    refine (confined_insert_iff (.v3 job) ?_ ?_).mpr ⟨?_, ?_, ?_⟩
    · exact KeyedMap.mem_keys.mpr ⟨_, tenant⟩
    · intro s within value known
      exact KeyedMap.mem_keys.mpr ⟨value, (principal s within).trans known⟩
    · intro column written
      exact batchMember_columns member columns column written
    · show (m.after.get? job.target.tenantGuard.column).getD .null = job.target.tenantGuard.value
      rw [tenant, Option.getD_some]
    · intro s within value known
      show (m.after.get? s.column).getD .null = value
      rw [principal s within, known, Option.getD_some]

theorem guards_compensationConditions {job : CompensationJob} {scope : Option ColumnValue}
    (resolved : principalScope job.target = .ok scope) (m : InverseMember) :
    Guards job.target (compensationConditions .postgres job m scope) := by
  refine ⟨⟨.equals job.target.tenantGuard.column job.target.tenantGuard.value, ?_, rfl, rfl⟩, fun s within => ?_⟩
  · simp [compensationConditions, guardCondition]
  · obtain ⟨v, given, column, value⟩ := (principalScope_ok resolved).1 s within
    refine ⟨.equals v.column v.value, ?_, column, value⟩
    simp only [compensationConditions, scopeConditions, List.mem_append, List.mem_map, Option.mem_toList]
    exact .inl (.inr ⟨v, given, rfl⟩)

theorem conditioned_compensationConditions {job : CompensationJob} {scope : Option ColumnValue}
    (resolved : principalScope job.target = .ok scope) (m : InverseMember) :
    ∀ column ∈ keyColumns job.target, ∃ c ∈ compensationConditions .postgres job m scope, c.column = column := by
  have guards := guards_compensationConditions resolved m
  intro column member
  simp only [keyColumns, List.mem_cons, List.mem_map, Option.mem_toList] at member
  rcases member with rfl | rfl | ⟨s, within, rfl⟩
  · exact ⟨.equals job.target.primaryKey.column m.primaryKey.value, by simp [compensationConditions, guardCondition], rfl⟩
  · obtain ⟨c, asked, column, -⟩ := guards.tenant
    exact ⟨c, asked, column⟩
  · obtain ⟨c, asked, column, -⟩ := guards.principal s within
    exact ⟨c, asked, column⟩

/-- The conditions of a compensation name key columns and expected ones. -/
theorem compensationConditions_columns {job : CompensationJob} {scope : Option ColumnValue}
    (resolved : principalScope job.target = .ok scope) (m : InverseMember) :
    ∀ column ∈ (compensationConditions .postgres job m scope).map (·.column),
      column ∈ keyColumns job.target ∨ column ∈ m.expectedState.keys := by
  intro column named
  simp only [compensationConditions, scopeConditions, guardCondition, List.map_append, List.map_cons, List.map_nil,
    List.map_map, List.mem_append, List.mem_cons, List.not_mem_nil, or_false, List.mem_map, Option.mem_toList,
    Function.comp_apply, Condition.column] at named
  rcases named with ((rfl | rfl) | ⟨v, given, rfl⟩) | ⟨e, listed, rfl⟩
  · exact .inl (by simp [keyColumns])
  · exact .inl (by simp [keyColumns])
  · obtain ⟨s, declared, same, -⟩ := (principalScope_ok resolved).2 v given
    refine .inl ?_
    simp only [keyColumns, List.mem_cons, List.mem_map, Option.mem_toList]
    exact .inr (.inr ⟨s, declared, same⟩)
  · exact .inr (List.mem_map_of_mem listed)

theorem restoreAssignments_columns (job : CompensationJob) (m : InverseMember) :
    (restoreAssignments job m).map (·.column) =
      (m.restoreValues.getD .empty).keys ++ job.compensation.versionAdvance.toList.map (·.column) := by
  rw [restoreAssignments, List.map_append, patched_columns, advanced_columns]

/-- The columns that a descriptor restores in an UPDATE are allowed. -/
theorem restored_allowed {job : CompensationJob} {m : InverseMember} (operation : job.operation = .restoreUpdate)
    (checked : assertCompensationMember job m = .ok ()) :
    ∀ column ∈ (m.restoreValues.getD .empty).keys, column ∈ job.allowedColumns := by
  obtain ⟨_, -, checked⟩ := bind_eq_ok checked
  rw [operation] at checked
  obtain ⟨_, -, checked⟩ := bind_eq_ok checked
  obtain ⟨_, -, checked⟩ := bind_eq_ok checked
  obtain ⟨_, -, checked⟩ := bind_eq_ok checked
  simp only [throwIf_ok_iff, not_exists, not_and, not_not] at checked
  intro column member
  cases given : m.restoreValues with
  | none => simp [given] at member
  | some values =>
    rw [given, Option.getD_some] at member
    exact checked values given column member

/-- The columns of a restored row: those of the descriptor, and the key columns. -/
theorem mem_restoredRow_keys {job : CompensationJob} {m : InverseMember} {scope : Option ColumnValue}
    (resolved : principalScope job.target = .ok scope) {column : Column} :
    column ∈ (restoredRow job m scope).keys ↔
      column ∈ (m.restoreValues.getD .empty).keys ∨ column ∈ keyColumns job.target := by
  obtain ⟨forward, backward⟩ := principalScope_ok resolved
  have principal : column ∈ job.target.principalScope.toList.map (·.column) ↔ column ∈ scope.toList.map (·.column) := by
    simp only [List.mem_map, Option.mem_toList]
    constructor
    · rintro ⟨s, within, rfl⟩
      obtain ⟨v, given, same, -⟩ := forward s within
      exact ⟨v, given, same⟩
    · rintro ⟨v, given, rfl⟩
      obtain ⟨s, within, same, -⟩ := backward v given
      exact ⟨s, within, same⟩
  simp only [keyColumns, List.mem_cons, principal]
  cases scope with
  | none =>
    simp only [restoredRow, KeyedMap.mem_keys_set, Option.toList_none, List.map_nil, List.not_mem_nil, or_false]
    tauto
  | some v =>
    simp only [restoredRow, KeyedMap.mem_keys_set, Option.toList_some, List.map_cons, List.map_nil, List.mem_singleton]
    tauto

/-- A restored row is of the tenant and the principal of its job unless these are
    two values of one column. -/
theorem restoredRow_inScope_iff {job : CompensationJob} {m : InverseMember} {scope : Option ColumnValue}
    (resolved : principalScope job.target = .ok scope) :
    InScope job.target (fun column => ((restoredRow job m scope).get? column).getD .null) ↔
      ∀ s ∈ job.target.principalScope, s.column = job.target.tenantGuard.column →
        s.value = some job.target.tenantGuard.value := by
  obtain ⟨forward, backward⟩ := principalScope_ok resolved
  cases scope with
  | none =>
    have unscoped : ∀ s ∈ job.target.principalScope, False := by
      intro s within
      obtain ⟨v, absent, -⟩ := forward s within
      cases absent
    refine iff_of_true ⟨?_, fun s within => (unscoped s within).elim⟩ fun s within => (unscoped s within).elim
    simp [restoredRow]
  | some v =>
    obtain ⟨s, within, column, value⟩ := backward v rfl
    have only : ∀ s' ∈ job.target.principalScope, s' = s := fun s' within' => Option.mem_unique within' within
    constructor
    · intro whole s' within' same
      obtain rfl := only s' within'
      have tenant := whole.tenant
      rw [← same, column] at tenant
      simp only [restoredRow, KeyedMap.get?_set_self, Option.getD_some] at tenant
      rw [value, tenant]
    · intro apart
      refine ⟨?_, fun s' within' known given => ?_⟩
      · simp only [restoredRow]
        by_cases same : job.target.tenantGuard.column = v.column
        · have equal := apart s within (column.trans same.symm)
          rw [value] at equal
          rw [same, KeyedMap.get?_set_self, Option.getD_some]
          exact Option.some.inj equal
        · rw [KeyedMap.get?_set_of_ne _ _ same, KeyedMap.get?_set_self, Option.getD_some]
      · obtain rfl := only s' within'
        rw [value] at given
        cases given
        simp only [restoredRow, column, KeyedMap.get?_set_self, Option.getD_some]

theorem confined_restoreUpdate_iff {platform : Platform} {job : CompensationJob}
    (fields : compensationJobFields platform job = true) (integrity : CompensationIntegrity platform job)
    (operation : job.operation = .restoreUpdate) :
    (∀ s ∈ statements .postgres (.v4 job), Confined (.v4 job) s) ↔ Settled (.v4 job) := by
  simp only [compensationJobFields, Bool.and_eq_true, decide_eq_true_eq, inverseDescriptorV1Schema] at fields
  obtain ⟨⟨⟨⟨header, -⟩, -⟩, -⟩, descriptor, issues⟩ := fields
  obtain ⟨schema, table, keys, allowed⟩ := safeHeader_of_fields header
  simp only [inverseDescriptorFields, Bool.and_eq_true] at descriptor
  obtain ⟨⟨⟨⟨⟨-, advance⟩, -⟩, -⟩, -⟩, -⟩ := descriptor
  have columns : ∀ m ∈ job.compensation.members, ∀ column ∈ (restoreAssignments job m).map (·.column),
      column ∈ job.allowedColumns ∨ column ∈ suppliedColumns (.v4 job) := by
    intro m member column written
    rw [restoreAssignments_columns, List.mem_append] at written
    rcases written with restored | advanced
    · exact .inl (restored_allowed operation (integrity.members m member) column restored)
    · refine .inr ?_
      simp only [suppliedColumns, List.mem_append]
      exact .inr advanced
  constructor
  · intro confined m member scope resolved
    rw [operation]
    intro expected
    have safe : ∀ identifier ∈ (Statement.update (targetTable job.target) (restoreAssignments job m)
        (compensationConditions .postgres job m scope)).identifiers, safeIdentifier identifier = true := by
      intro identifier named
      simp only [Statement.identifiers, restoreAssignments_columns, targetTable, List.mem_append, List.mem_cons] at named
      rcases named with (rfl | rfl | restored | version) | asked
      · exact schema
      · exact table
      · exact allowed _ (restored_allowed operation (integrity.members m member) identifier restored)
      · cases known : job.compensation.versionAdvance with
        | none => simp [known] at version
        | some v =>
          obtain rfl : identifier = v.column := by simpa [known] using version
          simpa [known] using advance
      · rcases compensationConditions_columns resolved m identifier asked with key | state
        · exact keys _ key
        · exact expected _ state
    have built : buildCompensation .postgres job m = .ok (.update (targetTable job.target) (restoreAssignments job m)
        (compensationConditions .postgres job m scope)) := by
      unfold buildCompensation
      rw [resolved, operation]
      exact quoted_ok_iff.mpr ⟨rfl, safe⟩
    exact (confined_update_iff (.v4 job) (guards_compensationConditions resolved m)
      (conditioned_compensationConditions resolved m) (columns m member)).mp
        (confined _ (mem_filterMap_toOption.mpr ⟨m, member, built⟩))
  · intro settled s listed
    obtain ⟨m, member, built⟩ := mem_filterMap_toOption.mp listed
    obtain ⟨scope, resolved, built⟩ := bind_eq_ok built
    rw [operation] at built
    obtain ⟨rfl, safe⟩ := quoted_ok_iff.mp built
    refine (confined_update_iff (.v4 job) (guards_compensationConditions resolved m)
      (conditioned_compensationConditions resolved m) (columns m member)).mpr ?_
    have keeps := settled m member scope resolved
    rw [operation] at keeps
    refine keeps fun column state => safe column ?_
    simp only [Statement.identifiers, List.mem_append, List.mem_map]
    obtain ⟨value, found⟩ := KeyedMap.mem_keys.mp state
    refine .inr ⟨.notDistinct column value, ?_, rfl⟩
    simp only [compensationConditions, List.mem_append, List.mem_map]
    exact .inr ⟨(column, value), KeyedMap.get?_eq_some.mp found, rfl⟩

theorem confined_restoreInsert_iff {platform : Platform} {job : CompensationJob}
    (fields : compensationJobFields platform job = true) (integrity : CompensationIntegrity platform job)
    (operation : job.operation = .restoreInsert) :
    (∀ s ∈ statements .postgres (.v4 job), Confined (.v4 job) s) ↔ Settled (.v4 job) := by
  simp only [compensationJobFields, Bool.and_eq_true, decide_eq_true_eq, inverseDescriptorV1Schema] at fields
  obtain ⟨⟨⟨⟨header, -⟩, -⟩, -⟩, descriptor, issues⟩ := fields
  obtain ⟨schema, table, keys, allowed⟩ := safeHeader_of_fields header
  have unversioned : job.compensation.versionAdvance = none := by
    simp only [inverseDescriptorIssues, List.isEmpty_iff, List.append_eq_nil_iff, issueIf_eq_nil] at issues
    have advance := issues.1.1.2
    simpa [integrity.operation, operation] using advance
  have supplied : ∀ column, column ∈ suppliedColumns (.v4 job) ↔ column ∈ keyColumns job.target := by
    intro column
    simp [suppliedColumns, unversioned]
  have inserted : ∀ m scope, principalScope job.target = .ok scope →
      (Confined (.v4 job) (.insert (targetTable job.target) (restoredRow job m scope)) ↔
        (∀ column ∈ (m.restoreValues.getD .empty).keys,
          column ∈ job.allowedColumns ∨ column ∈ keyColumns job.target) ∧
        ∀ s ∈ job.target.principalScope, s.column = job.target.tenantGuard.column →
          s.value = some job.target.tenantGuard.value) := by
    intro m scope resolved
    rw [confined_insert_iff (.v4 job)]
    · refine and_congr ?_ (restoredRow_inScope_iff resolved)
      simp only [mem_restoredRow_keys resolved, supplied]
      constructor
      · intro all column member
        exact all column (.inl member)
      · rintro all column (restored | key)
        · exact all column restored
        · exact .inr key
    · exact (mem_restoredRow_keys resolved).mpr (.inr (by simp [keyColumns, WritebackJob.target, WritebackJob.header]))
    · intro s within value known
      refine (mem_restoredRow_keys resolved).mpr (.inr ?_)
      simp only [keyColumns, List.mem_cons, List.mem_map, Option.mem_toList]
      exact .inr (.inr ⟨s, within, rfl⟩)
  constructor
  · intro confined m member scope resolved
    rw [operation]
    intro restored
    have safe : ∀ identifier ∈ (Statement.insert (targetTable job.target) (restoredRow job m scope)).identifiers,
        safeIdentifier identifier = true := by
      intro identifier named
      simp only [Statement.identifiers, targetTable, List.mem_cons, mem_restoredRow_keys resolved] at named
      rcases named with rfl | rfl | given | key
      · exact schema
      · exact table
      · exact restored _ given
      · exact keys _ key
    have built : buildCompensation .postgres job m =
        .ok (.insert (targetTable job.target) (restoredRow job m scope)) := by
      unfold buildCompensation
      rw [resolved, operation]
      exact quoted_ok_iff.mpr ⟨rfl, safe⟩
    exact (inserted m scope resolved).mp (confined _ (mem_filterMap_toOption.mpr ⟨m, member, built⟩))
  · intro settled s listed
    obtain ⟨m, member, built⟩ := mem_filterMap_toOption.mp listed
    obtain ⟨scope, resolved, built⟩ := bind_eq_ok built
    rw [operation] at built
    obtain ⟨rfl, safe⟩ := quoted_ok_iff.mp built
    have restores := settled m member scope resolved
    rw [operation] at restores
    refine (inserted m scope resolved).mpr (restores fun column given => safe column ?_)
    simp only [Statement.identifiers, List.mem_cons, mem_restoredRow_keys resolved]
    exact .inr (.inr (.inl given))

theorem confined_compensation_iff {platform : Platform} {job : CompensationJob}
    (fields : compensationJobFields platform job = true) (integrity : CompensationIntegrity platform job) :
    (∀ s ∈ statements .postgres (.v4 job), Confined (.v4 job) s) ↔ Settled (.v4 job) := by
  cases operation : job.operation with
  | restoreUpdate => exact confined_restoreUpdate_iff fields integrity operation
  | removeInsert =>
    refine iff_of_true (fun s listed => ?_) ?_
    · obtain ⟨m, member, built⟩ := mem_filterMap_toOption.mp listed
      obtain ⟨scope, resolved, built⟩ := bind_eq_ok built
      rw [operation] at built
      obtain ⟨rfl, -⟩ := quoted_ok_iff.mp built
      exact confined_delete (.v4 job) (guards_compensationConditions resolved m)
    · intro m member scope resolved
      simp only [operation]
  | restoreInsert => exact confined_restoreInsert_iff fields integrity operation

/-! ### All jobs -/

/-- The restoration of one column of ticket 7 of tenant `acme`, which is at version 3. -/
def restoreTicket (column : Column) (value : Scalar) : CompensationJob :=
  let removal := removeTicket none
  { removal with
    operation := .restoreUpdate
    allowedColumns := [column]
    compensation := { removal.compensation with
      operation := .restoreUpdate
      allowedColumns := [column]
      members := [⟨⟨"id", .str "7"⟩, .ofList [("version", .num 3)], some (.ofList [(column, value)])⟩]
      versionAdvance := some ⟨"version", .integerIncrement⟩ } }

end SynapsorRunner.Confinement
