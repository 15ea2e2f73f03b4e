import SynapsorRunner.Confinement
import SynapsorRunner.SourceReceipts
import SynapsorRunner.TableAnswers

/-!
Mutations are all or nothing. While the adapter decides whether to refuse a job it
only reads. When it reports the job as applied, each reviewed row of the job has
been changed as reviewed, at a place of its own, and nothing else has changed
(`returnsIn_mutate`). What was reviewed of a row is compared by `versionValuesMatch`,
whatever that takes for equal, except where a statement compares it itself.
-/
namespace SynapsorRunner.AllOrNothing
open SynapsorRunner.Protocol SynapsorRunner.Proposals SynapsorRunner.Compensation SynapsorRunner.Adapters
open SynapsorRunner.Programs SynapsorRunner.Programs.Program SynapsorRunner.Tables SynapsorRunner.Confinement

/-! ### Changes at places -/

section
variable {β : Type} {post : β → Option TableRow → Option TableRow → Prop}

/-- The members change a place each, as `post` says, and nothing else changes. -/
def Exactly (post : β → Option TableRow → Option TableRow → Prop) (members : List β) (table table' : Table) : Prop :=
  ∃ place : β → Nat, (∀ a ∈ members, ∀ b ∈ members, place a = place b → a = b) ∧
    (∀ m ∈ members, post m (table (place m)) (table' (place m))) ∧
    ∀ p, (∀ m ∈ members, place m ≠ p) → table' p = table p

theorem exactly_nil (table : Table) : Exactly post [] table table :=
  ⟨fun _ => 0, by simp, by simp, fun _ _ => rfl⟩

/-- A place that no member can have had is as it was. -/
theorem Exactly.untouched {members : List β} {table between : Table} (whole : Exactly post members table between) {p : Nat}
    (apart : ∀ m ∈ members, ¬ post m (table p) (between p)) : between p = table p := by
  obtain ⟨place, -, changed, kept⟩ := whole
  refine kept p fun m member same => apart m member ?_
  rw [← same]
  exact changed m member

/-- One more member, at a place that no earlier one can have had. -/
theorem Exactly.snoc {members : List β} {table between table' : Table} (whole : Exactly post members table between) {m : β}
    (fresh : m ∉ members) {p : Nat} (apart : ∀ m' ∈ members, ¬ post m' (table p) (between p))
    (here : post m (table p) (table' p)) (others : ∀ p', p' ≠ p → table' p' = between p') :
    Exactly post (members ++ [m]) table table' := by
  classical
  obtain ⟨place, distinct, changed, kept⟩ := whole
  have elsewhere : ∀ m' ∈ members, place m' ≠ p := by
    rintro m' member rfl
    exact apart m' member (changed m' member)
  have old : ∀ m' ∈ members, Function.update place m p m' = place m' := by
    intro m' member
    refine Function.update_of_ne ?_ ..
    rintro rfl
    exact fresh member
  refine ⟨Function.update place m p, ?_, ?_, ?_⟩
  · intro a memberA b memberB same
    rcases List.mem_append.mp memberA with oldA | newA <;> rcases List.mem_append.mp memberB with oldB | newB
    · rw [old a oldA, old b oldB] at same
      exact distinct a oldA b oldB same
    · obtain rfl := List.mem_singleton.mp newB
      rw [old a oldA, Function.update_self] at same
      exact absurd same (elsewhere a oldA)
    · obtain rfl := List.mem_singleton.mp newA
      rw [old b oldB, Function.update_self] at same
      exact absurd same.symm (elsewhere b oldB)
    · rw [List.mem_singleton.mp newA, List.mem_singleton.mp newB]
  · intro m' member
    rcases List.mem_append.mp member with oldM | newM
    · rw [old m' oldM, others _ (elsewhere m' oldM)]
      exact changed m' oldM
    · obtain rfl := List.mem_singleton.mp newM
      rw [Function.update_self]
      exact here
  · intro p' avoided
    have away : p' ≠ p := by
      rintro rfl
      refine avoided m (by simp) ?_
      rw [Function.update_self]
    rw [others p' away]
    refine kept p' fun m' member => ?_
    rw [← old m' member]
    exact avoided m' (List.mem_append.mpr (.inl member))

theorem exactly_one {table table' : Table} {m : β} {p : Nat} (here : post m (table p) (table' p))
    (others : ∀ p', p' ≠ p → table' p' = table p') : Exactly post [m] table table' :=
  (exactly_nil table).snoc (by simp) (by simp) here others

end

/-! ### What was reviewed -/

/-- The values of a row match those that were reviewed. -/
def Matched (rt : SourceRuntime) (row : TableRow) (reviewed : List (Column × Scalar)) : Prop :=
  ∀ e ∈ reviewed, ∃ value, scalar value = row e.1 ∧ rt.versionValuesMatch value e.2 = true

/-- The patch, and the version one further. -/
def afterImage (patch : Record) (version : Option Column) (row : TableRow) : TableRow := fun column =>
  if version = some column then nextVersion (some (row column)) else (patch.get? column).getD (row column)

theorem afterImage_version (patch : Record) (column : Column) (row : TableRow) :
    afterImage patch (some column) row column = nextVersion (some (row column)) := if_pos rfl

theorem afterImage_kept {patch : Record} {version : Option Column} {row : TableRow} {column : Column}
    (other : version ≠ some column) (unpatched : column ∉ patch.keys) : afterImage patch version row column = row column := by
  unfold afterImage
  rw [if_neg other, KeyedMap.get?_eq_none.mpr unpatched]
  rfl

/-- An UPDATE by a patch and a version makes a row its after image. -/
theorem assign_patched {patch : Record} {version : Option Column} {row : TableRow}
    (assignable : Assignable (patched patch ++ version.toList.map .increment) row) :
    assign (patched patch ++ version.toList.map .increment) row = afterImage patch version row := by
  funext column
  unfold afterImage
  by_cases advanced : version = some column
  · have member : Assignment.increment column ∈ patched patch ++ version.toList.map .increment := by
      simp [advanced]
    have whole := assign_of_mem assignable member
    have valued := assignable.2 _ member
    rw [if_pos advanced]
    simp only [Assignment.column, newValue] at whole valued
    cases value : row column with
    | null =>
      rw [value] at whole
      exact Option.some.inj whole
    | num n =>
      rw [value] at whole
      exact Option.some.inj whole
    | bool b => simp [value] at valued
    | str s => simp [value] at valued
  rw [if_neg advanced]
  cases known : patch.get? column with
  | some value =>
    have member : Assignment.value column value ∈ patched patch ++ version.toList.map .increment := by
      simp only [patched, List.mem_append, List.mem_map]
      exact .inl ⟨(column, value), KeyedMap.get?_eq_some.mp known, rfl⟩
    exact Option.some.inj (assign_of_mem assignable member)
  | none =>
    refine assign_of_not_mem ?_
    rw [List.map_append, patched_columns, List.mem_append, not_or]
    refine ⟨KeyedMap.get?_eq_none.mp known, ?_⟩
    simpa [Function.comp_def, Assignment.column] using advanced

/-! ### Answers -/

section
variable {rt : SourceRuntime} {target : JobTarget} {generated : Column → Prop} {table : Table} {α : Type}

@[simp] theorem returnsIn_required {x : Except String α} {R : α → Table → Prop} :
    (required x).ReturnsIn (TableStep target generated) R table ↔ ∀ a, x = .ok a → R a table := by
  cases x with
  | error e => simp [required, Except.mapError]
  | ok a => simp [required, Except.mapError]

/-- Reads keep the table. -/
theorem returnsIn_reads {p : Adapter α} (calls : p.Calls SourceCall.Reads) (target : JobTarget)
    (generated : Column → Prop) (table : Table) :
    p.ReturnsIn (TableStep target generated) (fun _ table' => table' = table) table :=
  calls.returnsIn_keeps (fun _ _ _ reads stepped => TableStep.of_reads stepped reads) table

theorem returnsIn_select {query : Select} (own : query.table = targetTable target) :
    (select .postgres query).ReturnsIn (TableStep target generated) (fun rows table' => table' = table ∧ Answers query table rows)
      table := by
  unfold select send
  simp only [returnsIn_bind, returnsIn_required, returnsIn_ask]
  rintro _ _ rows table' ⟨rfl, answers⟩
  exact ⟨rfl, answers own⟩

/-- A row of an answer is one of the table. -/
theorem answers_mem {query : Select} {rows : List DbRow} (answers : Answers query table rows) {answer : DbRow}
    (member : answer ∈ rows) : ∃ place row, table place = some row ∧ Selected query row ∧ Shows query row answer := by
  obtain ⟨all, places, listed, first, -, -, shown⟩ := answers
  obtain ⟨place, inside, row, found, display⟩ : ∃ place ∈ places, ∃ row, table place = some row ∧ Shows query row answer := by
    clear listed first
    induction shown with
    | nil => cases member
    | cons here _ ih =>
      rcases List.mem_cons.mp member with rfl | later
      · exact ⟨_, List.mem_cons_self .., here⟩
      · obtain ⟨place, inside, rest⟩ := ih later
        exact ⟨place, List.mem_cons_of_mem _ inside, rest⟩
  obtain ⟨row', found', asked⟩ := (listed.mem_iff place).mp (first.subset inside)
  rw [found] at found'
  cases found'
  exact ⟨place, row, found, asked, display⟩

end

/-! ### Row jobs -/

/-- The version column of a row job that advances by one. -/
def integerVersion : Option VersionAdvance → Option Column
  | some ⟨column, .integerIncrement⟩ => some column
  | _ => none

theorem incremented_eq (advance : Option VersionAdvance) :
    incremented advance = (integerVersion advance).toList.map .increment := by
  cases advance with
  | none => rfl
  | some v =>
    obtain ⟨column, strategy⟩ := v
    cases strategy <;> rfl

/-- The columns that the database sets by itself at an UPDATE of the job. -/
def rowGenerated (job : RowJob) (column : Column) : Prop :=
  ∃ v ∈ job.versionAdvance, v.strategy = .databaseGenerated ∧ v.column = column

/-- The reviewed values of a row beside its version. -/
def reviewedValues (job : RowJob) : List (Column × Scalar) :=
  (reviewedBefore job).entries.filter fun e => (guardColumns job.conflictGuard).all fun g => g.1 ≠ e.1

/-- The row that a row job was reviewed for. -/
structure RowReviewed (rt : SourceRuntime) (job : RowJob) (row : TableRow) : Prop where
  key : job.target.primaryKey.value = some (row job.target.primaryKey.column)
  inScope : InScope job.target row
  version : ∃ column, job.conflictGuard = .versionColumn column (row column)
  matched : Matched rt row (reviewedValues job)

/-- What becomes of the place of an applied row job. -/
def RowDone (rt : SourceRuntime) (job : RowJob) (before after : Option TableRow) : Prop :=
  match job.operation with
  | .update => ∃ row row', before = some row ∧ RowReviewed rt job row ∧ after = some row' ∧
      ∀ column, column ∈ job.patch.keys ∨ ¬ rowGenerated job column →
        row' column = afterImage job.patch (integerVersion job.versionAdvance) row column
  | .insert => before = none ∧ ∃ row values, after = some row ∧ insertValues job = .ok values ∧
      ∀ e ∈ values.entries, row e.1 = e.2
  | .delete => ∃ row, before = some row ∧ RowReviewed rt job row ∧ after = none

section
variable {rt : SourceRuntime} {job : RowJob} {table : Table}

/-- The locked row: under the key and the scope of the job, and as reviewed. -/
def RowLocked (rt : SourceRuntime) (job : RowJob) (table : Table) : Prop :=
  ∃ place row, table place = some row ∧ job.target.primaryKey.value = some (row job.target.primaryKey.column) ∧
    InScope job.target row ∧ Matched rt row (reviewedValues job)

theorem returnsIn_lockTargetRow {generated : Column → Prop} :
    (lockTargetRow .postgres job).ReturnsIn (TableStep job.target generated) (fun found table' => table' = table ∧
      ∀ answer ∈ found, ∃ place row, table place = some row ∧
        job.target.primaryKey.value = some (row job.target.primaryKey.column) ∧ InScope job.target row ∧
        ∀ e ∈ reviewedValues job, scalar (answer.get? e.1) = row e.1) table := by
  unfold lockTargetRow
  split
  · exact ⟨rfl, by simp⟩
  rename_i primaryKey key
  simp only [returnsIn_bind, returnsIn_required]
  intro scope resolved
  refine (returnsIn_select rfl).mono ?_
  rintro rows table' ⟨rfl, answers⟩
  refine ⟨rfl, fun answer first => ?_⟩
  obtain ⟨place, row, found, ⟨met, -⟩, shown⟩ := answers_mem answers (List.mem_of_mem_head? first)
  refine ⟨place, row, found, ?_, ?_, ?_⟩
  · have same := met.value (c := .equals job.target.primaryKey.column primaryKey) (by simp [rowConditions])
    rw [key]
    exact congrArg some same.symm
  · have guards := guards_rowConditions resolved primaryKey []
    rw [List.append_nil] at guards
    exact guards.inScope met
  · intro e member
    refine shown (underOwnName e.1) ?_ rfl
    simp only [reviewedValues, List.mem_filter] at member
    simp only [List.mem_append, List.mem_cons, List.mem_map, List.mem_filter]
    exact .inr ⟨e.1, ⟨List.mem_map_of_mem member.1, member.2⟩, rfl⟩

theorem rowConflict_none {engine : Engine} {found : Option DbRow} (free : rowConflict rt engine job found = none) :
    ∃ answer, found = some answer ∧ rowMatches rt answer (reviewedBefore job) = true := by
  unfold rowConflict at free
  cases found with
  | none => cases free
  | some answer =>
    refine ⟨answer, rfl, ?_⟩
    simp only at free
    split at free
    · cases free
    · split at free
      · assumption
      · cases free

theorem rowLocked_of_found {found : Option DbRow} (free : rowConflict rt .postgres job found = none)
    (listed : ∀ answer ∈ found, ∃ place row, table place = some row ∧
      job.target.primaryKey.value = some (row job.target.primaryKey.column) ∧ InScope job.target row ∧
      ∀ e ∈ reviewedValues job, scalar (answer.get? e.1) = row e.1) : RowLocked rt job table := by
  obtain ⟨answer, rfl, same⟩ := rowConflict_none free
  obtain ⟨place, row, here, key, scope, shown⟩ := listed answer rfl
  refine ⟨place, row, here, key, scope, fun e member => ⟨answer.get? e.1, shown e member, ?_⟩⟩
  exact List.all_eq_true.mp same e (List.mem_of_mem_filter member)

theorem returnsIn_rowRefusal {generated : Column → Prop} :
    (rowRefusal rt .postgres job).ReturnsIn (TableStep job.target generated)
      (fun refused table' => table' = table ∧ (refused = none → job.operation ≠ .insert → RowLocked rt job table)) table := by
  have reads := returnsIn_reads (calls_rowRefusal rt .postgres job) job.target generated table
  unfold rowRefusal
  unfold rowRefusal at reads
  cases operation : job.operation with
  | insert =>
    rw [operation] at reads
    exact reads.mono fun refused table' same => ⟨same, fun _ other => absurd rfl other⟩
  | update =>
    simp only [returnsIn_bind, returnsIn_pure]
    refine returnsIn_lockTargetRow.mono ?_
    rintro found table' ⟨rfl, listed⟩
    exact ⟨rfl, fun free _ => rowLocked_of_found free listed⟩
  | delete =>
    simp only [returnsIn_bind]
    refine returnsIn_lockTargetRow.mono ?_
    rintro found table' ⟨rfl, listed⟩
    cases free : rowConflict rt .postgres job found with
    | some conflict => exact ⟨rfl, by simp⟩
    | none =>
      simp only [returnsIn_bind, returnsIn_pure]
      have quiet := returnsIn_reads (calls_deleteSafetyCode .postgres (targetTable job.target)) job.target generated table'
      exact quiet.mono fun code table'' same => ⟨same, fun _ _ => rowLocked_of_found free listed⟩

/-- The row that a statement under the guards of a row job touches is the locked one. -/
theorem rowReviewed_of_locked (keyed : Keyed job.target table) (locked : RowLocked rt job table) {guard : ColumnValue}
    (guarded : job.conflictGuard = .versionColumn guard.column guard.value) {primaryKey : Scalar}
    (key : job.target.primaryKey.value = some primaryKey) {scope : Option ColumnValue}
    (resolved : principalScope job.target = .ok scope) {place : Nat} {row : TableRow} (found : table place = some row)
    (met : Matches (rowConditions .equals job.target primaryKey scope ++ [.equals guard.column guard.value]) row) :
    RowReviewed rt job row := by
  have keyValue := met.value (c := .equals job.target.primaryKey.column primaryKey) (by simp [rowConditions])
  have version := met.value (c := .equals guard.column guard.value) (by simp)
  have inScope := (guards_rowConditions resolved primaryKey [.equals guard.column guard.value]).inScope met
  obtain ⟨place', row', found', key', inScope', matched⟩ := locked
  have same : place' = place := by
    refine keyed place' place row' row found' found (inScope'.tenant.trans inScope.tenant.symm) ?_
    rw [key] at key'
    exact (Option.some.inj key').symm.trans keyValue.symm
  subst same
  rw [found] at found'
  cases found'
  refine ⟨key', inScope, ⟨guard.column, ?_⟩, matched⟩
  rw [guarded]
  exact congrArg _ version.symm

theorem rowDone_update (keyed : Keyed job.target table) (locked : RowLocked rt job table) (operation : job.operation = .update)
    {s : Statement} (built : buildUpdate .postgres job = .ok s) {table' : Table}
    (effect : Effect (rowGenerated job) s table table') (one : Counts s table 1) : Exactly (RowDone rt) [job] table table' := by
  obtain ⟨guard, primaryKey, scope, guarded, key, resolved, -, rfl⟩ := buildUpdate_ok built
  obtain ⟨place, row, row', found, met, after, ⟨assignable, updated⟩, others⟩ := effect_update_one effect one
  refine exactly_one (p := place) ?_ others
  have reviewed := rowReviewed_of_locked keyed locked ((guard_iff guarded guard).mpr rfl) key resolved found met
  unfold RowDone
  rw [operation]
  refine ⟨row, row', found, reviewed, after, fun column named => ?_⟩
  rw [incremented_eq] at assignable updated
  rw [← assign_patched assignable]
  refine updated column (named.imp (fun patch => ?_) id)
  rw [List.map_append, patched_columns]
  exact List.mem_append_left _ patch

theorem rowDone_delete (keyed : Keyed job.target table) (locked : RowLocked rt job table) (operation : job.operation = .delete)
    {s : Statement} (built : buildDelete .postgres job = .ok s) {table' : Table}
    (effect : Effect (rowGenerated job) s table table') (one : Counts s table 1) : Exactly (RowDone rt) [job] table table' := by
  obtain ⟨guard, primaryKey, scope, guarded, key, resolved, rfl⟩ := buildDelete_ok built
  obtain ⟨place, row, found, met, after, others⟩ := effect_delete_one effect one
  refine exactly_one (p := place) ?_ others
  unfold RowDone
  rw [operation]
  exact ⟨row, found, rowReviewed_of_locked keyed locked guarded key resolved found met, after⟩

theorem rowDone_insert (operation : job.operation = .insert) {s : Statement} (built : buildInsert .postgres job = .ok s)
    {table' : Table} (effect : Effect (rowGenerated job) s table table') : Exactly (RowDone rt) [job] table table' := by
  obtain ⟨_, -, rest⟩ := bind_eq_ok built
  obtain ⟨_, -, rest⟩ := bind_eq_ok rest
  obtain ⟨values, inserted, rest⟩ := bind_eq_ok rest
  obtain ⟨rfl, -⟩ := quoted_ok_iff.mp rest
  obtain ⟨place, row, free, given, rfl⟩ := effect
  refine exactly_one (p := place) ?_ fun p apart => Function.update_of_ne apart ..
  unfold RowDone
  rw [operation, Function.update_self]
  exact ⟨free, row, values, rfl, inserted, given⟩

theorem returnsIn_writeRow (keyed : Keyed job.target table) (locked : job.operation ≠ .insert → RowLocked rt job table) :
    (writeRow rt .postgres job).ReturnsIn (TableStep job.target (rowGenerated job))
      (fun _ table' => Exactly (RowDone rt) [job] table table') table := by
  unfold writeRow send
  simp only [returnsIn_bind, returnsIn_required, returnsIn_ask, returnsIn_pure, throwIf_ok_iff, not_not]
  rintro s built affected table' ⟨effect, -, counts⟩ _ one
  refine (returnsIn_reads (calls_writtenVersion .postgres job affected) job.target _ table').mono ?_
  rintro version table'' rfl _ _ inserted _
  rw [one] at counts
  unfold buildRow at built
  cases operation : job.operation with
  | update =>
    rw [operation] at built
    exact rowDone_update keyed (locked (by simp [operation])) operation built effect counts
  | insert =>
    rw [operation] at built
    exact rowDone_insert operation built effect
  | delete =>
    rw [operation] at built
    exact rowDone_delete keyed (locked (by simp [operation])) operation built effect counts

end

/-! ### Members -/

/-- The row that a member was reviewed as. -/
structure MemberReviewed (rt : SourceRuntime) (target : JobTarget) (primaryKey : Scalar) (reviewed : Record)
    (row : TableRow) : Prop where
  key : row target.primaryKey.column = primaryKey
  inScope : InScope target row
  matched : Matched rt row reviewed.entries

section
variable {rt : SourceRuntime} {target : JobTarget} {table : Table} {β : Type} {post : β → Option TableRow → Option TableRow → Prop}

/-- The rows of the members are there as reviewed. -/
def Locked (rt : SourceRuntime) (target : JobTarget) (members : List (Scalar × Record)) (table : Table) : Prop :=
  ∀ m ∈ members, ∃ place row, table place = some row ∧ MemberReviewed rt target m.1 m.2 row

/-- A row under the key of a member is the one that was locked for it, which no
    earlier member has touched. -/
theorem place_of_locked {first : List β} {between : Table} (whole : Exactly post first table between)
    (keyed : Keyed target between) {p q : Nat} {row row' : TableRow} (locked : table p = some row)
    (apart : ∀ m ∈ first, ¬ post m (some row) (between p)) (found : between q = some row')
    (tenant : row' target.tenantGuard.column = row target.tenantGuard.column)
    (key : row' target.primaryKey.column = row target.primaryKey.column) : q = p ∧ row' = row := by
  have same : between p = some row := by
    rw [whole.untouched (p := p) fun m member => by rw [locked]; exact apart m member, locked]
  obtain rfl := keyed q p row' row found same tenant key
  rw [found] at same
  exact ⟨rfl, Option.some.inj same⟩

/-- The same, from the guards of a statement. -/
theorem place_of_guarded {first : List β} {between : Table} (whole : Exactly post first table between)
    (keyed : Keyed target between) {primaryKey : Scalar} {reviewed : Record}
    (locked : ∃ place row, table place = some row ∧ MemberReviewed rt target primaryKey reviewed row)
    (apart : ∀ m ∈ first, ∀ row after, post m (some row) after → row target.primaryKey.column ≠ primaryKey) {q : Nat}
    {row : TableRow} (found : between q = some row) (tenant : row target.tenantGuard.column = target.tenantGuard.value)
    (key : row target.primaryKey.column = primaryKey) :
    table q = some row ∧ MemberReviewed rt target primaryKey reviewed row ∧ ∀ m ∈ first, ¬ post m (table q) (between q) := by
  obtain ⟨p, own, here, seen⟩ := locked
  have other : ∀ m ∈ first, ∀ after, ¬ post m (some own) after := fun m member after changed =>
    apart m member own after changed seen.key
  obtain ⟨rfl, rfl⟩ := place_of_locked whole keyed here (fun m member => other m member _) found
    (tenant.trans seen.inScope.tenant.symm) (key.trans seen.key.symm)
  refine ⟨here, seen, fun m member => ?_⟩
  rw [here]
  exact other m member _

/-- The conditions under which the rows of members are locked. -/
theorem guards_lock {scope : Option ColumnValue} (resolved : principalScope target = .ok scope) :
    Guards target (.equals target.tenantGuard.column target.tenantGuard.value :: scopeConditions .equals scope) := by
  refine ⟨⟨_, List.mem_cons_self .., rfl, rfl⟩, fun s within => ?_⟩
  obtain ⟨v, given, column, value⟩ := (principalScope_ok resolved).1 s within
  refine ⟨.equals v.column v.value, List.mem_cons_of_mem _ ?_, column, value⟩
  simp only [scopeConditions, List.mem_map, Option.mem_toList]
  exact ⟨v, given, rfl⟩

/-- A row that an answer has for a key is the row of the table with that key. -/
theorem reviewed_of_rowOf {query : Select} {rows : List DbRow} (answers : Answers query table rows)
    (guards : Guards target query.conditions) {primaryKey : Scalar} {reviewed : Record}
    (columns : ∀ column ∈ target.primaryKey.column :: reviewed.keys, underOwnName column ∈ query.columns)
    (found : (rowOf rows ⟨target.primaryKey.column, primaryKey⟩).any (fun row => rowMatches rt row reviewed) = true) :
    ∃ place row, table place = some row ∧ MemberReviewed rt target primaryKey reviewed row := by
  cases here : rowOf rows ⟨target.primaryKey.column, primaryKey⟩ with
  | none => simp [here] at found
  | some answer =>
    rw [here, Option.any_some] at found
    unfold rowOf at here
    have key : scalar (answer.get? target.primaryKey.column) = primaryKey := by simpa using List.find?_some here
    obtain ⟨place, row, listed, ⟨met, -⟩, shown⟩ :=
      answers_mem answers (List.mem_reverse.mp (List.mem_of_find?_eq_some here))
    refine ⟨place, row, listed, ?_, guards.inScope met, fun e member => ⟨answer.get? e.1, ?_, ?_⟩⟩
    · exact (shown (underOwnName target.primaryKey.column) (columns _ (List.mem_cons_self ..)) rfl).symm.trans key
    · exact shown (underOwnName e.1) (columns _ (List.mem_cons_of_mem _ (List.mem_map_of_mem member))) rfl
    · exact List.all_eq_true.mp found e member

end

/-! ### Set jobs -/

/-- Each column of a reviewed after image has its value in the row after, or was
    reviewed with it and is as before. -/
def ShowsAfter (m : FrozenSetMember) (row row' : TableRow) : Prop :=
  ∀ e ∈ m.after.entries, row' e.1 = e.2 ∨ row' e.1 = row e.1 ∧ m.before.get? e.1 = some e.2

/-- What becomes of the place of a member of an applied set job. -/
def SetDone (rt : SourceRuntime) (job : SetJob) (m : FrozenSetMember) (before after : Option TableRow) : Prop :=
  match job.operation with
  | .update => ∃ row row', before = some row ∧ MemberReviewed rt job.target m.primaryKey.value m.before row ∧
      (∀ v ∈ m.expectedVersion, row v.column = v.value) ∧ after = some row' ∧
      row' = afterImage job.patch (job.versionAdvance.map (·.column)) row ∧ ShowsAfter m row row'
  | .delete => ∃ row, before = some row ∧ MemberReviewed rt job.target m.primaryKey.value m.before row ∧
      (∀ v ∈ m.expectedVersion, row v.column = v.value) ∧ after = none
  | .batchInsert => before = none ∧ ∃ row, after = some row ∧ ∀ e ∈ m.after.entries, row e.1 = e.2

section
variable {rt : SourceRuntime} {job : SetJob} {table : Table}

/-- The rows that a set job was reviewed for. -/
def setMembers (job : SetJob) : List (Scalar × Record) :=
  job.frozenSet.members.map fun m => (m.primaryKey.value, m.before)

theorem returnsIn_lockFrozenMembers :
    (lockFrozenMembers rt .postgres job).ReturnsIn (TableStep job.target fun _ => False)
      (fun locked table' => table' = table ∧ (locked = true → Locked rt job.target (setMembers job) table)) table := by
  unfold lockFrozenMembers
  simp only [returnsIn_bind, returnsIn_required]
  intro scope resolved
  refine (returnsIn_select rfl).mono ?_
  rintro rows table' ⟨rfl, answers⟩
  refine ⟨rfl, fun locked => ?_⟩
  rw [Bool.and_eq_true, List.all_eq_true] at locked
  intro pair member
  obtain ⟨m, inside, rfl⟩ := List.mem_map.mp member
  refine reviewed_of_rowOf answers ?_ ?_ (locked.2 m inside)
  · exact guards_lock resolved
  · intro column named
    refine List.mem_map_of_mem (List.mem_dedup.mpr (List.mem_append.mpr (.inl ?_)))
    rcases List.mem_cons.mp named with rfl | shown
    · exact List.mem_cons_self ..
    · exact List.mem_cons_of_mem _ (List.mem_flatMap.mpr ⟨m, inside, shown⟩)

theorem returnsIn_setRefusal :
    (setRefusal rt .postgres job).ReturnsIn (TableStep job.target fun _ => False)
      (fun refused table' => table' = table ∧ (refused = none → validateSetJob .postgres rt.platform job = .ok () ∧
        (job.operation ≠ .batchInsert → Locked rt job.target (setMembers job) table))) table := by
  unfold setRefusal
  simp only [returnsIn_bind, returnsIn_required]
  rintro ⟨⟩ valid
  by_cases insert : job.operation = .batchInsert
  · rw [if_pos insert]
    have reads : (batchRefusal .postgres job).Calls SourceCall.Reads := by
      refine (calls_assertInsertDedupUniqueness ..).bind fun _ => Calls.findSome fun m _ => ?_
      exact (calls_existingRows ..).bind fun rows => calls_pure _
    exact (returnsIn_reads reads job.target _ table).mono fun refused table' same =>
      ⟨same, fun _ => ⟨valid, fun other => absurd insert other⟩⟩
  · rw [if_neg insert]
    simp only [returnsIn_bind]
    refine returnsIn_lockFrozenMembers.mono ?_
    rintro locked table' ⟨rfl, there⟩
    cases locked with
    | false => exact ⟨rfl, by simp⟩
    | true =>
      simp only [Bool.not_true, Bool.false_eq_true, ↓reduceIte]
      split
      · simp only [returnsIn_bind, returnsIn_pure]
        exact (returnsIn_reads (calls_deleteSafetyCode .postgres (targetTable job.target)) job.target _ table').mono
          fun code table'' same => ⟨same, fun _ => ⟨valid, fun _ => there rfl⟩⟩
      · exact ⟨rfl, fun _ => ⟨valid, fun _ => there rfl⟩⟩

theorem advanced_eq (advance : Option VersionAdvance) :
    (advance.toList.map fun v => Assignment.increment v.column) = (advance.map (·.column)).toList.map .increment := by
  cases advance <;> rfl

/-- The members of an accepted set: as many as its keys, all of them apart. -/
theorem members_apart {platform : Platform} (integrity : assertFrozenSetJobIntegrity platform job = .ok ())
    {first rest : List FrozenSetMember} {m : FrozenSetMember} (whole : job.frozenSet.members = first ++ m :: rest) :
    ∀ m' ∈ first, m'.primaryKey.value ≠ m.primaryKey.value := by
  obtain ⟨_, -, rest'⟩ := bind_eq_ok integrity
  obtain ⟨_, distinct, -⟩ := bind_eq_ok rest'
  rw [throwIf_ok_iff, not_not, FrozenSet.identities, whole, List.map_append, List.map_cons, List.nodup_append] at distinct
  intro m' member same
  exact distinct.2.2 _ (List.mem_map_of_mem member) _ (List.mem_cons_self ..) same

theorem setMember_checked {platform : Platform} (integrity : assertFrozenSetJobIntegrity platform job = .ok ())
    {m : FrozenSetMember} (member : m ∈ job.frozenSet.members) : assertSetMember platform job m = .ok () := by
  obtain ⟨_, -, rest⟩ := bind_eq_ok integrity
  obtain ⟨_, -, rest⟩ := bind_eq_ok rest
  obtain ⟨_, -, rest⟩ := bind_eq_ok rest
  obtain ⟨_, members, -⟩ := bind_eq_ok rest
  exact checkEach_ok_iff.mp members m member

theorem updateMember_after {platform : Platform} (integrity : assertFrozenSetJobIntegrity platform job = .ok ())
    (operation : job.operation = .update) {m : FrozenSetMember} (member : m ∈ job.frozenSet.members) :
    ∃ advance expected version, job.versionAdvance = some advance ∧ m.expectedVersion = some expected ∧
      expected.column = advance.column ∧ expected.value = .num version ∧
      ∀ e ∈ m.after.entries, (overlaid m.before job.patch advance.column (.num (version + 1))).get? e.1 = some e.2 := by
  obtain ⟨_, -, checked⟩ := bind_eq_ok (setMember_checked integrity member)
  simp only [operation, assertUpdateMember] at checked
  split at checked
  · rename_i advance expected advances expects
    obtain ⟨_, guard, checked⟩ := bind_eq_ok checked
    split at checked
    · rename_i version value
      obtain ⟨_, -, checked⟩ := bind_eq_ok checked
      obtain ⟨_, -, checked⟩ := bind_eq_ok checked
      obtain ⟨_, equal, -⟩ := bind_eq_ok checked
      simp only [throwIf_ok_iff, not_or, not_not] at guard equal
      refine ⟨advance, expected, version, advances, expects, guard.2, value, fun e listed => ?_⟩
      simp only [recordsEqual, Bool.and_eq_true, List.all_eq_true, decide_eq_true_eq] at equal
      rw [← equal.2 e.1 (List.mem_map_of_mem listed)]
      exact KeyedMap.get?_eq_some.mpr listed
    · cases checked
  · cases checked

/-- The row of a batch insert has its reviewed key. -/
theorem batchMember_key {platform : Platform} (integrity : assertFrozenSetJobIntegrity platform job = .ok ())
    (operation : job.operation = .batchInsert) {m : FrozenSetMember} (member : m ∈ job.frozenSet.members) :
    m.after.get? job.target.primaryKey.column = some m.primaryKey.value := by
  obtain ⟨_, -, checked⟩ := bind_eq_ok (setMember_checked integrity member)
  rw [operation] at checked
  obtain ⟨_, -, checked⟩ := bind_eq_ok checked
  obtain ⟨_, identity, -⟩ := bind_eq_ok checked
  simp only [throwIf_ok_iff, not_or, not_not] at identity
  exact identity.1

/-- The after image of a member is what the UPDATE makes of its row. -/
theorem showsAfter_of_update {platform : Platform} (integrity : assertFrozenSetJobIntegrity platform job = .ok ())
    (operation : job.operation = .update) {m : FrozenSetMember} (member : m ∈ job.frozenSet.members) {row : TableRow}
    (version : ∀ v ∈ m.expectedVersion, row v.column = v.value) :
    ShowsAfter m row (afterImage job.patch (job.versionAdvance.map (·.column)) row) := by
  obtain ⟨advance, expected, n, advances, expects, column, value, after⟩ := updateMember_after integrity operation member
  intro e listed
  have given := after e listed
  unfold overlaid at given
  unfold afterImage
  by_cases advanced : e.1 = advance.column
  · left
    rw [advanced, KeyedMap.get?_set_self] at given
    have here := version expected (by rw [expects]; rfl)
    rw [column, value] at here
    rw [if_pos (by rw [advances, advanced]; rfl), advanced, here]
    exact Option.some.inj given
  · rw [KeyedMap.get?_set_of_ne _ _ advanced, KeyedMap.get?_setAll_entries] at given
    have apart : ¬ job.versionAdvance.map (·.column) = some e.1 := by
      rw [advances]
      simpa using fun same => advanced (Eq.symm same)
    rw [if_neg apart]
    cases patch : job.patch.get? e.1 with
    | some v =>
      rw [patch] at given
      exact .inl (Option.some.inj given)
    | none =>
      rw [patch] at given
      exact .inr ⟨rfl, by simpa using given⟩

/-- A place that a member of an update or a delete has changed had the row of its key. -/
theorem setDone_found {m : FrozenSetMember} {before after : Option TableRow} (stays : job.operation ≠ .batchInsert)
    (done : SetDone rt job m before after) : ∃ row, before = some row ∧
      row job.target.tenantGuard.column = job.target.tenantGuard.value ∧
      row job.target.primaryKey.column = m.primaryKey.value := by
  unfold SetDone at done
  split at done
  · obtain ⟨row, _, found, reviewed, -⟩ := done
    exact ⟨row, found, reviewed.inScope.tenant, reviewed.key⟩
  · obtain ⟨row, found, reviewed, -⟩ := done
    exact ⟨row, found, reviewed.inScope.tenant, reviewed.key⟩
  · exact absurd ‹_› stays

/-- The row under the guards of a member is the one that was locked for it. -/
theorem memberPlace {platform : Platform} (integrity : assertFrozenSetJobIntegrity platform job = .ok ())
    (locked : Locked rt job.target (setMembers job) table) (stays : job.operation ≠ .batchInsert)
    {first rest : List FrozenSetMember} {m : FrozenSetMember} (whole : job.frozenSet.members = first ++ m :: rest)
    {between : Table} (keyed : Keyed job.target between) (done : Exactly (SetDone rt job) first table between) {q : Nat}
    {row : TableRow} (found : between q = some row) {scope : Option ColumnValue}
    (resolved : principalScope job.target = .ok scope) {more : List Condition}
    (met : Matches (rowConditions .equals job.target m.primaryKey.value scope ++ more) row) :
    table q = some row ∧ MemberReviewed rt job.target m.primaryKey.value m.before row ∧
      ∀ m' ∈ first, ¬ SetDone rt job m' (table q) (between q) := by
  have inside : m ∈ job.frozenSet.members := by simp [whole]
  have key := met.value (c := .equals job.target.primaryKey.column m.primaryKey.value) (by simp [rowConditions])
  have tenant := (guards_rowConditions resolved m.primaryKey.value more).inScope met |>.tenant
  refine place_of_guarded done keyed (locked (m.primaryKey.value, m.before) (List.mem_map_of_mem inside)) ?_ found tenant key
  intro m' member own after changed same
  obtain ⟨_, ⟨⟩, -, key'⟩ := setDone_found stays changed
  exact members_apart integrity whole m' member (key'.symm.trans same)

/-- The version condition of a member holds of the row that its statement touches. -/
theorem version_of_matches {m : FrozenSetMember} {conditions : List Condition} {row : TableRow}
    (met : Matches (conditions ++ m.expectedVersion.toList.map fun v => .equals v.column v.value) row) :
    ∀ v ∈ m.expectedVersion, row v.column = v.value := by
  intro v given
  refine met.value (c := .equals v.column v.value) (List.mem_append.mpr (.inr (List.mem_map.mpr ⟨v, ?_, rfl⟩)))
  simpa using given

theorem returnsIn_writeMember {platform : Platform} (integrity : assertFrozenSetJobIntegrity platform job = .ok ())
    (locked : job.operation ≠ .batchInsert → Locked rt job.target (setMembers job) table)
    {first rest : List FrozenSetMember} {m : FrozenSetMember} (whole : job.frozenSet.members = first ++ m :: rest)
    {between : Table} (keyed : Keyed job.target between) (done : Exactly (SetDone rt job) first table between) :
    (writeMember rt .postgres job m).ReturnsIn (TableStep job.target fun _ => False)
      (fun _ table' => Keyed job.target table' ∧ Exactly (SetDone rt job) (first ++ [m]) table table') between := by
  have fresh : m ∉ first := fun member => members_apart integrity whole m member rfl
  have inside : m ∈ job.frozenSet.members := by simp [whole]
  unfold writeMember send
  simp only [returnsIn_bind, returnsIn_required, returnsIn_ask, returnsIn_pure, throwIf_ok_iff, not_not]
  rintro s built affected table' ⟨effect, keyed', counts⟩ _ ⟨one, -⟩
  rw [one] at counts
  refine ⟨keyed', ?_⟩
  unfold buildMember at built
  cases operation : job.operation with
  | update =>
    simp only [operation] at built
    obtain ⟨scope, resolved, built⟩ := bind_eq_ok built
    obtain ⟨rfl, -⟩ := quoted_ok_iff.mp built
    obtain ⟨q, row, row', found, met, after, ⟨assignable, updated⟩, others⟩ := effect_update_one effect counts
    obtain ⟨before, reviewed, apart⟩ := memberPlace integrity (locked (by simp [operation])) (by simp [operation]) whole keyed
      done found resolved met
    refine done.snoc fresh apart ?_ others
    rw [advanced_eq] at assignable updated
    have same : row' = afterImage job.patch (job.versionAdvance.map (·.column)) row := by
      rw [← assign_patched assignable]
      exact funext fun column => updated column (.inr id)
    unfold SetDone
    rw [operation]
    have version := version_of_matches met
    exact ⟨row, row', before, reviewed, version, after, same, same ▸ showsAfter_of_update integrity operation inside version⟩
  | delete =>
    simp only [operation] at built
    obtain ⟨scope, resolved, built⟩ := bind_eq_ok built
    obtain ⟨rfl, -⟩ := quoted_ok_iff.mp built
    obtain ⟨q, row, found, met, after, others⟩ := effect_delete_one effect counts
    obtain ⟨before, reviewed, apart⟩ := memberPlace integrity (locked (by simp [operation])) (by simp [operation]) whole keyed
      done found resolved met
    refine done.snoc fresh apart ?_ others
    unfold SetDone
    rw [operation]
    exact ⟨row, before, reviewed, version_of_matches met, after⟩
  | batchInsert =>
    simp only [operation] at built
    obtain ⟨rfl, -⟩ := quoted_ok_iff.mp built
    obtain ⟨q, row, free, given, rfl⟩ := effect
    have apart : ∀ m' ∈ first, ¬ SetDone rt job m' (table q) (between q) := by
      intro m' _ changed
      unfold SetDone at changed
      rw [operation, free] at changed
      obtain ⟨_, _, ⟨⟩, -⟩ := changed
    refine done.snoc fresh apart ?_ fun p away => Function.update_of_ne away ..
    unfold SetDone
    rw [operation, Function.update_self, ← done.untouched apart]
    exact ⟨free, row, rfl, given⟩

theorem returnsIn_writeSet {platform : Platform} (keyed : Keyed job.target table)
    (integrity : assertFrozenSetJobIntegrity platform job = .ok ())
    (locked : job.operation ≠ .batchInsert → Locked rt job.target (setMembers job) table) :
    (writeSet rt .postgres job).ReturnsIn (TableStep job.target fun _ => False)
      (fun _ table' => Exactly (SetDone rt job) job.frozenSet.members table table') table := by
  unfold writeSet
  simp only [returnsIn_bind, returnsIn_pure]
  have walked := returnsIn_each (f := writeMember rt .postgres job) (l := job.frozenSet.members) (s := table)
    (I := fun first table' => Keyed job.target table' ∧ Exactly (SetDone rt job) first table table')
    (fun first m rest whole between inv => returnsIn_writeMember integrity locked whole inv.1 inv.2)
    ⟨keyed, exactly_nil table⟩
  exact walked.mono fun _ table' inv => inv.2

end

/-! ### Compensations -/

/-- The row that a member of a compensation takes back. -/
structure Expected (job : CompensationJob) (m : InverseMember) (row : TableRow) : Prop where
  key : row job.target.primaryKey.column = m.primaryKey.value
  inScope : InScope job.target row
  state : ∀ e ∈ m.expectedState.entries, row e.1 = e.2

/-- What becomes of the place of a member of an applied compensation. -/
def CompensationDone (job : CompensationJob) (m : InverseMember) (before after : Option TableRow) : Prop :=
  match job.operation with
  | .restoreUpdate => ∃ row row', before = some row ∧ Expected job m row ∧ after = some row' ∧
      row' = afterImage (m.restoreValues.getD .empty) (job.compensation.versionAdvance.map (·.column)) row
  | .removeInsert => ∃ row, before = some row ∧ Expected job m row ∧ after = none
  | .restoreInsert => before = none ∧ ∃ row scope, after = some row ∧ principalScope job.target = .ok scope ∧
      ∀ e ∈ (restoredRow job m scope).entries, row e.1 = e.2

section
variable {rt : SourceRuntime} {job : CompensationJob} {table : Table}

def compensationMembers (job : CompensationJob) : List (Scalar × Record) :=
  job.compensation.members.map fun m => (m.primaryKey.value, m.expectedState)

/-- A row that meets the conditions of a member is the expected one. -/
theorem expected_of_matches {m : InverseMember} {scope : Option ColumnValue} (resolved : principalScope job.target = .ok scope)
    {row : TableRow} (met : Matches (compensationConditions .postgres job m scope) row) : Expected job m row := by
  refine ⟨?_, (guards_compensationConditions resolved m).inScope met, fun e listed => ?_⟩
  · exact met.value (c := .equals job.target.primaryKey.column m.primaryKey.value)
      (by simp [compensationConditions, guardCondition])
  · refine met.value (c := .notDistinct e.1 e.2) ?_
    exact List.mem_append_right _ (List.mem_map_of_mem listed)

theorem returnsIn_lockCompensationMembers (rt : SourceRuntime) {generated : Column → Prop} :
    (lockCompensationMembers .postgres job).ReturnsIn (TableStep job.target generated) (fun rows table' => table' = table ∧
      (compensationConflict rt job rows = none → job.operation ≠ .restoreInsert →
        Locked rt job.target (compensationMembers job) table)) table := by
  unfold lockCompensationMembers
  simp only [returnsIn_bind, returnsIn_required]
  intro scope resolved
  refine (returnsIn_select rfl).mono ?_
  rintro rows table' ⟨rfl, answers⟩
  refine ⟨rfl, fun free stays => ?_⟩
  simp only [compensationConflict, stays, ↓reduceIte] at free
  split at free
  · cases free
  split at free
  · rename_i present
    rw [List.all_eq_true] at present
    intro pair member
    obtain ⟨m, inside, rfl⟩ := List.mem_map.mp member
    refine reviewed_of_rowOf answers ?_ ?_ (present m inside)
    · exact guards_lock resolved
    · intro column named
      refine List.mem_map_of_mem ?_
      simp only [compensationProjection, sortedColumns, List.mem_mergeSort, List.mem_dedup, List.mem_append, List.mem_flatMap]
      rcases List.mem_cons.mp named with rfl | shown
      · exact .inl (.inl (.inl (by simp)))
      · exact .inl (.inr ⟨m, inside, .inl shown⟩)
  · cases free

theorem returnsIn_compensationRefusal {generated : Column → Prop} :
    (compensationRefusal rt .postgres job).ReturnsIn (TableStep job.target generated)
      (fun refused table' => table' = table ∧ (refused = none → CompensationIntegrity rt.platform job ∧
        (job.operation ≠ .restoreInsert → Locked rt job.target (compensationMembers job) table))) table := by
  unfold compensationRefusal
  simp only [returnsIn_bind, returnsIn_required]
  rintro ⟨⟩ accepted
  have integrity := assertCompensationJobIntegrity_ok accepted
  refine (returnsIn_lockCompensationMembers rt).mono ?_
  rintro rows table' ⟨rfl, locked⟩
  cases free : compensationConflict rt job rows with
  | some code => exact ⟨rfl, by simp⟩
  | none =>
    simp only
    split
    · exact ⟨rfl, fun _ => ⟨integrity, locked free⟩⟩
    · simp only [returnsIn_bind, returnsIn_pure]
      exact (returnsIn_reads (calls_compensationSafetyCode ..) job.target _ table').mono
        fun code table'' same => ⟨same, fun _ => ⟨integrity, locked free⟩⟩

theorem inverseMembers_apart (integrity : CompensationIntegrity rt.platform job) {first rest : List InverseMember}
    {m : InverseMember} (whole : job.compensation.members = first ++ m :: rest) :
    ∀ m' ∈ first, m'.primaryKey.value ≠ m.primaryKey.value := by
  have distinct := integrity.identities
  rw [InverseDescriptor.identities, whole, List.map_append, List.map_cons, List.nodup_append] at distinct
  intro m' member same
  exact distinct.2.2 _ (List.mem_map_of_mem member) _ (List.mem_cons_self ..) same

theorem compensationDone_found {m : InverseMember} {before after : Option TableRow} (stays : job.operation ≠ .restoreInsert)
    (done : CompensationDone job m before after) : ∃ row, before = some row ∧
      row job.target.tenantGuard.column = job.target.tenantGuard.value ∧
      row job.target.primaryKey.column = m.primaryKey.value := by
  unfold CompensationDone at done
  split at done
  · obtain ⟨row, _, found, expected, -⟩ := done
    exact ⟨row, found, expected.inScope.tenant, expected.key⟩
  · obtain ⟨row, found, expected, -⟩ := done
    exact ⟨row, found, expected.inScope.tenant, expected.key⟩
  · exact absurd ‹_› stays

/-- The row that a member of a compensation names is the one that was locked for it. -/
theorem inverseMemberPlace (integrity : CompensationIntegrity rt.platform job)
    (locked : Locked rt job.target (compensationMembers job) table) (stays : job.operation ≠ .restoreInsert)
    {first rest : List InverseMember} {m : InverseMember} (whole : job.compensation.members = first ++ m :: rest)
    {between : Table} (keyed : Keyed job.target between) (done : Exactly (CompensationDone job) first table between) {q : Nat}
    {row : TableRow} (found : between q = some row) (expected : Expected job m row) :
    table q = some row ∧ ∀ m' ∈ first, ¬ CompensationDone job m' (table q) (between q) := by
  have inside : m ∈ job.compensation.members := by simp [whole]
  have reviewed := locked (m.primaryKey.value, m.expectedState) (List.mem_map_of_mem inside)
  have others : ∀ m' ∈ first, ∀ row after, CompensationDone job m' (some row) after →
      row job.target.primaryKey.column ≠ m.primaryKey.value := by
    intro m' member own after changed same
    obtain ⟨_, ⟨⟩, -, key⟩ := compensationDone_found stays changed
    exact inverseMembers_apart integrity whole m' member (key.symm.trans same)
  obtain ⟨before, -, apart⟩ := place_of_guarded done keyed reviewed others found expected.inScope.tenant expected.key
  exact ⟨before, apart⟩

theorem returnsIn_writeCompensationMember (integrity : CompensationIntegrity rt.platform job)
    (locked : job.operation ≠ .restoreInsert → Locked rt job.target (compensationMembers job) table)
    {first rest : List InverseMember} {m : InverseMember} (whole : job.compensation.members = first ++ m :: rest)
    {between : Table} (keyed : Keyed job.target between) (done : Exactly (CompensationDone job) first table between) :
    (writeCompensationMember rt .postgres job m).ReturnsIn (TableStep job.target fun _ => False)
      (fun _ table' => Keyed job.target table' ∧ Exactly (CompensationDone job) (first ++ [m]) table table') between := by
  have fresh : m ∉ first := fun member => inverseMembers_apart integrity whole m member rfl
  unfold writeCompensationMember send
  simp only [returnsIn_bind, returnsIn_required, returnsIn_ask, returnsIn_pure, throwIf_ok_iff, not_not]
  rintro s built affected table' ⟨effect, keyed', counts⟩ _ one scope resolved
  rw [one] at counts
  refine ⟨keyed', ?_⟩
  obtain ⟨scope', resolved', built⟩ := bind_eq_ok built
  rw [resolved] at resolved'
  cases resolved'
  cases operation : job.operation with
  | restoreUpdate =>
    simp only [operation] at built
    obtain ⟨rfl, -⟩ := quoted_ok_iff.mp built
    obtain ⟨q, row, row', found, met, after, ⟨assignable, updated⟩, others⟩ := effect_update_one effect counts
    have expected := expected_of_matches resolved met
    obtain ⟨before, apart⟩ := inverseMemberPlace integrity (locked (by simp [operation])) (by simp [operation]) whole keyed
      done found expected
    refine done.snoc fresh apart ?_ others
    rw [restoreAssignments, advanced_eq] at assignable updated
    unfold CompensationDone
    rw [operation]
    refine ⟨row, row', before, expected, after, ?_⟩
    rw [← assign_patched assignable]
    exact funext fun column => updated column (.inr id)
  | removeInsert =>
    simp only [operation] at built
    obtain ⟨rfl, -⟩ := quoted_ok_iff.mp built
    obtain ⟨q, row, found, met, after, others⟩ := effect_delete_one effect counts
    have expected := expected_of_matches resolved met
    obtain ⟨before, apart⟩ := inverseMemberPlace integrity (locked (by simp [operation])) (by simp [operation]) whole keyed
      done found expected
    refine done.snoc fresh apart ?_ others
    unfold CompensationDone
    rw [operation]
    exact ⟨row, before, expected, after⟩
  | restoreInsert =>
    simp only [operation] at built
    obtain ⟨rfl, -⟩ := quoted_ok_iff.mp built
    obtain ⟨q, row, free, given, rfl⟩ := effect
    have apart : ∀ m' ∈ first, ¬ CompensationDone job m' (table q) (between q) := by
      intro m' _ changed
      unfold CompensationDone at changed
      rw [operation, free] at changed
      obtain ⟨_, _, _, ⟨⟩, -⟩ := changed
    refine done.snoc fresh apart ?_ fun p away => Function.update_of_ne away ..
    unfold CompensationDone
    rw [operation, Function.update_self, ← done.untouched apart]
    exact ⟨free, row, scope, rfl, resolved, given⟩

theorem returnsIn_writeCompensation (keyed : Keyed job.target table) (integrity : CompensationIntegrity rt.platform job)
    (locked : job.operation ≠ .restoreInsert → Locked rt job.target (compensationMembers job) table) :
    (writeCompensation rt .postgres job).ReturnsIn (TableStep job.target fun _ => False)
      (fun _ table' => Exactly (CompensationDone job) job.compensation.members table table') table := by
  unfold writeCompensation
  simp only [returnsIn_bind, returnsIn_required, returnsIn_pure]
  have walked := returnsIn_each (f := writeCompensationMember rt .postgres job) (l := job.compensation.members) (s := table)
    (I := fun first table' => Keyed job.target table' ∧ Exactly (CompensationDone job) first table table')
    (fun first m rest whole between inv => returnsIn_writeCompensationMember integrity locked whole inv.1 inv.2)
    ⟨keyed, exactly_nil table⟩
  exact walked.mono fun _ table' inv _ _ => inv.2

end

/-! ### All jobs -/

/-- The columns that the database sets by itself at an UPDATE of a job. -/
def generatedColumn : WritebackJob → Column → Prop
  | .v1 job => rowGenerated (LegacyJob.toRowJob job)
  | .v2 job => rowGenerated job
  | .v3 _ | .v4 _ => fun _ => False

/-- The reviewed changes of a job and no others. -/
def Applied (rt : SourceRuntime) : WritebackJob → Table → Table → Prop
  | .v1 job => Exactly (RowDone rt) [LegacyJob.toRowJob job]
  | .v2 job => Exactly (RowDone rt) [job]
  | .v3 job => Exactly (SetDone rt job) job.frozenSet.members
  | .v4 job => Exactly (CompensationDone job) job.compensation.members

section
variable {rt : SourceRuntime} {job : WritebackJob} {table : Table}

/-- What a job has shown when its reads do not refuse it. -/
def Ready (rt : SourceRuntime) : WritebackJob → Table → Prop
  | .v1 job, table => (LegacyJob.toRowJob job).operation ≠ .insert → RowLocked rt (LegacyJob.toRowJob job) table
  | .v2 job, table => job.operation ≠ .insert → RowLocked rt job table
  | .v3 job, table => validateSetJob .postgres rt.platform job = .ok () ∧
      (job.operation ≠ .batchInsert → Locked rt job.target (setMembers job) table)
  | .v4 job, table => CompensationIntegrity rt.platform job ∧
      (job.operation ≠ .restoreInsert → Locked rt job.target (compensationMembers job) table)

theorem returnsIn_refusal :
    (refusal rt .postgres job).ReturnsIn (TableStep job.target (generatedColumn job))
      (fun refused table' => table' = table ∧ (refused = none → Ready rt job table)) table := by
  unfold refusal
  simp only [returnsIn_bind]
  refine (returnsIn_reads (calls_lockFreshnessDependencies rt .postgres job) job.target _ table).mono ?_
  rintro stale table' rfl
  cases stale with
  | some code => exact ⟨rfl, by simp⟩
  | none =>
    simp only
    cases job with
    | v1 job => exact @returnsIn_rowRefusal rt (LegacyJob.toRowJob job) _ _
    | v2 job => exact returnsIn_rowRefusal
    | v3 job => exact returnsIn_setRefusal
    | v4 job => exact returnsIn_compensationRefusal

theorem returnsIn_write (keyed : Keyed job.target table) (ready : Ready rt job table) :
    (write rt .postgres job).ReturnsIn (TableStep job.target (generatedColumn job))
      (fun _ table' => Applied rt job table table') table := by
  cases job with
  | v1 job => exact returnsIn_writeRow keyed ready
  | v2 job => exact returnsIn_writeRow keyed ready
  | v3 job =>
    obtain ⟨_, integrity, -⟩ := bind_eq_ok ready.1
    exact returnsIn_writeSet keyed integrity ready.2
  | v4 job => exact returnsIn_writeCompensation keyed ready.1 ready.2

/-- A mutation that returns has made the reviewed changes, or none. -/
theorem returnsIn_mutate (keyed : Keyed job.target table) :
    (mutate rt .postgres job).ReturnsIn (TableStep job.target (generatedColumn job))
      (fun outcome table' => outcome.status = .applied ∧ Applied rt job table table' ∨
        (outcome.status = .conflict ∨ outcome.status = .failed) ∧ table' = table) table := by
  unfold mutate
  simp only [returnsIn_bind]
  refine (returnsIn_refusal.and ((SourceReceipts.returns_refused job).returnsIn table)).mono ?_
  rintro refused table' ⟨⟨rfl, ready⟩, told⟩
  cases refused with
  | some outcome => exact .inr ⟨told outcome rfl, rfl⟩
  | none =>
    refine ((returnsIn_write keyed (ready rfl)).and ((CommitOutcomes.returns_write rt .postgres job).returnsIn table')).mono ?_
    rintro outcome table'' ⟨applied, succeeded⟩
    exact .inl ⟨succeeded.1, applied⟩

end

end SynapsorRunner.AllOrNothing
