import SynapsorRunner.ExploreJoins

/-!
What a statement of Explore is made of: conditions and expressions over reviewed columns,
and child counts, each held to its own scope. A statement of such parts reads only listed
resources, names only reviewed columns of its own tables, gives each table an alias of its
own and holds each of them to its scope (`inside_of_parts`).
-/
namespace SynapsorRunner.ExploreStatements
open SynapsorRunner.NumberText SynapsorRunner.JsonText SynapsorRunner.Proposals SynapsorRunner.ExploreBoundaries
open SynapsorRunner.ExplorePlans SynapsorRunner.NumberedParameters SynapsorRunner.ExploreSql
open SynapsorRunner.ExploreCompiler SynapsorRunner.ExploreScopes SynapsorRunner.ExploreJoins
open SynapsorRunner.Protocol (Engine)
open SynapsorRunner.ComplementReleases (Operator ExploreFilter AggregateMeasureFunction AggregateMeasure TimeBucket
  CanonicalTimeWindow)

/-! ### Statements -/

/-- The parameters of an engine: by their numbers, or in the order of the text. -/
def BoundInOrder (params : List Parameter) (inText : List (Placeholder Parameter)) : Engine → Prop
  | .postgres => inText.length = params.length ∧
      ∀ p ∈ inText, 1 ≤ p.index ∧ params[p.index - 1]? = some p.value
  | .mysql => inText.map Placeholder.value = params

/-- A statement stays inside the scope of a boundary: its parameters are bound where they
    stand, its tables are held to the trusted context, its columns are reviewed for their use
    and its resources are listed. -/
structure Inside (boundary : ActivatedExplorationBoundary) (context : TrustedContext) (engine : Engine)
    (query : CompiledExploreQuery) : Prop where
  bound : BoundInOrder query.params (placeholders query.statement.tokens) engine
  held : ∀ occurrence ∈ query.statement.occurrences, ScopedTo boundary context occurrence.1 occurrence.2
  reviewed : ∀ column ∈ columns query.statement.tokens,
    column.table ∈ tables query.statement.tokens ∧ Reviewed boundary column
  distinct : ((tables query.statement.tokens).map TableUse.name).Nodup
  listed : ∀ table ∈ tables query.statement.tokens, table.resource ∈ query.resources

/-- A table with its conditions: held to its scope, with resources that are listed and names
    of its own. -/
structure OccurrenceOk (boundary : ActivatedExplorationBoundary) (context : TrustedContext)
    (resources : List BoundaryResource) (occurrence : TableUse × List Condition) : Prop where
  held : ScopedTo boundary context occurrence.1 occurrence.2
  own : occurrence.1.resource ∈ resources
  listed : ∀ condition ∈ occurrence.2, ∀ t ∈ tables condition.tokens, t.resource ∈ resources
  distinct : ((occurrence.2.flatMap fun condition => tables condition.tokens).map TableUse.name).Nodup
  names : ∀ condition ∈ occurrence.2, ∀ t ∈ tables condition.tokens,
    ∃ kind index, t.name = .step occurrence.1.name kind index

/-- The tables of an occurrence: its own, and those of its derived scopes. -/
def occurrenceTables (occurrence : TableUse × List Condition) : List TableUse :=
  occurrence.1 :: occurrence.2.flatMap fun condition => tables condition.tokens

/-- Whether an alias is that of a link of a derived scope. -/
def TableName.isStep : TableName → Bool
  | .step .. => true
  | _ => false

theorem OccurrenceOk.mono {boundary : ActivatedExplorationBoundary} {context : TrustedContext}
    {resources more : List BoundaryResource} {occurrence : TableUse × List Condition}
    (ok : OccurrenceOk boundary context resources occurrence) (listed : ∀ r ∈ resources, r ∈ more) :
    OccurrenceOk boundary context more occurrence where
  held := ok.held
  own := listed _ ok.own
  listed condition member t inside := listed _ (ok.listed condition member t inside)
  distinct := ok.distinct
  names := ok.names

/-- Items of a select list without tables but for those of their child counts. -/
def PlainItems (items : List Item) : Prop := ∀ item ∈ items, tables item.start = [] ∧ tables item.stop = []

theorem tables_child (child : ChildCount) : tables child.tokens = occurrenceTables (child.table, child.conditions) :=
  filterMap_child (fun _ => rfl) child

theorem tables_join (join : Join) : tables join.tokens = occurrenceTables (join.table, join.conditions) :=
  filterMap_join (fun _ => rfl) join

theorem tables_item {item : Item} (start : tables item.start = []) (stop : tables item.stop = []) :
    tables item.tokens = (item.child.map fun child => occurrenceTables (child.table, child.conditions)).getD [] := by
  unfold Item.tokens
  rw [tables_append, tables_append, start, stop]
  cases item.child with
  | none => rfl
  | some child => simp [tables_child]

theorem tables_items {items : List Item} (plain : PlainItems items) :
    (items.flatMap fun item => tables item.tokens) =
      (items.filterMap fun item => item.child.map fun child => (child.table, child.conditions)).flatMap
        occurrenceTables := by
  induction items with
  | nil => rfl
  | cons item rest ih =>
    obtain ⟨start, stop⟩ := plain item (by simp)
    rw [List.flatMap_cons, ih fun i member => plain i (by simp [member]), tables_item start stop, List.filterMap_cons]
    cases item.child <;> rfl

/-- The tables of a statement are those of its occurrences. -/
theorem tables_statement {statement : Statement} (start : tables statement.start = [])
    (stop : tables statement.stop = []) (plain : PlainItems statement.select) :
    (tables statement.tokens).Perm (statement.occurrences.flatMap occurrenceTables) := by
  have read : tables statement.tokens = _ := filterMap_statement (f := Token.table?) (fun _ => rfl) statement
  rw [read]
  show (tables statement.start ++ (statement.select.flatMap fun item => tables item.tokens) ++ [statement.root] ++
    (statement.joins.flatMap fun join => tables join.tokens) ++
    (statement.conditions.flatMap fun condition => tables condition.tokens) ++ tables statement.stop).Perm _
  rw [start, stop, tables_items plain]
  have joins : (statement.joins.flatMap fun join => tables join.tokens) =
      (statement.joins.map fun join => (join.table, join.conditions)).flatMap occurrenceTables := by
    rw [List.flatMap_map]
    exact congrArg (List.flatMap · statement.joins) (funext tables_join)
  rw [joins]
  unfold Statement.occurrences
  simp only [List.cons_append, List.flatMap_cons, List.flatMap_append, occurrenceTables, List.nil_append,
    List.append_nil, List.append_assoc]
  refine (List.perm_append_comm).trans ?_
  simp only [List.cons_append, List.append_assoc]
  refine List.Perm.cons _ ?_
  rw [← List.append_assoc, ← List.append_assoc]
  exact List.Perm.append_right _ List.perm_append_comm

theorem disjoint_occurrences {a b : TableUse × List Condition} {boundary : ActivatedExplorationBoundary}
    {context : TrustedContext} {resources : List BoundaryResource} (one : OccurrenceOk boundary context resources a)
    (two : OccurrenceOk boundary context resources b) (apart : a.1.name ≠ b.1.name)
    (first : TableName.isStep a.1.name = false) (second : TableName.isStep b.1.name = false) :
    List.Disjoint ((occurrenceTables a).map TableUse.name) ((occurrenceTables b).map TableUse.name) := by
  have cases : ∀ {o : TableUse × List Condition}, OccurrenceOk boundary context resources o →
      ∀ name ∈ (occurrenceTables o).map TableUse.name, name = o.1.name ∨ ∃ kind index, name = .step o.1.name kind index := by
    intro o ok name member
    obtain ⟨t, inside, rfl⟩ := List.mem_map.mp member
    rcases List.mem_cons.mp inside with rfl | inside
    · exact .inl rfl
    · obtain ⟨condition, listed, inside⟩ := List.mem_flatMap.mp inside
      exact .inr (ok.names condition listed t inside)
  intro name left right
  rcases cases one name left with rfl | ⟨kind, i, rfl⟩
  · rcases cases two _ right with same | ⟨kind, i, same⟩
    · exact apart same
    · rw [same] at first
      cases first
  · rcases cases two _ right with same | ⟨kind', j, same⟩
    · rw [← same] at second
      cases second
    · exact apart (TableName.step.inj same).1

/-- The aliases of a statement are different. -/
theorem distinct_occurrences {boundary : ActivatedExplorationBoundary} {context : TrustedContext}
    {resources : List BoundaryResource} {occurrences : List (TableUse × List Condition)}
    (each : ∀ o ∈ occurrences, OccurrenceOk boundary context resources o)
    (apart : (occurrences.map fun o => o.1.name).Nodup) (own : ∀ o ∈ occurrences, TableName.isStep o.1.name = false) :
    ((occurrences.flatMap occurrenceTables).map TableUse.name).Nodup := by
  induction occurrences with
  | nil => simp
  | cons o rest ih =>
    rw [List.map_cons, List.nodup_cons] at apart
    rw [List.flatMap_cons, List.map_append, List.nodup_append']
    refine ⟨?_, ih (fun p member => each p (by simp [member])) apart.2 fun p member => own p (by simp [member]), ?_⟩
    · unfold occurrenceTables
      rw [List.map_cons, List.nodup_cons]
      refine ⟨?_, (each o (by simp)).distinct⟩
      intro member
      obtain ⟨t, inside, same⟩ := List.mem_map.mp member
      obtain ⟨condition, listed, inside⟩ := List.mem_flatMap.mp inside
      obtain ⟨kind, index, name⟩ := (each o (by simp)).names condition listed t inside
      have step := own o (by simp)
      rw [← same, name] at step
      cases step
    · intro name left right
      obtain ⟨t, inside, rfl⟩ := List.mem_map.mp right
      obtain ⟨p, member, inside⟩ := List.mem_flatMap.mp inside
      have differ : o.1.name ≠ p.1.name := fun same => apart.1 (List.mem_map.mpr ⟨p, member, same.symm⟩)
      exact disjoint_occurrences (each o (by simp)) (each p (by simp [member])) differ (own o (by simp))
        (own p (by simp [member])) left (List.mem_map_of_mem inside)

/-- A statement of parts that are right stays inside. -/
theorem inside_of_parts {boundary : ActivatedExplorationBoundary} {context : TrustedContext} {engine : Engine}
    {query : CompiledExploreQuery} {near : List TableUse}
    (bound : BoundInOrder query.params (placeholders query.statement.tokens) engine)
    (start : tables query.statement.start = []) (stop : tables query.statement.stop = [])
    (plain : PlainItems query.statement.select)
    (each : ∀ o ∈ query.statement.occurrences, OccurrenceOk boundary context query.resources o)
    (apart : (query.statement.occurrences.map fun o => o.1.name).Nodup)
    (own : ∀ o ∈ query.statement.occurrences, TableName.isStep o.1.name = false)
    (nearby : ∀ t ∈ near, t ∈ query.statement.occurrences.map Prod.fst)
    (named : Named boundary near query.statement.tokens) : Inside boundary context engine query := by
  have perm := tables_statement start stop plain
  refine ⟨bound, fun o member => (each o member).held, ?_, ?_, ?_⟩
  · intro column member
    obtain ⟨inside, reviewed⟩ := named column member
    refine ⟨?_, reviewed⟩
    rcases inside with inside | inside
    · obtain ⟨o, listed, same⟩ := List.mem_map.mp (nearby _ inside)
      refine perm.mem_iff.mpr (List.mem_flatMap.mpr ⟨o, listed, ?_⟩)
      rw [← same]
      exact List.mem_cons_self ..
    · exact inside
  · exact (perm.map _).nodup_iff.mpr (distinct_occurrences each apart own)
  · intro t member
    obtain ⟨o, listed, inside⟩ := List.mem_flatMap.mp (perm.mem_iff.mp member)
    rcases List.mem_cons.mp inside with rfl | inside
    · exact (each o listed).own
    · obtain ⟨condition, one, inside⟩ := List.mem_flatMap.mp inside
      exact (each o listed).listed condition one t inside

end SynapsorRunner.ExploreStatements
