import SynapsorRunner.ExploreProjections

/-!
Compiled statements of Explore stay inside the reviewed scope. For an aggregate plan every
statement does (`compileAggregatePlan_inside`). The compiler of row plans has no joins and
compiles a filter along a relationship for the resource of the plan, where its field may not
be reviewed: the statement stays inside when each filter is reviewed there, and only then
(`compileExplorePlan_inside_iff`).
-/
namespace SynapsorRunner.ExploreInside
open SynapsorRunner.NumberText SynapsorRunner.JsonText SynapsorRunner.Proposals SynapsorRunner.ExploreBoundaries
open SynapsorRunner.ExplorePlans SynapsorRunner.NumberedParameters SynapsorRunner.ExploreSql
open SynapsorRunner.ExploreCompiler SynapsorRunner.ExploreScopes SynapsorRunner.ExploreJoins
open SynapsorRunner.ExploreStatements SynapsorRunner.ExploreExpressions SynapsorRunner.ExploreSelects
open SynapsorRunner.ExploreProjections SynapsorRunner.ReviewedPlans
open SynapsorRunner.Protocol (Engine)
open SynapsorRunner.ComplementReleases (ExploreFilter AggregateMeasure AggregateDimension TimeBucket CanonicalTimeWindow
  AggregateExplorePlan mem_of_mapM_ok of_mem_mapM_ok)

/-! ### Parameters -/

theorem bound_inText {placeholders : List (Placeholder Parameter)} (continues : Continues 0 placeholders)
    (engine : Engine) : BoundInOrder (placeholders.map Placeholder.value) placeholders engine := by
  cases engine with
  | postgres => exact ⟨by simp, fun p member => continues.bound member⟩
  | mysql => rfl

/-- The parameters of the select list come before those of the rows in the text. -/
theorem bound_inTextOrder {rows select stop : List (Placeholder Parameter)} (continues : Continues 0 (rows ++ select ++ stop))
    (engine : Engine) :
    BoundInOrder (inTextOrder engine rows.length (rows.length + select.length)
      ((rows ++ select ++ stop).map Placeholder.value)) (select ++ rows ++ stop) engine := by
  cases engine with
  | postgres =>
    refine ⟨by simp [inTextOrder]; omega, fun p member => continues.bound ?_⟩
    simp only [List.mem_append] at member ⊢
    tauto
  | mysql =>
    show (select ++ rows ++ stop).map Placeholder.value = _
    unfold inTextOrder
    have first : rows.length = (rows.map Placeholder.value).length := by simp
    have second : select.length = (select.map Placeholder.value).length := by simp
    rw [Nat.add_sub_cancel_left, List.map_append, List.map_append, List.map_append, List.map_append, first, second,
      ← List.length_append, List.drop_left, List.append_assoc (rows.map Placeholder.value), List.drop_left,
      List.take_left, List.take_left]

/-! ### Rows -/

section
variable {digests : Digests} {boundary : ActivatedExplorationBoundary} {context : TrustedContext}

/-- The columns of the filters of a row plan, which are compiled for the resource of the plan. -/
def filterColumn (root : TableUse) (filter : ExploreFilter) : ColumnUse := ⟨root, filter.field, .filter filter.op⟩

/-- What the statement of a row plan is. -/
structure RowStatement (boundary : ActivatedExplorationBoundary) (context : TrustedContext) (root : TableUse)
    (plan : RowExplorePlan) (statement : Statement) (resources : List BoundaryResource) : Prop where
  start : statement.start = []
  stop : tables statement.stop = []
  plain : PlainItems statement.select
  occurrences : statement.occurrences = [(root, statement.conditions)]
  occurrence : OccurrenceOk boundary context resources (root, statement.conditions)
  filters : ∀ filter ∈ plan.filters, filterColumn root filter ∈ columns statement.tokens
  named : (∀ filter ∈ plan.filters, Reviewed boundary (filterColumn root filter)) →
    Named boundary [root] statement.tokens

theorem forall₂_right {α β : Type} {P : α → β → Prop} {as : List α} {bs : List β} (related : List.Forall₂ P as bs) :
    ∀ b ∈ bs, ∃ a ∈ as, P a b := by
  induction related with
  | nil => simp
  | cons here _ ih =>
    intro b member
    rcases List.mem_cons.mp member with rfl | member
    · exact ⟨_, List.mem_cons_self .., here⟩
    · obtain ⟨a, listed, holds⟩ := ih b member
      exact ⟨a, List.mem_cons_of_mem _ listed, holds⟩

theorem forall₂_left {α β : Type} {P : α → β → Prop} {as : List α} {bs : List β} (related : List.Forall₂ P as bs) :
    ∀ a ∈ as, ∃ b ∈ bs, P a b := by
  intro a member
  obtain ⟨b, listed, holds⟩ := forall₂_right (List.Forall₂.flip related) a member
  exact ⟨b, listed, holds⟩

theorem selectedColumn_emits {root : TableUse} {field : Text} (reviewed : Reviewed boundary ⟨root, field, .select⟩) :
    Emits (selectedColumn root field) fun i own => placeholders i.tokens = own ∧
      ∃ tokens name, i = item tokens name ∧ Quiet boundary [root] tokens := by
  unfold selectedColumn
  refine (columnToken_emits _ _ _).bind ?_
  rintro _ _ ⟨rfl, rfl⟩
  exact .pure ⟨by simp [item_placeholders], _, _, rfl, quiet_column (by simp) reviewed⟩

theorem rowOrderSql_emits {root : TableUse} {orders : List (Text × Direction)}
    (inside : root.resource ∈ boundary.resources) (sortable : ∀ order ∈ orders, order.1 ∈ root.resource.sortableFields) :
    Emits (rowOrderSql root orders) fun tokens own => own = [] ∧ Quiet boundary [root] tokens := by
  have text : ∀ s : String, Quiet boundary [root] [lit s] := fun s => quiet_of_bare ⟨rfl, rfl, rfl⟩
  unfold rowOrderSql
  cases orders with
  | nil =>
    refine (columnToken_emits _ _ _).bind ?_
    rintro _ _ ⟨rfl, rfl⟩
    have column : Reviewed boundary ⟨root, root.resource.primaryKey, .primaryKey⟩ := ⟨inside, rfl⟩
    exact .pure ⟨rfl, (text _).append ((quiet_column (by simp) column).append (text _))⟩
  | cons first rest =>
    have each : ∀ order ∈ first :: rest, Emits (sortedColumn root order) fun tokens own =>
        placeholders tokens = own ∧ Quiet boundary [root] tokens := by
      intro order member
      unfold sortedColumn
      refine (columnToken_emits _ _ _).bind ?_
      rintro _ _ ⟨rfl, rfl⟩
      have column : Reviewed boundary ⟨root, order.1, .sort⟩ := ⟨inside, sortable order member⟩
      exact .pure ⟨rfl, (quiet_column (by simp) column).append (text _)⟩
    refine (Emits.mapM placeholders (P := fun _ tokens => Quiet boundary [root] tokens) each).bind ?_
    rintro sorted own ⟨rfl, related⟩
    have quiet := forall_of_forall₂ related
    refine .pure ⟨?_, (text _).append (quiet_separated quiet)⟩
    simpa [List.flatMap_eq_nil_iff] using fun tokens member => (quiet tokens member).silent

theorem placeholders_statement (statement : Statement) :
    placeholders statement.tokens = placeholders statement.start ++ itemPlaceholders statement.select ++
      joinPlaceholders statement.joins ++ conditionPlaceholders statement.conditions ++ placeholders statement.stop := by
  have read : placeholders statement.tokens = _ := filterMap_statement (f := Token.placeholder?) (fun _ => rfl) statement
  have joins : (statement.joins.flatMap fun join => join.tokens.filterMap Token.placeholder?) =
      joinPlaceholders statement.joins := by
    unfold joinPlaceholders
    exact congrArg (List.flatMap · statement.joins) (funext fun join => filterMap_join (fun _ => rfl) join)
  rw [read, joins]
  simp [placeholders, itemPlaceholders, conditionPlaceholders, Token.placeholder?]

theorem columns_statement (statement : Statement) :
    columns statement.tokens = columns statement.start ++ (statement.select.flatMap fun item => columns item.tokens) ++
      (statement.joins.flatMap fun join => join.conditions.flatMap fun condition => columns condition.tokens) ++
      (statement.conditions.flatMap fun condition => columns condition.tokens) ++ columns statement.stop := by
  have read : columns statement.tokens = _ := filterMap_statement (f := Token.column?) (fun _ => rfl) statement
  have joins : (statement.joins.flatMap fun join => join.tokens.filterMap Token.column?) =
      statement.joins.flatMap fun join => join.conditions.flatMap fun condition => columns condition.tokens :=
    congrArg (List.flatMap · statement.joins) (funext fun join => filterMap_join (fun _ => rfl) join)
  rw [read, joins]
  simp [columns, Token.column?]

theorem mem_tables_statement {statement : Statement} {t : TableUse}
    (inside : (∃ i ∈ statement.select, t ∈ tables i.tokens) ∨
      (∃ join ∈ statement.joins, ∃ condition ∈ join.conditions, t ∈ tables condition.tokens) ∨
      ∃ condition ∈ statement.conditions, t ∈ tables condition.tokens) : t ∈ tables statement.tokens := by
  have read : tables statement.tokens = _ := filterMap_statement (f := Token.table?) (fun _ => rfl) statement
  rw [read]
  simp only [List.mem_append, List.mem_flatMap]
  rcases inside with ⟨i, listed, inside⟩ | ⟨join, listed, condition, one, inside⟩ | inside
  · exact .inl (.inl (.inl (.inl (.inr ⟨i, listed, inside⟩))))
  · refine .inl (.inl (.inr ⟨join, listed, ?_⟩))
    show t ∈ tables join.tokens
    rw [tables_join]
    exact List.mem_cons_of_mem _ (List.mem_flatMap.mpr ⟨condition, one, inside⟩)
  · exact .inl (.inr inside)

/-- The values of a field that a row plan selects or filters by are reviewed. -/
theorem enumUses_reviewed {root : BoundaryResource} {plan : RowExplorePlan}
    (reviewed : RowsReviewed digests boundary root plan)
    (fine : ∀ filter ∈ plan.filters, filter.op ∈ (entry root.filterableFields filter.field).getD []) {field : Text}
    (used : field ∈ enumUses root plan) : ReviewedFor boundary root field .values := by
  unfold enumUses at used
  rw [List.mem_eraseDups, List.mem_filter, List.mem_append] at used
  obtain ⟨used | used, valued⟩ := used
  · exact ⟨by simpa using valued, .inl (reviewed.select field used)⟩
  · obtain ⟨filter, listed, rfl⟩ := List.mem_map.mp used
    exact ⟨by simpa using valued, .inr (List.ne_nil_of_mem (fine filter listed))⟩

theorem rowStatement_emits {root : TableUse} {plan : RowExplorePlan}
    (reviewed : RowsReviewed digests boundary root.resource plan)
    (found : resourceFor boundary root.resource.id = .ok root.resource) :
    Emits (rowStatement digests boundary context plan root) fun result own =>
      placeholders result.1.tokens = own ∧ RowStatement boundary context root plan result.1 result.2 := by
  have inside : root.resource ∈ boundary.resources := resourceFor_mem found
  unfold rowStatement
  refine (compileScopePredicates_emits root found).bind ?_
  rintro scope own ⟨rfl, spec⟩
  have filtered : ∀ filter ∈ plan.filters, Emits (filterSql filter root) fun condition own =>
      placeholders condition.tokens = own ∧ tables condition.tokens = [] ∧
        columns condition.tokens = [filterColumn root filter] := fun filter _ => filterSql_emits filter root
  refine (Emits.mapM (fun condition => placeholders (Condition.tokens condition)) filtered).bind ?_
  rintro filters own ⟨rfl, filters_of⟩
  refine (compileEach_emits (Q := fun conditions own => conditionPlaceholders conditions = own ∧
    PlainConditions boundary [root] conditions) ⟨rfl, by simp [PlainConditions]⟩ ?_).bind ?_
  · intro window member
    refine (rangeSql_emits _ _ _).mono ?_
    rintro conditions own ⟨emitted, only⟩
    exact ⟨emitted, plain_of_over only (by simp) ⟨inside, reviewed.timeWindow window member⟩⟩
  rintro window own ⟨rfl, windowPlain⟩
  have valued : ∀ field ∈ enumUses root.resource plan, Emits (reviewedEnumAllowlistSql field root) fun condition own =>
      placeholders condition.tokens = own ∧ Over ⟨root, field, .values⟩ condition.tokens :=
    fun field _ => reviewedEnumAllowlistSql_emits field root
  refine (Emits.mapM (fun condition => placeholders (Condition.tokens condition)) valued).bind ?_
  rintro values own ⟨rfl, values_of⟩
  have chosen : ∀ field ∈ plan.select, Emits (selectedColumn root field) fun i own => placeholders i.tokens = own ∧
      ∃ tokens name, i = item tokens name ∧ Quiet boundary [root] tokens :=
    fun field member => selectedColumn_emits ⟨inside, reviewed.select field member⟩
  refine (Emits.mapM (fun i => placeholders (Item.tokens i)) (P := fun _ i =>
    ∃ tokens name, i = item tokens name ∧ Quiet boundary [root] tokens) chosen).bind ?_
  rintro select own ⟨rfl, select_of⟩
  refine (rowOrderSql_emits inside reviewed.orderBy).bind ?_
  rintro order _ ⟨rfl, order_quiet⟩
  refine (valueToken_emits _).bind ?_
  rintro _ _ ⟨index, rfl, rfl⟩
  refine (Emits.ask (Q := fun _ own => own = []) fun _ _ => rfl).bind ?_
  rintro ⟨⟩ _ rfl
  refine .pure ?_
  have items := forall_of_forall₂ select_of
  have plainItems : PlainItems select := by
    intro i member
    obtain ⟨tokens, name, rfl, quiet⟩ := items i member
    exact ⟨by simp [item, quiet.expression.plain], rfl⟩
  have childless : select.filterMap (fun i => i.child.map fun child => (child.table, child.conditions)) = [] := by
    rw [List.filterMap_eq_nil_iff]
    intro i member
    obtain ⟨tokens, name, rfl, -⟩ := items i member
    rfl
  have silent : select.flatMap (fun i => placeholders (Item.tokens i)) = [] := by
    rw [List.flatMap_eq_nil_iff]
    intro i member
    obtain ⟨tokens, name, rfl, quiet⟩ := items i member
    rw [item_placeholders, quiet.silent]
  have filters_plain : ∀ condition ∈ filters, tables condition.tokens = [] ∧
      ∃ filter ∈ plan.filters, columns condition.tokens = [filterColumn root filter] := by
    intro condition member
    obtain ⟨filter, listed, plain, named⟩ := forall₂_right filters_of condition member
    exact ⟨plain, filter, listed, named⟩
  have values_plain : ∀ condition ∈ values, ∃ field ∈ enumUses root.resource plan,
      Over ⟨root, field, .values⟩ condition.tokens := fun condition member => forall₂_right values_of condition member
  refine ⟨?_, rfl, ?_, plainItems, ?_, ?_, ?_, ?_⟩
  · rw [placeholders_statement]
    simp [itemPlaceholders, silent, conditionPlaceholders, joinPlaceholders, order_quiet.silent]
  · simp [order_quiet.expression.plain]
  · simp [Statement.occurrences, childless]
  · have start : OccurrenceOk boundary context scope.2 (root, scope.1) :=
      ⟨spec.held, spec.own, spec.listed, spec.distinct, spec.names⟩
    have none : ∀ condition ∈ filters ++ window ++ values, tables condition.tokens = [] := by
      intro condition member
      simp only [List.mem_append] at member
      rcases member with (member | member) | member
      · exact (filters_plain condition member).1
      · exact (windowPlain condition member).plain
      · obtain ⟨field, -, only⟩ := values_plain condition member
        exact only.plain
    simpa only [List.append_assoc] using occurrence_append start none
  · intro filter member
    obtain ⟨condition, listed, -, named⟩ := forall₂_left filters_of filter member
    rw [columns_statement]
    simp only [List.mem_append, List.mem_flatMap]
    refine .inl (.inr ⟨condition, by simp [listed], ?_⟩)
    rw [named]
    exact List.mem_singleton_self _
  · intro fine column member
    rw [columns_statement] at member
    simp only [columns_nil, List.nil_append, List.flatMap_nil, List.append_nil, List.mem_append, List.mem_flatMap] at member
    rcases member with (⟨i, listed, member⟩ | ⟨condition, listed, member⟩) | member
    · obtain ⟨tokens, name, rfl, quiet⟩ := items i listed
      obtain ⟨near, reviewed⟩ := (item_named quiet.expression name).columns column member
      exact ⟨.inl near, reviewed⟩
    · rcases listed with ((listed | listed) | listed) | listed
      · obtain ⟨near, reviewed⟩ := spec.named condition listed column member
        refine ⟨near.imp_right fun one => mem_tables_statement (.inr (.inr ⟨condition, ?_, one⟩)), reviewed⟩
        simp [listed]
      · obtain ⟨-, filter, one, named⟩ := filters_plain condition listed
        rw [named, List.mem_singleton] at member
        subst member
        exact ⟨.inl (by simp [filterColumn]), fine filter one⟩
      · obtain ⟨near, reviewed⟩ := (windowPlain condition listed).columns column member
        exact ⟨.inl near, reviewed⟩
      · obtain ⟨field, one, only⟩ := values_plain condition listed
        rw [only.columns column member]
        exact ⟨.inl (by simp), inside, enumUses_reviewed reviewed (fun filter two => (fine filter two).use) one⟩
    · simp only [columns_append, columns_lit, columns_placeholder, columns_nil, List.append_nil] at member
      obtain ⟨near, reviewed⟩ := order_quiet.expression.columns column member
      exact ⟨.inl near, reviewed⟩

/-- A row plan stays inside when its filters are reviewed on its own resource, and only then. -/
theorem compileRowPlan_inside_iff {plan : RowExplorePlan} {resource : BoundaryResource} {query : CompiledExploreQuery}
    {engine : Engine} (reviewed : RowsReviewed digests boundary resource plan)
    (compiled : compileRowPlan digests boundary context plan = .ok query) :
    Inside boundary context engine query ↔
      ∀ filter ∈ plan.filters, filter.op ∈ (entry resource.filterableFields filter.field).getD [] := by
  unfold compileRowPlan at compiled
  obtain ⟨found, leads, compiled⟩ := bind_eq_ok compiled
  obtain rfl := Except.ok.inj (reviewed.found.symm.trans leads)
  obtain ⟨⟨⟨statement, resources⟩, params⟩, run, compiled⟩ := bind_eq_ok compiled
  cases compiled
  have self := resourceFor_self leads
  obtain ⟨own, continues, rfl, emitted, spec⟩ :=
    rowStatement_emits reviewed self [] _ _ run
  constructor
  · intro fine filter member
    exact (fine.reviewed _ (spec.filters filter member)).2.use
  · intro fine
    dsimp only at emitted spec
    have occurrence : ∀ o ∈ statement.occurrences, o = (⟨.root, resource⟩, statement.conditions) := by
      rw [spec.occurrences]
      simp
    have start : tables statement.start = [] := by
      rw [show statement.start = [] from spec.start]
      rfl
    refine inside_of_parts ?_ start spec.stop spec.plain ?_ ?_ ?_ ?_
      (spec.named fun filter member => ⟨resourceFor_mem self, fine filter member⟩)
    · rw [emitted]
      exact bound_inText continues engine
    · intro o member
      rw [occurrence o member]
      exact spec.occurrence
    · rw [spec.occurrences]
      simp
    · intro o member
      rw [occurrence o member]
      rfl
    · intro t near
      rw [spec.occurrences]
      simpa using near

/-! ### Relationships of a plan -/

theorem given_eq_some {name : Option Text} {id : Text} (named : given name = some id) :
    name = some id ∧ id.isEmpty = false := by
  obtain ⟨present, nonempty⟩ := Option.filter_eq_some_iff.mp named
  exact ⟨present, by simpa using nonempty⟩

theorem given_base (base : DerivedBaseMeasure) :
    given (derivedBaseMeasureRelationship base) = baseRelationship base := by
  cases base <;> rfl

/-- Every relationship that a plan uses is one of those that are joined. -/
theorem relationshipIds_covers (activated : Activated digests boundary) {resource : BoundaryResource}
    (inside : resource ∈ boundary.resources) {plan : AggregateExplorePlan} {ids : List Text}
    (ok : relationshipIds resource plan = .ok ids) :
    RowsCovered ids plan ∧ (∀ measure ∈ plan.measures, MeasureCovered ids resource measure) ∧
      ∀ dimension ∈ plan.dimensions, DimensionCovered ids resource dimension := by
  unfold relationshipIds at ok
  obtain ⟨measures, measured, ok⟩ := bind_eq_ok ok
  obtain ⟨dimensions, grouped, ok⟩ := bind_eq_ok ok
  cases ok
  have listed : ∀ {name : Option Text} {id : Text}, given name = some id →
      (∀ other, name = some other → other ∈ namedRelationships plan measures dimensions) →
      id ∈ ((namedRelationships plan measures dimensions).filter fun id => !id.isEmpty).eraseDups := by
    intro name id named member
    obtain ⟨present, nonempty⟩ := given_eq_some named
    rw [List.mem_eraseDups, List.mem_filter]
    exact ⟨member id present, by simp [nonempty]⟩
  have measure_of : ∀ measure ∈ plan.measures, ∃ names, measureRelationships resource measure = .ok names ∧
      ∀ name ∈ names, name ∈ measures.flatten := by
    intro measure member
    obtain ⟨names, found, one⟩ := mem_of_mapM_ok measured member
    exact ⟨names, found, fun name two => List.mem_flatten.mpr ⟨names, one, two⟩⟩
  have dimension_of : ∀ dimension ∈ plan.dimensions, ∃ names, dimensionRelationships resource dimension = .ok names ∧
      ∀ name ∈ names, name ∈ dimensions.flatten := by
    intro dimension member
    obtain ⟨names, found, one⟩ := mem_of_mapM_ok grouped member
    exact ⟨names, found, fun name two => List.mem_flatten.mpr ⟨names, one, two⟩⟩
  refine ⟨⟨?_, ?_, ?_, ?_⟩, ?_, ?_⟩
  · intro filter member id named
    refine listed named fun other present => ?_
    have one : other ∈ plan.filters.filterMap ExploreFilter.relationship :=
      List.mem_filterMap.mpr ⟨filter, member, present⟩
    simp [namedRelationships, one]
  · intro window member id named
    refine listed named fun other present => ?_
    have one : plan.timeWindow = some window := member
    simp [namedRelationships, one, present]
  · intro bucket member id named
    refine listed named fun other present => ?_
    have one : plan.timeBucket = some bucket := member
    simp [namedRelationships, one, present]
  · intro comparison member id named
    refine listed named fun other present => ?_
    have one : plan.comparison = some comparison := member
    simp [namedRelationships, one, present]
  · intro measure member
    obtain ⟨names, found, inList⟩ := measure_of measure member
    cases measure with
    | base function field relationship =>
      intro id named
      cases found
      refine listed named fun other present => ?_
      have one := inList other (by simp [present])
      simp [namedRelationships, one]
    | derived name =>
      intro definition taken
      rw [measureRelationships, taken] at found
      have along : ∀ base : DerivedBaseMeasure, names = (baseRelationship base).toList →
          ∀ id, given (derivedBaseMeasureRelationship base) = some id →
            id ∈ ((namedRelationships plan measures dimensions).filter fun id => !id.isEmpty).eraseDups := by
        intro base same id named
        have one : id ∈ measures.flatten := by
          refine inList id ?_
          rw [same, ← given_base, named]
          simp
        exact listed named fun other present => by
          have equal := (given_eq_some named).1.symm.trans present
          cases equal
          simp [namedRelationships, one]
      unfold Covered
      cases body : definition.body with
      | childCount shape childResource relationship => trivial
      | postAggregate shape base =>
        simp only [Except.map, body, Except.ok.injEq] at found
        exact along base found.symm
      | ratio shape numerator denominator =>
        simp only [Except.map, body, Except.ok.injEq] at found
        have same := same_relationship activated inside (reviewedDerivedMeasure_mem taken) body
        refine ⟨along numerator found.symm, ?_⟩
        rw [← same]
        exact along numerator found.symm
  · intro dimension member
    obtain ⟨names, found, inList⟩ := dimension_of dimension member
    cases dimension with
    | field field relationship =>
      intro id named
      cases found
      refine listed named fun other present => ?_
      have one := inList other (by simp [present])
      simp [namedRelationships, one]
    | numericBand name =>
      intro band taken id named
      rw [dimensionRelationships, taken] at found
      cases found
      have one : id ∈ dimensions.flatten := inList id (by simp [named])
      refine listed named fun other present => ?_
      have equal := (given_eq_some named).1.symm.trans present
      cases equal
      simp [namedRelationships, one]
    | autoBand field buckets method => trivial

/-! ### Aggregates -/

/-- What a select list is. -/
structure SelectOk (boundary : ActivatedExplorationBoundary) (context : TrustedContext) (near : List TableUse)
    (adaptive : Bool) (items : List Item) (resources : List BoundaryResource) : Prop where
  fine : ItemsOk boundary context near resources items
  found : AllFound boundary resources
  nodup : (childNames items).Nodup
  names : ∀ name ∈ childNames items, ∃ i, name = .childCount adaptive i

theorem childNames_append (a b : List Item) : childNames (a ++ b) = childNames a ++ childNames b := by
  simp [childNames]

theorem itemPlaceholders_append (a b : List Item) : itemPlaceholders (a ++ b) = itemPlaceholders a ++ itemPlaceholders b := by
  simp [itemPlaceholders]

theorem groupPlaceholders_flatten (groups : List (List Grouped)) :
    groupPlaceholders groups.flatten = groups.flatMap groupPlaceholders := by
  induction groups with
  | nil => rfl
  | cons first rest ih =>
    rw [List.flatten_cons, List.flatMap_cons, ← ih]
    simp [groupPlaceholders]

theorem itemPlaceholders_groups (groups : List Grouped) :
    itemPlaceholders (groups.map Grouped.item) = groupPlaceholders groups := by
  simp [itemPlaceholders, groupPlaceholders, List.flatMap_map]

theorem itemPlaceholders_flatMap {α : Type} (parts : List α) (items : α → List Item) :
    itemPlaceholders (parts.flatMap items) = parts.flatMap fun part => itemPlaceholders (items part) := by
  simp [itemPlaceholders, List.flatMap_assoc]

theorem aggregateRows_emits {root : TableUse} {ids : List Text} (apart : TellsApart digests boundary)
    (found : resourceFor boundary root.resource.id = .ok root.resource) {plan : RankedAggregatePlan}
    (reviewed : AggregateReviewed digests boundary root.resource plan)
    (covered : RowsCovered ids plan.toAggregateExplorePlan) (period : Option ComparisonPeriod) :
    Emits (aggregateRows digests boundary context plan.toAggregateExplorePlan root ids period) fun rows own =>
      joinPlaceholders rows.joined.joins ++ conditionPlaceholders rows.conditions = own ∧
        RowsOk digests boundary context root ids rows := by
  unfold aggregateRows
  refine (compileScopedRows_emits apart found reviewed covered).bind ?_
  rintro rows own ⟨rfl, ok⟩
  refine (compileEach_emits (Q := fun conditions own => conditionPlaceholders conditions = own ∧
    PlainConditions boundary (Joined.near rows.joined root) conditions) ⟨rfl, by simp [PlainConditions]⟩ ?_).bind ?_
  · intro range _
    refine compileEach_emits ⟨rfl, by simp [PlainConditions]⟩ ?_
    intro comparison member
    refine (rangeSql_emits _ _ _).mono ?_
    rintro conditions own ⟨emitted, only⟩
    have column : Reviewed boundary ⟨rows.joined.tableFor root comparison.relationship, comparison.field, .timeWindow⟩ :=
      reviewed_tableFor ok.joins (covered.comparison comparison member) (reviewed.comparison comparison member)
        fun _ listed => listed
    exact ⟨emitted, plain_of_over only (ok.joins.tableFor (covered.comparison comparison member)).2 column⟩
  rintro compared own ⟨rfl, plain⟩
  refine .pure ⟨by simp [conditionPlaceholders_append], ok.joins,
    occurrence_append ok.occurrence fun condition member => (plain condition member).plain, ?_, ok.found⟩
  intro condition member
  rcases List.mem_append.mp member with member | member
  · exact ok.named condition member
  · exact (plain condition member).named

theorem flatMap_measures {α : Type} {near : List TableUse} {adaptive : Bool} {measures : List AggregateMeasure}
    {results : List α} {items : α → List Item} {resources : α → List BoundaryResource}
    (each : List.Forall₂ (fun measure result =>
      MeasureOk boundary context near adaptive measure.2 (items result) (resources result)) measures.zipIdx results) :
    SelectOk boundary context near adaptive (results.flatMap items) (results.flatMap resources) := by
  have one : ∀ result ∈ results, ∃ i, MeasureOk boundary context near adaptive i (items result) (resources result) := by
    intro result member
    obtain ⟨measure, -, ok⟩ := forall₂_right each result member
    exact ⟨measure.2, ok⟩
  have children : List.Forall₂ (fun measure result => OwnChild adaptive measure.2 (items result)) measures.zipIdx results :=
    each.imp fun _ _ ok => ok.child
  obtain ⟨nodup, names⟩ := childNames_nodup children
  refine ⟨ItemsOk.flatMap fun result member => ?_, ?_, nodup, fun name member => ?_⟩
  · obtain ⟨i, ok⟩ := one result member
    exact ok.fine.mono fun r listed => List.mem_flatMap.mpr ⟨result, member, listed⟩
  · intro r member
    obtain ⟨result, listed, inside⟩ := List.mem_flatMap.mp member
    obtain ⟨i, ok⟩ := one result listed
    exact ok.found r inside
  · obtain ⟨i, -, same⟩ := names name member
    exact ⟨i, same⟩

/-- Items without child counts, before and after those of the measures. -/
theorem SelectOk.around {near : List TableUse} {adaptive : Bool} {before items after : List Item}
    {resources : List BoundaryResource} (ok : SelectOk boundary context near adaptive items resources)
    (first : ItemsOk boundary context near resources before) (firstNames : childNames before = [])
    (last : ItemsOk boundary context near resources after) (lastNames : childNames after = []) :
    SelectOk boundary context near adaptive (before ++ items ++ after) resources := by
  have names : childNames (before ++ items ++ after) = childNames items := by
    rw [childNames_append, childNames_append, firstNames, lastNames]
    simp
  exact ⟨(first.append ok.fine).append last, ok.found, names ▸ ok.nodup, names ▸ ok.names⟩

theorem aggregateSelect_emits {root : TableUse} {ids : List Text} {joined : Joined} (engine : Engine) (marker : Text)
    (ok : JoinsFor digests boundary context root ids joined)
    (found : resourceFor boundary root.resource.id = .ok root.resource) (activated : Activated digests boundary)
    {plan : RankedAggregatePlan} (reviewed : AggregateReviewed digests boundary root.resource plan)
    (covered : RowsCovered ids plan.toAggregateExplorePlan)
    (measured : ∀ measure ∈ plan.measures, MeasureCovered ids root.resource measure)
    (grouped : ∀ dimension ∈ plan.dimensions, DimensionCovered ids root.resource dimension)
    (period : Option ComparisonPeriod) :
    Emits (aggregateSelect digests boundary context engine marker plan.toAggregateExplorePlan root joined period)
      fun selected own => itemPlaceholders selected.items = own ∧
        SelectOk boundary context (Joined.near joined root) false selected.items selected.resources ∧
        ∀ tokens ∈ selected.groupBy, Quiet boundary (Joined.near joined root) tokens := by
  have indexed : ∀ {α : Type} {l : List α} {p : α × ℕ}, p ∈ l.zipIdx → p.1 ∈ l := fun member =>
    List.fst_mem_of_mem_zipIdx member
  unfold aggregateSelect
  refine (Emits.mapM (fun grouped => placeholders grouped.item.tokens)
    (P := fun _ grouped => GroupedOk boundary (Joined.near joined root) grouped) fun dimension member =>
      dimensionSql_emits ok found activated engine marker (reviewed.dimensions _ (indexed member))
        (grouped _ (indexed member))).bind ?_
  rintro dimensions own ⟨rfl, dimensions_of⟩
  refine (compileEach_emits (Q := fun groups own => groupPlaceholders groups = own ∧
    ∀ grouped ∈ groups, GroupedOk boundary (Joined.near joined root) grouped) ⟨rfl, by simp⟩ ?_).bind ?_
  · intro bucket member
    have one : bucket ∈ plan.timeBucket := (Option.mem_filter_iff.mp member).1
    exact bucketSql_emits ok engine (reviewed.timeBucket bucket one) (covered.timeBucket bucket one)
  rintro buckets own ⟨rfl, buckets_of⟩
  refine (Emits.mapM (fun result => itemPlaceholders result.1) (P := fun measure result =>
    MeasureOk boundary context (Joined.near joined root) false measure.2 result.1 result.2) fun measure member =>
      measureSql_emits ok found activated (reviewed.measures _ (indexed member)) (measured _ (indexed member))).bind ?_
  rintro measures own ⟨rfl, measures_of⟩
  refine (Emits.ask (Q := fun _ own => own = []) fun _ _ => rfl).bind ?_
  rintro ⟨⟩ _ rfl
  have groups : ∀ grouped ∈ dimensions ++ buckets, GroupedOk boundary (Joined.near joined root) grouped := fun grouped member =>
    (List.mem_append.mp member).elim (forall_of_forall₂ dimensions_of grouped) (buckets_of grouped)
  have total : Expression boundary (Joined.near joined root) [lit "COUNT(*)"] :=
    (quiet_of_bare ⟨rfl, rfl, rfl⟩).expression
  refine .pure ⟨?_, (flatMap_measures measures_of).around (itemsOk_groups groups) (childNames_groups groups)
    (itemsOk_item total) rfl, ?_⟩
  · simp [itemPlaceholders, groupPlaceholders, List.flatMap_map, List.flatMap_assoc, item_placeholders]
  · intro tokens member
    obtain ⟨grouped, listed, rfl⟩ := List.mem_map.mp member
    exact (groups grouped listed).groupBy

/-! ### Text around the select list -/

@[simp] theorem bare_nil : Bare [] := ⟨rfl, rfl, rfl⟩

@[simp] theorem bare_append {a b : Tokens} : Bare (a ++ b) ↔ Bare a ∧ Bare b := by
  simp only [Bare, placeholders_append, tables_append, columns_append, List.append_eq_nil_iff]
  tauto

@[simp] theorem bare_lit {s : String} {rest : Tokens} : Bare (lit s :: rest) ↔ Bare rest := Iff.rfl

@[simp] theorem bare_text {t : Text} {rest : Tokens} : Bare (.text t :: rest) ↔ Bare rest := Iff.rfl

@[simp] theorem bare_natText {n : ℕ} {rest : Tokens} : Bare (natText n :: rest) ↔ Bare rest := Iff.rfl

@[simp] theorem bare_label {t : Text} {rest : Tokens} : Bare (.label t :: rest) ↔ Bare rest := Iff.rfl

@[simp] theorem bare_outer (s : String) (name : Text) : Bare (outer s name) := ⟨rfl, rfl, rfl⟩

theorem bare_separated {separator : String} {parts : List Tokens} (each : ∀ part ∈ parts, Bare part) :
    Bare (separated separator parts) := by
  refine ⟨?_, ?_, ?_⟩
  · simpa [List.flatMap_eq_nil_iff] using fun part member => (each part member).1
  · simpa [List.flatMap_eq_nil_iff] using fun part member => (each part member).2.1
  · simpa [List.flatMap_eq_nil_iff] using fun part member => (each part member).2.2

@[simp] theorem bare_integerCast {engine : Engine} {expression : Tokens} :
    Bare (integerCast engine expression) ↔ Bare expression := by
  simp [integerCast]

theorem groupByTokens_quiet {near : List TableUse} {keyword : String} {groupBy : List Tokens}
    (each : ∀ tokens ∈ groupBy, Quiet boundary near tokens) : Quiet boundary near (groupByTokens keyword groupBy) := by
  unfold groupByTokens
  split
  · exact quiet_of_bare bare_nil
  · exact (quiet_of_bare (show Bare [lit keyword] from ⟨rfl, rfl, rfl⟩)).append (quiet_separated each)

theorem orderTokens_quiet {near : List TableUse} {orderBy : Option AggregateOrder} {byTime : Bool} {groupBy : List Tokens}
    (each : ∀ tokens ∈ groupBy, Quiet boundary near tokens) : Quiet boundary near (orderTokens orderBy byTime groupBy) := by
  unfold orderTokens
  split
  · exact quiet_of_bare ⟨rfl, rfl, rfl⟩
  · split
    · exact quiet_of_bare ⟨rfl, rfl, rfl⟩
    · exact groupByTokens_quiet each
  · exact groupByTokens_quiet each

theorem bucketExpressions_bare (engine : Engine) (policy : AutoBandPolicy) (buckets : ℕ) (method : Text) :
    Bare (bucketExpressions engine policy buckets method).1 ∧ Bare (bucketExpressions engine policy buckets method).2 := by
  unfold bucketExpressions
  split <;> simp

theorem labeledQuery_bare (rounded : Bool) : Bare (labeledQuery rounded) := by
  cases rounded <;> simp [labeledQuery]

theorem outerSelect_bare {near : List TableUse} {plan : AggregateExplorePlan} {measures : List Projected} (rounded : Bool)
    (each : ∀ projected ∈ measures, ∃ i, ProjectedOk boundary context near i projected) :
    (∀ tokens ∈ (outerSelect plan measures rounded).1, Bare tokens) ∧
      ∀ tokens ∈ (outerSelect plan measures rounded).2, Bare tokens := by
  have measured : ∀ measure ∈ measures.zipIdx, ∀ tokens ∈ outerMeasure measure, Bare tokens := by
    intro measure member tokens inside
    obtain ⟨i, ok⟩ := each measure.1 (List.fst_mem_of_mem_zipIdx member)
    unfold outerMeasure at inside
    rcases List.mem_cons.mp inside with rfl | inside
    · simp [ok.value]
    · obtain ⟨contributors, one, rfl⟩ := Option.map_eq_some_iff.mp (Option.mem_toList.mp inside)
      simp [ok.contributors contributors one]
  unfold outerSelect
  constructor
  · intro tokens member
    simp only [List.mem_append, List.mem_map, List.mem_flatMap, Option.mem_toList, List.mem_cons, List.not_mem_nil,
      or_false] at member
    rcases member with (((⟨dimension, -, rfl⟩ | ⟨bucket, -, rfl⟩) | ⟨measure, listed, inside⟩) | rfl | rfl) | inside
    · simp [autoDimension]
    · simp
    · exact measured measure listed tokens inside
    · simp
    · simp
    · unfold roundedItems at inside
      cases rounded with
      | false => simp at inside
      | true =>
        simp only [if_true, List.mem_cons, List.not_mem_nil, or_false] at inside
        rcases inside with rfl | rfl <;> simp
  · intro tokens member
    obtain ⟨index, -, rfl⟩ := List.mem_map.mp member
    simp

theorem outerQuery_quiet {near : List TableUse} (engine : Engine) (plan : RankedAggregatePlan) (policy : AutoBandPolicy)
    (buckets : ℕ) (method : Text) {measures : List Projected}
    (each : ∀ projected ∈ measures, ∃ i, ProjectedOk boundary context near i projected) :
    Quiet boundary near (outerQuery engine plan policy buckets method measures) := by
  have text : ∀ {tokens : Tokens}, Bare tokens → Quiet boundary near tokens := fun bare => quiet_of_bare bare
  obtain ⟨bucket, effective⟩ := bucketExpressions_bare engine policy buckets method
  obtain ⟨items, groups⟩ : _ ∧ ∀ tokens ∈ (outerSelect plan.toAggregateExplorePlan measures
      (decide (policy.labelStyle = ascii "rounded"))).2, Bare tokens := outerSelect_bare _ each
  have start : Bare (lit " SELECT " :: separated ", " (outerSelect plan.toAggregateExplorePlan measures
      (decide (policy.labelStyle = ascii "rounded"))).1) := bare_lit.mpr (bare_separated items)
  unfold outerQuery
  have grouped : ∀ tokens ∈ (outerSelect plan.toAggregateExplorePlan measures
      (decide (policy.labelStyle = ascii "rounded"))).2, Quiet boundary near tokens := fun tokens member =>
    text (groups tokens member)
  refine Quiet.append (Quiet.append (text ?_) (groupByTokens_quiet grouped)) (orderTokens_quiet grouped)
  simp only [bare_append, bare_lit, bare_label, bare_nil, and_true, true_and]
  have labeled : Bare (labeledQuery (decide (policy.labelStyle = ascii "rounded"))) := labeledQuery_bare _
  have whole := And.intro (And.intro (And.intro bucket effective) labeled) start
  simpa only [bare_lit] using whole

theorem autoProjection_emits {root : TableUse} {ids : List Text} {joined : Joined} (engine : Engine) (marker : Text)
    (ok : JoinsFor digests boundary context root ids joined)
    (found : resourceFor boundary root.resource.id = .ok root.resource) (activated : Activated digests boundary)
    {plan : RankedAggregatePlan} (reviewed : AggregateReviewed digests boundary root.resource plan)
    (covered : RowsCovered ids plan.toAggregateExplorePlan)
    (measured : ∀ measure ∈ plan.measures, MeasureCovered ids root.resource measure)
    (grouped : ∀ dimension ∈ plan.dimensions, DimensionCovered ids root.resource dimension) {field : Text}
    (method : Text) (band : ReviewedFor boundary root.resource field .autoBand) :
    Emits (autoProjection digests boundary context engine marker plan.toAggregateExplorePlan root joined field method)
      fun projection own => itemPlaceholders projection.items = own ∧
        SelectOk boundary context (Joined.near joined root) true projection.items
          (projection.measures.flatMap Projected.resources) ∧
        ∀ projected ∈ projection.measures, ∃ i, ProjectedOk boundary context (Joined.near joined root) i projected := by
  have indexed : ∀ {α : Type} {l : List α} {p : α × ℕ}, p ∈ l.zipIdx → p.1 ∈ l := fun member =>
    List.fst_mem_of_mem_zipIdx member
  have column : Reviewed boundary ⟨root, field, .autoBand⟩ := ⟨resourceFor_mem found, band⟩
  unfold autoProjection
  refine (columnToken_emits _ _ _).bind ?_
  rintro _ _ ⟨rfl, rfl⟩
  refine (Emits.mapM groupPlaceholders (P := fun _ groups => ∀ grouped ∈ groups,
    GroupedOk boundary (Joined.near joined root) grouped) fun dimension member =>
      projectedDimension_emits ok found activated engine marker _ (reviewed.dimensions _ (indexed member))
        (grouped _ (indexed member))).bind ?_
  rintro dimensions own ⟨rfl, dimensions_of⟩
  refine (compileEach_emits (Q := fun groups own => groupPlaceholders groups = own ∧
    ∀ grouped ∈ groups, GroupedOk boundary (Joined.near joined root) grouped) ⟨rfl, by simp⟩ ?_).bind ?_
  · intro bucket member
    exact projectedBucket_emits ok engine (reviewed.timeBucket bucket member) (covered.timeBucket bucket member)
  rintro buckets own ⟨rfl, buckets_of⟩
  refine (Emits.mapM (fun projected => itemPlaceholders projected.items) (P := fun measure projected =>
    ProjectedOk boundary context (Joined.near joined root) measure.2 projected) fun measure member =>
      projectMeasure_emits ok found activated (reviewed.measures _ (indexed member)) (measured _ (indexed member))).bind ?_
  rintro measures own ⟨rfl, measures_of⟩
  refine (Emits.ask (Q := fun _ own => own = []) fun _ _ => rfl).bind ?_
  rintro ⟨⟩ _ rfl
  have groups : ∀ grouped ∈ dimensions.flatten ++ buckets, GroupedOk boundary (Joined.near joined root) grouped := by
    intro grouped member
    rcases List.mem_append.mp member with member | member
    · obtain ⟨listed, one, inside⟩ := List.mem_flatten.mp member
      exact forall_of_forall₂ dimensions_of listed one grouped inside
    · exact buckets_of grouped member
  have select := flatMap_measures (measures_of.imp fun _ _ ok => ok.measure)
  have near : root ∈ Joined.near joined root := by simp [Joined.near]
  obtain ⟨auto, silent, names⟩ : ItemsOk boundary context (Joined.near joined root)
    (measures.flatMap Projected.resources) _ ∧ _ := autoItems_ok method near column
  have start : childNames (autoItems (.column ⟨root, field, .autoBand⟩) method ++
      (dimensions.flatten ++ buckets).map Grouped.item) = [] := by
    rw [childNames_append, names, childNames_groups groups]
    rfl
  have all := select.around (auto.append (itemsOk_groups groups)) start itemsOk_nil rfl
  rw [List.append_nil] at all
  refine .pure ⟨?_, all, fun projected member => ?_⟩
  · have one : itemPlaceholders (autoItems (.column ⟨root, field, .autoBand⟩) method ++
        (dimensions.flatten ++ buckets).map Grouped.item ++ measures.flatMap Projected.items) =
        groupPlaceholders dimensions.flatten ++ groupPlaceholders buckets ++
          measures.flatMap fun projected => itemPlaceholders projected.items := by
      rw [itemPlaceholders_append, itemPlaceholders_append, silent, List.map_append, itemPlaceholders_append,
        itemPlaceholders_groups, itemPlaceholders_groups, itemPlaceholders_flatMap]
      rfl
    rw [one, groupPlaceholders_flatten]
    simp
  · obtain ⟨measure, -, ok⟩ := forall₂_right measures_of projected member
    exact ⟨measure.2, ok⟩

/-! ### Statements of aggregates -/

/-- The resources of an aggregate. -/
def aggregateResources (rows : ScopedRows) (more : List BoundaryResource) : List BoundaryResource :=
  uniqueResources (uniqueResources rows.joined.resources ++ rows.resources ++ more)

theorem mem_aggregateResources {root : TableUse} {ids : List Text} {rows : ScopedRows} {more : List BoundaryResource}
    (ok : RowsOk digests boundary context root ids rows) (found : AllFound boundary more) {r : BoundaryResource} :
    r ∈ aggregateResources rows more ↔ r ∈ rows.joined.resources ∨ r ∈ rows.resources ∨ r ∈ more := by
  have joined : ∀ {r}, r ∈ uniqueResources rows.joined.resources ↔ r ∈ rows.joined.resources :=
    mem_uniqueResources ok.joins.found
  have all : AllFound boundary (uniqueResources rows.joined.resources ++ rows.resources ++ more) := by
    intro r member
    simp only [List.mem_append, joined] at member
    rcases member with (member | member) | member
    · exact ok.joins.found r member
    · exact ok.found r member
    · exact found r member
  unfold aggregateResources
  rw [mem_uniqueResources all, List.mem_append, List.mem_append, joined, or_assoc]

/-- Rows and a select list that are right, between texts that name only what is at hand. -/
theorem inside_assembled {resource : BoundaryResource} {ids : List Text} {rows : ScopedRows} {items : List Item}
    {more : List BoundaryResource} {adaptive : Bool} {engine : Engine} {query : CompiledExploreQuery} {start stop : Tokens}
    {limit : List (Placeholder Parameter)} (ok : RowsOk digests boundary context ⟨.root, resource⟩ ids rows)
    (select : SelectOk boundary context (Joined.near rows.joined ⟨.root, resource⟩) adaptive items more)
    (before : Bare start) (after : Expression boundary (Joined.near rows.joined ⟨.root, resource⟩) stop)
    (emitted : placeholders stop = limit)
    (assembled : query.statement = ⟨start, items, ⟨.root, resource⟩, rows.joined.joins, rows.conditions, stop⟩)
    (used : query.resources = aggregateResources rows more)
    (bound : BoundInOrder query.params (itemPlaceholders items ++
      (joinPlaceholders rows.joined.joins ++ conditionPlaceholders rows.conditions) ++ limit) engine) :
    Inside boundary context engine query := by
  have listed : ∀ {r}, r ∈ query.resources ↔ r ∈ rows.joined.resources ∨ r ∈ rows.resources ∨ r ∈ more := by
    rw [used]
    exact mem_aggregateResources ok select.found
  have occurrences : query.statement.occurrences = (⟨.root, resource⟩, rows.conditions) ::
      rows.joined.joins.map (fun join => (join.table, join.conditions)) ++
        items.filterMap fun i => i.child.map fun child => (child.table, child.conditions) := by
    rw [assembled]
    rfl
  have child_of : ∀ {o : TableUse × List Condition},
      o ∈ items.filterMap (fun i => i.child.map fun child => (child.table, child.conditions)) →
      OccurrenceOk boundary context more o ∧ o.1.name ∈ childNames items := by
    intro o member
    obtain ⟨i, one, same⟩ := List.mem_filterMap.mp member
    obtain ⟨child, two, rfl⟩ := Option.map_eq_some_iff.mp same
    refine ⟨select.fine.children i one child two, List.mem_filterMap.mpr ⟨i, one, ?_⟩⟩
    rw [two]
    rfl
  have names : query.statement.occurrences.map (fun o => o.1.name) =
      .root :: (List.range' 1 rows.joined.joins.length).map TableName.joined ++ childNames items := by
    rw [occurrences, ← ok.joins.names]
    simp [childNames, Function.comp_def, List.map_filterMap]
  have nearby : ∀ t ∈ Joined.near rows.joined ⟨.root, resource⟩, t ∈ query.statement.occurrences.map Prod.fst := by
    intro t near
    rw [occurrences]
    rcases List.mem_cons.mp near with rfl | near
    · simp
    · obtain ⟨join, one, rfl⟩ := List.mem_map.mp near
      simp only [List.map_append, List.map_cons, List.map_map, List.mem_append, List.mem_cons, List.mem_map]
      exact .inl (.inr ⟨join, one, rfl⟩)
  refine inside_of_parts ?_ ?_ ?_ ?_ ?_ ?_ ?_ nearby ?_
  · rw [placeholders_statement, assembled, before.1]
    simpa [emitted] using bound
  · rw [assembled]
    exact before.2.1
  · rw [assembled]
    exact after.plain
  · rw [assembled]
    exact select.fine.plain
  · intro o member
    rw [occurrences, List.mem_append, List.mem_cons] at member
    rcases member with (rfl | member) | member
    · exact ok.occurrence.mono fun r one => listed.mpr (.inr (.inl one))
    · obtain ⟨join, one, rfl⟩ := List.mem_map.mp member
      have fine := ok.joins.joins join one
      have own : OccurrenceOk boundary context rows.joined.resources (join.table, join.conditions) :=
        ⟨fine.held, fine.own, fine.listed, fine.distinct, fine.names⟩
      exact own.mono fun r one => listed.mpr (.inl one)
    · exact (child_of member).1.mono fun r one => listed.mpr (.inr (.inr one))
  · rw [names, List.nodup_append', List.nodup_cons]
    refine ⟨⟨by simp, List.Nodup.map (fun _ _ same => TableName.joined.inj same) List.nodup_range'⟩, select.nodup, ?_⟩
    intro name left right
    obtain ⟨i, rfl⟩ := select.names name right
    simp at left
  · intro o member
    have inside : o.1.name ∈ query.statement.occurrences.map fun o => o.1.name := List.mem_map_of_mem member
    rw [names, List.mem_append, List.mem_cons, List.mem_map] at inside
    rcases inside with (same | ⟨i, -, same⟩) | inside
    · rw [same]
      rfl
    · rw [← same]
      rfl
    · obtain ⟨i, same⟩ := select.names _ inside
      rw [same]
      rfl
  · intro column member
    rw [columns_statement, assembled] at member
    simp only [before.2.2, List.nil_append, List.mem_append, List.mem_flatMap] at member
    rcases member with ((⟨i, one, member⟩ | ⟨join, one, condition, two, member⟩) | ⟨condition, one, member⟩) | member
    · obtain ⟨near, reviewed⟩ := select.fine.named i one column member
      refine ⟨near.imp_right fun inside => mem_tables_statement (.inl ⟨i, ?_, inside⟩), reviewed⟩
      rw [assembled]
      exact one
    · obtain ⟨near, reviewed⟩ := (ok.joins.joins join one).named condition two column member
      refine ⟨near.imp_right fun inside => mem_tables_statement (.inr (.inl ⟨join, ?_, condition, two, inside⟩)), reviewed⟩
      rw [assembled]
      exact one
    · obtain ⟨near, reviewed⟩ := ok.named condition one column member
      refine ⟨near.imp_right fun inside => mem_tables_statement (.inr (.inr ⟨condition, ?_, inside⟩)), reviewed⟩
      rw [assembled]
      exact one
    · obtain ⟨near, reviewed⟩ := after.columns column member
      exact ⟨.inl near, reviewed⟩

theorem limitTokens_emits (rows : ℕ) : Emits (limitTokens rows) fun tokens own =>
    placeholders tokens = own ∧ tables tokens = [] ∧ columns tokens = [] := by
  unfold limitTokens
  refine (valueToken_emits _).bind ?_
  rintro _ _ ⟨index, rfl, rfl⟩
  exact .pure ⟨rfl, rfl, rfl⟩

theorem expression_append {near : List TableUse} {a b : Tokens} (one : Expression boundary near a)
    (plain : tables b = []) (none : columns b = []) : Expression boundary near (a ++ b) := by
  refine ⟨by simp [one.plain, plain], fun column member => one.columns column ?_⟩
  simpa [none] using member

/-- The parameters that are bound from the start: those of the rows, of the select list and
    the limit. -/
theorem bound_parts {rows select limit : List (Placeholder Parameter)} (one : Continues 0 rows)
    (two : Continues rows.length select) (three : Continues (rows.length + select.length) limit) (engine : Engine) :
    BoundInOrder (inTextOrder engine (rows.map Placeholder.value).length
        (rows.map Placeholder.value ++ select.map Placeholder.value).length
        (rows.map Placeholder.value ++ select.map Placeholder.value ++ limit.map Placeholder.value))
      (select ++ rows ++ limit) engine := by
  have all : Continues 0 (rows ++ select ++ limit) := by
    have first : Continues 0 (rows ++ select) := one.append (by simpa using two)
    exact first.append (by simpa using three)
  simpa [List.append_assoc] using bound_inTextOrder all engine

theorem compilePlainAggregate_inside {resource : BoundaryResource} {plan : RankedAggregatePlan} {engine : Engine}
    {marker : Text} {period : Option ComparisonPeriod} {query : CompiledExploreQuery}
    (activated : Activated digests boundary) (apart : TellsApart digests boundary)
    (reviewed : AggregateReviewed digests boundary resource plan)
    (compiled : compilePlainAggregate digests boundary context engine marker plan resource period = .ok query) :
    Inside boundary context engine query := by
  have self : resourceFor boundary resource.id = .ok resource := resourceFor_self reviewed.found
  let root : TableUse := ⟨.root, resource⟩
  have found : resourceFor boundary root.resource.id = .ok root.resource := self
  unfold compilePlainAggregate at compiled
  obtain ⟨ids, named, compiled⟩ := bind_eq_ok compiled
  obtain ⟨rowsCovered, measured, grouped⟩ := relationshipIds_covers activated (resourceFor_mem self) named
  obtain ⟨⟨rows, afterRows⟩, rowsRun, compiled⟩ := bind_eq_ok compiled
  obtain ⟨rowsOwn, one, rfl, rowsEmitted, rowsOk⟩ :=
    aggregateRows_emits apart found reviewed rowsCovered period [] _ _ rowsRun
  obtain ⟨⟨selected, afterSelect⟩, selectRun, compiled⟩ := bind_eq_ok compiled
  obtain ⟨selectOwn, two, rfl, selectEmitted, select, groupBy⟩ :=
    aggregateSelect_emits engine marker rowsOk.joins found activated reviewed rowsCovered measured grouped period _ _ _
      selectRun
  obtain ⟨⟨limit, params⟩, limitRun, compiled⟩ := bind_eq_ok compiled
  obtain ⟨limitOwn, three, rfl, limitEmitted, plain, none⟩ := limitTokens_emits _ _ _ _ limitRun
  cases compiled
  have ends : Quiet boundary (Joined.near rows.joined ⟨.root, resource⟩)
      (groupByTokens " GROUP BY " selected.groupBy ++ orderTokens plan.orderBy period.isNone selected.groupBy) :=
    (groupByTokens_quiet groupBy).append (orderTokens_quiet groupBy)
  have stopped := (placeholders_append _ limit).trans (congrArg₂ _ ends.silent limitEmitted)
  refine inside_assembled rowsOk select bare_nil (expression_append ends.expression plain none) stopped rfl rfl ?_
  rw [selectEmitted, rowsEmitted]
  simpa using bound_parts one (by simpa using two) (by simpa using three) engine

theorem compileAutoBandAggregatePlan_inside {resource : BoundaryResource} {plan : RankedAggregatePlan} {engine : Engine}
    {marker : Text} {period : Option ComparisonPeriod} {field : Text} {buckets : ℕ} {method : Text}
    {query : CompiledExploreQuery} (activated : Activated digests boundary) (apart : TellsApart digests boundary)
    (reviewed : AggregateReviewed digests boundary resource plan)
    (compiled : compileAutoBandAggregatePlan digests boundary context engine marker plan resource period field buckets
      method = .ok query) :
    Inside boundary context engine query := by
  have self : resourceFor boundary resource.id = .ok resource := resourceFor_self reviewed.found
  let root : TableUse := ⟨.root, resource⟩
  have found : resourceFor boundary root.resource.id = .ok root.resource := self
  unfold compileAutoBandAggregatePlan at compiled
  obtain ⟨-, -, compiled⟩ := bind_eq_ok compiled
  obtain ⟨policy, banded, compiled⟩ := bind_eq_ok compiled
  have band := autoBand_reviewed (resourceFor_mem self) activated banded
  obtain ⟨ids, named, compiled⟩ := bind_eq_ok compiled
  obtain ⟨rowsCovered, measured, grouped⟩ := relationshipIds_covers activated (resourceFor_mem self) named
  obtain ⟨⟨rows, afterRows⟩, rowsRun, compiled⟩ := bind_eq_ok compiled
  obtain ⟨rowsOwn, one, rfl, rowsEmitted, rowsOk⟩ :=
    compileScopedRows_emits apart found reviewed rowsCovered [] _ _ rowsRun
  obtain ⟨⟨projection, afterSelect⟩, selectRun, compiled⟩ := bind_eq_ok compiled
  obtain ⟨selectOwn, two, rfl, selectEmitted, select, projected⟩ :=
    autoProjection_emits engine marker rowsOk.joins found activated reviewed rowsCovered measured grouped method band _ _ _
      selectRun
  obtain ⟨⟨limit, params⟩, limitRun, compiled⟩ := bind_eq_ok compiled
  obtain ⟨limitOwn, three, rfl, limitEmitted, plain, none⟩ := limitTokens_emits _ _ _ _ limitRun
  cases compiled
  have ends := outerQuery_quiet engine plan policy buckets method projected
  have stopped := (placeholders_append _ limit).trans (congrArg₂ _ ends.silent limitEmitted)
  refine inside_assembled rowsOk select ⟨rfl, rfl, rfl⟩ (expression_append ends.expression plain none) stopped rfl rfl ?_
  rw [selectEmitted, rowsEmitted]
  simpa using bound_parts one (by simpa using two) (by simpa using three) engine

theorem compileAggregatePlan_inside {resource : BoundaryResource} {plan : RankedAggregatePlan} {engine : Engine}
    {marker : Text} {period : Option ComparisonPeriod} {query : CompiledExploreQuery}
    (activated : Activated digests boundary) (apart : TellsApart digests boundary)
    (reviewed : AggregateReviewed digests boundary resource plan)
    (compiled : compileAggregatePlan digests boundary context engine marker plan period = .ok query) :
    Inside boundary context engine query := by
  unfold compileAggregatePlan at compiled
  obtain ⟨found, leads, compiled⟩ := bind_eq_ok compiled
  obtain rfl := Except.ok.inj (reviewed.found.symm.trans leads)
  split at compiled
  · exact compileAutoBandAggregatePlan_inside activated apart reviewed compiled
  · exact compilePlainAggregate_inside activated apart reviewed compiled

/-- The filters of a row plan are reviewed on the resource of the plan itself. -/
def FiltersOfRoot (boundary : ActivatedExplorationBoundary) : ExplorePlan → Prop
  | .rows plan => ∀ resource, resourceFor boundary plan.resource = .ok resource →
      ∀ filter ∈ plan.filters, filter.op ∈ (entry resource.filterableFields filter.field).getD []
  | .aggregate _ => True

end

/-! ### Orders of customers -/

def bare (id : Text) : BoundaryResource where
  id := id
  schema := ascii "public"
  table := id
  primaryKey := ascii "id"
  tenantKey := some (ascii "tenant")
  tenantScope := none
  sharedReferenceScope := false
  principalKey := none
  principalScope := none
  fieldTypes := []
  fieldEnums := []
  selectableFields := [ascii "id"]
  filterableFields := []
  sortableFields := []
  groupableFields := []
  aggregateMeasures := []
  aggregateMeasureFunctions := none
  presenceMeasureFields := []
  derivedMeasures := []
  numericBands := []
  autoBands := []
  countDistinctFields := []
  timeBucketFields := []
  keptOutFields := []
  modelWithheldFields := []
  relationships := []
  rlsSession := none
  minimumCohortSize := 5

def ofCustomer : ExplorationRelationship where
  id := ascii "customer"
  targetResource := ascii "customers"
  localColumns := [ascii "customer_id"]
  targetColumns := [ascii "id"]
  cardinality := manyToOne
  maxFanOut := 1
  pathDepth := none
  proof := none
  unmatchedRows := none

/-- The status of an order is kept out; that of a customer is reviewed. -/
def orders : BoundaryResource :=
  { bare (ascii "orders") with keptOutFields := [ascii "status"], relationships := [ofCustomer] }

def customers : BoundaryResource :=
  { bare (ascii "customers") with filterableFields := [(ascii "status", [.eq])], groupableFields := [ascii "status"] }

def sales : ActivatedExplorationBoundary :=
  ⟨ascii "sales", ascii "d", [orders, customers],
    ⟨50, 50, none, 25, 3, 3, 2, 2, none, none, 500, 65536, 3000, 24, 1000, 4000, 16, 120⟩, false, none⟩

/-- Digests that tell links apart by their number. -/
def counting : Digests := ⟨fun _ => [], fun _ _ => [], fun _ links => links.flatMap fun _ => ascii "l"⟩

def noDates : Dates := ⟨fun _ => none, fun _ => false, fun _ => false, fun _ _ => none, fun _ _ _ => none⟩

def related (rest : List (Text × Json)) : Json :=
  .object ((ascii "relationship", .string (ascii "customer")) :: (ascii "field", .string (ascii "status")) :: rest)

def relatedFilter : Json :=
  .array [related [(ascii "op", .string (ascii "eq")), (ascii "value", .string (ascii "vip"))]]

def filteredRows : Json :=
  .object [(ascii "kind", .string (ascii "rows")), (ascii "resource", .string (ascii "orders")),
    (ascii "select", .array [.string (ascii "id")]), (ascii "where", relatedFilter)]

def filteredCounts : Json :=
  .object [(ascii "kind", .string (ascii "aggregate")), (ascii "resource", .string (ascii "orders")),
    (ascii "measures", .array [.object [(ascii "function", .string (ascii "count"))]]),
    (ascii "dimensions", .array [related []]), (ascii "where", relatedFilter)]

def annAtAcme : TrustedContext := ⟨ascii "acme", ascii "ann"⟩

theorem sales_activated : Activated counting sales := by
  refine ⟨?_, ?_, ?_⟩ <;> decide

theorem sales_apart : TellsApart counting sales := by
  intro root inside keepNull keepNull' links links' one two same
  have length : links.length = links'.length := by
    simpa [counting, show ascii "l" ≠ [] by decide] using congrArg List.length same
  obtain ⟨relationship, listed, all, linked, first⟩ := one
  obtain ⟨other, listed', all', linked', second⟩ := two
  have only : relationship = other := by
    have shape : root = orders ∨ root = customers := by simpa [sales] using inside
    rcases shape with rfl | rfl
    · rw [List.mem_singleton.mp listed, List.mem_singleton.mp listed']
    · cases listed
  subst only
  obtain rfl := Except.ok.inj (linked.symm.trans linked')
  exact (List.prefix_of_prefix_length_le first second length.le).eq_of_length length

end SynapsorRunner.ExploreInside
