import SynapsorRunner.ExploreSelects

/-!
The groups of an aggregate, what an adaptive band projects before it groups, and the rows
that both are over. The rows of the root are held to its scope, and every further condition
is over a reviewed column of a joined table (`compileScopedRows_emits`).
-/
namespace SynapsorRunner.ExploreProjections
open SynapsorRunner.NumberText SynapsorRunner.Proposals SynapsorRunner.ExploreBoundaries SynapsorRunner.ExplorePlans
open SynapsorRunner.NumberedParameters SynapsorRunner.ExploreSql SynapsorRunner.ExploreCompiler
open SynapsorRunner.ExploreScopes SynapsorRunner.ExploreJoins SynapsorRunner.ExploreStatements
open SynapsorRunner.ExploreExpressions SynapsorRunner.ExploreSelects SynapsorRunner.ReviewedPlans
open SynapsorRunner.Protocol (Engine)
open SynapsorRunner.ComplementReleases (ExploreFilter AggregateMeasureFunction AggregateMeasure AggregateDimension
  TimeBucket CanonicalTimeWindow AggregateExplorePlan mem_of_mapM_ok)

section
variable {digests : Digests} {boundary : ActivatedExplorationBoundary} {context : TrustedContext} {root : TableUse}
  {joined : Joined} {ids : List Text}

/-! ### Groups -/

/-- A group: an expression under a name, and what it is grouped by. -/
structure GroupedOk (boundary : ActivatedExplorationBoundary) (near : List TableUse) (grouped : Grouped) : Prop where
  item : ∃ tokens name, grouped.item = ExploreCompiler.item tokens name ∧ Expression boundary near tokens
  groupBy : Quiet boundary near grouped.groupBy

/-- The placeholders of some groups. -/
def groupPlaceholders (groups : List Grouped) : List (Placeholder Parameter) :=
  groups.flatMap fun grouped => placeholders grouped.item.tokens

theorem itemsOk_groups {near : List TableUse} {resources : List BoundaryResource} {groups : List Grouped}
    (each : ∀ grouped ∈ groups, GroupedOk boundary near grouped) :
    ItemsOk boundary context near resources (groups.map Grouped.item) := by
  rw [← List.flatMap_singleton' (groups.map Grouped.item), List.flatMap_map]
  refine ItemsOk.flatMap fun grouped member => ?_
  obtain ⟨tokens, name, same, expression⟩ := (each grouped member).item
  rw [same]
  exact itemsOk_item expression

theorem childNames_groups {near : List TableUse} {groups : List Grouped}
    (each : ∀ grouped ∈ groups, GroupedOk boundary near grouped) : childNames (groups.map Grouped.item) = [] := by
  unfold childNames
  rw [List.filterMap_eq_nil_iff]
  intro i member
  obtain ⟨grouped, listed, rfl⟩ := List.mem_map.mp member
  obtain ⟨tokens, name, same, -⟩ := (each grouped listed).item
  rw [same]
  rfl

/-- The relationships of a dimension are joined. -/
def DimensionCovered (ids : List Text) (resource : BoundaryResource) : AggregateDimension → Prop
  | .field _ relationship => ∀ id, given relationship = some id → id ∈ ids
  | .numericBand name => ∀ band, reviewedNumericBand resource name = .ok band →
      ∀ id, given band.relationship = some id → id ∈ ids
  | .autoBand .. => True

theorem bandTokens_emits (ok : JoinsFor digests boundary context root ids joined)
    (found : resourceFor boundary root.resource.id = .ok root.resource) (activated : Activated digests boundary)
    {name : Text} {band : NumericBand} (named : reviewedNumericBand root.resource name = .ok band)
    (covered : ∀ id, given band.relationship = some id → id ∈ ids) :
    Emits (reviewedNumericBandSql band (joined.tableFor root band.relationship)) fun tokens own =>
      placeholders tokens = own ∧ Expression boundary (Joined.near joined root) tokens := by
  obtain ⟨leads, near⟩ := ok.tableFor covered
  refine (reviewedNumericBandSql_emits band _).mono ?_
  rintro tokens own ⟨emitted, only⟩
  exact ⟨emitted, only.expression near (reviewed_near ok.toJoinsOk near
    (band_reviewed (resourceFor_mem found) found activated (reviewedNumericBand_mem named) leads))⟩

theorem groupColumn (ok : JoinsFor digests boundary context root ids joined) {field : Text} {relationship : Option Text}
    (reviewed : DimensionReviewed digests boundary root.resource (.field field relationship))
    (covered : ∀ id, given relationship = some id → id ∈ ids) :
    Reviewed boundary ⟨joined.tableFor root relationship, field, .group⟩ :=
  reviewed_tableFor ok covered reviewed fun _ listed => listed

theorem dimensionSql_emits (ok : JoinsFor digests boundary context root ids joined)
    (found : resourceFor boundary root.resource.id = .ok root.resource) (activated : Activated digests boundary)
    (engine : Engine) (marker : Text) {dimension : AggregateDimension × ℕ}
    (reviewed : DimensionReviewed digests boundary root.resource dimension.1)
    (covered : DimensionCovered ids root.resource dimension.1) :
    Emits (dimensionSql engine marker root joined dimension) fun grouped own =>
      placeholders grouped.item.tokens = own ∧ GroupedOk boundary (Joined.near joined root) grouped := by
  obtain ⟨dimension, index⟩ := dimension
  have bare : Bare [Token.text (ascii (toString (index + 1)))] := ⟨rfl, rfl, rfl⟩
  cases dimension with
  | autoBand field buckets method => exact .ask fun _ refused => by cases refused
  | numericBand name =>
    rw [dimensionSql]
    refine (Emits.ask (Q := fun band own => own = [] ∧ reviewedNumericBand root.resource name = .ok band)
      fun _ ok => ⟨rfl, ok⟩).bind ?_
    rintro band _ ⟨rfl, named⟩
    refine (bandTokens_emits ok found activated named (covered band named)).bind ?_
    rintro tokens own ⟨rfl, expression⟩
    exact .pure ⟨by simp [item_placeholders], ⟨tokens, _, rfl, expression⟩, quiet_of_bare bare⟩
  | field field relationship =>
    have near := (ok.tableFor covered).2
    have column := groupColumn ok reviewed covered
    simp only [dimensionSql]
    split
    · refine (reviewedEnumBucketSql_emits engine field _ marker).bind ?_
      rintro tokens own ⟨rfl, only⟩
      exact .pure ⟨by simp [item_placeholders], ⟨tokens, _, rfl, only.expression near column⟩, quiet_of_bare bare⟩
    · refine (columnToken_emits _ _ _).bind ?_
      rintro _ _ ⟨rfl, rfl⟩
      have quiet := quiet_column near column
      exact .pure ⟨by simp [item_placeholders], ⟨_, _, rfl, quiet.expression⟩, quiet⟩

theorem bucketColumn (ok : JoinsFor digests boundary context root ids joined) {bucket : TimeBucket}
    (reviewed : BucketReviewed digests boundary root.resource bucket)
    (covered : ∀ id, given bucket.relationship = some id → id ∈ ids) :
    Reviewed boundary ⟨joined.tableFor root bucket.relationship, bucket.field, .timeBucket bucket.bucket⟩ :=
  reviewed_tableFor ok covered reviewed fun _ listed => listed

theorem bucketSql_emits (ok : JoinsFor digests boundary context root ids joined) (engine : Engine) {bucket : TimeBucket}
    (reviewed : BucketReviewed digests boundary root.resource bucket)
    (covered : ∀ id, given bucket.relationship = some id → id ∈ ids) :
    Emits (bucketSql engine root joined bucket) fun groups own =>
      groupPlaceholders groups = own ∧ ∀ grouped ∈ groups, GroupedOk boundary (Joined.near joined root) grouped := by
  unfold bucketSql
  refine (columnToken_emits _ _ _).bind ?_
  rintro _ _ ⟨rfl, rfl⟩
  obtain ⟨silent, only⟩ := timeBucketSql_over engine
    ⟨joined.tableFor root bucket.relationship, bucket.field, .timeBucket bucket.bucket⟩ bucket.bucket
  have expression := only.expression (ok.tableFor covered).2 (bucketColumn ok reviewed covered)
  refine .pure ⟨by simp [groupPlaceholders, item_placeholders, silent], fun grouped member => ?_⟩
  rw [List.mem_singleton] at member
  subst member
  exact ⟨⟨_, _, rfl, expression⟩, silent, expression⟩

/-! ### What an adaptive band projects -/

theorem autoItems_ok {near : List TableUse} {resources : List BoundaryResource} {column : ColumnUse} (method : Text)
    (listed : column.table ∈ near) (reviewed : Reviewed boundary column) :
    ItemsOk boundary context near resources (autoItems (.column column) method) ∧
      itemPlaceholders (autoItems (.column column) method) = [] ∧ childNames (autoItems (.column column) method) = [] := by
  have fine : ∀ tokens : Tokens, tables tokens = [] → (∀ c ∈ columns tokens, c = column) → ∀ name,
      ItemsOk boundary context near resources [item tokens name] := fun tokens plain only name =>
    itemsOk_item (Over.expression ⟨plain, only⟩ listed reviewed)
  unfold autoItems
  split
  · refine ⟨?_, by simp [itemPlaceholders, item_placeholders], rfl⟩
    exact (fine _ rfl (by simp) _).append (fine _ rfl (by simp) _)
  · refine ⟨?_, by simp [itemPlaceholders, item_placeholders], rfl⟩
    exact (fine _ rfl (by simp) _).append ((fine _ rfl (by simp) _).append (fine _ rfl (by simp) _))

theorem projectedDimension_emits (ok : JoinsFor digests boundary context root ids joined)
    (found : resourceFor boundary root.resource.id = .ok root.resource) (activated : Activated digests boundary)
    (engine : Engine) (marker : Text) (autoIndex : ℕ) {dimension : AggregateDimension × ℕ}
    (reviewed : DimensionReviewed digests boundary root.resource dimension.1)
    (covered : DimensionCovered ids root.resource dimension.1) :
    Emits (projectedDimension engine marker root joined autoIndex dimension) fun groups own =>
      groupPlaceholders groups = own ∧ ∀ grouped ∈ groups, GroupedOk boundary (Joined.near joined root) grouped := by
  obtain ⟨dimension, index⟩ := dimension
  have bare : Bare [] := ⟨rfl, rfl, rfl⟩
  have single : ∀ {tokens : Tokens} (name : Text) (controls : List ReviewedValueControl),
      Expression boundary (Joined.near joined root) tokens →
      groupPlaceholders [⟨item tokens name, [], controls⟩] = placeholders tokens ∧
      ∀ grouped ∈ [(⟨item tokens name, [], controls⟩ : Grouped)], GroupedOk boundary (Joined.near joined root) grouped := by
    intro tokens name controls expression
    refine ⟨by simp [groupPlaceholders, item_placeholders], fun grouped member => ?_⟩
    rw [List.mem_singleton] at member
    subst member
    exact ⟨⟨tokens, name, rfl, expression⟩, quiet_of_bare bare⟩
  cases dimension with
  | autoBand field buckets method =>
    refine .ask fun groups taken => ?_
    split at taken
    · cases taken
      exact ⟨rfl, by simp⟩
    · cases taken
  | numericBand name =>
    rw [projectedDimension]
    refine (Emits.ask (Q := fun band own => own = [] ∧ reviewedNumericBand root.resource name = .ok band)
      fun _ ok => ⟨rfl, ok⟩).bind ?_
    rintro band _ ⟨rfl, named⟩
    refine (bandTokens_emits ok found activated named (covered band named)).bind ?_
    rintro tokens own ⟨rfl, expression⟩
    obtain ⟨emitted, fine⟩ := single (numbered "__dimension_" index) [] expression
    exact .pure ⟨by simp [emitted], fine⟩
  | field field relationship =>
    have near := (ok.tableFor covered).2
    have column := groupColumn ok reviewed covered
    simp only [projectedDimension]
    split
    · refine (reviewedEnumBucketSql_emits engine field _ marker).bind ?_
      rintro tokens own ⟨rfl, only⟩
      obtain ⟨emitted, fine⟩ := single (numbered "__dimension_" index)
        [.bucketUnreviewedValues (joined.tableFor root relationship).resource.id field
          (numbered "dimension_" index) marker] (only.expression near column)
      exact .pure ⟨by simp [emitted], fine⟩
    · refine (columnToken_emits _ _ _).bind ?_
      rintro _ _ ⟨rfl, rfl⟩
      obtain ⟨emitted, fine⟩ := single (numbered "__dimension_" index) []
        (quiet_column near column).expression
      exact .pure ⟨emitted, fine⟩

theorem projectedBucket_emits (ok : JoinsFor digests boundary context root ids joined) (engine : Engine)
    {bucket : TimeBucket} (reviewed : BucketReviewed digests boundary root.resource bucket)
    (covered : ∀ id, given bucket.relationship = some id → id ∈ ids) :
    Emits (projectedBucket engine root joined bucket) fun groups own =>
      groupPlaceholders groups = own ∧ ∀ grouped ∈ groups, GroupedOk boundary (Joined.near joined root) grouped := by
  unfold projectedBucket
  refine (columnToken_emits _ _ _).bind ?_
  rintro _ _ ⟨rfl, rfl⟩
  obtain ⟨silent, only⟩ := timeBucketSql_over engine
    ⟨joined.tableFor root bucket.relationship, bucket.field, .timeBucket bucket.bucket⟩ bucket.bucket
  have expression := only.expression (ok.tableFor covered).2 (bucketColumn ok reviewed covered)
  refine .pure ⟨by simp [groupPlaceholders, item_placeholders, silent], fun grouped member => ?_⟩
  rw [List.mem_singleton] at member
  subst member
  exact ⟨⟨_, _, rfl, expression⟩, quiet_of_bare ⟨rfl, rfl, rfl⟩⟩

/-- What a measure projects, and its value over the projection, which is text. -/
structure ProjectedOk (boundary : ActivatedExplorationBoundary) (context : TrustedContext) (near : List TableUse)
    (index : ℕ) (projected : Projected) : Prop where
  measure : MeasureOk boundary context near true index projected.items projected.resources
  value : Bare projected.value
  contributors : ∀ contributors ∈ projected.contributors, Bare contributors

theorem bare_measured {function : AggregateMeasureFunction} {name : Text} {tokens : Tokens}
    (ok : aggregateMeasureSql function (some (outer "ab." name)) = .ok tokens) : Bare tokens := by
  obtain ⟨silent, plain, columns⟩ := aggregateMeasureSql_ok ok rfl rfl
  exact ⟨silent, plain, List.eq_nil_iff_forall_not_mem.mpr fun c member => by cases columns c member⟩

theorem bare_outer_count (name : Text) : Bare (countOf (outer "ab." name)) := ⟨rfl, rfl, rfl⟩

theorem bare_ratio {shape : Text} {above below : Tokens} (one : Bare above) (two : Bare below) :
    Bare (ratioSql shape above below) := by
  refine ⟨?_, ?_, ?_⟩
  · simp [ratioSql, one.1, two.1]
  · simp [ratioSql, one.2.1, two.2.1]
  · simp [ratioSql, one.2.2, two.2.2]

theorem bare_least {above below : Tokens} (one : Bare above) (two : Bare below) : Bare (leastSql above below) := by
  refine ⟨?_, ?_, ?_⟩
  · simp [leastSql, one.1, two.1]
  · simp [leastSql, one.2.1, two.2.1]
  · simp [leastSql, one.2.2, two.2.2]

theorem itemsOk_nil {near : List TableUse} {resources : List BoundaryResource} :
    ItemsOk boundary context near resources [] := ⟨by simp [PlainItems], by simp, by simp⟩

theorem projectOperand_emits (ok : JoinsFor digests boundary context root ids joined)
    (found : resourceFor boundary root.resource.id = .ok root.resource) (name : Text) {base : DerivedBaseMeasure}
    (listed : ∀ id, given (derivedBaseMeasureRelationship base) = some id → id ∈ ids)
    (asserted : assertDerivedBaseMeasure boundary root.resource base = true) :
    Emits (projectOperand root joined name base) fun result own => itemPlaceholders result.1 = own ∧
      ItemsOk boundary context (Joined.near joined root) [] result.1 ∧ childNames result.1 = [] ∧
      Bare result.2.1 ∧ Bare result.2.2 := by
  cases base with
  | count => exact .pure ⟨rfl, itemsOk_nil, rfl, ⟨rfl, rfl, rfl⟩, ⟨rfl, rfl, rfl⟩⟩
  | ofField function field relationship =>
    obtain ⟨leads, near⟩ := ok.tableFor listed
    have reviewed : Reviewed boundary ⟨joined.tableFor root relationship, field, .operand function⟩ :=
      reviewed_near ok.toJoinsOk near (operand_reviewed found asserted leads)
    rw [projectOperand]
    refine (columnToken_emits _ _ _).bind ?_
    rintro _ _ ⟨rfl, rfl⟩
    refine (Emits.ask (Q := fun value own => own = [] ∧ Bare value) fun value ok => ⟨rfl, bare_measured ok⟩).bind ?_
    rintro value _ ⟨rfl, bare⟩
    exact .pure ⟨by simp [itemPlaceholders, item_placeholders], itemsOk_item (quiet_column near reviewed).expression, rfl,
      bare, bare_outer_count name⟩

theorem projectDerived_emits (ok : JoinsFor digests boundary context root ids joined)
    (found : resourceFor boundary root.resource.id = .ok root.resource) (index : ℕ) {definition : DerivedMeasure}
    (covered : Covered ids definition) (asserted : Asserted boundary root.resource definition) :
    Emits (projectDerived digests boundary context root joined index definition) fun projected own =>
      itemPlaceholders projected.items = own ∧ ProjectedOk boundary context (Joined.near joined root) index projected := by
  unfold projectDerived
  unfold Covered at covered
  unfold Asserted at asserted
  cases body : definition.body with
  | childCount shape childResource relationship =>
    refine (childCountSql_emits (resourceFor_mem found) true index childResource relationship).bind ?_
    rintro child own ⟨rfl, fine, name⟩
    have first : Bare [] := ⟨rfl, rfl, rfl⟩
    have last : Bare [lit " AS ", .label (numbered "__measure_child_" index)] := ⟨rfl, rfl, rfl⟩
    have items : ItemsOk boundary context (Joined.near joined root) child.2
        [⟨[], some child.1, [lit " AS ", .label (numbered "__measure_child_" index)]⟩] :=
      itemsOk_child fine (by simp [Joined.near]) first last
    refine .pure ⟨?_, ⟨items, fine.found, .inr (by simp [childNames, name])⟩, ?_, ?_⟩
    · simp [itemPlaceholders, childCount_placeholders child.1 first last]
    · dsimp only
      split <;> exact ⟨rfl, rfl, rfl⟩
    · rintro contributors ⟨⟩
      exact ⟨rfl, rfl, rfl⟩
  | postAggregate shape base =>
    simp only [body] at covered asserted
    refine (projectOperand_emits ok found _ covered asserted).bind ?_
    rintro operand own ⟨rfl, items, names, value, contributors⟩
    refine .pure ⟨by simp, ⟨items, by simp [AllFound], .inl names⟩, value, ?_⟩
    rintro _ ⟨⟩
    exact contributors
  | ratio shape numerator denominator =>
    simp only [body] at covered asserted
    refine (projectOperand_emits ok found _ covered.1 asserted.1).bind ?_
    rintro above own ⟨rfl, aboveItems, aboveNames, aboveValue, aboveCount⟩
    refine (projectOperand_emits ok found _ covered.2 asserted.2).bind ?_
    rintro below own ⟨rfl, belowItems, belowNames, belowValue, belowCount⟩
    refine .pure ⟨by simp [itemPlaceholders], ⟨aboveItems.append belowItems, by simp [AllFound], .inl ?_⟩,
      bare_ratio aboveValue belowValue, ?_⟩
    · unfold childNames at *
      rw [List.filterMap_append, aboveNames, belowNames]
      rfl
    · rintro _ ⟨⟩
      exact bare_least aboveCount belowCount

theorem projectMeasure_emits (ok : JoinsFor digests boundary context root ids joined)
    (found : resourceFor boundary root.resource.id = .ok root.resource) (activated : Activated digests boundary)
    {measure : AggregateMeasure × ℕ} (reviewed : MeasureReviewed digests boundary root.resource measure.1)
    (covered : MeasureCovered ids root.resource measure.1) :
    Emits (projectMeasure digests boundary context root joined measure) fun projected own =>
      itemPlaceholders projected.items = own ∧
        ProjectedOk boundary context (Joined.near joined root) measure.2 projected := by
  obtain ⟨measure, index⟩ := measure
  cases measure with
  | derived name =>
    rw [projectMeasure]
    refine (Emits.ask (Q := fun definition own => own = [] ∧
      reviewedDerivedMeasure root.resource name = .ok definition) fun _ ok => ⟨rfl, ok⟩).bind ?_
    rintro definition _ ⟨rfl, named⟩
    have asserted := asserted_of_activated activated (resourceFor_mem found) (reviewedDerivedMeasure_mem named)
    refine (projectDerived_emits ok found index (covered definition named) asserted).mono ?_
    rintro projected own ⟨emitted, fine⟩
    exact ⟨by simp [emitted], fine⟩
  | base function field relationship =>
    obtain ⟨leads, near⟩ := ok.tableFor covered
    by_cases total : function = .count
    · subst total
      exact .pure ⟨rfl, ⟨itemsOk_nil, by simp [AllFound], .inl rfl⟩, ⟨rfl, rfl, rfl⟩, by simp⟩
    · cases field with
      | none =>
        rw [projectMeasure]
        · exact .ask fun _ refused => by cases refused
        · rintro rfl
          exact total rfl
      | some field =>
        have column : Reviewed boundary ⟨joined.tableFor root relationship, field, .measure function⟩ :=
          reviewed_tableFor ok covered reviewed fun target allowed => allowed
        rw [projectMeasure]
        · refine (columnToken_emits _ _ _).bind ?_
          rintro _ _ ⟨rfl, rfl⟩
          refine (Emits.ask (Q := fun value own => own = [] ∧ Bare value) fun value ok =>
            ⟨rfl, bare_measured ok⟩).bind ?_
          rintro value _ ⟨rfl, bare⟩
          refine .pure ⟨by simp [itemPlaceholders, item_placeholders],
            ⟨itemsOk_item (quiet_column near column).expression, by simp [AllFound], .inl rfl⟩, bare, ?_⟩
          intro contributors member
          dsimp only at member
          split at member
          · cases member
            exact bare_outer_count _
          · cases member
        · rintro rfl
          exact total rfl

/-! ### Rows -/

/-- Conditions over the tables at hand, which bring no tables. -/
def PlainConditions (boundary : ActivatedExplorationBoundary) (near : List TableUse) (conditions : List Condition) : Prop :=
  ∀ condition ∈ conditions, Expression boundary near condition.tokens

theorem PlainConditions.append {near : List TableUse} {a b : List Condition} (one : PlainConditions boundary near a)
    (two : PlainConditions boundary near b) : PlainConditions boundary near (a ++ b) := fun condition member =>
  (List.mem_append.mp member).elim (one condition) (two condition)

theorem plain_of_over {near : List TableUse} {column : ColumnUse} {conditions : List Condition}
    (only : conditionsOver column conditions) (listed : column.table ∈ near) (reviewed : Reviewed boundary column) :
    PlainConditions boundary near conditions := fun condition member => (only condition member).expression listed reviewed

/-- Further conditions keep a table held. -/
theorem occurrence_append {resources : List BoundaryResource} {table : TableUse} {conditions more : List Condition}
    (ok : OccurrenceOk boundary context resources (table, conditions))
    (none : ∀ condition ∈ more, tables condition.tokens = []) :
    OccurrenceOk boundary context resources (table, conditions ++ more) := by
  refine ⟨?_, ok.own, ?_, ?_, ?_⟩
  · intro kind has
    obtain ⟨condition, member, held⟩ := ok.held kind has
    exact ⟨condition, List.mem_append_left _ member, held⟩
  · intro condition member t inside
    rcases List.mem_append.mp member with member | member
    · exact ok.listed condition member t inside
    · rw [none condition member] at inside
      cases inside
  · have bare : more.flatMap (fun condition => tables condition.tokens) = [] := by
      rw [List.flatMap_eq_nil_iff]
      exact none
    show ((List.flatMap _ (conditions ++ more)).map TableUse.name).Nodup
    rw [List.flatMap_append, bare, List.append_nil]
    exact ok.distinct
  · intro condition member t inside
    rcases List.mem_append.mp member with member | member
    · exact ok.names condition member t inside
    · rw [none condition member] at inside
      cases inside

/-- The filter of a plan, over the table that it is compiled for. -/
theorem filterSql_plain {filter : ExploreFilter} {table : TableUse} {near : List TableUse} (listed : table ∈ near)
    (reviewed : Reviewed boundary ⟨table, filter.field, .filter filter.op⟩) :
    Emits (filterSql filter table) fun condition own =>
      placeholders condition.tokens = own ∧ Expression boundary near condition.tokens := by
  refine (filterSql_emits filter table).mono ?_
  rintro condition own ⟨emitted, plain, named⟩
  exact ⟨emitted, plain, by simpa [named] using ⟨listed, reviewed⟩⟩

theorem allowlist_plain {field : Text} {table : TableUse} {near : List TableUse} (listed : table ∈ near)
    (reviewed : Reviewed boundary ⟨table, field, .values⟩) :
    Emits (reviewedEnumAllowlistSql field table) fun condition own =>
      placeholders condition.tokens = own ∧ Expression boundary near condition.tokens := by
  refine (reviewedEnumAllowlistSql_emits field table).mono ?_
  rintro condition own ⟨emitted, only⟩
  exact ⟨emitted, only.expression listed reviewed⟩

/-- One condition for each item of a list. -/
theorem conditions_mapM {γ : Type} {near : List TableUse} {items : List γ} {f : γ → Compile Condition}
    (each : ∀ item ∈ items, Emits (f item) fun condition own =>
      placeholders condition.tokens = own ∧ Expression boundary near condition.tokens) :
    Emits (items.mapM f) fun conditions own =>
      conditionPlaceholders conditions = own ∧ PlainConditions boundary near conditions := by
  refine (Emits.mapM (fun condition => placeholders (Condition.tokens condition))
    (P := fun _ condition => Expression boundary near (Condition.tokens condition)) each).mono ?_
  rintro conditions own ⟨emitted, related⟩
  exact ⟨emitted, forall_of_forall₂ related⟩

theorem mem_firstUses {seen : List (TableName × Text)} {uses : List (Text × TableUse)} {use : Text × TableUse}
    (member : use ∈ firstUses seen uses) : use ∈ uses := by
  induction uses generalizing seen with
  | nil => cases member
  | cons first rest ih =>
    rw [firstUses] at member
    split at member
    · exact List.mem_cons_of_mem _ (ih member)
    · rcases List.mem_cons.mp member with rfl | member
      · exact List.mem_cons_self ..
      · exact List.mem_cons_of_mem _ (ih member)

/-- The relationships of the conditions of a plan are joined. -/
structure RowsCovered (ids : List Text) (plan : AggregateExplorePlan) : Prop where
  filters : ∀ filter ∈ plan.filters, ∀ id, given filter.relationship = some id → id ∈ ids
  timeWindow : ∀ window ∈ plan.timeWindow, ∀ id, given window.relationship = some id → id ∈ ids
  timeBucket : ∀ bucket ∈ plan.timeBucket, ∀ id, given bucket.relationship = some id → id ∈ ids
  comparison : ∀ comparison ∈ plan.comparison, ∀ id, given comparison.relationship = some id → id ∈ ids

/-- What the rows of a plan are. -/
structure RowsOk (digests : Digests) (boundary : ActivatedExplorationBoundary) (context : TrustedContext)
    (root : TableUse) (ids : List Text) (rows : ScopedRows) : Prop where
  joins : JoinsFor digests boundary context root ids rows.joined
  occurrence : OccurrenceOk boundary context rows.resources (root, rows.conditions)
  named : ∀ condition ∈ rows.conditions, Named boundary (Joined.near rows.joined root) condition.tokens
  found : AllFound boundary rows.resources

theorem compileScopedRows_emits (apart : TellsApart digests boundary)
    (found : resourceFor boundary root.resource.id = .ok root.resource) {plan : RankedAggregatePlan}
    (reviewed : AggregateReviewed digests boundary root.resource plan)
    (covered : RowsCovered ids plan.toAggregateExplorePlan) :
    Emits (compileScopedRows digests boundary context plan.toAggregateExplorePlan root ids) fun rows own =>
      joinPlaceholders rows.joined.joins ++ conditionPlaceholders rows.conditions = own ∧
        RowsOk digests boundary context root ids rows := by
  unfold compileScopedRows
  refine (compileReviewedRelationshipJoins_emits apart found ids).bind ?_
  rintro joined own ⟨rfl, ok⟩
  have filterColumn : ∀ filter ∈ plan.filters,
      Reviewed boundary ⟨joined.tableFor root filter.relationship, filter.field, .filter filter.op⟩ :=
    fun filter member => reviewed_tableFor ok (covered.filters filter member) (reviewed.filters filter member)
      fun _ listed => listed
  refine (compileScopePredicates_emits root found).bind ?_
  rintro scope own ⟨rfl, spec⟩
  refine (conditions_mapM fun filter member =>
    filterSql_plain (ok.tableFor (covered.filters filter member)).2 (filterColumn filter member)).bind ?_
  rintro filters own ⟨rfl, filtersPlain⟩
  refine (compileEach_emits (Q := fun conditions own => conditionPlaceholders conditions = own ∧
    PlainConditions boundary (Joined.near joined root) conditions) ⟨rfl, by simp [PlainConditions]⟩ ?_).bind ?_
  · intro window member
    refine (rangeSql_emits _ _ _).mono ?_
    rintro conditions own ⟨emitted, only⟩
    have column : Reviewed boundary ⟨joined.tableFor root window.relationship, window.field, .timeWindow⟩ :=
      reviewed_tableFor ok (covered.timeWindow window member) (reviewed.timeWindow window member) fun _ listed => listed
    exact ⟨emitted, plain_of_over only (ok.tableFor (covered.timeWindow window member)).2 column⟩
  rintro window own ⟨rfl, windowPlain⟩
  refine (compileEach_emits (Q := fun conditions own => conditionPlaceholders conditions = own ∧
    PlainConditions boundary (Joined.near joined root) conditions) ⟨rfl, by simp [PlainConditions]⟩ ?_).bind ?_
  · intro bucket member
    have one : bucket ∈ plan.timeBucket := (Option.mem_filter_iff.mp member).1
    refine (notNullSql_emits _ _).mono ?_
    rintro conditions own ⟨emitted, only⟩
    exact ⟨emitted, plain_of_over only (ok.tableFor (covered.timeBucket bucket one)).2
      (bucketColumn ok (reviewed.timeBucket bucket one) (covered.timeBucket bucket one))⟩
  rintro sequential own ⟨rfl, sequentialPlain⟩
  have valued : ∀ use ∈ allowlistUses plan.toAggregateExplorePlan root joined,
      Emits (reviewedEnumAllowlistSql use.1 use.2) fun condition own =>
        placeholders condition.tokens = own ∧ Expression boundary (Joined.near joined root) condition.tokens := by
    intro use member
    have listed := mem_firstUses member
    rw [List.mem_filter] at listed
    obtain ⟨listed, present⟩ := listed
    obtain ⟨filter, one, rfl⟩ := List.mem_map.mp listed
    have column := filterColumn filter one
    refine allowlist_plain (ok.tableFor (covered.filters filter one)).2 ⟨column.resource, by simpa using present, .inr ?_⟩
    exact List.ne_nil_of_mem column.use
  refine (conditions_mapM valued).bind ?_
  rintro values own ⟨rfl, valuesPlain⟩
  have further := filtersPlain.append (windowPlain.append (sequentialPlain.append valuesPlain))
  refine .pure ⟨by simp [conditionPlaceholders_append], ok, ?_, ?_, spec.found⟩
  · have start : OccurrenceOk boundary context scope.2 (root, scope.1) :=
      ⟨spec.held, spec.own, spec.listed, spec.distinct, spec.names⟩
    simpa only [List.append_assoc] using occurrence_append start fun condition member => (further condition member).plain
  · intro condition member
    rw [show scope.1 ++ filters ++ window ++ sequential ++ values =
      scope.1 ++ (filters ++ (window ++ (sequential ++ values))) by simp] at member
    rcases List.mem_append.mp member with member | member
    · refine (spec.named condition member).mono fun t one => ?_
      rw [List.mem_singleton] at one
      simp [Joined.near, one]
    · exact (further condition member).named

end

end SynapsorRunner.ExploreProjections
