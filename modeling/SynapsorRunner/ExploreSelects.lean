import SynapsorRunner.ExploreExpressions

/-!
The rows and the select list of an aggregate. The conditions on the rows hold every table to
its scope before any other condition (`compileScopedRows_emits`); measures, dimensions and
time buckets are over reviewed columns of the tables that are joined for them, also where an
adaptive band projects them first.
-/
namespace SynapsorRunner.ExploreSelects
open SynapsorRunner.NumberText SynapsorRunner.Proposals SynapsorRunner.ExploreBoundaries SynapsorRunner.ExplorePlans
open SynapsorRunner.NumberedParameters SynapsorRunner.ExploreSql SynapsorRunner.ExploreCompiler
open SynapsorRunner.ExploreScopes SynapsorRunner.ExploreJoins SynapsorRunner.ExploreStatements
open SynapsorRunner.ExploreExpressions SynapsorRunner.ReviewedPlans
open SynapsorRunner.Protocol (Engine)
open SynapsorRunner.ComplementReleases (ExploreFilter AggregateMeasureFunction AggregateMeasure AggregateDimension
  TimeBucket CanonicalTimeWindow AggregateExplorePlan)

section
variable {digests : Digests} {boundary : ActivatedExplorationBoundary} {context : TrustedContext} {root : TableUse}
  {joined : Joined} {ids : List Text}

/-! ### Columns of joined tables -/

theorem reviewed_near {table : TableUse} {field : Text} {use : Use}
    (ok : JoinsOk digests boundary context root joined) (near : table ∈ Joined.near joined root)
    (reviewed : ReviewedFor boundary table.resource field use) : Reviewed boundary ⟨table, field, use⟩ :=
  ⟨resourceFor_mem (ok.found _ (ok.tables table near)), reviewed⟩

theorem reviewed_tableFor {relationship : Option Text} {field : Text} {use : Use} {reviews : BoundaryResource → Prop}
    (ok : JoinsFor digests boundary context root ids joined) (listed : ∀ id, given relationship = some id → id ∈ ids)
    (reviewed : ReviewedOn digests boundary root.resource relationship reviews)
    (use_of : ∀ target, reviews target → ReviewedFor boundary target field use) :
    Reviewed boundary ⟨joined.tableFor root relationship, field, use⟩ := by
  obtain ⟨leads, near⟩ := ok.tableFor listed
  obtain ⟨target, found, holds⟩ := reviewed
  obtain rfl := Except.ok.inj (leads.symm.trans found)
  exact reviewed_near ok.toJoinsOk near (use_of _ holds)

/-- Tokens that bind nothing, over the tables at hand. -/
structure Quiet (boundary : ActivatedExplorationBoundary) (near : List TableUse) (tokens : Tokens) : Prop where
  silent : placeholders tokens = []
  expression : Expression boundary near tokens

theorem quiet_of_bare {near : List TableUse} {tokens : Tokens} (bare : Bare tokens) : Quiet boundary near tokens :=
  ⟨bare.1, bare.2.1, by simp [bare.2.2]⟩

theorem Quiet.append {near : List TableUse} {a b : Tokens} (one : Quiet boundary near a) (two : Quiet boundary near b) :
    Quiet boundary near (a ++ b) := by
  refine ⟨by simp [one.silent, two.silent], by simp [one.expression.plain, two.expression.plain], ?_⟩
  intro c member
  rw [columns_append, List.mem_append] at member
  exact member.elim (one.expression.columns c) (two.expression.columns c)

theorem quiet_column {near : List TableUse} {column : ColumnUse} (listed : column.table ∈ near)
    (reviewed : Reviewed boundary column) : Quiet boundary near [.column column] :=
  ⟨rfl, rfl, by simpa using ⟨listed, reviewed⟩⟩

theorem quiet_separated {near : List TableUse} {separator : String} {parts : List Tokens}
    (each : ∀ part ∈ parts, Quiet boundary near part) : Quiet boundary near (separated separator parts) := by
  refine ⟨?_, ?_, ?_⟩
  · simpa [List.flatMap_eq_nil_iff] using fun part member => (each part member).silent
  · simpa [List.flatMap_eq_nil_iff] using fun part member => (each part member).expression.plain
  · intro c member
    rw [columns_separated] at member
    obtain ⟨part, listed, inside⟩ := List.mem_flatMap.mp member
    exact (each part listed).expression.columns c inside

/-! ### Measures -/

theorem operandSql_emits (ok : JoinsFor digests boundary context root ids joined)
    (found : resourceFor boundary root.resource.id = .ok root.resource) {base : DerivedBaseMeasure}
    (listed : ∀ id, given (derivedBaseMeasureRelationship base) = some id → id ∈ ids)
    (asserted : assertDerivedBaseMeasure boundary root.resource base = true) :
    Emits (operandSql root joined base) fun result own => own = [] ∧
      Quiet boundary (Joined.near joined root) result.1 ∧ Quiet boundary (Joined.near joined root) result.2 := by
  cases base with
  | count => exact .pure ⟨rfl, quiet_of_bare ⟨rfl, rfl, rfl⟩, quiet_of_bare ⟨rfl, rfl, rfl⟩⟩
  | ofField function field relationship =>
    obtain ⟨leads, near⟩ := ok.tableFor listed
    have reviewed : Reviewed boundary ⟨joined.tableFor root relationship, field, .operand function⟩ :=
      reviewed_near ok.toJoinsOk near (operand_reviewed found asserted leads)
    rw [operandSql]
    refine (columnToken_emits _ _ _).bind ?_
    rintro _ _ ⟨rfl, rfl⟩
    refine (Emits.ask (Q := fun value own => own = [] ∧ Quiet boundary (Joined.near joined root) value)
      fun value ok => ⟨rfl, ?_⟩).bind ?_
    · obtain ⟨silent, plain, columns⟩ := aggregateMeasureSql_ok ok rfl rfl
      refine ⟨silent, plain, fun c member => ?_⟩
      have same : c = ⟨joined.tableFor root relationship, field, .operand function⟩ := by simpa using columns c member
      rw [same]
      exact ⟨near, reviewed⟩
    · rintro value _ ⟨rfl, quiet⟩
      refine .pure ⟨rfl, quiet, ?_⟩
      exact ⟨rfl, rfl, by simpa [countOf] using ⟨near, reviewed⟩⟩

theorem ratioSql_quiet (shape : Text) {near : List TableUse} {numerator denominator : Tokens}
    (above : Quiet boundary near numerator) (below : Quiet boundary near denominator) :
    Quiet boundary near (ratioSql shape numerator denominator) := by
  refine ⟨by simp [ratioSql, above.silent, below.silent], by simp [ratioSql, above.expression.plain, below.expression.plain],
    ?_⟩
  intro c member
  simp only [ratioSql, List.cons_append, List.append_assoc, columns_lit, columns_append, columns_nil, List.append_nil,
    List.mem_append] at member
  rcases member with member | member | member | member
  · exact below.expression.columns c member
  · exact below.expression.columns c member
  · exact above.expression.columns c member
  · exact below.expression.columns c member

theorem leastSql_quiet {near : List TableUse} {first second : Tokens} (one : Quiet boundary near first)
    (two : Quiet boundary near second) : Quiet boundary near (leastSql first second) := by
  refine ⟨by simp [leastSql, one.silent, two.silent], by simp [leastSql, one.expression.plain, two.expression.plain], ?_⟩
  intro c member
  simp only [leastSql, List.cons_append, List.append_assoc, columns_lit, columns_append, columns_nil, List.append_nil,
    List.mem_append] at member
  exact member.elim (one.expression.columns c) (two.expression.columns c)

/-- The aliases of the child counts of one measure. -/
def OwnChild (adaptive : Bool) (index : ℕ) (items : List Item) : Prop :=
  childNames items = [] ∨ childNames items = [.childCount adaptive index]

theorem itemsOk_value {near : List TableUse} {resources : List BoundaryResource} {tokens : Tokens}
    (expression : Expression boundary near tokens) : ItemsOk boundary context near resources [⟨tokens, none, []⟩] := by
  have same : ∀ i ∈ [(⟨tokens, none, []⟩ : Item)], i = ⟨tokens, none, []⟩ := by simp
  refine ⟨?_, ?_, ?_⟩
  · intro i member
    rw [same i member]
    exact ⟨expression.plain, rfl⟩
  · intro i member
    rw [same i member]
    simpa [Item.tokens] using expression.named
  · intro i member child one
    rw [same i member] at one
    cases one

theorem itemsOk_child {near : List TableUse} {resources : List BoundaryResource} {child : ChildCount} {start stop : Tokens}
    (ok : ChildOk boundary context root resources child) (listed : root ∈ near) (first : Bare start) (last : Bare stop) :
    ItemsOk boundary context near resources [⟨start, some child, stop⟩] := by
  have same : ∀ i ∈ [(⟨start, some child, stop⟩ : Item)], i = ⟨start, some child, stop⟩ := by simp
  refine ⟨?_, ?_, ?_⟩
  · intro i member
    rw [same i member]
    exact ⟨first.2.1, last.2.1⟩
  · intro i member
    rw [same i member]
    refine ((quiet_of_bare first).expression.named.append ?_).append (quiet_of_bare last).expression.named
    refine ok.named.mono fun t member => ?_
    rw [List.mem_singleton] at member
    exact member ▸ listed
  · intro i member c one
    rw [same i member] at one
    cases one
    exact ok.held

/-- An item under a name. -/
theorem itemsOk_stop {near : List TableUse} {resources : List BoundaryResource} {value : Item} {more : Tokens}
    (ok : ItemsOk boundary context near resources [value]) (bare : Bare more) :
    ItemsOk boundary context near resources [{ value with stop := value.stop ++ more }] := by
  have same : ∀ i ∈ [{ value with stop := value.stop ++ more }], i = { value with stop := value.stop ++ more } := by simp
  have tokens : Item.tokens { value with stop := value.stop ++ more } = value.tokens ++ more := by simp [Item.tokens]
  refine ⟨?_, ?_, ?_⟩
  · intro i member
    rw [same i member]
    obtain ⟨start, stop⟩ := ok.plain value (by simp)
    exact ⟨start, by simp [stop, bare.2.1]⟩
  · intro i member
    rw [same i member, tokens]
    exact (ok.named value (by simp)).append (quiet_of_bare bare).expression.named
  · intro i member child one
    rw [same i member] at one
    exact ok.children value (by simp) child one

theorem childCount_placeholders {start stop : Tokens} (child : ChildCount) (first : Bare start) (last : Bare stop) :
    placeholders (Item.tokens ⟨start, some child, stop⟩) = placeholders child.tokens := by
  simp [Item.tokens, first.1, last.1]

/-- The relationships of a reviewed measure are joined. -/
def Covered (ids : List Text) (definition : DerivedMeasure) : Prop :=
  match definition.body with
  | .childCount .. => True
  | .postAggregate _ base => ∀ id, given (derivedBaseMeasureRelationship base) = some id → id ∈ ids
  | .ratio _ numerator denominator =>
    (∀ id, given (derivedBaseMeasureRelationship numerator) = some id → id ∈ ids) ∧
    ∀ id, given (derivedBaseMeasureRelationship denominator) = some id → id ∈ ids

/-- The parts of a reviewed measure are reviewed. -/
def Asserted (boundary : ActivatedExplorationBoundary) (root : BoundaryResource) (definition : DerivedMeasure) : Prop :=
  match definition.body with
  | .childCount .. => True
  | .postAggregate _ base => assertDerivedBaseMeasure boundary root base = true
  | .ratio _ numerator denominator =>
    assertDerivedBaseMeasure boundary root numerator = true ∧ assertDerivedBaseMeasure boundary root denominator = true

theorem asserted_of_activated (activated : Activated digests boundary) {resource : BoundaryResource}
    (inside : resource ∈ boundary.resources) {definition : DerivedMeasure} (listed : definition ∈ resource.derivedMeasures) :
    Asserted boundary resource definition := by
  have asserted := activated.derivedMeasures resource inside
  unfold assertReviewedDerivedMeasures at asserted
  have each := List.all_eq_true.mp asserted definition listed
  unfold Asserted
  cases body : definition.body with
  | childCount => trivial
  | postAggregate shape base => simpa [body] using each
  | ratio shape numerator denominator =>
    simp only [body, Bool.and_eq_true, decide_eq_true_eq] at each
    exact ⟨each.1.2, each.2⟩

/-- The operands of a ratio are along one relationship. -/
theorem same_relationship (activated : Activated digests boundary) {resource : BoundaryResource}
    (inside : resource ∈ boundary.resources) {definition : DerivedMeasure} (listed : definition ∈ resource.derivedMeasures)
    {shape : Text} {numerator denominator : DerivedBaseMeasure} (body : definition.body = .ratio shape numerator denominator) :
    derivedBaseMeasureRelationship numerator = derivedBaseMeasureRelationship denominator := by
  have asserted := activated.derivedMeasures resource inside
  unfold assertReviewedDerivedMeasures at asserted
  have each := List.all_eq_true.mp asserted definition listed
  simp only [body, Bool.and_eq_true, decide_eq_true_eq] at each
  exact each.1.1

theorem compiledDerivedMeasureSql_emits (ok : JoinsFor digests boundary context root ids joined)
    (found : resourceFor boundary root.resource.id = .ok root.resource) (index : ℕ) {definition : DerivedMeasure}
    (covered : Covered ids definition) (asserted : Asserted boundary root.resource definition) :
    Emits (compiledDerivedMeasureSql digests boundary context root joined index definition) fun measured own =>
      placeholders measured.value.tokens = own ∧
      ItemsOk boundary context (Joined.near joined root) measured.resources [measured.value] ∧
      AllFound boundary measured.resources ∧ Quiet boundary (Joined.near joined root) measured.contributors ∧
      OwnChild false index [measured.value] := by
  unfold compiledDerivedMeasureSql
  unfold Covered at covered
  unfold Asserted at asserted
  cases body : definition.body with
  | childCount shape childResource relationship =>
    refine (childCountSql_emits (resourceFor_mem found) false index childResource relationship).bind ?_
    rintro child own ⟨rfl, fine, name⟩
    have first : Bare [lit (if shape = ascii "child_count_total" then "SUM(" else "AVG(1.0 * ")] := ⟨rfl, rfl, rfl⟩
    have last : Bare [lit ")"] := ⟨rfl, rfl, rfl⟩
    refine .pure ⟨?_, itemsOk_child fine (by simp [Joined.near]) first last, fine.found,
      quiet_of_bare ⟨rfl, rfl, rfl⟩, .inr (by simp [childNames, name])⟩
    simp [childCount_placeholders child.1 first last]
  | postAggregate shape base =>
    simp only [body] at covered asserted
    refine (operandSql_emits ok found covered asserted).bind ?_
    rintro operand _ ⟨rfl, value, contributors⟩
    exact .pure ⟨by simp [Item.tokens, value.silent], itemsOk_value value.expression, by simp [AllFound], contributors,
      .inl rfl⟩
  | ratio shape numerator denominator =>
    simp only [body] at covered asserted
    refine (operandSql_emits ok found covered.1 asserted.1).bind ?_
    rintro above _ ⟨rfl, aboveValue, aboveCount⟩
    refine (operandSql_emits ok found covered.2 asserted.2).bind ?_
    rintro below _ ⟨rfl, belowValue, belowCount⟩
    have value := ratioSql_quiet shape aboveValue belowValue
    exact .pure ⟨by simp [Item.tokens, value.silent], itemsOk_value value.expression, by simp [AllFound],
      leastSql_quiet aboveCount belowCount, .inl rfl⟩

/-- The relationships of a measure are joined. -/
def MeasureCovered (ids : List Text) (resource : BoundaryResource) : AggregateMeasure → Prop
  | .base _ _ relationship => ∀ id, given relationship = some id → id ∈ ids
  | .derived name => ∀ definition, reviewedDerivedMeasure resource name = .ok definition → Covered ids definition

theorem fieldSql_emits {table : TableUse} {function : AggregateMeasureFunction} {field : Option Text}
    {near : List TableUse} (listed : table ∈ near)
    (reviewed : ∀ f ∈ field, Reviewed boundary ⟨table, f, .measure function⟩) :
    Emits (fieldSql table (.measure function) field) fun tokens own =>
      own = [] ∧ Quiet boundary near (tokens.getD []) ∧ (field.isSome ↔ tokens.isSome) := by
  cases field with
  | none => exact .pure ⟨rfl, quiet_of_bare ⟨rfl, rfl, rfl⟩, by simp⟩
  | some f =>
    refine (columnToken_emits _ _ _).bind ?_
    rintro _ _ ⟨rfl, rfl⟩
    exact .pure ⟨rfl, quiet_column listed (reviewed f rfl), by simp⟩

theorem countOf_quiet {near : List TableUse} {tokens : Tokens} (quiet : Quiet boundary near tokens) :
    Quiet boundary near (countOf tokens) :=
  ⟨by simp [countOf, quiet.silent], by simp [countOf, quiet.expression.plain],
    by simpa [countOf] using quiet.expression.columns⟩

/-- What a measure gives to the select list. -/
structure MeasureOk (boundary : ActivatedExplorationBoundary) (context : TrustedContext) (near : List TableUse)
    (adaptive : Bool) (index : ℕ) (items : List Item) (resources : List BoundaryResource) : Prop where
  fine : ItemsOk boundary context near resources items
  found : AllFound boundary resources
  child : OwnChild adaptive index items

theorem measureSql_emits (ok : JoinsFor digests boundary context root ids joined)
    (found : resourceFor boundary root.resource.id = .ok root.resource) (activated : Activated digests boundary)
    {measure : AggregateMeasure × ℕ} (reviewed : MeasureReviewed digests boundary root.resource measure.1)
    (covered : MeasureCovered ids root.resource measure.1) :
    Emits (measureSql digests boundary context root joined measure) fun result own => itemPlaceholders result.1 = own ∧
      MeasureOk boundary context (Joined.near joined root) false measure.2 result.1 result.2 := by
  obtain ⟨measure, index⟩ := measure
  cases measure with
  | derived name =>
    rw [measureSql]
    refine (Emits.ask (Q := fun definition own => own = [] ∧
      reviewedDerivedMeasure root.resource name = .ok definition) fun _ ok => ⟨rfl, ok⟩).bind ?_
    rintro definition _ ⟨rfl, named⟩
    have asserted := asserted_of_activated activated (resourceFor_mem found) (reviewedDerivedMeasure_mem named)
    refine (compiledDerivedMeasureSql_emits ok found index (covered definition named) asserted).bind ?_
    rintro measured own ⟨rfl, items, all, contributors, child⟩
    have bare : Bare [lit " AS ", .label (numbered "measure_" index)] := ⟨rfl, rfl, rfl⟩
    refine .pure ⟨?_, (itemsOk_stop items bare).append (itemsOk_item contributors.expression), all, ?_⟩
    · have tokens : Item.tokens { measured.value with stop := measured.value.stop ++
          [lit " AS ", .label (numbered "measure_" index)] } =
          measured.value.tokens ++ [lit " AS ", .label (numbered "measure_" index)] := by simp [Item.tokens]
      simp [itemPlaceholders, tokens, item_placeholders, contributors.silent]
    · have same : childNames ([{ measured.value with stop := measured.value.stop ++
          [lit " AS ", .label (numbered "measure_" index)] }, item measured.contributors
            (numbered "__measure_cohort_" index)]) = childNames [measured.value] := by
        cases present : measured.value.child <;> simp [childNames, item, present]
      unfold OwnChild
      rw [same]
      exact child
  | base function field relationship =>
    obtain ⟨leads, near⟩ := ok.tableFor covered
    have column : ∀ f ∈ field, Reviewed boundary ⟨joined.tableFor root relationship, f, .measure function⟩ := by
      rintro f ⟨⟩
      exact reviewed_tableFor ok covered reviewed fun target allowed => allowed
    rw [measureSql]
    refine (fieldSql_emits near column).bind ?_
    rintro tokens _ ⟨rfl, quiet, -⟩
    refine (Emits.ask (Q := fun value own => own = [] ∧ Quiet boundary (Joined.near joined root) value)
      fun value ok => ⟨rfl, ?_⟩).bind ?_
    · obtain ⟨silent, plain, columns⟩ := aggregateMeasureSql_ok ok quiet.silent quiet.expression.plain
      exact ⟨silent, plain, fun c member => quiet.expression.columns c (columns c member)⟩
    · rintro value _ ⟨rfl, fine⟩
      have cohort : ItemsOk boundary context (Joined.near joined root) [] (contributorItem function tokens index) ∧
          itemPlaceholders (contributorItem function tokens index) = [] ∧
          childNames (contributorItem function tokens index) = [] := by
        unfold contributorItem
        split
        · exact ⟨itemsOk_item (countOf_quiet quiet).expression,
            by simp [itemPlaceholders, item_placeholders, (countOf_quiet quiet).silent], rfl⟩
        · exact ⟨⟨by simp [PlainItems], by simp, by simp⟩, rfl, rfl⟩
      obtain ⟨cohortItems, cohortSilent, cohortNames⟩ := cohort
      refine .pure ⟨?_, (itemsOk_item fine.expression).append cohortItems, by simp [AllFound], .inl ?_⟩
      · have silent : itemPlaceholders (item value (numbered "measure_" index) :: contributorItem function tokens index) =
            placeholders (item value (numbered "measure_" index)).tokens ++
              itemPlaceholders (contributorItem function tokens index) := List.flatMap_cons
        rw [silent, cohortSilent, item_placeholders, fine.silent]
        rfl
      · have names : childNames (item value (numbered "measure_" index) :: contributorItem function tokens index) =
            childNames (contributorItem function tokens index) := rfl
        rw [names, cohortNames]

/-- The child counts of measures have different aliases. -/
theorem childNames_nodup {α β : Type} {adaptive : Bool} {items : β → List Item} {measures : List α} {results : List β}
    {start : ℕ} (each : List.Forall₂ (fun measure result => OwnChild adaptive measure.2 (items result))
      (measures.zipIdx start) results) :
    (childNames (results.flatMap items)).Nodup ∧
      ∀ name ∈ childNames (results.flatMap items), ∃ i, start ≤ i ∧ name = .childCount adaptive i := by
  induction measures generalizing start results with
  | nil =>
    cases each
    simp [childNames]
  | cons measure rest ih =>
    rw [List.zipIdx_cons] at each
    cases each with
    | cons here later =>
      rename_i result results
      obtain ⟨nodup, names⟩ := ih later
      have split : childNames ((result :: results).flatMap items) =
          childNames (items result) ++ childNames (results.flatMap items) := by
        simp [childNames, List.filterMap_append]
      rw [split]
      rcases here with none | one
      · rw [none, List.nil_append]
        refine ⟨nodup, fun name member => ?_⟩
        obtain ⟨i, larger, same⟩ := names name member
        exact ⟨i, by omega, same⟩
      · rw [one]
        refine ⟨List.nodup_cons.mpr ⟨?_, nodup⟩, fun name member => ?_⟩
        · intro member
          obtain ⟨i, larger, same⟩ := names _ member
          have equal : start = i := (TableName.childCount.inj same).2
          omega
        · rcases List.mem_cons.mp member with rfl | member
          · exact ⟨start, le_rfl, rfl⟩
          · obtain ⟨i, larger, same⟩ := names name member
            exact ⟨i, by omega, same⟩

end

end SynapsorRunner.ExploreSelects
