import SynapsorRunner.ExploreStatements

/-!
What the conditions and the select list of a plan emit. Each part binds the values that it
stands for, in the order of its text, and names one reviewed column; a child count is held to
its own scope. The reviewed measures and bands of an activated boundary name fields that
their targets review (`Activated`).
-/
namespace SynapsorRunner.ExploreExpressions
open SynapsorRunner.Doubles SynapsorRunner.NumberText SynapsorRunner.JsonText SynapsorRunner.Proposals
open SynapsorRunner.ExploreBoundaries SynapsorRunner.ExplorePlans SynapsorRunner.NumberedParameters
open SynapsorRunner.ExploreSql SynapsorRunner.ExploreCompiler SynapsorRunner.ExploreScopes SynapsorRunner.ExploreJoins
open SynapsorRunner.ExploreStatements SynapsorRunner.ReviewedPlans
open SynapsorRunner.Protocol (Engine)
open SynapsorRunner.ComplementReleases (Operator FilterValue ExploreFilter AggregateMeasureFunction AggregateMeasure
  AggregateDimension TimeBucket CanonicalTimeWindow)
set_option linter.unusedSimpArgs false

/-! ### Activated boundaries -/

def derivedBaseMeasureRelationship : DerivedBaseMeasure → Option Text
  | .count => none
  | .ofField _ _ relationship => relationship

section
variable (digests : Digests) (boundary : ActivatedExplorationBoundary)

/-- The resource of a field of a reviewed measure or band. -/
def operandTarget (root : BoundaryResource) (relationship : Option Text) : Option BoundaryResource :=
  match given relationship with
  | none => boundary.resources.find? fun resource => resource.id = root.id
  | some id => (root.relationships.find? fun r => r.id = id).bind fun r =>
      boundary.resources.find? fun resource => resource.id = r.targetResource

/-- What `assertDerivedBaseMeasure` asserts. -/
def assertDerivedBaseMeasure (root : BoundaryResource) : DerivedBaseMeasure → Bool
  | .count => true
  | .ofField function field relationship => (operandTarget boundary root relationship).any fun target =>
    match function with
    | .countDistinct => decide (field ∈ target.countDistinctFields)
    | .sum | .avg => decide (field ∈ target.aggregateMeasures) &&
        decide (function ∈ (target.aggregateMeasureFunctions.bind fun functions => entry functions field).getD [.sum, .avg])
    | _ => false

/-- What `assertReviewedDerivedMeasures` asserts of the parts of a measure. -/
def assertReviewedDerivedMeasures (root : BoundaryResource) : Bool :=
  root.derivedMeasures.all fun definition => match definition.body with
    | .postAggregate _ base => assertDerivedBaseMeasure boundary root base
    | .childCount _ childResource relationship =>
      (resolveReviewedChildCountLink digests boundary root childResource relationship).isOk
    | .ratio _ numerator denominator =>
      decide (derivedBaseMeasureRelationship numerator = derivedBaseMeasureRelationship denominator) &&
        assertDerivedBaseMeasure boundary root numerator && assertDerivedBaseMeasure boundary root denominator

/-- What `assertReviewedNumericBands` asserts of the fields and the labels of a band. -/
def assertReviewedNumericBands (root : BoundaryResource) : Bool :=
  root.numericBands.all fun band => decide (band.bucketLabels.length = band.edges.length + 1) &&
    (operandTarget boundary root band.relationship).any fun target => decide (band.field ∈ target.aggregateMeasures)

/-- What `assertReviewedAutoBands` asserts of the field of a policy. -/
def assertReviewedAutoBands (resource : BoundaryResource) : Bool :=
  resource.autoBands.all fun policy => decide (policy.field ∈ resource.aggregateMeasures) &&
    decide (policy.field ∉ resource.modelWithheldFields) && decide (policy.field ∉ resource.keptOutFields)

/-- What the activation of a boundary has asserted. -/
structure Activated : Prop where
  derivedMeasures : ∀ root ∈ boundary.resources, assertReviewedDerivedMeasures digests boundary root = true
  numericBands : ∀ root ∈ boundary.resources, assertReviewedNumericBands boundary root = true
  autoBands : ∀ resource ∈ boundary.resources, assertReviewedAutoBands resource = true

end

/-! ### Columns and values -/

/-- Tokens over one column. -/
structure Over (column : ColumnUse) (tokens : Tokens) : Prop where
  plain : tables tokens = []
  columns : ∀ c ∈ ExploreSql.columns tokens, c = column

theorem Over.expression {boundary : ActivatedExplorationBoundary} {near : List TableUse} {column : ColumnUse}
    {tokens : Tokens} (only : Over column tokens) (listed : column.table ∈ near) (reviewed : Reviewed boundary column) :
    Expression boundary near tokens := by
  refine ⟨only.plain, ?_⟩
  intro c member
  rw [only.columns c member]
  exact ⟨listed, reviewed⟩

/-- Tokens that are text only. -/
def Bare (tokens : Tokens) : Prop := placeholders tokens = [] ∧ tables tokens = [] ∧ columns tokens = []

theorem forall_of_forall₂ {α β : Type} {P : β → Prop} {as : List α} {bs : List β}
    (related : List.Forall₂ (fun _ b => P b) as bs) : ∀ b ∈ bs, P b := by
  induction related with
  | nil => simp
  | cons here _ ih => simpa using ⟨here, ih⟩

theorem valueList_emits (values : List Parameter) :
    Emits (valueList values) fun tokens own => placeholders tokens = own ∧ tables tokens = [] ∧ columns tokens = [] := by
  unfold valueList
  refine (Emits.mapM (fun token => placeholders [token])
    (P := fun _ token => tables [token] = [] ∧ columns [token] = []) fun value _ =>
      (valueToken_emits value).mono ?_).bind ?_
  · rintro _ _ ⟨index, rfl, rfl⟩
    exact ⟨rfl, rfl, rfl⟩
  · rintro tokens own ⟨rfl, each⟩
    have silent := forall_of_forall₂ each
    refine .pure ⟨by simp [List.flatMap_map], ?_, ?_⟩
    · simpa [List.flatMap_map, List.flatMap_eq_nil_iff] using fun token member => (silent token member).1
    · simpa [List.flatMap_map, List.flatMap_eq_nil_iff] using fun token member => (silent token member).2

theorem compared_emits (column : ColumnUse) (operator : String) (value : Parameter) :
    Emits (compared (.column column) operator value) fun condition own =>
      placeholders condition.tokens = own ∧ tables condition.tokens = [] ∧ columns condition.tokens = [column] := by
  unfold compared
  refine (valueToken_emits value).bind ?_
  rintro _ _ ⟨index, rfl, rfl⟩
  exact .pure ⟨rfl, rfl, rfl⟩

theorem filterSql_emits (filter : ExploreFilter) (table : TableUse) :
    Emits (filterSql filter table) fun condition own => placeholders condition.tokens = own ∧
      tables condition.tokens = [] ∧ columns condition.tokens = [⟨table, filter.field, .filter filter.op⟩] := by
  unfold filterSql
  refine (columnToken_emits _ _ _).bind ?_
  rintro _ _ ⟨rfl, rfl⟩
  split
  · refine (valueList_emits _).bind ?_
    rintro list own ⟨rfl, silent, none⟩
    exact .pure ⟨by simp [Condition.tokens], by simp [Condition.tokens, silent], by simp [Condition.tokens, none]⟩
  · exact .ask fun _ refused => by cases refused
  · exact compared_emits _ _ _
  · exact compared_emits _ _ _

/-- Conditions over one column. -/
def conditionsOver (column : ColumnUse) (conditions : List Condition) : Prop :=
  ∀ condition ∈ conditions, Over column condition.tokens

theorem rangeSql_emits (field : Text) (range : Text × Text) (table : TableUse) :
    Emits (rangeSql field range table) fun conditions own =>
      conditionPlaceholders conditions = own ∧ conditionsOver ⟨table, field, .timeWindow⟩ conditions := by
  unfold rangeSql
  refine (columnToken_emits _ _ _).bind ?_
  rintro _ _ ⟨rfl, rfl⟩
  refine (compared_emits _ _ _).bind ?_
  rintro first _ ⟨rfl, firstPlain, firstColumn⟩
  refine (compared_emits _ _ _).bind ?_
  rintro last _ ⟨rfl, lastPlain, lastColumn⟩
  refine .pure ⟨by simp [conditionPlaceholders], ?_⟩
  intro condition member
  simp only [List.mem_cons, List.not_mem_nil, or_false] at member
  rcases member with rfl | rfl
  · exact ⟨firstPlain, by simp [firstColumn]⟩
  · exact ⟨lastPlain, by simp [lastColumn]⟩

theorem notNullSql_emits (bucket : TimeBucket) (table : TableUse) :
    Emits (notNullSql bucket table) fun conditions own => conditionPlaceholders conditions = own ∧
      conditionsOver ⟨table, bucket.field, .timeBucket bucket.bucket⟩ conditions := by
  unfold notNullSql
  refine (columnToken_emits _ _ _).bind ?_
  rintro _ _ ⟨rfl, rfl⟩
  refine .pure ⟨rfl, ?_⟩
  intro condition member
  rw [List.mem_singleton] at member
  subst member
  exact ⟨rfl, by simp [Condition.tokens]⟩

theorem reviewedEnumAllowlistSql_emits (field : Text) (table : TableUse) :
    Emits (reviewedEnumAllowlistSql field table) fun condition own => placeholders condition.tokens = own ∧
      Over ⟨table, field, .values⟩ condition.tokens := by
  unfold reviewedEnumAllowlistSql
  refine (Emits.ask (Q := fun _ own => own = []) fun _ _ => rfl).bind ?_
  rintro ⟨⟩ _ rfl
  refine (valueList_emits _).bind ?_
  rintro list own ⟨rfl, silent, none⟩
  refine (columnToken_emits _ _ _).bind ?_
  rintro _ _ ⟨rfl, rfl⟩
  exact .pure ⟨by simp [Condition.tokens], by simp [Condition.tokens, silent], by simp [Condition.tokens, none]⟩

theorem compileEach_emits {α β : Type} {compile : α → Compile (List β)} {given : Option α}
    {Q : List β → List (Placeholder Parameter) → Prop} (nothing : Q [] [])
    (each : ∀ a ∈ given, Emits (compile a) Q) : Emits (compileEach compile given) Q := by
  cases given with
  | none => exact .pure nothing
  | some a => exact each a rfl

/-! ### Expressions -/

theorem reviewedEnumBucketSql_emits (engine : Engine) (field : Text) (table : TableUse) (marker : Text) :
    Emits (reviewedEnumBucketSql engine field table marker) fun tokens own =>
      placeholders tokens = own ∧ Over ⟨table, field, .group⟩ tokens := by
  unfold reviewedEnumBucketSql
  refine (Emits.ask (Q := fun _ own => own = []) fun _ _ => rfl).bind ?_
  rintro ⟨⟩ _ rfl
  refine (columnToken_emits _ _ _).bind ?_
  rintro _ _ ⟨rfl, rfl⟩
  refine (valueList_emits _).bind ?_
  rintro list own ⟨rfl, silent, none⟩
  refine (valueToken_emits _).bind ?_
  rintro _ _ ⟨index, rfl, rfl⟩
  refine .pure ⟨by simp, by simp [silent], ?_⟩
  intro c member
  simp only [List.cons_append, List.nil_append, List.append_assoc, columns_append, columns_lit, columns_column,
    columns_placeholder, columns_nil, none, List.mem_cons, List.not_mem_nil, or_false, or_self] at member
  exact member

theorem bandClause_emits (definition : NumericBand) (column : ColumnUse) (edge : Number × ℕ) :
    Emits (bandClause definition (.column column) edge) fun tokens own =>
      placeholders tokens = own ∧ Over column tokens := by
  unfold bandClause
  refine (valueToken_emits _).bind ?_
  rintro _ _ ⟨index, rfl, rfl⟩
  refine (valueToken_emits _).bind ?_
  rintro _ _ ⟨next, rfl, rfl⟩
  exact .pure ⟨rfl, rfl, by simp⟩

theorem reviewedNumericBandSql_emits (definition : NumericBand) (table : TableUse) :
    Emits (reviewedNumericBandSql definition table) fun tokens own =>
      placeholders tokens = own ∧ Over ⟨table, definition.field, .band⟩ tokens := by
  unfold reviewedNumericBandSql
  refine (columnToken_emits _ _ _).bind ?_
  rintro _ _ ⟨rfl, rfl⟩
  refine (Emits.mapM placeholders (P := fun _ tokens => Over ⟨table, definition.field, .band⟩ tokens) fun edge _ =>
    bandClause_emits definition _ edge).bind ?_
  rintro clauses own ⟨rfl, each⟩
  have only := forall_of_forall₂ each
  refine (valueToken_emits _).bind ?_
  rintro _ _ ⟨index, rfl, rfl⟩
  refine .pure ⟨by simp, ?_, ?_⟩
  · simpa [List.flatMap_eq_nil_iff] using fun clause member => (only clause member).plain
  · intro c member
    simp only [List.cons_append, List.nil_append, List.append_assoc, columns_append, columns_lit, columns_column,
      columns_separated, columns_placeholder, columns_nil, List.append_nil, List.mem_cons, List.mem_flatMap] at member
    rcases member with rfl | ⟨clause, listed, inside⟩
    · rfl
    · exact (only clause listed).columns c inside

theorem timeBucketSql_over (engine : Engine) (column : ColumnUse) (bucket : Text) :
    placeholders (timeBucketSql engine [.column column] bucket) = [] ∧
      Over column (timeBucketSql engine [.column column] bucket) := by
  unfold timeBucketSql
  cases engine with
  | postgres =>
    dsimp only
    split <;> exact ⟨rfl, rfl, by simp⟩
  | mysql =>
    dsimp only
    repeat' split
    all_goals exact ⟨rfl, rfl, by simp⟩

theorem aggregateMeasureSql_ok {function : AggregateMeasureFunction} {field : Option Tokens} {tokens : Tokens}
    (ok : aggregateMeasureSql function field = .ok tokens) (silent : placeholders (field.getD []) = [])
    (plain : tables (field.getD []) = []) :
    placeholders tokens = [] ∧ tables tokens = [] ∧ ∀ c ∈ columns tokens, c ∈ columns (field.getD []) := by
  unfold aggregateMeasureSql at ok
  split at ok
  · cases ok
    exact ⟨rfl, rfl, by simp⟩
  · split at ok
    · cases ok
    · cases ok
      simp only [Option.getD_some] at silent plain
      exact ⟨by simp [silent], by simp [plain], by simp⟩

/-- An item without a child count. -/
theorem item_tokens (tokens : Tokens) (name : Text) : (item tokens name).tokens = tokens ++ [lit " AS ", .label name] := by
  simp [item, Item.tokens]

theorem item_placeholders (tokens : Tokens) (name : Text) : placeholders (item tokens name).tokens = placeholders tokens := by
  simp [item_tokens]

theorem item_named {boundary : ActivatedExplorationBoundary} {near : List TableUse} {tokens : Tokens}
    (expression : Expression boundary near tokens) (name : Text) : Expression boundary near (item tokens name).tokens := by
  rw [item_tokens]
  exact ⟨by simp [expression.plain], by simpa using expression.columns⟩

/-! ### Reviewed measures and bands -/

section
variable {digests : Digests} {boundary : ActivatedExplorationBoundary} {context : TrustedContext}

theorem find_of_resourceFor {id : Text} {resource : BoundaryResource} (found : resourceFor boundary id = .ok resource) :
    boundary.resources.find? (fun candidate => candidate.id = id) = some resource := by
  unfold resourceFor at found
  split at found
  · rename_i other selected
    cases found
    exact selected
  · cases found

theorem reviewedRelationship_found {root : BoundaryResource} {id : Text} {relationship : ExplorationRelationship}
    (reviewed : reviewedRelationship digests boundary root id = .ok relationship) :
    root.relationships.find? (fun r => r.id = id) = some relationship := by
  unfold reviewedRelationship at reviewed
  split at reviewed
  · cases reviewed
  · rename_i found selected
    obtain ⟨present, -⟩ := Option.filter_eq_some_iff.mp selected
    iterate 6 obtain ⟨_, -, reviewed⟩ := bind_eq_ok reviewed
    cases reviewed
    exact present

theorem operandTarget_eq {root target : BoundaryResource} {relationship : Option Text}
    (found : resourceFor boundary root.id = .ok root)
    (leads : targetResource digests boundary root (given relationship) = .ok target) :
    operandTarget boundary root relationship = some target := by
  unfold operandTarget
  cases named : given relationship with
  | none =>
    rw [named] at leads
    cases leads
    exact find_of_resourceFor found
  | some id =>
    rw [named] at leads
    obtain ⟨r, reviewed, leads⟩ := bind_eq_ok leads
    dsimp only
    rw [reviewedRelationship_found reviewed]
    exact find_of_resourceFor leads

theorem operand_reviewed {root target : BoundaryResource} {function : AggregateMeasureFunction} {field : Text}
    {relationship : Option Text} (found : resourceFor boundary root.id = .ok root)
    (asserted : assertDerivedBaseMeasure boundary root (.ofField function field relationship) = true)
    (leads : targetResource digests boundary root (given relationship) = .ok target) :
    ReviewedFor boundary target field (.operand function) := by
  simp only [assertDerivedBaseMeasure, operandTarget_eq found leads, Option.any_some] at asserted
  cases function with
  | countDistinct => exact .inl ⟨rfl, by simpa using asserted⟩
  | sum | avg =>
    simp only [Bool.and_eq_true, decide_eq_true_eq] at asserted
    exact .inr ⟨by simp, asserted.1⟩
  | _ => cases asserted

theorem band_reviewed {root target : BoundaryResource} {band : NumericBand} (inside : root ∈ boundary.resources)
    (found : resourceFor boundary root.id = .ok root) (activated : Activated digests boundary)
    (listed : band ∈ root.numericBands)
    (leads : targetResource digests boundary root (given band.relationship) = .ok target) :
    ReviewedFor boundary target band.field .band := by
  have asserted := activated.numericBands root inside
  unfold assertReviewedNumericBands at asserted
  have each := List.all_eq_true.mp asserted band listed
  rw [operandTarget_eq found leads, Option.any_some] at each
  simp only [Bool.and_eq_true, decide_eq_true_eq] at each
  exact each.2

theorem autoBand_reviewed {resource : BoundaryResource} {field : Text} {policy : AutoBandPolicy}
    (inside : resource ∈ boundary.resources) (activated : Activated digests boundary)
    (reviewed : reviewedAutoBand resource field = .ok policy) : ReviewedFor boundary resource field .autoBand := by
  unfold reviewedAutoBand at reviewed
  split at reviewed
  · rename_i other selected
    cases reviewed
    have named : policy.field = field := by simpa using List.find?_some selected
    have listed := List.mem_of_find?_eq_some selected
    have asserted := activated.autoBands resource inside
    unfold assertReviewedAutoBands at asserted
    have each := List.all_eq_true.mp asserted policy listed
    simp only [Bool.and_eq_true, decide_eq_true_eq] at each
    exact ⟨named ▸ each.1.1, policy, listed, named⟩
  · cases reviewed

theorem reviewedDerivedMeasure_mem {resource : BoundaryResource} {name : Text} {definition : DerivedMeasure}
    (reviewed : reviewedDerivedMeasure resource name = .ok definition) : definition ∈ resource.derivedMeasures := by
  unfold reviewedDerivedMeasure at reviewed
  split at reviewed
  · rename_i other selected
    cases reviewed
    exact List.mem_of_find?_eq_some selected
  · cases reviewed

theorem reviewedNumericBand_mem {resource : BoundaryResource} {name : Text} {band : NumericBand}
    (reviewed : reviewedNumericBand resource name = .ok band) : band ∈ resource.numericBands := by
  unfold reviewedNumericBand at reviewed
  split at reviewed
  · rename_i other selected
    cases reviewed
    exact List.mem_of_find?_eq_some selected
  · cases reviewed

/-! ### Child counts -/

theorem onlyProof_mem {relationship : Text} {proofs : List StructuralProof} {proof : StructuralProof}
    (only : onlyProof digests relationship proofs = some proof) : proof ∈ proofs := by
  unfold onlyProof at only
  split at only
  · exact List.mem_of_getLast? only
  · cases only

theorem childProofs_reviewed {child : BoundaryResource} {relationship : Text} {proof : StructuralProof}
    (inside : child ∈ boundary.resources) (listed : proof ∈ childProofs child relationship)
    (catalog : proof.source = databaseCatalog) {link : RelationshipLinkProof} (member : link ∈ proof.links) :
    LinkReviewed boundary link := by
  unfold childProofs at listed
  rcases List.mem_append.mp listed with listed | listed
  · obtain ⟨r, one, same⟩ := List.mem_filterMap.mp listed
    refine ⟨child, inside, .inl ⟨r, one, proof.links, ?_, member⟩⟩
    split at same
    · have kept : r.proof.filter (fun proof => proof.source = databaseCatalog) = some proof := by
        rw [same, Option.filter_eq_some_iff]
        exact ⟨rfl, by simpa using catalog⟩
      unfold relationshipLinks
      rw [kept]
    · cases same
  · obtain ⟨scope, one, same⟩ := List.mem_filterMap.mp listed
    obtain ⟨path, rfl, chosen⟩ := Option.bind_eq_some_iff.mp same
    split at chosen
    · cases chosen
      simp only [List.mem_cons, List.not_mem_nil, or_false] at one
      rcases one with one | one
      · exact ⟨child, inside, .inr ⟨.tenant, path, one.symm, member⟩⟩
      · exact ⟨child, inside, .inr ⟨.principal, path, one.symm, member⟩⟩
    · cases chosen

/-- What the link of a child count is. -/
structure ChildLink (boundary : ActivatedExplorationBoundary) (root child : BoundaryResource)
    (link : RelationshipLinkProof) : Prop where
  found : resourceFor boundary child.id = .ok child
  reviewed : LinkReviewed boundary link
  start : link.sourceResource = child.id
  stop : link.targetResource = root.id

theorem resolveReviewedChildCountLink_ok {root : BoundaryResource} {childResource relationship : Text}
    {reviewed : BoundaryResource × RelationshipLinkProof}
    (ok : resolveReviewedChildCountLink digests boundary root childResource relationship = .ok reviewed) :
    ChildLink boundary root reviewed.1 reviewed.2 := by
  unfold resolveReviewedChildCountLink at ok
  split at ok
  · cases ok
  · rename_i child selected
    obtain ⟨⟨⟩, -, ok⟩ := bind_eq_ok ok
    obtain ⟨⟨⟩, -, ok⟩ := bind_eq_ok ok
    split at ok
    · cases ok
    · rename_i proof only
      obtain ⟨⟨⟩, catalog, ok⟩ := bind_eq_ok ok
      split at ok
      · rename_i link links
        obtain ⟨⟨⟩, shape, ok⟩ := bind_eq_ok ok
        cases ok
        rw [check_ok_iff] at catalog shape
        have inside : child ∈ boundary.resources := List.mem_of_find?_eq_some selected
        exact ⟨resourceFor_of_find selected,
          childProofs_reviewed inside (onlyProof_mem only) catalog.1 (by simp [links]), shape.2.1, shape.2.2.1⟩
      · cases ok

/-- The placeholders of some items. -/
def itemPlaceholders (items : List Item) : List (Placeholder Parameter) :=
  items.flatMap fun item => placeholders item.tokens

/-- The aliases of the child counts of some items. -/
def childNames (items : List Item) : List TableName :=
  items.filterMap fun item => item.child.map fun child => child.table.name

/-- Items over the tables at hand, with child counts that are held to their scopes. -/
structure ItemsOk (boundary : ActivatedExplorationBoundary) (context : TrustedContext) (near : List TableUse)
    (resources : List BoundaryResource) (items : List Item) : Prop where
  plain : PlainItems items
  named : ∀ item ∈ items, Named boundary near item.tokens
  children : ∀ item ∈ items, ∀ child ∈ item.child,
    OccurrenceOk boundary context resources (child.table, child.conditions)

theorem ItemsOk.append {near : List TableUse} {resources : List BoundaryResource} {a b : List Item}
    (one : ItemsOk boundary context near resources a) (two : ItemsOk boundary context near resources b) :
    ItemsOk boundary context near resources (a ++ b) := by
  refine ⟨?_, ?_, ?_⟩
  · intro item member
    exact (List.mem_append.mp member).elim (one.plain item) (two.plain item)
  · intro item member
    exact (List.mem_append.mp member).elim (one.named item) (two.named item)
  · intro item member
    exact (List.mem_append.mp member).elim (one.children item) (two.children item)

theorem ItemsOk.mono {near : List TableUse} {resources more : List BoundaryResource} {items : List Item}
    (ok : ItemsOk boundary context near resources items) (listed : ∀ r ∈ resources, r ∈ more) :
    ItemsOk boundary context near more items :=
  ⟨ok.plain, ok.named, fun item member child one => (ok.children item member child one).mono listed⟩

theorem ItemsOk.flatMap {α : Type} {near : List TableUse} {resources : List BoundaryResource} {parts : List α}
    {items : α → List Item} (each : ∀ part ∈ parts, ItemsOk boundary context near resources (items part)) :
    ItemsOk boundary context near resources (parts.flatMap items) := by
  induction parts with
  | nil => exact ⟨by simp [PlainItems], by simp, by simp⟩
  | cons part rest ih =>
    rw [List.flatMap_cons]
    exact (each part (by simp)).append (ih fun p member => each p (by simp [member]))

/-- An item over an expression. -/
theorem itemsOk_item {near : List TableUse} {resources : List BoundaryResource} {tokens : Tokens} {name : Text}
    (expression : Expression boundary near tokens) : ItemsOk boundary context near resources [item tokens name] := by
  have same : ∀ i ∈ [item tokens name], i = item tokens name := by simp
  refine ⟨?_, ?_, ?_⟩
  · intro i member
    rw [same i member]
    exact ⟨by simp [item, expression.plain], rfl⟩
  · intro i member
    rw [same i member]
    exact (item_named expression name).named
  · intro i member child one
    rw [same i member] at one
    cases one

/-- What a child count is. -/
structure ChildOk (boundary : ActivatedExplorationBoundary) (context : TrustedContext) (root : TableUse)
    (resources : List BoundaryResource) (child : ChildCount) : Prop where
  named : Named boundary [root] child.tokens
  found : AllFound boundary resources
  held : OccurrenceOk boundary context resources (child.table, child.conditions)

theorem childCountSql_emits {root : TableUse} (inside : root.resource ∈ boundary.resources) (adaptive : Bool) (index : ℕ)
    (childResource relationship : Text) :
    Emits (childCountSql digests boundary context root adaptive index childResource relationship) fun result own =>
      placeholders result.1.tokens = own ∧ ChildOk boundary context root result.2 result.1 ∧
        result.1.table.name = .childCount adaptive index := by
  unfold childCountSql
  refine (Emits.ask (Q := fun reviewed own => own = [] ∧ ChildLink boundary root.resource reviewed.1 reviewed.2)
    fun _ ok => ⟨rfl, resolveReviewedChildCountLink_ok ok⟩).bind ?_
  rintro ⟨child, link⟩ _ ⟨rfl, reviewed⟩
  let table : TableUse := ⟨.childCount adaptive index, child⟩
  refine (compileScopePredicates_emits table reviewed.found).bind ?_
  rintro scope _ ⟨rfl, spec⟩
  have linked : Linked boundary table root link :=
    ⟨reviewed.reviewed, reviewed.start, reviewed.stop, resourceFor_mem reviewed.found, inside⟩
  refine (Emits.ask (Q := fun equalities own => own = [] ∧ ∀ equality ∈ equalities,
    placeholders equality = [] ∧ Expression boundary [table, root] equality)
    fun equalities equal => ⟨rfl, onLink_plain linked equal⟩).bind ?_
  rintro correlation _ ⟨rfl, plain⟩
  refine (Emits.ask (Q := fun _ own => own = []) fun _ _ => rfl).bind ?_
  rintro ⟨⟩ _ rfl
  have silent : conditionPlaceholders (correlation.map .plain) = [] := by
    unfold conditionPlaceholders
    rw [List.flatMap_map, List.flatMap_eq_nil_iff]
    intro equality member
    exact (plain equality member).1
  have bare : (correlation.map Condition.plain).flatMap (fun condition => tables condition.tokens) = [] := by
    rw [List.flatMap_map, List.flatMap_eq_nil_iff]
    intro equality member
    exact (plain equality member).2.plain
  have none : ∀ equality ∈ correlation, tables equality = [] := fun equality member => (plain equality member).2.plain
  refine .pure ⟨?_, ⟨?_, spec.found, ?_⟩, rfl⟩
  · have read : placeholders (ChildCount.tokens ⟨table, correlation.map .plain ++ scope.1⟩) =
        conditionPlaceholders (correlation.map .plain ++ scope.1) :=
      filterMap_child (f := Token.placeholder?) (fun _ => rfl) ⟨table, correlation.map Condition.plain ++ scope.1⟩
    rw [read, conditionPlaceholders_append, silent]
    simp
  · intro column member
    have read : columns (ChildCount.tokens ⟨table, correlation.map .plain ++ scope.1⟩) =
        (correlation.map Condition.plain ++ scope.1).flatMap fun condition => columns condition.tokens :=
      filterMap_child (f := Token.column?) (fun _ => rfl) ⟨table, correlation.map Condition.plain ++ scope.1⟩
    rw [read] at member
    rw [tables_child]
    obtain ⟨condition, listed, inside⟩ := List.mem_flatMap.mp member
    rcases List.mem_append.mp listed with listed | listed
    · obtain ⟨equality, one, rfl⟩ := List.mem_map.mp listed
      obtain ⟨near, fine⟩ := (plain equality one).2.columns column inside
      refine ⟨?_, fine⟩
      rcases List.mem_cons.mp near with same | near
      · exact .inr (by simp [occurrenceTables, same, table])
      · exact .inl near
    · obtain ⟨near, fine⟩ := spec.named condition listed column inside
      refine ⟨.inr ?_, fine⟩
      rcases near with near | near
      · rw [List.mem_singleton] at near
        simp [occurrenceTables, near, table]
      · exact List.mem_cons_of_mem _ (List.mem_flatMap.mpr ⟨condition, List.mem_append_right _ listed, near⟩)
  · refine ⟨?_, spec.own, ?_, ?_, ?_⟩
    · intro kind has
      obtain ⟨condition, member, held⟩ := spec.held kind has
      exact ⟨condition, List.mem_append_right _ member, held⟩
    · intro condition member t inside
      rcases List.mem_append.mp member with member | member
      · obtain ⟨equality, one, rfl⟩ := List.mem_map.mp member
        rw [Condition.tokens, none equality one] at inside
        cases inside
      · exact spec.listed condition member t inside
    · show ((List.flatMap _ (correlation.map .plain ++ scope.1)).map TableUse.name).Nodup
      rw [List.flatMap_append, bare]
      exact spec.distinct
    · intro condition member t inside
      rcases List.mem_append.mp member with member | member
      · obtain ⟨equality, one, rfl⟩ := List.mem_map.mp member
        rw [Condition.tokens, none equality one] at inside
        cases inside
      · exact spec.names condition member t inside

end

end SynapsorRunner.ExploreExpressions
