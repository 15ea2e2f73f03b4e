import SynapsorRunner.ExploreSql

/-!
`compileExplorePlan`: the statements for a plan under an activated boundary, with their
parameters. Values are bound in the order in which the conditions are compiled, which is the
order of the text but for the select list; for an engine without numbers the parameters are
put in the order of the text afterwards (`inTextOrder`).
-/
namespace SynapsorRunner.ExploreCompiler
open SynapsorRunner.Doubles SynapsorRunner.NumberText SynapsorRunner.JsonText SynapsorRunner.ExploreBoundaries
open SynapsorRunner.ExplorePlans SynapsorRunner.NumberedParameters SynapsorRunner.ExploreSql
open SynapsorRunner.Protocol (Engine)
open SynapsorRunner.ComplementReleases (Operator FilterValue ExploreFilter AggregateMeasureFunction AggregateMeasure
  AggregateDimension TimeBucket CanonicalTimeWindow AggregateExplorePlan)

abbrev Compile := Binder Parameter Refusal

structure TrustedContext where
  tenant : Text
  principal : Text

def TrustedContext.value (context : TrustedContext) : ScopeKind → Text
  | .tenant => context.tenant
  | .principal => context.principal

inductive ReviewedValueControl where
  | excludeUnreviewedRows (resource field : Text)
  | bucketUnreviewedValues (resource field outputColumn marker : Text)
  deriving DecidableEq

inductive Period where
  | period1
  | period2
  deriving DecidableEq

structure CompiledExploreQuery where
  statement : Statement
  params : List Parameter
  resources : List BoundaryResource
  reviewedValueControls : List ReviewedValueControl
  period : Option Period
  reportingTimezone : Option Text

/-! ### Names and values -/

/-- The refusals of `quote`. -/
def quote (identifier : Text) : Except Refusal Unit :=
  check (bounded identifier = true) (planError (ascii "activated database identifier is not a bounded printable name"))

def columnToken (table : TableUse) (field : Text) (use : Use) : Compile Token := do
  ask (quote field)
  pure (.column ⟨table, field, use⟩)

def quoteTable (resource : BoundaryResource) : Except Refusal Unit := do
  quote resource.schema
  quote resource.table

def valueToken (value : Parameter) : Compile Token := do
  let placeholder ← bindValue value
  pure (.placeholder placeholder)

def textValue (value : Text) : Parameter := .scalar (.string value)

def numbered (name : String) (index : ℕ) : Text := ascii name ++ ascii (toString index)

/-- The values of a `Map` of resources by their ids, in the order in which they were set. -/
def setResource (resources : List BoundaryResource) (resource : BoundaryResource) : List BoundaryResource :=
  if resources.any fun other => other.id = resource.id then
    resources.map fun other => if other.id = resource.id then resource else other
  else resources ++ [resource]

def uniqueResources (resources : List BoundaryResource) : List BoundaryResource := resources.foldl setResource []

/-! ### Trusted scopes -/

def scopeKey (resource : BoundaryResource) : ScopeKind → Option Text
  | .tenant => resource.tenantKey
  | .principal => resource.principalKey

def scopePath (resource : BoundaryResource) : ScopeKind → Option DerivedScopePath
  | .tenant => resource.tenantScope
  | .principal => resource.principalScope

/-- The columns of a link, each equal to the other. -/
def linkEqualities (source target : TableUse) (link : RelationshipLinkProof) :
    List Text → List Text → Except Refusal (List Tokens)
  | [], _ => .ok []
  -- a column that the other side does not have is no name
  | _ :: _, [] => .error (planError [])
  | column :: rest, other :: others => do
    quote column
    quote other
    let more ← linkEqualities source target link rest others
    pure ([.column ⟨source, column, .linkSource link⟩, lit " = ", .column ⟨target, other, .linkTarget link⟩] :: more)

def onLink (source target : TableUse) (link : RelationshipLinkProof) : Except Refusal (List Tokens) :=
  linkEqualities source target link link.sourceColumns link.targetColumns

section
variable (digests : Digests) (boundary : ActivatedExplorationBoundary) (context : TrustedContext)

def malformedScope (resource : BoundaryResource) (kind : ScopeKind) (problem : String) : Refusal :=
  .boundaryMismatch (ascii "Reviewed resource " ++ resource.id ++ ascii " " ++ kind.text ++ ascii problem)

/-- The tables that the links of a derived scope lead to. -/
def scopeSteps (kind : ScopeKind) (start : TableUse) :
    TableUse → List Text → ℕ → List RelationshipLinkProof → Except Refusal (List ScopeStep)
  | _, _, _, [] => .ok []
  | source, visited, index, link :: rest => do
    check (link.sourceResource = source.resource.id ∧ link.targetResource ∉ visited ∧ link.nullable = false ∧
        link.proven = true ∧ 1 ≤ link.sourceColumns.length ∧ link.sourceColumns.length = link.targetColumns.length)
      (malformedScope start.resource kind " derived scope is not a continuous non-null many-to-one path.")
    let resource ← resourceFor boundary link.targetResource
    quoteTable resource
    let target : TableUse := ⟨.step start.name kind index, resource⟩
    let equalities ← onLink source target link
    let more ← scopeSteps kind start target (resource.id :: visited) (index + 1) rest
    pure (⟨target, equalities⟩ :: more)

/-- The names of some links, with two underscores between each two. -/
def linkNames (links : List RelationshipLinkProof) : Text :=
  (ascii "__").intercalate (links.map RelationshipLinkProof.constraintName)

def derivedScopePredicate (kind : ScopeKind) (table : TableUse) (scope : DerivedScopePath) :
    Compile (Condition × List BoundaryResource) := do
  ask (check (scope.mode = ascii "derived" ∧ scope.proof.source = databaseCatalog ∧ 1 ≤ scope.proof.links.length ∧
      scope.proof.links.length ≤ reviewedDerivedScopeHopLimit boundary.budgets ∧
      scope.pathId = linkNames scope.proof.links ∧ digests.links scope.proof.links = scope.proof.digest)
    (malformedScope table.resource kind " has malformed derived scope."))
  let steps ← ask (scopeSteps boundary kind table table [table.resource.id] 0 scope.proof.links)
  let ancestor ← ask (resourceFor boundary scope.ancestorResource)
  match steps with
  | [] => ask (.error (malformedScope table.resource kind " has malformed derived scope."))
  | first :: more => do
    let last := (more.getLast?.getD first).table
    ask (check (last.resource.id = ancestor.id ∧ scopeKey ancestor kind = some scope.ancestorColumn)
      (malformedScope table.resource kind " derived scope does not terminate at its reviewed direct scope column."))
    let column ← columnToken last scope.ancestorColumn (.scope kind)
    let value ← valueToken (textValue (context.value kind))
    pure (.within ⟨first, more, [column, lit " = ", value]⟩, (first :: more).map fun step => step.table.resource)

/-- The part of `compileScopePredicates` for one kind of scope. -/
def scopePredicate (kind : ScopeKind) (table : TableUse) : Compile (List Condition × List BoundaryResource) :=
  match given (scopeKey table.resource kind) with
  | some key => do
    let column ← columnToken table key (.scope kind)
    let value ← valueToken (textValue (context.value kind))
    pure ([.plain [column, lit " = ", value]], [])
  | none => match scopePath table.resource kind with
    | some scope => do
      let derived ← derivedScopePredicate digests boundary context kind table scope
      pure ([derived.1], derived.2)
    | none => pure ([], [])

def compileScopePredicates (table : TableUse) : Compile (List Condition × List BoundaryResource) := do
  ask (check (independentlyScoped boundary table.resource = true) (.boundaryMismatch (ascii "Reviewed resource " ++
    table.resource.id ++
    ascii " has no direct or derived tenant scope and is not reviewed as a shared reference.")))
  let tenant ← scopePredicate digests boundary context .tenant table
  let principal ← scopePredicate digests boundary context .principal table
  pure (tenant.1 ++ principal.1, uniqueResources (table.resource :: tenant.2 ++ principal.2))

end

/-! ### Conditions of a plan -/

def operatorSql : Operator → String
  | .eq => " = "
  | .neq => " <> "
  | .lt => " < "
  | .lte => " <= "
  | .gt => " > "
  | .gte => " >= "
  | .among => " IN "

/-- Placeholders for some values, in parentheses. -/
def valueList (values : List Parameter) : Compile Tokens := do
  let placeholders ← values.mapM valueToken
  pure (lit "(" :: separated ", " (placeholders.map fun placeholder => [placeholder]) ++ [lit ")"])

def compared (column : Token) (operator : String) (value : Parameter) : Compile Condition := do
  let placeholder ← valueToken value
  pure (.plain [column, lit operator, placeholder])

def filterSql (filter : ExploreFilter) (table : TableUse) : Compile Condition := do
  let column ← columnToken table filter.field (.filter filter.op)
  match filter.op, filter.value with
  | .among, .many values => do
    let list ← valueList (values.map .scalar)
    pure (.plain ([column, lit " IN "] ++ list))
  -- one value is no list of values
  | .among, .one _ => ask (.error (planError []))
  | op, .one value => compared column (operatorSql op) (.scalar value)
  | op, .many values => compared column (operatorSql op) (.scalar (.array values))

/-- The conditions of `appendTimeWindowPredicate`, and those of a period of a comparison. -/
def rangeSql (field : Text) (range : Text × Text) (table : TableUse) : Compile (List Condition) := do
  let column ← columnToken table field .timeWindow
  let first ← compared column " >= " (textValue range.1)
  let last ← compared column " < " (textValue range.2)
  pure [first, last]

def reviewedEnumAllowlistSql (field : Text) (table : TableUse) : Compile Condition := do
  ask (check (table.resource.enumValues field ≠ []) (planError (table.resource.id ++ ascii "." ++ field ++
    ascii " has no active reviewed value allowlist")))
  let list ← valueList ((table.resource.enumValues field).map textValue)
  let column ← columnToken table field .values
  pure (.plain ([column, lit " IN "] ++ list))

/-! ### Expressions of the select list -/

def quotedText : Engine → String
  | .postgres => " AS TEXT)"
  | .mysql => " AS CHAR)"

def reviewedEnumBucketSql (engine : Engine) (field : Text) (table : TableUse) (marker : Text) : Compile Tokens := do
  ask (check (table.resource.enumValues field ≠ []) (planError (table.resource.id ++ ascii "." ++ field ++
    ascii " has no active reviewed value allowlist")))
  let column ← columnToken table field .group
  let textColumn : Tokens := [lit "CAST(", column, lit (quotedText engine)]
  let list ← valueList ((table.resource.enumValues field).map textValue)
  let other ← valueToken (textValue marker)
  pure ([lit "CASE WHEN ", column, lit " IS NULL THEN NULL WHEN "] ++ textColumn ++ lit " IN " :: list ++
    lit " THEN " :: textColumn ++ [lit " ELSE ", other, lit " END"])

/-- The label of a bucket of a band. -/
def bandLabel (label : Option Text) : Parameter := .scalar ((label.map Json.string).getD .null)

def bandClause (definition : NumericBand) (column : Token) (edge : Number × ℕ) : Compile Tokens := do
  let edgePlaceholder ← valueToken (.scalar (.number edge.1))
  let labelPlaceholder ← valueToken (bandLabel definition.bucketLabels[edge.2]?)
  pure [lit "WHEN ", column, lit " < ", edgePlaceholder, lit " THEN ", labelPlaceholder]

def reviewedNumericBandSql (definition : NumericBand) (table : TableUse) : Compile Tokens := do
  let column ← columnToken table definition.field .band
  let clauses ← definition.edges.zipIdx.mapM (bandClause definition column)
  let last ← valueToken (bandLabel definition.bucketLabels.getLast?)
  pure ([lit "CASE WHEN ", column, lit " IS NULL THEN NULL "] ++ separated " " clauses ++
    [lit " ELSE ", last, lit " END"])

def functionSql : AggregateMeasureFunction → String
  | .count | .nonNullCount => "COUNT("
  | .countDistinct => "COUNT(DISTINCT "
  | .sum => "SUM("
  | .avg => "AVG("
  | .stddevSamp => "STDDEV_SAMP("
  | .stddevPop => "STDDEV_POP("
  | .varSamp => "VAR_SAMP("
  | .varPop => "VAR_POP("
  | .nullCount => "(COUNT(*) - COUNT("
  | .completionRate => "(100.0 * COUNT("

def functionEnd : AggregateMeasureFunction → String
  | .nullCount => "))"
  | .completionRate => ") / NULLIF(COUNT(*), 0))"
  | _ => ")"

def aggregateMeasureSql (function : AggregateMeasureFunction) (field : Option Tokens) : Except Refusal Tokens :=
  if function = .count then .ok [lit "COUNT(*)"]
  else match field with
    | none => .error (planError (function.text ++ ascii " requires a reviewed field"))
    | some field => .ok (lit (functionSql function) :: field ++ [lit (functionEnd function)])

def countOf (field : Tokens) : Tokens := lit "COUNT(" :: field ++ [lit ")"]

def timeBucketSql (engine : Engine) (column : Tokens) (bucket : Text) : Tokens :=
  match engine with
  | .postgres =>
    if bucket = ascii "day_of_week" then lit "EXTRACT(ISODOW FROM " :: column ++ [lit ")"]
    else [lit "date_trunc('", .text bucket, lit "', "] ++ column ++ [lit ")"]
  | .mysql =>
    if bucket = ascii "hour" then lit "DATE_FORMAT(" :: column ++ [lit ", '%Y-%m-%d %H:00:00')"]
    else if bucket = ascii "day" then lit "DATE(" :: column ++ [lit ")"]
    else if bucket = ascii "week" then
      lit "DATE_SUB(DATE(" :: column ++ lit "), INTERVAL WEEKDAY(" :: column ++ [lit ") DAY)"]
    else if bucket = ascii "month" then lit "DATE_FORMAT(" :: column ++ [lit ", '%Y-%m-01')"]
    else if bucket = ascii "quarter" then lit "CONCAT(YEAR(" :: column ++ lit "), '-Q', QUARTER(" :: column ++ [lit "))"]
    else if bucket = ascii "year" then lit "YEAR(" :: column ++ [lit ")"]
    else lit "(WEEKDAY(" :: column ++ [lit ") + 1)"]

/-- An item of the select list without a child count. -/
def item (tokens : Tokens) (name : Text) : Item := ⟨tokens ++ [lit " AS ", .label name], none, []⟩

/-! ### Joins -/

structure Joined where
  joins : List Join
  targets : List (Text × TableUse)
  resources : List BoundaryResource
  /-- The tables of the links that are joined so far, by the digests of their paths. -/
  joinedPrefixes : List (Digest × TableUse)

/-- The table of a field with an optional relationship. -/
def Joined.tableFor (joined : Joined) (root : TableUse) (relationship : Option Text) : TableUse :=
  match given relationship with
  | some id => (entry joined.targets id).getD root
  | none => root

section
variable (digests : Digests) (boundary : ActivatedExplorationBoundary) (context : TrustedContext)

def joinTable (keepNull : Bool) (key : Digest) (source : TableUse) (link : RelationshipLinkProof) (joined : Joined) :
    Compile (Joined × TableUse) := do
  let resource ← ask (resourceFor boundary link.targetResource)
  let target : TableUse := ⟨.joined (joined.joins.length + 1), resource⟩
  let equalities ← ask (onLink source target link)
  let scope ← compileScopePredicates digests boundary context target
  ask (quoteTable resource)
  pure ({ joined with
    joins := joined.joins ++ [⟨keepNull, target, equalities.map .plain ++ scope.1⟩]
    resources := joined.resources ++ resource :: scope.2
    joinedPrefixes := joined.joinedPrefixes ++ [(key, target)] }, target)

/-- The links of a relationship, of which those before are joined. -/
def joinLinks (id : Text) (keepNull : Bool) :
    TableUse → List RelationshipLinkProof → List RelationshipLinkProof → Joined → Compile (Joined × TableUse)
  | source, _, [], joined => pure (joined, source)
  | source, before, link :: rest, joined => do
    ask (check (link.sourceResource = source.resource.id) (.relationshipForbidden (ascii "Relationship " ++ id ++
      ascii " contains a discontinuous structural path.")))
    let key := digests.joined keepNull (before ++ [link])
    match entry joined.joinedPrefixes key with
    | some existing => joinLinks id keepNull existing (before ++ [link]) rest joined
    | none => do
      let next ← joinTable digests boundary context keepNull key source link joined
      joinLinks id keepNull next.2 (before ++ [link]) rest next.1

def joinRelationship (root : TableUse) (joined : Joined) (id : Text) : Compile Joined := do
  let relationship ← ask (reviewedRelationship digests boundary root.resource id)
  let links ← ask (relationshipLinks root.resource relationship)
  let reached ← joinLinks digests boundary context id (relationship.unmatchedRows = some .keepNull) root [] links joined
  pure { reached.1 with targets := reached.1.targets ++ [(id, reached.2)] }

def joinRelationships (root : TableUse) : List Text → Joined → Compile Joined
  | [], joined => pure joined
  | id :: rest, joined => do
    let next ← joinRelationship digests boundary context root joined id
    joinRelationships root rest next

def compileReviewedRelationshipJoins (root : TableUse) (relationshipIds : List Text) : Compile Joined :=
  joinRelationships digests boundary context root relationshipIds ⟨[], [], [root.resource], []⟩

end

/-! ### Rows -/

section
variable (digests : Digests) (boundary : ActivatedExplorationBoundary) (context : TrustedContext)

/-- A part of a plan that may be missing. -/
def compileEach {α β : Type} (compile : α → Compile (List β)) : Option α → Compile (List β)
  | none => pure []
  | some a => compile a

def windowSql (window : CanonicalTimeWindow) (table : TableUse) : Compile (List Condition) :=
  rangeSql window.field (window.start, window.stop) table

/-- The fields of a row plan whose values are reviewed, each once. -/
def enumUses (resource : BoundaryResource) (plan : RowExplorePlan) : List Text :=
  ((plan.select ++ plan.filters.map ExploreFilter.field).filter fun field => resource.enumValues field ≠ []).eraseDups

def directionSql : Direction → String
  | .asc => " ASC"
  | .desc => " DESC"

def selectedColumn (table : TableUse) (field : Text) : Compile Item := do
  let column ← columnToken table field .select
  pure (item [column] field)

def sortedColumn (table : TableUse) (order : Text × Direction) : Compile Tokens := do
  let column ← columnToken table order.1 .sort
  pure [column, lit (directionSql order.2)]

def rowOrderSql (table : TableUse) : List (Text × Direction) → Compile Tokens
  | [] => do
    let column ← columnToken table table.resource.primaryKey .primaryKey
    pure [lit " ORDER BY ", column, lit " ASC"]
  | orders => do
    let sorted ← orders.mapM (sortedColumn table)
    pure (lit " ORDER BY " :: separated ", " sorted)

def rowStatement (plan : RowExplorePlan) (root : TableUse) : Compile (Statement × List BoundaryResource) := do
  let scope ← compileScopePredicates digests boundary context root
  let filters ← plan.filters.mapM fun filter => filterSql filter root
  let window ← compileEach (fun window => windowSql window root) plan.timeWindow
  let values ← (enumUses root.resource plan).mapM fun field => reviewedEnumAllowlistSql field root
  let select ← plan.select.mapM (selectedColumn root)
  let order ← rowOrderSql root plan.orderBy
  let limit ← valueToken (.limit plan.limit)
  ask (quoteTable root.resource)
  pure (⟨[], select, root, [], scope.1 ++ filters ++ window ++ values, order ++ [lit " LIMIT ", limit]⟩, scope.2)

def compileRowPlan (plan : RowExplorePlan) : Except Refusal CompiledExploreQuery := do
  let resource ← resourceFor boundary plan.resource
  let compiled ← rowStatement digests boundary context plan ⟨.root, resource⟩ []
  pure { statement := compiled.1.1
         params := compiled.2
         resources := compiled.1.2
         reviewedValueControls := (enumUses resource plan).map fun field => .excludeUnreviewedRows resource.id field
         period := none
         reportingTimezone := boundary.reportingTimezone }

/-! ### The rows of an aggregate -/

/-- The relationships of a plan, given those of its measures and dimensions. -/
def namedRelationships (plan : AggregateExplorePlan) (measures dimensions : List (List Text)) : List Text :=
  plan.relationship.toList ++ measures.flatten ++ dimensions.flatten ++
    (plan.timeBucket.bind TimeBucket.relationship).toList ++
    (plan.timeWindow.bind CanonicalTimeWindow.relationship).toList ++
    plan.filters.filterMap ExploreFilter.relationship ++
    (plan.comparison.bind fun comparison => comparison.relationship).toList

def relationshipIds (resource : BoundaryResource) (plan : AggregateExplorePlan) : Except Refusal (List Text) := do
  let measures ← plan.measures.mapM (measureRelationships resource)
  let dimensions ← plan.dimensions.mapM (dimensionRelationships resource)
  pure ((namedRelationships plan measures dimensions).filter fun id => !id.isEmpty).eraseDups

def hasSequentialMeasure (resource : BoundaryResource) (plan : AggregateExplorePlan) : Bool :=
  plan.measures.any fun
    | .base .. => false
    | .derived name => match reviewedDerivedMeasure resource name with
      | .ok definition => match definition.body with
        | .ratio shape .. | .postAggregate shape _ | .childCount shape .. => isSequentialDerivedMeasureShape shape
      | .error _ => false

def notNullSql (bucket : TimeBucket) (table : TableUse) : Compile (List Condition) := do
  let column ← columnToken table bucket.field (.timeBucket bucket.bucket)
  pure [.plain [column, lit " IS NOT NULL"]]

/-- Uses of a column of a table, each once. -/
def firstUses : List (TableName × Text) → List (Text × TableUse) → List (Text × TableUse)
  | _, [] => []
  | seen, use :: rest =>
    if (use.2.name, use.1) ∈ seen then firstUses seen rest else use :: firstUses ((use.2.name, use.1) :: seen) rest

def allowlistUses (plan : AggregateExplorePlan) (root : TableUse) (joined : Joined) : List (Text × TableUse) :=
  firstUses [] ((plan.filters.map fun filter => (filter.field, joined.tableFor root filter.relationship)).filter
    fun use => use.2.resource.enumValues use.1 ≠ [])

/-- The rows that an aggregate is over, as both compilers have them. -/
structure ScopedRows where
  joined : Joined
  conditions : List Condition
  resources : List BoundaryResource
  controls : List ReviewedValueControl

def compileScopedRows (plan : AggregateExplorePlan) (root : TableUse) (ids : List Text) : Compile ScopedRows := do
  let joined ← compileReviewedRelationshipJoins digests boundary context root ids
  let scope ← compileScopePredicates digests boundary context root
  let filters ← plan.filters.mapM fun filter => filterSql filter (joined.tableFor root filter.relationship)
  let window ← compileEach (fun window => windowSql window (joined.tableFor root window.relationship)) plan.timeWindow
  let sequential ← compileEach (fun bucket => notNullSql bucket (joined.tableFor root bucket.relationship))
    (plan.timeBucket.filter fun _ => hasSequentialMeasure root.resource plan)
  let values ← (allowlistUses plan root joined).mapM fun use => reviewedEnumAllowlistSql use.1 use.2
  pure ⟨joined, scope.1 ++ filters ++ window ++ sequential ++ values, scope.2,
    (allowlistUses plan root joined).map fun use => .excludeUnreviewedRows use.2.resource.id use.1⟩

/-! ### Measures -/

/-- An expression with the expression that counts its contributors. -/
structure Measured where
  value : Item
  contributors : Tokens
  resources : List BoundaryResource

def operandSql (root : TableUse) (joined : Joined) : DerivedBaseMeasure → Compile (Tokens × Tokens)
  | .count => pure ([lit "COUNT(*)"], [lit "COUNT(*)"])
  | .ofField function field relationship => do
    let column ← columnToken (joined.tableFor root relationship) field (.operand function)
    let value ← ask (aggregateMeasureSql function (some [column]))
    pure (value, countOf [column])

def ratioSql (shape : Text) (numerator denominator : Tokens) : Tokens :=
  lit "CASE WHEN " :: denominator ++ lit " IS NULL OR " :: denominator ++ lit " = 0 THEN NULL ELSE (" ::
    lit (if shape = ascii "percentage" then "100.0" else "1.0") :: lit " * " :: numerator ++ lit " / " :: denominator ++
    [lit ") END"]

def leastSql (first second : Tokens) : Tokens :=
  lit "LEAST(COUNT(*), " :: first ++ lit ", " :: second ++ [lit ")"]

/-- The rows of a child of the root, with its own scope. -/
def childCountSql (root : TableUse) (adaptive : Bool) (index : ℕ) (childResource relationship : Text) :
    Compile (ChildCount × List BoundaryResource) := do
  let reviewed ← ask (resolveReviewedChildCountLink digests boundary root.resource childResource relationship)
  let table : TableUse := ⟨.childCount adaptive index, reviewed.1⟩
  let scope ← compileScopePredicates digests boundary context table
  let correlation ← ask (onLink table root reviewed.2)
  ask (quoteTable reviewed.1)
  pure (⟨table, correlation.map .plain ++ scope.1⟩, scope.2)

def compiledDerivedMeasureSql (root : TableUse) (joined : Joined) (index : ℕ) (definition : DerivedMeasure) :
    Compile Measured :=
  match definition.body with
  | .childCount shape childResource relationship => do
    let child ← childCountSql digests boundary context root false index childResource relationship
    pure ⟨⟨[lit (if shape = ascii "child_count_total" then "SUM(" else "AVG(1.0 * ")], some child.1, [lit ")"]⟩,
      [lit "COUNT(*)"], child.2⟩
  | .postAggregate _ base => do
    let operand ← operandSql root joined base
    pure ⟨⟨operand.1, none, []⟩, operand.2, []⟩
  | .ratio shape numerator denominator => do
    let above ← operandSql root joined numerator
    let below ← operandSql root joined denominator
    pure ⟨⟨ratioSql shape above.1 below.1, none, []⟩, leastSql above.2 below.2, []⟩

def fieldSql (table : TableUse) (use : Use) : Option Text → Compile (Option Tokens)
  | none => pure none
  | some field => do
    let column ← columnToken table field use
    pure (some [column])

/-- The item for the contributors of a measure that takes single values. -/
def contributorItem (function : AggregateMeasureFunction) (field : Option Tokens) (index : ℕ) : List Item :=
  if contributorAware function then [item (countOf (field.getD [])) (numbered "__measure_cohort_" index)] else []

def measureSql (root : TableUse) (joined : Joined) : AggregateMeasure × ℕ →
    Compile (List Item × List BoundaryResource)
  | (.derived name, index) => do
    let definition ← ask (reviewedDerivedMeasure root.resource name)
    let measured ← compiledDerivedMeasureSql digests boundary context root joined index definition
    pure ([{ measured.value with stop := measured.value.stop ++ [lit " AS ", .label (numbered "measure_" index)] },
      item measured.contributors (numbered "__measure_cohort_" index)], measured.resources)
  | (.base function field relationship, index) => do
    let field ← fieldSql (joined.tableFor root relationship) (.measure function) field
    let value ← ask (aggregateMeasureSql function field)
    pure (item value (numbered "measure_" index) :: contributorItem function field index, [])

/-! ### Aggregates -/

/-- An item of the select list with what its groups are named by. -/
structure Grouped where
  item : Item
  groupBy : Tokens
  controls : List ReviewedValueControl

def dimensionSql (engine : Engine) (marker : Text) (root : TableUse) (joined : Joined) :
    AggregateDimension × ℕ → Compile Grouped
  | (.autoBand .., _) => ask (.error (planError (ascii "adaptive numeric bands use the dedicated auto-band compiler")))
  | (.numericBand name, index) => do
    let definition ← ask (reviewedNumericBand root.resource name)
    let expression ← reviewedNumericBandSql definition (joined.tableFor root definition.relationship)
    pure ⟨item expression (numbered "dimension_" index), [.text (ascii (toString (index + 1)))], []⟩
  | (.field field relationship, index) =>
    let table := joined.tableFor root relationship
    if table.resource.enumValues field ≠ [] then do
      let expression ← reviewedEnumBucketSql engine field table marker
      pure ⟨item expression (numbered "dimension_" index), [.text (ascii (toString (index + 1)))],
        [.bucketUnreviewedValues table.resource.id field (numbered "dimension_" index) marker]⟩
    else do
      let column ← columnToken table field .group
      pure ⟨item [column] (numbered "dimension_" index), [column], []⟩

def bucketSql (engine : Engine) (root : TableUse) (joined : Joined) (bucket : TimeBucket) : Compile (List Grouped) := do
  let column ← columnToken (joined.tableFor root bucket.relationship) bucket.field (.timeBucket bucket.bucket)
  let expression := timeBucketSql engine [column] bucket.bucket
  pure [⟨item expression (ascii "time_bucket"), expression, []⟩]

def groupByTokens (keyword : String) (groupBy : List Tokens) : Tokens :=
  if groupBy = [] then [] else lit keyword :: separated ", " groupBy

/-- The order of the groups; `byTime` is true of a plan whose groups have a time. -/
def orderTokens (orderBy : Option AggregateOrder) (byTime : Bool) (groupBy : List Tokens) : Tokens :=
  match orderBy with
  | some (.measure index direction) =>
    [lit " ORDER BY ", .label (numbered "measure_" index), lit (directionSql direction)]
  | some (.timeBucket direction) =>
    if byTime then [lit " ORDER BY ", .label (ascii "time_bucket"), lit (directionSql direction)]
    else groupByTokens " ORDER BY " groupBy
  | _ => groupByTokens " ORDER BY " groupBy

/-- `isRankedAggregatePlan`. -/
def isRankedAggregatePlan (plan : RankedAggregatePlan) (resource : BoundaryResource) : Bool :=
  (match plan.orderBy with
    | some (.measure ..) | some (.comparisonChange ..) => true
    | _ => false) ||
  plan.measures.any fun
    | .base .. => false
    | .derived name => match reviewedDerivedMeasure resource name with
      | .ok definition => match definition.body with
        | .postAggregate .. => true
        | _ => false
      | .error _ => false

def aggregateUnderlyingGroupLimit (plan : RankedAggregatePlan) (resource : BoundaryResource) : ℕ :=
  if isRankedAggregatePlan plan resource then reviewedRankedGroupLimit boundary.budgets else boundary.budgets.maxGroups

/-- The parameters of an engine that takes them in the order of the text, where those of the
    select list come first. -/
def inTextOrder (engine : Engine) (beforeSelect afterSelect : ℕ) (params : List Parameter) : List Parameter :=
  match engine with
  | .postgres => params
  | .mysql => (params.drop beforeSelect).take (afterSelect - beforeSelect) ++ params.take beforeSelect ++
      params.drop afterSelect

/-- The select list of an aggregate and its groups. -/
structure Selected where
  items : List Item
  groupBy : List Tokens
  resources : List BoundaryResource
  controls : List ReviewedValueControl

/-- A range of a comparison. -/
abbrev ComparisonPeriod := (Text × Text) × Period

def comparisonSql (plan : AggregateExplorePlan) (root : TableUse) (joined : Joined) (period : ComparisonPeriod) :
    Compile (List Condition) :=
  compileEach (fun comparison : ComplementReleases.Comparison =>
    rangeSql comparison.field period.1 (joined.tableFor root comparison.relationship)) plan.comparison

def aggregateRows (plan : AggregateExplorePlan) (root : TableUse) (ids : List Text) (period : Option ComparisonPeriod) :
    Compile ScopedRows := do
  let rows ← compileScopedRows digests boundary context plan root ids
  let compared ← compileEach (comparisonSql plan root rows.joined) period
  pure { rows with conditions := rows.conditions ++ compared }

def aggregateSelect (engine : Engine) (marker : Text) (plan : AggregateExplorePlan) (root : TableUse)
    (joined : Joined) (period : Option ComparisonPeriod) : Compile Selected := do
  let dimensions ← plan.dimensions.zipIdx.mapM (dimensionSql engine marker root joined)
  let buckets ← compileEach (bucketSql engine root joined) (plan.timeBucket.filter fun _ => period.isNone)
  let measures ← plan.measures.zipIdx.mapM (measureSql digests boundary context root joined)
  ask (quoteTable root.resource)
  pure ⟨(dimensions ++ buckets).map Grouped.item ++ measures.flatMap Prod.fst ++
      [item [lit "COUNT(*)"] (ascii "__cohort_size")],
    (dimensions ++ buckets).map Grouped.groupBy, measures.flatMap Prod.snd, dimensions.flatMap Grouped.controls⟩

def limitTokens (rows : ℕ) : Compile Tokens := do
  let limit ← valueToken (.limit rows)
  pure [lit " LIMIT ", limit]

/-- `compileAggregatePlan` of a plan without an adaptive band. -/
def compilePlainAggregate (engine : Engine) (marker : Text) (plan : RankedAggregatePlan) (resource : BoundaryResource)
    (period : Option ComparisonPeriod) : Except Refusal CompiledExploreQuery := do
  let ids ← relationshipIds resource plan.toAggregateExplorePlan
  let rows ← aggregateRows digests boundary context plan.toAggregateExplorePlan ⟨.root, resource⟩ ids period []
  let selected ← aggregateSelect digests boundary context engine marker plan.toAggregateExplorePlan ⟨.root, resource⟩
    rows.1.joined period rows.2
  let limit ← limitTokens (aggregateUnderlyingGroupLimit boundary plan resource + 1) selected.2
  pure { statement := ⟨[], selected.1.items, ⟨.root, resource⟩, rows.1.joined.joins, rows.1.conditions,
           groupByTokens " GROUP BY " selected.1.groupBy ++
             orderTokens plan.orderBy period.isNone selected.1.groupBy ++ limit.1⟩
         params := inTextOrder engine rows.2.length selected.2.length limit.2
         resources := uniqueResources
           (uniqueResources rows.1.joined.resources ++ rows.1.resources ++ selected.1.resources)
         reviewedValueControls := (rows.1.controls ++ selected.1.controls).eraseDups
         period := period.map Prod.snd
         reportingTimezone := boundary.reportingTimezone }

/-! ### Adaptive bands -/

/-- A name of the outer queries. -/
def outer (of : String) (name : Text) : Tokens := [lit of, .label name]

/-- The items that a method of an adaptive band needs of its column. -/
def autoItems (column : Token) (method : Text) : List Item :=
  let nullPartition : Tokens := [lit "CASE WHEN ", column, lit " IS NULL THEN 0 ELSE 1 END"]
  item [column] (ascii "__auto_value") ::
    if method = ascii "quantile" then
      [item (lit "CUME_DIST() OVER (PARTITION BY " :: nullPartition ++ [lit " ORDER BY ", column, lit ")"])
        (ascii "__auto_metric")]
    else
      [item ([lit "MIN(", column, lit ") OVER (PARTITION BY "] ++ nullPartition ++ [lit ")"]) (ascii "__auto_min"),
       item ([lit "MAX(", column, lit ") OVER (PARTITION BY "] ++ nullPartition ++ [lit ")"]) (ascii "__auto_max")]

/-- A dimension of a plan with an adaptive band, which itself needs no item of its own. -/
def projectedDimension (engine : Engine) (marker : Text) (root : TableUse) (joined : Joined) (autoIndex : ℕ) :
    AggregateDimension × ℕ → Compile (List Grouped)
  | (.autoBand .., index) =>
    ask (if index = autoIndex then .ok []
      else .error (planError (ascii "one aggregate plan may use at most one reviewed auto band")))
  | (.numericBand name, index) => do
    let definition ← ask (reviewedNumericBand root.resource name)
    let expression ← reviewedNumericBandSql definition (joined.tableFor root definition.relationship)
    pure [⟨item expression (numbered "__dimension_" index), [], []⟩]
  | (.field field relationship, index) =>
    let table := joined.tableFor root relationship
    if table.resource.enumValues field ≠ [] then do
      let expression ← reviewedEnumBucketSql engine field table marker
      pure [⟨item expression (numbered "__dimension_" index), [],
        [.bucketUnreviewedValues table.resource.id field (numbered "dimension_" index) marker]⟩]
    else do
      let column ← columnToken table field .group
      pure [⟨item [column] (numbered "__dimension_" index), [], []⟩]

def projectedBucket (engine : Engine) (root : TableUse) (joined : Joined) (bucket : TimeBucket) :
    Compile (List Grouped) := do
  let column ← columnToken (joined.tableFor root bucket.relationship) bucket.field (.timeBucket bucket.bucket)
  pure [⟨item (timeBucketSql engine [column] bucket.bucket) (ascii "__time_bucket"), [], []⟩]

/-- What a measure of a plan with an adaptive band projects, and how it is measured then. -/
structure Projected where
  items : List Item
  value : Tokens
  contributors : Option Tokens
  resources : List BoundaryResource

def projectOperand (root : TableUse) (joined : Joined) (name : Text) :
    DerivedBaseMeasure → Compile (List Item × Tokens × Tokens)
  | .count => pure ([], [lit "COUNT(*)"], [lit "COUNT(*)"])
  | .ofField function field relationship => do
    let column ← columnToken (joined.tableFor root relationship) field (.operand function)
    let value ← ask (aggregateMeasureSql function (some (outer "ab." name)))
    pure ([item [column] name], value, countOf (outer "ab." name))

def projectDerived (root : TableUse) (joined : Joined) (index : ℕ) (definition : DerivedMeasure) :
    Compile Projected :=
  match definition.body with
  | .childCount shape childResource relationship => do
    let child ← childCountSql digests boundary context root true index childResource relationship
    let field := outer "ab." (numbered "__measure_child_" index)
    pure ⟨[⟨[], some child.1, [lit " AS ", .label (numbered "__measure_child_" index)]⟩],
      if shape = ascii "child_count_total" then lit "SUM(" :: field ++ [lit ")"]
      else lit "AVG(1.0 * " :: field ++ [lit ")"],
      some [lit "COUNT(*)"], child.2⟩
  | .postAggregate _ base => do
    let operand ← projectOperand root joined (numbered "__measure_base_" index) base
    pure ⟨operand.1, operand.2.1, some operand.2.2, []⟩
  | .ratio shape numerator denominator => do
    let above ← projectOperand root joined (numbered "__measure_numerator_" index) numerator
    let below ← projectOperand root joined (numbered "__measure_denominator_" index) denominator
    pure ⟨above.1 ++ below.1, ratioSql shape above.2.1 below.2.1, some (leastSql above.2.2 below.2.2), []⟩

def projectMeasure (root : TableUse) (joined : Joined) : AggregateMeasure × ℕ → Compile Projected
  | (.base .count _ _, _) => pure ⟨[], [lit "COUNT(*)"], none, []⟩
  -- a measure of a field without one has no column
  | (.base _ none _, _) => ask (.error (planError []))
  | (.base function (some field) relationship, index) => do
    let column ← columnToken (joined.tableFor root relationship) field (.measure function)
    let projected := outer "ab." (numbered "__measure_input_" index)
    let value ← ask (aggregateMeasureSql function (some projected))
    pure ⟨[item [column] (numbered "__measure_input_" index)], value,
      if contributorAware function then some (countOf projected) else none, []⟩
  | (.derived name, index) => do
    let definition ← ask (reviewedDerivedMeasure root.resource name)
    projectDerived digests boundary context root joined index definition

/-- What the inner query of a plan with an adaptive band projects. -/
structure Projection where
  items : List Item
  measures : List Projected
  controls : List ReviewedValueControl

def autoProjection (engine : Engine) (marker : Text) (plan : AggregateExplorePlan) (root : TableUse) (joined : Joined)
    (field method : Text) : Compile Projection := do
  let column ← columnToken root field .autoBand
  let dimensions ← plan.dimensions.zipIdx.mapM (projectedDimension engine marker root joined
    (plan.dimensions.findIdx isAutoBandDimension))
  let buckets ← compileEach (projectedBucket engine root joined) plan.timeBucket
  let measures ← plan.measures.zipIdx.mapM (projectMeasure digests boundary context root joined)
  ask (quoteTable root.resource)
  pure ⟨autoItems column method ++ (dimensions.flatten ++ buckets).map Grouped.item ++ measures.flatMap Projected.items,
    measures, dimensions.flatten.flatMap Grouped.controls⟩

def integerCast (engine : Engine) (expression : Tokens) : Tokens :=
  lit "CAST(" :: expression ++ [lit (match engine with
    | .postgres => " AS INTEGER)"
    | .mysql => " AS SIGNED)")]

def natText (n : ℕ) : Token := .text (ascii (toString n))

/-- The bucket of a row, and the number of buckets. -/
def bucketExpressions (engine : Engine) (policy : AutoBandPolicy) (buckets : ℕ) (method : Text) : Tokens × Tokens :=
  let value := outer "s." (ascii "__auto_value")
  if method = ascii "quantile" then
    (lit "CASE WHEN " :: value ++ lit " IS NULL THEN NULL ELSE " ::
      integerCast engine ([lit "LEAST(", natText buckets, lit ", CEIL("] ++ outer "s." (ascii "__auto_metric") ++
        [lit " * ", natText buckets, lit "))"]) ++ [lit " END"], [natText buckets])
  else
    let minimumWidth := Token.text ((policy.minBucketWidth.map numberText).getD (ascii "undefined"))
    let range := lit "(" :: outer "s." (ascii "__auto_max") ++ lit " - " :: outer "s." (ascii "__auto_min") ++ [lit ")"]
    let effective := lit "CASE WHEN " :: range ++ lit " <= 0 THEN 1 ELSE " ::
      integerCast engine ([lit "LEAST(", natText buckets, lit ", GREATEST(1, FLOOR("] ++ range ++
        [lit " / ", minimumWidth, lit ")))"]) ++ [lit " END"]
    let width := lit "(" :: range ++ lit " / NULLIF(" :: effective ++ [lit ", 0))"]
    (lit "CASE WHEN " :: value ++ lit " IS NULL THEN NULL WHEN " :: range ++ lit " <= 0 THEN 1 ELSE " ::
      integerCast engine (lit "LEAST(" :: effective ++ lit ", FLOOR((" :: value ++ lit " - " ::
        outer "s." (ascii "__auto_min") ++ lit ") / NULLIF(" :: width ++ [lit ", 0)) + 1)"]) ++ [lit " END"], effective)

def labeledQuery (rounded : Bool) : Tokens :=
  if rounded then
    [lit ", ", .label (ascii "__synapsor_auto_labeled"), lit " AS (SELECT b.*, MIN("] ++
      outer "b." (ascii "__auto_value") ++ lit ") OVER (PARTITION BY " :: outer "b." (ascii "__auto_bucket") ++
      [lit ") AS ", .label (ascii "__auto_bucket_min"), lit ", MAX("] ++ outer "b." (ascii "__auto_value") ++
      lit ") OVER (PARTITION BY " :: outer "b." (ascii "__auto_bucket") ++
      [lit ") AS ", .label (ascii "__auto_bucket_max"), lit " FROM ", .label (ascii "__synapsor_auto_banded"), lit " b)"]
  else []

def autoDimension (dimension : AggregateDimension × ℕ) : Tokens :=
  outer "ab." (match dimension.1 with
    | .autoBand .. => ascii "__auto_bucket"
    | _ => numbered "__dimension_" dimension.2) ++ [lit " AS ", .label (numbered "dimension_" dimension.2)]

def outerMeasure (measure : Projected × ℕ) : List Tokens :=
  (measure.1.value ++ [lit " AS ", .label (numbered "measure_" measure.2)]) ::
    (measure.1.contributors.map fun contributors =>
      contributors ++ [lit " AS ", .label (numbered "__measure_cohort_" measure.2)]).toList

def roundedItems (rounded : Bool) : List Tokens :=
  if rounded then
    [lit "MIN(" :: outer "ab." (ascii "__auto_bucket_min") ++ [lit ") AS ", .label (ascii "__auto_bucket_min")],
     lit "MAX(" :: outer "ab." (ascii "__auto_bucket_max") ++ [lit ") AS ", .label (ascii "__auto_bucket_max")]]
  else []

/-- The select list of the outermost query, and the positions of its groups. -/
def outerSelect (plan : AggregateExplorePlan) (measures : List Projected) (rounded : Bool) :
    List Tokens × List Tokens :=
  let groups := plan.dimensions.zipIdx.map autoDimension ++
    plan.timeBucket.toList.map fun _ => outer "ab." (ascii "__time_bucket") ++ [lit " AS ", .label (ascii "time_bucket")]
  (groups ++ measures.zipIdx.flatMap outerMeasure ++
    [[lit "COUNT(*) AS ", .label (ascii "__cohort_size")],
     lit "MIN(" :: outer "ab." (ascii "__auto_effective") ++ [lit ") AS ", .label (ascii "__auto_effective_buckets")]] ++
    roundedItems rounded,
   (List.range groups.length).map fun index => [natText (index + 1)])

/-- What comes after the inner query: the bands, and the groups over them. -/
def outerQuery (engine : Engine) (plan : RankedAggregatePlan) (policy : AutoBandPolicy) (buckets : ℕ) (method : Text)
    (measures : List Projected) : Tokens :=
  let rounded := decide (policy.labelStyle = ascii "rounded")
  let banded := bucketExpressions engine policy buckets method
  let select := outerSelect plan.toAggregateExplorePlan measures rounded
  [lit "), ", .label (ascii "__synapsor_auto_banded"), lit " AS (SELECT s.*, "] ++ banded.1 ++
    [lit " AS ", .label (ascii "__auto_bucket"), lit ", "] ++ banded.2 ++
    [lit " AS ", .label (ascii "__auto_effective"), lit " FROM ", .label (ascii "__synapsor_auto_scope"), lit " s)"] ++
    labeledQuery rounded ++ lit " SELECT " :: separated ", " select.1 ++
    [lit " FROM ", .label (if rounded then ascii "__synapsor_auto_labeled" else ascii "__synapsor_auto_banded"), lit " ab"] ++
    groupByTokens " GROUP BY " select.2 ++ orderTokens plan.orderBy true select.2

/-- `compileAutoBandAggregatePlan`, for the adaptive band of a plan. -/
def compileAutoBandAggregatePlan (engine : Engine) (marker : Text) (plan : RankedAggregatePlan)
    (resource : BoundaryResource) (period : Option ComparisonPeriod) (field : Text) (buckets : ℕ) (method : Text) :
    Except Refusal CompiledExploreQuery := do
  check (period = none ∧ plan.comparison.isNone)
    (planError (ascii "reviewed auto-banding cannot compile a two-period comparison"))
  let policy ← reviewedAutoBand resource field
  let ids ← relationshipIds resource plan.toAggregateExplorePlan
  let rows ← compileScopedRows digests boundary context plan.toAggregateExplorePlan ⟨.root, resource⟩ ids []
  let projection ← autoProjection digests boundary context engine marker plan.toAggregateExplorePlan ⟨.root, resource⟩
    rows.1.joined field method rows.2
  let limit ← limitTokens (aggregateUnderlyingGroupLimit boundary plan resource + 1) projection.2
  pure { statement := ⟨[lit "WITH ", .label (ascii "__synapsor_auto_scope"), lit " AS ("], projection.1.items,
           ⟨.root, resource⟩, rows.1.joined.joins, rows.1.conditions,
           outerQuery engine plan policy buckets method projection.1.measures ++ limit.1⟩
         params := inTextOrder engine rows.2.length projection.2.length limit.2
         resources := uniqueResources (uniqueResources rows.1.joined.resources ++ rows.1.resources ++
           projection.1.measures.flatMap Projected.resources)
         reviewedValueControls := (rows.1.controls ++ projection.1.controls).eraseDups
         period := none
         reportingTimezone := boundary.reportingTimezone }

/-! ### Plans -/

def compileAggregatePlan (engine : Engine) (marker : Text) (plan : RankedAggregatePlan)
    (period : Option ComparisonPeriod) : Except Refusal CompiledExploreQuery := do
  let resource ← resourceFor boundary plan.resource
  match plan.dimensions.find? isAutoBandDimension with
  | some (.autoBand field buckets method) =>
    compileAutoBandAggregatePlan digests boundary context engine marker plan resource period field buckets method
  | _ => compilePlainAggregate digests boundary context engine marker plan resource period

/-- The ranges of a comparison with their periods. -/
def comparisonPeriods (ranges : List (Text × Text)) : List ComparisonPeriod :=
  ranges.zipIdx.map fun range => (range.1, if range.2 = 0 then .period1 else .period2)

/-- `compileExplorePlan`, where `marker` is its random marker for values that are not reviewed. -/
def compileExplorePlan (engine : Engine) (marker : Text) : ExplorePlan → Except Refusal (List CompiledExploreQuery)
  | .rows plan => do
    let query ← compileRowPlan digests boundary context plan
    pure [query]
  | .aggregate plan =>
    match comparisonPeriods ((plan.comparison.map fun comparison => comparison.ranges).getD []) with
    | [] => do
      let query ← compileAggregatePlan digests boundary context engine marker plan none
      pure [query]
    | periods => periods.mapM fun period => compileAggregatePlan digests boundary context engine marker plan (some period)

end

end SynapsorRunner.ExploreCompiler
