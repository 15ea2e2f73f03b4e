import SynapsorRunner.Protocol
import SynapsorRunner.NumberedParameters

/-!
The statements of read capabilities. `buildSelect` writes the numbers of its parameters into
the text and `queryValues` lists their values; `buildProtectedReadQuery` binds the values of a
protected read while it writes the text, part by part. A statement keeps its tables with the
conditions that restrict them; the rest of it is a list of tokens.
-/
namespace SynapsorRunner.ReadPlanning
open SynapsorRunner.Protocol SynapsorRunner.NumberedParameters

structure McpRuntimeError where
  code : String
  message : String
  deriving DecidableEq, Repr

inductive PlaceholderStyle where
  | dollar
  | question
  deriving DecidableEq, Repr

structure TrustedContext where
  tenantId : String
  principal : String
  deriving DecidableEq, Repr

/-! ### Capabilities -/

/-- A text that is missing when it is empty. -/
def truthy (text : Option String) : Option String := text.filter (· ≠ "")

structure ReadTarget where
  schema : String
  table : String
  primaryKey : Column
  tenantKey : Option Column
  principalScopeKey : Option Column
  deriving DecidableEq, Repr

inductive CompareOperator where
  | eq
  | neq
  | lt
  | lte
  | gt
  | gte
  deriving DecidableEq, Repr

def CompareOperator.text : CompareOperator → String
  | eq => "="
  | neq => "<>"
  | lt => "<"
  | lte => "<="
  | gt => ">"
  | gte => ">="

/-- `ProtectedReadValueSpec`. -/
inductive ValueSpec where
  | fixed (value : Scalar)
  | fromArg (name : String)
  deriving DecidableEq, Repr

/-- `ProtectedReadPredicateSpec`. -/
inductive Predicate where
  | compare (field : Column) (relationship : Option String) (operator : CompareOperator) (value : ValueSpec)
  | isOneOf (field : Column) (relationship : Option String) (values : List Scalar)
  deriving DecidableEq, Repr

/-- `ProtectedReadRelationshipLinkSpec`. -/
structure RelationshipLink where
  schema : String
  table : String
  tenantKey : Option Column
  principalScopeKey : Option Column
  localKey : Column
  targetKey : Column
  keepNull : Bool
  deriving DecidableEq, Repr

/-- `ProtectedReadRelationshipPathSpec`, of one link at least. -/
structure RelationshipPath where
  name : String
  first : RelationshipLink
  more : List RelationshipLink
  deriving DecidableEq, Repr

def RelationshipPath.links (path : RelationshipPath) : List RelationshipLink := path.first :: path.more

/-- A band of numbers: each edge with the label of what is below it, and the label of the
    rest. -/
structure NumericBand where
  buckets : List (Rat × String)
  lastLabel : String
  deriving DecidableEq, Repr

structure Dimension where
  name : String
  field : Column
  relationship : Option String
  numericBand : Option NumericBand
  deriving DecidableEq, Repr

inductive Bucket where
  | hour
  | day
  | week
  | month
  | quarter
  | year
  | dayOfWeek
  deriving DecidableEq, Repr

structure TimeBucket where
  name : String
  field : Column
  bucket : Bucket
  relationship : Option String
  deriving DecidableEq, Repr

def Bucket.text : Bucket → String
  | hour => "hour"
  | day => "day"
  | week => "week"
  | month => "month"
  | quarter => "quarter"
  | year => "year"
  | dayOfWeek => "day_of_week"

inductive MeasureFunction where
  | count
  | countDistinct
  | sum
  | avg
  | stddevSamp
  | stddevPop
  | varSamp
  | varPop
  | nullCount
  | nonNullCount
  | completionRate
  deriving DecidableEq, Repr

def MeasureFunction.text : MeasureFunction → String
  | count => "count"
  | countDistinct => "count_distinct"
  | sum => "sum"
  | avg => "avg"
  | stddevSamp => "stddev_samp"
  | stddevPop => "stddev_pop"
  | varSamp => "var_samp"
  | varPop => "var_pop"
  | nullCount => "null_count"
  | nonNullCount => "non_null_count"
  | completionRate => "completion_rate"

structure BaseMeasure where
  function : MeasureFunction
  field : Option Column
  relationship : Option String
  deriving DecidableEq, Repr

inductive DerivedMeasure where
  | quotient (percentage : Bool) (numerator denominator : BaseMeasure)
  | postAggregate (base : BaseMeasure)
  deriving DecidableEq, Repr

inductive MeasureKind where
  | plain (measure : BaseMeasure)
  | reviewedDerived (derived : Option DerivedMeasure)
  deriving DecidableEq, Repr

structure Measure where
  name : String
  kind : MeasureKind
  deriving DecidableEq, Repr

structure Comparison where
  field : Column
  relationship : Option String
  ranges : List (ValueSpec × ValueSpec)
  deriving DecidableEq, Repr

inductive AggregateOrder where
  | measure (name : String) (descending : Bool)
  | comparisonChange
  | timeBucket (descending : Bool)
  deriving DecidableEq, Repr

/-- `ProtectedReadAggregateSpec`. -/
structure ProtectedAggregate where
  measures : List Measure
  dimensions : List Dimension
  timeBucket : Option TimeBucket
  comparison : Option Comparison
  orderBy : Option AggregateOrder
  deriving DecidableEq, Repr

structure TimeWindow where
  field : Column
  relationship : Option String
  start : String
  stop : String
  deriving DecidableEq, Repr

/-- `ProtectedReadSpec`. The older form has one relationship. -/
structure ProtectedRead where
  rows : Bool
  predicates : List Predicate
  relationship : Option (String × RelationshipLink)
  relationships : List RelationshipPath
  timeWindow : Option TimeWindow
  rowOrderBy : List (Column × Bool)
  aggregate : Option ProtectedAggregate
  maxRows : Nat
  maxGroups : Nat
  maxRankedGroups : Option Nat
  deriving DecidableEq, Repr

inductive AggregateFunction where
  | count
  | sum
  | avg
  deriving DecidableEq, Repr

def AggregateFunction.upper : AggregateFunction → String
  | count => "COUNT"
  | sum => "SUM"
  | avg => "AVG"

/-- `AggregateReadSpec`. -/
structure AggregateRead where
  function : AggregateFunction
  countsRows : Bool
  column : Option Column
  selection : List ColumnValue
  deriving DecidableEq, Repr

/-- What the runtime reads of the operation of a proposal. -/
structure ReadOperation where
  set : Bool
  insert : Bool
  selection : List ColumnValue
  boundColumns : List Column
  maxRows : Option Nat
  deriving DecidableEq, Repr

inductive CapabilityKind where
  | read
  | aggregateRead
  | proposal
  deriving DecidableEq, Repr

/-- `RuntimeCapabilityConfig`. -/
structure Capability where
  kind : CapabilityKind
  target : ReadTarget
  idFromArg : String
  visibleColumns : List Column
  maxRows : Option Nat
  aggregate : Option AggregateRead
  protectedRead : Option ProtectedRead
  operation : Option ReadOperation
  conflictColumn : Option Column
  deriving DecidableEq, Repr

def isSetSelectionCapability (capability : Capability) : Bool :=
  capability.kind == .proposal && capability.operation.any fun o => o.set && !o.insert

def Capability.selection (capability : Capability) : List ColumnValue :=
  (capability.operation.map (·.selection)).getD []

/-- `readColumns` of a capability that is no aggregate. -/
def readColumns (capability : Capability) : List Column :=
  (capability.visibleColumns ++ [capability.target.primaryKey] ++ (truthy capability.target.tenantKey).toList ++
    (truthy capability.target.principalScopeKey).toList ++ (truthy capability.conflictColumn).toList ++
    capability.selection.map (·.column) ++ (capability.operation.map (·.boundColumns)).getD []).eraseDups

/-! ### Statements -/

/-- `t0`, `r1_1` and so on; the statements of `buildSelect` name no tables. -/
inductive TableAlias where
  | bare
  | root
  | link (path index : ℕ)
  deriving DecidableEq, Repr

/-- `protectedRelationshipAlias`. -/
def TableAlias.text : TableAlias → String
  | bare => ""
  | root => "t0"
  | .link path index => "r" ++ toString (path + 1) ++ "_" ++ toString (index + 1)

structure ColumnRef where
  table : TableAlias
  name : Column
  deriving DecidableEq, Repr

inductive Token where
  | text (s : String)
  | quoted (identifier : String)
  | column (column : ColumnRef)
  | placeholder (placeholder : Placeholder Scalar)
  deriving DecidableEq

abbrev Tokens := List Token

def Token.placeholder? : Token → Option (Placeholder Scalar)
  | placeholder p => some p
  | _ => none

def placeholders (tokens : Tokens) : List (Placeholder Scalar) := tokens.filterMap Token.placeholder?

def separated (separator : String) : List Tokens → Tokens
  | [] => []
  | [part] => part
  | part :: rest => part ++ .text separator :: separated separator rest

/-- Parts behind a keyword, when there are any. -/
def clause (keyword : String) (parts : List Tokens) : Tokens :=
  if parts = [] then [] else .text keyword :: separated ", " parts

inductive Condition where
  | equalColumns (left right : ColumnRef)
  | compare (column : ColumnRef) (operator : CompareOperator) (value : Placeholder Scalar)
  | isOneOf (column : ColumnRef) (values : List (Placeholder Scalar))
  | null (column : ColumnRef) (negated : Bool)
  deriving DecidableEq

def Condition.tokens : Condition → Tokens
  | equalColumns left right => [.column left, .text " = ", .column right]
  | compare column operator value => [.column column, .text (" " ++ operator.text ++ " "), .placeholder value]
  | isOneOf column values =>
    .column column :: .text " IN (" :: separated ", " (values.map fun v => [.placeholder v]) ++ [.text ")"]
  | null column negated => [.column column, .text (" IS " ++ (if negated then "NOT " else "") ++ "NULL")]

def allOf (conditions : List Condition) : Tokens := separated " AND " (conditions.map Condition.tokens)

def whereTokens (conditions : List Condition) : Tokens :=
  if conditions.isEmpty then [] else .text " WHERE " :: allOf conditions

structure Join where
  keepNull : Bool
  schema : String
  table : String
  name : TableAlias
  conditions : List Condition
  deriving DecidableEq

def Join.tokens (join : Join) : Tokens :=
  .text (if join.keepNull then " LEFT JOIN " else " JOIN ") :: .quoted join.schema :: .text "." :: .quoted join.table ::
    .text (" " ++ join.name.text ++ " ON ") :: allOf join.conditions

structure Select where
  items : List Tokens
  schema : String
  table : String
  root : TableAlias
  joins : List Join
  conditions : List Condition
  stop : Tokens
  deriving DecidableEq

def Select.tokens (s : Select) : Tokens :=
  .text "SELECT " :: separated ", " s.items ++ .text " FROM " :: .quoted s.schema :: .text "." :: .quoted s.table ::
    .text (if s.root = .bare then "" else " " ++ s.root.text) :: s.joins.flatMap Join.tokens ++ whereTokens s.conditions ++
    s.stop

/-- A statement, or the union of one for each of the compared periods. -/
inductive ReadStatement where
  | single (s : Select)
  | periods (parts : List Select)
  deriving DecidableEq

def ReadStatement.selects : ReadStatement → List Select
  | single s => [s]
  | periods parts => parts

def ReadStatement.tokens : ReadStatement → Tokens
  | single s => s.tokens
  | periods parts => .text "SELECT * FROM (" ::
      separated " UNION ALL " (parts.map fun s => .text "(" :: s.tokens ++ [.text ")"]) ++ [.text ") AS protected_periods"]

structure ReadQuery where
  statement : ReadStatement
  values : List Scalar
  deriving DecidableEq

def quotedText (style : PlaceholderStyle) (identifier : String) : String :=
  match style with
  | .dollar => "\"" ++ identifier ++ "\""
  | .question => String.ofList [Char.ofNat 96] ++ identifier ++ String.ofList [Char.ofNat 96]

def Token.sql (style : PlaceholderStyle) : Token → String
  | text s => s
  | quoted identifier => quotedText style identifier
  | column c => (if c.table = .bare then "" else c.table.text ++ ".") ++ quotedText style c.name
  | placeholder p => match style with
    | .dollar => "$" ++ toString p.index
    | .question => "?"

def ReadStatement.sql (style : PlaceholderStyle) (statement : ReadStatement) : String :=
  String.join (statement.tokens.map (Token.sql style))

/-! ### Plain reads -/

def refused {α : Type} (code message : String) : Except McpRuntimeError α := .error ⟨code, message⟩

def quoteIdentifier (identifier : String) : Except McpRuntimeError String :=
  if safeIdentifier identifier then .ok identifier else refused "UNSAFE_IDENTIFIER" ("Unsafe identifier: " ++ identifier)

/-- A column of `buildSelect` with a parameter, under its number, for a value. -/
def numbered (column : Column) (index : ℕ) (value : Scalar) : Except McpRuntimeError Condition := do
  let name ← quoteIdentifier column
  pure (.compare ⟨.bare, name⟩ .eq ⟨index, value⟩)

/-- The terms of a selection and the scope after them. -/
def fixedConditions (target : ReadTarget) (terms : List ColumnValue) (context : TrustedContext) :
    Except McpRuntimeError (List Condition) := do
  let fixed ← terms.zipIdx.mapM fun (term, index) => numbered term.column (index + 1) term.value
  let tenant ← (truthy target.tenantKey).toList.mapM fun key => numbered key (terms.length + 1) (.str context.tenantId)
  let principal ← (truthy target.principalScopeKey).toList.mapM fun key =>
    numbered key (terms.length + 2) (.str context.principal)
  pure (fixed ++ tenant ++ principal)

def columnTokens (table : TableAlias) (column : Column) : Except McpRuntimeError Tokens := do
  let name ← quoteIdentifier column
  pure [.column ⟨table, name⟩]

def aggregateExpression (aggregate : AggregateRead) : Except McpRuntimeError Tokens :=
  if aggregate.function = .count ∧ aggregate.countsRows = true then .ok [.text "COUNT(*)"]
  else do
    let column ← columnTokens .bare (aggregate.column.getD "")
    pure (.text (aggregate.function.upper ++ "(") :: column ++ [.text ")"])

/-- `buildSelect`. Its text does not depend on the values: each parameter has the one that it
    is there for, `key` for the argument of the lookup. -/
def buildSelect (capability : Capability) (key : Scalar) (context : TrustedContext) : Except McpRuntimeError Select := do
  let target := capability.target
  if capability.protectedRead.isSome then
    refused "PROTECTED_READ_ARGS_REQUIRED"
      "Protected reads must be compiled with their validated arguments and trusted context."
  else if capability.kind = .aggregateRead then
    match capability.aggregate with
    | none => refused "AGGREGATE_DEFINITION_MISSING" "Aggregate capability is missing its reviewed definition."
    | some aggregate => do
      let conditions ← fixedConditions target aggregate.selection context
      let expression ← aggregateExpression aggregate
      let schema ← quoteIdentifier target.schema
      let table ← quoteIdentifier target.table
      pure ⟨[expression ++ [.text " AS aggregate_value"], [.text "COUNT(*) AS group_size"]], schema, table, .bare, [],
        conditions, []⟩
  else do
    let columns ← (readColumns capability).mapM (columnTokens .bare)
    if isSetSelectionCapability capability then do
      let conditions ← fixedConditions target capability.selection context
      let schema ← quoteIdentifier target.schema
      let table ← quoteIdentifier target.table
      let primaryKey ← columnTokens .bare target.primaryKey
      let limit := (capability.operation.bind (·.maxRows)).getD 0 + 1
      pure ⟨columns, schema, table, .bare, [], conditions,
        .text (if conditions = [] then " WHERE  ORDER BY " else " ORDER BY ") :: primaryKey ++
          [.text (" ASC LIMIT " ++ toString limit)]⟩
    else do
      let found ← numbered target.primaryKey 1 key
      let tenant ← (truthy target.tenantKey).toList.mapM fun column => numbered column 2 (.str context.tenantId)
      let principal ← (truthy target.principalScopeKey).toList.mapM fun column => numbered column 3 (.str context.principal)
      let schema ← quoteIdentifier target.schema
      let table ← quoteIdentifier target.table
      pure ⟨columns, schema, table, .bare, [], found :: tenant ++ principal,
        [.text (" LIMIT " ++ toString (max 1 (capability.maxRows.getD 1)))]⟩

/-- The values of the scope, behind the others. -/
def scopeValues (target : ReadTarget) (context : TrustedContext) : List Scalar :=
  (truthy target.tenantKey).toList.map (fun _ => .str context.tenantId) ++
    (truthy target.principalScopeKey).toList.map fun _ => .str context.principal

abbrev Arguments := String → Option Scalar

def lookupValue (capability : Capability) (args : Arguments) : Except McpRuntimeError Scalar :=
  match args capability.idFromArg with
  | none => refused "LOOKUP_ARG_MISSING" (capability.idFromArg ++ " is required.")
  | some value => .ok value

/-- `queryValues`. -/
def queryValues (capability : Capability) (args : Arguments) (context : TrustedContext) :
    Except McpRuntimeError (List Scalar) :=
  if capability.kind = .aggregateRead then
    .ok (((capability.aggregate.map (·.selection)).getD []).map (·.value) ++ scopeValues capability.target context)
  else if isSetSelectionCapability capability then
    .ok (capability.selection.map (·.value) ++ scopeValues capability.target context)
  else (lookupValue capability args).map fun key => key :: scopeValues capability.target context

/-! ### Protected reads -/

abbrev Reader := Binder Scalar McpRuntimeError

def required {α : Type} (x : Except McpRuntimeError α) : Reader α := ask x

def protectedReadValue (value : ValueSpec) (args : Arguments) : Except McpRuntimeError Scalar :=
  match value with
  | .fixed value => .ok value
  | .fromArg name => match args name with
    | none => refused "ARGUMENT_REQUIRED" (name ++ " is required.")
    | some value => .ok value

/-- `protectedRelationshipPaths`. -/
def protectedRelationshipPaths (read : ProtectedRead) : List RelationshipPath :=
  if read.relationships ≠ [] then read.relationships
  else read.relationship.toList.map fun (name, link) => ⟨name, { link with keepNull := false }, []⟩

/-- The alias of the last table of a path; of two paths of one name, the later. -/
def relationshipAlias (paths : List RelationshipPath) (name : String) : Option TableAlias :=
  (paths.zipIdx.reverse.find? fun (path, _) => path.name = name).map fun (path, index) => .link index path.more.length

def field (paths : List RelationshipPath) (name : Column) (relationship : Option String) :
    Except McpRuntimeError ColumnRef := do
  let table ← match relationship with
    | none => pure TableAlias.root
    | some relationship => match relationshipAlias paths relationship with
      | none => refused "PROTECTED_RELATIONSHIP_INVALID" "Protected field references an unreviewed relationship."
      | some table => pure table
  let name ← quoteIdentifier name
  pure ⟨table, name⟩

/-- A condition that holds a table to the trusted context, when it has a key for that. -/
def scopeCondition (table : TableAlias) (key : Option Column) (value : String) : Reader (List Condition) :=
  match truthy key with
  | none => pure []
  | some key => do
    let name ← required (quoteIdentifier key)
    let p ← bindValue (.str value)
    pure [.compare ⟨table, name⟩ .eq p]

def trustedScope (context : TrustedContext) (table : TableAlias) (tenantKey principalScopeKey : Option Column) :
    Reader (List Condition) := do
  let tenant ← scopeCondition table tenantKey context.tenantId
  let principal ← scopeCondition table principalScopeKey context.principal
  pure (tenant ++ principal)

def linkConditions (context : TrustedContext) (source own : TableAlias) (link : RelationshipLink) :
    Reader (List Condition) := do
  let localKey ← required (quoteIdentifier link.localKey)
  let targetKey ← required (quoteIdentifier link.targetKey)
  let scope ← trustedScope context own link.tenantKey link.principalScopeKey
  pure (.equalColumns ⟨source, localKey⟩ ⟨own, targetKey⟩ :: scope)

/-- The joins of a path. From the first link that keeps unmatched rows, all do. -/
def linkJoins (context : TrustedContext) (path : ℕ) : ℕ → TableAlias → Bool → List RelationshipLink → Reader (List Join)
  | _, _, _, [] => pure []
  | index, source, keepNull, link :: rest => do
    let own := TableAlias.link path index
    let conditions ← linkConditions context source own link
    let schema ← required (quoteIdentifier link.schema)
    let table ← required (quoteIdentifier link.table)
    let more ← linkJoins context path (index + 1) own (keepNull || link.keepNull) rest
    pure (⟨keepNull || link.keepNull, schema, table, own, conditions⟩ :: more)

def fromClause (target : ReadTarget) (paths : List RelationshipPath) (context : TrustedContext) :
    Reader (String × String × List Join) := do
  let joins ← paths.zipIdx.mapM fun (path, index) => linkJoins context index 0 .root false path.links
  let schema ← required (quoteIdentifier target.schema)
  let table ← required (quoteIdentifier target.table)
  pure (schema, table, joins.flatten)

/-- A half-open range of a column. -/
def rangeConditions (column : Except McpRuntimeError ColumnRef) (start stop : Except McpRuntimeError Scalar) :
    Reader (List Condition) := do
  let column ← required column
  let start ← required start
  let first ← bindValue start
  let stop ← required stop
  let last ← bindValue stop
  pure [.compare column .gte first, .compare column .lt last]

def predicateCondition (paths : List RelationshipPath) (args : Arguments) : Predicate → Reader Condition
  | .isOneOf name relationship values => do
    let column ← required (field paths name relationship)
    let bound ← values.mapM bindValue
    pure (.isOneOf column bound)
  | .compare name relationship operator value => do
    let column ← required (field paths name relationship)
    let value ← required (protectedReadValue value args)
    if value = .null then
      if operator ≠ .eq ∧ operator ≠ .neq then
        required (refused "PROTECTED_NULL_OPERATOR_INVALID" "NULL protected predicates support only eq and neq.")
      else pure (.null column (decide (operator = .neq)))
    else do
      let p ← bindValue value
      pure (.compare column operator p)

def scopedWhere (target : ReadTarget) (read : ProtectedRead) (paths : List RelationshipPath) (args : Arguments)
    (context : TrustedContext) : Reader (List Condition) := do
  let scope ← trustedScope context .root target.tenantKey target.principalScopeKey
  let window ← read.timeWindow.toList.mapM fun window =>
    rangeConditions (field paths window.field window.relationship) (.ok (.str window.start)) (.ok (.str window.stop))
  let predicates ← read.predicates.mapM (predicateCondition paths args)
  pure (scope ++ window.flatten ++ predicates)

def directionText (descending : Bool) : String := if descending then " DESC" else " ASC"

def rowOrder (target : ReadTarget) (read : ProtectedRead) (paths : List RelationshipPath) : Except McpRuntimeError Tokens :=
  if read.rowOrderBy = [] then do
    let name ← quoteIdentifier target.primaryKey
    pure [.text " ORDER BY ", .column ⟨.root, name⟩, .text " ASC"]
  else do
    let parts ← read.rowOrderBy.mapM fun (name, descending) => do
      let column ← field paths name none
      pure [Token.column column, .text (directionText descending)]
    pure (.text " ORDER BY " :: separated ", " parts)

def rowsQuery (capability : Capability) (read : ProtectedRead) (args : Arguments) (context : TrustedContext) :
    Reader Select := do
  let target := capability.target
  let paths := protectedRelationshipPaths read
  let (schema, table, joins) ← fromClause target paths context
  let items ← required (capability.visibleColumns.mapM fun column => do
    let name ← quoteIdentifier column
    pure [Token.column ⟨.root, name⟩, .text " AS ", .quoted name])
  let conditions ← scopedWhere target read paths args context
  let order ← required (rowOrder target read paths)
  pure ⟨items, schema, table, .root, joins, conditions, order ++ [.text (" LIMIT " ++ toString read.maxRows)]⟩

/-! ### Protected aggregates -/

/-- `protectedNumericBandSql`. -/
def protectedNumericBandSql (column : ColumnRef) (band : NumericBand) : Reader Tokens := do
  let clauses ← band.buckets.mapM fun (edge, label) => do
    let edge ← bindValue (.num edge)
    let label ← bindValue (.str label)
    pure [Token.text "WHEN ", .column column, .text " < ", .placeholder edge, .text " THEN ", .placeholder label]
  let last ← bindValue (.str band.lastLabel)
  pure (.text "CASE WHEN " :: .column column :: .text " IS NULL THEN NULL " :: separated " " clauses ++
    [.text " ELSE ", .placeholder last, .text " END"])

/-- `protectedTimeBucket`. -/
def protectedTimeBucket (column : ColumnRef) (bucket : Bucket) : PlaceholderStyle → Tokens
  | .dollar =>
    if bucket = .dayOfWeek then [.text "EXTRACT(ISODOW FROM ", .column column, .text ")"]
    else [.text ("date_trunc('" ++ bucket.text ++ "', "), .column column, .text ")"]
  | .question => match bucket with
    | .hour => [.text "DATE_FORMAT(", .column column, .text ", '%Y-%m-%d %H:00:00')"]
    | .day => [.text "DATE(", .column column, .text ")"]
    | .week => [.text "DATE_SUB(DATE(", .column column, .text "), INTERVAL WEEKDAY(", .column column, .text ") DAY)"]
    | .month => [.text "DATE_FORMAT(", .column column, .text ", '%Y-%m-01')"]
    | .quarter => [.text "CONCAT(YEAR(", .column column, .text "), '-Q', QUARTER(", .column column, .text "))"]
    | .year => [.text "YEAR(", .column column, .text ")"]
    | .dayOfWeek => [.text "(WEEKDAY(", .column column, .text ") + 1)"]

/-- `protectedAggregateMeasureSql`. -/
def protectedAggregateMeasureSql (function : MeasureFunction) (column : Option ColumnRef) : Except McpRuntimeError Tokens :=
  match function, column with
  | .count, _ => .ok [.text "COUNT(*)"]
  | _, none => refused "PROTECTED_AGGREGATE_FIELD_REQUIRED" (function.text ++ " requires a reviewed field.")
  | .countDistinct, some c => .ok [.text "COUNT(DISTINCT ", .column c, .text ")"]
  | .nonNullCount, some c => .ok [.text "COUNT(", .column c, .text ")"]
  | .nullCount, some c => .ok [.text "(COUNT(*) - COUNT(", .column c, .text "))"]
  | .completionRate, some c => .ok [.text "(100.0 * COUNT(", .column c, .text ") / NULLIF(COUNT(*), 0))"]
  | _, some c => .ok [.text (function.text.toUpper ++ "("), .column c, .text ")"]

/-- `protectedDerivedOperandSql`: the value and the number of its contributors. -/
def protectedDerivedOperandSql (paths : List RelationshipPath) (operand : BaseMeasure) :
    Except McpRuntimeError (Tokens × Tokens) :=
  if operand.function = .count then .ok ([.text "COUNT(*)"], [.text "COUNT(*)"])
  else match truthy operand.field with
    | none => refused "PROTECTED_DERIVED_FIELD_REQUIRED" (operand.function.text ++ " requires a frozen reviewed field.")
    | some name => do
      let column ← field paths name operand.relationship
      let value ← protectedAggregateMeasureSql operand.function (some column)
      pure (value, [.text "COUNT(", .column column, .text ")"])

def cohortName (index : ℕ) : String := "__measure_cohort_" ++ toString index

/-- The measures that are shown with the number of their contributors. -/
def contributes : MeasureFunction → Bool
  | .sum | .avg | .stddevSamp | .stddevPop | .varSamp | .varPop => true
  | _ => false

/-- What a measure adds to the select list. -/
def measureItems (paths : List RelationshipPath) (measure : Measure) (index : ℕ) : Except McpRuntimeError (List Tokens) :=
  match measure.kind with
  | .reviewedDerived none => refused "PROTECTED_DERIVED_REQUIRED"
      "Reviewed derived measure authority is missing its frozen definition."
  | .reviewedDerived (some (.postAggregate base)) => do
    let (value, contributors) ← protectedDerivedOperandSql paths base
    let name ← quoteIdentifier measure.name
    pure [value ++ [.text " AS ", .quoted name],
      .text "LEAST(COUNT(*), " :: contributors ++ [.text ") AS ", .quoted (cohortName index)]]
  | .reviewedDerived (some (.quotient percentage numerator denominator)) => do
    let (top, topContributors) ← protectedDerivedOperandSql paths numerator
    let (bottom, bottomContributors) ← protectedDerivedOperandSql paths denominator
    let name ← quoteIdentifier measure.name
    let scale := if percentage then "100.0" else "1.0"
    pure [.text "CASE WHEN " :: bottom ++ .text " IS NULL OR " :: bottom ++
        .text (" = 0 THEN NULL ELSE (" ++ scale ++ " * ") :: top ++ .text " / " :: bottom ++
        [.text ") END AS ", .quoted name],
      .text "LEAST(COUNT(*), " :: topContributors ++ .text ", " :: bottomContributors ++
        [.text ") AS ", .quoted (cohortName index)]]
  | .plain base => do
    let column ← (truthy base.field).mapM fun name => field paths name base.relationship
    let expression ← protectedAggregateMeasureSql base.function column
    let name ← quoteIdentifier measure.name
    pure ((expression ++ [.text " AS ", .quoted name]) ::
      (if contributes base.function then
        [.text "COUNT(" :: column.toList.map .column ++ [.text ") AS ", .quoted (cohortName index)]]
      else []))

/-- What a dimension adds to the select list; a band is grouped by its position there. -/
def dimensionItem (paths : List RelationshipPath) (dimension : Dimension) (position : ℕ) : Reader (Tokens × Tokens) := do
  let column ← required (field paths dimension.field dimension.relationship)
  match dimension.numericBand with
  | some band => do
    let expression ← protectedNumericBandSql column band
    let name ← required (quoteIdentifier dimension.name)
    pure (expression ++ [.text " AS ", .quoted name], [.text (toString position)])
  | none => do
    let name ← required (quoteIdentifier dimension.name)
    pure ([.column column, .text " AS ", .quoted name], [.column column])

def bucketItem (style : PlaceholderStyle) (paths : List RelationshipPath) (bucket : TimeBucket) :
    Except McpRuntimeError (Tokens × Tokens) := do
  let column ← field paths bucket.field bucket.relationship
  let name ← quoteIdentifier bucket.name
  pure (protectedTimeBucket column bucket.bucket style ++ [.text " AS ", .quoted name],
    protectedTimeBucket column bucket.bucket style)

/-- Whether the groups of an aggregate are ranked. -/
def ranked (aggregate : ProtectedAggregate) : Bool :=
  (match aggregate.orderBy with
  | some (.measure _ _) | some .comparisonChange => true
  | _ => false) || aggregate.measures.any fun m => match m.kind with
    | .reviewedDerived (some (.postAggregate _)) => true
    | _ => false

def aggregateOrder (aggregate : ProtectedAggregate) (ranged : Bool) (groups : List Tokens) :
    Except McpRuntimeError Tokens :=
  match aggregate.orderBy with
  | some (.measure measure descending) => do
    let name ← quoteIdentifier measure
    pure [.text " ORDER BY ", .quoted name, .text (directionText descending)]
  | some (.timeBucket descending) =>
    if ranged then .ok (clause " ORDER BY " groups)
    else match aggregate.timeBucket with
      | none => refused "TypeError" ""
      | some bucket => do
        let name ← quoteIdentifier bucket.name
        pure [.text " ORDER BY ", .quoted name, .text (directionText descending)]
  | _ => .ok (clause " ORDER BY " groups)

abbrev Period := (ValueSpec × ValueSpec) × String

/-- What holds an aggregate to one of the compared periods. -/
def periodConditions (paths : List RelationshipPath) (aggregate : ProtectedAggregate) (args : Arguments)
    (period : Option Period) : Reader (List Condition) :=
  match period, aggregate.comparison with
  | some ((start, stop), _), some comparison =>
    rangeConditions (field paths comparison.field comparison.relationship) (protectedReadValue start args)
      (protectedReadValue stop args)
  | _, _ => pure []

/-- `aggregateQuery`, for one of the compared periods when there is a range. -/
def aggregateQuery (style : PlaceholderStyle) (target : ReadTarget) (read : ProtectedRead) (aggregate : ProtectedAggregate)
    (args : Arguments) (context : TrustedContext) (period : Option Period) : Reader Select := do
  let paths := protectedRelationshipPaths read
  let mover := decide (aggregate.orderBy = some .comparisonChange)
  let dimensions ← aggregate.dimensions.zipIdx.mapM fun (dimension, index) => dimensionItem paths dimension (index + 1)
  let bucketed := if period.isSome && mover then [] else aggregate.timeBucket.toList
  let buckets ← required (bucketed.mapM (bucketItem style paths))
  let measures ← required (aggregate.measures.zipIdx.mapM fun (measure, index) => measureItems paths measure index)
  let (schema, table, joins) ← fromClause target paths context
  let conditions ← scopedWhere target read paths args context
  let range ← periodConditions paths aggregate args period
  let groups := dimensions.map Prod.snd ++ buckets.map Prod.snd
  let order ← required (aggregateOrder aggregate period.isSome groups)
  let maximumGroups := if ranked aggregate then read.maxRankedGroups.getD read.maxGroups else read.maxGroups
  pure
    { items := dimensions.map Prod.fst ++ buckets.map Prod.fst ++ measures.flatten ++
        [[.text "COUNT(*) AS ", .quoted "__cohort_size"]] ++
        period.toList.map fun (_, name) => [.text ("'" ++ name ++ "' AS "), .quoted "__period"]
      schema, table, root := .root, joins, conditions := conditions ++ range
      stop := clause " GROUP BY " groups ++ order ++ [.text (" LIMIT " ++ toString (maximumGroups + 1))] }

def periodName (index : ℕ) : String := if index = 0 then "period_1" else "period_2"

/-- `buildProtectedReadQuery`. -/
def protectedStatement (style : PlaceholderStyle) (capability : Capability) (read : ProtectedRead) (args : Arguments)
    (context : TrustedContext) : Reader ReadStatement :=
  if read.rows then do
    let s ← rowsQuery capability read args context
    pure (.single s)
  else match read.aggregate with
    | none => required (refused "PROTECTED_AGGREGATE_REQUIRED" "Protected aggregate authority is missing.")
    | some aggregate =>
      let ranges := (aggregate.comparison.map (·.ranges)).getD []
      if ranges = [] then do
        let s ← aggregateQuery style capability.target read aggregate args context none
        pure (.single s)
      else do
        let parts ← ranges.zipIdx.mapM fun (range, index) =>
          aggregateQuery style capability.target read aggregate args context (some (range, periodName index))
        pure (.periods parts)

def buildProtectedReadQuery (style : PlaceholderStyle) (capability : Capability) (read : ProtectedRead) (args : Arguments)
    (context : TrustedContext) : Except McpRuntimeError ReadQuery := do
  let (statement, values) ← protectedStatement style capability read args context []
  pure ⟨statement, values⟩

/-- `runtimeReadQuery`. -/
def runtimeReadQuery (style : PlaceholderStyle) (capability : Capability) (args : Arguments) (context : TrustedContext) :
    Except McpRuntimeError ReadQuery :=
  match capability.protectedRead with
  | some read => buildProtectedReadQuery style capability read args context
  | none => do
    let s ← buildSelect capability ((args capability.idFromArg).getD .null) context
    let values ← queryValues capability args context
    pure ⟨.single s, values⟩

end SynapsorRunner.ReadPlanning
