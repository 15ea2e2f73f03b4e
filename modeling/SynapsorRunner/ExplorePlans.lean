import SynapsorRunner.ExploreBoundaries

/-!
Explore plans: what `validateExploreRequest` takes from a request under an activated
boundary. On the time of the request a plan depends only in the ranges of its relative time
windows, and so not in the columns that it returns (`validateExploreRequest_shape`).
-/
namespace SynapsorRunner.ExplorePlans
open SynapsorRunner.Doubles SynapsorRunner.NumberText SynapsorRunner.JsonText SynapsorRunner.Proposals
open SynapsorRunner.ExploreBoundaries
open SynapsorRunner.ComplementReleases (Operator FilterValue ExploreFilter AggregateMeasureFunction AggregateMeasure
  AggregateDimension TimeBucket CanonicalTimeWindow Comparison AggregateExplorePlan)

/-! ### Plans -/

inductive Direction where
  | asc
  | desc
  deriving DecidableEq

structure RowExplorePlan where
  resource : Text
  select : List Text
  timeWindow : Option CanonicalTimeWindow
  filters : List ExploreFilter
  orderBy : List (Text × Direction)
  limit : ℕ

inductive AggregateOrder where
  | measure (index : ℕ) (direction : Direction)
  | comparisonChange (index : ℕ) (percentage : Bool) (direction : Direction)
  | timeBucket (direction : Direction)
  deriving DecidableEq

structure RankedAggregatePlan extends AggregateExplorePlan where
  orderBy : Option AggregateOrder
  topN : ℕ

inductive ExplorePlan where
  | rows (plan : RowExplorePlan)
  | aggregate (plan : RankedAggregatePlan)

def ExplorePlan.resource : ExplorePlan → Text
  | rows plan => plan.resource
  | aggregate plan => plan.resource

inductive WindowLocation where
  | timeWindow
  | comparison
  deriving DecidableEq

structure ResolvedRelativeTimeWindow where
  location : WindowLocation
  field : Text
  relationship : Option Text
  window : Text
  compareTo : Option Text
  resolvedAt : Int
  ranges : List (Text × Text)

structure ValidatedExploreRequest where
  plan : ExplorePlan
  resolvedTimeWindows : List ResolvedRelativeTimeWindow

/-- Dates: the times that `isIsoTime` takes, and the ranges of relative windows, for a name
    that is one. -/
structure Dates where
  isoTime : Text → Option Int
  isRelativeTimeWindow : Text → Bool
  isRelativeTimeComparison : Text → Bool
  resolveRelativeTimeWindow : Text → Int → Option (Text × Text)
  resolveRelativeTimeComparison : Text → Text → Int → Option (List (Text × Text))

/-! ### Values of a request -/

abbrev Properties := List (Text × Json)

def property (input : Properties) (key : String) : Option Json := entry input (ascii key)

def planError (message : Text) : Refusal := .planInvalid message

def fieldError (resource : BoundaryResource) (field : Text) (operation : String) : Refusal :=
  .fieldForbidden resource.id field (ascii operation)

/-- What `trim()` removes. -/
def isSpace (u : CodeUnit) : Bool :=
  decide (u.val ∈ [9, 10, 11, 12, 13, 32, 160, 5760, 8232, 8233, 8239, 8287, 12288, 65279]) ||
    decide (8192 ≤ u.val ∧ u.val ≤ 8202)

def isControl (u : CodeUnit) : Bool := decide (u.val < 32) || decide (u.val = 127)

/-- A name that is not blank, not too long and without control characters. -/
def bounded (t : Text) : Bool := !t.all isSpace && decide (t.length ≤ 256) && !t.any isControl

def requiredString (value : Option Json) (label : String) : Except Refusal Text :=
  match value with
  | some (.string t) =>
    if bounded t then .ok t else .error (planError (ascii label ++ ascii " must be a non-empty bounded string"))
  | _ => .error (planError (ascii label ++ ascii " must be a non-empty bounded string"))

def optionalString (value : Option Json) (label : String) : Except Refusal (Option Text) :=
  match value with
  | none => .ok none
  | some value => (requiredString (some value) label).map some

def between (label : String) (minimum maximum : ℕ) (what : String) : Refusal :=
  planError (ascii label ++ ascii " must contain " ++ ascii (toString minimum) ++ ascii " through " ++
    ascii (toString maximum) ++ ascii what)

def stringArray (value : Option Json) (label : String) (minimum maximum : ℕ) : Except Refusal (List Text) :=
  match value with
  | some (.array items) =>
    if items.length < minimum ∨ maximum < items.length then .error (between label minimum maximum " strings")
    else do
      let strings ← items.mapM fun item => requiredString (some item) label
      check strings.Nodup (planError (ascii label ++ ascii " must not contain duplicates"))
      pure strings
  | _ => .error (between label minimum maximum " strings")

def asRecord : Json → Option Properties
  | .object properties => some properties
  | _ => none

def recordArray (value : Option Json) (label : String) (minimum maximum : ℕ) : Except Refusal (List Properties) :=
  match value with
  | some (.array items) =>
    if items.length < minimum ∨ maximum < items.length then .error (between label minimum maximum " objects")
    else match items.mapM asRecord with
      | some records => .ok records
      | none => .error (between label minimum maximum " objects")
  | _ => .error (between label minimum maximum " objects")

/-- The value of a number that `Number.isSafeInteger` accepts. -/
def safeInteger : Option Json → Option Int
  | some (.number (.finite negative magnitude)) =>
    if magnitude.value.den = 1 ∧ magnitude.value.num < 2 ^ 53 then
      some (if negative then -magnitude.value.num else magnitude.value.num)
    else none
  | _ => none

def positiveInteger (value : Option Json) (label : String) : Except Refusal ℕ :=
  match safeInteger value with
  | some n => if 1 ≤ n then .ok n.toNat else .error (planError (ascii label ++ ascii " must be a positive integer"))
  | none => .error (planError (ascii label ++ ascii " must be a positive integer"))

def nonnegativeInteger (value : Option Json) (label : String) : Except Refusal ℕ :=
  match safeInteger value with
  | some n =>
    if 0 ≤ n then .ok n.toNat else .error (planError (ascii label ++ ascii " must be a non-negative integer"))
  | none => .error (planError (ascii label ++ ascii " must be a non-negative integer"))

def assertKeys (input : Properties) (allowed : List String) (label : String) : Except Refusal Unit :=
  check (∀ p ∈ input, p.1 ∈ allowed.map ascii)
    (planError (ascii label ++ ascii " contains unsupported fields: " ++
      [codeUnit 44, codeUnit 32].intercalate ((input.map Prod.fst).filter fun key => key ∉ allowed.map ascii)))

def direction (value : Option Json) : Except Refusal Direction :=
  match value with
  | some (.string t) =>
    if t = ascii "asc" then .ok .asc
    else if t = ascii "desc" then .ok .desc
    else .error (planError (ascii "direction must be asc or desc"))
  | _ => .error (planError (ascii "direction must be asc or desc"))

def isScalar : Json → Bool
  | .array _ | .object _ => false
  | _ => true

def isString : Json → Bool
  | .string _ => true
  | _ => false

/-! ### Filters -/

/-- An ASCII letter in lower case, and any other unit as it is. -/
def lowerUnit (u : CodeUnit) : CodeUnit := if 65 ≤ u.val ∧ u.val ≤ 90 then codeUnit (u.val + 32) else u

/-- A type has one of some words in it, in any case of its letters. -/
def mentions (type : Text) (words : List String) : Bool :=
  words.any fun word => decide (ascii word <:+: type.map lowerUnit)

def numericType (type : Text) : Bool :=
  mentions type ["int", "numeric", "decimal", "real", "double", "float", "money", "number"]

/-- `String(value)` of a scalar. -/
def scalarText : Json → Text
  | .string t => t
  | .number n => numberText n
  | .bool true => ascii "true"
  | .bool false => ascii "false"
  | _ => ascii "null"

def isNumber : Json → Bool
  | .number _ => true
  | _ => false

def isBool : Json → Bool
  | .bool _ => true
  | _ => false

def isNull : Json → Bool
  | .null => true
  | _ => false

def assertTypedLiteral (resource : BoundaryResource) (field : Text) (value : Json) : Except Refusal Unit := do
  let type := (entry resource.fieldTypes field).getD []
  let name := resource.id ++ ascii "." ++ field
  check (!isNull value) (planError (ascii "Null is not a filter literal for " ++ name ++
    ascii ". Use the reviewed null_count, non_null_count, or completion_rate measure for missing-data analysis."))
  check (numericType type → isNumber value) (planError (name ++ ascii " requires a numeric filter value"))
  check (mentions type ["bool"] → isBool value) (planError (name ++ ascii " requires a boolean filter value"))
  check (!numericType type && !mentions type ["bool"] → isString value)
    (planError (name ++ ascii " requires a string filter value"))
  check (resource.enumValues field ≠ [] → scalarText value ∈ resource.enumValues field)
    (planError (scalarText value ++ ascii " is not a reviewed value for " ++ name ++ ascii "."))
  check (isString value → (scalarText value).length ≤ 512)
    (planError (ascii "string filter values are limited to 512 characters"))

def operatorNamed (t : Text) : Option Operator :=
  [Operator.eq, .neq, .lt, .lte, .gt, .gte, .among].find? fun op => op.text = t

section
variable (digests : Digests) (boundary : ActivatedExplorationBoundary)

def validateFilter (root : BoundaryResource) (filter : Properties) : Except Refusal ExploreFilter := do
  assertKeys filter ["field", "op", "value", "relationship"] "filter"
  let relationship ← optionalString (property filter "relationship") "filter.relationship"
  let resource ← targetResource digests boundary root relationship
  let field ← requiredString (property filter "field") "filter.field"
  check (some field ≠ resource.tenantKey ∧ some field ≠ resource.principalKey) .scopeForbidden
  let name ← requiredString (property filter "op") "filter.op"
  match (operatorNamed name).filter fun op => op ∈ (entry resource.filterableFields field).getD [] with
  | none => .error (.fieldForbidden resource.id field (ascii "filter operator " ++ name))
  | some .among =>
    match property filter "value" with
    | some (.array values) => do
      check (1 ≤ values.length ∧ values.length ≤ 20 ∧ values.all isScalar)
        (planError (ascii "IN values must contain 1 through 20 scalar values"))
      values.forM fun value => assertTypedLiteral resource field value
      pure ⟨field, .among, .many values, relationship⟩
    | _ => .error (planError (ascii "IN values must contain 1 through 20 scalar values"))
  | some op =>
    match (property filter "value").filter isScalar with
    | some value => do
      assertTypedLiteral resource field value
      pure ⟨field, op, .one value, relationship⟩
    | none => .error (planError (ascii "filter.value must be a scalar"))

/-- `validateFilters`, for at most `MAX_FILTERS`. -/
def validateFilters (input : Option Json) (root : BoundaryResource) : Except Refusal (List ExploreFilter) :=
  match input with
  | none => .ok []
  | some value => do
    let filters ← recordArray (some value) "where" 0 8
    filters.mapM (validateFilter digests boundary root)

/-! ### Time -/

def assertReviewedUtcRelativeTime : Except Refusal Unit :=
  check (boundary.reportingTimezone = some (ascii "UTC"))
    (planError (ascii "reviewed relative time requires an authority-bound UTC reporting timezone; use an absolute ISO range for this legacy boundary"))

variable (dates : Dates) (now : Int)

/-- A range of times that `isIsoTime` takes, in their order. -/
def isoRange (start stop : Text) : Bool :=
  match dates.isoTime start, dates.isoTime stop with
  | some a, some b => decide (a < b)
  | _, _ => false

def validateTimeWindow (input : Json) (root : BoundaryResource) (allowRelationship : Bool) :
    Except Refusal (CanonicalTimeWindow × List ResolvedRelativeTimeWindow) :=
  match input with
  | .object window => do
    let relationship ← optionalString (if allowRelationship then property window "relationship" else none)
      "time_window.relationship"
    let target ← targetResource digests boundary root relationship
    let field ← requiredString (property window "field") "time_window.field"
    check (entry target.timeBucketFields field).isSome (fieldError target field "time window")
    if (property window "window").isSome then do
      assertKeys window (if allowRelationship then ["field", "relationship", "window"] else ["field", "window"])
        "relative time_window"
      assertReviewedUtcRelativeTime boundary
      let name ← requiredString (property window "window") "time_window.window"
      check (dates.isRelativeTimeWindow name) (planError (ascii "time_window.window must be one of the relative windows"))
      match dates.resolveRelativeTimeWindow name now with
      | none => .error (planError (ascii "relative time window could not be resolved"))
      | some range => pure (⟨field, relationship, range.1, range.2⟩,
          [⟨.timeWindow, field, relationship, name, none, now, [range]⟩])
    else do
      assertKeys window (if allowRelationship then ["field", "relationship", "start", "end"] else ["field", "start", "end"])
        "absolute time_window"
      let start ← requiredString (property window "start") "time_window.start"
      let stop ← requiredString (property window "end") "time_window.end"
      check (isoRange dates start stop) (planError (ascii "time_window requires a bounded ISO start < end"))
      pure (⟨field, relationship, start, stop⟩, [])
  | _ => .error (planError (ascii "time_window must be an object"))

def comparisonRange (range : Properties) : Except Refusal (Text × Text) := do
  assertKeys range ["start", "end"] "comparison range"
  let start ← requiredString (property range "start") "comparison.start"
  let stop ← requiredString (property range "end") "comparison.end"
  check (isoRange dates start stop) (planError (ascii "comparison ranges require bounded ISO start < end"))
  pure (start, stop)

/-- Two ranges, the first of which ends before the second starts. -/
def rangesInOrder : List (Text × Text) → Bool
  | [first, second] => match dates.isoTime first.2, dates.isoTime second.1 with
    | some a, some b => decide (a ≤ b)
    | _, _ => true
  | _ => true

def validateComparison (input : Json) (root : BoundaryResource) :
    Except Refusal (Comparison × List ResolvedRelativeTimeWindow) :=
  match input with
  | .object comparison => do
    let relationship ← optionalString (property comparison "relationship") "comparison.relationship"
    let resource ← targetResource digests boundary root relationship
    let field ← requiredString (property comparison "field") "comparison.field"
    check (entry resource.timeBucketFields field).isSome (fieldError resource field "time comparison")
    if (property comparison "window").isSome || (property comparison "compare_to").isSome then do
      assertKeys comparison ["field", "relationship", "window", "compare_to"] "relative comparison"
      assertReviewedUtcRelativeTime boundary
      let window ← requiredString (property comparison "window") "comparison.window"
      check (dates.isRelativeTimeWindow window) (planError (ascii "comparison.window must be one of the relative windows"))
      let compareTo ← requiredString (property comparison "compare_to") "comparison.compare_to"
      check (dates.isRelativeTimeComparison compareTo)
        (planError (ascii "comparison.compare_to must be one of preceding_period, same_period_last_year"))
      match dates.resolveRelativeTimeComparison window compareTo now with
      | none => .error (planError (ascii "relative comparison could not be resolved"))
      | some ranges => pure (⟨field, relationship, ranges⟩,
          [⟨.comparison, field, relationship, window, some compareTo, now, ranges⟩])
    else do
      assertKeys comparison ["field", "relationship", "ranges"] "comparison"
      let inputs ← recordArray (property comparison "ranges") "comparison.ranges" 2 boundary.budgets.maxTimeRanges
      let ranges ← inputs.mapM (comparisonRange dates)
      check (rangesInOrder dates ranges)
        (planError (ascii "comparison ranges must be non-overlapping and ordered from the earlier baseline (period_1) to the later period (period_2)"))
      pure (⟨field, relationship, ranges⟩, [])
  | _ => .error (planError (ascii "comparison must be an object"))

end

/-! ### Measures and dimensions -/

def measureFunctionNamed (t : Text) : Option AggregateMeasureFunction :=
  [AggregateMeasureFunction.count, .countDistinct, .sum, .avg, .stddevSamp, .stddevPop, .varSamp, .varPop, .nullCount,
    .nonNullCount, .completionRate].find? fun function => function.text = t

/-- `CONTRIBUTOR_AWARE_MEASURE_FUNCTIONS`, and those of `PRESENCE_MEASURE_FUNCTIONS`. -/
def contributorAware : AggregateMeasureFunction → Bool
  | .sum | .avg | .stddevSamp | .stddevPop | .varSamp | .varPop => true
  | _ => false

def presenceMeasure : AggregateMeasureFunction → Bool
  | .nullCount | .nonNullCount | .completionRate => true
  | _ => false

def reviewedNumericAggregateFunctions (resource : BoundaryResource) (field : Text) : List AggregateMeasureFunction :=
  match resource.aggregateMeasureFunctions with
  | none => [.sum, .avg]
  | some functions => match entry functions field with
    | none => []
    | some reviewed => if reviewed.all contributorAware then reviewed else []

def reviewedDerivedMeasure (resource : BoundaryResource) (name : Text) : Except Refusal DerivedMeasure :=
  match resource.derivedMeasures.find? fun definition => definition.name = name with
  | some definition => .ok definition
  | none => .error (fieldError resource name "reviewed derived measure")

def reviewedNumericBand (resource : BoundaryResource) (name : Text) : Except Refusal NumericBand :=
  match resource.numericBands.find? fun band => band.name = name with
  | some band => .ok band
  | none => .error (.bandForbidden resource.id name)

def reviewedAutoBand (resource : BoundaryResource) (field : Text) : Except Refusal AutoBandPolicy :=
  match resource.autoBands.find? fun policy => policy.field = field with
  | some policy => .ok policy
  | none => .error (.bandForbidden resource.id field)

def isSequentialDerivedMeasureShape (shape : Text) : Bool :=
  decide (shape ∈ [ascii "running_total", ascii "lag_absolute_change", ascii "lag_percentage_change",
    ascii "moving_average"])

/-- What a measure needs of the field that it is over. -/
def measureAllowed (target : BoundaryResource) (function : AggregateMeasureFunction) : Option Text → Bool
  | none => decide (function = .count)
  | some field =>
    decide (function ≠ .count) &&
    (decide (function ≠ .countDistinct) || decide (field ∈ target.countDistinctFields)) &&
    (!contributorAware function || (decide (field ∈ target.aggregateMeasures) &&
      decide (function ∈ reviewedNumericAggregateFunctions target field))) &&
    (!presenceMeasure function || decide (field ∈ target.presenceMeasureFields))

section
variable (digests : Digests) (boundary : ActivatedExplorationBoundary)

def validateBaseMeasure (resource : BoundaryResource) (measure : Properties) : Except Refusal AggregateMeasure := do
  assertKeys measure ["function", "field", "relationship"] "measure"
  let name ← requiredString (property measure "function") "measure.function"
  match measureFunctionNamed name with
  | none => .error (planError (ascii "measure.function must be one of the aggregate functions"))
  | some function => do
    let relation ← optionalString (property measure "relationship") "measure.relationship"
    let target ← targetResource digests boundary resource relation
    let field ← optionalString (property measure "field") "measure.field"
    check (function = .count → field = none) (planError (ascii "count does not accept a field"))
    check (function = .count → relation = none) (planError
      (ascii "count measures the reviewed subject entity and cannot switch counted entity through a relationship"))
    check (measureAllowed target function field)
      (.fieldForbidden target.id (field.getD (ascii "(missing)")) function.text)
    pure (.base function field relation)

def validateMeasure (resource : BoundaryResource) (measure : Properties) : Except Refusal AggregateMeasure :=
  match property measure "derived_measure" with
  | some derived => do
    assertKeys measure ["derived_measure"] "reviewed derived measure"
    let name ← requiredString (some derived) "measure.derived_measure"
    let _ ← reviewedDerivedMeasure resource name
    pure (.derived name)
  | none => validateBaseMeasure digests boundary resource measure

def validateAutoBand (resource : BoundaryResource) (band : Properties) : Except Refusal AggregateDimension := do
  assertKeys band ["field", "buckets", "method"] "reviewed auto-band request"
  let field ← requiredString (property band "field") "dimension.numeric_band.field"
  let policy ← reviewedAutoBand resource field
  let method ← requiredString (property band "method") "dimension.numeric_band.method"
  check (method = ascii "quantile" ∨ method = ascii "equal_width")
    (planError (ascii "dimension.numeric_band.method must be quantile or equal_width"))
  check (method ∈ policy.methods) (planError (method ++ ascii " is not a reviewed auto-band method for " ++
    resource.id ++ ascii "." ++ field))
  let buckets ← positiveInteger (property band "buckets") "dimension.numeric_band.buckets"
  check (policy.minBuckets ≤ buckets ∧ buckets ≤ policy.maxBuckets)
    (between "dimension.numeric_band.buckets" policy.minBuckets policy.maxBuckets " buckets")
  pure (.autoBand field buckets method)

/-- The relationships along which a field could be a dimension. -/
def relationshipRequiredForGrouping (resource : BoundaryResource) (field : Text) : List Text :=
  resource.relationships.filterMap fun relationship =>
    if relationship.pathDepth.getD 1 ≤ reviewedAnalysisRelationshipHopLimit boundary.budgets then
      match boundary.resources.find? fun candidate => candidate.id = relationship.targetResource with
      | some target => if field ∈ target.groupableFields then some relationship.id else none
      | none => none
    else none

def validateFieldDimension (resource : BoundaryResource) (dimension : Properties) :
    Except Refusal AggregateDimension := do
  assertKeys dimension ["field", "relationship"] "dimension"
  let relation ← optionalString (property dimension "relationship") "dimension.relationship"
  let target ← targetResource digests boundary resource relation
  let field ← requiredString (property dimension "field") "dimension.field"
  check (field ∈ target.groupableFields)
    (if relation = none ∧ relationshipRequiredForGrouping boundary resource field ≠ [] then
      .relationshipRequired resource.id field (relationshipRequiredForGrouping boundary resource field)
    else fieldError target field "group")
  pure (.field field relation)

def validateDimension (resource : BoundaryResource) (dimension : Properties) : Except Refusal AggregateDimension :=
  match property dimension "numeric_band" with
  | none => validateFieldDimension digests boundary resource dimension
  | some band => do
    assertKeys dimension ["numeric_band"] "reviewed numeric-band dimension"
    match band with
    | .string _ => do
      let name ← requiredString (some band) "dimension.numeric_band"
      let _ ← reviewedNumericBand resource name
      pure (.numericBand name)
    | .object properties => validateAutoBand resource properties
    | _ => .error (planError (ascii "dimension.numeric_band must be one reviewed name or an auto-band request"))

def validateTimeBucket (resource : BoundaryResource) (input : Json) : Except Refusal TimeBucket :=
  match input with
  | .object timeBucket => do
    assertKeys timeBucket ["field", "bucket", "relationship"] "time_bucket"
    let relation ← optionalString (property timeBucket "relationship") "time_bucket.relationship"
    let target ← targetResource digests boundary resource relation
    let field ← requiredString (property timeBucket "field") "time_bucket.field"
    let bucket ← requiredString (property timeBucket "bucket") "time_bucket.bucket"
    check (bucket ∈ (entry target.timeBucketFields field).getD [])
      (.fieldForbidden target.id field (bucket ++ ascii " time bucket"))
    pure ⟨field, bucket, relation⟩
  | _ => .error (planError (ascii "time_bucket must be an object"))

def measureOrder (index : Option Json) (measures : ℕ) : Except Refusal ℕ := do
  let index ← nonnegativeInteger index "order_by.index"
  check (index < measures) (planError (ascii "order_by.index does not identify a returned measure"))
  pure index

def validateAggregateOrder (input : Json) (measures : ℕ) (hasTimeBucket : Bool) : Except Refusal AggregateOrder :=
  match input with
  | .object order =>
    match property order "kind" with
    | some (.string kind) =>
      if kind = ascii "measure" then do
        assertKeys order ["kind", "index", "direction"] "aggregate order"
        let index ← measureOrder (property order "index") measures
        let direction ← direction (property order "direction")
        pure (.measure index direction)
      else if kind = ascii "comparison_change" then do
        assertKeys order ["kind", "index", "change", "direction"] "aggregate order"
        let index ← measureOrder (property order "index") measures
        let change ← requiredString (property order "change") "order_by.change"
        check (change = ascii "absolute" ∨ change = ascii "percentage")
          (planError (ascii "order_by.change must be absolute or percentage"))
        let direction ← direction (property order "direction")
        pure (.comparisonChange index (change = ascii "percentage") direction)
      else if kind = ascii "time_bucket" then do
        assertKeys order ["kind", "direction"] "aggregate order"
        check hasTimeBucket (planError (ascii "time_bucket ordering requires a returned time bucket"))
        let direction ← direction (property order "direction")
        pure (.timeBucket direction)
      else .error (planError (ascii "aggregate order_by.kind must be measure, comparison_change, or time_bucket"))
    | _ => .error (planError (ascii "aggregate order_by.kind must be measure, comparison_change, or time_bucket"))
  | _ => .error (planError (ascii "order_by must be an object"))

/-! ### Plans as a whole -/

def requestedResource (value : Option Json) : Except Refusal BoundaryResource := do
  let id ← requiredString value "resource"
  match boundary.resources.find? fun candidate => candidate.id = id with
  | some resource => .ok resource
  | none => .error (.resourceForbidden (ascii "Resource " ++ id ++
      ascii " is not in the activated authoring pack."))

/-- An optional part of a request. -/
def optionally {α : Type} (input : Option Json) (read : Json → Except Refusal α) : Except Refusal (Option α) :=
  match input with
  | none => .ok none
  | some value => (read value).map some

/-- A positive number, or what stands for a missing one. -/
def orDefault (input : Option Json) (label : String) (missing : ℕ) : Except Refusal ℕ :=
  match input with
  | none => .ok missing
  | some value => positiveInteger (some value) label

def rowOrder (resource : BoundaryResource) (order : Properties) : Except Refusal (Text × Direction) := do
  assertKeys order ["field", "direction"] "order_by item"
  let field ← requiredString (property order "field") "order_by.field"
  check (field ∈ resource.sortableFields) (fieldError resource field "sort")
  let direction ← direction (property order "direction")
  pure (field, direction)

variable (dates : Dates) (now : Int)

def validateRowPlan (input : Properties) : Except Refusal ValidatedExploreRequest := do
  assertKeys input ["kind", "resource", "select", "time_window", "where", "order_by", "limit"] "row plan"
  let resource ← requestedResource boundary (property input "resource")
  let select ← stringArray (property input "select") "select" 1 (min 20 boundary.budgets.maxResponseCells)
  check (∀ field ∈ select, field ∈ resource.selectableFields)
    (fieldError resource ((select.find? fun field => field ∉ resource.selectableFields).getD []) "select")
  let filters ← validateFilters digests boundary (property input "where") resource
  let timeWindow ← optionally (property input "time_window") fun window =>
    validateTimeWindow digests boundary dates now window resource false
  let orderBy ← optionally (property input "order_by") fun order => do
    let orders ← recordArray (some order) "order_by" 0 3
    orders.mapM (rowOrder resource)
  let maximumRowsByCells := max 1 (boundary.budgets.maxResponseCells / select.length)
  let limit ← orDefault (property input "limit") "limit" (min 50 (min boundary.budgets.maxRows maximumRowsByCells))
  check (limit ≤ boundary.budgets.maxRows) (planError (ascii "limit exceeds reviewed maximum " ++
    ascii (toString boundary.budgets.maxRows)))
  pure ⟨.rows ⟨resource.id, select, timeWindow.map Prod.fst, filters, orderBy.getD [], limit⟩,
    (timeWindow.map Prod.snd).getD []⟩

def isAutoBandDimension : AggregateDimension → Bool
  | .autoBand .. => true
  | _ => false

/-- A fixed band over the field of an adaptive one. -/
def duplicatesAutoBand (resource : BoundaryResource) (dimensions : List AggregateDimension) : Bool :=
  dimensions.any fun
    | .autoBand field _ _ => dimensions.any fun
      | .numericBand name => match reviewedNumericBand resource name with
        | .ok fixed => (given fixed.relationship).isNone && decide (fixed.field = field)
        | .error _ => false
      | _ => false
    | _ => false

/-- The relationships of a part of a plan that the joins need. -/
def dimensionRelationships (resource : BoundaryResource) : AggregateDimension → Except Refusal (List Text)
  | .field _ relationship => .ok relationship.toList
  | .autoBand .. => .ok []
  | .numericBand name => (reviewedNumericBand resource name).map fun band => (given band.relationship).toList

def baseRelationship : DerivedBaseMeasure → Option Text
  | .count => none
  | .ofField _ _ relationship => given relationship

def measureRelationships (resource : BoundaryResource) : AggregateMeasure → Except Refusal (List Text)
  | .base _ _ relationship => .ok relationship.toList
  | .derived name => (reviewedDerivedMeasure resource name).map fun definition =>
    match definition.body with
    | .childCount .. => []
    | .postAggregate _ base => (baseRelationship base).toList
    | .ratio _ numerator _ => (baseRelationship numerator).toList

/-- The relationships that a plan uses, each once. -/
def planRelationships (resource : BoundaryResource) (plan : AggregateExplorePlan) : Except Refusal (List Text) := do
  let measures ← plan.measures.mapM (measureRelationships resource)
  let dimensions ← plan.dimensions.mapM (dimensionRelationships resource)
  pure (plan.relationship.toList ++ measures.flatten ++ dimensions.flatten ++
    (plan.timeBucket.bind TimeBucket.relationship).toList ++
    (plan.timeWindow.bind CanonicalTimeWindow.relationship).toList ++
    plan.filters.filterMap ExploreFilter.relationship ++
    (plan.comparison.bind Comparison.relationship).toList).dedup

def planTransform (plan : AggregateExplorePlan) (shape : Text) : Except Refusal Unit := do
  let sequential := isSequentialDerivedMeasureShape shape
  check plan.comparison.isNone (planError (shape ++
    ascii " is a post-suppression transform and cannot be combined with a two-period comparison"))
  check (sequential → plan.timeBucket.isSome) (planError (shape ++ ascii " requires one reviewed time_bucket"))
  check (sequential → plan.timeBucket.map TimeBucket.bucket ≠ some (ascii "day_of_week"))
    (planError (shape ++ ascii " requires an ordered calendar bucket, not day_of_week"))
  check (!sequential → plan.timeBucket.isNone) (planError (shape ++
    ascii " groups the complete released result and cannot be combined with a time_bucket"))
  check (!sequential → plan.dimensions ≠ []) (planError (shape ++ ascii " requires at least one reviewed dimension"))

/-- What a derived measure needs of the rest of a plan. -/
def measureFits (resource : BoundaryResource) (plan : AggregateExplorePlan) : AggregateMeasure → Except Refusal Unit
  | .base .. => .ok ()
  | .derived name => do
    let definition ← reviewedDerivedMeasure resource name
    match definition.body with
    | .childCount _ child relationship =>
      (resolveReviewedChildCountLink digests boundary resource child relationship).map fun _ => ()
    | .postAggregate shape _ => planTransform plan shape
    | .ratio .. => .ok ()

/-- The number of groups that a plan may be ranked over. -/
def maximumResultGroups : Option AggregateOrder → ℕ
  | some (.measure ..) | some (.comparisonChange ..) => reviewedRankedGroupLimit boundary.budgets
  | _ => boundary.budgets.maxGroups

/-- The order of a plan with a comparison, and without one. -/
def orderFits (plan : AggregateExplorePlan) : Option AggregateOrder → Except Refusal Unit
  | some (.timeBucket _) => check plan.comparison.isNone (planError
      (ascii "bounded period comparison orders by the selected measure, not by an absolute time bucket"))
  | some (.comparisonChange ..) => check plan.comparison.isSome (planError
      (ascii "comparison_change ordering requires one bounded two-period comparison"))
  | _ => .ok ()

def validateAggregatePlan (input : Properties) : Except Refusal ValidatedExploreRequest := do
  assertKeys input ["kind", "resource", "relationship", "measures", "dimensions", "time_bucket", "time_window", "where",
    "order_by", "top_n", "comparison"] "aggregate plan"
  let resource ← requestedResource boundary (property input "resource")
  let relationship ← optionalString (property input "relationship") "relationship"
  let _ ← relationship.mapM (reviewedRelationship digests boundary resource)
  let measureInputs ← recordArray (property input "measures") "measures" 1 boundary.budgets.maxMeasures
  let measures ← measureInputs.mapM (validateMeasure digests boundary resource)
  let dimensions ← optionally (property input "dimensions") fun dimensions => do
    let dimensionInputs ← recordArray (some dimensions) "dimensions" 0 boundary.budgets.maxDimensions
    dimensionInputs.mapM (validateDimension digests boundary resource)
  let timeBucket ← optionally (property input "time_bucket") (validateTimeBucket digests boundary resource)
  let filters ← validateFilters digests boundary (property input "where") resource
  let timeWindow ← optionally (property input "time_window") fun window =>
    validateTimeWindow digests boundary dates now window resource true
  let comparison ← optionally (property input "comparison") fun comparison =>
    validateComparison digests boundary dates now comparison resource
  let plan : AggregateExplorePlan := {
    resource := resource.id
    relationship, measures, timeBucket, filters
    dimensions := dimensions.getD []
    timeWindow := timeWindow.map Prod.fst
    comparison := comparison.map Prod.fst }
  check (plan.timeWindow.isNone ∨ plan.comparison.isNone)
    (planError (ascii "time_window and comparison are mutually exclusive; send one reviewed time selection per plan"))
  check ((plan.dimensions.filter isAutoBandDimension).length ≤ 1)
    (planError (ascii "one aggregate plan may use at most one reviewed auto-band dimension"))
  check (plan.comparison.isNone ∨ plan.dimensions.all fun dimension => !isAutoBandDimension dimension)
    (planError (ascii "reviewed auto-banding cannot be combined with a two-period comparison because each period would derive different buckets"))
  check (!duplicatesAutoBand resource plan.dimensions)
    (planError (ascii "one plan cannot cross a fixed and adaptive band over one field"))
  let orderBy ← optionally (property input "order_by") fun order =>
    validateAggregateOrder order plan.measures.length plan.timeBucket.isSome
  let topN ← orDefault (property input "top_n") "top_n"
    (min 25 (min boundary.budgets.maxTopN (maximumResultGroups boundary orderBy)))
  check (topN ≤ boundary.budgets.maxTopN ∧ topN ≤ maximumResultGroups boundary orderBy)
    (planError (ascii "top_n exceeds the reviewed aggregate result bound"))
  check (plan.comparison.isSome → plan.timeBucket.isSome)
    (planError (ascii "bounded period comparison requires a reviewed time_bucket"))
  orderFits plan orderBy
  plan.measures.forM (measureFits digests boundary resource plan)
  let relationships ← planRelationships resource plan
  check (relationships.length ≤ 3)
    (.relationshipForbidden (ascii "A plan may use at most 3 reviewed relationship paths."))
  relationships.forM fun id => do
    let reviewed ← reviewedRelationship digests boundary resource id
    check (reviewed.pathDepth.getD 1 ≤ reviewedAnalysisRelationshipHopLimit boundary.budgets)
      (.relationshipForbidden (ascii "Relationship " ++ id ++ ascii " exceeds the activated path-depth bound."))
  pure ⟨.aggregate { plan with orderBy, topN },
    (timeWindow.map Prod.snd).getD [] ++ (comparison.map Prod.snd).getD []⟩

/-- `validateExploreRequest`. -/
def validateExploreRequest (input : Json) : Except Refusal ValidatedExploreRequest :=
  match input with
  | .object request => match property request "kind" with
    | some (.string kind) =>
      if kind = ascii "rows" then validateRowPlan digests boundary dates now request
      else if kind = ascii "aggregate" then validateAggregatePlan digests boundary dates now request
      else .error (planError (ascii "kind must be rows or aggregate"))
    | _ => .error (planError (ascii "kind must be rows or aggregate"))
  | _ => .error (planError (ascii "plan must be an object"))

end

/-! ### The time of a request -/

/-- Two plans that differ at most in their ranges of time, their filters and their order. -/
def SameShape : ExplorePlan → ExplorePlan → Prop
  | .rows p, .rows q => p.resource = q.resource ∧ p.select = q.select
  | .aggregate p, .aggregate q => p.resource = q.resource ∧ p.relationship = q.relationship ∧
      p.measures = q.measures ∧ p.dimensions = q.dimensions ∧ p.timeBucket = q.timeBucket
  | _, _ => False

theorem SameShape.resource {p q : ExplorePlan} (same : SameShape p q) : p.resource = q.resource := by
  cases p <;> cases q <;> first | exact same.1 | exact same.elim

theorem ok_unique {ε α : Type} {x : Except ε α} {a b : α} (first : x = .ok a) (second : x = .ok b) : a = b := by
  rw [first] at second
  exact Except.ok.inj second

section
variable {digests : Digests} {boundary : ActivatedExplorationBoundary} {dates : Dates} {now later : Int}

theorem validateRowPlan_shape {input : Properties} {v w : ValidatedExploreRequest}
    (first : validateRowPlan digests boundary dates now input = .ok v)
    (second : validateRowPlan digests boundary dates later input = .ok w) : SameShape v.plan w.plan := by
  unfold validateRowPlan at first second
  obtain ⟨⟨⟩, -, first⟩ := bind_eq_ok first
  obtain ⟨resource, found, first⟩ := bind_eq_ok first
  obtain ⟨select, selected, first⟩ := bind_eq_ok first
  obtain ⟨⟨⟩, -, second⟩ := bind_eq_ok second
  obtain ⟨resource', found', second⟩ := bind_eq_ok second
  obtain ⟨select', selected', second⟩ := bind_eq_ok second
  obtain rfl := ok_unique found found'
  obtain rfl := ok_unique selected selected'
  iterate 6 obtain ⟨_, -, first⟩ := bind_eq_ok first
  iterate 6 obtain ⟨_, -, second⟩ := bind_eq_ok second
  cases first
  cases second
  exact ⟨rfl, rfl⟩

/-- What an accepted aggregate request has of its time-free parts. -/
theorem validateAggregatePlan_parts {input : Properties} {v : ValidatedExploreRequest}
    (accepted : validateAggregatePlan digests boundary dates now input = .ok v) :
    ∃ resource relationship measureInputs measures dimensions timeBucket plan,
      requestedResource boundary (property input "resource") = .ok resource ∧
      optionalString (property input "relationship") "relationship" = .ok relationship ∧
      recordArray (property input "measures") "measures" 1 boundary.budgets.maxMeasures = .ok measureInputs ∧
      measureInputs.mapM (validateMeasure digests boundary resource) = .ok measures ∧
      (optionally (property input "dimensions") fun dimensions => do
        let dimensionInputs ← recordArray (some dimensions) "dimensions" 0 boundary.budgets.maxDimensions
        dimensionInputs.mapM (validateDimension digests boundary resource)) = .ok dimensions ∧
      optionally (property input "time_bucket") (validateTimeBucket digests boundary resource) = .ok timeBucket ∧
      v.plan = .aggregate plan ∧ plan.resource = resource.id ∧ plan.relationship = relationship ∧
      plan.measures = measures ∧ plan.dimensions = dimensions.getD [] ∧ plan.timeBucket = timeBucket := by
  unfold validateAggregatePlan at accepted
  obtain ⟨⟨⟩, -, accepted⟩ := bind_eq_ok accepted
  obtain ⟨resource, found, accepted⟩ := bind_eq_ok accepted
  obtain ⟨relationship, along, accepted⟩ := bind_eq_ok accepted
  obtain ⟨_, -, accepted⟩ := bind_eq_ok accepted
  obtain ⟨measureInputs, listed, accepted⟩ := bind_eq_ok accepted
  obtain ⟨measures, measured, accepted⟩ := bind_eq_ok accepted
  obtain ⟨dimensions, grouped, accepted⟩ := bind_eq_ok accepted
  obtain ⟨timeBucket, bucketed, accepted⟩ := bind_eq_ok accepted
  iterate 3 obtain ⟨_, -, accepted⟩ := bind_eq_ok accepted
  iterate 4 obtain ⟨⟨⟩, -, accepted⟩ := bind_eq_ok accepted
  iterate 2 obtain ⟨_, -, accepted⟩ := bind_eq_ok accepted
  iterate 4 obtain ⟨⟨⟩, -, accepted⟩ := bind_eq_ok accepted
  iterate 3 obtain ⟨_, -, accepted⟩ := bind_eq_ok accepted
  cases accepted
  exact ⟨resource, relationship, measureInputs, measures, dimensions, timeBucket, _, found, along, listed, measured, grouped,
    bucketed, rfl, rfl, rfl, rfl, rfl, rfl⟩

theorem validateAggregatePlan_shape {input : Properties} {v w : ValidatedExploreRequest}
    (first : validateAggregatePlan digests boundary dates now input = .ok v)
    (second : validateAggregatePlan digests boundary dates later input = .ok w) : SameShape v.plan w.plan := by
  obtain ⟨resource, relationship, inputs, measures, dimensions, timeBucket, p, found, along, listed, measured, grouped, bucketed,
    plan, fields⟩ := validateAggregatePlan_parts first
  obtain ⟨resource', relationship', inputs', measures', dimensions', timeBucket', q, found', along', listed', measured',
    grouped', bucketed', plan', fields'⟩ := validateAggregatePlan_parts second
  obtain rfl := ok_unique found found'
  obtain rfl := ok_unique along along'
  obtain rfl := ok_unique listed listed'
  obtain rfl := ok_unique measured measured'
  obtain rfl := ok_unique grouped grouped'
  obtain rfl := ok_unique bucketed bucketed'
  obtain ⟨a, b, c, d, e⟩ := fields
  obtain ⟨a', b', c', d', e'⟩ := fields'
  rw [plan, plan']
  exact ⟨a.trans a'.symm, b.trans b'.symm, c.trans c'.symm, d.trans d'.symm, e.trans e'.symm⟩

/-- Of one request, two times give plans that return the same columns. -/
theorem validateExploreRequest_shape {input : Json} {v w : ValidatedExploreRequest}
    (first : validateExploreRequest digests boundary dates now input = .ok v)
    (second : validateExploreRequest digests boundary dates later input = .ok w) : SameShape v.plan w.plan := by
  unfold validateExploreRequest at first second
  cases input with
  | object request =>
    cases kind : property request "kind" with
    | none => simp [kind] at first
    | some value =>
      cases value with
      | string t =>
        simp only [kind] at first second
        by_cases rows : t = ascii "rows"
        · rw [if_pos rows] at first second
          exact validateRowPlan_shape first second
        · rw [if_neg rows] at first second
          by_cases aggregate : t = ascii "aggregate"
          · rw [if_pos aggregate] at first second
            exact validateAggregatePlan_shape first second
          · rw [if_neg aggregate] at first
            cases first
      | _ => simp [kind] at first
  | _ => cases first

/-- An accepted request names a resource of the boundary. -/
theorem validateExploreRequest_resource {request : Properties} {v : ValidatedExploreRequest}
    (accepted : validateExploreRequest digests boundary dates now (.object request) = .ok v) :
    ∃ t, property request "resource" = some (.string t) ∧ bounded t = true := by
  have requested : ∃ resource, requestedResource boundary (property request "resource") = .ok resource := by
    unfold validateExploreRequest at accepted
    dsimp only at accepted
    split at accepted
    · split at accepted
      · unfold validateRowPlan at accepted
        obtain ⟨⟨⟩, -, accepted⟩ := bind_eq_ok accepted
        obtain ⟨resource, found, -⟩ := bind_eq_ok accepted
        exact ⟨resource, found⟩
      · split at accepted
        · obtain ⟨resource, _, _, _, _, _, _, found, -⟩ := validateAggregatePlan_parts accepted
          exact ⟨resource, found⟩
        · cases accepted
    · cases accepted
  obtain ⟨resource, found⟩ := requested
  unfold requestedResource at found
  obtain ⟨id, named, -⟩ := bind_eq_ok found
  unfold requiredString at named
  split at named
  · rename_i t value
    by_cases fine : bounded t = true
    · exact ⟨t, value, fine⟩
    · rw [if_neg fine] at named
      cases named
  · cases named

end

end SynapsorRunner.ExplorePlans
