import Mathlib.Data.List.Sort
import SynapsorRunner.DoubleArithmetic
import SynapsorRunner.DslText
import SynapsorRunner.JsonContents
import SynapsorRunner.Proposals

/-!
Change sets of bounded sets of rows. A call reads the rows of a reviewed selection, or
takes the items of a batch, checks the patch against the guards of the capability and
freezes a member for each row. The frozen set is exact (`boundedSet_exact_iff`) when no two
keys collate alike and every version grows when one is added to it.
-/
namespace SynapsorRunner.BoundedSets
open SynapsorRunner.Doubles SynapsorRunner.DoubleArithmetic SynapsorRunner.NumberText SynapsorRunner.JsonText
open SynapsorRunner.CanonicalJson SynapsorRunner.JsonContents SynapsorRunner.Dsl SynapsorRunner.Proposals

/-! ### Values -/

inductive Scalar where
  | null
  | bool (value : Bool)
  | number (value : Number)
  | string (value : Text)
  deriving DecidableEq

def Scalar.json : Scalar → Json
  | .null => .null
  | .bool value => .bool value
  | .number value => .number value
  | .string value => .string value

/-- `JSON.stringify`. -/
def Scalar.text (s : Scalar) : Text := s.json.text

/-- A value as a driver reads it. -/
inductive RawValue where
  | absent
  | bool (value : Bool)
  | number (value : Number)
  | string (value : Text)
  | date (iso : Text)
  | bigint (value : ℤ)
  /-- Any other object, by its text. -/
  | other (text : Text)

def scalar : RawValue → Scalar
  | .absent => .null
  | .bool value => .bool value
  | .number value => .number value
  | .string value => .string value
  | .date iso => .string iso
  | .bigint value => .number (toNumber value)
  | .other text => .string text

abbrev Row := List (Text × RawValue)

abbrev Record := List (Text × Scalar)

def scalarRecord (row : Row) : Record := row.map fun p => (p.1, scalar p.2)

def recordJson (record : Record) : Json := .object (record.map fun p => (p.1, p.2.json))

/-- `{ ...record, ...patch }`. -/
def spread (record patch : Record) : Record := patch.foldl (fun known p => defineProperty known p.1 p.2) record

/-- `record[column] = value`, where only an own property `__proto__` can be set. -/
def setProperty (record : Record) (column : Text) (value : Scalar) : Record :=
  if column = protoKey ∧ column ∉ record.map Prod.fst then record else defineProperty record column value

/-- The names that every object inherits. -/
def inheritedNames : List Text :=
  [ascii "constructor", ascii "hasOwnProperty", ascii "isPrototypeOf", ascii "propertyIsEnumerable", ascii "toLocaleString",
    ascii "toString", ascii "valueOf", ascii "__proto__", ascii "__defineGetter__", ascii "__defineSetter__",
    ascii "__lookupGetter__", ascii "__lookupSetter__"]

/-- What `record[column]` is when it is there: an own scalar, or an inherited object. -/
inductive Held where
  | own (value : Scalar)
  | inherited

def held (column : Text) (record : Record) : Option Held :=
  match KeyedMap.find column record with
  | some value => some (.own value)
  | none => if column ∈ inheritedNames then some .inherited else none

inductive Thrown where
  | runtime (code : String) (message : Text)
  | typeError (message : String)

def runtimeError {α : Type} (code : String) (message : Text) : Except Thrown α := .error (.runtime code message)

def check (broken : Prop) [Decidable broken] (code : String) (message : Text) : Except Thrown Unit :=
  if broken then runtimeError code message else .ok ()

/-- A check of every item, up to the first that fails. -/
def each {α : Type} (checkItem : α → Except Thrown Unit) : List α → Except Thrown Unit
  | [] => .ok ()
  | item :: rest => do
    checkItem item
    each checkItem rest

/-! ### Digests -/

/-- What the platform provides: SHA-256 in hexadecimal digits and the collation of the
    locale. -/
structure Platform where
  digest : Text → Text
  localeCompare : Text → Text → Ordering
  total : ∀ a b, localeCompare a b ≠ .gt ∨ localeCompare b a ≠ .gt
  trans : ∀ a b c, localeCompare a b ≠ .gt → localeCompare b c ≠ .gt → localeCompare a c ≠ .gt

def canonicalJsonDigest (platform : Platform) (value : Json) : Except Thrown Text :=
  match canonicalJsonStringify value with
  | .ok text => .ok (ascii "sha256:" ++ platform.digest text)
  | .error message => .error (.typeError message)

def hashJson (platform : Platform) (value : Json) : Text := ascii "sha256:" ++ platform.digest value.text

/-! ### Capabilities -/

inductive OperationKind where
  | update
  | insert
  | delete
  deriving DecidableEq

inductive VersionStrategy where
  | integerIncrement
  | databaseGenerated
  deriving DecidableEq

inductive Measure where
  | before
  | after
  | absoluteDelta
  deriving DecidableEq

def Measure.text : Measure → Text
  | .before => ascii "before"
  | .after => ascii "after"
  | .absoluteDelta => ascii "absolute_delta"

structure AggregateBound where
  column : Text
  measure : Measure
  maximum : Number

inductive ComponentSource where
  | itemField (itemField : Text)
  | proposalId
  | trustedTenant
  | fixed (value : Scalar)

structure Component where
  column : Text
  source : ComponentSource

structure VersionAdvance where
  column : Text
  strategy : VersionStrategy

structure SetOperation where
  kind : OperationKind
  maxRows : ℕ
  aggregateBounds : List AggregateBound
  versionAdvance : Option VersionAdvance
  deduplication : List Component

inductive Binding where
  | fromItem (name : Text)
  | fromArg (name : Text)
  | fixed (value : Scalar)

structure NumericBounds where
  minimum : Option Number
  maximum : Option Number

structure TransitionGuard where
  fromColumn : Option Text
  allowed : List (Text × List Text)

structure ConflictGuard where
  column : Option Text
  weakGuardAck : Bool

structure Target where
  schema : Text
  table : Text
  primaryKey : Text
  tenantKey : Option Text
  principalScopeKey : Option Text

structure Approval where
  mode : Option Text
  requiredRole : Option Text
  requiredApprovals : Option ℕ

/-- A proposal capability that writes a bounded set. -/
structure Capability where
  name : Text
  /-- The digest and the version of the contract. -/
  contractProvenance : Option (Text × Text)
  target : Target
  patch : List (Text × Binding)
  allowedColumns : Option (List Text)
  numericBounds : List (Text × NumericBounds)
  transitionGuards : List (Text × TransitionGuard)
  conflictGuard : Option ConflictGuard
  reversible : Bool
  operation : SetOperation
  approval : Option Approval

/-! ### Trusted context -/

inductive Provenance where
  | environment
  | cloudSession
  | staticDev
  | httpClaims
  deriving DecidableEq

structure TrustedContext where
  tenantId : Text
  principal : Text
  provenance : Provenance

/-- The provider of the trusted context; of a reviewed organization there is none for the
    principal. -/
structure ContextConfig where
  provider : Option Text
  principalBinding : Option Text

structure PrincipalScope where
  column : Text
  binding : Text
  provider : Text
  value : Scalar
  valueFingerprint : Text

def effectivePrincipalScope (platform : Platform) (contextConfig : Option ContextConfig) (capability : Capability)
    (context : TrustedContext) : Except Thrown (Option PrincipalScope) :=
  match capability.target.principalScopeKey.filter fun key => decide (key ≠ []) with
  | none => .ok none
  | some column =>
    match contextConfig with
    | none => runtimeError "TRUSTED_CONTEXT_MISSING"
        (ascii "Principal-scoped capability " ++ capability.name ++ ascii " has no trusted context.")
    | some config =>
      match config.provider with
      | none => runtimeError "TRUSTED_BINDING_MISSING" (ascii "Principal-scoped capability " ++ capability.name ++
          ascii " requires a trusted principal provider in addition to its reviewed organization.")
      | some provider => do
        let binding := config.principalBinding.getD (ascii "principal")
        let fingerprint ← canonicalJsonDigest platform (.object
          [(ascii "schema_version", .string (ascii "synapsor.principal-scope.v1")), (ascii "column", .string column),
            (ascii "binding", .string binding), (ascii "provider", .string provider),
              (ascii "value", .string context.principal)])
        .ok (some ⟨column, binding, provider, .string context.principal, fingerprint⟩)

/-! ### Patches and guards -/

/-- The value of an argument or of a field of an item, `null` when it is not given. -/
def given (name : Text) (values : Row) : Scalar := scalar ((KeyedMap.find name values).getD .absent)

def buildPatch (capability : Capability) (args : Row) : Record :=
  capability.patch.foldl (fun patch p => setProperty patch p.1
    (match p.2 with
    | .fromArg name => given name args
    | .fixed value => value
    | .fromItem _ => .null)) []

def buildItemPatch (capability : Capability) (item args : Row) : Record :=
  capability.patch.foldl (fun patch p => setProperty patch p.1
    (match p.2 with
    | .fromItem name => given name item
    | .fromArg name => given name args
    | .fixed value => value)) []

def enforceNumericBound (patch : Record) (guard : Text × NumericBounds) : Except Thrown Unit :=
  match held guard.1 patch with
  | none => .ok ()
  | some (.own (.number proposed)) => do
    check (guard.2.minimum.any fun minimum => lt proposed minimum) "PATCH_BELOW_MINIMUM"
      (guard.1 ++ ascii " must be at least " ++ (guard.2.minimum.map numberText).getD [] ++ ascii ".")
    check (guard.2.maximum.any fun maximum => lt maximum proposed) "PATCH_ABOVE_MAXIMUM"
      (guard.1 ++ ascii " must be at most " ++ (guard.2.maximum.map numberText).getD [] ++ ascii ".")
  | some _ => runtimeError "PATCH_NUMERIC_BOUND_TYPE_INVALID" (guard.1 ++ ascii " must be numeric to use numeric_bounds.")

def enforceTransition (before patch : Record) (guard : Text × TransitionGuard) : Except Thrown Unit :=
  match held guard.1 patch with
  | none => .ok ()
  | some proposed =>
    match KeyedMap.find (guard.2.fromColumn.getD guard.1) before, proposed with
    | some (.string current), .own (.string proposed) =>
      match KeyedMap.find current guard.2.allowed with
      | some allowed => check (proposed ∉ allowed) "PATCH_TRANSITION_NOT_ALLOWED"
          (guard.1 ++ ascii " cannot transition from " ++ current ++ ascii " to " ++ proposed ++ ascii ".")
      | none =>
        if current ∈ inheritedNames then .error (.typeError "allowed.includes is not a function")
        else runtimeError "PATCH_TRANSITION_NOT_ALLOWED"
          (guard.1 ++ ascii " cannot transition from " ++ current ++ ascii " to " ++ proposed ++ ascii ".")
    | _, _ => runtimeError "PATCH_TRANSITION_TYPE_INVALID"
        (guard.1 ++ ascii " transition guard requires string current and proposed values.")

def enforcePatchGuards (capability : Capability) (before patch : Record) : Except Thrown Unit := do
  each (enforceNumericBound patch) capability.numericBounds
  each (enforceTransition before patch) capability.transitionGuards

/-! ### Versions -/

/-- Digits and fixed characters, a `d` for a digit. -/
def hasShape (shape : String) (t : Text) : Bool :=
  decide (t.length = shape.toList.length) &&
    (t.zip shape.toList).all fun p => if p.2 = 'd' then isDigit p.1 else decide (p.1 = unit p.2)

def isZone (t : Text) : Bool :=
  decide (t = [] ∨ t = ascii "Z" ∨ t = ascii "z") ||
    ((t.take 1 = ascii "+" || t.take 1 = ascii "-") &&
      (hasShape "dd" (t.drop 1) || hasShape "dd:dd" (t.drop 1) || hasShape "dddd" (t.drop 1)))

/-- A time is written with a blank and six decimal places. -/
def conflictGuardText (value : Text) : Text :=
  let t := trim value
  let rest := t.drop 19
  let fraction := if rest.take 1 = ascii "." then (rest.drop 1).takeWhile isDigit else []
  let zone := if fraction = [] then rest else (rest.drop 1).dropWhile isDigit
  if hasShape "dddd-dd-dd" (t.take 10) ∧ ((t.drop 10).take 1 = ascii "T" ∨ (t.drop 10).take 1 = ascii "t" ∨
      (t.drop 10).take 1 = ascii " ") ∧ hasShape "dd:dd:dd" ((t.drop 11).take 8) ∧ fraction.length ≤ 9 ∧ isZone zone then
    t.take 10 ++ ascii " " ++ (t.drop 11).take 8 ++ ascii "." ++
      (fraction ++ List.replicate (6 - fraction.length) (unit '0')).take 6 ++ zone
  else value

def conflictGuardScalar : Scalar → Scalar
  | .string value => .string (conflictGuardText value)
  | value => value

/-- The guard column of the row. An inherited name holds no scalar, which both uses of it
    refuse. -/
def expectedVersionGuard (platform : Platform) (capability : Capability) (row : Record) : Except Thrown (Text × Scalar) :=
  match ((capability.conflictGuard.bind (·.column)).filter fun column => decide (column ≠ [])).bind
      fun column => (held column row).map fun value => (column, value) with
  | some (column, .own value) => .ok (column, conflictGuardScalar value)
  | some (_, .inherited) => .error (.typeError "canonical JSON accepts only JSON values")
  | none =>
    if capability.conflictGuard.any (·.weakGuardAck) then
      .ok (ascii "__row_hash", .string (hashJson platform (recordJson row)))
    else runtimeError "CONFLICT_GUARD_MISSING" (ascii "Proposal capability must read a configured conflict guard column.")

/-! ### Members -/

inductive SetKind where
  | setUpdate
  | setDelete
  | batchInsert
  deriving DecidableEq

def SetKind.text : SetKind → Text
  | .setUpdate => ascii "set_update"
  | .setDelete => ascii "set_delete"
  | .batchInsert => ascii "batch_insert"

def OperationKind.setKind : OperationKind → SetKind
  | .update => .setUpdate
  | .delete => .setDelete
  | .insert => .batchInsert

structure ResolvedComponent where
  column : Text
  source : Text
  value : Scalar
  deriving DecidableEq

structure Member where
  primaryKey : Text × Scalar
  expectedVersion : Option (Text × Scalar)
  before : Record
  after : Record
  beforeDigest : Option Text
  afterDigest : Option Text
  tombstoneDigest : Option Text
  deduplication : Option (List ResolvedComponent)
  deriving DecidableEq

def columnValueJson (p : Text × Scalar) : Json := .object [(ascii "column", .string p.1), (ascii "value", p.2.json)]

def componentJson (c : ResolvedComponent) : Json :=
  .object [(ascii "column", .string c.column), (ascii "source", .string c.source), (ascii "value", c.value.json)]

def optional (name : String) (value : Option Json) : List (Text × Json) := value.toList.map fun v => (ascii name, v)

def Member.json (m : Member) : Json := .object (
  (ascii "primary_key", columnValueJson m.primaryKey) ::
    optional "expected_version" (m.expectedVersion.map columnValueJson) ++
    [(ascii "before", recordJson m.before), (ascii "after", recordJson m.after)] ++
    optional "before_digest" (m.beforeDigest.map .string) ++ optional "after_digest" (m.afterDigest.map .string) ++
    optional "tombstone_digest" (m.tombstoneDigest.map .string) ++
    optional "deduplication" (m.deduplication.map fun cs => .object [(ascii "components", .array (cs.map componentJson))]))

/-- The text that identifies a member. -/
def Member.key (m : Member) : Text := m.primaryKey.2.text

def beforeMaterial (key : Scalar) (before : Record) : Json :=
  .object [(ascii "primary_key", key.json), (ascii "before", recordJson before)]

def afterMaterial (key : Scalar) (after : Record) : Json :=
  .object [(ascii "primary_key", key.json), (ascii "after", recordJson after)]

def tombstoneMaterial (key : Scalar) (expectedVersion : Text × Scalar) : Json :=
  .object [(ascii "primary_key", key.json), (ascii "expected_version", columnValueJson expectedVersion)]

def digits (n : ℕ) : Text := digitsText (digitsOf n)

/-- The components of one item of a batch. -/
def resolveBatchDeduplication (capability : Capability) (item : Row) (proposalId : Text) (context : TrustedContext)
    (index : ℕ) :
    Except Thrown (List ResolvedComponent) := do
  check (capability.operation.deduplication = []) "BATCH_DEDUPLICATION_REQUIRED"
    (ascii "Batch INSERT requires reviewed per-item deduplication.")
  let components := capability.operation.deduplication.map fun component =>
    match component.source with
    | .itemField itemField => (⟨component.column, ascii "fixed", given itemField item⟩ : ResolvedComponent)
    | .proposalId => ⟨component.column, ascii "proposal_id", .string (proposalId ++ ascii ":" ++ digits index)⟩
    | .trustedTenant => ⟨component.column, ascii "trusted_tenant", .string context.tenantId⟩
    | .fixed value => ⟨component.column, ascii "fixed", value⟩
  check (¬ ∃ c ∈ components, c.column = capability.target.primaryKey ∧ c.value ≠ .null) "BATCH_PRIMARY_KEY_REQUIRED"
    (ascii "Batch INSERT must bind primary key " ++ capability.target.primaryKey ++ ascii " from an item field.")
  check (∃ tenantKey ∈ capability.target.tenantKey, tenantKey ≠ [] ∧
      ¬ ∃ c ∈ components, c.column = tenantKey ∧ c.value = .string context.tenantId) "BATCH_TRUSTED_TENANT_REQUIRED"
    (ascii "Batch INSERT deduplication must include the trusted tenant key.")
  .ok components

/-- The components are set beside the patch of the item. -/
def addComponents : Record → List ResolvedComponent → Except Thrown Record
  | after, [] => .ok after
  | after, component :: rest => do
    check (component.column ∈ after.map Prod.fst) "BATCH_DEDUP_COLUMN_COLLISION"
      (ascii "Batch deduplication column " ++ component.column ++ ascii " collides with a patch column.")
    addComponents (setProperty after component.column component.value) rest

section
variable (platform : Platform) (capability : Capability)

def buildBatchMember (principalScope : Option PrincipalScope) (context : TrustedContext) (proposalId : Text) (item : Row)
    (itemPatch : Record) (index : ℕ) : Except Thrown Member := do
  let deduplication ← resolveBatchDeduplication capability item proposalId context index
  match deduplication.find? fun component => decide (component.column = capability.target.primaryKey) with
  | none => runtimeError "BATCH_PRIMARY_KEY_REQUIRED" (ascii "Batch INSERT must derive " ++ capability.target.primaryKey ++
      ascii " from a reviewed item field.")
  | some primary =>
    let added ← addComponents itemPatch deduplication
    let after := match principalScope with
      | some scope => setProperty added scope.column scope.value
      | none => added
    let afterDigest ← canonicalJsonDigest platform (afterMaterial primary.value after)
    .ok ⟨(capability.target.primaryKey, primary.value), none, [], after, none, some afterDigest, none, some deduplication⟩

/-- The member of a row that is deleted. -/
def buildDeleteMember (before : Record) (primaryValue : Scalar) (expectedVersion : Text × Scalar) :
    Except Thrown Member := do
  let beforeDigest ← canonicalJsonDigest platform (beforeMaterial primaryValue before)
  let tombstoneDigest ← canonicalJsonDigest platform (tombstoneMaterial primaryValue expectedVersion)
  .ok ⟨(capability.target.primaryKey, primaryValue), some expectedVersion, before, [], some beforeDigest, none,
    some tombstoneDigest, none⟩

/-- The member of a row that is updated, whose version is advanced by one. -/
def buildUpdateMember (patch before : Record) (primaryValue : Scalar) (expectedVersion : Text × Scalar) :
    Except Thrown Member :=
  match capability.operation.versionAdvance, expectedVersion.2 with
  | some ⟨column, .integerIncrement⟩, .number version => do
    let after := setProperty (spread before patch) column (.number (add version one))
    let beforeDigest ← canonicalJsonDigest platform (beforeMaterial primaryValue before)
    let afterDigest ← canonicalJsonDigest platform (afterMaterial primaryValue after)
    .ok ⟨(capability.target.primaryKey, primaryValue), some expectedVersion, before, after, some beforeDigest,
      some afterDigest,
      none, none⟩
  | _, _ => runtimeError "SET_INTEGER_VERSION_REQUIRED"
      (ascii "Bounded set UPDATE requires a numeric integer_increment conflict guard.")

def buildRowMember (patch : Record) (rawRow : Row) : Except Thrown Member := do
  let before := scalarRecord rawRow
  let expectedVersion ← expectedVersionGuard platform capability before
  check (expectedVersion.1 = ascii "__row_hash") "SET_WEAK_GUARD_FORBIDDEN"
    (ascii "Bounded set writes require an exact conflict-guard column.")
  let primaryValue := (KeyedMap.find capability.target.primaryKey before).getD .null
  check (primaryValue = .null) "SET_PRIMARY_KEY_MISSING" (ascii "A frozen set member is missing its reviewed primary key.")
  if capability.operation.kind = .delete then buildDeleteMember platform capability before primaryValue expectedVersion
  else buildUpdateMember platform capability patch before primaryValue expectedVersion
end

/-! ### Aggregates -/

def numericAggregateValue (value : Option Scalar) (column : Text) : Except Thrown Number :=
  match value with
  | some (.number n) => if n.isFinite then .ok n else runtimeError "SET_AGGREGATE_VALUE_INVALID"
      (ascii "Aggregate column " ++ column ++ ascii " must contain finite reviewed numbers.")
  | _ => runtimeError "SET_AGGREGATE_VALUE_INVALID"
      (ascii "Aggregate column " ++ column ++ ascii " must contain finite reviewed numbers.")

/-- What a member adds to an aggregate. -/
def memberAggregate (bound : AggregateBound) (m : Member) : Except Thrown Number :=
  let before := KeyedMap.find bound.column m.before
  let after := KeyedMap.find bound.column m.after
  match bound.measure with
  | .before => (numericAggregateValue before bound.column).map DoubleArithmetic.abs
  | .after => (numericAggregateValue after bound.column).map DoubleArithmetic.abs
  | .absoluteDelta => do
    let proposed ← numericAggregateValue after bound.column
    let current ← numericAggregateValue before bound.column
    .ok (DoubleArithmetic.abs (sub proposed current))

def aggregateFrom (bound : AggregateBound) : Number → List Member → Except Thrown Number
  | total, [] => .ok total
  | total, m :: rest => do
    let value ← memberAggregate bound m
    aggregateFrom bound (add total value) rest

def aggregateValue (members : List Member) (bound : AggregateBound) : Except Thrown Number :=
  aggregateFrom bound zero members

structure ActualBound where
  bound : AggregateBound
  actual : Number

def ActualBound.json (a : ActualBound) : Json :=
  .object [(ascii "column", .string a.bound.column), (ascii "measure", .string a.bound.measure.text),
    (ascii "maximum", .number a.bound.maximum), (ascii "actual", .number a.actual)]

def actualBounds (members : List Member) : List AggregateBound → Except Thrown (List ActualBound)
  | [] => .ok []
  | bound :: rest => do
    let actual ← aggregateValue members bound
    let others ← actualBounds members rest
    .ok (⟨bound, actual⟩ :: others)

/-! ### The change set -/

structure FrozenSet where
  maxRows : ℕ
  rowCount : ℕ
  aggregateBounds : List ActualBound
  members : List Member
  setDigest : Text

def setMaterial (kind : SetKind) (members : List Member) (bounds : List ActualBound) : Json :=
  .object [(ascii "operation", .string kind.text), (ascii "members", .array (members.map Member.json)),
    (ascii "aggregate_bounds", .array (bounds.map ActualBound.json))]

def natJson (n : ℕ) : Json := .number (toNumber n)

def FrozenSet.json (set : FrozenSet) : Json :=
  .object [(ascii "max_rows", natJson set.maxRows), (ascii "row_count", natJson set.rowCount),
    (ascii "aggregate_bounds", .array (set.aggregateBounds.map ActualBound.json)),
    (ascii "members", .array (set.members.map Member.json)), (ascii "set_digest", .string set.setDigest)]

/-- What a call gives to the builder besides the rows. -/
structure CallContext where
  contextConfig : Option ContextConfig
  context : TrustedContext
  shadow : Bool
  postgres : Bool
  sourceName : Text
  proposalId : Text
  createdAt : Text
  evidenceBundleId : Text
  queryFingerprint : Text
  objectId : Text
  freshness : Option Json

def Provenance.sourceText : Provenance → Text
  | .environment => ascii "environment"
  | .cloudSession => ascii "cloud_session"
  | .staticDev => ascii "static_dev"
  | .httpClaims => ascii "trusted_session"

def proposalCore (capability : Capability) (call : CallContext) (principalScope : Option PrincipalScope) (patch : Record)
    (set : FrozenSet) : Json :=
  let kind := capability.operation.kind.setKind
  .object (
    [(ascii "schema_version", .string (ascii "synapsor.change-set.v3")), (ascii "proposal_id", .string call.proposalId),
      (ascii "proposal_version", natJson 1), (ascii "action", .string capability.name)] ++
    optional "contract" (capability.contractProvenance.map fun p =>
      .object [(ascii "digest", .string p.1), (ascii "version", .string p.2)]) ++
    [(ascii "operation", .string kind.text),
      (ascii "mode", .string (if call.shadow then ascii "shadow" else ascii "review_required")),
      (ascii "principal", .object [(ascii "id", .string call.context.principal),
        (ascii "source", .string call.context.provenance.sourceText)]),
      (ascii "scope", .object [(ascii "tenant_id", .string call.context.tenantId),
        (ascii "business_object", .string capability.target.table), (ascii "object_id", .string call.objectId)]),
      (ascii "source", .object [(ascii "kind",
        .string (if call.postgres then ascii "external_postgres" else ascii "external_mysql")),
        (ascii "source_id", .string call.sourceName), (ascii "schema", .string capability.target.schema),
        (ascii "table", .string capability.target.table),
        (ascii "primary_key", .object [(ascii "column", .string capability.target.primaryKey)])]),
      (ascii "before", .object [(ascii "row_count", natJson (if kind = .batchInsert then 0 else set.members.length))]),
      (ascii "patch", if kind = .setUpdate then recordJson patch else .object []),
      (ascii "after", .object [(ascii "row_count", natJson (if kind = .setDelete then 0 else set.members.length))]),
      (ascii "guards", .object (
        [(ascii "tenant", match capability.target.tenantKey.filter fun key => decide (key ≠ []) with
          | some key => columnValueJson (key, .string call.context.tenantId)
          | none => columnValueJson (capability.target.tenantKey.getD (ascii "__single_tenant_dev"),
            .string (ascii "single_tenant_dev")))] ++
        optional "principal_scope" (principalScope.map fun scope => .object
          [(ascii "schema_version", .string (ascii "synapsor.principal-scope.v1")), (ascii "column", .string scope.column),
            (ascii "binding", .string scope.binding), (ascii "provider", .string scope.provider),
              (ascii "value", scope.value.json),
            (ascii "value_fingerprint", .string scope.valueFingerprint)]) ++
        [(ascii "allowed_columns", .array ((if kind = .setDelete then []
          else capability.allowedColumns.getD (patch.map Prod.fst)).map .string))] ++
        optional "version_advance" (if kind = .setUpdate then capability.operation.versionAdvance.map fun v =>
          .object [(ascii "column", .string v.column), (ascii "strategy", .string (match v.strategy with
            | .integerIncrement => ascii "integer_increment"
            | .databaseGenerated => ascii "database_generated"))] else none)))] ++
    optional "freshness" call.freshness ++ [(ascii "frozen_set", set.json)] ++
    optional "reversibility" (if capability.reversible then some (.object
      [(ascii "mode", .string (ascii "reviewed_inverse")), (ascii "lineage", .object
        [(ascii "root_proposal_id", .string call.proposalId), (ascii "parent_proposal_id", .string call.proposalId),
          (ascii "reverts_proposal_id", .string call.proposalId), (ascii "depth", natJson 1)])]) else none) ++
    [(ascii "evidence", .object [(ascii "bundle_id", .string call.evidenceBundleId),
        (ascii "query_fingerprint", .string call.queryFingerprint), (ascii "items", .array [])]),
      (ascii "approval", .object ([(ascii "status", .string (ascii "pending")), (ascii "mode", .string
          (if (capability.approval.bind (·.mode)) = some (ascii "operator") then ascii "operator" else ascii "human"))] ++
        optional "required_role" ((capability.approval.bind (·.requiredRole)).map .string) ++
        optional "required_approvals" (((capability.approval.bind (·.requiredApprovals)).filter fun n =>
          decide (n ≠ 0)).map natJson))),
      (ascii "writeback", .object [(ascii "status", .string (ascii "not_applied")),
        (ascii "mode", .string (ascii "trusted_worker_required")), (ascii "executor", .string (ascii "sql_update"))]),
      (ascii "source_database_mutated", .bool false), (ascii "created_at", .string call.createdAt)])

structure ChangeSet where
  core : Json
  frozenSet : FrozenSet
  proposalHash : Text

section
variable (platform : Platform) (capability : Capability) (call : CallContext)

/-- The rows or the items of a call. -/
structure Source where
  rows : List Row
  batchItems : List Row
  itemPatches : List Record
  patch : Record

def batchMembers (principalScope : Option PrincipalScope) : List (Row × Record) → ℕ → Except Thrown (List Member)
  | [], _ => .ok []
  | (item, itemPatch) :: rest, index => do
    let m ← buildBatchMember platform capability principalScope call.context call.proposalId item itemPatch index
    let others ← batchMembers principalScope rest (index + 1)
    .ok (m :: others)

def rowMembers (patch : Record) : List Row → Except Thrown (List Member)
  | [] => .ok []
  | row :: rest => do
    let m ← buildRowMember platform capability patch row
    let others ← rowMembers patch rest
    .ok (m :: others)

/-- The members of a batch or of rows, in the order in which they came. -/
def rawMembersOf (principalScope : Option PrincipalScope) (source : Source) : Except Thrown (List Member) :=
  if capability.operation.kind.setKind = .batchInsert then
    batchMembers platform capability call principalScope (source.batchItems.zip source.itemPatches) 0
  else rowMembers platform capability source.patch source.rows

/-- Members stand in the order of the texts of their keys. -/
def inKeyOrder (left right : Member) : Bool := decide (platform.localeCompare left.key right.key ≠ .gt)

def buildBoundedSetChangeSet (source : Source) : Except Thrown ChangeSet := do
  let principalScope ← effectivePrincipalScope platform call.contextConfig capability call.context
  let operation := capability.operation
  let kind := operation.kind.setKind
  check (operation.maxRows = 0 ∨ operation.aggregateBounds = []) "SET_GUARDS_REQUIRED"
    (ascii "Bounded set capability " ++ capability.name ++ ascii " is missing reviewed set guards.")
  check (kind = .setUpdate ∧ ¬ ∃ advance ∈ operation.versionAdvance, advance.strategy = .integerIncrement)
    "SET_VERSION_ADVANCE_UNSUPPORTED"
    (ascii "Bounded set UPDATE currently requires integer_increment version advancement.")
  let rawMembers ← rawMembersOf platform capability call principalScope source
  let members := rawMembers.mergeSort (inKeyOrder platform)
  check (¬ (members.map Member.key).Nodup) "SET_IDENTITY_NOT_UNIQUE"
    (ascii "Every frozen set member must have a unique primary-key identity.")
  let bounds ← actualBounds members operation.aggregateBounds
  each (fun b => check (lt b.bound.maximum b.actual = true) "SET_AGGREGATE_BOUND_EXCEEDED"
    (b.bound.measure.text ++ ascii " aggregate for " ++ b.bound.column ++ ascii " exceeds the reviewed maximum " ++
      numberText b.bound.maximum ++ ascii ".")) bounds
  let setDigest ← canonicalJsonDigest platform (setMaterial kind members bounds)
  let frozenSet : FrozenSet := ⟨operation.maxRows, members.length, bounds, members, setDigest⟩
  let core := proposalCore capability call principalScope source.patch frozenSet
  .ok ⟨core, frozenSet, hashJson platform core⟩

/-- The guards on every row or item of the set. -/
def enforceSetGuards (source : Source) : Except Thrown Unit :=
  if capability.operation.kind = .insert then
    each (fun itemPatch => enforcePatchGuards capability [] itemPatch) source.itemPatches
  else each (fun row => enforcePatchGuards capability (scalarRecord row) source.patch) source.rows

/-- What is read of the source and of the arguments. -/
def sourceOf (args : Row) (rows batchItems : List Row) : Source :=
  if capability.operation.kind = .insert then
    ⟨[], batchItems, batchItems.map fun item => buildItemPatch capability item args, []⟩
  else ⟨rows, batchItems, [], if capability.operation.kind = .delete then [] else buildPatch capability args⟩

/-- The part of `callConfiguredTool` for a set capability from the rows that were read. -/
def callConfiguredTool (args : Row) (rows batchItems : List Row) : Except Thrown ChangeSet := do
  let reviewedCount := if capability.operation.kind = .insert then batchItems.length else rows.length
  check (reviewedCount > capability.operation.maxRows) "SET_ROW_CAP_EXCEEDED"
    (ascii "Reviewed set exceeds MAX ROWS " ++ digits capability.operation.maxRows ++ ascii "; no proposal was created.")
  check (reviewedCount < 1) "SET_EMPTY" (ascii "The reviewed set is empty; no proposal was created.")
  enforceSetGuards capability (sourceOf capability args rows batchItems)
  buildBoundedSetChangeSet platform capability call (sourceOf capability args rows batchItems)
end

/-! ### What a call that returns has done -/

theorem bind_ok_iff {α β : Type} {x : Except Thrown α} {f : α → Except Thrown β} {b : β} :
    x >>= f = .ok b ↔ ∃ a, x = .ok a ∧ f a = .ok b := by
  constructor
  · exact bind_eq_ok
  · rintro ⟨a, rfl, done⟩
    exact done

theorem check_ok_iff {broken : Prop} [Decidable broken] {code : String} {message : Text} {u : Unit} :
    check broken code message = .ok u ↔ ¬ broken := by
  unfold check runtimeError
  split <;> simp [*]

theorem each_ok_iff {α : Type} {checkItem : α → Except Thrown Unit} {items : List α} {u : Unit} :
    each checkItem items = .ok u ↔ ∀ item ∈ items, checkItem item = .ok () := by
  induction items with
  | nil => simp [each]
  | cons item rest ih =>
    rw [each, bind_ok_iff, List.forall_mem_cons]
    constructor
    · rintro ⟨v, first, others⟩
      exact ⟨first, ih.mp others⟩
    · rintro ⟨first, others⟩
      exact ⟨(), first, ih.mpr others⟩

variable {platform : Platform} {capability : Capability} {call : CallContext}

theorem rowMembers_ok_iff {patch : Record} {rows : List Row} {members : List Member} :
    rowMembers platform capability patch rows = .ok members ↔
      List.Forall₂ (fun row m => buildRowMember platform capability patch row = .ok m) rows members := by
  induction rows generalizing members with
  | nil =>
    rw [rowMembers, List.forall₂_nil_left_iff, Except.ok.injEq]
    exact eq_comm
  | cons row rest ih =>
    rw [rowMembers, bind_ok_iff, List.forall₂_cons_left_iff]
    constructor
    · rintro ⟨m, built, done⟩
      obtain ⟨others, builtToo, same⟩ := bind_eq_ok done
      exact ⟨m, others, built, ih.mp builtToo, (Except.ok.inj same).symm⟩
    · rintro ⟨m, others, built, builtToo, rfl⟩
      exact ⟨m, built, bind_ok_iff.mpr ⟨others, ih.mpr builtToo, rfl⟩⟩

/-- The frozen set that is made of members, and the change set around it. -/
structure Frozen (platform : Platform) (capability : Capability) (call : CallContext) (patch : Record) (raw : List Member)
    (result : ChangeSet) : Prop where
  reviewed : ¬ (capability.operation.maxRows = 0 ∨ capability.operation.aggregateBounds = [])
  strategy : ¬ (capability.operation.kind.setKind = .setUpdate ∧
    ¬ ∃ advance ∈ capability.operation.versionAdvance, advance.strategy = .integerIncrement)
  members : result.frozenSet.members = raw.mergeSort (inKeyOrder platform)
  distinct : (result.frozenSet.members.map Member.key).Nodup
  bounds : actualBounds result.frozenSet.members capability.operation.aggregateBounds = .ok result.frozenSet.aggregateBounds
  within : ∀ b ∈ result.frozenSet.aggregateBounds, ¬ lt b.bound.maximum b.actual = true
  setDigest : canonicalJsonDigest platform (setMaterial capability.operation.kind.setKind result.frozenSet.members
    result.frozenSet.aggregateBounds) = .ok result.frozenSet.setDigest
  maxRows : result.frozenSet.maxRows = capability.operation.maxRows
  rowCount : result.frozenSet.rowCount = result.frozenSet.members.length
  core : ∃ principalScope, effectivePrincipalScope platform call.contextConfig capability call.context = .ok principalScope ∧
    result.core = proposalCore capability call principalScope patch result.frozenSet
  proposalHash : result.proposalHash = hashJson platform result.core

theorem buildBoundedSetChangeSet_ok_iff {source : Source} {result : ChangeSet} :
    buildBoundedSetChangeSet platform capability call source = .ok result ↔
      ∃ principalScope raw, effectivePrincipalScope platform call.contextConfig capability call.context =
        .ok principalScope ∧
        rawMembersOf platform capability call principalScope source = .ok raw ∧
          Frozen platform capability call source.patch raw result := by
  rw [buildBoundedSetChangeSet]
  constructor
  · intro done
    obtain ⟨principalScope, granted, done⟩ := bind_eq_ok done
    obtain ⟨_, reviewed, done⟩ := bind_eq_ok done
    obtain ⟨_, strategy, done⟩ := bind_eq_ok done
    obtain ⟨raw, built, done⟩ := bind_eq_ok done
    obtain ⟨_, distinct, done⟩ := bind_eq_ok done
    obtain ⟨bounds, summed, done⟩ := bind_eq_ok done
    obtain ⟨_, within, done⟩ := bind_eq_ok done
    obtain ⟨setDigest, digested, done⟩ := bind_eq_ok done
    cases done
    refine ⟨principalScope, raw, granted, built, check_ok_iff.mp reviewed, check_ok_iff.mp strategy, rfl, ?_, summed, ?_,
      digested, rfl,
      rfl, ⟨principalScope, granted, rfl⟩, rfl⟩
    · exact not_not.mp (check_ok_iff.mp distinct)
    · intro b member
      exact check_ok_iff.mp (each_ok_iff.mp within b member)
  · rintro ⟨principalScope, raw, granted, built, frozen⟩
    obtain ⟨core, ⟨maxRows, rowCount, bounds, members, setDigest⟩, hash⟩ := result
    obtain ⟨reviewed, strategy, sorted, distinct, summed, within, digested, rowsAllowed, counted,
      ⟨scope, grantedToo, around⟩, hashed⟩ :=
      frozen
    dsimp only at *
    rw [granted] at grantedToo
    cases grantedToo
    subst sorted rowsAllowed counted around hashed
    refine bind_ok_iff.mpr ⟨principalScope, granted, ?_⟩
    refine bind_ok_iff.mpr ⟨(), check_ok_iff.mpr reviewed, ?_⟩
    refine bind_ok_iff.mpr ⟨(), check_ok_iff.mpr strategy, ?_⟩
    refine bind_ok_iff.mpr ⟨raw, built, ?_⟩
    refine bind_ok_iff.mpr ⟨(), check_ok_iff.mpr (not_not.mpr distinct), ?_⟩
    refine bind_ok_iff.mpr ⟨bounds, summed, ?_⟩
    refine bind_ok_iff.mpr ⟨(), each_ok_iff.mpr fun b member => check_ok_iff.mpr (within b member), ?_⟩
    exact bind_ok_iff.mpr ⟨setDigest, digested, rfl⟩

/-! ### Records -/

theorem find_setProperty (record : Record) (column other : Text) (value : Scalar)
    (settable : column ≠ protoKey ∨ column ∈ record.map Prod.fst) :
    KeyedMap.find other (setProperty record column value) = if other = column then
      some value else KeyedMap.find other record := by
  rw [setProperty, if_neg (fun fixed => settable.elim (· fixed.1) fixed.2), find_defineProperty]

theorem find_setProperty_of_ne (record : Record) {column other : Text} (value : Scalar) (apart : other ≠ column) :
    KeyedMap.find other (setProperty record column value) = KeyedMap.find other record := by
  rw [setProperty]
  split
  · rfl
  · rw [find_defineProperty, if_neg apart]

theorem setProperty_nodup {record : Record} (unique : (record.map Prod.fst).Nodup) (column : Text) (value : Scalar) :
    ((setProperty record column value).map Prod.fst).Nodup := by
  rw [setProperty]
  split
  · exact unique
  · exact defineProperty_nodup unique column value

theorem find_spread (record : Record) {patch : Record} (unique : (patch.map Prod.fst).Nodup) (column : Text) :
    KeyedMap.find column (spread record patch) = (KeyedMap.find column patch).or (KeyedMap.find column record) := by
  unfold spread
  induction patch generalizing record with
  | nil => rfl
  | cons p rest ih =>
    rw [List.map_cons, List.nodup_cons] at unique
    rw [List.foldl_cons, ih (defineProperty record p.1 p.2) unique.2, find_defineProperty, KeyedMap.find]
    by_cases same : p.1 = column
    · have later : KeyedMap.find column rest = none := KeyedMap.find_eq_none.mpr (same ▸ unique.1)
      rw [later, if_pos same, if_pos same.symm]
      rfl
    · rw [if_neg same, if_neg (Ne.symm same)]

/-! ### Patches -/

/-- What a binding of a patch gives. -/
def boundValue (item args : Row) : Binding → Scalar
  | .fromItem name => given name item
  | .fromArg name => given name args
  | .fixed value => value

theorem buildItemPatch_eq (capability : Capability) (item args : Row) :
    buildItemPatch capability item args =
      capability.patch.foldl (fun patch p => setProperty patch p.1 (boundValue item args p.2)) [] := by
  rw [buildItemPatch]
  congr 1

section
variable {α : Type} (value : α → Scalar)

theorem foldl_setProperty_nodup (bindings : List (Text × α)) {record : Record} (unique : (record.map Prod.fst).Nodup) :
    ((bindings.foldl (fun patch p => setProperty patch p.1 (value p.2)) record).map Prod.fst).Nodup := by
  induction bindings generalizing record with
  | nil => exact unique
  | cons p rest ih => exact ih (setProperty_nodup unique p.1 (value p.2))

theorem find_foldl_setProperty (bindings : List (Text × α)) {record : Record} {column : Text} (named : column ≠ protoKey)
    (bound : column ∈ bindings.map Prod.fst ∨ KeyedMap.find column record ≠ none) :
    KeyedMap.find column (bindings.foldl (fun patch p => setProperty patch p.1 (value p.2)) record) ≠ none := by
  induction bindings generalizing record with
  | nil => exact bound.resolve_left (by simp)
  | cons p rest ih =>
    refine ih ?_
    by_cases same : column = p.1
    · right
      rw [find_setProperty _ _ _ _ (.inl (same ▸ named)), if_pos same]
      exact Option.some_ne_none _
    · rw [find_setProperty_of_ne _ _ same]
      refine bound.imp (fun member => ?_) id
      rw [List.map_cons, List.mem_cons] at member
      exact member.resolve_left same

theorem mem_foldl_setProperty (bindings : List (Text × α)) {record : Record} {column : Text} {found : Scalar}
    (inside : KeyedMap.find column (bindings.foldl (fun patch p => setProperty patch p.1 (value p.2)) record) = some found) :
    column ∈ bindings.map Prod.fst ∨ KeyedMap.find column record ≠ none := by
  induction bindings generalizing record with
  | nil =>
    right
    rw [show KeyedMap.find column record = some found from inside]
    exact Option.some_ne_none _
  | cons p rest ih =>
    rw [List.map_cons, List.mem_cons]
    rcases ih inside with later | now
    · exact .inl (.inr later)
    · by_cases same : column = p.1
      · exact .inl (.inl same)
      · rw [find_setProperty_of_ne _ _ same] at now
        exact .inr now
end

theorem buildPatch_eq (capability : Capability) (args : Row) :
    ∃ value : Binding → Scalar, buildPatch capability args =
      capability.patch.foldl (fun patch p => setProperty patch p.1 (value p.2)) [] := by
  refine ⟨fun binding => match binding with
    | .fromArg name => given name args
    | .fixed value => value
    | .fromItem _ => .null, ?_⟩
  rw [buildPatch]

theorem held_none {column : Text} {record : Record} (absent : held column record = none) :
    KeyedMap.find column record = none ∧ column ∉ inheritedNames := by
  rw [held] at absent
  cases found : KeyedMap.find column record with
  | some value => simp [found] at absent
  | none =>
    refine ⟨rfl, ?_⟩
    intro inherited
    simp [found, inherited] at absent

theorem held_own {column : Text} {record : Record} {value : Scalar} (own : held column record = some (.own value)) :
    KeyedMap.find column record = some value := by
  rw [held] at own
  cases found : KeyedMap.find column record with
  | some other =>
    rw [found] at own
    cases own
    rfl
  | none =>
    by_cases inherited : column ∈ inheritedNames <;> simp [found, inherited] at own

theorem protoKey_inherited : protoKey ∈ inheritedNames := by decide

/-- A column of the patch is seen by the guards. -/
theorem buildPatch_held {args : Row} {column : Text} (bound : column ∈ capability.patch.map Prod.fst) :
    held column (buildPatch capability args) ≠ none := by
  obtain ⟨value, is⟩ := buildPatch_eq capability args
  intro absent
  obtain ⟨missing, own⟩ := held_none absent
  have named : column ≠ protoKey := fun same => own (same ▸ protoKey_inherited)
  rw [is] at missing
  exact find_foldl_setProperty value capability.patch named (.inl bound) missing

theorem buildItemPatch_held {item args : Row} {column : Text} (bound : column ∈ capability.patch.map Prod.fst) :
    held column (buildItemPatch capability item args) ≠ none := by
  intro absent
  obtain ⟨missing, own⟩ := held_none absent
  have named : column ≠ protoKey := fun same => own (same ▸ protoKey_inherited)
  rw [buildItemPatch_eq] at missing
  exact find_foldl_setProperty (boundValue item args) capability.patch named (.inl bound) missing

theorem mem_buildItemPatch {item args : Row} {column : Text} {found : Scalar}
    (inside : KeyedMap.find column (buildItemPatch capability item args) = some found) :
      column ∈ capability.patch.map Prod.fst := by
  rw [buildItemPatch_eq] at inside
  exact (mem_foldl_setProperty (boundValue item args) capability.patch inside).resolve_right fun none => none rfl

theorem buildPatch_nodup (args : Row) : ((buildPatch capability args).map Prod.fst).Nodup := by
  obtain ⟨value, is⟩ := buildPatch_eq capability args
  rw [is]
  exact foldl_setProperty_nodup value capability.patch List.nodup_nil

/-! ### Guards -/

theorem enforceNumericBound_ok {patch : Record} {guard : Text × NumericBounds} {u : Unit}
    (passed : enforceNumericBound patch guard = .ok u) (seen : held guard.1 patch ≠ none) :
    ∃ n, KeyedMap.find guard.1 patch = some (.number n) ∧ (∀ minimum ∈ guard.2.minimum, lt n minimum = false) ∧
      ∀ maximum ∈ guard.2.maximum, lt maximum n = false := by
  rw [enforceNumericBound] at passed
  cases found : KeyedMap.find guard.1 patch with
  | none =>
    exfalso
    by_cases inherited : guard.1 ∈ inheritedNames
    · simp [held, found, inherited, runtimeError] at passed
    · exact seen (by simp [held, found, inherited])
  | some value =>
    have is : held guard.1 patch = some (.own value) := by simp [held, found]
    rw [is] at passed
    cases value with
    | number n =>
      obtain ⟨_, low, high⟩ := bind_eq_ok passed
      refine ⟨n, rfl, ?_, ?_⟩
      · intro minimum bound
        have fine := check_ok_iff.mp low
        rw [Option.mem_def.mp bound] at fine
        simpa using fine
      · intro maximum bound
        have fine := check_ok_iff.mp high
        rw [Option.mem_def.mp bound] at fine
        simpa using fine
    | _ => cases passed

theorem enforceTransition_ok {before patch : Record} {guard : Text × TransitionGuard} {u : Unit}
    (passed : enforceTransition before patch guard = .ok u) (seen : held guard.1 patch ≠ none) :
    ∃ current proposed targets, KeyedMap.find (guard.2.fromColumn.getD guard.1) before = some (.string current) ∧
      KeyedMap.find guard.1 patch = some (.string proposed) ∧ KeyedMap.find current guard.2.allowed = some targets ∧
        proposed ∈ targets := by
  rw [enforceTransition] at passed
  cases present : held guard.1 patch with
  | none => exact absurd present seen
  | some proposed =>
    rw [present] at passed
    dsimp only at passed
    split at passed
    next value found =>
      have inPatch : KeyedMap.find guard.1 patch = some (.string value) := held_own present
      split at passed
      next targets listed => exact ⟨_, value, targets, found, inPatch, listed, not_not.mp (check_ok_iff.mp passed)⟩
      next =>
        split at passed
        · cases passed
        · cases passed
    next => cases passed

/-! ### What has a digest is finite -/

theorem canonicalJsonProperties_ok {properties cs : List (Text × Json)}
    (done : canonicalJsonProperties properties = .ok cs) :
    ∀ p ∈ properties, ∃ c, canonicalJsonValue p.2 = .ok c := by
  induction properties generalizing cs with
  | nil => simp
  | cons p rest ih =>
    rw [canonicalJsonProperties] at done
    cases value : canonicalJsonValue p.2 with
    | error message => simp [value, Except.bind] at done
    | ok c =>
      cases others : canonicalJsonProperties rest with
      | error message => simp [value, others, Except.bind, Except.map] at done
      | ok ds => exact List.forall_mem_cons.mpr ⟨⟨c, value⟩, ih others⟩

theorem canonicalJsonValue_object {properties : List (Text × Json)} {c : Json}
    (done : canonicalJsonValue (.object properties) = .ok c)
    {key : Text} {value : Json} (member : (key, value) ∈ properties) : ∃ d, canonicalJsonValue value = .ok d := by
  rw [canonicalJsonValue] at done
  cases each : canonicalJsonProperties properties with
  | error message => simp [each, Except.map] at done
  | ok cs => exact canonicalJsonProperties_ok each _ member

theorem canonicalJsonDigest_ok {value : Json} {digest : Text} (done : canonicalJsonDigest platform value = .ok digest) :
    ∃ c, canonicalJsonValue value = .ok c := by
  rw [canonicalJsonDigest, canonicalJsonStringify] at done
  cases is : canonicalJsonValue value with
  | error message => simp [is, Except.map] at done
  | ok c => exact ⟨c, rfl⟩

/-- The numbers of a record that is part of something with a digest. -/
theorem digest_finite {properties : List (Text × Json)} {digest name : Text} {record : Record}
    (done : canonicalJsonDigest platform (.object properties) = .ok digest) (part : (name, recordJson record) ∈ properties)
    {column : Text} {n : Number} (found : KeyedMap.find column record = some (.number n)) : n.isFinite = true := by
  obtain ⟨c, whole⟩ := canonicalJsonDigest_ok done
  obtain ⟨d, inner⟩ := canonicalJsonValue_object whole part
  have member : (column, Json.number n) ∈ record.map fun p => (p.1, p.2.json) :=
    List.mem_map.mpr ⟨(column, .number n), KeyedMap.find_mem found, rfl⟩
  obtain ⟨e, number⟩ := canonicalJsonValue_object inner member
  rw [canonicalJsonValue] at number
  by_contra infinite
  rw [if_neg infinite] at number
  cases number

/-! ### Members -/

theorem conflictGuardScalar_number {value : Scalar} {n : Number} (number : conflictGuardScalar value = .number n) :
    value = .number n := by
  cases value <;> first | exact number | cases number

theorem expectedVersionGuard_ok {row : Record} {version : Text × Scalar}
    (done : expectedVersionGuard platform capability row = .ok version) (exact' : version.1 ≠ ascii "__row_hash") :
    ∃ guard value, capability.conflictGuard = some guard ∧ guard.column = some version.1 ∧
      KeyedMap.find version.1 row = some value ∧ version.2 = conflictGuardScalar value := by
  rw [expectedVersionGuard] at done
  split at done
  next column value seen =>
    cases done
    obtain ⟨named, reviewed, present⟩ := Option.bind_eq_some_iff.mp seen
    obtain ⟨is, nonempty⟩ := Option.filter_eq_some_iff.mp reviewed
    obtain ⟨guard, guarded, columned⟩ := Option.bind_eq_some_iff.mp is
    obtain ⟨held', own, pair⟩ := Option.map_eq_some_iff.mp present
    cases pair
    exact ⟨guard, value, guarded, columned, held_own own, rfl⟩
  next => cases done
  next =>
    split at done
    · cases done
      exact absurd rfl exact'
    · cases done

/-- What the member of a row is. -/
structure RowMember (platform : Platform) (capability : Capability) (patch : Record) (row : Row) (m : Member) : Prop where
  before : m.before = scalarRecord row
  primaryKey : m.primaryKey =
    (capability.target.primaryKey, (KeyedMap.find capability.target.primaryKey (scalarRecord row)).getD .null)
  version : ∃ version guard value, m.expectedVersion = some version ∧ capability.conflictGuard = some guard ∧
    guard.column = some version.1 ∧ KeyedMap.find version.1 m.before = some value ∧ version.2 = conflictGuardScalar value
  beforeDigest : ∃ digest, m.beforeDigest = some digest ∧
    canonicalJsonDigest platform (beforeMaterial m.primaryKey.2 m.before) = .ok digest

structure DeletedMember (platform : Platform) (m : Member) : Prop where
  after : m.after = []
  afterDigest : m.afterDigest = none
  tombstoneDigest : ∃ digest version, m.tombstoneDigest = some digest ∧ m.expectedVersion = some version ∧
    canonicalJsonDigest platform (tombstoneMaterial m.primaryKey.2 version) = .ok digest

structure UpdatedMember (platform : Platform) (capability : Capability) (patch : Record) (m : Member) : Prop where
  after : ∃ column v, capability.operation.versionAdvance = some ⟨column, .integerIncrement⟩ ∧
    (∀ version ∈ m.expectedVersion, version.2 = .number v) ∧
      m.after = setProperty (spread m.before patch) column (.number (add v one))
  afterDigest : ∃ digest, m.afterDigest = some digest ∧
    canonicalJsonDigest platform (afterMaterial m.primaryKey.2 m.after) = .ok digest
  tombstoneDigest : m.tombstoneDigest = none

theorem buildRowMember_ok {patch : Record} {row : Row} {m : Member}
    (built : buildRowMember platform capability patch row = .ok m) :
    RowMember platform capability patch row m ∧
      if capability.operation.kind = .delete then DeletedMember platform m
      else UpdatedMember platform capability patch m := by
  rw [buildRowMember] at built
  obtain ⟨version, guarded, built⟩ := bind_eq_ok built
  obtain ⟨_, strong, built⟩ := bind_eq_ok built
  obtain ⟨_, keyed, built⟩ := bind_eq_ok built
  obtain ⟨guard, value, reviewed, columned, found, is⟩ := expectedVersionGuard_ok guarded (check_ok_iff.mp strong)
  by_cases deleted : capability.operation.kind = .delete
  · rw [if_pos deleted] at built
    rw [if_pos deleted]
    rw [buildDeleteMember] at built
    obtain ⟨beforeDigest, digested, built⟩ := bind_eq_ok built
    obtain ⟨tombstone, buried, built⟩ := bind_eq_ok built
    cases built
    exact ⟨⟨rfl, rfl, ⟨version, guard, value, rfl, reviewed, columned, found, is⟩, ⟨beforeDigest, rfl, digested⟩⟩,
      ⟨rfl, rfl, ⟨tombstone, version, rfl, rfl, buried⟩⟩⟩
  · rw [if_neg deleted] at built
    rw [if_neg deleted]
    rw [buildUpdateMember] at built
    split at built
    next column v advance number =>
      obtain ⟨beforeDigest, digested, built⟩ := bind_eq_ok built
      obtain ⟨afterDigest, digestedToo, built⟩ := bind_eq_ok built
      cases built
      exact ⟨⟨rfl, rfl, ⟨version, guard, value, rfl, reviewed, columned, found, is⟩, ⟨beforeDigest, rfl, digested⟩⟩,
        ⟨⟨column, v, advance, by simp [number], rfl⟩, ⟨afterDigest, rfl, digestedToo⟩, rfl⟩⟩
    next => cases built

/-- What the member of an item is. -/
structure ItemMember (platform : Platform) (capability : Capability) (itemPatch : Record) (m : Member) : Prop where
  before : m.before = []
  keeps : ∀ column value, KeyedMap.find column itemPatch = some value → capability.target.principalScopeKey ≠ some column →
    KeyedMap.find column m.after = some value
  fixed : ∀ column value, KeyedMap.find column m.after = some value → KeyedMap.find column itemPatch = some value ∨
    capability.target.principalScopeKey = some column ∨
      ∃ components ∈ m.deduplication, ∃ c ∈ components, c.column = column ∧ c.value = value
  beforeDigest : m.beforeDigest = none
  afterDigest : ∃ digest, m.afterDigest = some digest ∧
    canonicalJsonDigest platform (afterMaterial m.primaryKey.2 m.after) = .ok digest
  tombstoneDigest : m.tombstoneDigest = none

theorem addComponents_keeps {components : List ResolvedComponent} {record after : Record}
    (done : addComponents record components = .ok after) {column : Text} {value : Scalar}
    (found : KeyedMap.find column record = some value) : KeyedMap.find column after = some value := by
  induction components generalizing record with
  | nil =>
    cases done
    exact found
  | cons c rest ih =>
    obtain ⟨_, free, done⟩ := bind_eq_ok done
    refine ih done ?_
    have apart : column ≠ c.column := by
      rintro rfl
      exact check_ok_iff.mp free (List.mem_map.mpr ⟨_, KeyedMap.find_mem found, rfl⟩)
    rw [find_setProperty_of_ne _ _ apart]
    exact found

theorem addComponents_adds {components : List ResolvedComponent} {record after : Record}
    (done : addComponents record components = .ok after) {column : Text} {value : Scalar}
    (found : KeyedMap.find column after = some value) :
    KeyedMap.find column record = some value ∨ ∃ c ∈ components, c.column = column ∧ c.value = value := by
  induction components generalizing record with
  | nil =>
    cases done
    exact .inl found
  | cons c rest ih =>
    obtain ⟨_, free, done⟩ := bind_eq_ok done
    rcases ih done with before | ⟨d, member, is⟩
    · by_cases same : column = c.column
      · rw [setProperty] at before
        split at before
        · exact .inl before
        · rw [find_defineProperty, if_pos same] at before
          exact .inr ⟨c, by simp, same.symm, Option.some.inj before⟩
      · rw [find_setProperty_of_ne _ _ same] at before
        exact .inl before
    · exact .inr ⟨d, List.mem_cons_of_mem _ member, is⟩

theorem effectivePrincipalScope_column {config : Option ContextConfig} {context : TrustedContext} {scope : PrincipalScope}
    (granted : effectivePrincipalScope platform config capability context = .ok (some scope)) :
    capability.target.principalScopeKey = some scope.column := by
  rw [effectivePrincipalScope] at granted
  split at granted
  · cases granted
  next column keyed =>
    have reviewed := (Option.filter_eq_some_iff.mp keyed).1
    split at granted
    · cases granted
    · split at granted
      · cases granted
      · obtain ⟨fingerprint, _, granted⟩ := bind_eq_ok granted
        cases granted
        exact reviewed

theorem buildBatchMember_ok {config : Option ContextConfig} {principalScope : Option PrincipalScope}
    {context : TrustedContext}
    {proposalId : Text} {item : Row} {itemPatch : Record} {index : ℕ} {m : Member}
    (granted : effectivePrincipalScope platform config capability context = .ok principalScope)
    (built : buildBatchMember platform capability principalScope context proposalId item itemPatch index = .ok m) :
    ItemMember platform capability itemPatch m := by
  rw [buildBatchMember] at built
  obtain ⟨deduplication, resolved, built⟩ := bind_eq_ok built
  split at built
  · cases built
  next primary found =>
    obtain ⟨added, collided, built⟩ := bind_eq_ok built
    obtain ⟨afterDigest, digested, built⟩ := bind_eq_ok built
    cases built
    refine ⟨rfl, ?_, ?_, rfl, ⟨afterDigest, rfl, digested⟩, rfl⟩
    · intro column value inPatch unscoped
      have kept := addComponents_keeps collided inPatch
      cases principalScope with
      | none => exact kept
      | some scope =>
        have apart : column ≠ scope.column := fun same => unscoped (same ▸ effectivePrincipalScope_column granted)
        exact (find_setProperty_of_ne added scope.value apart).trans kept
    · intro column value inAfter
      cases principalScope with
      | none =>
        rcases addComponents_adds collided inAfter with old | new
        · exact .inl old
        · exact .inr (.inr ⟨deduplication, rfl, new⟩)
      | some scope =>
        by_cases same : column = scope.column
        · exact .inr (.inl (same ▸ effectivePrincipalScope_column granted))
        · have inAdded := (find_setProperty_of_ne added scope.value same).symm.trans inAfter
          rcases addComponents_adds collided inAdded with old | new
          · exact .inl old
          · exact .inr (.inr ⟨deduplication, rfl, new⟩)

theorem batchMembers_ok {principalScope : Option PrincipalScope} {patched : List (Row × Record)} {index : ℕ}
    {members : List Member}
    (built : batchMembers platform capability call principalScope patched index = .ok members) :
    members.length = patched.length ∧ ∀ m ∈ members, ∃ p ∈ patched, ∃ i,
      buildBatchMember platform capability principalScope call.context call.proposalId p.1 p.2 i = .ok m := by
  induction patched generalizing index members with
  | nil =>
    cases built
    simp
  | cons p rest ih =>
    rw [batchMembers] at built
    obtain ⟨m, first, built⟩ := bind_eq_ok built
    obtain ⟨others, later, built⟩ := bind_eq_ok built
    cases built
    obtain ⟨count, each⟩ := ih later
    refine ⟨by rw [List.length_cons, List.length_cons, count], ?_⟩
    intro n member
    rcases List.mem_cons.mp member with rfl | inner
    · exact ⟨p, by simp, index, first⟩
    · obtain ⟨q, inside, found⟩ := each n inner
      exact ⟨q, List.mem_cons_of_mem _ inside, found⟩

/-! ### Sums -/

/-- What a member adds to a measure, `NaN` when a value of it is no number. -/
def contribution (bound : AggregateBound) (m : Member) : Number :=
  let numberAt := fun record => match KeyedMap.find bound.column record with
    | some (.number n) => n
    | _ => .nan
  match bound.measure with
  | .before => DoubleArithmetic.abs (numberAt m.before)
  | .after => DoubleArithmetic.abs (numberAt m.after)
  | .absoluteDelta => DoubleArithmetic.abs (sub (numberAt m.after) (numberAt m.before))

/-- The sum of what the members add, in their order. -/
def referenceSum (bound : AggregateBound) (members : List Member) : Number :=
  (members.map (contribution bound)).foldl add zero

theorem numericAggregateValue_ok {value : Option Scalar} {column : Text} {n : Number}
    (done : numericAggregateValue value column = .ok n) : value = some (.number n) ∧ n.isFinite = true := by
  cases value with
  | none => cases done
  | some s =>
    cases s with
    | number m =>
      rw [numericAggregateValue] at done
      split at done
      next finite =>
        cases done
        exact ⟨rfl, finite⟩
      next => cases done
    | _ => cases done

theorem map_abs_ok {x : Except Thrown Number} {n : Number} (done : x.map DoubleArithmetic.abs = .ok n) :
    ∃ v, x = .ok v ∧ n = DoubleArithmetic.abs v := by
  cases x with
  | error thrown => cases done
  | ok v =>
    cases done
    exact ⟨v, rfl, rfl⟩

theorem memberAggregate_ok {bound : AggregateBound} {m : Member} {n : Number} (done : memberAggregate bound m = .ok n) :
    n = contribution bound m ∧ Counts n := by
  rw [memberAggregate] at done
  unfold contribution
  cases measured : bound.measure with
  | before =>
    simp only [measured] at done
    obtain ⟨v, numeric, rfl⟩ := map_abs_ok done
    obtain ⟨found, finite⟩ := numericAggregateValue_ok numeric
    simp only [found]
    exact ⟨trivial, counts_abs (isFinite_ne_nan finite)⟩
  | after =>
    simp only [measured] at done
    obtain ⟨v, numeric, rfl⟩ := map_abs_ok done
    obtain ⟨found, finite⟩ := numericAggregateValue_ok numeric
    simp only [found]
    exact ⟨trivial, counts_abs (isFinite_ne_nan finite)⟩
  | absoluteDelta =>
    simp only [measured] at done
    obtain ⟨proposed, numeric, done⟩ := bind_eq_ok done
    obtain ⟨current, numericToo, done⟩ := bind_eq_ok done
    cases done
    obtain ⟨found, finite⟩ := numericAggregateValue_ok numeric
    obtain ⟨foundToo, finiteToo⟩ := numericAggregateValue_ok numericToo
    simp only [found, foundToo]
    exact ⟨trivial, counts_abs (add_finite _ _ finite (negate_finite finiteToo))⟩

theorem aggregateFrom_ok {bound : AggregateBound} {total n : Number} {members : List Member} (counts : Counts total)
    (done : aggregateFrom bound total members = .ok n) :
    n = (members.map (contribution bound)).foldl add total ∧ Counts n := by
  induction members generalizing total with
  | nil =>
    cases done
    exact ⟨rfl, counts⟩
  | cons m rest ih =>
    rw [aggregateFrom] at done
    obtain ⟨value, added, done⟩ := bind_eq_ok done
    obtain ⟨is, valueCounts⟩ := memberAggregate_ok added
    rw [List.map_cons, List.foldl_cons, ← is]
    exact ih (counts.add valueCounts) done

theorem actualBounds_ok {members : List Member} {bounds : List AggregateBound} {actual : List ActualBound}
    (done : actualBounds members bounds = .ok actual) :
    actual.map ActualBound.bound = bounds ∧ ∀ b ∈ actual, b.actual = referenceSum b.bound members ∧ Counts b.actual := by
  induction bounds generalizing actual with
  | nil =>
    cases done
    simp
  | cons bound rest ih =>
    rw [actualBounds] at done
    obtain ⟨n, summed, done⟩ := bind_eq_ok done
    obtain ⟨others, later, done⟩ := bind_eq_ok done
    cases done
    obtain ⟨names, sums⟩ := ih later
    refine ⟨by rw [List.map_cons, names], ?_⟩
    intro b member
    rcases List.mem_cons.mp member with rfl | inner
    · exact aggregateFrom_ok counts_zero summed
    · exact sums b inner

/-! ### Order -/

theorem inKeyOrder_trans (a b c : Member) (first : inKeyOrder platform a b = true)
    (second : inKeyOrder platform b c = true) :
    inKeyOrder platform a c = true :=
  decide_eq_true (platform.trans _ _ _ (of_decide_eq_true first) (of_decide_eq_true second))

theorem inKeyOrder_total (a b : Member) : (inKeyOrder platform a b || inKeyOrder platform b a) = true := by
  rw [Bool.or_eq_true]
  exact (platform.total a.key b.key).imp decide_eq_true decide_eq_true

/-- Two texts that differ and that the collation does not tell apart. -/
def Tied (platform : Platform) (left right : Text) : Prop :=
  left ≠ right ∧ platform.localeCompare left right ≠ .gt ∧ platform.localeCompare right left ≠ .gt

/-- Members in key order do not depend on the order in which they came. -/
theorem mergeSort_eq_of_perm {left right : List Member} (perm : left.Perm right) (distinct : (left.map Member.key).Nodup)
    (untied : ∀ a ∈ left, ∀ b ∈ left, ¬ Tied platform a.key b.key) :
    left.mergeSort (inKeyOrder platform) = right.mergeSort (inKeyOrder platform) := by
  refine List.Perm.eq_of_pairwise ?_ (List.pairwise_mergeSort inKeyOrder_trans inKeyOrder_total left)
    (List.pairwise_mergeSort inKeyOrder_trans inKeyOrder_total right)
    ((List.mergeSort_perm left _).trans (perm.trans (List.mergeSort_perm right _).symm))
  intro a b inLeft inRight le ge
  have leftMember := List.mem_mergeSort.mp inLeft
  have rightMember := perm.mem_iff.mpr (List.mem_mergeSort.mp inRight)
  have same : a.key = b.key := by
    by_contra apart
    exact untied a leftMember b rightMember ⟨apart, of_decide_eq_true le, of_decide_eq_true ge⟩
  exact List.inj_on_of_nodup_map distinct leftMember rightMember same

theorem pair_sublist {α : Type} {a b : α} {l : List α} (first : a ∈ l) (second : b ∈ l) (apart : a ≠ b) :
    [a, b].Sublist l ∨ [b, a].Sublist l := by
  induction l with
  | nil => cases first
  | cons c rest ih =>
    rcases List.mem_cons.mp first with rfl | inner
    · have later := (List.mem_cons.mp second).resolve_left (Ne.symm apart)
      exact .inl ((List.singleton_sublist.mpr later).cons_cons _)
    · rcases List.mem_cons.mp second with rfl | innerToo
      · exact .inr ((List.singleton_sublist.mpr inner).cons_cons _)
      · exact (ih inner innerToo).imp (.cons _) (.cons _)

theorem not_both_sublists {α : Type} {a b : α} {l : List α} (unique : l.Nodup) (apart : a ≠ b) (first : [a, b].Sublist l)
    (second : [b, a].Sublist l) : False := by
  induction l with
  | nil => cases first
  | cons c rest ih =>
    rw [List.nodup_cons] at unique
    cases first with
    | cons _ inner =>
      cases second with
      | cons _ innerToo => exact ih unique.2 inner innerToo
      | cons_cons _ _ => exact unique.1 (inner.subset (by simp))
    | cons_cons _ inner =>
      cases second with
      | cons _ innerToo => exact unique.1 (innerToo.subset (by simp))
      | cons_cons _ _ => exact apart rfl

/-- Of two members that tie, the one that came first stands first. -/
theorem mergeSort_reverse_ne {raw : List Member} (unique : raw.Nodup) {a b : Member} (first : a ∈ raw) (second : b ∈ raw)
    (tied : Tied platform a.key b.key) :
    raw.mergeSort (inKeyOrder platform) ≠ raw.reverse.mergeSort (inKeyOrder platform) := by
  intro same
  have apart : a ≠ b := fun equal => tied.1 (congrArg Member.key equal)
  have sortedUnique : (raw.mergeSort (inKeyOrder platform)).Nodup := (List.mergeSort_perm raw _).nodup_iff.mpr unique
  have forth : inKeyOrder platform a b = true := decide_eq_true tied.2.1
  have back : inKeyOrder platform b a = true := decide_eq_true tied.2.2
  rcases pair_sublist first second apart with order | order
  · have reversed : [b, a].Sublist raw.reverse := List.reverse_sublist.mpr order
    refine not_both_sublists sortedUnique apart
      (List.pair_sublist_mergeSort inKeyOrder_trans inKeyOrder_total forth order) ?_
    rw [same]
    exact List.pair_sublist_mergeSort inKeyOrder_trans inKeyOrder_total back reversed
  · have reversed : [a, b].Sublist raw.reverse := List.reverse_sublist.mpr order
    refine not_both_sublists sortedUnique apart ?_ (List.pair_sublist_mergeSort inKeyOrder_trans inKeyOrder_total back order)
    rw [same]
    exact List.pair_sublist_mergeSort inKeyOrder_trans inKeyOrder_total forth reversed

/-! ### Exact sets -/

def WithinBounds (bounds : NumericBounds) (n : Number) : Prop :=
  (∀ minimum ∈ bounds.minimum, le minimum n = true) ∧ ∀ maximum ∈ bounds.maximum, le n maximum = true

/-- What the validators of the contract and of the configuration promise. -/
structure Accepted (capability : Capability) : Prop where
  aggregates : ∀ bound ∈ capability.operation.aggregateBounds, bound.maximum.isFinite = true
  advance : ∀ advance ∈ capability.operation.versionAdvance, ∀ guard ∈ capability.conflictGuard, guard.column =
    some advance.column
  deleted : capability.operation.kind = .delete → capability.patch = []
  unscoped : ∀ column ∈ capability.target.principalScopeKey, column ∉ capability.patch.map Prod.fst
  numericBounds : ∀ guard ∈ capability.numericBounds, guard.1 ∈ capability.patch.map Prod.fst ∧
    (∀ minimum ∈ guard.2.minimum, minimum.isFinite = true) ∧ ∀ maximum ∈ guard.2.maximum, maximum.isFinite = true
  transitionGuards : ∀ guard ∈ capability.transitionGuards, guard.1 ∈ capability.patch.map Prod.fst

/-- The after image has the values of the patch, then those of the before image, and a
    version that is larger. -/
structure Updated (capability : Capability) (patch : Record) (m : Member) : Prop where
  patched : ∀ column, (∀ advance ∈ capability.operation.versionAdvance, column ≠ advance.column) →
    KeyedMap.find column m.after = (KeyedMap.find column patch).or (KeyedMap.find column m.before)
  advanced : ∃ advance ∈ capability.operation.versionAdvance, ∃ version next,
    KeyedMap.find advance.column m.before = some (.number version) ∧
      KeyedMap.find advance.column m.after = some (.number next) ∧ lt version next = true

/-- The after image has the values of the patch, and else only those of the components and
    of the principal. -/
structure Inserted (capability : Capability) (patch : Record) (m : Member) : Prop where
  patched : ∀ column value, KeyedMap.find column patch = some value → KeyedMap.find column m.after = some value
  others : ∀ column value, KeyedMap.find column m.after = some value → KeyedMap.find column patch = some value ∨
    capability.target.principalScopeKey = some column ∨
      ∃ components ∈ m.deduplication, ∃ c ∈ components, c.column = column ∧ c.value = value

inductive Image (capability : Capability) (args : Row) (rows batchItems : List Row) (m : Member) : Prop
  | updated (kind : capability.operation.kind = .update) (read : m.before ∈ rows.map scalarRecord)
      (is : Updated capability (buildPatch capability args) m)
  | deleted (kind : capability.operation.kind = .delete) (read : m.before ∈ rows.map scalarRecord) (gone : m.after = [])
  | inserted (kind : capability.operation.kind = .insert) (fresh : m.before = []) (item : Row) (listed : item ∈ batchItems)
      (is : Inserted capability (buildItemPatch capability item args) m)

structure Guarded (capability : Capability) (m : Member) : Prop where
  bounded : ∀ guard ∈ capability.numericBounds, ∀ value, KeyedMap.find guard.1 m.after = some value →
    ∃ n, value = .number n ∧ WithinBounds guard.2 n
  allowed : ∀ guard ∈ capability.transitionGuards, ∀ value, KeyedMap.find guard.1 m.after = some value →
    ∃ current proposed targets, KeyedMap.find (guard.2.fromColumn.getD guard.1) m.before = some (.string current) ∧
      value = .string proposed ∧ KeyedMap.find current guard.2.allowed = some targets ∧ proposed ∈ targets

structure VerifiedMember (platform : Platform) (kind : OperationKind) (m : Member) : Prop where
  before : kind = .insert ∧ m.beforeDigest = none ∨ kind ≠ .insert ∧ ∃ digest, m.beforeDigest = some digest ∧
    canonicalJsonDigest platform (beforeMaterial m.primaryKey.2 m.before) = .ok digest
  after : kind = .delete ∧ m.afterDigest = none ∨ kind ≠ .delete ∧ ∃ digest, m.afterDigest = some digest ∧
    canonicalJsonDigest platform (afterMaterial m.primaryKey.2 m.after) = .ok digest
  tombstone : kind ≠ .delete ∧ m.tombstoneDigest = none ∨ kind = .delete ∧ ∃ digest version, m.tombstoneDigest =
    some digest ∧
    m.expectedVersion = some version ∧ canonicalJsonDigest platform (tombstoneMaterial m.primaryKey.2 version) = .ok digest

structure Verified (platform : Platform) (capability : Capability) (call : CallContext) (result : ChangeSet) : Prop where
  members : ∀ m ∈ result.frozenSet.members, VerifiedMember platform capability.operation.kind m
  set : canonicalJsonDigest platform (setMaterial capability.operation.kind.setKind result.frozenSet.members
    result.frozenSet.aggregateBounds) = .ok result.frozenSet.setDigest
  proposal : result.proposalHash = hashJson platform result.core
  core : ∃ principalScope patch, effectivePrincipalScope platform call.contextConfig capability call.context =
    .ok principalScope ∧
    result.core = proposalCore capability call principalScope patch result.frozenSet

/-- A change set on which a reviewer can rely. -/
structure Exact (platform : Platform) (capability : Capability) (call : CallContext) (args : Row)
    (rows batchItems : List Row)
    (result : ChangeSet) : Prop where
  distinct : (result.frozenSet.members.map fun m => m.primaryKey.2).Nodup
  ordered : ∀ others : List Row, others.Perm rows → ∃ again,
    callConfiguredTool platform capability call args others batchItems = .ok again ∧ again.frozenSet = result.frozenSet
  counted : 1 ≤ result.frozenSet.members.length ∧ result.frozenSet.members.length ≤ capability.operation.maxRows ∧
    result.frozenSet.rowCount = result.frozenSet.members.length
  complete : capability.operation.kind ≠ .insert → (result.frozenSet.members.map Member.before).Perm (rows.map scalarRecord)
  images : ∀ m ∈ result.frozenSet.members, Image capability args rows batchItems m
  guarded : ∀ m ∈ result.frozenSet.members, Guarded capability m
  bounds : result.frozenSet.aggregateBounds.map ActualBound.bound = capability.operation.aggregateBounds
  summed : ∀ b ∈ result.frozenSet.aggregateBounds,
    b.actual = referenceSum b.bound result.frozenSet.members ∧ le b.actual b.bound.maximum = true
  verified : Verified platform capability call result

/-- The text of the key of a row. -/
def keyText (capability : Capability) (row : Row) : Text :=
  ((KeyedMap.find capability.target.primaryKey (scalarRecord row)).getD .null).text

/-- The collation tells the keys apart, one more is another version, and the version is not
    guarded against what it becomes. -/
structure Sound (platform : Platform) (capability : Capability) (rows : List Row) : Prop where
  untied : capability.operation.kind ≠ .insert → ∀ left ∈ rows, ∀ right ∈ rows,
    ¬ Tied platform (keyText capability left) (keyText capability right)
  grows : capability.operation.kind = .update → ∀ advance ∈ capability.operation.versionAdvance, ∀ row ∈ rows, ∀ version,
    KeyedMap.find advance.column (scalarRecord row) = some (.number version) → Grows version
  unguarded : capability.operation.kind = .update → ∀ advance ∈ capability.operation.versionAdvance,
    ∀ guard ∈ capability.transitionGuards, guard.1 ≠ advance.column
  bounded : capability.operation.kind = .update → ∀ advance ∈ capability.operation.versionAdvance,
    ∀ guard ∈ capability.numericBounds, guard.1 = advance.column → ∀ row ∈ rows, ∀ version,
      KeyedMap.find advance.column (scalarRecord row) = some (.number version) → WithinBounds guard.2 (add version one)

/-! ### What a call that returns has frozen -/

/-- The patch of the rows of a call. -/
def rowPatch (capability : Capability) (args : Row) : Record :=
  if capability.operation.kind = .delete then [] else buildPatch capability args

variable {args : Row} {rows batchItems : List Row} {result : ChangeSet}

theorem callConfiguredTool_ok {count : ℕ} (counted : (if capability.operation.kind = .insert then batchItems.length
      else rows.length) = count) :
    callConfiguredTool platform capability call args rows batchItems = .ok result ↔
      (1 ≤ count ∧ count ≤ capability.operation.maxRows) ∧
        enforceSetGuards capability (sourceOf capability args rows batchItems) = .ok () ∧
          buildBoundedSetChangeSet platform capability call (sourceOf capability args rows batchItems) = .ok result := by
  subst counted
  rw [callConfiguredTool]
  constructor
  · intro done
    obtain ⟨_, cap, done⟩ := bind_eq_ok done
    obtain ⟨_, empty, done⟩ := bind_eq_ok done
    obtain ⟨_, guarded, done⟩ := bind_eq_ok done
    exact ⟨⟨Nat.le_of_not_lt (check_ok_iff.mp empty), Nat.le_of_not_lt (check_ok_iff.mp cap)⟩, guarded, done⟩
  · rintro ⟨⟨some', cap⟩, guarded, done⟩
    refine bind_ok_iff.mpr ⟨(), check_ok_iff.mpr (Nat.not_lt_of_le cap), ?_⟩
    refine bind_ok_iff.mpr ⟨(), check_ok_iff.mpr (Nat.not_lt_of_le some'), ?_⟩
    exact bind_ok_iff.mpr ⟨(), guarded, done⟩

/-- The set of the rows that were read. -/
theorem rows_frozen (kind : capability.operation.kind ≠ .insert) :
    callConfiguredTool platform capability call args rows batchItems = .ok result ↔
      (1 ≤ rows.length ∧ rows.length ≤ capability.operation.maxRows) ∧
        (∀ row ∈ rows, enforcePatchGuards capability (scalarRecord row) (rowPatch capability args) = .ok ()) ∧
          ∃ principalScope raw, effectivePrincipalScope platform call.contextConfig capability call.context =
            .ok principalScope ∧
            List.Forall₂ (fun row m => buildRowMember platform capability (rowPatch capability args) row = .ok m) rows raw ∧
              Frozen platform capability call (rowPatch capability args) raw result := by
  have source : sourceOf capability args rows batchItems = ⟨rows, batchItems, [], rowPatch capability args⟩ := if_neg kind
  have notBatch : capability.operation.kind.setKind ≠ .batchInsert := by
    cases is : capability.operation.kind with
    | insert => exact absurd is kind
    | _ => exact SetKind.noConfusion
  rw [callConfiguredTool_ok (if_neg kind), source, enforceSetGuards, if_neg kind, each_ok_iff,
    buildBoundedSetChangeSet_ok_iff]
  simp only [rawMembersOf, if_neg notBatch, rowMembers_ok_iff]

/-- The set of the items of a batch. -/
theorem items_frozen (kind : capability.operation.kind = .insert)
    (returned : callConfiguredTool platform capability call args rows batchItems = .ok result) :
    (1 ≤ batchItems.length ∧ batchItems.length ≤ capability.operation.maxRows) ∧
      (∀ item ∈ batchItems, enforcePatchGuards capability [] (buildItemPatch capability item args) = .ok ()) ∧
        ∃ principalScope raw, effectivePrincipalScope platform call.contextConfig capability call.context =
          .ok principalScope ∧
          batchMembers platform capability call principalScope
            (batchItems.map fun item => (item, buildItemPatch capability item args)) 0 = .ok raw ∧
            Frozen platform capability call [] raw result := by
  have source : sourceOf capability args rows batchItems =
      ⟨[], batchItems, batchItems.map fun item => buildItemPatch capability item args, []⟩ := if_pos kind
  have batch : capability.operation.kind.setKind = .batchInsert := by rw [kind]; rfl
  rw [callConfiguredTool_ok (if_pos kind), source, enforceSetGuards, if_pos kind, each_ok_iff,
    buildBoundedSetChangeSet_ok_iff]
    at returned
  obtain ⟨counted, guarded, principalScope, raw, granted, built, frozen⟩ := returned
  rw [rawMembersOf, if_pos batch] at built
  refine ⟨counted, fun item listed => guarded _ (List.mem_map_of_mem listed), principalScope, raw, granted, ?_, frozen⟩
  rw [← built, List.map_prod_left_eq_zip]

theorem row_of_member {patch : Record} {raw : List Member}
    (built : List.Forall₂ (fun row m => buildRowMember platform capability patch row = .ok m) rows raw) :
    ∀ m ∈ raw, ∃ row ∈ rows, buildRowMember platform capability patch row = .ok m := by
  induction built with
  | nil => simp
  | cons here _ ih =>
    intro m member
    rcases List.mem_cons.mp member with rfl | inner
    · exact ⟨_, by simp, here⟩
    · obtain ⟨row, listed, found⟩ := ih m inner
      exact ⟨row, List.mem_cons_of_mem _ listed, found⟩

theorem member_of_row {patch : Record} {raw : List Member}
    (built : List.Forall₂ (fun row m => buildRowMember platform capability patch row = .ok m) rows raw) :
    ∀ row ∈ rows, ∃ m ∈ raw, buildRowMember platform capability patch row = .ok m := by
  induction built with
  | nil => simp
  | cons here _ ih =>
    intro row listed
    rcases List.mem_cons.mp listed with rfl | inner
    · exact ⟨_, by simp, here⟩
    · obtain ⟨m, member, found⟩ := ih row inner
      exact ⟨m, List.mem_cons_of_mem _ member, found⟩

theorem key_of_row {patch : Record} {row : Row} {m : Member} (built : RowMember platform capability patch row m) :
    m.key = keyText capability row := by
  rw [Member.key, built.primaryKey]
  rfl

theorem Frozen.distinctRaw {patch : Record} {raw : List Member} (frozen : Frozen platform capability call patch raw result) :
    (raw.map Member.key).Nodup := by
  have sorted := frozen.distinct
  rw [frozen.members] at sorted
  exact ((List.mergeSort_perm raw _).map Member.key).nodup_iff.mp sorted

theorem Frozen.mem_members {patch : Record} {raw : List Member} (frozen : Frozen platform capability call patch raw result)
    {m : Member} : m ∈ result.frozenSet.members ↔ m ∈ raw := by
  rw [frozen.members]
  exact List.mem_mergeSort

theorem Frozen.identities {patch : Record} {raw : List Member} (frozen : Frozen platform capability call patch raw result) :
    (result.frozenSet.members.map fun m => m.primaryKey.2).Nodup := by
  have texts : (result.frozenSet.members.map fun m => m.primaryKey.2).map Scalar.text =
    result.frozenSet.members.map Member.key := by
    rw [List.map_map]
    rfl
  refine List.Nodup.of_map Scalar.text ?_
  rw [texts]
  exact frozen.distinct

theorem le_of_not_lt {a b : Number} (first : a ≠ .nan) (second : b ≠ .nan) (below : lt b a = false) : le a b = true := by
  rw [le, below, decide_eq_true first, decide_eq_true second]
  rfl

theorem Frozen.sums {patch : Record} {raw : List Member} (accepted : Accepted capability)
    (frozen : Frozen platform capability call patch raw result) :
    result.frozenSet.aggregateBounds.map ActualBound.bound = capability.operation.aggregateBounds ∧
      ∀ b ∈ result.frozenSet.aggregateBounds,
        b.actual = referenceSum b.bound result.frozenSet.members ∧ le b.actual b.bound.maximum = true := by
  obtain ⟨bounds, sums⟩ := actualBounds_ok frozen.bounds
  refine ⟨bounds, ?_⟩
  intro b member
  obtain ⟨sum, counts⟩ := sums b member
  have declared : b.bound ∈ capability.operation.aggregateBounds := bounds ▸ List.mem_map_of_mem member
  refine ⟨sum, le_of_not_lt counts.ne_nan (isFinite_ne_nan (accepted.aggregates _ declared)) ?_⟩
  exact Bool.eq_false_iff.mpr (frozen.within b member)

/-- The same members make the same set. -/
theorem Frozen.again {patch : Record} {raw other : List Member} (frozen : Frozen platform capability call patch raw result)
    (same : other.mergeSort (inKeyOrder platform) = raw.mergeSort (inKeyOrder platform)) :
    Frozen platform capability call patch other result :=
  { frozen with members := by rw [same, frozen.members] }

/-! ### Images and guards of the members -/

/-- What an update makes of the version and of the other columns. -/
structure Advanced (capability : Capability) (patch : Record) (m : Member) (column : Text) (v : Number) : Prop where
  advance : capability.operation.versionAdvance = some ⟨column, .integerIncrement⟩
  before : KeyedMap.find column m.before = some (.number v)
  finite : v.isFinite = true
  after : KeyedMap.find column m.after = some (.number (add v one))
  others : ∀ other, other ≠ column → KeyedMap.find other m.after =
    (KeyedMap.find other patch).or (KeyedMap.find other m.before)

theorem UpdatedMember.advanced (accepted : Accepted capability) {row : Row} {m : Member}
    (built : RowMember platform capability (buildPatch capability args) row m)
    (updated : UpdatedMember platform capability (buildPatch capability args) m) :
    ∃ column v, Advanced capability (buildPatch capability args) m column v := by
  obtain ⟨column, v, advance, version, after⟩ := updated.after
  obtain ⟨expected, guard, value, expects, reviewed, columned, found, is⟩ := built.version
  have named : guard.column = some column := accepted.advance _ advance guard reviewed
  have same : expected.1 = column := Option.some.inj (columned.symm.trans named)
  have number : value = .number v := conflictGuardScalar_number (is.symm.trans (version expected expects))
  rw [same, number] at found
  obtain ⟨digest, _, digested⟩ := built.beforeDigest
  have present : column ∈ (spread m.before (buildPatch capability args)).map Prod.fst := by
    by_contra absent
    have missing := KeyedMap.find_eq_none.mpr absent
    rw [find_spread _ (buildPatch_nodup args), found, Option.or_eq_none_iff] at missing
    exact Option.some_ne_none _ missing.2
  refine ⟨column, v, advance, found, digest_finite digested (List.mem_cons_of_mem _ (List.mem_singleton.mpr rfl)) found,
    ?_, ?_⟩
  · rw [after, find_setProperty _ _ _ _ (.inr present), if_pos rfl]
  · intro other apart
    rw [after, find_setProperty_of_ne _ _ apart, find_spread _ (buildPatch_nodup args)]

theorem Advanced.updated_iff {patch : Record} {m : Member} {column : Text} {v : Number}
    (advanced : Advanced capability patch m column v) : Updated capability patch m ↔ Grows v := by
  rw [← lt_add_one_iff advanced.finite]
  constructor
  · rintro ⟨_, advance, declared, version, next, before, after, larger⟩
    have same := Option.some.inj (advanced.advance.symm.trans (Option.mem_def.mp declared))
    subst same
    cases advanced.before.symm.trans before
    cases advanced.after.symm.trans after
    exact larger
  · intro larger
    refine ⟨?_, ⟨column, .integerIncrement⟩, advanced.advance, v, add v one, advanced.before, advanced.after, larger⟩
    intro other apart
    exact advanced.others other (apart _ advanced.advance)

theorem withinBounds_of {bounds : NumericBounds} {n : Number} (number : n ≠ .nan)
    (finite : (∀ minimum ∈ bounds.minimum, minimum.isFinite = true) ∧ ∀ maximum ∈ bounds.maximum, maximum.isFinite = true)
    (low : ∀ minimum ∈ bounds.minimum, lt n minimum = false) (high : ∀ maximum ∈ bounds.maximum, lt maximum n = false) :
    WithinBounds bounds n := by
  constructor
  · intro minimum declared
    exact le_of_not_lt (isFinite_ne_nan (finite.1 minimum declared)) number (low minimum declared)
  · intro maximum declared
    exact le_of_not_lt number (isFinite_ne_nan (finite.2 maximum declared)) (high maximum declared)

theorem enforcePatchGuards_ok {before patch : Record} {u : Unit}
    (passed : enforcePatchGuards capability before patch = .ok u) :
    (∀ guard ∈ capability.numericBounds, enforceNumericBound patch guard = .ok ()) ∧
      ∀ guard ∈ capability.transitionGuards, enforceTransition before patch guard = .ok () := by
  obtain ⟨_, bounds, transitions⟩ := bind_eq_ok passed
  exact ⟨each_ok_iff.mp bounds, each_ok_iff.mp transitions⟩

/-- The guards hold of an after image that has what the patch gives to the guarded column. -/
theorem guard_passed {before patch : Record} (passed : enforcePatchGuards capability before patch = .ok ())
    (accepted : Accepted capability) (seen : ∀ column ∈ capability.patch.map Prod.fst, held column patch ≠ none)
      {after : Record}
    (finite : ∀ column n, KeyedMap.find column after = some (.number n) → n.isFinite = true) {column : Text} {value : Scalar}
    (kept : ∀ proposed, KeyedMap.find column patch = some proposed → KeyedMap.find column after = some proposed)
    (found : KeyedMap.find column after = some value) :
    (∀ bounds, (column, bounds) ∈ capability.numericBounds → ∃ n, value = .number n ∧ WithinBounds bounds n) ∧
      ∀ guard, (column, guard) ∈ capability.transitionGuards → ∃ current proposed targets,
        KeyedMap.find (guard.fromColumn.getD column) before = some (.string current) ∧ value = .string proposed ∧
          KeyedMap.find current guard.allowed = some targets ∧ proposed ∈ targets := by
  obtain ⟨bounded, allowed⟩ := enforcePatchGuards_ok passed
  constructor
  · intro bounds declared
    obtain ⟨bound, finiteBounds⟩ := accepted.numericBounds _ declared
    obtain ⟨n, inPatch, low, high⟩ := enforceNumericBound_ok (bounded _ declared) (seen _ bound)
    have inAfter := kept _ inPatch
    refine ⟨n, Option.some.inj (found.symm.trans inAfter), ?_⟩
    exact withinBounds_of (isFinite_ne_nan (finite column n inAfter)) finiteBounds low high
  · intro guard declared
    obtain ⟨current, proposed, targets, source, inPatch, listed, target⟩ :=
      enforceTransition_ok (allowed _ declared) (seen _ (accepted.transitionGuards _ declared))
    exact ⟨current, proposed, targets, source, Option.some.inj (found.symm.trans (kept _ inPatch)), listed, target⟩

/-- The guards hold of an updated row exactly when they hold of its version. -/
theorem Advanced.guarded_iff (accepted : Accepted capability) {row : Row} {m : Member} {column : Text} {v : Number}
    (advanced : Advanced capability (buildPatch capability args) m column v) (read : m.before = scalarRecord row)
    (digested : UpdatedMember platform capability (buildPatch capability args) m)
    (passed : enforcePatchGuards capability (scalarRecord row) (buildPatch capability args) = .ok ()) :
    Guarded capability m ↔ (∀ guard ∈ capability.transitionGuards, guard.1 ≠ column) ∧
      ∀ guard ∈ capability.numericBounds, guard.1 = column → WithinBounds guard.2 (add v one) := by
  have finite : ∀ other n, KeyedMap.find other m.after = some (.number n) → n.isFinite = true := by
    obtain ⟨digest, _, done⟩ := digested.afterDigest
    exact fun other n found => digest_finite done (List.mem_cons_of_mem _ (List.mem_singleton.mpr rfl)) found
  have kept : ∀ other, other ≠ column → ∀ proposed, KeyedMap.find other (buildPatch capability args) = some proposed →
      KeyedMap.find other m.after = some proposed := by
    intro other apart proposed inPatch
    rw [advanced.others other apart, inPatch]
    rfl
  constructor
  · rintro ⟨bounded, allowed⟩
    constructor
    · intro guard declared same
      obtain ⟨_, proposed, _, _, text, _⟩ := allowed guard declared _ (same ▸ advanced.after)
      cases text
    · intro guard declared same
      obtain ⟨n, number, within⟩ := bounded guard declared _ (same ▸ advanced.after)
      cases number
      exact within
  · rintro ⟨unguarded, within⟩
    constructor
    · rintro ⟨guarded, bounds⟩ declared value found
      by_cases same : guarded = column
      · subst same
        cases advanced.after.symm.trans found
        exact ⟨add v one, rfl, within _ declared rfl⟩
      · exact (guard_passed passed accepted (fun _ => buildPatch_held) finite (kept guarded same) found).1 bounds declared
    · rintro ⟨guarded, guard⟩ declared value found
      rw [read]
      exact (guard_passed passed accepted (fun _ => buildPatch_held) finite
        (kept guarded (unguarded _ declared)) found).2 guard declared

theorem ItemMember.inserted (accepted : Accepted capability) {item : Row} {m : Member}
    (built : ItemMember platform capability (buildItemPatch capability item args) m) :
    Inserted capability (buildItemPatch capability item args) m := by
  refine ⟨?_, built.fixed⟩
  intro column value inPatch
  refine built.keeps column value inPatch ?_
  intro forced
  exact accepted.unscoped column forced (mem_buildItemPatch inPatch)

theorem guarded_of_after_nil {m : Member} (gone : m.after = []) : Guarded capability m := by
  constructor <;> simp [gone, KeyedMap.find]

theorem ItemMember.guarded (accepted : Accepted capability) {item : Row} {m : Member}
    (built : ItemMember platform capability (buildItemPatch capability item args) m)
    (passed : enforcePatchGuards capability [] (buildItemPatch capability item args) = .ok ()) : Guarded capability m := by
  have finite : ∀ other n, KeyedMap.find other m.after = some (.number n) → n.isFinite = true := by
    obtain ⟨digest, _, done⟩ := built.afterDigest
    exact fun other n found => digest_finite done (List.mem_cons_of_mem _ (List.mem_singleton.mpr rfl)) found
  have kept := (built.inserted accepted).patched
  constructor
  · rintro ⟨column, bounds⟩ declared value found
    exact (guard_passed passed accepted (fun _ => buildItemPatch_held) finite (kept column) found).1 bounds declared
  · rintro ⟨column, guard⟩ declared value found
    rw [built.before]
    exact (guard_passed passed accepted (fun _ => buildItemPatch_held) finite (kept column) found).2 guard declared

theorem ItemMember.verified {item : Row} {m : Member} (kind : capability.operation.kind = .insert)
    (built : ItemMember platform capability (buildItemPatch capability item args) m) :
    VerifiedMember platform capability.operation.kind m := by
  rw [kind]
  exact ⟨.inl ⟨rfl, built.beforeDigest⟩, .inr ⟨OperationKind.noConfusion, built.afterDigest⟩,
    .inl ⟨OperationKind.noConfusion, built.tombstoneDigest⟩⟩

theorem RowMember.verified {patch : Record} {row : Row} {m : Member} (kind : capability.operation.kind ≠ .insert)
    (built : RowMember platform capability patch row m)
    (image : if capability.operation.kind = .delete then DeletedMember platform m
      else UpdatedMember platform capability patch m) : VerifiedMember platform capability.operation.kind m := by
  by_cases deleted : capability.operation.kind = .delete
  · rw [if_pos deleted] at image
    exact ⟨.inr ⟨kind, built.beforeDigest⟩, .inl ⟨deleted, image.afterDigest⟩, .inr ⟨deleted, image.tombstoneDigest⟩⟩
  · rw [if_neg deleted] at image
    exact ⟨.inr ⟨kind, built.beforeDigest⟩, .inr ⟨deleted, image.afterDigest⟩, .inl ⟨deleted, image.tombstoneDigest⟩⟩

theorem Frozen.verified {patch : Record} {raw : List Member} (frozen : Frozen platform capability call patch raw result)
    (members : ∀ m ∈ raw, VerifiedMember platform capability.operation.kind m) :
      Verified platform capability call result := by
  refine ⟨fun m member => members m (frozen.mem_members.mp member), frozen.setDigest, frozen.proposalHash, ?_⟩
  obtain ⟨principalScope, granted, core⟩ := frozen.core
  exact ⟨principalScope, patch, granted, core⟩

theorem Frozen.length {patch : Record} {raw : List Member} (frozen : Frozen platform capability call patch raw result) :
    result.frozenSet.members.length = raw.length := by
  rw [frozen.members]
  exact (List.mergeSort_perm raw _).length_eq

/-! ### When a set is exact -/

/-- A batch is exact. -/
theorem items_exact (accepted : Accepted capability) (kind : capability.operation.kind = .insert)
    (returned : callConfiguredTool platform capability call args rows batchItems = .ok result) :
    Exact platform capability call args rows batchItems result := by
  obtain ⟨counted, passed, principalScope, raw, granted, built, frozen⟩ := items_frozen kind returned
  obtain ⟨count, each⟩ := batchMembers_ok built
  rw [List.length_map] at count
  have item : ∀ m ∈ raw, ∃ item ∈ batchItems, ItemMember platform capability (buildItemPatch capability item args) m := by
    intro m member
    obtain ⟨p, listed, i, made⟩ := each m member
    obtain ⟨item, inItems, rfl⟩ := List.mem_map.mp listed
    exact ⟨item, inItems, buildBatchMember_ok granted made⟩
  obtain ⟨bounds, summed⟩ := frozen.sums accepted
  refine ⟨frozen.identities, ?_, ?_, fun rows => absurd kind rows, ?_, ?_, bounds, summed, ?_⟩
  · intro others _
    refine ⟨result, ?_, rfl⟩
    have sources : sourceOf capability args others batchItems = sourceOf capability args rows batchItems := by
      rw [sourceOf, sourceOf, if_pos kind, if_pos kind]
    rw [callConfiguredTool_ok (if_pos kind), sources]
    exact (callConfiguredTool_ok (if_pos kind)).mp returned
  · rw [frozen.length, count]
    exact ⟨counted.1, counted.2, frozen.rowCount.trans (frozen.length.trans count)⟩
  · intro m member
    obtain ⟨i, listed, is⟩ := item m (frozen.mem_members.mp member)
    exact .inserted kind is.before i listed (is.inserted accepted)
  · intro m member
    obtain ⟨i, listed, is⟩ := item m (frozen.mem_members.mp member)
    exact is.guarded accepted (passed i listed)
  · refine frozen.verified ?_
    intro m member
    obtain ⟨i, _, is⟩ := item m member
    exact is.verified kind

/-- The rows of a set come back in any order with the same set. -/
theorem rows_ordered (kind : capability.operation.kind ≠ .insert) (sound : Sound platform capability rows)
    (returned : callConfiguredTool platform capability call args rows batchItems = .ok result) {others : List Row}
    (perm : others.Perm rows) :
    callConfiguredTool platform capability call args others batchItems = .ok result := by
  obtain ⟨counted, passed, principalScope, raw, granted, built, frozen⟩ := (rows_frozen kind).mp returned
  obtain ⟨other, builtToo, permuted⟩ := List.perm_comp_forall₂ perm built
  refine (rows_frozen kind).mpr ⟨?_, fun row listed => passed row (perm.mem_iff.mp listed), principalScope, other,
    granted, builtToo, ?_⟩
  · rw [perm.length_eq]
    exact counted
  · refine frozen.again (mergeSort_eq_of_perm permuted.symm frozen.distinctRaw ?_).symm
    intro a inRaw b inRawToo tied
    obtain ⟨left, leftRead, leftBuilt⟩ := row_of_member built a inRaw
    obtain ⟨right, rightRead, rightBuilt⟩ := row_of_member built b inRawToo
    rw [key_of_row (buildRowMember_ok leftBuilt).1, key_of_row (buildRowMember_ok rightBuilt).1] at tied
    exact sound.untied kind left leftRead right rightRead tied

theorem befores_of_rows {patch : Record} {raw : List Member}
    (built : List.Forall₂ (fun row m => buildRowMember platform capability patch row = .ok m) rows raw) :
    raw.map Member.before = rows.map scalarRecord := by
  induction built with
  | nil => rfl
  | cons here _ ih => rw [List.map_cons, List.map_cons, ih, (buildRowMember_ok here).1.before]

/-- What holds of the set of the rows whether the rows are sound or not. -/
theorem rows_exact (accepted : Accepted capability) (kind : capability.operation.kind ≠ .insert)
    (returned : callConfiguredTool platform capability call args rows batchItems = .ok result)
    (ordered : ∀ others : List Row, others.Perm rows → ∃ again,
      callConfiguredTool platform capability call args others batchItems = .ok again ∧ again.frozenSet = result.frozenSet)
    (images : ∀ m ∈ result.frozenSet.members, Image capability args rows batchItems m)
    (guarded : ∀ m ∈ result.frozenSet.members, Guarded capability m) :
    Exact platform capability call args rows batchItems result := by
  obtain ⟨counted, _, principalScope, raw, _, built, frozen⟩ := (rows_frozen kind).mp returned
  obtain ⟨bounds, summed⟩ := frozen.sums accepted
  refine ⟨frozen.identities, ordered, ?_, fun _ => ?_, images, guarded, bounds, summed, ?_⟩
  · rw [frozen.length, ← built.length_eq]
    exact ⟨counted.1, counted.2, frozen.rowCount.trans (frozen.length.trans built.length_eq.symm)⟩
  · rw [← befores_of_rows built, frozen.members]
    exact (List.mergeSort_perm raw _).map Member.before
  · refine frozen.verified ?_
    intro m member
    obtain ⟨row, _, made⟩ := row_of_member built m member
    exact (buildRowMember_ok made).1.verified kind (buildRowMember_ok made).2

/-- A member of a set of rows that are updated. -/
theorem update_of_member (kind : capability.operation.kind = .update)
    (returned : callConfiguredTool platform capability call args rows batchItems = .ok result) {m : Member}
    (member : m ∈ result.frozenSet.members) : ∃ row ∈ rows,
      RowMember platform capability (buildPatch capability args) row m ∧
        UpdatedMember platform capability (buildPatch capability args) m ∧
          enforcePatchGuards capability (scalarRecord row) (buildPatch capability args) = .ok () := by
  have patched : rowPatch capability args = buildPatch capability args :=
    if_neg (by rw [kind]; exact OperationKind.noConfusion)
  obtain ⟨_, passed, _, raw, _, built, frozen⟩ := (rows_frozen (by rw [kind]; exact OperationKind.noConfusion)).mp returned
  rw [patched] at passed built
  obtain ⟨row, listed, made⟩ := row_of_member built m (frozen.mem_members.mp member)
  obtain ⟨read, image⟩ := buildRowMember_ok made
  rw [if_neg (by rw [kind]; exact OperationKind.noConfusion)] at image
  exact ⟨row, listed, read, image, passed row listed⟩

/-- The member of a row that is updated. -/
theorem member_of_update (kind : capability.operation.kind ≠ .insert)
    (returned : callConfiguredTool platform capability call args rows batchItems = .ok result) {row : Row}
      (listed : row ∈ rows) :
    ∃ m ∈ result.frozenSet.members, RowMember platform capability (rowPatch capability args) row m := by
  obtain ⟨_, _, _, raw, _, built, frozen⟩ := (rows_frozen kind).mp returned
  obtain ⟨m, member, made⟩ := member_of_row built row listed
  exact ⟨m, frozen.mem_members.mpr member, (buildRowMember_ok made).1⟩

theorem sound_exact (accepted : Accepted capability)
    (returned : callConfiguredTool platform capability call args rows batchItems = .ok result)
    (sound : Sound platform capability rows) : Exact platform capability call args rows batchItems result := by
  by_cases inserting : capability.operation.kind = .insert
  · exact items_exact accepted inserting returned
  · refine rows_exact accepted inserting returned
      (fun others perm => ⟨result, rows_ordered inserting sound returned perm, rfl⟩) ?_ ?_
    · intro m member
      cases kind : capability.operation.kind with
      | insert => exact absurd kind inserting
      | update =>
        obtain ⟨row, listed, read, image, _⟩ := update_of_member kind returned member
        obtain ⟨column, v, advanced⟩ := image.advanced accepted read
        have before := advanced.before
        rw [read.before] at before
        refine .updated kind (read.before ▸ List.mem_map_of_mem listed) (advanced.updated_iff.mpr ?_)
        exact sound.grows kind _ advanced.advance row listed v before
      | delete =>
        obtain ⟨_, _, _, raw, _, built, frozen⟩ := (rows_frozen inserting).mp returned
        obtain ⟨row, listed, made⟩ := row_of_member built m (frozen.mem_members.mp member)
        obtain ⟨read, image⟩ := buildRowMember_ok made
        rw [if_pos kind] at image
        exact .deleted kind (read.before ▸ List.mem_map_of_mem listed) image.after
    · intro m member
      cases kind : capability.operation.kind with
      | insert => exact absurd kind inserting
      | update =>
        obtain ⟨row, listed, read, image, passed⟩ := update_of_member kind returned member
        obtain ⟨column, v, advanced⟩ := image.advanced accepted read
        have before := advanced.before
        rw [read.before] at before
        refine (advanced.guarded_iff accepted read.before image passed).mpr ⟨?_, ?_⟩
        · exact fun guard declared => sound.unguarded kind _ advanced.advance guard declared
        · exact fun guard declared same => sound.bounded kind _ advanced.advance guard declared same row listed v before
      | delete =>
        obtain ⟨_, _, _, raw, _, built, frozen⟩ := (rows_frozen inserting).mp returned
        obtain ⟨row, listed, made⟩ := row_of_member built m (frozen.mem_members.mp member)
        obtain ⟨read, image⟩ := buildRowMember_ok made
        rw [if_pos kind] at image
        exact guarded_of_after_nil image.after

theorem exact_untied (kind : capability.operation.kind ≠ .insert)
    (returned : callConfiguredTool platform capability call args rows batchItems = .ok result)
    (exact' : Exact platform capability call args rows batchItems result) :
    ∀ left ∈ rows, ∀ right ∈ rows, ¬ Tied platform (keyText capability left) (keyText capability right) := by
  intro left leftRead right rightRead tied
  obtain ⟨_, _, _, raw, _, built, frozen⟩ := (rows_frozen kind).mp returned
  obtain ⟨again, returnedAgain, same⟩ := exact'.ordered rows.reverse rows.reverse_perm
  obtain ⟨_, _, _, other, _, builtToo, frozenToo⟩ := (rows_frozen kind).mp returnedAgain
  have reversed : other = raw.reverse := by
    refine List.right_unique_forall₂' ?_ builtToo (List.rel_reverse built)
    intro row a b first second
    exact Except.ok.inj (first.symm.trans second)
  obtain ⟨a, inRaw, leftBuilt⟩ := member_of_row built left leftRead
  obtain ⟨b, inRawToo, rightBuilt⟩ := member_of_row built right rightRead
  rw [← key_of_row (buildRowMember_ok leftBuilt).1, ← key_of_row (buildRowMember_ok rightBuilt).1] at tied
  refine mergeSort_reverse_ne (List.Nodup.of_map Member.key frozen.distinctRaw) inRaw inRawToo tied ?_
  rw [← frozen.members, ← reversed, ← frozenToo.members, same]

theorem exact_sound (accepted : Accepted capability)
    (returned : callConfiguredTool platform capability call args rows batchItems = .ok result)
    (exact' : Exact platform capability call args rows batchItems result) : Sound platform capability rows := by
  have update : capability.operation.kind = .update → ∀ m ∈ result.frozenSet.members, ∃ column v,
      Advanced capability (buildPatch capability args) m column v ∧ Grows v ∧
        (∀ guard ∈ capability.transitionGuards, guard.1 ≠ column) ∧
          ∀ guard ∈ capability.numericBounds, guard.1 = column → WithinBounds guard.2 (add v one) := by
    intro kind m member
    obtain ⟨row, listed, read, image, passed⟩ := update_of_member kind returned member
    obtain ⟨column, v, advanced⟩ := image.advanced accepted read
    refine ⟨column, v, advanced, ?_, (advanced.guarded_iff accepted read.before image passed).mp (exact'.guarded m member)⟩
    refine advanced.updated_iff.mp ?_
    cases exact'.images m member with
    | updated _ _ is => exact is
    | deleted other => exact absurd (kind.symm.trans other) OperationKind.noConfusion
    | inserted other => exact absurd (kind.symm.trans other) OperationKind.noConfusion
  have versions : (kind : capability.operation.kind = .update) → ∀ advance ∈ capability.operation.versionAdvance,
    ∀ row ∈ rows,
      ∃ v, KeyedMap.find advance.column (scalarRecord row) = some (.number v) ∧ Grows v ∧
        (∀ guard ∈ capability.transitionGuards, guard.1 ≠ advance.column) ∧
          ∀ guard ∈ capability.numericBounds, guard.1 = advance.column → WithinBounds guard.2 (add v one) := by
    intro kind advance declared row listed
    obtain ⟨m, member, read⟩ := member_of_update (by rw [kind]; exact OperationKind.noConfusion) returned listed
    obtain ⟨column, v, advanced, grows, unguarded, within⟩ := update kind m member
    have same := Option.some.inj (advanced.advance.symm.trans (Option.mem_def.mp declared))
    subst same
    have before := advanced.before
    rw [read.before] at before
    exact ⟨v, before, grows, unguarded, within⟩
  refine ⟨fun kind => exact_untied kind returned exact', ?_, ?_, ?_⟩
  · intro kind advance declared row listed version found
    obtain ⟨v, is, grows, _⟩ := versions kind advance declared row listed
    cases is.symm.trans found
    exact grows
  · intro kind advance declared guard guards
    have some' : rows ≠ [] := by
      rintro rfl
      obtain ⟨⟨positive, _⟩, _⟩ := (rows_frozen (by rw [kind]; exact OperationKind.noConfusion)).mp returned
      exact absurd positive (by simp)
    obtain ⟨row, listed⟩ := List.exists_mem_of_ne_nil rows some'
    obtain ⟨v, _, _, unguarded, _⟩ := versions kind advance declared row listed
    exact unguarded guard guards
  · intro kind advance declared guard guards same row listed version found
    obtain ⟨v, is, _, _, within⟩ := versions kind advance declared row listed
    cases is.symm.trans found
    exact within guard guards same

/-- A platform that compares texts by their units. -/
def unitPlatform : Platform where
  digest text := text
  localeCompare a b := if a ≤ b then if b ≤ a then .eq else .lt else .gt
  total a b := by
    rcases le_total a b with first | second
    · left
      rw [if_pos first]
      split <;> exact Ordering.noConfusion
    · right
      rw [if_pos second]
      split <;> exact Ordering.noConfusion
  trans a b c first second := by
    have le : ∀ x y : Text, (if x ≤ y then if y ≤ x then Ordering.eq else .lt else .gt) ≠ .gt → x ≤ y := by
      intro x y compared
      by_contra above
      rw [if_neg above] at compared
      exact compared rfl
    rw [if_pos ((le a b first).trans (le b c second))]
    split <;> exact Ordering.noConfusion

/-- Tickets whose status is set. -/
def closeTickets : Capability where
  name := ascii "support.close_tickets"
  contractProvenance := none
  target := ⟨ascii "public", ascii "tickets", ascii "id", some (ascii "tenant_id"), none⟩
  patch := [(ascii "status", .fixed (.string (ascii "closed")))]
  allowedColumns := some [ascii "status"]
  numericBounds := []
  transitionGuards := []
  conflictGuard := some ⟨some (ascii "version"), false⟩
  reversible := false
  operation := ⟨.update, 10, [⟨ascii "version", .before, toNumber (2 ^ 60)⟩], some ⟨ascii "version", .integerIncrement⟩, []⟩
  approval := some ⟨some (ascii "operator"), none, none⟩

def ticketCall : CallContext where
  contextConfig := none
  context := ⟨ascii "acme", ascii "user-1", .staticDev⟩
  shadow := false
  postgres := true
  sourceName := ascii "main"
  proposalId := ascii "wrp_1"
  createdAt := ascii "2026-01-01T00:00:00.000Z"
  evidenceBundleId := ascii "ev_1"
  queryFingerprint := ascii "q"
  objectId := ascii "set_1"
  freshness := none

def ticketRow (version : Number) : Row :=
  [(ascii "id", .string (ascii "t")), (ascii "status", .string (ascii "open")), (ascii "version", .number version)]

set_option maxRecDepth 8000 in
theorem closeTickets_accepted : Accepted closeTickets := by
  refine ⟨?_, ?_, fun deleting => absurd deleting OperationKind.noConfusion, by simp [closeTickets], by simp [closeTickets],
    by simp [closeTickets]⟩
  · intro bound declared
    rw [List.mem_singleton.mp declared]
    with_unfolding_all decide
  · rintro advance ⟨⟩ guard ⟨⟩
    rfl

theorem closeTickets_returns (version : Number)
    (evaluated : (callConfiguredTool unitPlatform closeTickets ticketCall [] [ticketRow version] []).isOk = true) :
    ∃ result, callConfiguredTool unitPlatform closeTickets ticketCall [] [ticketRow version] [] = .ok result := by
  cases is : callConfiguredTool unitPlatform closeTickets ticketCall [] [ticketRow version] [] with
  | error thrown =>
    rw [is] at evaluated
    cases evaluated
  | ok result => exact ⟨result, rfl⟩

theorem version_of_ticket {advance : VersionAdvance} (declared : advance ∈ closeTickets.operation.versionAdvance)
    (version : Number) : KeyedMap.find advance.column (scalarRecord (ticketRow version)) = some (.number version) := by
  obtain ⟨⟩ := declared
  simp [ticketRow, scalarRecord, KeyedMap.find, scalar, show ascii "id" ≠ ascii "version" by decide,
    show ascii "status" ≠ ascii "version" by decide]

/-- A change set is exact when no two keys tie and every version grows. -/
theorem boundedSet_exact_iff (platform : Platform) (capability : Capability) (call : CallContext) (args : Row)
    (rows batchItems : List Row) (result : ChangeSet) (accepted : Accepted capability)
    (returned : callConfiguredTool platform capability call args rows batchItems = .ok result) :
    Exact platform capability call args rows batchItems result ↔ Sound platform capability rows :=
  ⟨exact_sound accepted returned, sound_exact accepted returned⟩

set_option maxRecDepth 8000 in
theorem closedTicket_exact : ∃ result,
    callConfiguredTool unitPlatform closeTickets ticketCall [] [ticketRow one] [] = .ok result ∧
      Exact unitPlatform closeTickets ticketCall [] [ticketRow one] [] result := by
  obtain ⟨result, returned⟩ := closeTickets_returns one (by with_unfolding_all decide)
  refine ⟨result, returned, ?_⟩
  refine (boundedSet_exact_iff unitPlatform closeTickets ticketCall [] [ticketRow one] [] result closeTickets_accepted
    returned).mpr ⟨?_, ?_, fun _ _ _ guard none => absurd none (by simp [closeTickets]),
      fun _ _ _ guard none => absurd none (by simp [closeTickets])⟩
  · rintro _ left first right second ⟨apart, _⟩
    rw [List.mem_singleton.mp first, List.mem_singleton.mp second] at apart
    exact apart rfl
  · intro _ advance declared row listed version found
    rw [List.mem_singleton.mp listed, version_of_ticket declared] at found
    cases found
    exact (lt_add_one_iff (by with_unfolding_all decide)).mp (by with_unfolding_all decide)

set_option maxRecDepth 8000 in
/-- A version of `2 ^ 53` does not grow. -/
theorem lost_increment : ¬ ∀ (platform : Platform) (capability : Capability) (call : CallContext) (args : Row)
    (rows batchItems : List Row) (result : ChangeSet), Accepted capability →
      callConfiguredTool platform capability call args rows batchItems = .ok result →
        Exact platform capability call args rows batchItems result := by
  intro claim
  obtain ⟨result, returned⟩ := closeTickets_returns (toNumber (2 ^ 53)) (by with_unfolding_all decide)
  have sound := exact_sound closeTickets_accepted returned
    (claim unitPlatform closeTickets ticketCall [] [ticketRow (toNumber (2 ^ 53))] [] result closeTickets_accepted returned)
  have grows := sound.grows rfl _ rfl _ (List.mem_singleton.mpr rfl) (toNumber (2 ^ 53)) (version_of_ticket rfl _)
  rw [← lt_add_one_iff (by with_unfolding_all decide)] at grows
  revert grows
  with_unfolding_all decide

end SynapsorRunner.BoundedSets
