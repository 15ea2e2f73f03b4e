import SynapsorRunner.CanonicalJson
import SynapsorRunner.PrivacyReleases

/-!
The privacy releases of aggregate plans. A plan without grouping releases a scalar total
of each of its measures, one with grouping that withholds a group releases a suppressed
grouping. `enforcePrivacyComplementRelease` claims the fingerprints of the filters of a
plan, and for a scalar total also those of its predicates and of its parents: no
predicates, and the predicates less one. So a ledger never admits a total beside a
suppressed grouping of the same filters, nor two totals of a parent and its child
(`complements_excluded`). Totals that are further apart, or one filter in two spellings,
it does admit (`related_releases_admitted`).
-/
namespace SynapsorRunner.ComplementReleases
open SynapsorRunner.NumberText SynapsorRunner.JsonText SynapsorRunner.CanonicalJson SynapsorRunner.Proposals
open SynapsorRunner.Privacy SynapsorRunner.Runs

/-! ### Plans -/

inductive Operator where
  | eq
  | neq
  | lt
  | lte
  | gt
  | gte
  | among
  deriving DecidableEq

def Operator.text : Operator → Text
  | eq => ascii "eq"
  | neq => ascii "neq"
  | lt => ascii "lt"
  | lte => ascii "lte"
  | gt => ascii "gt"
  | gte => ascii "gte"
  | among => ascii "in"

inductive FilterValue where
  | one (value : Json)
  | many (values : List Json)

structure ExploreFilter where
  field : Text
  op : Operator
  value : FilterValue
  relationship : Option Text

inductive AggregateMeasureFunction where
  | count
  | countDistinct
  | sum
  | avg
  | stddevSamp
  | stddevPop
  | varSamp
  | varPop
  | nullCount
  | nonNullCount
  | completionRate
  deriving DecidableEq

def AggregateMeasureFunction.text : AggregateMeasureFunction → Text
  | count => ascii "count"
  | countDistinct => ascii "count_distinct"
  | sum => ascii "sum"
  | avg => ascii "avg"
  | stddevSamp => ascii "stddev_samp"
  | stddevPop => ascii "stddev_pop"
  | varSamp => ascii "var_samp"
  | varPop => ascii "var_pop"
  | nullCount => ascii "null_count"
  | nonNullCount => ascii "non_null_count"
  | completionRate => ascii "completion_rate"

/-- `DISPERSION_MEASURE_FUNCTIONS`. -/
def AggregateMeasureFunction.dispersion : AggregateMeasureFunction → Bool
  | stddevSamp | stddevPop | varSamp | varPop => true
  | _ => false

inductive AggregateMeasure where
  | base (function : AggregateMeasureFunction) (field relationship : Option Text)
  | derived (name : Text)
  deriving DecidableEq

inductive AggregateDimension where
  | field (field : Text) (relationship : Option Text)
  | numericBand (name : Text)
  | autoBand (field : Text) (buckets : ℕ) (method : Text)

structure TimeBucket where
  field : Text
  bucket : Text
  relationship : Option Text

structure CanonicalTimeWindow where
  field : Text
  relationship : Option Text
  start : Text
  stop : Text

structure Comparison where
  field : Text
  relationship : Option Text
  ranges : List (Text × Text)

/-- `AggregateExplorePlan`, of which the order and the number of groups are left out. -/
structure AggregateExplorePlan where
  resource : Text
  relationship : Option Text
  measures : List AggregateMeasure
  dimensions : List AggregateDimension
  timeBucket : Option TimeBucket
  timeWindow : Option CanonicalTimeWindow
  filters : List ExploreFilter
  comparison : Option Comparison

/-- `effectiveMinimumCohortSize`. -/
def effectiveMinimumCohortSize (plan : AggregateExplorePlan) (minimum : ℕ) : ℕ :=
  let measureFloor := if plan.measures.any fun
    | .derived _ => true
    | .base function _ _ => function.dispersion then 5 else 1
  let autoBandFloor := if plan.dimensions.any fun
    | .autoBand .. => true
    | _ => false then 5 else 1
  max minimum (max measureFloor autoBandFloor)

def AggregateExplorePlan.hasGrouping (plan : AggregateExplorePlan) : Bool :=
  decide (0 < plan.dimensions.length) || plan.timeBucket.isSome || plan.comparison.isSome

/-- What a plan releases, when its response has withheld some groups. -/
def AggregateExplorePlan.releaseKind (plan : AggregateExplorePlan) (suppressed : ℕ) : Option ReleaseKind :=
  if plan.hasGrouping then if 0 < suppressed then some .suppressedGrouping else none else some .scalarTotal

/-! ### Fingerprints -/

/-- The keyed hash and the digest, and the order of texts that `localeCompare` gives. -/
structure Codes where
  hmac : Text → Text
  digest : Text → Fingerprint
  collates : Text → Text → Bool
  total : ∀ a b, collates a b = true ∨ collates b a = true
  trans : ∀ a b c, collates a b = true → collates b c = true → collates a c = true

section
variable (codes : Codes)

def canonicalJsonDigest (value : Json) : Except String Fingerprint := (canonicalJsonStringify value).map codes.digest

/-- `canonicalRecordOrder`: by the texts of the records. -/
def canonicalRecordOrder (records : List Json) : List Json :=
  records.insertionSort fun a b => codes.collates a.text b.text = true

def orNull : Option Text → Json
  | some text => .string text
  | none => .null

/-- A value hashed, and the hashes of several sorted. -/
def hashedValue : FilterValue → Json
  | .one value => .string (codes.hmac value.text)
  | .many values => .array (((values.map fun value => codes.hmac value.text).insertionSort (· ≤ ·)).map .string)

/-- The record of a filter for `privacyComplementFingerprints`. -/
def filterRecord (filter : ExploreFilter) : Json :=
  .object [(ascii "field", .string filter.field), (ascii "operator", .string filter.op.text),
    (ascii "relationship", orNull filter.relationship), (ascii "value", hashedValue codes filter.value)]

def measureRecord : AggregateMeasure → Json
  | .derived name => .object [(ascii "derived_measure", .string name)]
  | .base function field relationship =>
    .object [(ascii "function", .string function.text), (ascii "field", orNull field),
      (ascii "relationship", orNull relationship)]

/-- The digests of the measures of a plan over one cohort, once and in order. -/
def measureFingerprints (plan : AggregateExplorePlan) (cohort : Json) : Except String (List Fingerprint) := do
  let fingerprints ← plan.measures.mapM fun measure =>
    canonicalJsonDigest codes (.object [(ascii "cohort", cohort), (ascii "measure", measureRecord measure)])
  pure (sortedColumns fingerprints)

/-- The cohort of a plan by its filters. -/
def filterCohort (plan : AggregateExplorePlan) : Json :=
  .object [(ascii "version", .string (ascii "synapsor.explore-privacy-complement.v1")),
    (ascii "resource", .string plan.resource), (ascii "relationship", orNull plan.relationship),
    (ascii "filters", .array (canonicalRecordOrder codes (plan.filters.map (filterRecord codes))))]

def privacyComplementFingerprints (plan : AggregateExplorePlan) : Except String (List Fingerprint) :=
  measureFingerprints codes plan (filterCohort codes plan)

/-- A predicate of a scalar total: a filter, or the time window. -/
inductive Predicate where
  | filter (filter : ExploreFilter)
  | timeWindow (window : CanonicalTimeWindow)

def AggregateExplorePlan.predicates (plan : AggregateExplorePlan) : List Predicate :=
  plan.filters.map .filter ++ plan.timeWindow.toList.map .timeWindow

def predicateRecord : Predicate → Json
  | .filter filter =>
    .object [(ascii "kind", .string (ascii "filter")), (ascii "field", .string filter.field),
      (ascii "operator", .string filter.op.text), (ascii "relationship", orNull filter.relationship),
      (ascii "value", hashedValue codes filter.value)]
  | .timeWindow window =>
    .object [(ascii "kind", .string (ascii "time_window")), (ascii "field", .string window.field),
      (ascii "relationship", orNull window.relationship),
      (ascii "start", .string (codes.hmac (Json.string window.start).text)),
      (ascii "end", .string (codes.hmac (Json.string window.stop).text))]

def scalarPrivacyPredicates (plan : AggregateExplorePlan) : List Json :=
  canonicalRecordOrder codes (plan.predicates.map (predicateRecord codes))

/-- The cohort of a plan by some predicates. -/
def predicateCohort (plan : AggregateExplorePlan) (predicates : List Json) : Json :=
  .object [(ascii "version", .string (ascii "synapsor.explore-scalar-filter-complement.v1")),
    (ascii "resource", .string plan.resource), (ascii "relationship", orNull plan.relationship),
    (ascii "predicates", .array predicates)]

def scalarPrivacyPredicateFingerprints (plan : AggregateExplorePlan) (predicates : List Json) :
    Except String (List Fingerprint) :=
  measureFingerprints codes plan (predicateCohort plan predicates)

/-- No predicates, and the predicates less each of them. -/
def parentPredicateSets (predicates : List Json) : List (List Json) :=
  if predicates.length = 0 then [] else [] :: (List.range predicates.length).map fun index => predicates.eraseIdx index

def scalarFilterPrivacyReleaseClaims (plan : AggregateExplorePlan) : Except String (List ReleaseClaim) := do
  let predicates := scalarPrivacyPredicates codes plan
  let exactFingerprints ← scalarPrivacyPredicateFingerprints codes plan predicates
  let parents ← (parentPredicateSets predicates).mapM (scalarPrivacyPredicateFingerprints codes plan)
  let parentFingerprints := sortedColumns parents.flatten
  pure (⟨exactFingerprints, .scalarTotal, some .scalarFilterComplement⟩ ::
    if 0 < parentFingerprints.length then [⟨parentFingerprints, .suppressedGrouping, some .scalarFilterComplement⟩]
    else [])

/-! ### Releases -/

structure Boundary where
  digest : String
  minimumCohortSize : Text → Option ℕ

structure RefusalDetails where
  reason : String
  resource : Text
  minimumCohortSize : ℕ
  attemptedReleaseKind : ReleaseKind
  conflictingReleaseKind : ReleaseKind
  predicateRelationship : Option String
  sourceQueryExecuted : Bool
  sourceRowsReturnedToCaller : Bool
  resultReturnedToCaller : Bool

structure ScopedExploreError where
  code : String
  message : Text
  details : Option RefusalDetails

def resourceFor (boundary : Boundary) (id : Text) : Except ScopedExploreError ℕ :=
  match boundary.minimumCohortSize id with
  | some minimum => .ok minimum
  | none => .error ⟨"EXPLORE_RESOURCE_FORBIDDEN", ascii "Resource " ++ id ++ ascii " is not activated.", none⟩

def unverifiedRelease : ScopedExploreError :=
  ⟨"EXPLORE_PRIVACY_BUDGET_EXHAUSTED",
    ascii "Runner could not verify the reviewed aggregate privacy release, so no result was returned.", none⟩

/-- The error of a refused release. -/
def refusedRelease (plan : AggregateExplorePlan) (minimum : ℕ) (attempted conflicting : ReleaseKind)
    (reason : Option ConflictReason) : ScopedExploreError :=
  match reason with
  | some .scalarFilterComplement =>
    ⟨"EXPLORE_PRIVACY_BUDGET_EXHAUSTED",
      ascii ("An earlier scalar aggregate was released for a related reviewed filter set. Runner blocked this scalar " ++
        "result because subtracting the two totals could reconstruct a cohort below the reviewed minimum."),
      some ⟨"complementary_scalar_filter_release", plan.resource, minimum, attempted, .scalarTotal, some "parent_or_child",
        true, false, false⟩⟩
  | none =>
    let earlierRelease := match conflicting with
      | .suppressedGrouping => "An earlier grouped result for this table withheld at least one small cohort."
      | .scalarTotal => "An earlier scalar total was released for this table."
    let reconstructionRisk := match attempted with
      | .scalarTotal => "Runner blocked this complementary total because releasing both results could reconstruct " ++
          "the withheld count."
      | .suppressedGrouping => "Runner blocked this grouped result because suppressing a small cohort after releasing " ++
          "the total could make that cohort reconstructable by subtraction."
    ⟨"EXPLORE_PRIVACY_BUDGET_EXHAUSTED", ascii (earlierRelease ++ " " ++ reconstructionRisk),
      some ⟨"complementary_aggregate_release", plan.resource, minimum, attempted, conflicting, none, true, false,
        false⟩⟩

/-- A plan with its response. -/
structure ExploreRelease where
  plan : AggregateExplorePlan
  suppressed : ℕ
  queryFingerprint : String

def releaseInput (boundary : Boundary) (release : ExploreRelease) (kind : ReleaseKind) : Except String ReleaseInput := do
  let additionalReleases ← match kind with
    | .scalarTotal => scalarFilterPrivacyReleaseClaims codes release.plan
    | .suppressedGrouping => pure []
  let complementFingerprints ← privacyComplementFingerprints codes release.plan
  pure { complementFingerprints, releaseKind := kind, queryFingerprint := release.queryFingerprint
         boundaryDigest := boundary.digest, additionalReleases }

/-- The release that a plan has to claim: none for a minimum cohort of one, or for groups
    of which none is withheld. -/
def claimedKind (boundary : Boundary) (release : ExploreRelease) : Except ScopedExploreError (Option ReleaseKind) := do
  let minimum ← resourceFor boundary release.plan.resource
  if effectiveMinimumCohortSize release.plan minimum ≤ 1 then pure none
  else pure (release.plan.releaseKind release.suppressed)

/-- `enforcePrivacyComplementRelease`, over a ledger that answers claims. -/
def enforcePrivacyComplementRelease {σ : Type} (boundary : Boundary) (release : ExploreRelease) (ledger : σ)
    (claim : ReleaseInput → Except StoreError (ReleaseDecision × σ)) : Except ScopedExploreError σ := do
  let minimum ← resourceFor boundary release.plan.resource
  match ← claimedKind boundary release with
  | none => pure ledger
  | some kind =>
    match releaseInput codes boundary release kind with
    | .error _ => .error unverifiedRelease
    | .ok input => match claim input with
      | .error _ => .error unverifiedRelease
      | .ok (.allowed, ledger') => pure ledger'
      | .ok (.refused conflicting reason _, _) => .error (refusedRelease release.plan minimum kind conflicting reason)

end

/-! ### One list in any order -/

/-- Lists with the same members in any order, up to a relation. -/
def Respelled {α : Type} (same : α → α → Prop) (l m : List α) : Prop :=
  ∃ l', l.Perm l' ∧ List.Forall₂ same l' m

theorem Respelled.map {α β : Type} {same : α → α → Prop} {f : α → β} (equal : ∀ a b, same a b → f a = f b)
    {l m : List α}
    (respelled : Respelled same l m) : (l.map f).Perm (m.map f) := by
  obtain ⟨l', perm, each⟩ := respelled
  have images : l'.map f = m.map f := by
    induction each generalizing l with
    | nil => rfl
    | cons here _ ih => rw [List.map_cons, List.map_cons, equal _ _ here, ih (List.Perm.refl _)]
  exact images ▸ perm.map f

theorem Respelled.length {α : Type} {same : α → α → Prop} {l m : List α} (respelled : Respelled same l m) :
    l.length = m.length := by
  obtain ⟨l', perm, each⟩ := respelled
  exact perm.length_eq.trans each.length_eq

section
variable (codes : Codes)

/-- Different records have texts that the order tells apart. -/
def ToldApart (records : List Json) : Prop :=
  ∀ a ∈ records, ∀ b ∈ records, codes.collates a.text b.text = true → codes.collates b.text a.text = true → a = b

variable {codes}

theorem pairwise_canonicalRecordOrder (records : List Json) :
    (canonicalRecordOrder codes records).Pairwise fun a b => codes.collates a.text b.text = true := by
  have total : Std.Total fun a b : Json => codes.collates a.text b.text = true := ⟨fun a b => codes.total a.text b.text⟩
  have trans : IsTrans Json fun a b => codes.collates a.text b.text = true :=
    ⟨fun a b c => codes.trans a.text b.text c.text⟩
  exact List.pairwise_insertionSort _ records

theorem canonicalRecordOrder_perm (records : List Json) : (canonicalRecordOrder codes records).Perm records :=
  List.perm_insertionSort _ records

/-- Sorted records are those of the order when they have the same members. -/
theorem eq_canonicalRecordOrder {records sorted : List Json} (apart : ToldApart codes records)
    (ordered : sorted.Pairwise fun a b => codes.collates a.text b.text = true) (perm : sorted.Perm records) :
    sorted = canonicalRecordOrder codes records := by
  refine List.Perm.eq_of_pairwise (fun a b left right => ?_) ordered (pairwise_canonicalRecordOrder records)
    (perm.trans (canonicalRecordOrder_perm records).symm)
  exact apart a (perm.subset left) b ((canonicalRecordOrder_perm records).subset right)

theorem ToldApart.mono {records fewer : List Json} (apart : ToldApart codes records) (subset : fewer ⊆ records) :
    ToldApart codes fewer := fun a left b right => apart a (subset left) b (subset right)

theorem canonicalRecordOrder_congr {records records' : List Json} (apart : ToldApart codes records)
    (perm : records.Perm records') : canonicalRecordOrder codes records = canonicalRecordOrder codes records' :=
  eq_canonicalRecordOrder (apart.mono perm.symm.subset) (pairwise_canonicalRecordOrder records)
    ((canonicalRecordOrder_perm records).trans perm)

/-- The sorted records less one of them. -/
theorem canonicalRecordOrder_erase {records fewer : List Json} {record : Json} (apart : ToldApart codes records)
    (perm : records.Perm (record :: fewer)) :
    ∃ index < (canonicalRecordOrder codes records).length,
      (canonicalRecordOrder codes records).eraseIdx index = canonicalRecordOrder codes fewer := by
  have member : record ∈ canonicalRecordOrder codes records :=
    (canonicalRecordOrder_perm records).symm.subset (perm.symm.subset (List.mem_cons_self ..))
  obtain ⟨index, small, here⟩ := List.getElem_of_mem member
  refine ⟨index, small, eq_canonicalRecordOrder (apart.mono ?_) ?_ ?_⟩
  · intro a inside
    exact perm.symm.subset (List.mem_cons_of_mem _ inside)
  · exact (pairwise_canonicalRecordOrder records).sublist (List.eraseIdx_sublist ..)
  · have split : (canonicalRecordOrder codes records).Perm
        (record :: (canonicalRecordOrder codes records).eraseIdx index) := by
      rw [← here]
      exact (List.getElem_cons_eraseIdx_perm small).symm
    exact (List.perm_cons record).mp (split.symm.trans ((canonicalRecordOrder_perm records).trans perm))

/-! ### Plans that complement each other -/

/-- A value with the members of a list in any order. -/
def SameValue : FilterValue → FilterValue → Prop
  | .one a, .one b => a = b
  | .many as, .many bs => as.Perm bs
  | _, _ => False

structure SameFilter (a b : ExploreFilter) : Prop where
  field : a.field = b.field
  op : a.op = b.op
  value : SameValue a.value b.value
  relationship : a.relationship = b.relationship

def SamePredicate : Predicate → Predicate → Prop
  | .filter a, .filter b => SameFilter a b
  | .timeWindow a, .timeWindow b => a = b
  | _, _ => False

/-- Plans with a measure of one resource in common. -/
structure SharedMeasure (p q : AggregateExplorePlan) : Prop where
  resource : p.resource = q.resource
  relationship : p.relationship = q.relationship
  measure : ∃ measure ∈ p.measures, measure ∈ q.measures

/-- A total and a grouping of a measure, over the same filters in any order. -/
structure TotalAndGrouping (codes : Codes) (p q : AggregateExplorePlan) : Prop extends SharedMeasure p q where
  filters : Respelled SameFilter p.filters q.filters
  apart : ToldApart codes (p.filters.map (filterRecord codes))

/-- Totals of a measure of which the second is over no predicates, or over those of the
    first but for one, in any order. -/
structure ChildAndParent (codes : Codes) (p q : AggregateExplorePlan) : Prop extends SharedMeasure p q where
  fewer : (q.predicates = [] ∧ p.predicates ≠ []) ∨
    ∃ predicate, Respelled SamePredicate p.predicates (predicate :: q.predicates)
  apart : ToldApart codes (p.predicates.map (predicateRecord codes))

/-- A released plan with its kind. -/
structure Released where
  plan : AggregateExplorePlan
  kind : ReleaseKind

/-- Releases that may not both be admitted. -/
def Complement (codes : Codes) (a b : Released) : Prop :=
  (a.kind = .scalarTotal ∧ b.kind = .suppressedGrouping ∧ TotalAndGrouping codes a.plan b.plan) ∨
    (a.kind = .scalarTotal ∧ b.kind = .scalarTotal ∧ ChildAndParent codes a.plan b.plan)

/-! ### Fingerprints of complements -/

theorem hashedValue_congr {a b : FilterValue} (same : SameValue a b) : hashedValue codes a = hashedValue codes b := by
  cases a with
  | one a =>
    cases b with
    | one b => rw [show a = b from same]
    | many bs => cases same
  | many as =>
    cases b with
    | one b => cases same
    | many bs =>
      have perm : as.Perm bs := same
      have sorted : (as.map fun value => codes.hmac value.text).insertionSort (· ≤ ·) =
          (bs.map fun value => codes.hmac value.text).insertionSort (· ≤ ·) :=
        List.Perm.eq_of_pairwise (fun _ _ _ _ => le_antisymm) (List.pairwise_insertionSort _ _)
          (List.pairwise_insertionSort _ _)
          ((List.perm_insertionSort _ _).trans ((perm.map _).trans (List.perm_insertionSort _ _).symm))
      simp only [hashedValue, sorted]

theorem filterRecord_congr (a b : ExploreFilter) (same : SameFilter a b) :
    filterRecord codes a = filterRecord codes b := by
  simp only [filterRecord, same.field, same.op, same.relationship, hashedValue_congr same.value]

theorem predicateRecord_congr (a b : Predicate) (same : SamePredicate a b) :
    predicateRecord codes a = predicateRecord codes b := by
  cases a with
  | filter a =>
    cases b with
    | filter b =>
      have same : SameFilter a b := same
      simp only [predicateRecord, same.field, same.op, same.relationship, hashedValue_congr same.value]
    | timeWindow b => cases same
  | timeWindow a =>
    cases b with
    | filter b => cases same
    | timeWindow b => rw [show a = b from same]

theorem mem_of_mapM_ok {ε α β : Type} {f : α → Except ε β} {l : List α} {r : List β} (run : l.mapM f = .ok r)
    {a : α} (member : a ∈ l) : ∃ b, f a = .ok b ∧ b ∈ r := by
  induction l generalizing r with
  | nil => cases member
  | cons first rest ih =>
    rw [List.mapM_cons] at run
    obtain ⟨b, here, run⟩ := bind_eq_ok run
    obtain ⟨bs, later, run⟩ := bind_eq_ok run
    cases run
    rcases List.mem_cons.mp member with rfl | inside
    · exact ⟨b, here, List.mem_cons_self ..⟩
    · obtain ⟨c, found, listed⟩ := ih later inside
      exact ⟨c, found, List.mem_cons_of_mem _ listed⟩

/-- Plans with a measure in common have a fingerprint in common over one cohort. -/
theorem shared_measureFingerprint {p q : AggregateExplorePlan} (shared : SharedMeasure p q) {cohort : Json}
    {ps qs : List Fingerprint} (first : measureFingerprints codes p cohort = .ok ps)
    (second : measureFingerprints codes q cohort = .ok qs) : ∃ fingerprint ∈ ps, fingerprint ∈ qs := by
  obtain ⟨measure, left, right⟩ := shared.measure
  obtain ⟨ls, firsts, sorted⟩ := bind_eq_ok first
  cases sorted
  obtain ⟨ms, seconds, sorted⟩ := bind_eq_ok second
  cases sorted
  obtain ⟨a, here, listed⟩ := mem_of_mapM_ok firsts left
  obtain ⟨b, there, listed'⟩ := mem_of_mapM_ok seconds right
  rw [here] at there
  cases there
  exact ⟨a, mem_sortedColumns.mpr listed, mem_sortedColumns.mpr listed'⟩

theorem complement_fingerprint {p q : AggregateExplorePlan} (complement : TotalAndGrouping codes p q)
    {ps qs : List Fingerprint}
    (first : privacyComplementFingerprints codes p = .ok ps) (second : privacyComplementFingerprints codes q = .ok qs) :
    ∃ fingerprint ∈ ps, fingerprint ∈ qs := by
  have filters := canonicalRecordOrder_congr complement.apart (complement.filters.map filterRecord_congr)
  unfold privacyComplementFingerprints filterCohort at first second
  rw [← complement.resource, ← complement.relationship, ← filters] at second
  exact shared_measureFingerprint complement.toSharedMeasure first second

theorem scalar_fingerprint {p q : AggregateExplorePlan} (shared : SharedMeasure p q) {predicates : List Json}
    {ps qs : List Fingerprint} (first : scalarPrivacyPredicateFingerprints codes p predicates = .ok ps)
    (second : scalarPrivacyPredicateFingerprints codes q predicates = .ok qs) :
    ∃ fingerprint ∈ ps, fingerprint ∈ qs := by
  unfold scalarPrivacyPredicateFingerprints predicateCohort at first second
  rw [← shared.resource, ← shared.relationship] at second
  exact shared_measureFingerprint shared first second

/-- The predicates of a parent are one of the parent sets of its child. -/
theorem mem_parentPredicateSets {p q : AggregateExplorePlan} (complement : ChildAndParent codes p q) :
    scalarPrivacyPredicates codes q ∈ parentPredicateSets (scalarPrivacyPredicates codes p) := by
  have length : (scalarPrivacyPredicates codes p).length = p.predicates.length :=
    (canonicalRecordOrder_perm _).length_eq.trans (List.length_map _)
  unfold parentPredicateSets
  rcases complement.fewer with ⟨none, some⟩ | ⟨predicate, respelled⟩
  · rw [if_neg (by rw [length]; simpa using some)]
    have empty : scalarPrivacyPredicates codes q = [] := by
      rw [scalarPrivacyPredicates, none]
      rfl
    rw [empty]
    exact List.mem_cons_self ..
  · have perm := respelled.map (@predicateRecord_congr codes)
    rw [List.map_cons] at perm
    obtain ⟨index, small, erased⟩ := canonicalRecordOrder_erase complement.apart perm
    rw [if_neg (by rw [length, respelled.length]; simp)]
    refine List.mem_cons_of_mem _ (List.mem_map.mpr ⟨index, List.mem_range.mpr small, erased⟩)

/-! ### What a plan claims -/

/-- A released plan with the input of its claim. -/
def Built (codes : Codes) (released : Released) (input : ReleaseInput) : Prop :=
  ∃ boundary release, release.plan = released.plan ∧ releaseInput codes boundary release released.kind = .ok input

theorem releaseInput_ok {boundary : Boundary} {release : ExploreRelease} {kind : ReleaseKind} {input : ReleaseInput}
    (run : releaseInput codes boundary release kind = .ok input) : ∃ additionalReleases complementFingerprints,
      (kind = .scalarTotal ∧ scalarFilterPrivacyReleaseClaims codes release.plan = .ok additionalReleases ∨
        kind = .suppressedGrouping ∧ additionalReleases = []) ∧
      privacyComplementFingerprints codes release.plan = .ok complementFingerprints ∧
      input = { complementFingerprints, releaseKind := kind, queryFingerprint := release.queryFingerprint
                boundaryDigest := boundary.digest, additionalReleases } := by
  cases kind with
  | suppressedGrouping =>
    obtain ⟨_, additional, run⟩ := bind_eq_ok run
    cases additional
    obtain ⟨fingerprints, own, run⟩ := bind_eq_ok run
    cases run
    exact ⟨[], fingerprints, .inr ⟨rfl, rfl⟩, own, rfl⟩
  | scalarTotal =>
    obtain ⟨additional, claims, run⟩ := bind_eq_ok run
    obtain ⟨fingerprints, own, run⟩ := bind_eq_ok run
    cases run
    exact ⟨additional, fingerprints, .inl ⟨rfl, claims⟩, own, rfl⟩

theorem Built.complement {released : Released} {input : ReleaseInput} (built : Built codes released input) :
    ∃ fingerprints, privacyComplementFingerprints codes released.plan = .ok fingerprints ∧
      ∀ fingerprint ∈ fingerprints, Asks input.claims fingerprint released.kind := by
  obtain ⟨boundary, release, same, run⟩ := built
  obtain ⟨_, fingerprints, _, own, rfl⟩ := releaseInput_ok run
  rw [same] at own
  exact ⟨fingerprints, own, fun fingerprint member => ⟨_, List.mem_cons_self .., rfl, member⟩⟩

/-- A total claims the fingerprints of its predicates as a total, and those of its parents
    as a grouping. -/
theorem Built.scalar {plan : AggregateExplorePlan} {input : ReleaseInput}
    (built : Built codes ⟨plan, .scalarTotal⟩ input) :
    (∃ fingerprints,
      scalarPrivacyPredicateFingerprints codes plan (scalarPrivacyPredicates codes plan) = .ok fingerprints ∧
        ∀ fingerprint ∈ fingerprints, Asks input.claims fingerprint .scalarTotal) ∧
    ∀ parent ∈ parentPredicateSets (scalarPrivacyPredicates codes plan), ∃ fingerprints,
      scalarPrivacyPredicateFingerprints codes plan parent = .ok fingerprints ∧
        ∀ fingerprint ∈ fingerprints, Asks input.claims fingerprint .suppressedGrouping := by
  obtain ⟨boundary, release, same, run⟩ := built
  obtain ⟨additional, _, ⟨_, claims⟩ | ⟨grouping, _⟩, _, rfl⟩ := releaseInput_ok run
  swap
  · cases grouping
  rw [show release.plan = plan from same] at claims
  obtain ⟨exactFingerprints, exact', claims⟩ := bind_eq_ok claims
  obtain ⟨parents, sets, claims⟩ := bind_eq_ok claims
  cases claims
  refine ⟨⟨exactFingerprints, exact', fun fingerprint member => ?_⟩, fun parent member => ?_⟩
  · exact ⟨_, List.mem_cons_of_mem _ (List.mem_cons_self ..), rfl, member⟩
  · obtain ⟨fingerprints, own, listed⟩ := mem_of_mapM_ok sets member
    refine ⟨fingerprints, own, fun fingerprint inside => ?_⟩
    have all : fingerprint ∈ sortedColumns parents.flatten :=
      mem_sortedColumns.mpr (List.mem_flatten.mpr ⟨fingerprints, listed, inside⟩)
    rw [if_pos (List.length_pos_of_mem all)]
    exact ⟨_, List.mem_cons_of_mem _ (List.mem_cons_of_mem _ (List.mem_singleton.mpr rfl)), rfl, all⟩

/-- The claims of complements oppose each other. -/
theorem complement_opposes {a b : Released} (complement : Complement codes a b) {first second : ReleaseInput}
    (builtA : Built codes a first) (builtB : Built codes b second) :
    ∃ fingerprint kind, Asks first.claims fingerprint kind ∧ Asks second.claims fingerprint kind.opposite := by
  obtain ⟨p, kindA⟩ := a
  obtain ⟨q, kindB⟩ := b
  rcases complement with ⟨scalar, grouping, plans⟩ | ⟨scalar, scalar', plans⟩
  · cases scalar
    cases grouping
    obtain ⟨ps, left, asksA⟩ := builtA.complement
    obtain ⟨qs, right, asksB⟩ := builtB.complement
    obtain ⟨fingerprint, inA, inB⟩ := complement_fingerprint plans left right
    exact ⟨fingerprint, .scalarTotal, asksA fingerprint inA, asksB fingerprint inB⟩
  · cases scalar
    cases scalar'
    obtain ⟨ps, left, asksA⟩ := builtA.scalar.2 _ (mem_parentPredicateSets plans)
    obtain ⟨qs, right, asksB⟩ := builtB.scalar.1
    obtain ⟨fingerprint, inA, inB⟩ := scalar_fingerprint plans.toSharedMeasure left right
    exact ⟨fingerprint, .suppressedGrouping, asksA fingerprint inA, asksB fingerprint inB⟩

theorem opposite_opposite (kind : ReleaseKind) : kind.opposite.opposite = kind := by
  cases kind <;> rfl

/-- In either order. -/
theorem opposes_of_complement {a b : Released} (complement : Complement codes a b ∨ Complement codes b a)
    {first second : ReleaseInput} (builtA : Built codes a first) (builtB : Built codes b second) :
    ∃ fingerprint kind, Asks first.claims fingerprint kind ∧ Asks second.claims fingerprint kind.opposite := by
  rcases complement with ahead | behind
  · exact complement_opposes ahead builtA builtB
  · obtain ⟨fingerprint, kind, asksB, asksA⟩ := complement_opposes behind builtB builtA
    exact ⟨fingerprint, kind.opposite, asksA, (opposite_opposite kind).symm ▸ asksB⟩

/-- What a release that is not refused has claimed. -/
theorem enforce_ok {σ : Type} {boundary : Boundary} {release : ExploreRelease} {ledger ledger' : σ}
    {claim : ReleaseInput → Except StoreError (ReleaseDecision × σ)}
    (enforced : enforcePrivacyComplementRelease codes boundary release ledger claim = .ok ledger') :
    (claimedKind boundary release = .ok none ∧ ledger' = ledger) ∨
      ∃ kind input, claimedKind boundary release = .ok (some kind) ∧ Built codes ⟨release.plan, kind⟩ input ∧
        claim input = .ok (.allowed, ledger') := by
  obtain ⟨minimum, _, enforced⟩ := bind_eq_ok enforced
  obtain ⟨claimed, kind, enforced⟩ := bind_eq_ok enforced
  cases claimed with
  | none =>
    cases enforced
    exact .inl ⟨kind, rfl⟩
  | some claimed =>
    right
    dsimp only at enforced
    cases run : releaseInput codes boundary release claimed with
    | error e => simp [run] at enforced
    | ok input =>
      cases answer : claim input with
      | error e => simp [run, answer] at enforced
      | ok answered =>
        obtain ⟨decision, after⟩ := answered
        cases decision with
        | refused conflicting reason scope => simp [run, answer] at enforced
        | allowed =>
          simp only [run, answer] at enforced
          cases enforced
          exact ⟨claimed, input, kind, ⟨boundary, release, rfl, run⟩, answer⟩

/-- A release whose claim is admitted is not refused. -/
theorem enforce_allowed {σ : Type} {boundary : Boundary} {release : ExploreRelease} {ledger ledger' : σ}
    {claim : ReleaseInput → Except StoreError (ReleaseDecision × σ)} {kind : ReleaseKind} {input : ReleaseInput}
    (due : claimedKind boundary release = .ok (some kind)) (built : releaseInput codes boundary release kind = .ok input)
    (admitted : claim input = .ok (.allowed, ledger')) :
    enforcePrivacyComplementRelease codes boundary release ledger claim = .ok ledger' := by
  obtain ⟨minimum, found, _⟩ := bind_eq_ok due
  unfold enforcePrivacyComplementRelease
  rw [found, due]
  simp only [bind, Except.bind, built, admitted]
  rfl

end

/-- A released plan, when it had to claim its release. -/
def releasedPlan (boundary : Boundary) (release : ExploreRelease) : List Released :=
  match claimedKind boundary release with
  | .ok (some kind) => [⟨release.plan, kind⟩]
  | _ => []

/-! ### Runs over the local ledger -/

namespace Local

/-- The ledger, and the releases that were admitted under their scopes. -/
structure State where
  rows : List ReleaseRow
  released : List (String × Released)

def State.empty : State := ⟨[], []⟩

structure Call where
  now : Int
  scope : String
  boundary : Boundary
  release : ExploreRelease

/-- `mode` is not `production_http`. -/
def enforce (codes : Codes) (rows : List ReleaseRow) (call : Call) : Except ScopedExploreError (List ReleaseRow) :=
  enforcePrivacyComplementRelease codes call.boundary call.release rows fun input =>
    .ok (Sqlite.claimExplorePrivacyRelease call.now rows call.scope input)

def step (codes : Codes) (s : State) (call : Call) : State :=
  match enforce codes s.rows call with
  | .error _ => s
  | .ok rows =>
    ⟨rows, s.released ++ (releasedPlan call.boundary call.release).map fun released => (call.scope, released)⟩

/-- No two admitted releases of one scope are complements. -/
def Excluded (codes : Codes) (s : State) : Prop :=
  s.released.Pairwise fun a b => a.1 = b.1 → ¬ (Complement codes a.2 b.2 ∨ Complement codes b.2 a.2)

structure Inv (codes : Codes) (s : State) : Prop where
  held : ∀ a ∈ s.released, ∃ input, Built codes a.2 input ∧
    ∀ fingerprint kind, Asks input.claims fingerprint kind → Sqlite.Holds s.rows a.1 fingerprint kind
  excluded : Excluded codes s

theorem inv_step {codes : Codes} {s : State} (inv : Inv codes s) (call : Call) : Inv codes (step codes s call) := by
  unfold step
  cases enforced : enforce codes s.rows call with
  | error e => exact inv
  | ok rows =>
    rcases enforce_ok enforced with ⟨none, rfl⟩ | ⟨kind, input, claimed, built, answer⟩
    · simp only [releasedPlan, none, List.map_nil, List.append_nil]
      exact inv
    · simp only [releasedPlan, claimed, List.map_cons, List.map_nil]
      rcases Sqlite.claim_cases call.now s.rows call.scope input with ⟨_, refused, _⟩ | ⟨clear, _, stored⟩
      · exact absurd (congrArg Prod.fst (Except.ok.inj answer)) refused
      have after : (Sqlite.claimExplorePrivacyRelease call.now s.rows call.scope input).2 = rows :=
        congrArg Prod.snd (Except.ok.inj answer)
      rw [stored] at after
      have holds : ∀ scope fingerprint kind, Sqlite.Holds rows scope fingerprint kind ↔
          Sqlite.Holds s.rows scope fingerprint kind ∨ (call.scope = scope ∧ Asks input.claims fingerprint kind) := by
        intro scope fingerprint kind
        rw [← after]
        show Sqlite.Holds _ scope fingerprint kind ↔ _
        rw [Sqlite.holds_insertAll, mem_releases, asks_normalizedClaims]
      refine ⟨fun a member => ?_, List.pairwise_append.mpr ⟨inv.excluded, List.pairwise_singleton _ _, ?_⟩⟩
      · rcases List.mem_append.mp member with old | new
        · obtain ⟨before, builtA, kept⟩ := inv.held a old
          exact ⟨before, builtA, fun fingerprint kind asked => (holds _ _ _).mpr (.inl (kept fingerprint kind asked))⟩
        · rw [List.mem_singleton.mp new]
          exact ⟨input, built, fun fingerprint kind asked => (holds _ _ _).mpr (.inr ⟨rfl, asked⟩)⟩
      · intro a old b new scope complement
        rw [List.mem_singleton.mp new] at scope complement
        obtain ⟨before, builtA, kept⟩ := inv.held a old
        obtain ⟨fingerprint, asked, first, second⟩ := opposes_of_complement complement builtA built
        obtain ⟨row, member, scope', same, kind'⟩ := kept fingerprint asked first
        refine clear ⟨row, member, scope'.trans scope, ?_⟩
        rw [same, kind']
        exact second

theorem excluded_run (codes : Codes) (calls : List Call) : Excluded codes (run (step codes) .empty calls) := by
  have start : Inv codes .empty := by
    refine ⟨?_, List.Pairwise.nil⟩
    intro a none
    cases none
  exact (invariant (Inv codes) (fun s call inv => inv_step inv call) start calls).excluded

end Local

/-! ### Runs over the production ledger -/

namespace Production
open SynapsorRunner.Privacy.Postgres

structure Admitted where
  time : Int
  scopes : List (ScopeKind × String)
  released : Released

/-- The ledger, the time of the last transaction, and the releases that were admitted. -/
structure State where
  ledger : Ledger
  clock : Int
  released : List Admitted

def State.empty (since : Int) : State := ⟨.empty, since, []⟩

inductive Event where
  | release (now : Int) (principal tenant : String) (boundary : Boundary) (release : ExploreRelease)
  | maintenance (now : Int)

def Event.now : Event → Int
  | release now .. => now
  | maintenance now => now

def inScopes (input : ReleaseInput) (principal tenant : String) : ProductionInput :=
  { toReleaseInput := input, principalScopeFingerprint := principal, tenantScopeFingerprint := tenant }

/-- `mode` is `production_http`. -/
def enforce (codes : Codes) (now : Int) (ledger : Ledger) (principal tenant : String) (boundary : Boundary)
    (release : ExploreRelease) : Except ScopedExploreError Ledger :=
  enforcePrivacyComplementRelease codes boundary release ledger fun input =>
    claimProductionExplorePrivacyRelease now ledger (inScopes input principal tenant)

def step (codes : Codes) (s : State) : Event → State
  | .release now principal tenant boundary release =>
    match enforce codes now s.ledger principal tenant boundary release with
    | .error _ => { s with clock := now }
    | .ok ledger => ⟨ledger, now, s.released ++ (releasedPlan boundary release).map fun released =>
        ⟨now, [(.principal, principal), (.tenant, tenant)], released⟩⟩
  | .maintenance now => { s with ledger := maintained now s.ledger, clock := now }

theorem clock_step (codes : Codes) (s : State) (e : Event) : (step codes s e).clock = e.now := by
  cases e with
  | maintenance now => rfl
  | release now principal tenant boundary release =>
    dsimp only [step]
    cases enforce codes now s.ledger principal tenant boundary release with
    | error e => rfl
    | ok ledger => rfl

/-- The transactions take their times in the order in which they run. -/
def ClockForward (s : State) (e : Event) : Prop := s.clock ≤ e.now

/-- No two releases admitted within a day under a common scope are complements. -/
def Excluded (codes : Codes) (s : State) : Prop :=
  s.released.Pairwise fun a b => (∃ scope ∈ a.scopes, scope ∈ b.scopes) → ¬ far a.time b.time →
    ¬ (Complement codes a.released b.released ∨ Complement codes b.released a.released)

/-- What the releases of a run have asked for is the history of the ledger. -/
structure Inv (codes : Codes) (s : State) (history : List (Release (ScopeKind × String))) : Prop where
  remembered : Remembered ⟨s.ledger, history, s.clock⟩
  asked : ∀ a ∈ s.released, ∃ input, Built codes a.released input ∧ ∀ scope ∈ a.scopes, ∀ fingerprint kind,
    Asks input.claims fingerprint kind → ⟨scope, fingerprint, kind, a.time⟩ ∈ history
  excluded : Excluded codes s

theorem remembered_later {ledger : Ledger} {history : List (Release (ScopeKind × String))} {clock now : Int}
    (remembered : Remembered ⟨ledger, history, clock⟩) (later : clock ≤ now) :
    Remembered ⟨ledger, history, now⟩ := by
  refine ⟨fun a member => Int.le_trans (remembered.past a member) later, fun a member => ?_⟩
  rcases remembered.stored a member with stored | aged
  · exact .inl stored
  · have aged : a.time < clock - day := aged
    exact .inr (show a.time < now - day by omega)

theorem inv_later {codes : Codes} {s : State} {history : List (Release (ScopeKind × String))} {now : Int}
    (inv : Inv codes s history) (later : s.clock ≤ now) : Inv codes { s with clock := now } history :=
  ⟨remembered_later inv.remembered later, inv.asked, inv.excluded⟩

/-- An admitted claim has no complement among the releases of the last day. -/
theorem unopposed {codes : Codes} {s : State} {history : List (Release (ScopeKind × String))}
    (inv : Inv codes s history)
    {now : Int} (later : s.clock ≤ now) (input : ProductionInput) {released : Released}
    (built : Built codes released input.toReleaseInput) (clear : ¬ Postgres.Opposed now s.ledger input) {a : Admitted}
    (member : a ∈ s.released) {scope : ScopeKind × String} (left : scope ∈ a.scopes) (right : scope ∈ input.scopes)
    (near : ¬ far a.time now) : ¬ (Complement codes a.released released ∨ Complement codes released a.released) := by
  intro complement
  obtain ⟨before, builtA, asked⟩ := inv.asked a member
  obtain ⟨fingerprint, kind, asksA, asksB⟩ := opposes_of_complement complement builtA built
  have remembered := inv.remembered.stored _ (asked scope left fingerprint kind asksA)
  have recent : now - day ≤ a.time := by
    unfold far at near
    omega
  rcases remembered with ⟨entry, found, time⟩ | aged
  · refine clear ⟨scope, right, fingerprint, kind.opposite, asksB, entry, ?_, Int.le_trans recent time⟩
    rw [opposite_opposite]
    exact found
  · have aged : a.time < s.clock - day := aged
    omega

theorem inv_step {codes : Codes} {s : State} {history : List (Release (ScopeKind × String))}
    (inv : Inv codes s history)
    {e : Event} (forward : ClockForward s e) : ∃ history', Inv codes (step codes s e) history' := by
  have later : s.clock ≤ e.now := forward
  cases e with
  | maintenance now =>
    exact ⟨history, Postgres.remembered_step (e := .maintenance now) inv.remembered later, inv.asked, inv.excluded⟩
  | release now principal tenant boundary release =>
    dsimp only [step]
    cases enforced : enforce codes now s.ledger principal tenant boundary release with
    | error e => exact ⟨history, inv_later inv later⟩
    | ok ledger =>
      rcases enforce_ok enforced with ⟨none, rfl⟩ | ⟨kind, input, claimed, built, answer⟩
      · simp only [releasedPlan, none, List.map_nil, List.append_nil]
        exact ⟨history, inv_later inv later⟩
      · simp only [releasedPlan, claimed, List.map_cons, List.map_nil]
        rcases Postgres.claim_cases answer with ⟨_, refused, _⟩ | ⟨clear, _, _⟩
        · exact absurd rfl refused
        have stepped : Postgres.step ⟨s.ledger, history, s.clock⟩ (.claim now (inScopes input principal tenant)) =
            ⟨ledger, history ++ admittedReleases [(.principal, principal), (.tenant, tenant)] now input, now⟩ :=
          congrArg (answered ⟨s.ledger, history, s.clock⟩ now (inScopes input principal tenant)) answer
        have remembered := Postgres.remembered_step (e := .claim now (inScopes input principal tenant)) inv.remembered later
        refine ⟨_, stepped ▸ remembered, fun a member => ?_,
          List.pairwise_append.mpr ⟨inv.excluded, List.pairwise_singleton _ _, ?_⟩⟩
        · rcases List.mem_append.mp member with old | new
          · obtain ⟨before, builtA, asked⟩ := inv.asked a old
            exact ⟨before, builtA, fun scope inside fingerprint kind asks =>
              List.mem_append_left _ (asked scope inside fingerprint kind asks)⟩
          · rw [List.mem_singleton.mp new]
            exact ⟨input, built, fun scope inside fingerprint kind asks =>
              List.mem_append_right _ (mem_admittedReleases.mpr ⟨inside, asks, rfl⟩)⟩
        · rintro a old b new ⟨scope, left, right⟩ near
          rw [List.mem_singleton.mp new] at right near ⊢
          exact unopposed inv later (inScopes input principal tenant) built clear old left right near

theorem excluded_run (codes : Codes) (since : Int) {events : List Event}
    (forward : Throughout (step codes) ClockForward (.empty since) events) :
    Excluded codes (run (step codes) (.empty since) events) := by
  have start : Inv codes (.empty since) [] := by
    refine ⟨⟨?_, ?_⟩, ?_, List.Pairwise.nil⟩
    · intro a none
      cases none
    · intro a none
      cases none
    · intro a none
      cases none
  obtain ⟨_, inv⟩ := invariant_of_throughout (fun s => ∃ history, Inv codes s history)
    (fun s e inv forward => inv_step inv.choose_spec forward) forward ⟨[], start⟩
  exact inv.excluded

end Production

/-! ### Exclusion -/

/-- The local ledger never admits complements under one scope, and the production ledger
    not within a day under a common scope of principals or tenants. -/
theorem complements_excluded (codes : Codes) (calls : List Local.Call) (since : Int)
    (events : List Production.Event) :
    Local.Excluded codes (run (Local.step codes) .empty calls) ∧
      (Throughout (Production.step codes) Production.ClockForward (.empty since) events →
        Production.Excluded codes (run (Production.step codes) (.empty since) events)) :=
  ⟨Local.excluded_run codes calls, fun forward => Production.excluded_run codes since forward⟩

/-! ### What a plan does not claim -/

section
variable (codes : Codes)

/-- The texts under the fingerprints of a plan over one cohort. -/
def cohortTexts (plan : AggregateExplorePlan) (cohort : Json) : List Text :=
  plan.measures.filterMap fun measure =>
    (canonicalJsonStringify (.object [(ascii "cohort", cohort), (ascii "measure", measureRecord measure)])).toOption

/-- The texts under what a release claims, with their kinds. -/
def claimedTexts (released : Released) : List (Text × ReleaseKind) :=
  let plan := released.plan
  let predicates := scalarPrivacyPredicates codes plan
  (cohortTexts plan (filterCohort codes plan)).map (fun text => (text, released.kind)) ++ match released.kind with
    | .suppressedGrouping => []
    | .scalarTotal => (cohortTexts plan (predicateCohort plan predicates)).map (fun text => (text, .scalarTotal)) ++
        ((parentPredicateSets predicates).flatMap fun parent => cohortTexts plan (predicateCohort plan parent)).map
          fun text => (text, .suppressedGrouping)

variable {codes}

theorem of_mem_mapM_ok {ε α β : Type} {f : α → Except ε β} {l : List α} {r : List β} (run : l.mapM f = .ok r)
    {b : β} (member : b ∈ r) : ∃ a ∈ l, f a = .ok b := by
  induction l generalizing r with
  | nil =>
    cases run
    cases member
  | cons first rest ih =>
    rw [List.mapM_cons] at run
    obtain ⟨c, here, run⟩ := bind_eq_ok run
    obtain ⟨cs, later, run⟩ := bind_eq_ok run
    cases run
    rcases List.mem_cons.mp member with rfl | inside
    · exact ⟨first, List.mem_cons_self .., here⟩
    · obtain ⟨a, listed, found⟩ := ih later inside
      exact ⟨a, List.mem_cons_of_mem _ listed, found⟩

theorem text_of_fingerprint {plan : AggregateExplorePlan} {cohort : Json} {fingerprints : List Fingerprint}
    (measured : measureFingerprints codes plan cohort = .ok fingerprints) {fingerprint : Fingerprint}
    (member : fingerprint ∈ fingerprints) : ∃ text ∈ cohortTexts plan cohort, fingerprint = codes.digest text := by
  obtain ⟨all, each, sorted⟩ := bind_eq_ok measured
  cases sorted
  obtain ⟨measure, listed, digested⟩ := of_mem_mapM_ok each (mem_sortedColumns.mp member)
  unfold canonicalJsonDigest at digested
  cases canonical :
      canonicalJsonStringify (.object [(ascii "cohort", cohort), (ascii "measure", measureRecord measure)]) with
  | error e =>
    rw [canonical] at digested
    cases digested
  | ok text =>
    rw [canonical] at digested
    cases digested
    refine ⟨text, List.mem_filterMap.mpr ⟨measure, listed, ?_⟩, rfl⟩
    rw [canonical]
    rfl

theorem Built.texts {released : Released} {input : ReleaseInput} (built : Built codes released input)
    {fingerprint : Fingerprint} {kind : ReleaseKind} (asked : Asks input.claims fingerprint kind) :
    ∃ text, (text, kind) ∈ claimedTexts codes released ∧ fingerprint = codes.digest text := by
  obtain ⟨plan, releaseKind⟩ := released
  obtain ⟨boundary, release, same, run⟩ := built
  have same : release.plan = plan := same
  obtain ⟨additional, fingerprints, claims, own, rfl⟩ := releaseInput_ok run
  rw [same] at claims own
  rcases asks_cons.mp asked with ⟨rfl, member⟩ | asked
  · obtain ⟨text, listed, digested⟩ := text_of_fingerprint own member
    exact ⟨text, List.mem_append_left _ (List.mem_map.mpr ⟨text, listed, rfl⟩), digested⟩
  rcases claims with ⟨scalar, claims⟩ | ⟨_, rfl⟩
  · cases scalar
    obtain ⟨exactFingerprints, exact', claims⟩ := bind_eq_ok claims
    obtain ⟨parents, sets, claims⟩ := bind_eq_ok claims
    cases claims
    rcases asks_cons.mp asked with ⟨rfl, member⟩ | asked
    · obtain ⟨text, listed, digested⟩ := text_of_fingerprint exact' member
      exact ⟨text, List.mem_append_right _ (List.mem_append_left _ (List.mem_map.mpr ⟨text, listed, rfl⟩)), digested⟩
    · obtain ⟨claim, inside, rfl, member⟩ := asked
      split at inside
      · cases List.mem_singleton.mp inside
        obtain ⟨each, listed, here⟩ := List.mem_flatten.mp (mem_sortedColumns.mp member)
        obtain ⟨parent, set, run⟩ := of_mem_mapM_ok sets listed
        obtain ⟨text, inTexts, digested⟩ := text_of_fingerprint run here
        exact ⟨text, List.mem_append_right _ (List.mem_append_right _ (List.mem_map.mpr
          ⟨text, List.mem_flatMap.mpr ⟨parent, set, inTexts⟩, rfl⟩)), digested⟩
      · cases inside
  · obtain ⟨claim, none, _⟩ := asked
    cases none

end

theorem exists_of_isOk {ε α : Type} {x : Except ε α} (built : x.isOk = true) : ∃ a, x = .ok a := by
  cases x with
  | error e => cases built
  | ok a => exact ⟨a, rfl⟩

namespace Local

/-- A call that has to claim a release of one kind, and can. -/
structure Claims (codes : Codes) (call : Call) (kind : ReleaseKind) : Prop where
  due : claimedKind call.boundary call.release = .ok (some kind)
  built : (releaseInput codes call.boundary call.release kind).isOk = true

theorem step_unopposed {codes : Codes} {s : State} {call : Call} {kind : ReleaseKind} {input : ReleaseInput}
    (due : claimedKind call.boundary call.release = .ok (some kind))
    (built : releaseInput codes call.boundary call.release kind = .ok input)
    (clear : ¬ Sqlite.Opposed s.rows call.scope input) :
    ∃ rows, step codes s call = ⟨rows, s.released ++ [(call.scope, ⟨call.release.plan, kind⟩)]⟩ ∧
      ∀ scope fingerprint kind, Sqlite.Holds rows scope fingerprint kind ↔
        Sqlite.Holds s.rows scope fingerprint kind ∨ (call.scope = scope ∧ Asks input.claims fingerprint kind) := by
  rcases Sqlite.claim_cases call.now s.rows call.scope input with ⟨opposed, _, _⟩ | ⟨_, allowed, stored⟩
  · exact absurd opposed clear
  refine ⟨(Sqlite.claimExplorePrivacyRelease call.now s.rows call.scope input).2, ?_, fun scope fingerprint kind => ?_⟩
  · have enforced : enforce codes s.rows call =
        .ok (Sqlite.claimExplorePrivacyRelease call.now s.rows call.scope input).2 := by
      refine enforce_allowed due built (congrArg Except.ok ?_)
      generalize Sqlite.claimExplorePrivacyRelease call.now s.rows call.scope input = answer at allowed
      obtain ⟨decision, rows⟩ := answer
      cases allowed
      rfl
    rw [step, enforced]
    simp only [releasedPlan, due, List.map_cons, List.map_nil]
  · rw [stored, Sqlite.holds_insertAll, mem_releases, asks_normalizedClaims]

/-- Two calls of which neither claims against the other are both admitted, when the digest
    loses nothing. -/
theorem released_both {codes : Codes} (injective : Function.Injective codes.digest) {a b : Call}
    {kindA kindB : ReleaseKind}
    (first : Claims codes a kindA) (second : Claims codes b kindB)
    (apart : ∀ claimed ∈ claimedTexts codes ⟨a.release.plan, kindA⟩,
      (claimed.1, claimed.2.opposite) ∉ claimedTexts codes ⟨b.release.plan, kindB⟩) :
    (run (step codes) .empty [a, b]).released =
      [(a.scope, ⟨a.release.plan, kindA⟩), (b.scope, ⟨b.release.plan, kindB⟩)] := by
  obtain ⟨inputA, builtA⟩ := exists_of_isOk first.built
  obtain ⟨inputB, builtB⟩ := exists_of_isOk second.built
  obtain ⟨rows, stepped, holds⟩ := step_unopposed (s := .empty) first.due builtA (by simp [Sqlite.Opposed, State.empty])
  have clear : ¬ Sqlite.Opposed rows b.scope inputB := by
    rintro ⟨row, member, scope, asked⟩
    rcases (holds _ _ _).mp ⟨row, member, rfl, rfl, rfl⟩ with ⟨_, none, _⟩ | ⟨_, asked'⟩
    · cases none
    · have wholeA : Built codes ⟨a.release.plan, kindA⟩ inputA := ⟨a.boundary, a.release, rfl, builtA⟩
      have wholeB : Built codes ⟨b.release.plan, kindB⟩ inputB := ⟨b.boundary, b.release, rfl, builtB⟩
      obtain ⟨text, inA, digested⟩ := wholeA.texts asked'
      obtain ⟨text', inB, digested'⟩ := wholeB.texts asked
      have same : text = text' := injective (digested.symm.trans digested')
      exact apart _ inA (same ▸ inB)
  obtain ⟨rows', stepped', _⟩ := step_unopposed (s := ⟨rows, _⟩) second.due builtB clear
  rw [run_cons, stepped, run_cons, run_nil]
  exact congrArg State.released stepped'

end Local

/-! ### Plans of one row set -/

/-- What a predicate selects by: the field, the operator and the values of a filter, or a
    time window. -/
abbrev Selected := (Text × Option Text × Operator × Set Json) ⊕ CanonicalTimeWindow

/-- `eq` is `in` of one value, and every member counts once. -/
def ExploreFilter.selects (filter : ExploreFilter) : Text × Option Text × Operator × Set Json :=
  (filter.field, filter.relationship, if filter.op = .eq then .among else filter.op, match filter.value with
    | .one value => {value}
    | .many values => {value | value ∈ values})

def Predicate.selects : Predicate → Selected
  | .filter own => .inl own.selects
  | .timeWindow own => .inr own

def AggregateExplorePlan.selection (plan : AggregateExplorePlan) : Set Selected :=
  {selected | ∃ predicate ∈ plan.predicates, predicate.selects = selected}

/-- A total and a suppressed grouping of a measure over one row set, or two totals of which
    one is over some of the predicates of the other. -/
def Differencing (a b : Released) : Prop :=
  a.plan.resource = b.plan.resource ∧ (∃ measure ∈ a.plan.measures, measure ∈ b.plan.measures) ∧
    ((a.kind = .scalarTotal ∧ b.kind = .suppressedGrouping ∧ a.plan.selection = b.plan.selection) ∨
      (a.kind = .scalarTotal ∧ b.kind = .scalarTotal ∧ b.plan.selection ⊆ a.plan.selection ∧
        ¬ a.plan.selection ⊆ b.plan.selection))

def sampleFilter (field : String) (op : Operator) (value : FilterValue) : ExploreFilter :=
  ⟨ascii field, op, value, none⟩

def paid : ExploreFilter := sampleFilter "status" .eq (.one (.string (ascii "paid")))

def samplePlan (relationship : Option Text) (dimensions : List AggregateDimension) (filters : List ExploreFilter) :
    AggregateExplorePlan :=
  ⟨ascii "orders", relationship, [.base .count none none], dimensions, none, none, filters, none⟩

def total (relationship : Option Text) (filters : List ExploreFilter) : ExploreRelease :=
  ⟨samplePlan relationship [] filters, 0, "query"⟩

def grouping (filters : List ExploreFilter) : ExploreRelease :=
  ⟨samplePlan none [.field (ascii "region") none] filters, 1, "query"⟩

def among (members : List String) : ExploreFilter :=
  sampleFilter "status" .among (.many (members.map fun member => .string (ascii member)))

/-- The predicate of a plan and two more. -/
def threePredicates : List ExploreFilter :=
  [paid, sampleFilter "region" .eq (.one (.string (ascii "eu"))), sampleFilter "plan" .eq (.one (.string (ascii "pro")))]

/-- Two predicates more, then one filter in four other spellings. -/
def relatedPairs : List (ExploreRelease × ExploreRelease) :=
  [(total none threePredicates, total none [paid]),
    (total none [paid], grouping [among ["paid"]]),
    (total none [paid, paid], grouping [paid]),
    (total none [among ["paid", "paid"]], grouping [among ["paid"]]),
    (total (some (ascii "customer")) [paid], grouping [paid])]

def sampleBoundary : Boundary := ⟨sampleFingerprint 'c', fun _ => some 5⟩

/-- A hash and a digest that lose nothing. -/
def plainCodes : Codes where
  hmac text := text
  digest text := String.ofList (text.map fun unit => Char.ofNat (unit.val + 0x10000))
  collates a b := decide (a ≤ b)
  total a b := by simpa using le_total a b
  trans a b c := by simpa using le_trans

def sampleCall (release : ExploreRelease) : Local.Call := ⟨0, "scope", sampleBoundary, release⟩

theorem plainCodes_injective : Function.Injective plainCodes.hmac ∧ Function.Injective plainCodes.digest := by
  refine ⟨fun a b same => same, fun a b same => ?_⟩
  have characters := String.ofList_injective same
  refine List.map_injective_iff.mpr (fun u v same => ?_) characters
  have valid : ∀ u : CodeUnit, (u.val + 0x10000).isValidChar := by
    intro u
    right
    omega
  have units : ∀ u : CodeUnit, (Char.ofNat (u.val + 0x10000)).toNat = u.val + 0x10000 := by
    intro u
    rw [Char.ofNat, dif_pos (valid u)]
    rfl
  have numbers := congrArg Char.toNat same
  rw [units, units] at numbers
  exact Fin.ext (by omega)

/-- After a call for each of two releases, none of one scope differences another. -/
def Local.Undifferenced (codes : Codes) (a b : ExploreRelease) : Prop :=
  (run (Local.step codes) .empty [sampleCall a, sampleCall b]).released.Pairwise fun a b =>
    a.1 = b.1 → ¬ (Differencing a.2 b.2 ∨ Differencing b.2 a.2)

theorem differenced {a b : ExploreRelease} {kindA kindB : ReleaseKind}
    (first : Local.Claims plainCodes (sampleCall a) kindA) (second : Local.Claims plainCodes (sampleCall b) kindB)
    (apart : ∀ claimed ∈ claimedTexts plainCodes ⟨a.plan, kindA⟩,
      (claimed.1, claimed.2.opposite) ∉ claimedTexts plainCodes ⟨b.plan, kindB⟩)
    (differencing : Differencing ⟨a.plan, kindA⟩ ⟨b.plan, kindB⟩) : ¬ Local.Undifferenced plainCodes a b := by
  intro undifferenced
  unfold Local.Undifferenced at undifferenced
  rw [Local.released_both plainCodes_injective.2 first second apart] at undifferenced
  exact List.rel_of_pairwise_cons undifferenced (List.mem_singleton.mpr rfl) rfl (.inl differencing)

theorem mem_selection {relationship : Option Text} {dimensions : List AggregateDimension}
    {filters : List ExploreFilter}
    {selected : Selected} :
    selected ∈ (samplePlan relationship dimensions filters).selection ↔
      ∃ filter ∈ filters, .inl filter.selects = selected := by
  simp [AggregateExplorePlan.selection, AggregateExplorePlan.predicates, samplePlan, Predicate.selects]

theorem among_selects : (among ["paid"]).selects = paid.selects ∧
    (among ["paid", "paid"]).selects = paid.selects := by
  have once : {value | value ∈ ["paid"].map fun member => Json.string (ascii member)} = {.string (ascii "paid")} := by
    ext value
    simp
  have twice : {value | value ∈ ["paid", "paid"].map fun member => Json.string (ascii member)} =
      {.string (ascii "paid")} := by
    ext value
    simp
  exact ⟨congrArg (fun set => (ascii "status", none, Operator.among, set)) once,
    congrArg (fun set => (ascii "status", none, Operator.among, set)) twice⟩

/-- Releases of the sample measure over one selection. -/
theorem differencing_of_selection {relationship : Option Text} {filters grouped : List ExploreFilter}
    (same : ∀ selected : Selected, (∃ filter ∈ filters, .inl filter.selects = selected) ↔
      ∃ filter ∈ grouped, .inl filter.selects = selected) :
    Differencing ⟨(total relationship filters).plan, .scalarTotal⟩
      ⟨(grouping grouped).plan, .suppressedGrouping⟩ := by
  refine ⟨rfl, ⟨_, List.mem_cons_self .., List.mem_cons_self ..⟩, .inl ⟨rfl, rfl, ?_⟩⟩
  ext selected
  exact mem_selection.trans ((same selected).trans mem_selection.symm)

theorem differencing_narrower : Differencing ⟨(total none threePredicates).plan, .scalarTotal⟩
    ⟨(total none [paid]).plan, .scalarTotal⟩ := by
  refine ⟨rfl, ⟨_, List.mem_cons_self .., List.mem_cons_self ..⟩, .inr ⟨rfl, rfl, ?_, ?_⟩⟩
  · intro selected member
    obtain ⟨filter, listed, same⟩ := mem_selection.mp member
    exact mem_selection.mpr ⟨filter, List.mem_cons.mpr (.inl (List.mem_singleton.mp listed)), same⟩
  · intro subset
    have inside := subset (mem_selection.mpr ⟨_, List.mem_cons_of_mem _ (List.mem_cons_self ..), rfl⟩)
    obtain ⟨filter, listed, same⟩ := mem_selection.mp inside
    rw [List.mem_singleton.mp listed] at same
    have fields : ascii "status" = ascii "region" := congrArg Prod.fst (Sum.inl.inj same)
    exact absurd fields (by decide)

theorem grouped_differenced {relationship : Option Text} {filters grouped : List ExploreFilter}
    (first : (releaseInput plainCodes sampleBoundary (total relationship filters) .scalarTotal).isOk = true)
    (second : (releaseInput plainCodes sampleBoundary (grouping grouped) .suppressedGrouping).isOk = true)
    (apart : ∀ claimed ∈ claimedTexts plainCodes ⟨(total relationship filters).plan, .scalarTotal⟩,
      (claimed.1, claimed.2.opposite) ∉ claimedTexts plainCodes ⟨(grouping grouped).plan, .suppressedGrouping⟩)
    (same : ∀ selected : Selected, (∃ filter ∈ filters, .inl filter.selects = selected) ↔
      ∃ filter ∈ grouped, .inl filter.selects = selected) :
    ¬ Local.Undifferenced plainCodes (total relationship filters) (grouping grouped) :=
  differenced ⟨rfl, first⟩ ⟨rfl, second⟩ apart (differencing_of_selection same)

set_option maxRecDepth 8000 in
/-- With a hash and a digest that lose nothing, all related pairs are admitted. -/
theorem relatedPairs_admitted : ∀ pair ∈ relatedPairs, ¬ Local.Undifferenced plainCodes pair.1 pair.2 := by
  simp only [relatedPairs, List.forall_mem_cons]
  refine ⟨?_, ?_, ?_, ?_, ?_, List.forall_mem_nil _⟩
  · have total : Local.Claims plainCodes (sampleCall (total none threePredicates)) .scalarTotal :=
      ⟨rfl, by decide⟩
    exact differenced total ⟨rfl, by decide⟩ (by decide) differencing_narrower
  · exact grouped_differenced (by decide) (by decide) (by decide) (by simp [among_selects])
  · exact grouped_differenced (by with_unfolding_all decide) (by with_unfolding_all decide)
      (by with_unfolding_all decide) (by simp)
  · exact grouped_differenced (by decide) (by decide) (by decide) (by simp [among_selects])
  · exact grouped_differenced (by decide) (by decide) (by decide) (by simp)

/-! ### A day later -/

namespace Production
open SynapsorRunner.Privacy.Postgres

theorem step_unopposed {codes : Codes} {s : State} {now : Int} {principal tenant : String} {boundary : Boundary}
    {release : ExploreRelease} {kind : ReleaseKind} {input : ReleaseInput}
    (due : claimedKind boundary release = .ok (some kind)) (built : releaseInput codes boundary release kind = .ok input)
    (valid : assertProductionExplorePrivacyReleaseInput (inScopes input principal tenant) = .ok ())
    (clear : ¬ Postgres.Opposed now s.ledger (inScopes input principal tenant)) :
    ∃ ledger, step codes s (.release now principal tenant boundary release) = ⟨ledger, now, s.released ++
        [⟨now, [(.principal, principal), (.tenant, tenant)], ⟨release.plan, kind⟩⟩]⟩ ∧
      ∀ key e, ledger.get? key = some e → e.createdAt = now ∨ s.ledger.get? key = some e := by
  let claims := normalizedExplorePrivacyReleaseClaims input
  let ledger := (claimedKeys (inScopes input principal tenant).scopes claims).foldl
    (fun ledger key => ledger.set key ⟨input.queryFingerprint, input.boundaryDigest, now⟩) s.ledger
  have claimed : claimProductionExplorePrivacyRelease now s.ledger (inScopes input principal tenant) =
      .ok (.allowed, ledger) := by
    simp only [claimProductionExplorePrivacyRelease, valid, Postgres.conflict_eq_none_iff.mpr clear]
    rfl
  have enforced : enforce codes now s.ledger principal tenant boundary release = .ok ledger :=
    enforce_allowed due built claimed
  refine ⟨ledger, ?_, fun key e found => ?_⟩
  · simp only [step, enforced, releasedPlan, due, List.map_cons, List.map_nil]
  · have set : ledger.get? key = _ := get?_setAll
    rw [set] at found
    split at found
    · cases found
      exact .inl rfl
    · exact .inr found

/-- The digests of a valid form make a valid input. -/
theorem valid_of_digests {codes : Codes} (digests : ∀ text, sha256Hex (codes.digest text) = true)
    {released : Released}
    {input : ReleaseInput} (built : Built codes released input) {principal tenant : String}
    (scopes : sha256Hex principal = true ∧ sha256Hex tenant = true)
    (fields : sha256Hex input.queryFingerprint = true ∧ sha256Hex input.boundaryDigest = true)
    (few : input.additionalReleases.length ≤ 8 ∧
      ∀ claim ∈ input.claims, claim.complementFingerprints.length ≤ 64) :
    assertProductionExplorePrivacyReleaseInput (inScopes input principal tenant) = .ok () := by
  have listed : ∀ claim ∈ input.claims, (decide (claim.complementFingerprints.length ≤ 64) &&
      claim.complementFingerprints.all sha256Hex) = true := by
    intro claim member
    rw [decide_eq_true (few.2 claim member), Bool.true_and, List.all_eq_true]
    intro fingerprint inside
    obtain ⟨text, _, digested⟩ := built.texts ⟨claim, member, rfl, inside⟩
    rw [digested]
    exact digests text
  have own : (decide (input.complementFingerprints.length ≤ 64) && input.complementFingerprints.all sha256Hex) = true :=
    listed _ (List.mem_cons_self ..)
  have additional := List.all_eq_true.mpr fun claim member => listed claim (List.mem_cons_of_mem _ member)
  have claimed : input.additionalReleases.all (fun claim => decide (claim.complementFingerprints.length ≤ 64) &&
      claim.complementFingerprints.all sha256Hex) = true := additional
  refine ensure_ok_iff.mpr ?_
  dsimp only [inScopes]
  rw [scopes.1, scopes.2, fields.1, fields.2, own, claimed]
  simp only [Bool.true_and, Bool.and_true]
  exact decide_eq_true few.1

end Production

/-- A digest of valid form. -/
def numberDigest (text : Text) : Fingerprint :=
  let number := text.foldl (fun number unit => number * 65537 + unit.val + 1) 0
  "sha256:" ++ String.ofList ((List.range 64).map fun place => Nat.digitChar (number / 16 ^ place % 16))

def hashCodes : Codes := { plainCodes with digest := numberDigest }

theorem sha256Hex_numberDigest (text : Text) : Postgres.sha256Hex (hashCodes.digest text) = true := by
  refine Production.sha256Hex_of_digits (by simp) fun c member => ?_
  obtain ⟨place, _, rfl⟩ := List.mem_map.mp member
  have digits : ∀ digit < 16, Production.isHex (Nat.digitChar digit) = true := by decide
  exact digits _ (Nat.mod_lt _ (by decide))

def allOrders : ExploreRelease := { total none [] with queryFingerprint := sampleFingerprint 'b' }

def byRegion : ExploreRelease := { grouping [] with queryFingerprint := sampleFingerprint 'a' }

/-- The total at the start, and the grouping at a time. -/
def groupingAt (now : Int) : List Production.Event :=
  [.release 0 (sampleFingerprint 'd') (sampleFingerprint 'e') sampleBoundary allOrders,
    .release now (sampleFingerprint 'f') (sampleFingerprint 'e') sampleBoundary byRegion]

/-- The release of a sample has a valid input. -/
theorem sample_input (release : ExploreRelease) (kind : ReleaseKind) (digit : Char)
    (few : ((releaseInput hashCodes sampleBoundary release kind).toOption.any fun input =>
      decide (input.additionalReleases.length ≤ 8) &&
        input.claims.all fun claim => decide (claim.complementFingerprints.length ≤ 64)) = true)
    (query : Postgres.sha256Hex release.queryFingerprint = true)
    (hex : Production.isHex digit = true) :
    ∃ input, releaseInput hashCodes sampleBoundary release kind = .ok input ∧
      Postgres.assertProductionExplorePrivacyReleaseInput
        (Production.inScopes input (sampleFingerprint digit) (sampleFingerprint 'e')) = .ok () := by
  cases run : releaseInput hashCodes sampleBoundary release kind with
  | error e =>
    rw [run] at few
    cases few
  | ok input =>
    rw [run] at few
    simp only [Except.toOption, Option.any_some, Bool.and_eq_true, decide_eq_true_eq, List.all_eq_true] at few
    obtain ⟨_, _, _, _, fields⟩ := releaseInput_ok run
    have built : Built hashCodes ⟨release.plan, kind⟩ input := ⟨sampleBoundary, release, rfl, run⟩
    refine ⟨input, rfl, Production.valid_of_digests sha256Hex_numberDigest built
      ⟨Production.sha256Hex_sampleFingerprint hex, Production.sha256Hex_sampleFingerprint (by decide)⟩ ?_ few⟩
    rw [fields]
    exact ⟨query, Production.sha256Hex_sampleFingerprint (by decide)⟩

/-- The production ledger admits a total, and its grouping a day later. -/
theorem released_day_later : (run (Production.step hashCodes) (.empty 0) (groupingAt (Postgres.day + 1))).released.map
    Production.Admitted.released = [⟨allOrders.plan, .scalarTotal⟩, ⟨byRegion.plan, .suppressedGrouping⟩] := by
  have valid : ∀ digit, Production.isHex digit = true → Postgres.sha256Hex (sampleFingerprint digit) = true :=
    fun digit => Production.sha256Hex_sampleFingerprint
  obtain ⟨inputA, builtA, validA⟩ := sample_input allOrders .scalarTotal 'd' (by with_unfolding_all decide) (valid 'b' (by decide))
    (by decide)
  obtain ⟨inputB, builtB, validB⟩ := sample_input byRegion .suppressedGrouping 'f' (by with_unfolding_all decide)
    (valid 'a' (by decide)) (by decide)
  have clear : ∀ input, ¬ Postgres.Opposed 0 (Production.State.empty 0).ledger input := by
    rintro input ⟨scope, _, fingerprint, kind, _, e, found, _⟩
    rw [Production.State.empty, KeyedMap.get?_empty] at found
    cases found
  obtain ⟨ledger, stepped, entries⟩ := Production.step_unopposed rfl builtA validA (clear _)
  have old : ∀ input, ¬ Postgres.Opposed (Postgres.day + 1) ledger input := by
    rintro input ⟨scope, _, fingerprint, kind, _, e, found, recent⟩
    rcases entries _ e found with time | none
    · omega
    · rw [Production.State.empty, KeyedMap.get?_empty] at none
      cases none
  obtain ⟨_, stepped', _⟩ := Production.step_unopposed (s := ⟨ledger, 0, _⟩) rfl builtB validB (old _)
  rw [groupingAt, run_cons, stepped, run_cons, stepped', run_nil]
  rfl

/-- Related releases are admitted under one scope: totals of which one has two predicates
    more, a total and a grouping of one row set in two spellings, and a total and its
    grouping a day apart. -/
theorem related_releases_admitted :
    (Function.Injective plainCodes.hmac ∧ Function.Injective plainCodes.digest ∧
      ∀ pair ∈ relatedPairs, ¬ Local.Undifferenced plainCodes pair.1 pair.2) ∧
    ∃ a b, Differencing a b ∧ (run (Production.step hashCodes) (.empty 0) (groupingAt (Postgres.day + 1))).released.map
      Production.Admitted.released = [a, b] :=
  ⟨⟨plainCodes_injective.1, plainCodes_injective.2, relatedPairs_admitted⟩, _, _,
    differencing_of_selection fun _ => Iff.rfl, released_day_later⟩

/-- A grouping that follows its total within the day is not admitted beside it. -/
theorem grouping_soon_excluded :
    Production.Excluded hashCodes (run (Production.step hashCodes) (.empty 0) (groupingAt 1000)) := by
  have forward : Throughout (Production.step hashCodes) Production.ClockForward (.empty 0) (groupingAt 1000) := by
    refine ⟨Int.le_refl 0, ?_, trivial⟩
    show (Production.step _ _ _).clock ≤ 1000
    rw [Production.clock_step]
    decide
  exact (complements_excluded hashCodes [] 0 (groupingAt 1000)).2 forward

end SynapsorRunner.ComplementReleases
