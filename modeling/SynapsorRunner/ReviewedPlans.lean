import SynapsorRunner.ExplorePlans

/-!
What an accepted plan names: each field in it is one that the boundary reviews for its use
on the resource that it belongs to, which is the resource of the plan or the target of one
of its reviewed relationships (`validateExploreRequest_reviewed`).
-/
namespace SynapsorRunner.ReviewedPlans
open SynapsorRunner.NumberText SynapsorRunner.JsonText SynapsorRunner.Proposals SynapsorRunner.ExploreBoundaries
open SynapsorRunner.ExplorePlans
open SynapsorRunner.ComplementReleases (Operator FilterValue ExploreFilter AggregateMeasure AggregateDimension TimeBucket
  CanonicalTimeWindow Comparison mem_of_mapM_ok of_mem_mapM_ok)

section
variable (digests : Digests) (boundary : ActivatedExplorationBoundary) (root : BoundaryResource)

/-- A field on the target of an optional relationship, with what the target reviews of it. -/
def ReviewedOn (relationship : Option Text) (reviews : BoundaryResource → Prop) : Prop :=
  ∃ target, targetResource digests boundary root (given relationship) = .ok target ∧ reviews target

def FilterReviewed (filter : ExploreFilter) : Prop :=
  ReviewedOn digests boundary root filter.relationship fun target =>
    filter.op ∈ (entry target.filterableFields filter.field).getD []

def TimeReviewed (field : Text) (relationship : Option Text) : Prop :=
  ReviewedOn digests boundary root relationship fun target => (entry target.timeBucketFields field).isSome

def BucketReviewed (bucket : TimeBucket) : Prop :=
  ReviewedOn digests boundary root bucket.relationship fun target =>
    bucket.bucket ∈ (entry target.timeBucketFields bucket.field).getD []

/-- A measure by name is looked up where it is used. -/
def MeasureReviewed : AggregateMeasure → Prop
  | .base function field relationship =>
    ReviewedOn digests boundary root relationship fun target => measureAllowed target function field = true
  | .derived _ => True

/-- A band is looked up where it is used. -/
def DimensionReviewed : AggregateDimension → Prop
  | .field field relationship => ReviewedOn digests boundary root relationship fun target => field ∈ target.groupableFields
  | .numericBand _ | .autoBand .. => True

structure RowsReviewed (plan : RowExplorePlan) : Prop where
  found : resourceFor boundary plan.resource = .ok root
  select : ∀ field ∈ plan.select, field ∈ root.selectableFields
  filters : ∀ filter ∈ plan.filters, FilterReviewed digests boundary root filter
  timeWindow : ∀ window ∈ plan.timeWindow, (entry root.timeBucketFields window.field).isSome
  orderBy : ∀ order ∈ plan.orderBy, order.1 ∈ root.sortableFields

structure AggregateReviewed (plan : RankedAggregatePlan) : Prop where
  found : resourceFor boundary plan.resource = .ok root
  measures : ∀ measure ∈ plan.measures, MeasureReviewed digests boundary root measure
  dimensions : ∀ dimension ∈ plan.dimensions, DimensionReviewed digests boundary root dimension
  timeBucket : ∀ bucket ∈ plan.timeBucket, BucketReviewed digests boundary root bucket
  filters : ∀ filter ∈ plan.filters, FilterReviewed digests boundary root filter
  timeWindow : ∀ window ∈ plan.timeWindow, TimeReviewed digests boundary root window.field window.relationship
  comparison : ∀ comparison ∈ plan.comparison, TimeReviewed digests boundary root comparison.field comparison.relationship

def PlanReviewed : ExplorePlan → Prop
  | .rows plan => RowsReviewed digests boundary root plan
  | .aggregate plan => AggregateReviewed digests boundary root plan

end

/-! ### Parts of a request -/

theorem requiredString_bounded {value : Option Json} {label : String} {t : Text}
    (read : requiredString value label = .ok t) : bounded t = true := by
  unfold requiredString at read
  split at read
  · split at read
    · cases read
      assumption
    · cases read
  · cases read

theorem given_of_bounded {t : Text} (fine : bounded t = true) : given (some t) = some t := by
  cases t with
  | nil => simp [bounded] at fine
  | cons u rest => rfl

theorem optionalString_given {value : Option Json} {label : String} {name : Option Text}
    (read : optionalString value label = .ok name) : given name = name := by
  unfold optionalString at read
  cases value with
  | none =>
    cases read
    rfl
  | some value =>
    cases found : requiredString (some value) label with
    | error refusal =>
      simp only [found, Except.map] at read
      cases read
    | ok t =>
      simp only [found, Except.map] at read
      cases read
      exact given_of_bounded (requiredString_bounded found)

theorem optionally_ok {α : Type} {input : Option Json} {read : Json → Except Refusal α} {result : Option α}
    (ok : optionally input read = .ok result) {a : α} (member : a ∈ result) : ∃ value, read value = .ok a := by
  unfold optionally at ok
  cases input with
  | none =>
    cases ok
    cases member
  | some value =>
    cases found : read value with
    | error refusal =>
      simp only [found, Except.map] at ok
      cases ok
    | ok b =>
      simp only [found, Except.map] at ok
      cases ok
      cases member
      exact ⟨value, found⟩

theorem resourceFor_of_find {boundary : ActivatedExplorationBoundary} {id : Text} {resource : BoundaryResource}
    (found : boundary.resources.find? (fun candidate => candidate.id = id) = some resource) :
    resourceFor boundary resource.id = .ok resource := by
  have named : resource.id = id := by simpa using List.find?_some found
  unfold resourceFor
  rw [named, found]

section
variable {digests : Digests} {boundary : ActivatedExplorationBoundary} {root : BoundaryResource} {dates : Dates}
  {now : Int}

theorem requestedResource_found {value : Option Json} (requested : requestedResource boundary value = .ok root) :
    resourceFor boundary root.id = .ok root := by
  unfold requestedResource at requested
  obtain ⟨id, -, requested⟩ := bind_eq_ok requested
  split at requested
  · rename_i resource found
    cases requested
    exact resourceFor_of_find found
  · cases requested

theorem reviewedOn_of {relationship : Option Text} {target : BoundaryResource} {reviews : BoundaryResource → Prop}
    (named : given relationship = relationship) (found : targetResource digests boundary root relationship = .ok target)
    (holds : reviews target) : ReviewedOn digests boundary root relationship reviews :=
  ⟨target, by rw [named, found], holds⟩

theorem validateFilter_reviewed {input : Properties} {filter : ExploreFilter}
    (accepted : validateFilter digests boundary root input = .ok filter) :
    FilterReviewed digests boundary root filter := by
  unfold validateFilter at accepted
  obtain ⟨⟨⟩, -, accepted⟩ := bind_eq_ok accepted
  obtain ⟨relationship, named, accepted⟩ := bind_eq_ok accepted
  obtain ⟨target, found, accepted⟩ := bind_eq_ok accepted
  obtain ⟨field, -, accepted⟩ := bind_eq_ok accepted
  obtain ⟨⟨⟩, -, accepted⟩ := bind_eq_ok accepted
  obtain ⟨name, -, accepted⟩ := bind_eq_ok accepted
  have operator : ∀ op, (operatorNamed name).filter
      (fun op => op ∈ (entry target.filterableFields field).getD []) = some op →
      op ∈ (entry target.filterableFields field).getD [] := by
    intro op selected
    simpa using (Option.filter_eq_some_iff.mp selected).2
  split at accepted
  · cases accepted
  · rename_i selected
    split at accepted
    · obtain ⟨⟨⟩, -, accepted⟩ := bind_eq_ok accepted
      obtain ⟨⟨⟩, -, accepted⟩ := bind_eq_ok accepted
      cases accepted
      exact reviewedOn_of (optionalString_given named) found (operator _ selected)
    · cases accepted
  · rename_i op _ selected
    split at accepted
    · obtain ⟨⟨⟩, -, accepted⟩ := bind_eq_ok accepted
      cases accepted
      exact reviewedOn_of (optionalString_given named) found (operator _ selected)
    · cases accepted

theorem validateFilters_reviewed {input : Option Json} {filters : List ExploreFilter}
    (accepted : validateFilters digests boundary input root = .ok filters) :
    ∀ filter ∈ filters, FilterReviewed digests boundary root filter := by
  intro filter member
  unfold validateFilters at accepted
  cases input with
  | none =>
    cases accepted
    cases member
  | some value =>
    obtain ⟨inputs, -, accepted⟩ := bind_eq_ok accepted
    obtain ⟨input, -, taken⟩ := of_mem_mapM_ok accepted member
    exact validateFilter_reviewed taken

theorem validateTimeWindow_reviewed {input : Json} {along : Bool}
    {window : CanonicalTimeWindow × List ResolvedRelativeTimeWindow}
    (accepted : validateTimeWindow digests boundary dates now input root along = .ok window) :
    TimeReviewed digests boundary root window.1.field window.1.relationship ∧
      (along = false → window.1.relationship = none) := by
  unfold validateTimeWindow at accepted
  cases input with
  | object properties =>
    obtain ⟨relationship, named, accepted⟩ := bind_eq_ok accepted
    obtain ⟨target, found, accepted⟩ := bind_eq_ok accepted
    obtain ⟨field, -, accepted⟩ := bind_eq_ok accepted
    obtain ⟨⟨⟩, reviewed, accepted⟩ := bind_eq_ok accepted
    rw [check_ok_iff] at reviewed
    have direct : along = false → relationship = none := by
      rintro rfl
      cases named
      rfl
    have timed : ∀ w : CanonicalTimeWindow, w.field = field → w.relationship = relationship →
        TimeReviewed digests boundary root w.field w.relationship := by
      rintro w rfl rfl
      exact reviewedOn_of (optionalString_given named) found reviewed
    split at accepted
    · iterate 4 obtain ⟨_, -, accepted⟩ := bind_eq_ok accepted
      split at accepted
      · cases accepted
      · cases accepted
        exact ⟨timed _ rfl rfl, direct⟩
    · iterate 4 obtain ⟨_, -, accepted⟩ := bind_eq_ok accepted
      cases accepted
      exact ⟨timed _ rfl rfl, direct⟩
  | _ => cases accepted

theorem validateComparison_reviewed {input : Json} {comparison : Comparison × List ResolvedRelativeTimeWindow}
    (accepted : validateComparison digests boundary dates now input root = .ok comparison) :
    TimeReviewed digests boundary root comparison.1.field comparison.1.relationship := by
  unfold validateComparison at accepted
  cases input with
  | object properties =>
    obtain ⟨relationship, named, accepted⟩ := bind_eq_ok accepted
    obtain ⟨target, found, accepted⟩ := bind_eq_ok accepted
    obtain ⟨field, -, accepted⟩ := bind_eq_ok accepted
    obtain ⟨⟨⟩, reviewed, accepted⟩ := bind_eq_ok accepted
    rw [check_ok_iff] at reviewed
    have timed : ∀ c : Comparison, c.field = field → c.relationship = relationship →
        TimeReviewed digests boundary root c.field c.relationship := by
      rintro c rfl rfl
      exact reviewedOn_of (optionalString_given named) found reviewed
    split at accepted
    · iterate 6 obtain ⟨_, -, accepted⟩ := bind_eq_ok accepted
      split at accepted
      · cases accepted
      · cases accepted
        exact timed _ rfl rfl
    · iterate 4 obtain ⟨_, -, accepted⟩ := bind_eq_ok accepted
      cases accepted
      exact timed _ rfl rfl
  | _ => cases accepted

theorem validateMeasure_reviewed {input : Properties} {measure : AggregateMeasure}
    (accepted : validateMeasure digests boundary root input = .ok measure) :
    MeasureReviewed digests boundary root measure := by
  unfold validateMeasure at accepted
  split at accepted
  · iterate 3 obtain ⟨_, -, accepted⟩ := bind_eq_ok accepted
    cases accepted
    trivial
  · unfold validateBaseMeasure at accepted
    iterate 2 obtain ⟨_, -, accepted⟩ := bind_eq_ok accepted
    split at accepted
    · cases accepted
    · obtain ⟨relationship, named, accepted⟩ := bind_eq_ok accepted
      obtain ⟨target, found, accepted⟩ := bind_eq_ok accepted
      obtain ⟨field, -, accepted⟩ := bind_eq_ok accepted
      iterate 2 obtain ⟨⟨⟩, -, accepted⟩ := bind_eq_ok accepted
      obtain ⟨⟨⟩, allowed, accepted⟩ := bind_eq_ok accepted
      rw [check_ok_iff] at allowed
      cases accepted
      exact reviewedOn_of (optionalString_given named) found allowed

theorem validateAutoBand_auto {input : Properties} {dimension : AggregateDimension}
    (accepted : validateAutoBand root input = .ok dimension) : DimensionReviewed digests boundary root dimension := by
  unfold validateAutoBand at accepted
  iterate 8 obtain ⟨_, -, accepted⟩ := bind_eq_ok accepted
  cases accepted
  trivial

theorem validateDimension_reviewed {input : Properties} {dimension : AggregateDimension}
    (accepted : validateDimension digests boundary root input = .ok dimension) :
    DimensionReviewed digests boundary root dimension := by
  unfold validateDimension at accepted
  split at accepted
  · unfold validateFieldDimension at accepted
    obtain ⟨_, -, accepted⟩ := bind_eq_ok accepted
    obtain ⟨relationship, named, accepted⟩ := bind_eq_ok accepted
    obtain ⟨target, found, accepted⟩ := bind_eq_ok accepted
    obtain ⟨field, -, accepted⟩ := bind_eq_ok accepted
    obtain ⟨⟨⟩, groupable, accepted⟩ := bind_eq_ok accepted
    rw [check_ok_iff] at groupable
    cases accepted
    exact reviewedOn_of (optionalString_given named) found groupable
  · obtain ⟨_, -, accepted⟩ := bind_eq_ok accepted
    split at accepted
    · iterate 2 obtain ⟨_, -, accepted⟩ := bind_eq_ok accepted
      cases accepted
      trivial
    · exact validateAutoBand_auto accepted
    · cases accepted

theorem validateTimeBucket_reviewed {input : Json} {bucket : TimeBucket}
    (accepted : validateTimeBucket digests boundary root input = .ok bucket) :
    BucketReviewed digests boundary root bucket := by
  unfold validateTimeBucket at accepted
  split at accepted
  · obtain ⟨_, -, accepted⟩ := bind_eq_ok accepted
    obtain ⟨relationship, named, accepted⟩ := bind_eq_ok accepted
    obtain ⟨target, found, accepted⟩ := bind_eq_ok accepted
    obtain ⟨field, -, accepted⟩ := bind_eq_ok accepted
    obtain ⟨name, -, accepted⟩ := bind_eq_ok accepted
    obtain ⟨⟨⟩, reviewed, accepted⟩ := bind_eq_ok accepted
    rw [check_ok_iff] at reviewed
    cases accepted
    exact reviewedOn_of (optionalString_given named) found reviewed
  · cases accepted

theorem rowOrder_sortable {input : Properties} {order : Text × Direction} (accepted : rowOrder root input = .ok order) :
    order.1 ∈ root.sortableFields := by
  unfold rowOrder at accepted
  obtain ⟨_, -, accepted⟩ := bind_eq_ok accepted
  obtain ⟨field, -, accepted⟩ := bind_eq_ok accepted
  obtain ⟨⟨⟩, sortable, accepted⟩ := bind_eq_ok accepted
  obtain ⟨_, -, accepted⟩ := bind_eq_ok accepted
  rw [check_ok_iff] at sortable
  cases accepted
  exact sortable

/-! ### Requests -/

theorem validateRowPlan_reviewed {input : Properties} {v : ValidatedExploreRequest}
    (accepted : validateRowPlan digests boundary dates now input = .ok v) :
    ∃ root, PlanReviewed digests boundary root v.plan := by
  unfold validateRowPlan at accepted
  obtain ⟨⟨⟩, -, accepted⟩ := bind_eq_ok accepted
  obtain ⟨root, requested, accepted⟩ := bind_eq_ok accepted
  obtain ⟨select, -, accepted⟩ := bind_eq_ok accepted
  obtain ⟨⟨⟩, selectable, accepted⟩ := bind_eq_ok accepted
  obtain ⟨filters, filtered, accepted⟩ := bind_eq_ok accepted
  obtain ⟨timeWindow, timed, accepted⟩ := bind_eq_ok accepted
  obtain ⟨orderBy, ordered, accepted⟩ := bind_eq_ok accepted
  iterate 2 obtain ⟨_, -, accepted⟩ := bind_eq_ok accepted
  rw [check_ok_iff] at selectable
  cases accepted
  refine ⟨root, requestedResource_found requested, selectable, validateFilters_reviewed filtered, ?_, ?_⟩
  · intro window member
    obtain ⟨pair, listed, rfl⟩ := Option.mem_map.mp member
    obtain ⟨value, taken⟩ := optionally_ok timed listed
    obtain ⟨⟨target, found, reviewed⟩, direct⟩ := validateTimeWindow_reviewed taken
    rw [direct rfl] at found
    cases found
    exact reviewed
  · intro order member
    cases orderBy with
    | none => cases member
    | some orders =>
      obtain ⟨value, taken⟩ := optionally_ok ordered rfl
      obtain ⟨inputs, -, taken⟩ := bind_eq_ok taken
      obtain ⟨input, -, taken⟩ := of_mem_mapM_ok taken member
      exact rowOrder_sortable taken

theorem validateAggregatePlan_reviewed {input : Properties} {v : ValidatedExploreRequest}
    (accepted : validateAggregatePlan digests boundary dates now input = .ok v) :
    ∃ root, PlanReviewed digests boundary root v.plan := by
  unfold validateAggregatePlan at accepted
  obtain ⟨⟨⟩, -, accepted⟩ := bind_eq_ok accepted
  obtain ⟨root, requested, accepted⟩ := bind_eq_ok accepted
  iterate 3 obtain ⟨_, -, accepted⟩ := bind_eq_ok accepted
  obtain ⟨measures, measured, accepted⟩ := bind_eq_ok accepted
  obtain ⟨dimensions, grouped, accepted⟩ := bind_eq_ok accepted
  obtain ⟨timeBucket, bucketed, accepted⟩ := bind_eq_ok accepted
  obtain ⟨filters, filtered, accepted⟩ := bind_eq_ok accepted
  obtain ⟨timeWindow, timed, accepted⟩ := bind_eq_ok accepted
  obtain ⟨comparison, compared, accepted⟩ := bind_eq_ok accepted
  iterate 4 obtain ⟨⟨⟩, -, accepted⟩ := bind_eq_ok accepted
  iterate 2 obtain ⟨_, -, accepted⟩ := bind_eq_ok accepted
  iterate 4 obtain ⟨⟨⟩, -, accepted⟩ := bind_eq_ok accepted
  iterate 3 obtain ⟨_, -, accepted⟩ := bind_eq_ok accepted
  cases accepted
  refine ⟨root, requestedResource_found requested, ?_, ?_, ?_, validateFilters_reviewed filtered, ?_, ?_⟩
  · intro measure member
    obtain ⟨input, -, taken⟩ := of_mem_mapM_ok measured member
    exact validateMeasure_reviewed taken
  · intro dimension member
    cases dimensions with
    | none => cases member
    | some listed =>
      obtain ⟨value, taken⟩ := optionally_ok grouped rfl
      obtain ⟨inputs, -, taken⟩ := bind_eq_ok taken
      obtain ⟨input, -, taken⟩ := of_mem_mapM_ok taken member
      exact validateDimension_reviewed taken
  · intro bucket member
    obtain ⟨value, taken⟩ := optionally_ok bucketed member
    exact validateTimeBucket_reviewed taken
  · intro window member
    obtain ⟨pair, listed, rfl⟩ := Option.mem_map.mp member
    obtain ⟨value, taken⟩ := optionally_ok timed listed
    exact (validateTimeWindow_reviewed taken).1
  · intro range member
    obtain ⟨pair, listed, rfl⟩ := Option.mem_map.mp member
    obtain ⟨value, taken⟩ := optionally_ok compared listed
    exact validateComparison_reviewed taken

/-- An accepted plan names fields that are reviewed for their use. -/
theorem validateExploreRequest_reviewed {input : Json} {v : ValidatedExploreRequest}
    (accepted : validateExploreRequest digests boundary dates now input = .ok v) :
    ∃ root, PlanReviewed digests boundary root v.plan := by
  unfold validateExploreRequest at accepted
  cases input with
  | object request =>
    dsimp only at accepted
    split at accepted
    · split at accepted
      · exact validateRowPlan_reviewed accepted
      · split at accepted
        · exact validateAggregatePlan_reviewed accepted
        · cases accepted
    · cases accepted
  | _ => cases accepted

end

end SynapsorRunner.ReviewedPlans
