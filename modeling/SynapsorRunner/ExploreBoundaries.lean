import SynapsorRunner.ComplementReleases

/-!
Activated exploration boundaries: the reviewed resources with what each of their fields may
be used for, their trusted scopes, their relationships and the measures and bands that are
reviewed by name. A relationship is used only along links that lead from its resource to
its target, each to at most one row and to a resource with a scope of its own
(`reviewedRelationship_path`).
-/
namespace SynapsorRunner.ExploreBoundaries
open SynapsorRunner.Doubles SynapsorRunner.NumberText SynapsorRunner.JsonText SynapsorRunner.Proposals
open SynapsorRunner.ComplementReleases (Operator AggregateMeasureFunction AggregateMeasure AggregateDimension)

/-! ### Refusals -/

/-- `ScopedExploreError` by its code, with what its message says. -/
inductive Refusal where
  | planInvalid (message : Text)
  | fieldForbidden (resource field operation : Text)
  | relationshipForbidden (message : Text)
  | relationshipRequired (resource field : Text) (relationships : List Text)
  | resourceForbidden (message : Text)
  | scopeForbidden
  | boundaryMismatch (message : Text)
  | bandForbidden (resource band : Text)
  | disabled
  | boundaryForbidden (name : Text)
  | boundaryRequired (resource : Option Text)

def Refusal.code : Refusal → String
  | planInvalid _ => "EXPLORE_PLAN_INVALID"
  | fieldForbidden .. | bandForbidden .. => "EXPLORE_FIELD_FORBIDDEN"
  | relationshipForbidden _ | relationshipRequired .. => "EXPLORE_RELATIONSHIP_FORBIDDEN"
  | resourceForbidden _ => "EXPLORE_RESOURCE_FORBIDDEN"
  | scopeForbidden => "EXPLORE_SCOPE_FORBIDDEN"
  | boundaryMismatch _ => "EXPLORE_BOUNDARY_MISMATCH"
  | disabled => "EXPLORE_DISABLED"
  | boundaryForbidden _ => "EXPLORE_BOUNDARY_FORBIDDEN"
  | boundaryRequired _ => "EXPLORE_BOUNDARY_REQUIRED"

/-- Throw unless a condition holds. -/
def check (holds : Prop) [Decidable holds] (refusal : Refusal) : Except Refusal Unit :=
  if holds then .ok () else .error refusal

@[simp] theorem check_ok_iff {holds : Prop} [Decidable holds] {refusal : Refusal} {u : Unit} :
    check holds refusal = .ok u ↔ holds := by
  unfold check
  split <;> simp [*]

/-! ### Resources -/

structure TargetUniqueness where
  kind : Text
  name : Text
  columns : List Text
  deriving DecidableEq

structure RelationshipLinkProof where
  constraintName : Text
  sourceResource : Text
  targetResource : Text
  sourceColumns : List Text
  targetColumns : List Text
  targetUniqueness : TargetUniqueness
  nullable : Bool
  cardinality : Text
  maxFanOut : ℕ
  deriving DecidableEq

abbrev Digest := Text

structure StructuralProof where
  source : Text
  links : List RelationshipLinkProof
  digest : Digest
  deriving DecidableEq

inductive UnmatchedRows where
  | exclude
  | keepNull
  | reviewRequired
  deriving DecidableEq

structure ExplorationRelationship where
  id : Text
  targetResource : Text
  localColumns : List Text
  targetColumns : List Text
  cardinality : Text
  maxFanOut : ℕ
  pathDepth : Option ℕ
  proof : Option StructuralProof
  unmatchedRows : Option UnmatchedRows
  deriving DecidableEq

structure DerivedScopePath where
  mode : Text
  pathId : Text
  ancestorResource : Text
  ancestorColumn : Text
  proof : StructuralProof
  deriving DecidableEq

inductive DerivedBaseMeasure where
  | count
  | ofField (function : AggregateMeasureFunction) (field : Text) (relationship : Option Text)
  deriving DecidableEq

/-- The shapes of a reviewed measure, by what they are made of. -/
inductive DerivedMeasureBody where
  | ratio (shape : Text) (numerator denominator : DerivedBaseMeasure)
  | postAggregate (shape : Text) (base : DerivedBaseMeasure)
  | childCount (shape : Text) (childResource relationship : Text)
  deriving DecidableEq

structure DerivedMeasure where
  name : Text
  body : DerivedMeasureBody
  deriving DecidableEq

structure NumericBand where
  name : Text
  field : Text
  relationship : Option Text
  edges : List Number
  bucketLabels : List Text

structure AutoBandPolicy where
  field : Text
  methods : List Text
  minBuckets : ℕ
  maxBuckets : ℕ
  minBucketWidth : Option Number
  labelStyle : Text

structure RlsSession where
  tenantSetting : Option Text
  principalSetting : Option Text
  deriving DecidableEq

structure BoundaryResource where
  id : Text
  schema : Text
  table : Text
  primaryKey : Text
  tenantKey : Option Text
  tenantScope : Option DerivedScopePath
  sharedReferenceScope : Bool
  principalKey : Option Text
  principalScope : Option DerivedScopePath
  fieldTypes : List (Text × Text)
  fieldEnums : List (Text × List Text)
  selectableFields : List Text
  filterableFields : List (Text × List Operator)
  sortableFields : List Text
  groupableFields : List Text
  aggregateMeasures : List Text
  aggregateMeasureFunctions : Option (List (Text × List AggregateMeasureFunction))
  presenceMeasureFields : List Text
  derivedMeasures : List DerivedMeasure
  numericBands : List NumericBand
  autoBands : List AutoBandPolicy
  countDistinctFields : List Text
  timeBucketFields : List (Text × List Text)
  keptOutFields : List Text
  modelWithheldFields : List Text
  relationships : List ExplorationRelationship
  rlsSession : Option RlsSession
  minimumCohortSize : ℕ

structure ExplorationBudgets where
  maxRows : ℕ
  maxGroups : ℕ
  maxRankedGroups : Option ℕ
  maxTopN : ℕ
  maxMeasures : ℕ
  maxDimensions : ℕ
  maxTimeRanges : ℕ
  maxRelationshipHops : ℕ
  maxDerivedScopeHops : Option ℕ
  maxAnalysisRelationshipHops : Option ℕ
  maxResponseCells : ℕ
  maxResponseBytes : ℕ
  statementTimeoutMs : ℕ
  maxComplexity : ℕ
  maxQueriesPerSession : ℕ
  maxExtractedCellsPerSession : ℕ
  maxDifferencingQueries : ℕ
  rateLimitPerMinute : ℕ

def reviewedDerivedScopeHopLimit (budgets : ExplorationBudgets) : ℕ :=
  budgets.maxDerivedScopeHops.getD budgets.maxRelationshipHops

def reviewedAnalysisRelationshipHopLimit (budgets : ExplorationBudgets) : ℕ :=
  budgets.maxAnalysisRelationshipHops.getD budgets.maxRelationshipHops

def reviewedRankedGroupLimit (budgets : ExplorationBudgets) : ℕ := budgets.maxRankedGroups.getD budgets.maxGroups

/-- What Explore reads of an activated boundary. -/
structure ActivatedExplorationBoundary where
  name : Text
  digest : Digest
  resources : List BoundaryResource
  budgets : ExplorationBudgets
  organizationScope : Bool
  reportingTimezone : Option Text

/-- The value of a key of a record. -/
def entry {α : Type} (record : List (Text × α)) (key : Text) : Option α :=
  (record.find? fun e => e.1 = key).map Prod.snd

/-- An optional name, where an empty one is none. -/
def given (name : Option Text) : Option Text := name.filter fun t => !t.isEmpty

def BoundaryResource.enumValues (resource : BoundaryResource) (field : Text) : List Text :=
  (entry resource.fieldEnums field).getD []

/-! ### Relationships -/

def manyToOne : Text := ascii "many_to_one"
def databaseCatalog : Text := ascii "database_catalog"

/-- Each row of the source has at most one row of the target. -/
def RelationshipLinkProof.proven (link : RelationshipLinkProof) : Bool :=
  decide (link.cardinality = manyToOne) && decide (link.maxFanOut = 1) &&
    decide (link.targetUniqueness.columns = link.targetColumns)

/-- `canonicalJsonDigest` of the links of a path, of a path with its name, and of the links
    of a join with its kind. -/
structure Digests where
  links : List RelationshipLinkProof → Digest
  path : Text → List RelationshipLinkProof → Digest
  joined : Bool → List RelationshipLinkProof → Digest

section
variable (digests : Digests) (boundary : ActivatedExplorationBoundary)

def resourceFor (id : Text) : Except Refusal BoundaryResource :=
  match boundary.resources.find? fun resource => resource.id = id with
  | some resource => .ok resource
  | none => .error (.resourceForbidden (ascii "Resource " ++ id ++ ascii " is not activated."))

def relationshipLinks (root : BoundaryResource) (relationship : ExplorationRelationship) :
    Except Refusal (List RelationshipLinkProof) :=
  match relationship.proof.filter fun proof => proof.source = databaseCatalog with
  | some proof => .ok proof.links
  | none =>
    if relationship.pathDepth.getD 1 ≠ 1 then
      .error (.relationshipForbidden (ascii "Relationship " ++ relationship.id ++
        ascii " has no catalog proof for a multi-link path."))
    else .ok [{
      constraintName := relationship.id
      sourceResource := root.id
      targetResource := relationship.targetResource
      sourceColumns := relationship.localColumns
      targetColumns := relationship.targetColumns
      targetUniqueness := ⟨ascii "unique_constraint", ascii "legacy_activated_relationship", relationship.targetColumns⟩
      nullable := false
      cardinality := manyToOne
      maxFanOut := 1 }]

/-- The resource has a tenant scope of its own, or needs none. -/
def independentlyScoped (resource : BoundaryResource) : Bool :=
  boundary.organizationScope || (given resource.tenantKey).isSome || resource.tenantScope.isSome ||
    resource.sharedReferenceScope

/-- Where the links of a relationship lead from a resource: the loop of
    `reviewedRelationship`. -/
def walkLinks (id : Text) : Text → List RelationshipLinkProof → Except Refusal Text
  | source, [] => .ok source
  | source, link :: rest =>
    if link.sourceResource ≠ source || !link.proven then
      .error (.relationshipForbidden (ascii "Relationship " ++ id ++
        ascii " does not contain continuous many-to-one uniqueness proof."))
    else match resourceFor boundary link.targetResource with
      | .error refusal => .error refusal
      | .ok target =>
        if independentlyScoped boundary target then walkLinks id target.id rest
        else .error (.relationshipForbidden (ascii "Relationship " ++ id ++ ascii " target " ++ target.id ++
          ascii " has no independently reviewed tenant scope or shared-reference scope."))

def reviewedRelationship (root : BoundaryResource) (id : Text) : Except Refusal ExplorationRelationship :=
  match (root.relationships.find? fun r => r.id = id).filter fun r => r.cardinality = manyToOne ∧ r.maxFanOut = 1 with
  | none => .error (.relationshipForbidden (ascii "Relationship " ++ id ++
      ascii " is not an activated, cardinality-proven path."))
  | some relationship => do
    check (relationship.unmatchedRows ≠ some .reviewRequired) (.relationshipForbidden (ascii "Relationship " ++ id ++
      ascii " has unresolved nullable-link semantics."))
    let links ← relationshipLinks root relationship
    check (links.length ≤ reviewedAnalysisRelationshipHopLimit boundary.budgets ∧
        links.length = relationship.pathDepth.getD 1)
      (.relationshipForbidden (ascii "Relationship " ++ id ++ ascii " exceeds the activated proven path-depth boundary."))
    let last ← walkLinks boundary id root.id links
    check (last = relationship.targetResource) (.relationshipForbidden (ascii "Relationship " ++ id ++
      ascii " proof does not end at its activated target."))
    check (relationship.proof.all fun proof => digests.links proof.links = proof.digest)
      (.relationshipForbidden (ascii "Relationship " ++ id ++ ascii " structural proof digest is invalid."))
    pure relationship

def relationshipResource (root : BoundaryResource) (id : Text) : Except Refusal BoundaryResource := do
  let relationship ← reviewedRelationship digests boundary root id
  resourceFor boundary relationship.targetResource

/-- The resource that a field with an optional relationship belongs to. -/
def targetResource (root : BoundaryResource) : Option Text → Except Refusal BoundaryResource
  | none => .ok root
  | some id => relationshipResource digests boundary root id

/-! ### Child counts -/

/-- The proofs of a resource for a relationship of one link. -/
def childProofs (child : BoundaryResource) (relationship : Text) : List StructuralProof :=
  (child.relationships.filterMap fun r =>
      if r.id = relationship ∧ r.pathDepth.getD 1 = 1 then r.proof else none) ++
    ([child.tenantScope, child.principalScope].filterMap fun scope => scope.bind fun path =>
      if path.pathId = relationship ∧ path.proof.links.length = 1 then some path.proof else none)

/-- The link of the last one of some proofs, if they are all the same path. -/
def onlyProof (relationship : Text) (proofs : List StructuralProof) : Option StructuralProof :=
  if ((proofs.map fun proof => digests.path relationship proof.links).eraseDups).length = 1 then proofs.getLast?
  else none

def childLinkError (root child relationship : Text) : Refusal :=
  .relationshipForbidden (root ++ ascii " child " ++ child ++
    ascii " requires one continuous non-null child-to-parent relationship with a unique reviewed parent key: " ++
    relationship)

/-- `resolveReviewedChildCountLink`. -/
def resolveReviewedChildCountLink (root : BoundaryResource) (childResource relationship : Text) :
    Except Refusal (BoundaryResource × RelationshipLinkProof) :=
  match boundary.resources.find? fun resource => resource.id = childResource with
  | none => .error (childLinkError root.id childResource relationship)
  | some child => do
    check (child.id ≠ root.id) (childLinkError root.id child.id relationship)
    check (boundary.organizationScope ∨ (child.sharedReferenceScope = false ∧
        ((given child.tenantKey).isSome ∨ child.tenantScope.isSome)))
      (.relationshipForbidden (root.id ++ ascii " child " ++ child.id ++
        ascii " must have independently reviewed tenant scope."))
    match onlyProof digests relationship (childProofs child relationship) with
    | none => .error (childLinkError root.id child.id relationship)
    | some proof => do
      check (proof.source = databaseCatalog ∧ digests.links proof.links = proof.digest)
        (childLinkError root.id child.id relationship)
      match proof.links with
      | [link] => do
        check (link.constraintName = relationship ∧ link.sourceResource = child.id ∧ link.targetResource = root.id ∧
            link.nullable = false ∧ link.proven ∧ 1 ≤ link.sourceColumns.length ∧
            link.sourceColumns.length = link.targetColumns.length) (childLinkError root.id child.id relationship)
        pure (child, link)
      | _ => .error (childLinkError root.id child.id relationship)

end

/-- A reviewed path: each link from the resource where the last one led, each to at most
    one row. -/
inductive ProvenPath (boundary : ActivatedExplorationBoundary) : Text → List RelationshipLinkProof → Text → Prop where
  | here (id : Text) : ProvenPath boundary id [] id
  | there {link : RelationshipLinkProof} {rest : List RelationshipLinkProof} {target : BoundaryResource} {last : Text}
      (proven : link.proven = true) (found : resourceFor boundary link.targetResource = .ok target)
      (own : independentlyScoped boundary target = true)
      (path : ProvenPath boundary target.id rest last) :
      ProvenPath boundary link.sourceResource (link :: rest) last

theorem resourceFor_id {boundary : ActivatedExplorationBoundary} {id : Text} {resource : BoundaryResource}
    (found : resourceFor boundary id = .ok resource) : resource.id = id := by
  unfold resourceFor at found
  split at found
  · rename_i other selected
    cases found
    simpa using List.find?_some selected
  · cases found

theorem resourceFor_mem {boundary : ActivatedExplorationBoundary} {id : Text} {resource : BoundaryResource}
    (found : resourceFor boundary id = .ok resource) : resource ∈ boundary.resources := by
  unfold resourceFor at found
  split at found
  · rename_i other selected
    cases found
    exact List.mem_of_find?_eq_some selected
  · cases found

theorem walkLinks_path {boundary : ActivatedExplorationBoundary} {id : Text} {links : List RelationshipLinkProof}
    {source last : Text} (walked : walkLinks boundary id source links = .ok last) :
    ProvenPath boundary source links last := by
  induction links generalizing source with
  | nil =>
    cases walked
    exact .here _
  | cons link rest ih =>
    rw [walkLinks] at walked
    by_cases refused : (link.sourceResource ≠ source || !link.proven) = true
    · rw [if_pos refused] at walked
      cases walked
    · rw [if_neg refused] at walked
      simp only [ne_eq, decide_not, Bool.or_eq_true, Bool.not_eq_true', decide_eq_false_iff_not, not_or, not_not,
        Bool.not_eq_false] at refused
      obtain ⟨rfl, proven⟩ := refused
      cases found : resourceFor boundary link.targetResource with
      | error refusal =>
        rw [found] at walked
        cases walked
      | ok target =>
        rw [found] at walked
        dsimp only at walked
        by_cases own : independentlyScoped boundary target = true
        · rw [if_pos own] at walked
          exact .there proven found own (ih walked)
        · rw [if_neg own] at walked
          cases walked

/-- What a reviewed relationship is. -/
structure Reviewed (digests : Digests) (boundary : ActivatedExplorationBoundary)
    (root : BoundaryResource) (id : Text) (relationship : ExplorationRelationship) : Prop where
  member : relationship ∈ root.relationships
  named : relationship.id = id
  decided : relationship.unmatchedRows ≠ some .reviewRequired
  path : ∃ links, relationshipLinks root relationship = .ok links ∧
    ProvenPath boundary root.id links relationship.targetResource
  digest : ∀ proof, relationship.proof = some proof → digests.links proof.links = proof.digest

theorem reviewedRelationship_ok {digests : Digests}
    {boundary : ActivatedExplorationBoundary} {root : BoundaryResource} {id : Text}
    {relationship : ExplorationRelationship}
    (reviewed : reviewedRelationship digests boundary root id = .ok relationship) :
    Reviewed digests boundary root id relationship := by
  unfold reviewedRelationship at reviewed
  split at reviewed
  · cases reviewed
  · rename_i found selected
    obtain ⟨present, -⟩ := Option.filter_eq_some_iff.mp selected
    obtain ⟨⟨⟩, decided, rest⟩ := bind_eq_ok reviewed
    obtain ⟨links, linked, rest⟩ := bind_eq_ok rest
    obtain ⟨⟨⟩, -, rest⟩ := bind_eq_ok rest
    obtain ⟨last, walked, rest⟩ := bind_eq_ok rest
    obtain ⟨⟨⟩, ends, rest⟩ := bind_eq_ok rest
    obtain ⟨⟨⟩, digest, rest⟩ := bind_eq_ok rest
    cases rest
    rw [check_ok_iff] at decided ends digest
    refine ⟨List.mem_of_find?_eq_some present, by simpa using List.find?_some present, decided, ⟨links, linked, ?_⟩, ?_⟩
    · rw [← ends]
      exact walkLinks_path walked
    · intro proof given
      rw [given] at digest
      simpa using digest

end SynapsorRunner.ExploreBoundaries
