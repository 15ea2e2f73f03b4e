import SynapsorRunner.ExploreBoundaries
import SynapsorRunner.SecretMaterial
import SynapsorRunner.SimplePaths

/-!
The relationship paths of a draft boundary. Each resource has its direct relationships, of
one foreign key each; `addComposedExplorationPaths` adds the paths of two and three of them
that are the only shortest ones to their target, under the names of their constraints
joined with two underscores. `addComposedExplorationPaths_iff` says for which constraint
names a relationship is found again under its id.
-/
namespace SynapsorRunner.RelationshipPaths
open SynapsorRunner.NumberText SynapsorRunner.ExploreBoundaries SynapsorRunner.SimplePaths
open SynapsorRunner.SecretMaterial (lower)
set_option linter.unusedSimpArgs false

/-- `EXPLORATION_BUDGET_REVIEW_CEILINGS.max_analysis_relationship_hops`. -/
def hardDepth : Nat := 3

def maxComposedRelationshipCandidatesPerDepth : Nat := 3

/-- Only letters of the ASCII range are equal to those of `id` in the other case. -/
def isReferenceIdentifierName (value : Text) : Bool :=
  decide (value.map lower = ascii "id") || (ascii "_id").isSuffixOf (value.map lower)

/-- The resource looks like one whose rows are counted by others. -/
def factShaped (root : BoundaryResource) : Bool :=
  decide (2 ≤ root.relationships.length) || root.aggregateMeasures.any (fun field => !isReferenceIdentifierName field) ||
  !root.timeBucketFields.isEmpty || (!root.relationships.isEmpty && !root.groupableFields.isEmpty)

/-- The relationship of one foreign key, as `buildExplorationBoundaryDraft` makes it. -/
def directRelationship (digests : Digests) (link : RelationshipLinkProof) : ExplorationRelationship :=
  { id := link.constraintName, targetResource := link.targetResource
    localColumns := link.sourceColumns, targetColumns := link.targetColumns
    cardinality := manyToOne, maxFanOut := 1, pathDepth := some 1
    proof := some ⟨databaseCatalog, [link], digests.links [link]⟩
    unmatchedRows := some (if link.nullable then .reviewRequired else .exclude) }

/-- The depth-one relationships of a resource. -/
def directs (resource : BoundaryResource) : List ExplorationRelationship :=
  resource.relationships.filter fun r => decide (r.pathDepth = some 1)

/-- A map of the resources by id: a later one takes the place of an earlier one. -/
def byId (resources : List BoundaryResource) (id : Text) : Option BoundaryResource :=
  resources.findRev? fun r => decide (r.id = id)

def proofLinks (relationship : ExplorationRelationship) : List RelationshipLinkProof :=
  match relationship.proof with
  | some proof => proof.links
  | none => []

def pathLinks (path : List ExplorationRelationship) : List RelationshipLinkProof := path.flatMap proofLinks

def pathTarget (path : List ExplorationRelationship) : Text := ((path.getLast?).map (·.targetResource)).getD []

/-- The candidate of a path. -/
def composedRelationship (digests : Digests) (path : List ExplorationRelationship) : ExplorationRelationship :=
  let links := pathLinks path
  { id := (ascii "__").intercalate (path.map (·.id)), targetResource := pathTarget path
    localColumns := ((path.head?).map (·.localColumns)).getD []
    targetColumns := ((path.getLast?).map (·.targetColumns)).getD []
    cardinality := manyToOne, maxFanOut := 1, pathDepth := some path.length
    proof := some ⟨databaseCatalog, links, digests.links links⟩
    unmatchedRows := some (if links.any (·.nullable) then .reviewRequired else .exclude) }

section
variable (digests : Digests) (localeCompare : Text → Text → Ordering) (resources : List BoundaryResource)

/-- The paths that `visit` walks from a root. -/
def visit (root : BoundaryResource) : List (List ExplorationRelationship) :=
  extensions directs (·.targetResource) (byId resources) (fun path => decide ((pathLinks path).length = path.length))
    hardDepth root [] [root.id]

def candidates (root : BoundaryResource) : List ExplorationRelationship :=
  ((visit resources root).filter fun path =>
    decide (2 ≤ path.length) && !((directs root).map (·.targetResource)).contains (pathTarget path)).map
      (composedRelationship digests)

/-- How much there is to see at a target. -/
def score (target : Option BoundaryResource) : Nat :=
  match target with
  | none => 0
  | some t => t.groupableFields.length * 4 + t.timeBucketFields.length * 3 + t.selectableFields.length

def rankedBefore (left right : ExplorationRelationship) : Bool :=
  let leftScore := score (byId resources left.targetResource)
  let rightScore := score (byId resources right.targetResource)
  if leftScore = rightScore then decide (localeCompare left.id right.id ≠ .gt) else decide (rightScore < leftScore)

def unambiguous (root : BoundaryResource) : List ExplorationRelationship :=
  (uniqueShortest (·.targetResource) (fun r => r.pathDepth.getD 1) (candidates digests resources root)).mergeSort
    (rankedBefore localeCompare resources)

/-- The paths that a root gets, best first of each depth. -/
def composedPaths (root : BoundaryResource) : List ExplorationRelationship :=
  if factShaped root then
    [2, 3].flatMap fun depth =>
      ((unambiguous digests localeCompare resources root).filter fun r => decide (r.pathDepth = some depth)).take
        maxComposedRelationshipCandidatesPerDepth
  else []

def orderedBefore (left right : ExplorationRelationship) : Bool :=
  if left.pathDepth.getD 1 = right.pathDepth.getD 1 then decide (localeCompare left.id right.id ≠ .gt)
  else decide (left.pathDepth.getD 1 < right.pathDepth.getD 1)

/-- One round of the loop. -/
def extendRoot (root : BoundaryResource) : BoundaryResource :=
  if factShaped root then
    let relationships := root.relationships ++ composedPaths digests localeCompare resources root
    { root with relationships := relationships.mergeSort (orderedBefore localeCompare) }
  else root

/-- The resources after the first rounds. The map of the source holds the resources
    themselves, so that a round sees what the earlier ones changed. -/
def afterRounds (rounds : Nat) : List BoundaryResource :=
  (List.range rounds).foldl (fun state i => state.modify i (extendRoot digests localeCompare state)) resources

def addComposedExplorationPaths : List BoundaryResource := afterRounds digests localeCompare resources resources.length
end

/-! ### What a relationship must be -/

/-- Each link leaves the resource where the one before it led. -/
def Leads : Text → List RelationshipLinkProof → Text → Prop
  | source, [], target => source = target
  | source, link :: rest, target => link.sourceResource = source ∧ Leads link.targetResource rest target

/-- The links prove a path of the relationship from a root. -/
structure ProvenBy (digests : Digests) (root : Text) (relationship : ExplorationRelationship)
    (links : List RelationshipLinkProof) : Prop where
  proof : relationship.proof = some ⟨databaseCatalog, links, digests.links links⟩
  leads : Leads root links relationship.targetResource
  acyclic : (root :: links.map (·.targetResource)).Nodup
  manyToOne : relationship.cardinality = manyToOne ∧ relationship.maxFanOut = 1 ∧ ∀ link ∈ links, link.proven = true
  bounded : 1 ≤ links.length ∧ links.length ≤ hardDepth
  depth : relationship.pathDepth = some links.length

/-- An acyclic path of direct relationships. -/
structure PathTo (resources : List BoundaryResource) (root : BoundaryResource) (path : List ExplorationRelationship)
    (target : Text) : Prop where
  simple : Simple directs (·.targetResource) (byId resources) [root.id] root path
  nonempty : path ≠ []
  ends : pathTarget path = target

/-- No direct relationship leads to the target, and one path alone is the shortest. -/
structure OnlyShortest (resources : List BoundaryResource) (root : BoundaryResource) (target : Text)
    (links : List RelationshipLinkProof) : Prop where
  indirect : ∀ direct ∈ root.relationships, direct.targetResource ≠ target
  only : ∃ path, PathTo resources root path target ∧ pathLinks path = links ∧
    ∀ other, PathTo resources root other target →
      path.length ≤ other.length ∧ (other.length = path.length → pathLinks other = links)

/-- What the claim asks of a resource after the rounds. -/
structure Unambiguous (digests : Digests) (resources : List BoundaryResource) (root result : BoundaryResource) : Prop where
  kept : result = { root with relationships := result.relationships }
  direct : ∀ r ∈ root.relationships, r ∈ result.relationships
  distinct : (result.relationships.map (·.id)).Nodup
  found : ∀ r ∈ result.relationships, (result.relationships.find? fun c => decide (c.id = r.id)) = some r
  proven : ∀ r ∈ result.relationships, ∃ links, ProvenBy digests root.id r links ∧
    (1 < links.length → OnlyShortest resources root r.targetResource links)

/-- A draft resource: its relationships are those of proven foreign keys. -/
def Draft (digests : Digests) (resource : BoundaryResource) : Prop :=
  ∀ r ∈ resource.relationships, ∃ link, r = directRelationship digests link ∧
    link.sourceResource = resource.id ∧ link.proven = true

/-- The constraint names of a path, joined. -/
def joinedNames (relationship : ExplorationRelationship) : Text :=
  (ascii "__").intercalate ((proofLinks relationship).map (·.constraintName))

/-- No foreign key of the root refers to the root itself, and the joined names of its
    foreign keys and of the paths it gets are distinct. -/
structure NamesApart (digests : Digests) (localeCompare : Text → Text → Ordering) (state : List BoundaryResource)
    (root : BoundaryResource) : Prop where
  outward : ∀ r ∈ root.relationships, r.targetResource ≠ root.id
  apart : ((root.relationships ++ composedPaths digests localeCompare state root).map joinedNames).Nodup

/-! ### Draft relationships -/

theorem draft_direct {digests : Digests} {resource : BoundaryResource} (draft : Draft digests resource) :
    directs resource = resource.relationships := by
  rw [directs, List.filter_eq_self]
  intro r member
  obtain ⟨link, rfl, -⟩ := draft r member
  simp [directRelationship]

/-- A resource whose direct relationships are those of a draft. -/
def DraftDirects (digests : Digests) (resource : BoundaryResource) : Prop :=
  ∀ r ∈ directs resource, ∃ link, r = directRelationship digests link ∧
    link.sourceResource = resource.id ∧ link.proven = true

theorem byId_id {resources : List BoundaryResource} {id : Text} {resource : BoundaryResource}
    (found : byId resources id = some resource) : resource.id = id ∧ resource ∈ resources := by
  unfold byId at found
  rw [List.findRev?_eq_find?_reverse] at found
  exact ⟨by simpa using List.find?_some found, by simpa using List.mem_of_find?_eq_some found⟩

theorem pathTarget_eq {path : List ExplorationRelationship} (nonempty : path ≠ []) (source : Text) :
    ((path.getLast?).map (·.targetResource)).getD source = pathTarget path := by
  rw [pathTarget, List.getLast?_eq_some_getLast nonempty]
  rfl

/-- The links of a path of drafts: one for each relationship, one after the other. -/
structure PathLinks (source : Text) (path : List ExplorationRelationship) : Prop where
  leads : Leads source (pathLinks path) (((path.getLast?).map (·.targetResource)).getD source)
  targets : (pathLinks path).map (·.targetResource) = path.map (·.targetResource)
  names : (pathLinks path).map (·.constraintName) = path.map (·.id)
  proven : ∀ link ∈ pathLinks path, link.proven = true

theorem chain_links {digests : Digests} {resources : List BoundaryResource}
    (drafts : ∀ r ∈ resources, DraftDirects digests r) {current : BoundaryResource}
    (draft : DraftDirects digests current) {path : List ExplorationRelationship}
    (chain : Chain directs (·.targetResource) (byId resources) current path) : PathLinks current.id path := by
  induction path generalizing current with
  | nil => exact ⟨rfl, rfl, rfl, by simp [pathLinks]⟩
  | cons next rest ih =>
    obtain ⟨leaves, node, found, chainRest⟩ := chain
    obtain ⟨link, rfl, source, proven⟩ := draft next leaves
    obtain ⟨nodeId, member⟩ := byId_id found
    have tail := ih (drafts node member) chainRest
    have links : pathLinks (directRelationship digests link :: rest) = link :: pathLinks rest := rfl
    rw [nodeId] at tail
    refine ⟨?_, ?_, ?_, ?_⟩
    · rw [links]
      refine ⟨source, ?_⟩
      have leads := tail.leads
      cases rest with
      | nil => simpa [directRelationship] using leads
      | cons second others =>
        rw [List.getLast?_cons_cons, pathTarget_eq (by simp)]
        rw [pathTarget_eq (by simp)] at leads
        exact leads
    · rw [links, List.map_cons, List.map_cons, tail.targets]
      rfl
    · rw [links, List.map_cons, List.map_cons, tail.names]
      rfl
    · rw [links]
      intro l isLink
      rcases List.mem_cons.mp isLink with rfl | isLink
      · exact proven
      · exact tail.proven l isLink

theorem PathLinks.length_eq {source : Text} {path : List ExplorationRelationship} (links : PathLinks source path) :
    (pathLinks path).length = path.length := by
  have := congrArg List.length links.targets
  simpa using this

theorem chain_beginning {resources : List BoundaryResource} {current : BoundaryResource}
    {path part : List ExplorationRelationship} (begins : part <+: path)
    (chain : Chain directs (·.targetResource) (byId resources) current path) :
    Chain directs (·.targetResource) (byId resources) current part := by
  induction part generalizing current path with
  | nil => trivial
  | cons next rest ih =>
    obtain ⟨path', rfl⟩ : ∃ path', path = next :: path' := by
      obtain ⟨tail, rfl⟩ := begins
      exact ⟨rest ++ tail, rfl⟩
    obtain ⟨leaves, node, found, chainRest⟩ := chain
    exact ⟨leaves, node, found, ih ((List.prefix_cons_inj next).mp begins) chainRest⟩

/-- The search keeps every path of drafts. -/
theorem mem_visit {digests : Digests} {resources : List BoundaryResource}
    (drafts : ∀ r ∈ resources, DraftDirects digests r) {root : BoundaryResource}
    (draft : DraftDirects digests root) {path : List ExplorationRelationship} :
    path ∈ visit resources root ↔ path ≠ [] ∧ path.length ≤ hardDepth ∧
      Simple directs (·.targetResource) (byId resources) [root.id] root path := by
  rw [visit, mem_extensions]
  constructor
  · rintro ⟨rest, rfl, nonempty, short, simple, -⟩
    exact ⟨nonempty, short, simple⟩
  · rintro ⟨nonempty, short, simple⟩
    refine ⟨path, rfl, nonempty, short, simple, ?_⟩
    intro part _ begins
    simp only [List.nil_append, decide_eq_true_eq]
    exact (chain_links drafts draft (chain_beginning begins simple.chain)).length_eq

/-! ### One round -/

section
variable {digests : Digests} {localeCompare : Text → Text → Ordering} {resources : List BoundaryResource}
  {root : BoundaryResource}

theorem mem_candidates (drafts : ∀ r ∈ resources, DraftDirects digests r) (draft : DraftDirects digests root)
    {c : ExplorationRelationship} :
    c ∈ candidates digests resources root ↔ ∃ path, c = composedRelationship digests path ∧ 2 ≤ path.length ∧
      path.length ≤ hardDepth ∧ PathTo resources root path c.targetResource ∧
      ∀ direct ∈ directs root, direct.targetResource ≠ c.targetResource := by
  simp only [candidates, List.mem_map, List.mem_filter, mem_visit drafts draft, Bool.and_eq_true, decide_eq_true_eq,
    Bool.not_eq_true', List.contains_eq_mem, decide_eq_false_iff_not, List.mem_map, not_exists, not_and]
  constructor
  · rintro ⟨path, ⟨⟨nonempty, short, simple⟩, long, indirect⟩, rfl⟩
    exact ⟨path, rfl, long, short, ⟨simple, nonempty, rfl⟩, indirect⟩
  · rintro ⟨path, rfl, long, short, path_to, indirect⟩
    exact ⟨path, ⟨⟨path_to.nonempty, short, path_to.simple⟩, long, indirect⟩, rfl⟩

theorem composedPaths_fact {c : ExplorationRelationship} (added : c ∈ composedPaths digests localeCompare resources root) :
    factShaped root = true ∧ (c.pathDepth = some 2 ∨ c.pathDepth = some 3) ∧
      c ∈ unambiguous digests localeCompare resources root := by
  unfold composedPaths at added
  split at added
  · rename_i fact
    simp only [List.mem_flatMap, List.mem_cons, List.not_mem_nil, or_false] at added
    obtain ⟨depth, isDepth, member⟩ := added
    have := List.mem_filter.mp (List.mem_of_mem_take member)
    simp only [decide_eq_true_eq] at this
    refine ⟨fact, ?_, this.1⟩
    rcases isDepth with rfl | rfl
    · exact .inl this.2
    · exact .inr this.2
  · simp at added

theorem mem_unambiguous {c : ExplorationRelationship} (member : c ∈ unambiguous digests localeCompare resources root) :
    c ∈ candidates digests resources root ∧ ∀ other ∈ candidates digests resources root,
      other.targetResource = c.targetResource →
      c.pathDepth.getD 1 ≤ other.pathDepth.getD 1 ∧ (other.pathDepth.getD 1 = c.pathDepth.getD 1 → other = c) :=
  mem_uniqueShortest (List.mem_mergeSort.mp member)

variable (digests localeCompare resources root) in
/-- The relationships of a round are those of the root and the added paths. -/
theorem extendRoot_perm :
    ((extendRoot digests localeCompare resources root).relationships).Perm
      (root.relationships ++ composedPaths digests localeCompare resources root) := by
  unfold extendRoot
  split
  · exact List.mergeSort_perm _ _
  · rename_i plain
    simp [composedPaths, plain]

theorem extendRoot_kept : extendRoot digests localeCompare resources root =
    { root with relationships := (extendRoot digests localeCompare resources root).relationships } := by
  unfold extendRoot
  split <;> rfl

theorem mem_directs_extendRoot {r : ExplorationRelationship} :
    r ∈ directs (extendRoot digests localeCompare resources root) ↔ r ∈ directs root := by
  simp only [directs, List.mem_filter, (extendRoot_perm digests localeCompare resources root).mem_iff, List.mem_append,
    decide_eq_true_eq]
  constructor
  · rintro ⟨own | added, depth⟩
    · exact ⟨own, depth⟩
    · rcases (composedPaths_fact added).2.1 with two | three
      · rw [two] at depth; cases depth
      · rw [three] at depth; cases depth
  · rintro ⟨own, depth⟩
    exact ⟨.inl own, depth⟩
end

/-! ### The rounds -/

/-- A resource with the id and the direct relationships of another. -/
structure SameDirects (resource state : BoundaryResource) : Prop where
  id : state.id = resource.id
  directs : ∀ r, r ∈ directs state ↔ r ∈ directs resource

theorem byId_same {resources state : List BoundaryResource} (same : List.Forall₂ SameDirects resources state) (id : Text) :
    (byId resources id = none ∧ byId state id = none) ∨
      ∃ r r', byId resources id = some r ∧ byId state id = some r' ∧ SameDirects r r' := by
  induction same with
  | nil => exact .inl ⟨rfl, rfl⟩
  | @cons a a' rest rest' head tail ih =>
    simp only [byId, List.findRev?] at ih ⊢
    rcases ih with ⟨none, none'⟩ | ⟨r, r', found, found', sameFound⟩
    · rw [none, none']
      by_cases named : a.id = id
      · exact .inr ⟨a, a', by simp [named], by simp [head.id, named], head⟩
      · exact .inl ⟨by simp [named], by simp [head.id, named]⟩
    · rw [found, found']
      exact .inr ⟨r, r', rfl, rfl, sameFound⟩

section
variable {resources state : List BoundaryResource}

theorem chain_same (same : List.Forall₂ SameDirects resources state) {r r' : BoundaryResource} (current : SameDirects r r')
    {path : List ExplorationRelationship} :
    Chain directs (·.targetResource) (byId state) r' path ↔
      Chain directs (·.targetResource) (byId resources) r path := by
  constructor
  · apply Chain.transfer (fun n n' (sameNode : SameDirects n' n) e => (sameNode.directs e).mp)
    · intro k n found
      rcases byId_same same k with ⟨-, none⟩ | ⟨m, m', first, second, sameNode⟩
      · rw [none] at found; cases found
      · rw [second] at found
        cases found
        exact ⟨m, first, sameNode⟩
    · exact current
  · apply Chain.transfer (fun n n' (sameNode : SameDirects n n') e => (sameNode.directs e).mpr)
    · intro k n found
      rcases byId_same same k with ⟨none, -⟩ | ⟨m, m', first, second, sameNode⟩
      · rw [none] at found; cases found
      · rw [first] at found
        cases found
        exact ⟨m', second, sameNode⟩
    · exact current

theorem pathTo_same (same : List.Forall₂ SameDirects resources state) {root : BoundaryResource}
    {path : List ExplorationRelationship} {target : Text} :
    PathTo state root path target ↔ PathTo resources root path target := by
  have itself : SameDirects root root := ⟨rfl, fun _ => Iff.rfl⟩
  constructor
  · rintro ⟨⟨chain, distinct, fresh⟩, nonempty, ends⟩
    exact ⟨⟨(chain_same same itself).mp chain, distinct, fresh⟩, nonempty, ends⟩
  · rintro ⟨⟨chain, distinct, fresh⟩, nonempty, ends⟩
    exact ⟨⟨(chain_same same itself).mpr chain, distinct, fresh⟩, nonempty, ends⟩

theorem drafts_same {digests : Digests} (same : List.Forall₂ SameDirects resources state)
    (drafts : ∀ r ∈ resources, Draft digests r) : ∀ r ∈ state, DraftDirects digests r := by
  induction same with
  | nil => simp
  | @cons a a' rest rest' head tail ih =>
    intro r member
    rcases List.mem_cons.mp member with rfl | member
    · intro rel direct
      have own := (head.directs rel).mp direct
      rw [draft_direct (drafts a (by simp))] at own
      obtain ⟨link, isLink, source, proven⟩ := drafts a (by simp) rel own
      exact ⟨link, isLink, source.trans head.id.symm, proven⟩
    · exact ih (fun r m => drafts r (List.mem_cons_of_mem _ m)) r member
end

section
variable (digests : Digests) (localeCompare : Text → Text → Ordering) (resources : List BoundaryResource)

theorem afterRounds_succ (rounds : Nat) : afterRounds digests localeCompare resources (rounds + 1) =
    (afterRounds digests localeCompare resources rounds).modify rounds
      (extendRoot digests localeCompare (afterRounds digests localeCompare resources rounds)) := by
  simp [afterRounds, List.range_succ]

theorem forall₂_modify {state : List BoundaryResource} {f : BoundaryResource → BoundaryResource}
    (step : ∀ r r', SameDirects r r' → SameDirects r (f r')) (same : List.Forall₂ SameDirects resources state)
    (i : Nat) :
    List.Forall₂ SameDirects resources (state.modify i f) := by
  induction same generalizing i with
  | nil => cases i <;> exact .nil
  | cons head tail ih =>
    cases i with
    | zero => exact .cons (step _ _ head) tail
    | succ i => exact .cons head (ih i)

/-- A round keeps the ids and the direct relationships. -/
theorem afterRounds_same (rounds : Nat) :
    List.Forall₂ SameDirects resources (afterRounds digests localeCompare resources rounds) := by
  induction rounds with
  | zero => exact List.forall₂_same.mpr fun _ _ => ⟨rfl, fun _ => Iff.rfl⟩
  | succ rounds ih =>
    rw [afterRounds_succ]
    apply forall₂_modify resources _ ih
    intro r r' same
    refine ⟨?_, fun rel => mem_directs_extendRoot.trans (same.directs rel)⟩
    rw [extendRoot_kept]
    exact same.id

/-- A resource is changed in its own round only. -/
theorem afterRounds_get (rounds i : Nat) : (afterRounds digests localeCompare resources rounds)[i]? =
    (resources[i]?).map fun root =>
      if i < rounds then extendRoot digests localeCompare (afterRounds digests localeCompare resources i) root
      else root := by
  induction rounds with
  | zero =>
    have start : afterRounds digests localeCompare resources 0 = resources := rfl
    simp only [start, Nat.not_lt_zero, if_false, Option.map_id']
  | succ rounds ih =>
    rw [afterRounds_succ, List.getElem?_modify, ih, Option.map_eq_map, Option.map_map]
    congr 1
    funext root
    simp only [Function.comp_apply]
    by_cases now : rounds = i
    · rw [if_pos now, if_neg (by omega), if_pos (by omega), now]
    · by_cases earlier : i < rounds
      · rw [if_neg now, if_pos earlier, if_pos (by omega)]
      · rw [if_neg now, if_neg earlier, if_neg (by omega)]
end

/-! ### The relationships of a result -/

section
variable {digests : Digests} {localeCompare : Text → Text → Ordering} {resources state : List BoundaryResource}
  {root : BoundaryResource}

theorem direct_provenBy {r : ExplorationRelationship} (draft : Draft digests root) (member : r ∈ root.relationships)
    (outward : r.targetResource ≠ root.id) : ∃ link, proofLinks r = [link] ∧ ProvenBy digests root.id r [link] := by
  obtain ⟨link, rfl, source, proven⟩ := draft r member
  refine ⟨link, rfl, rfl, ⟨source, rfl⟩, ?_, ⟨rfl, rfl, by simpa using proven⟩, by simp [hardDepth], rfl⟩
  simp only [List.map_cons, List.map_nil, List.nodup_cons, List.mem_singleton, List.not_mem_nil, not_false_eq_true,
    List.nodup_nil, and_true]
  exact fun same => outward same.symm

theorem candidate_provenBy (drafts : ∀ r ∈ state, DraftDirects digests r) (draft : DraftDirects digests root)
    {c : ExplorationRelationship} (member : c ∈ candidates digests state root) :
    ProvenBy digests root.id c (proofLinks c) ∧ c.id = joinedNames c := by
  obtain ⟨path, rfl, long, short, ⟨simple, nonempty, -⟩, -⟩ := (mem_candidates drafts draft).mp member
  have links := chain_links drafts draft simple.chain
  have leads := links.leads
  rw [pathTarget_eq nonempty] at leads
  have size := links.length_eq
  refine ⟨⟨rfl, leads, ?_, ⟨rfl, rfl, links.proven⟩, ?_, ?_⟩, ?_⟩
  · show (root.id :: (pathLinks path).map (·.targetResource)).Nodup
    rw [links.targets, List.nodup_cons]
    refine ⟨?_, simple.distinct⟩
    intro again
    obtain ⟨e, listed, same⟩ := List.mem_map.mp again
    exact simple.fresh e listed (by simp [same])
  · show 1 ≤ (pathLinks path).length ∧ (pathLinks path).length ≤ hardDepth
    omega
  · show some path.length = some (pathLinks path).length
    rw [size]
  · show (ascii "__").intercalate (path.map (·.id)) = (ascii "__").intercalate ((pathLinks path).map (·.constraintName))
    rw [links.names]

/-- An added path is the only shortest one, also in the resources before the rounds. -/
theorem unambiguous_onlyShortest (same : List.Forall₂ SameDirects resources state) (draft : Draft digests root)
    (drafts : ∀ r ∈ resources, Draft digests r) {c : ExplorationRelationship}
    (member : c ∈ unambiguous digests localeCompare state root) :
    OnlyShortest resources root c.targetResource (proofLinks c) := by
  have stateDrafts := drafts_same same drafts
  have rootDraft : DraftDirects digests root := fun r direct => draft r (List.mem_of_mem_filter direct)
  obtain ⟨listed, least⟩ := mem_unambiguous member
  obtain ⟨path, isPath, long, short, leads, indirect⟩ := (mem_candidates stateDrafts rootDraft).mp listed
  rw [draft_direct draft] at indirect
  refine ⟨indirect, path, (pathTo_same same).mp leads, by rw [isPath]; rfl, ?_⟩
  intro other otherLeads
  by_cases longer : path.length < other.length
  · exact ⟨Nat.le_of_lt longer, fun equal => absurd equal (by omega)⟩
  have inState := (pathTo_same same).mpr otherLeads
  have otherLong : 2 ≤ other.length := by
    -- a path of one relationship would be a direct one
    rcases other with _ | ⟨first, _ | ⟨second, rest⟩⟩
    · exact absurd rfl otherLeads.nonempty
    · obtain ⟨own, -⟩ := otherLeads.simple.chain
      rw [draft_direct draft] at own
      exact absurd otherLeads.ends (indirect first own)
    · simp
  have otherListed : composedRelationship digests other ∈ candidates digests state root := by
    refine (mem_candidates stateDrafts rootDraft).mpr ⟨other, rfl, otherLong, by omega, ?_, ?_⟩
    · exact ⟨inState.simple, inState.nonempty, rfl⟩
    · rw [draft_direct draft]
      intro direct own
      rw [show (composedRelationship digests other).targetResource = c.targetResource from otherLeads.ends]
      exact indirect direct own
  obtain ⟨notShorter, alone⟩ := least _ otherListed otherLeads.ends
  rw [isPath] at notShorter alone ⊢
  refine ⟨notShorter, ?_⟩
  intro equal
  exact congrArg proofLinks (alone equal)

theorem direct_id {r : ExplorationRelationship} (draft : Draft digests root) (member : r ∈ root.relationships) :
    r.id = joinedNames r := by
  obtain ⟨link, rfl, -⟩ := draft r member
  simp [joinedNames, proofLinks, directRelationship]

theorem found_of_distinct {relationships : List ExplorationRelationship} (distinct : (relationships.map (·.id)).Nodup)
    {r : ExplorationRelationship} (member : r ∈ relationships) :
    (relationships.find? fun c => decide (c.id = r.id)) = some r := by
  induction relationships with
  | nil => simp at member
  | cons first rest ih =>
    rw [List.map_cons, List.nodup_cons] at distinct
    rcases List.mem_cons.mp member with rfl | later
    · simp
    · have apart : first.id ≠ r.id := fun same => distinct.1 (same ▸ List.mem_map_of_mem later)
      simp [apart, ih distinct.2 later]

variable (localeCompare) in
/-- One round, from the state before it. -/
theorem extendRoot_unambiguous_iff (same : List.Forall₂ SameDirects resources state) (draft : Draft digests root)
    (drafts : ∀ r ∈ resources, Draft digests r) :
    Unambiguous digests resources root (extendRoot digests localeCompare state root) ↔
      NamesApart digests localeCompare state root := by
  have perm := extendRoot_perm digests localeCompare state root
  have stateDrafts := drafts_same same drafts
  have rootDraft : DraftDirects digests root := fun r direct => draft r (List.mem_of_mem_filter direct)
  have ids : (root.relationships ++ composedPaths digests localeCompare state root).map (·.id) =
      (root.relationships ++ composedPaths digests localeCompare state root).map joinedNames := by
    apply List.map_congr_left
    intro r member
    rcases List.mem_append.mp member with own | added
    · exact direct_id draft own
    · exact (candidate_provenBy stateDrafts rootDraft (mem_unambiguous (composedPaths_fact added).2.2).1).2
  constructor
  · intro unambiguous
    refine ⟨?_, ?_⟩
    · intro r own itself
      obtain ⟨links, proven, -⟩ := unambiguous.proven r (unambiguous.direct r own)
      obtain ⟨link, rfl, -⟩ := draft r own
      have isProof : [link] = links := by
        have := proven.proof
        simp only [directRelationship, Option.some.injEq, StructuralProof.mk.injEq] at this
        exact this.2.1
      have acyclic := proven.acyclic
      rw [← isProof] at acyclic
      simp only [List.map_cons, List.map_nil, List.nodup_cons, List.mem_singleton] at acyclic
      exact acyclic.1 itself.symm
    · rw [← ids]
      exact (perm.map _).nodup_iff.mp unambiguous.distinct
  · rintro ⟨outward, apart⟩
    rw [← ids] at apart
    have distinct := (perm.map (·.id)).nodup_iff.mpr apart
    refine ⟨extendRoot_kept, fun r own => perm.mem_iff.mpr (List.mem_append_left _ own), distinct,
      fun r member => found_of_distinct distinct member, ?_⟩
    intro r member
    rcases List.mem_append.mp (perm.mem_iff.mp member) with own | added
    · obtain ⟨link, -, proven⟩ := direct_provenBy draft own (outward r own)
      exact ⟨[link], proven, fun long => absurd long (by simp)⟩
    · have chosen := (composedPaths_fact added).2.2
      refine ⟨proofLinks r, (candidate_provenBy stateDrafts rootDraft (mem_unambiguous chosen).1).1, fun _ => ?_⟩
      exact unambiguous_onlyShortest same draft drafts chosen
end

theorem addComposedExplorationPaths_get (digests : Digests) (localeCompare : Text → Text → Ordering)
    {resources : List BoundaryResource} {i : Nat} {root : BoundaryResource} (listed : resources[i]? = some root) :
    (addComposedExplorationPaths digests localeCompare resources)[i]? =
      some (extendRoot digests localeCompare (afterRounds digests localeCompare resources i) root) := by
  have inside : i < resources.length := (List.getElem?_eq_some_iff.mp listed).1
  rw [addComposedExplorationPaths, afterRounds_get, listed]
  simp [inside]

/-- Every draft resource ends with relationships that are told apart by their ids and lead
    to their targets, exactly when no foreign key of it refers to itself and the joined
    names of its foreign keys and of the paths it gets are distinct. -/
theorem addComposedExplorationPaths_iff {digests : Digests} {localeCompare : Text → Text → Ordering}
    {resources : List BoundaryResource} (drafts : ∀ r ∈ resources, Draft digests r) :
    (∀ (i : Nat) (root : BoundaryResource), resources[i]? = some root →
      ∃ result, (addComposedExplorationPaths digests localeCompare resources)[i]? = some result ∧
        Unambiguous digests resources root result) ↔
    ∀ (i : Nat) (root : BoundaryResource), resources[i]? = some root →
      NamesApart digests localeCompare (afterRounds digests localeCompare resources i) root := by
  have round (i : Nat) (root : BoundaryResource) (listed : resources[i]? = some root) :=
    extendRoot_unambiguous_iff localeCompare (afterRounds_same digests localeCompare resources i)
      (drafts root (List.mem_of_getElem? listed)) drafts
  constructor
  · intro all i root listed
    obtain ⟨_, isResult, unambiguous⟩ := all i root listed
    rw [addComposedExplorationPaths_get digests localeCompare listed] at isResult
    cases isResult
    exact (round i root listed).mp unambiguous
  · intro apart i root listed
    exact ⟨_, addComposedExplorationPaths_get digests localeCompare listed,
      (round i root listed).mpr (apart i root listed)⟩

/-- A foreign key with a name, from a resource to another. -/
def foreignKey (name source target : String) : RelationshipLinkProof :=
  { constraintName := ascii name, sourceResource := ascii source, targetResource := ascii target
    sourceColumns := [ascii "r"], targetColumns := [ascii "k"]
    targetUniqueness := ⟨ascii "primary_key", ascii "p", [ascii "k"]⟩
    nullable := false, cardinality := manyToOne, maxFanOut := 1 }

/-- A draft resource of which only the foreign keys matter. -/
def draftTable (digests : Digests) (id : String) (keys : List RelationshipLinkProof) : BoundaryResource :=
  { id := ascii id, schema := [], table := [], primaryKey := [], tenantKey := none, tenantScope := none
    sharedReferenceScope := true, principalKey := none, principalScope := none, fieldTypes := [], fieldEnums := []
    selectableFields := [], filterableFields := [], sortableFields := [], groupableFields := [], aggregateMeasures := []
    aggregateMeasureFunctions := none, presenceMeasureFields := [], derivedMeasures := [], numericBands := []
    autoBands := [], countDistinctFields := [], timeBucketFields := [], keptOutFields := [], modelWithheldFields := []
    relationships := keys.map (directRelationship digests), rlsSession := none, minimumCohortSize := 5 }

theorem draftTable_draft (digests : Digests) {id : String} {keys : List RelationshipLinkProof}
    (own : ∀ key ∈ keys, key.sourceResource = ascii id ∧ key.proven = true) :
    Draft digests (draftTable digests id keys) := by
  intro r member
  obtain ⟨key, listed, rfl⟩ := List.mem_map.mp member
  exact ⟨key, rfl, own key listed⟩

/-- A resource that refers to `b` by `x` and to `d` by another constraint. -/
def crossingRoot (digests : Digests) (name : String) : BoundaryResource :=
  draftTable digests "a" [foreignKey "x" "a" "b", foreignKey name "a" "d"]

/-- With it, `b` refers to `c` by `y`. -/
def crossing (digests : Digests) (name : String) : List BoundaryResource :=
  [crossingRoot digests name, draftTable digests "b" [foreignKey "y" "b" "c"], draftTable digests "c" [],
    draftTable digests "d" []]

theorem crossing_draft (digests : Digests) (name : String) : ∀ r ∈ crossing digests name, Draft digests r := by
  simp only [crossing, crossingRoot, List.mem_cons, List.not_mem_nil, or_false, forall_eq_or_imp, forall_eq]
  refine ⟨draftTable_draft digests ?_, draftTable_draft digests ?_, draftTable_draft digests (by simp),
    draftTable_draft digests (by simp)⟩ <;> simp [foreignKey, RelationshipLinkProof.proven]

theorem ids_apart : [ascii "a", ascii "b", ascii "c", ascii "d"].Nodup := by decide

/-- The path from `a` to `c`. -/
def crossingPath (digests : Digests) : List ExplorationRelationship :=
  [directRelationship digests (foreignKey "x" "a" "b"), directRelationship digests (foreignKey "y" "b" "c")]

theorem crossing_composed (digests : Digests) (localeCompare : Text → Text → Ordering) (name : String) :
    composedPaths digests localeCompare (crossing digests name) (crossingRoot digests name) =
      [composedRelationship digests (crossingPath digests)] := by
  have apart := ids_apart
  simp only [List.nodup_cons, List.mem_cons, List.not_mem_nil, or_false, not_or, not_false_eq_true, List.nodup_nil, and_true]
    at apart
  obtain ⟨⟨ab, ac, ad⟩, ⟨bc, bd⟩, cd⟩ := apart
  have visited : visit (crossing digests name) (crossingRoot digests name) =
      [[directRelationship digests (foreignKey "x" "a" "b")], crossingPath digests,
        [directRelationship digests (foreignKey name "a" "d")]] := by
    simp [visit, hardDepth, extensions, crossing, crossingRoot, crossingPath, byId, directs, draftTable,
      directRelationship, foreignKey, pathLinks, proofLinks, ab, ac, ad, bc, bd, cd, Ne.symm ab, Ne.symm ac, Ne.symm ad,
      Ne.symm bc, Ne.symm bd, Ne.symm cd]
  have listed : candidates digests (crossing digests name) (crossingRoot digests name) =
      [composedRelationship digests (crossingPath digests)] := by
    rw [candidates, visited]
    simp [directs, crossingRoot, crossingPath, draftTable, directRelationship, foreignKey, pathTarget, Ne.symm bc, cd]
  have fact : factShaped (crossingRoot digests name) = true := rfl
  rw [composedPaths, if_pos fact, unambiguous, listed, uniqueShortest_singleton, List.mergeSort_singleton]
  rfl

theorem composed_id_taken :
    ¬ ∃ (digests : Digests) (localeCompare : Text → Text → Ordering), ∀ resources : List BoundaryResource,
      (∀ r ∈ resources, Draft digests r) → ∀ (i : Nat) (root : BoundaryResource), resources[i]? = some root →
      ∃ result, (addComposedExplorationPaths digests localeCompare resources)[i]? = some result ∧
        Unambiguous digests resources root result := by
  rintro ⟨digests, localeCompare, claimed⟩
  obtain ⟨result, isResult, unambiguous⟩ := claimed (crossing digests "x__y") (crossing_draft digests _) 0 _ rfl
  rw [addComposedExplorationPaths_get digests localeCompare rfl] at isResult
  cases isResult
  have apart := ((extendRoot_perm digests localeCompare _ _).map (·.id)).nodup_iff.mp unambiguous.distinct
  have start : afterRounds digests localeCompare (crossing digests "x__y") 0 = crossing digests "x__y" := rfl
  have joined : (ascii "__").intercalate [ascii "x", ascii "y"] = ascii "x__y" := by decide
  rw [start, crossing_composed] at apart
  simp [crossingRoot, crossingPath, draftTable, directRelationship, composedRelationship, foreignKey, ← joined] at apart

theorem plain_apart {digests : Digests} {localeCompare : Text → Text → Ordering} {state : List BoundaryResource}
    {id : String} {keys : List RelationshipLinkProof} (few : keys.length ≤ 1)
    (outward : ∀ key ∈ keys, key.targetResource ≠ ascii id) :
    NamesApart digests localeCompare state (draftTable digests id keys) := by
  have plain : factShaped (draftTable digests id keys) = false := by
    simp [factShaped, draftTable]
    omega
  refine ⟨?_, ?_⟩
  · intro r member
    obtain ⟨key, listed, rfl⟩ := List.mem_map.mp member
    exact outward key listed
  · rw [composedPaths, plain]
    rcases keys with _ | ⟨key, _ | ⟨second, rest⟩⟩
    · simp [draftTable]
    · simp [draftTable]
    · simp at few

/-- Digests of nothing and the order of no text, to evaluate definitions with. -/
def noDigests : Digests := ⟨fun _ => [], fun _ _ => [], fun _ _ => []⟩

theorem crossing_told_apart :
    ∃ result, (addComposedExplorationPaths noDigests (fun _ _ => .eq) (crossing noDigests "z"))[0]? = some result ∧
      Unambiguous noDigests (crossing noDigests "z") (crossingRoot noDigests "z") result := by
  refine (addComposedExplorationPaths_iff (crossing_draft noDigests "z")).mpr ?_ 0 _ rfl
  intro i root listed
  match i, listed with
  | 0, rfl =>
    have start : afterRounds noDigests (fun _ _ => .eq) (crossing noDigests "z") 0 = crossing noDigests "z" := rfl
    refine ⟨by decide, ?_⟩
    rw [start, crossing_composed]
    decide
  | 1, rfl => exact plain_apart (by simp) (by decide)
  | 2, rfl => exact plain_apart (by simp) (by simp)
  | 3, rfl => exact plain_apart (by simp) (by simp)

end SynapsorRunner.RelationshipPaths
