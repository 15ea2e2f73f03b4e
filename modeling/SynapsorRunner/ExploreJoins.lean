import SynapsorRunner.ExploreScopes

/-!
The joins of an aggregate: each relationship of a plan is joined link by link, and a path
that begins like an earlier one is joined from where they part. Every joined table is held
to its own scope in the condition of its join, and each relationship leads to the table of
its reviewed target (`compileReviewedRelationshipJoins_emits`).
-/
namespace SynapsorRunner.ExploreJoins
open SynapsorRunner.NumberText SynapsorRunner.Proposals SynapsorRunner.ExploreBoundaries
open SynapsorRunner.ExplorePlans SynapsorRunner.NumberedParameters SynapsorRunner.ExploreSql
open SynapsorRunner.ExploreCompiler SynapsorRunner.ExploreScopes
set_option linter.unusedSimpArgs false

/-- The beginning of the path of a relationship. -/
def JoinPath (root : BoundaryResource) (links : List RelationshipLinkProof) : Prop :=
  ∃ relationship ∈ root.relationships, ∃ all, relationshipLinks root relationship = .ok all ∧ links <+: all

/-- The digests of the join paths of a resource are different for different paths. -/
def TellsApart (digests : Digests) (boundary : ActivatedExplorationBoundary) : Prop :=
  ∀ root ∈ boundary.resources, ∀ keepNull keepNull' links links', JoinPath root links → JoinPath root links' →
    digests.joined keepNull links = digests.joined keepNull' links' → links = links'

/-- A join over the tables at hand, with the resources that are listed. -/
structure JoinOk (boundary : ActivatedExplorationBoundary) (context : TrustedContext) (near : List TableUse)
    (resources : List BoundaryResource) (join : Join) : Prop where
  named : ∀ condition ∈ join.conditions, Named boundary near condition.tokens
  held : ScopedTo boundary context join.table join.conditions
  own : join.table.resource ∈ resources
  listed : ∀ condition ∈ join.conditions, ∀ t ∈ tables condition.tokens, t.resource ∈ resources
  distinct : ((join.conditions.flatMap fun condition => tables condition.tokens).map TableUse.name).Nodup
  names : ∀ condition ∈ join.conditions, ∀ t ∈ tables condition.tokens,
    ∃ kind index, t.name = .step join.table.name kind index

theorem JoinOk.mono {boundary : ActivatedExplorationBoundary} {context : TrustedContext} {near further : List TableUse}
    {resources more : List BoundaryResource} {join : Join} (ok : JoinOk boundary context near resources join)
    (tables : ∀ t ∈ near, t ∈ further) (listed : ∀ r ∈ resources, r ∈ more) :
    JoinOk boundary context further more join where
  named condition member := (ok.named condition member).mono tables
  held := ok.held
  own := listed _ ok.own
  listed condition member t inside := listed _ (ok.listed condition member t inside)
  distinct := ok.distinct
  names := ok.names

def joinPlaceholders (joins : List Join) : List (Placeholder Parameter) :=
  joins.flatMap fun join => conditionPlaceholders join.conditions

theorem conditionPlaceholders_append (a b : List Condition) :
    conditionPlaceholders (a ++ b) = conditionPlaceholders a ++ conditionPlaceholders b := List.flatMap_append

theorem joinPlaceholders_append (joins : List Join) (join : Join) :
    joinPlaceholders (joins ++ [join]) = joinPlaceholders joins ++ conditionPlaceholders join.conditions := by
  simp [joinPlaceholders]

/-- The tables of a plan so far. -/
def Joined.near (joined : Joined) (root : TableUse) : List TableUse := root :: joined.joins.map Join.table

/-- What holds of the joins so far. -/
structure JoinsOk (digests : Digests) (boundary : ActivatedExplorationBoundary) (context : TrustedContext)
    (root : TableUse) (joined : Joined) : Prop where
  joins : ∀ join ∈ joined.joins, JoinOk boundary context (Joined.near joined root) joined.resources join
  names : joined.joins.map (fun join => join.table.name) = (List.range' 1 joined.joins.length).map TableName.joined
  found : AllFound boundary joined.resources
  tables : ∀ t ∈ Joined.near joined root, t.resource ∈ joined.resources
  prefixes : ∀ joinedPrefix ∈ joined.joinedPrefixes, ∃ keepNull before link,
    joinedPrefix.1 = digests.joined keepNull (before ++ [link]) ∧ JoinPath root.resource (before ++ [link]) ∧
      resourceFor boundary link.targetResource = .ok joinedPrefix.2.resource ∧ joinedPrefix.2 ∈ Joined.near joined root
  targets : ∀ target ∈ joined.targets,
    relationshipResource digests boundary root.resource target.1 = .ok target.2.resource ∧
      target.2 ∈ Joined.near joined root

section
variable {digests : Digests} {boundary : ActivatedExplorationBoundary} {context : TrustedContext} {root : TableUse}

theorem JoinPath.reviewed {resource : BoundaryResource} (inside : resource ∈ boundary.resources)
    {links : List RelationshipLinkProof} (path : JoinPath resource links) {link : RelationshipLinkProof}
    (member : link ∈ links) : LinkReviewed boundary link := by
  obtain ⟨relationship, listed, all, linked, start⟩ := path
  exact ⟨resource, inside, .inl ⟨relationship, listed, all, linked, start.subset member⟩⟩

theorem JoinPath.shorter {resource : BoundaryResource} {before rest : List RelationshipLinkProof}
    (path : JoinPath resource (before ++ rest)) : JoinPath resource before := by
  obtain ⟨relationship, listed, all, linked, start⟩ := path
  exact ⟨relationship, listed, all, linked, (List.prefix_append _ _).trans start⟩

theorem entry_mem {α : Type} {record : List (Text × α)} {key : Text} {a : α} (found : entry record key = some a) :
    (key, a) ∈ record := by
  unfold entry at found
  obtain ⟨pair, selected, rfl⟩ := Option.map_eq_some_iff.mp found
  have named : pair.1 = key := by simpa using List.find?_some selected
  rw [← named]
  exact List.mem_of_find?_eq_some selected

theorem entry_of_mem {α : Type} {record : List (Text × α)} {key : Text} (listed : key ∈ record.map Prod.fst) :
    ∃ a, entry record key = some a := by
  obtain ⟨pair, member, rfl⟩ := List.mem_map.mp listed
  unfold entry
  cases found : record.find? fun e => e.1 = pair.1 with
  | some other => exact ⟨other.2, rfl⟩
  | none =>
    rw [List.find?_eq_none] at found
    exact absurd (found pair member) (by simp)

/-- A joined table keeps what holds, and is one of the tables then. -/
theorem joinTable_emits {keepNull : Bool} {before : List RelationshipLinkProof} {link : RelationshipLinkProof}
    {source : TableUse} {joined : Joined} (ok : JoinsOk digests boundary context root joined)
    (inside : root.resource ∈ boundary.resources) (path : JoinPath root.resource (before ++ [link]))
    (near : source ∈ Joined.near joined root) (starts : link.sourceResource = source.resource.id) :
    Emits (joinTable digests boundary context keepNull (digests.joined keepNull (before ++ [link])) source link joined)
      fun result own =>
        joinPlaceholders result.1.joins = joinPlaceholders joined.joins ++ own ∧
        JoinsOk digests boundary context root result.1 ∧ result.2 ∈ Joined.near result.1 root ∧
        resourceFor boundary link.targetResource = .ok result.2.resource ∧ result.1.targets = joined.targets := by
  unfold joinTable
  refine (Emits.ask (Q := fun resource own => own = [] ∧ resourceFor boundary link.targetResource = .ok resource)
    fun _ found => ⟨rfl, found⟩).bind ?_
  rintro resource _ ⟨rfl, found⟩
  let target : TableUse := ⟨.joined (joined.joins.length + 1), resource⟩
  have self : resourceFor boundary resource.id = .ok resource := resourceFor_self found
  have sourceFound : source.resource ∈ boundary.resources :=
    resourceFor_mem (ok.found _ (ok.tables source near))
  have linked : Linked boundary source target link :=
    ⟨path.reviewed inside (by simp), starts, (resourceFor_id found).symm, sourceFound, resourceFor_mem found⟩
  refine (Emits.ask (Q := fun equalities own => own = [] ∧ ∀ equality ∈ equalities,
    placeholders equality = [] ∧ Expression boundary [source, target] equality)
    fun equalities equal => ⟨rfl, onLink_plain linked equal⟩).bind ?_
  rintro equalities _ ⟨rfl, plain⟩
  refine (compileScopePredicates_emits target self).bind ?_
  rintro scope _ ⟨rfl, spec⟩
  refine (Emits.ask (Q := fun _ own => own = []) fun _ _ => rfl).bind ?_
  rintro ⟨⟩ _ rfl
  have silent : conditionPlaceholders (equalities.map .plain) = [] := by
    unfold conditionPlaceholders
    rw [List.flatMap_map, List.flatMap_eq_nil_iff]
    intro equality member
    exact (plain equality member).1
  have bare : (equalities.map Condition.plain).flatMap (fun condition => tables condition.tokens) = [] := by
    rw [List.flatMap_map, List.flatMap_eq_nil_iff]
    intro equality member
    exact (plain equality member).2.plain
  have listed : ∀ condition ∈ equalities.map Condition.plain ++ scope.1, ∀ t ∈ tables condition.tokens,
      t.resource ∈ scope.2 ∧ ∃ kind index, t.name = .step target.name kind index := by
    intro condition member t inside
    rcases List.mem_append.mp member with member | member
    · obtain ⟨equality, one, rfl⟩ := List.mem_map.mp member
      rw [Condition.tokens, (plain equality one).2.plain] at inside
      cases inside
    · exact ⟨spec.listed condition member t inside, spec.names condition member t inside⟩
  have larger : ∀ t ∈ Joined.near joined root, t ∈ Joined.near joined root ++ [target] := fun t member =>
    List.mem_append_left _ member
  refine .pure ?_
  dsimp only
  refine ⟨?_, ⟨?_, ?_, ?_, ?_, ?_, ?_⟩, ?_, found, rfl⟩
  · rw [joinPlaceholders_append, conditionPlaceholders_append, silent]
    simp
  · intro join member
    show JoinOk boundary context (root :: (joined.joins ++ [_]).map Join.table) (joined.resources ++ resource :: scope.2) join
    rw [List.map_append, ← List.cons_append]
    rcases List.mem_append.mp member with member | member
    · exact (ok.joins join member).mono larger fun r one => List.mem_append_left _ one
    · rw [List.mem_singleton] at member
      subst member
      refine ⟨?_, ?_, by simp, ?_, ?_, ?_⟩
      · intro condition member
        rcases List.mem_append.mp member with member | member
        · obtain ⟨equality, one, rfl⟩ := List.mem_map.mp member
          refine (plain equality one).2.named.mono ?_
          intro t two
          rcases List.mem_cons.mp two with rfl | two
          · exact larger t near
          · exact List.mem_append_right _ two
        · exact (spec.named condition member).mono fun t one => List.mem_append_right _ one
      · intro kind has
        obtain ⟨condition, member, held⟩ := spec.held kind has
        exact ⟨condition, List.mem_append_right _ member, held⟩
      · intro condition member t inside
        have one := (listed condition member t inside).1
        simp [one]
      · show ((List.flatMap _ (equalities.map .plain ++ scope.1)).map TableUse.name).Nodup
        rw [List.flatMap_append, bare]
        exact spec.distinct
      · exact fun condition member t inside => (listed condition member t inside).2
  · show (joined.joins ++ [_]).map _ = _
    rw [List.map_append, ok.names, List.length_append, List.length_singleton, List.range'_concat, List.map_append]
    simp [target]
    omega
  · intro r member
    rcases List.mem_append.mp member with member | member
    · exact ok.found r member
    · rcases List.mem_cons.mp member with rfl | member
      · exact self
      · exact spec.found r member
  · intro t member
    show t.resource ∈ joined.resources ++ resource :: scope.2
    unfold Joined.near at member
    rw [List.map_append, ← List.cons_append] at member
    rcases List.mem_append.mp member with member | member
    · exact List.mem_append_left _ (ok.tables t member)
    · simp only [List.map_cons, List.map_nil, List.mem_singleton] at member
      subst member
      simp
  · intro joinedPrefix member
    unfold Joined.near
    rw [List.map_append, ← List.cons_append]
    rcases List.mem_append.mp member with member | member
    · obtain ⟨keep, start, last, same, reviewed, leads, one⟩ := ok.prefixes joinedPrefix member
      exact ⟨keep, start, last, same, reviewed, leads, larger _ one⟩
    · rw [List.mem_singleton] at member
      subst member
      exact ⟨keepNull, before, link, rfl, path, found, by simp⟩
  · intro t member
    obtain ⟨leads, one⟩ := ok.targets t member
    refine ⟨leads, ?_⟩
    unfold Joined.near
    rw [List.map_append, ← List.cons_append]
    exact larger _ one
  · unfold Joined.near
    simp

theorem ProvenPath.last_nil {id last : Text} (path : ProvenPath boundary id [] last) : id = last := by
  cases path
  rfl

theorem ProvenPath.next {id last : Text} {link : RelationshipLinkProof} {rest : List RelationshipLinkProof}
    (path : ProvenPath boundary id (link :: rest) last) :
    ∃ target, resourceFor boundary link.targetResource = .ok target ∧ ProvenPath boundary target.id rest last := by
  cases path with
  | there _ found _ path => exact ⟨_, found, path⟩

/-- The links of a path end at the table of its target. -/
theorem joinLinks_emits (apart : TellsApart digests boundary) (inside : root.resource ∈ boundary.resources) {id : Text}
    {keepNull : Bool} {rest : List RelationshipLinkProof} {last : Text} :
    ∀ {source : TableUse} {before : List RelationshipLinkProof} {joined : Joined},
      JoinsOk digests boundary context root joined → JoinPath root.resource (before ++ rest) →
      source ∈ Joined.near joined root → ProvenPath boundary source.resource.id rest last →
      Emits (joinLinks digests boundary context id keepNull source before rest joined) fun result own =>
        joinPlaceholders result.1.joins = joinPlaceholders joined.joins ++ own ∧
        JoinsOk digests boundary context root result.1 ∧ result.2 ∈ Joined.near result.1 root ∧
        resourceFor boundary last = .ok result.2.resource ∧ result.1.targets = joined.targets := by
  induction rest with
  | nil =>
    intro source before joined ok path near proven
    rw [← ProvenPath.last_nil proven]
    exact .pure ⟨by simp, ok, near, ok.found _ (ok.tables source near), rfl⟩
  | cons link rest ih =>
    intro source before joined ok path near proven
    have here : JoinPath root.resource (before ++ [link]) := by
      rw [show before ++ link :: rest = before ++ [link] ++ rest by simp] at path
      exact path.shorter
    have further : JoinPath root.resource (before ++ [link] ++ rest) := by simpa using path
    rw [joinLinks]
    refine (Emits.ask (Q := fun _ own => own = [] ∧ link.sourceResource = source.resource.id)
      fun _ ok => ⟨rfl, check_ok_iff.mp ok⟩).bind ?_
    rintro ⟨⟩ _ ⟨rfl, starts⟩
    obtain ⟨target, found, proven⟩ := ProvenPath.next proven
    cases present : entry joined.joinedPrefixes (digests.joined keepNull (before ++ [link])) with
    | some existing =>
      obtain ⟨keep, start, other, same, reviewed, leads, member⟩ := ok.prefixes _ (entry_mem present)
      have equal := apart root.resource inside _ _ _ _ here reviewed same
      obtain ⟨-, rfl⟩ := List.append_inj' equal rfl |>.imp_right List.singleton_inj.mp
      obtain rfl := Except.ok.inj (found.symm.trans leads)
      simp only [present]
      refine (ih ok further member proven).mono ?_
      rintro result own ⟨emitted, rest⟩
      exact ⟨by simpa using emitted, rest⟩
    | none =>
      simp only [present]
      refine (joinTable_emits ok inside here near starts).bind ?_
      rintro next own ⟨emitted, nextOk, member, leads, kept⟩
      obtain rfl := Except.ok.inj (found.symm.trans leads)
      refine (ih nextOk further member proven).mono ?_
      rintro result more ⟨later, fine, near, reaches, same⟩
      exact ⟨by simp [later, emitted], fine, near, reaches, same.trans kept⟩

theorem joinRelationship_emits (apart : TellsApart digests boundary) (inside : root.resource ∈ boundary.resources)
    {joined : Joined} (ok : JoinsOk digests boundary context root joined) (id : Text) :
    Emits (joinRelationship digests boundary context root joined id) fun result own =>
      joinPlaceholders result.joins = joinPlaceholders joined.joins ++ own ∧
      JoinsOk digests boundary context root result ∧
      result.targets.map Prod.fst = joined.targets.map Prod.fst ++ [id] := by
  unfold joinRelationship
  refine (Emits.ask (Q := fun relationship own => own = [] ∧
    reviewedRelationship digests boundary root.resource id = .ok relationship) fun _ ok => ⟨rfl, ok⟩).bind ?_
  rintro relationship _ ⟨rfl, taken⟩
  have reviewed := reviewedRelationship_ok taken
  refine (Emits.ask (Q := fun links own => own = [] ∧ relationshipLinks root.resource relationship = .ok links)
    fun _ ok => ⟨rfl, ok⟩).bind ?_
  rintro links _ ⟨rfl, linked⟩
  obtain ⟨same, linkedSame, proven⟩ := reviewed.path
  obtain rfl := Except.ok.inj (linked.symm.trans linkedSame)
  have path : JoinPath root.resource ([] ++ links) := ⟨relationship, reviewed.member, links, linked, List.prefix_rfl⟩
  refine (joinLinks_emits apart inside ok path (by simp [Joined.near]) proven).bind ?_
  rintro reached own ⟨emitted, fine, near, leads, kept⟩
  refine .pure ⟨by simpa using emitted, ⟨fine.joins, fine.names, fine.found, fine.tables, fine.prefixes, ?_⟩, by simp [kept]⟩
  intro target member
  rcases List.mem_append.mp member with member | member
  · exact fine.targets target member
  · rw [List.mem_singleton] at member
    subst member
    refine ⟨?_, near⟩
    unfold relationshipResource
    rw [taken]
    exact leads

theorem joinRelationships_emits (apart : TellsApart digests boundary) (inside : root.resource ∈ boundary.resources)
    (ids : List Text) : ∀ {joined : Joined}, JoinsOk digests boundary context root joined →
      Emits (joinRelationships digests boundary context root ids joined) fun result own =>
        joinPlaceholders result.joins = joinPlaceholders joined.joins ++ own ∧
        JoinsOk digests boundary context root result ∧
        result.targets.map Prod.fst = joined.targets.map Prod.fst ++ ids := by
  induction ids with
  | nil =>
    intro joined ok
    exact .pure ⟨by simp, ok, by simp⟩
  | cons id rest ih =>
    intro joined ok
    rw [joinRelationships]
    refine (joinRelationship_emits apart inside ok id).bind ?_
    rintro next own ⟨emitted, nextOk, named⟩
    refine (ih nextOk).mono ?_
    rintro result more ⟨later, fine, all⟩
    exact ⟨by simp [later, emitted], fine, by simp [all, named]⟩

/-- Joins for some relationships lead to the table of each. -/
structure JoinsFor (digests : Digests) (boundary : ActivatedExplorationBoundary) (context : TrustedContext)
    (root : TableUse) (ids : List Text) (joined : Joined) : Prop extends JoinsOk digests boundary context root joined where
  all : joined.targets.map Prod.fst = ids

theorem compileReviewedRelationshipJoins_emits (apart : TellsApart digests boundary)
    (found : resourceFor boundary root.resource.id = .ok root.resource) (ids : List Text) :
    Emits (compileReviewedRelationshipJoins digests boundary context root ids) fun joined own =>
      joinPlaceholders joined.joins = own ∧ JoinsFor digests boundary context root ids joined := by
  have start : JoinsOk digests boundary context root ⟨[], [], [root.resource], []⟩ := by
    refine ⟨by simp, rfl, ?_, ?_, by simp, by simp⟩
    · intro r member
      rw [List.mem_singleton] at member
      subst member
      exact found
    · intro t member
      have own : t = root := by simpa [Joined.near] using member
      simp [own]
  refine (joinRelationships_emits apart (resourceFor_mem found) ids start).mono ?_
  rintro joined own ⟨emitted, ok, all⟩
  exact ⟨by simpa [joinPlaceholders] using emitted, ok, by simpa using all⟩

/-- The table of a field with a relationship that is joined. -/
theorem JoinsFor.tableFor {ids : List Text} {joined : Joined} (ok : JoinsFor digests boundary context root ids joined)
    {relationship : Option Text} (listed : ∀ id, given relationship = some id → id ∈ ids) :
    targetResource digests boundary root.resource (given relationship) =
        .ok (joined.tableFor root relationship).resource ∧
      joined.tableFor root relationship ∈ Joined.near joined root := by
  unfold Joined.tableFor
  cases named : given relationship with
  | none => exact ⟨rfl, by simp [Joined.near]⟩
  | some id =>
    have present : id ∈ joined.targets.map Prod.fst := by
      rw [ok.all]
      exact listed id named
    obtain ⟨table, found⟩ := entry_of_mem present
    obtain ⟨leads, near⟩ := ok.targets _ (entry_mem found)
    dsimp only
    rw [found]
    exact ⟨leads, near⟩

end

end SynapsorRunner.ExploreJoins
