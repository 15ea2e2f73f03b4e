import SynapsorRunner.ExploreCompiler
import SynapsorRunner.ReviewedPlans

/-!
Which columns a boundary reviews for which use (`ReviewedFor`), and when a table is held to
its trusted scope (`ScopedTo`): by its own column, or by the column of an ancestor that its
reviewed links lead to. The conditions that are compiled for a table hold it to its scope,
name reviewed columns only and read resources that are listed
(`compileScopePredicates_emits`).
-/
namespace SynapsorRunner.ExploreScopes
open SynapsorRunner.NumberText SynapsorRunner.JsonText SynapsorRunner.Proposals SynapsorRunner.ExploreBoundaries
open SynapsorRunner.ExplorePlans SynapsorRunner.NumberedParameters SynapsorRunner.ExploreSql
open SynapsorRunner.ExploreCompiler
open SynapsorRunner.ComplementReleases (Operator AggregateMeasureFunction)
set_option linter.unusedSimpArgs false

/-! ### Reviewed columns -/

/-- A link of a relationship or of a derived scope of the boundary. -/
def LinkReviewed (boundary : ActivatedExplorationBoundary) (link : RelationshipLinkProof) : Prop :=
  ∃ resource ∈ boundary.resources,
    (∃ relationship ∈ resource.relationships, ∃ links,
      relationshipLinks resource relationship = .ok links ∧ link ∈ links) ∨
    ∃ kind scope, scopePath resource kind = some scope ∧ link ∈ scope.proof.links

/-- A boundary reviews a field of a resource for a use. -/
def ReviewedFor (boundary : ActivatedExplorationBoundary) (resource : BoundaryResource) (field : Text) : Use → Prop
  | .scope kind => scopeKey resource kind = some field
  | .primaryKey => field = resource.primaryKey
  | .select => field ∈ resource.selectableFields
  | .sort => field ∈ resource.sortableFields
  | .group => field ∈ resource.groupableFields
  | .values => resource.enumValues field ≠ [] ∧
      (field ∈ resource.selectableFields ∨ (entry resource.filterableFields field).getD [] ≠ [])
  | .filter op => op ∈ (entry resource.filterableFields field).getD []
  | .timeWindow => (entry resource.timeBucketFields field).isSome = true
  | .timeBucket bucket => bucket ∈ (entry resource.timeBucketFields field).getD []
  | .band => field ∈ resource.aggregateMeasures
  | .autoBand => field ∈ resource.aggregateMeasures ∧ ∃ policy ∈ resource.autoBands, policy.field = field
  | .measure function => measureAllowed resource function (some field) = true
  | .operand function => (function = .countDistinct ∧ field ∈ resource.countDistinctFields) ∨
      (function ∈ [AggregateMeasureFunction.sum, .avg] ∧ field ∈ resource.aggregateMeasures)
  | .linkSource link => LinkReviewed boundary link ∧ link.sourceResource = resource.id ∧ field ∈ link.sourceColumns
  | .linkTarget link => LinkReviewed boundary link ∧ link.targetResource = resource.id ∧ field ∈ link.targetColumns

structure Reviewed (boundary : ActivatedExplorationBoundary) (column : ColumnUse) : Prop where
  resource : column.table.resource ∈ boundary.resources
  use : ReviewedFor boundary column.table.resource column.field column.use

/-- Tokens that name reviewed columns of the tables at hand, or of those that they bring. -/
def Named (boundary : ActivatedExplorationBoundary) (near : List TableUse) (tokens : Tokens) : Prop :=
  ∀ column ∈ columns tokens, (column.table ∈ near ∨ column.table ∈ tables tokens) ∧ Reviewed boundary column

theorem Named.mono {boundary : ActivatedExplorationBoundary} {near further : List TableUse} {tokens : Tokens}
    (named : Named boundary near tokens) (more : ∀ t ∈ near, t ∈ further) : Named boundary further tokens := by
  intro column member
  obtain ⟨inside, reviewed⟩ := named column member
  exact ⟨inside.imp_left (more _), reviewed⟩

theorem Named.append {boundary : ActivatedExplorationBoundary} {near : List TableUse} {a b : Tokens}
    (first : Named boundary near a) (second : Named boundary near b) : Named boundary near (a ++ b) := by
  intro column member
  rw [columns_append, List.mem_append] at member
  rw [tables_append, List.mem_append]
  rcases member with member | member
  · obtain ⟨inside, reviewed⟩ := first column member
    exact ⟨inside.imp_right .inl, reviewed⟩
  · obtain ⟨inside, reviewed⟩ := second column member
    exact ⟨inside.imp_right .inr, reviewed⟩

/-- Tokens of an expression over the tables at hand. -/
structure Expression (boundary : ActivatedExplorationBoundary) (near : List TableUse) (tokens : Tokens) : Prop where
  plain : tables tokens = []
  columns : ∀ column ∈ ExploreSql.columns tokens, column.table ∈ near ∧ Reviewed boundary column

theorem Expression.named {boundary : ActivatedExplorationBoundary} {near : List TableUse} {tokens : Tokens}
    (expression : Expression boundary near tokens) : Named boundary near tokens := fun column member =>
  ⟨.inl (expression.columns column member).1, (expression.columns column member).2⟩

theorem Expression.mono {boundary : ActivatedExplorationBoundary} {near further : List TableUse} {tokens : Tokens}
    (expression : Expression boundary near tokens) (more : ∀ t ∈ near, t ∈ further) :
    Expression boundary further tokens :=
  ⟨expression.plain, fun column member =>
    ⟨more _ (expression.columns column member).1, (expression.columns column member).2⟩⟩

/-! ### Trusted scopes -/

/-- Links lead from a table along the tables of a derived scope to another table. -/
inductive Leads (boundary : ActivatedExplorationBoundary) :
    TableUse → List RelationshipLinkProof → List ScopeStep → TableUse → Prop where
  | here (table : TableUse) : Leads boundary table [] [] table
  | there {source last : TableUse} {link : RelationshipLinkProof} {rest : List RelationshipLinkProof}
      {step : ScopeStep} {more : List ScopeStep}
      (starts : link.sourceResource = source.resource.id) (required : link.nullable = false) (proven : link.proven = true)
      (found : resourceFor boundary link.targetResource = .ok step.table.resource)
      (equal : onLink source step.table link = .ok step.equalities)
      (further : Leads boundary step.table rest more last) : Leads boundary source (link :: rest) (step :: more) last

/-- A condition by which a column is equal to a text. -/
def equalTo (table : TableUse) (field : Text) (kind : ScopeKind) (index : ℕ) (value : Text) : Tokens :=
  [.column ⟨table, field, .scope kind⟩, lit " = ", .placeholder ⟨index, textValue value⟩]

/-- A condition holds a table to a value of its own scope column, or of that of the ancestor
    that its derived scope leads to. -/
inductive HeldTo (boundary : ActivatedExplorationBoundary) (table : TableUse) (kind : ScopeKind) (value : Text) :
    Condition → Prop where
  | direct {key : Text} {index : ℕ} (own : scopeKey table.resource kind = some key) :
      HeldTo boundary table kind value (.plain (equalTo table key kind index value))
  | derived {scope : DerivedScopePath} {path : ScopePath} {last : TableUse} {index : ℕ}
      (reviewed : scopePath table.resource kind = some scope)
      (leads : Leads boundary table scope.proof.links (path.first :: path.more) last)
      (ancestor : last.resource.id = scope.ancestorResource)
      (key : scopeKey last.resource kind = some scope.ancestorColumn)
      (ends : path.last = equalTo last scope.ancestorColumn kind index value) :
      HeldTo boundary table kind value (.within path)

def hasScope (resource : BoundaryResource) (kind : ScopeKind) : Prop :=
  (given (scopeKey resource kind)).isSome ∨ (scopePath resource kind).isSome

/-- A table with a tenant or principal scope is held to the tenant and the principal. -/
def ScopedTo (boundary : ActivatedExplorationBoundary) (context : TrustedContext) (table : TableUse)
    (conditions : List Condition) : Prop :=
  ∀ kind, hasScope table.resource kind →
    ∃ condition ∈ conditions, HeldTo boundary table kind (context.value kind) condition

/-! ### Links -/

/-- A reviewed link from one table to another. -/
structure Linked (boundary : ActivatedExplorationBoundary) (source target : TableUse) (link : RelationshipLinkProof) :
    Prop where
  reviewed : LinkReviewed boundary link
  start : link.sourceResource = source.resource.id
  stop : link.targetResource = target.resource.id
  source : source.resource ∈ boundary.resources
  target : target.resource ∈ boundary.resources

section
variable {digests : Digests} {boundary : ActivatedExplorationBoundary} {context : TrustedContext}

theorem linkEqualities_plain {source target : TableUse} {link : RelationshipLinkProof}
    (linked : Linked boundary source target link) {left right : List Text} {equalities : List Tokens}
    (ok : linkEqualities source target link left right = .ok equalities) (lefts : ∀ c ∈ left, c ∈ link.sourceColumns)
    (rights : ∀ c ∈ right, c ∈ link.targetColumns) :
    ∀ equality ∈ equalities, placeholders equality = [] ∧ Expression boundary [source, target] equality := by
  induction left generalizing right equalities with
  | nil =>
    cases ok
    simp
  | cons column rest ih =>
    cases right with
    | nil => cases ok
    | cons other others =>
      rw [linkEqualities] at ok
      iterate 2 obtain ⟨_, -, ok⟩ := bind_eq_ok ok
      obtain ⟨more, later, ok⟩ := bind_eq_ok ok
      cases ok
      intro equality member
      rcases List.mem_cons.mp member with rfl | member
      · refine ⟨rfl, rfl, ?_⟩
        intro named inside
        simp only [columns_column, columns_lit, columns_nil, List.mem_cons, List.not_mem_nil, or_false] at inside
        rcases inside with rfl | rfl
        · exact ⟨by simp, linked.source, linked.reviewed, linked.start, lefts _ (by simp)⟩
        · exact ⟨by simp, linked.target, linked.reviewed, linked.stop, rights _ (by simp)⟩
      · exact ih later (fun c inside => lefts c (by simp [inside])) (fun c inside => rights c (by simp [inside]))
          equality member

theorem onLink_plain {source target : TableUse} {link : RelationshipLinkProof}
    (linked : Linked boundary source target link) {equalities : List Tokens}
    (ok : onLink source target link = .ok equalities) :
    ∀ equality ∈ equalities, placeholders equality = [] ∧ Expression boundary [source, target] equality :=
  linkEqualities_plain linked ok (fun _ member => member) (fun _ member => member)

/-! ### Derived scopes -/

/-- What the steps of a derived scope are. -/
structure Steps (boundary : ActivatedExplorationBoundary) (kind : ScopeKind) (start : TableName) (source : TableUse)
    (index : ℕ) (links : List RelationshipLinkProof) (steps : List ScopeStep) : Prop where
  leads : Leads boundary source links steps ((steps.map ScopeStep.table).getLastD source)
  names : steps.map (fun step => step.table.name) = (List.range' index steps.length).map (TableName.step start kind)
  found : ∀ step ∈ steps, resourceFor boundary step.table.resource.id = .ok step.table.resource
  plain : ∀ step ∈ steps, ∀ equality ∈ step.equalities,
    placeholders equality = [] ∧ Expression boundary (source :: steps.map ScopeStep.table) equality

theorem resourceFor_self {id : Text} {resource : BoundaryResource} (found : resourceFor boundary id = .ok resource) :
    resourceFor boundary resource.id = .ok resource := by
  rw [resourceFor_id found]
  exact found

theorem scopeSteps_spec {kind : ScopeKind} {start source : TableUse} {visited : List Text} {index : ℕ}
    {links : List RelationshipLinkProof} {steps : List ScopeStep}
    (ok : scopeSteps boundary kind start source visited index links = .ok steps)
    (inside : source.resource ∈ boundary.resources) (reviewed : ∀ link ∈ links, LinkReviewed boundary link) :
    Steps boundary kind start.name source index links steps := by
  induction links generalizing source visited index steps with
  | nil =>
    cases ok
    exact ⟨.here _, rfl, by simp, by simp⟩
  | cons link rest ih =>
    rw [scopeSteps] at ok
    obtain ⟨⟨⟩, continuous, ok⟩ := bind_eq_ok ok
    obtain ⟨resource, found, ok⟩ := bind_eq_ok ok
    obtain ⟨⟨⟩, -, ok⟩ := bind_eq_ok ok
    obtain ⟨equalities, equal, ok⟩ := bind_eq_ok ok
    obtain ⟨more, later, ok⟩ := bind_eq_ok ok
    cases ok
    rw [check_ok_iff] at continuous
    obtain ⟨starts, -, required, proven, -⟩ := continuous
    have linked : Linked boundary source ⟨.step start.name kind index, resource⟩ link :=
      ⟨reviewed link (by simp), starts, (resourceFor_id found).symm, inside, resourceFor_mem found⟩
    have next := ih later (resourceFor_mem found) fun l member => reviewed l (by simp [member])
    refine ⟨.there starts required proven found equal ?_, ?_, ?_, ?_⟩
    · rw [List.map_cons, List.getLastD_cons]
      exact next.leads
    · simp only [List.map_cons, next.names, List.length_cons, List.range'_succ]
    · intro step member
      rcases List.mem_cons.mp member with rfl | member
      · exact resourceFor_self found
      · exact next.found step member
    · intro step member equality listed
      rcases List.mem_cons.mp member with rfl | member
      · obtain ⟨silent, plain⟩ := onLink_plain linked equal equality listed
        exact ⟨silent, plain.mono (by simp)⟩
      · obtain ⟨silent, plain⟩ := next.plain step member equality listed
        exact ⟨silent, plain.mono fun t near => List.mem_cons_of_mem _ near⟩

/-- What the conditions for one kind of scope of a table are. -/
structure KindScoped (boundary : ActivatedExplorationBoundary) (context : TrustedContext) (kind : ScopeKind)
    (table : TableUse) (conditions : List Condition) (resources : List BoundaryResource) : Prop where
  named : ∀ condition ∈ conditions, Named boundary [table] condition.tokens
  held : hasScope table.resource kind →
    ∃ condition ∈ conditions, HeldTo boundary table kind (context.value kind) condition
  found : ∀ resource ∈ resources, resourceFor boundary resource.id = .ok resource
  listed : ∀ condition ∈ conditions, ∀ t ∈ tables condition.tokens, t.resource ∈ resources
  distinct : ((conditions.flatMap fun condition => tables condition.tokens).map TableUse.name).Nodup
  names : ∀ condition ∈ conditions, ∀ t ∈ tables condition.tokens, ∃ index, t.name = .step table.name kind index

/-- The placeholders of some conditions. -/
def conditionPlaceholders (conditions : List Condition) : List (Placeholder Parameter) :=
  conditions.flatMap fun condition => placeholders condition.tokens

theorem tables_within (path : ScopePath) (first : ∀ equality ∈ path.first.equalities, tables equality = [])
    (more : ∀ step ∈ path.more, ∀ equality ∈ step.equalities, tables equality = []) (last : tables path.last = []) :
    tables path.tokens = (path.first :: path.more).map ScopeStep.table := by
  have none : ∀ equalities : List Tokens, (∀ equality ∈ equalities, tables equality = []) →
      equalities.flatMap tables = [] := by
    intro equalities silent
    simpa [List.flatMap_eq_nil_iff] using silent
  have joined : ∀ steps : List ScopeStep, (∀ step ∈ steps, ∀ equality ∈ step.equalities, tables equality = []) →
      tables (steps.flatMap fun step =>
        lit " JOIN " :: .table step.table :: lit " ON " :: separated " AND " step.equalities) =
      steps.map ScopeStep.table := by
    intro steps silent
    induction steps with
    | nil => rfl
    | cons step rest ih =>
      rw [List.flatMap_cons, tables_append, ih fun s member => silent s (by simp [member])]
      simp [none _ (silent step (by simp))]
  unfold ScopePath.tokens
  simp [joined _ more, none _ first, last]

theorem placeholders_within (path : ScopePath) (first : ∀ equality ∈ path.first.equalities, placeholders equality = [])
    (more : ∀ step ∈ path.more, ∀ equality ∈ step.equalities, placeholders equality = []) :
    placeholders path.tokens = placeholders path.last := by
  have none : ∀ equalities : List Tokens, (∀ equality ∈ equalities, placeholders equality = []) →
      equalities.flatMap placeholders = [] := by
    intro equalities silent
    simpa [List.flatMap_eq_nil_iff] using silent
  have joined : ∀ steps : List ScopeStep, (∀ step ∈ steps, ∀ equality ∈ step.equalities, placeholders equality = []) →
      placeholders (steps.flatMap fun step =>
        lit " JOIN " :: .table step.table :: lit " ON " :: separated " AND " step.equalities) = [] := by
    intro steps silent
    induction steps with
    | nil => rfl
    | cons step rest ih =>
      rw [List.flatMap_cons, placeholders_append, ih fun s member => silent s (by simp [member])]
      simp [none _ (silent step (by simp))]
  unfold ScopePath.tokens
  simp [joined _ more, none _ first]

theorem mem_columns_within {path : ScopePath} {column : ColumnUse} (member : column ∈ columns path.tokens) :
    (∃ step ∈ path.first :: path.more, ∃ equality ∈ step.equalities, column ∈ columns equality) ∨
      column ∈ columns path.last := by
  have joined : ∀ steps : List ScopeStep, column ∈ columns (steps.flatMap fun step =>
        lit " JOIN " :: .table step.table :: lit " ON " :: separated " AND " step.equalities) →
      ∃ step ∈ steps, ∃ equality ∈ step.equalities, column ∈ columns equality := by
    intro steps inside
    induction steps with
    | nil => cases inside
    | cons step rest ih =>
      rw [List.flatMap_cons, columns_append, List.mem_append] at inside
      rcases inside with inside | inside
      · simp only [columns_lit, columns_table, columns_separated, List.mem_flatMap] at inside
        exact ⟨step, by simp, inside⟩
      · obtain ⟨other, listed, rest⟩ := ih inside
        exact ⟨other, by simp [listed], rest⟩
  unfold ScopePath.tokens at member
  simp only [columns_append, columns_lit, columns_table, columns_separated, List.cons_append, List.mem_append,
    List.flatMap_append, List.mem_flatMap, columns_nil, List.flatMap_cons, List.flatMap_nil, List.append_nil,
    List.not_mem_nil, or_false] at member
  rcases member with member | member | member
  · obtain ⟨step, listed, rest⟩ := joined _ member
    exact .inl ⟨step, by simp [listed], rest⟩
  · exact .inl ⟨path.first, by simp, member⟩
  · exact .inr member

/-! ### What the conditions of a scope emit -/

theorem columnToken_emits (table : TableUse) (field : Text) (use : Use) :
    Emits (columnToken table field use) fun token own => own = [] ∧ token = .column ⟨table, field, use⟩ := by
  unfold columnToken
  exact (Emits.ask (Q := fun _ own => own = []) fun _ _ => rfl).bind fun _ _ bound => .pure (by simp [bound])

theorem valueToken_emits (value : Parameter) :
    Emits (valueToken value) fun token own => ∃ index, own = [⟨index, value⟩] ∧ token = .placeholder ⟨index, value⟩ := by
  unfold valueToken
  refine (Emits.bindValue (Q := fun placeholder own => ∃ index, own = [⟨index, value⟩] ∧ placeholder = ⟨index, value⟩)
    fun index => ⟨index, rfl, rfl⟩).bind ?_
  rintro _ _ ⟨index, rfl, rfl⟩
  exact .pure ⟨index, rfl, rfl⟩

theorem expression_equalTo {table : TableUse} {field : Text} {kind : ScopeKind} {index : ℕ} {value : Text}
    {near : List TableUse} (inside : table.resource ∈ boundary.resources)
    (key : scopeKey table.resource kind = some field) (listed : table ∈ near) :
    Expression boundary near (equalTo table field kind index value) := by
  refine ⟨rfl, ?_⟩
  intro column member
  simp only [equalTo, columns_column, columns_lit, columns_placeholder, columns_nil, List.mem_singleton] at member
  subst member
  exact ⟨listed, inside, key⟩

theorem lastTable (first : ScopeStep) (more : List ScopeStep) (source : TableUse) :
    ((first :: more).map ScopeStep.table).getLastD source = (more.getLast?.getD first).table := by
  rw [List.map_cons, List.getLastD_cons]
  induction more generalizing first with
  | nil => rfl
  | cons next rest ih =>
    rw [List.map_cons, List.getLastD_cons, ih next]
    cases rest <;> simp [List.getLast?_cons]

theorem mem_lastTable (first : ScopeStep) (more : List ScopeStep) :
    (more.getLast?.getD first).table ∈ (first :: more).map ScopeStep.table := by
  cases last : more.getLast? with
  | none => simp
  | some step => exact List.mem_map_of_mem (List.mem_cons_of_mem _ (List.mem_of_getLast? last))

theorem derivedScopePredicate_emits {kind : ScopeKind} {table : TableUse} {scope : DerivedScopePath}
    (inside : table.resource ∈ boundary.resources) (reviewed : scopePath table.resource kind = some scope) :
    Emits (derivedScopePredicate digests boundary context kind table scope) fun result own =>
      conditionPlaceholders [result.1] = own ∧ KindScoped boundary context kind table [result.1] result.2 := by
  unfold derivedScopePredicate
  refine (Emits.ask (Q := fun _ own => own = []) fun _ _ => rfl).bind ?_
  rintro ⟨⟩ _ rfl
  refine (Emits.ask (Q := fun steps own => own = [] ∧ Steps boundary kind table.name table 0 scope.proof.links steps)
    fun steps ok => ⟨rfl, scopeSteps_spec ok inside fun link member =>
      ⟨table.resource, inside, .inr ⟨kind, scope, reviewed, member⟩⟩⟩).bind ?_
  rintro steps _ ⟨rfl, spec⟩
  refine (Emits.ask (Q := fun ancestor own => own = [] ∧ resourceFor boundary scope.ancestorResource = .ok ancestor)
    fun ancestor ok => ⟨rfl, ok⟩).bind ?_
  rintro ancestor _ ⟨rfl, found⟩
  cases steps with
  | nil => exact .ask fun _ refused => by cases refused
  | cons first more =>
    refine (Emits.ask (Q := fun _ own => own = [] ∧ (more.getLast?.getD first).table.resource.id = ancestor.id ∧
      scopeKey ancestor kind = some scope.ancestorColumn) fun _ ok => ⟨rfl, check_ok_iff.mp ok⟩).bind ?_
    rintro ⟨⟩ _ ⟨rfl, ends, key⟩
    refine (columnToken_emits _ _ _).bind ?_
    rintro _ _ ⟨rfl, rfl⟩
    refine (valueToken_emits _).bind ?_
    rintro _ _ ⟨index, rfl, rfl⟩
    refine .pure ?_
    let last := (more.getLast?.getD first).table
    have named : last ∈ (first :: more).map ScopeStep.table := mem_lastTable first more
    obtain ⟨lastStep, listed, same⟩ := List.mem_map.mp named
    have lastFound : resourceFor boundary last.resource.id = .ok last.resource := by
      rw [← same]
      exact spec.found lastStep listed
    have lastKey : scopeKey last.resource kind = some scope.ancestorColumn := by
      have equal : last.resource = ancestor := by
        rw [ends, resourceFor_id found, found] at lastFound
        exact (Except.ok.inj lastFound).symm
      rw [equal]
      exact key
    have lastPlain : Expression boundary (table :: (first :: more).map ScopeStep.table)
        (equalTo last scope.ancestorColumn kind index (context.value kind)) :=
      expression_equalTo (resourceFor_mem lastFound) lastKey (List.mem_cons_of_mem _ named)
    have steps : tables (ScopePath.tokens ⟨first, more,
        equalTo last scope.ancestorColumn kind index (context.value kind)⟩) = (first :: more).map ScopeStep.table :=
      tables_within _ (fun equality member => (spec.plain first (by simp) equality member).2.plain)
        (fun step member equality inside => (spec.plain step (by simp [member]) equality inside).2.plain) lastPlain.plain
    have emitted : placeholders (ScopePath.tokens ⟨first, more,
        equalTo last scope.ancestorColumn kind index (context.value kind)⟩) =
          [⟨index, textValue (context.value kind)⟩] :=
      placeholders_within _ (fun equality member => (spec.plain first (by simp) equality member).1)
        fun step member equality inside => (spec.plain step (by simp [member]) equality inside).1
    show conditionPlaceholders [.within ⟨first, more,
        equalTo last scope.ancestorColumn kind index (context.value kind)⟩] = [⟨index, textValue (context.value kind)⟩] ∧
      KindScoped boundary context kind table [.within ⟨first, more,
        equalTo last scope.ancestorColumn kind index (context.value kind)⟩]
        ((first :: more).map fun step => step.table.resource)
    refine ⟨by simpa [conditionPlaceholders, Condition.tokens] using emitted, ?_, ?_, ?_, ?_, ?_, ?_⟩
    · intro condition member column inside
      rw [List.mem_singleton] at member
      subst member
      have near : column.table ∈ table :: (first :: more).map ScopeStep.table ∧ Reviewed boundary column := by
        rcases mem_columns_within inside with ⟨step, listed, equality, member, inside⟩ | inside
        · exact (spec.plain step listed equality member).2.columns column inside
        · exact lastPlain.columns column inside
      refine ⟨?_, near.2⟩
      rcases List.mem_cons.mp near.1 with own | other
      · exact .inl (by simp [own])
      · exact .inr (steps ▸ other)
    · intro _
      refine ⟨_, List.mem_singleton.mpr rfl, .derived reviewed ?_ (ends.trans (resourceFor_id found)) lastKey rfl⟩
      rw [← lastTable first more table]
      exact spec.leads
    · intro resource member
      obtain ⟨step, listed, rfl⟩ := List.mem_map.mp member
      exact spec.found step listed
    · intro condition member t inside
      rw [List.mem_singleton] at member
      subst member
      obtain ⟨step, listed, rfl⟩ := List.mem_map.mp (steps ▸ inside)
      exact List.mem_map.mpr ⟨step, listed, rfl⟩
    · rw [List.flatMap_singleton, Condition.tokens, steps, List.map_map]
      have names := spec.names
      rw [show (TableUse.name ∘ ScopeStep.table) = fun step : ScopeStep => step.table.name from rfl, names]
      exact List.Nodup.map (fun a b same => by simpa using same) List.nodup_range'
    · intro condition member t inside
      rw [List.mem_singleton] at member
      subst member
      obtain ⟨step, listed, rfl⟩ := List.mem_map.mp (steps ▸ inside)
      have name : step.table.name ∈ (first :: more).map fun step => step.table.name := List.mem_map_of_mem listed
      rw [spec.names] at name
      obtain ⟨i, -, same⟩ := List.mem_map.mp name
      exact ⟨i, same.symm⟩

theorem scopePredicate_emits (kind : ScopeKind) {table : TableUse} (inside : table.resource ∈ boundary.resources) :
    Emits (scopePredicate digests boundary context kind table) fun result own =>
      conditionPlaceholders result.1 = own ∧ KindScoped boundary context kind table result.1 result.2 := by
  unfold scopePredicate
  cases direct : given (scopeKey table.resource kind) with
  | some key =>
    have own : scopeKey table.resource kind = some key := (Option.filter_eq_some_iff.mp direct).1
    refine (columnToken_emits _ _ _).bind ?_
    rintro _ _ ⟨rfl, rfl⟩
    refine (valueToken_emits _).bind ?_
    rintro _ _ ⟨index, rfl, rfl⟩
    refine .pure ⟨rfl, ?_, ?_, by simp, ?_, by simp [Condition.tokens], ?_⟩
    · intro condition member
      rw [List.mem_singleton] at member
      subst member
      have plain : Expression boundary [table] (equalTo table key kind index (context.value kind)) :=
        expression_equalTo inside own (by simp)
      exact plain.named
    · intro _
      exact ⟨_, List.mem_singleton.mpr rfl, .direct own⟩
    · simp [Condition.tokens]
    · simp [Condition.tokens]
  | none =>
    cases derived : scopePath table.resource kind with
    | some scope =>
      refine (derivedScopePredicate_emits inside derived).bind ?_
      rintro result _ ⟨rfl, spec⟩
      exact .pure ⟨by simp, spec⟩
    | none =>
      refine .pure ⟨rfl, by simp, ?_, by simp, by simp, by simp, by simp⟩
      intro has
      unfold hasScope at has
      rw [direct, derived] at has
      simp at has

/-! ### Resources -/

theorem setResource_mem {resources : List BoundaryResource} {resource r : BoundaryResource}
    (member : r ∈ setResource resources resource) : r ∈ resources ∨ r = resource := by
  unfold setResource at member
  split at member
  · obtain ⟨other, listed, rfl⟩ := List.mem_map.mp member
    by_cases same : other.id = resource.id
    · exact .inr (if_pos same)
    · rw [if_neg same]
      exact .inl listed
  · simpa using member

theorem mem_setResource_self (resources : List BoundaryResource) (resource : BoundaryResource) :
    resource ∈ setResource resources resource := by
  unfold setResource
  split
  · rename_i present
    obtain ⟨other, listed, same⟩ := List.any_eq_true.mp present
    exact List.mem_map.mpr ⟨other, listed, if_pos (by simpa using same)⟩
  · simp

theorem mem_setResource {resources : List BoundaryResource} {resource r : BoundaryResource} (member : r ∈ resources)
    (one : resource.id = r.id → resource = r) : r ∈ setResource resources resource := by
  unfold setResource
  split
  · refine List.mem_map.mpr ⟨r, member, ?_⟩
    by_cases same : r.id = resource.id
    · rw [if_pos same]
      exact one same.symm
    · exact if_neg same
  · simp [member]

/-- Resources that their ids lead to. -/
def AllFound (boundary : ActivatedExplorationBoundary) (resources : List BoundaryResource) : Prop :=
  ∀ resource ∈ resources, resourceFor boundary resource.id = .ok resource

theorem AllFound.eq {resources : List BoundaryResource} (found : AllFound boundary resources)
    {a b : BoundaryResource} (one : a ∈ resources) (two : b ∈ resources) (same : a.id = b.id) : a = b := by
  have first := found a one
  rw [same, found b two] at first
  exact (Except.ok.inj first).symm

theorem foldl_setResource {resources start : List BoundaryResource} (found : AllFound boundary (start ++ resources)) :
    ∀ r, r ∈ resources.foldl setResource start ↔ r ∈ start ++ resources := by
  induction resources generalizing start with
  | nil => simp
  | cons resource rest ih =>
    intro r
    have members : ∀ x, x ∈ setResource start resource ↔ x ∈ start ∨ x = resource := by
      intro x
      refine ⟨setResource_mem, ?_⟩
      rintro (member | rfl)
      · exact mem_setResource member fun same => found.eq (by simp) (by simp [member]) same
      · exact mem_setResource_self _ _
    rw [List.foldl_cons, ih]
    · simp [members, or_assoc]
    · intro x member
      rw [List.mem_append, members] at member
      exact found x (by simpa [or_assoc] using member)

theorem mem_uniqueResources {resources : List BoundaryResource} (found : AllFound boundary resources)
    {r : BoundaryResource} : r ∈ uniqueResources resources ↔ r ∈ resources := by
  unfold uniqueResources
  have all : AllFound boundary ([] ++ resources) := found
  simpa using foldl_setResource all r

/-! ### All the conditions of a table -/

/-- What the conditions of a table are. -/
structure Scoped (boundary : ActivatedExplorationBoundary) (context : TrustedContext) (table : TableUse)
    (conditions : List Condition) (resources : List BoundaryResource) : Prop where
  named : ∀ condition ∈ conditions, Named boundary [table] condition.tokens
  held : ScopedTo boundary context table conditions
  found : AllFound boundary resources
  own : table.resource ∈ resources
  listed : ∀ condition ∈ conditions, ∀ t ∈ tables condition.tokens, t.resource ∈ resources
  distinct : ((conditions.flatMap fun condition => tables condition.tokens).map TableUse.name).Nodup
  names : ∀ condition ∈ conditions, ∀ t ∈ tables condition.tokens, ∃ kind index, t.name = .step table.name kind index

theorem compileScopePredicates_emits (table : TableUse)
    (found : resourceFor boundary table.resource.id = .ok table.resource) :
    Emits (compileScopePredicates digests boundary context table) fun result own =>
      conditionPlaceholders result.1 = own ∧ Scoped boundary context table result.1 result.2 := by
  have inside : table.resource ∈ boundary.resources := resourceFor_mem found
  unfold compileScopePredicates
  refine (Emits.ask (Q := fun _ own => own = []) fun _ _ => rfl).bind ?_
  rintro ⟨⟩ _ rfl
  refine (scopePredicate_emits .tenant inside).bind ?_
  rintro tenant _ ⟨rfl, one⟩
  refine (scopePredicate_emits .principal inside).bind ?_
  rintro principal _ ⟨rfl, two⟩
  have all : AllFound boundary (table.resource :: tenant.2 ++ principal.2) := by
    intro resource member
    simp only [List.cons_append, List.mem_cons, List.mem_append] at member
    rcases member with rfl | member | member
    · exact found
    · exact one.found resource member
    · exact two.found resource member
  refine .pure ⟨by simp [conditionPlaceholders], ?_, ?_, ?_, ?_, ?_, ?_, ?_⟩
  · intro condition member
    rcases List.mem_append.mp member with member | member
    · exact one.named condition member
    · exact two.named condition member
  · intro kind has
    cases kind with
    | tenant =>
      obtain ⟨condition, member, held⟩ := one.held has
      exact ⟨condition, List.mem_append_left _ member, held⟩
    | principal =>
      obtain ⟨condition, member, held⟩ := two.held has
      exact ⟨condition, List.mem_append_right _ member, held⟩
  · intro resource member
    exact all resource ((mem_uniqueResources all).mp member)
  · exact (mem_uniqueResources all).mpr (by simp)
  · intro condition member t named
    refine (mem_uniqueResources all).mpr ?_
    rcases List.mem_append.mp member with member | member
    · simp [one.listed condition member t named]
    · simp [two.listed condition member t named]
  · rw [List.flatMap_append, List.map_append, List.nodup_append]
    refine ⟨one.distinct, two.distinct, ?_⟩
    rintro name first other second rfl
    obtain ⟨t, listed, rfl⟩ := List.mem_map.mp first
    obtain ⟨condition, member, listed⟩ := List.mem_flatMap.mp listed
    obtain ⟨i, tenantName⟩ := one.names condition member t listed
    obtain ⟨u, listed, same⟩ := List.mem_map.mp second
    obtain ⟨condition, member, listed⟩ := List.mem_flatMap.mp listed
    obtain ⟨j, principalName⟩ := two.names condition member u listed
    rw [tenantName, principalName] at same
    cases same
  · intro condition member t listed
    rcases List.mem_append.mp member with member | member
    · obtain ⟨i, name⟩ := one.names condition member t listed
      exact ⟨.tenant, i, name⟩
    · obtain ⟨i, name⟩ := two.names condition member t listed
      exact ⟨.principal, i, name⟩

end

end SynapsorRunner.ExploreScopes
