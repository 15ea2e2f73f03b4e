import SynapsorRunner.DslRestrictions
import SynapsorRunner.JoinedReads
import SynapsorRunner.ReadPlanning

/-!
What the statements of read capabilities read. Their placeholders stand in the text in the
order in which the values are bound, for either style and through joins, bands and compared
periods (`runtimeReadQuery_aligned`). Every table in a statement is held to the trusted
context where it has keys for that, the root in its conditions and a joined table in those of
its join; so what is outside of the scope has no part in what a statement reads
(`runtimeReadQuery_confined`).
-/
namespace SynapsorRunner.ScopedReads
open SynapsorRunner.Protocol SynapsorRunner.NumberedParameters SynapsorRunner.ReadPlanning
open SynapsorRunner.Proposals (bind_eq_ok)
open SynapsorRunner.Dsl (forall₂_mapM_ok)

/-! ### Placeholders in a text -/

@[simp] theorem placeholders_nil : placeholders [] = [] := rfl

@[simp] theorem placeholders_append (a b : Tokens) : placeholders (a ++ b) = placeholders a ++ placeholders b := by
  simp [placeholders]

@[simp] theorem placeholders_text (s : String) (rest : Tokens) : placeholders (.text s :: rest) = placeholders rest := rfl

@[simp] theorem placeholders_quoted (s : String) (rest : Tokens) :
    placeholders (.quoted s :: rest) = placeholders rest := rfl

@[simp] theorem placeholders_column (c : ColumnRef) (rest : Tokens) :
    placeholders (.column c :: rest) = placeholders rest := rfl

@[simp] theorem placeholders_placeholder (p : Placeholder Scalar) (rest : Tokens) :
    placeholders (.placeholder p :: rest) = p :: placeholders rest := rfl

@[simp] theorem placeholders_separated (separator : String) (parts : List Tokens) :
    placeholders (separated separator parts) = parts.flatMap placeholders := by
  induction parts with
  | nil => rfl
  | cons part rest ih =>
    cases rest with
    | nil => simp [separated]
    | cons next more =>
      have unfolded : separated separator (part :: next :: more) =
          part ++ .text separator :: separated separator (next :: more) := rfl
      rw [unfolded, placeholders_append, placeholders_text, ih, List.flatMap_cons, List.flatMap_cons, List.flatMap_cons]

@[simp] theorem placeholders_clause (keyword : String) (parts : List Tokens) :
    placeholders (clause keyword parts) = parts.flatMap placeholders := by
  unfold clause
  cases parts with
  | nil => rfl
  | cons part rest => simp

theorem placeholders_flatMap {α : Type} (f : α → Tokens) (items : List α) :
    placeholders (items.flatMap f) = items.flatMap fun item => placeholders (f item) := by
  induction items with
  | nil => rfl
  | cons item rest ih => rw [List.flatMap_cons, placeholders_append, ih, List.flatMap_cons]

/-- What is compiled without values has no placeholders. -/
theorem silent_of_mapM {α β : Type} {f : α → Except McpRuntimeError β} (view : β → List (Placeholder Scalar))
    {items : List α} {results : List β} (compiled : items.mapM f = .ok results)
    (silent : ∀ item result, f item = .ok result → view result = []) : results.flatMap view = [] := by
  have each := forall₂_mapM_ok compiled
  clear compiled
  induction each with
  | nil => rfl
  | cons here _ ih => rw [List.flatMap_cons, silent _ _ here, ih, List.nil_append]

def Condition.bound : Condition → List (Placeholder Scalar)
  | .equalColumns _ _ | .null _ _ => []
  | .compare _ _ value => [value]
  | .isOneOf _ values => values

@[simp] theorem placeholders_condition (condition : Condition) :
    placeholders condition.tokens = Condition.bound condition := by
  cases condition with
  | isOneOf column values => simp [Condition.tokens, Condition.bound, List.flatMap_map]
  | _ => rfl

def boundBy (conditions : List Condition) : List (Placeholder Scalar) := conditions.flatMap Condition.bound

@[simp] theorem boundBy_nil : boundBy [] = [] := rfl

@[simp] theorem boundBy_cons (condition : Condition) (rest : List Condition) :
    boundBy (condition :: rest) = Condition.bound condition ++ boundBy rest := rfl

@[simp] theorem boundBy_append (a b : List Condition) : boundBy (a ++ b) = boundBy a ++ boundBy b := by
  simp [boundBy]

@[simp] theorem placeholders_allOf (conditions : List Condition) : placeholders (allOf conditions) = boundBy conditions := by
  simp [allOf, boundBy, List.flatMap_map]

@[simp] theorem placeholders_whereTokens (conditions : List Condition) :
    placeholders (whereTokens conditions) = boundBy conditions := by
  unfold whereTokens
  cases conditions with
  | nil => rfl
  | cons c rest => simp

@[simp] theorem placeholders_join (join : Join) : placeholders join.tokens = boundBy join.conditions := by
  simp [Join.tokens]

/-- A statement has the placeholders of its items, of its joins and of its conditions. -/
theorem placeholders_select (s : Select) : placeholders s.tokens = s.items.flatMap placeholders ++
    s.joins.flatMap (fun join => boundBy join.conditions) ++ boundBy s.conditions ++ placeholders s.stop := by
  simp [Select.tokens, placeholders_flatMap]

theorem exists_of_forall₂ {α β : Type} {R : α → β → Prop} {items : List α} {results : List β}
    (related : List.Forall₂ R items results) {result : β} (member : result ∈ results) : ∃ item ∈ items, R item result := by
  induction related with
  | nil => cases member
  | cons here _ ih =>
    rcases List.mem_cons.mp member with rfl | later
    · exact ⟨_, List.mem_cons_self, here⟩
    · obtain ⟨item, listed, holds⟩ := ih later
      exact ⟨item, List.mem_cons_of_mem _ listed, holds⟩

theorem flatMap_flatten {α β : Type} (f : α → List β) (parts : List (List α)) :
    parts.flatten.flatMap f = parts.flatMap fun part => part.flatMap f := by
  induction parts with
  | nil => rfl
  | cons part rest ih => simp [ih]

/-! ### Plain reads -/

/-- Placeholders with the numbers after `start`, for values. -/
def numberedFrom (start : ℕ) (values : List Scalar) : List (Placeholder Scalar) :=
  (values.zipIdx start).map fun (value, index) => ⟨index + 1, value⟩

theorem numberedFrom_append (start : ℕ) (first second : List Scalar) :
    numberedFrom start (first ++ second) = numberedFrom start first ++ numberedFrom (start + first.length) second := by
  simp [numberedFrom, List.zipIdx_append]

/-- Placeholders in the order of their numbers, for the values of a query. -/
structure Aligned (own : List (Placeholder Scalar)) (values : List Scalar) : Prop where
  numbers : own.map Placeholder.index = List.range' 1 values.length
  values : own.map Placeholder.value = values

theorem aligned_numberedFrom (values : List Scalar) : Aligned (numberedFrom 0 values) values := by
  constructor
  · rw [numberedFrom, List.map_map]
    apply List.ext_getElem <;> simp [Nat.add_comm]
  · rw [numberedFrom, List.map_map]
    apply List.ext_getElem <;> simp

theorem numbered_is {column : Column} {index : ℕ} {value : Scalar} {condition : Condition}
    (compiled : numbered column index value = .ok condition) :
    condition = .compare ⟨.bare, column⟩ .eq ⟨index, value⟩ := by
  obtain ⟨name, quoted, compiled⟩ := bind_eq_ok compiled
  cases compiled
  unfold quoteIdentifier at quoted
  split at quoted
  · cases quoted
    rfl
  · cases quoted

/-- A table is held to a value where it has the key for it. -/
def HeldTo (conditions : List Condition) (table : TableAlias) (key : Option Column) (value : String) : Prop :=
  ∀ column, truthy key = some column → ∃ index, Condition.compare ⟨table, column⟩ .eq ⟨index, .str value⟩ ∈ conditions

structure ScopedBy (context : TrustedContext) (table : TableAlias) (tenantKey principalScopeKey : Option Column)
    (conditions : List Condition) : Prop where
  tenant : HeldTo conditions table tenantKey context.tenantId
  principal : HeldTo conditions table principalScopeKey context.principal

theorem ScopedBy.mono {context : TrustedContext} {table : TableAlias} {tenantKey principalScopeKey : Option Column}
    {conditions more : List Condition} (scope : ScopedBy context table tenantKey principalScopeKey conditions)
    (all : ∀ c ∈ conditions, c ∈ more) : ScopedBy context table tenantKey principalScopeKey more := by
  constructor
  · intro column key
    obtain ⟨index, member⟩ := scope.tenant column key
    exact ⟨index, all _ member⟩
  · intro column key
    obtain ⟨index, member⟩ := scope.principal column key
    exact ⟨index, all _ member⟩

/-- A key whose condition has a number of its own. -/
theorem numberedKey_is {key : Option Column} {index : ℕ} {value : Scalar} {conditions : List Condition}
    (compiled : (truthy key).toList.mapM (fun column => numbered column index value) = .ok conditions) :
    conditions = (truthy key).toList.map fun column => .compare ⟨.bare, column⟩ .eq ⟨index, value⟩ := by
  have each := forall₂_mapM_ok compiled
  clear compiled
  generalize (truthy key).toList = columns at each
  induction each with
  | nil => rfl
  | cons here _ ih => rw [numbered_is here, ih, List.map_cons]

theorem heldTo_numberedKey (key : Option Column) (index : ℕ) (value : String) :
    HeldTo ((truthy key).toList.map fun column => .compare ⟨.bare, column⟩ .eq ⟨index, .str value⟩) .bare key value := by
  intro column here
  exact ⟨index, by simp [here]⟩

/-- A target with a principal key has a tenant key. -/
def TenantFirst (target : ReadTarget) : Prop :=
  (truthy target.principalScopeKey).isSome = true → (truthy target.tenantKey).isSome = true

/-- The conditions that hold a plain read to its context, after `n` others. -/
def scopeConditions (target : ReadTarget) (context : TrustedContext) (n : ℕ) : List Condition :=
  (truthy target.tenantKey).toList.map (fun column => .compare ⟨.bare, column⟩ .eq ⟨n + 1, .str context.tenantId⟩) ++
    (truthy target.principalScopeKey).toList.map fun column => .compare ⟨.bare, column⟩ .eq ⟨n + 2, .str context.principal⟩

theorem boundBy_scopeConditions {target : ReadTarget} (tenantFirst : TenantFirst target) (context : TrustedContext) (n : ℕ) :
    boundBy (scopeConditions target context n) = numberedFrom n (scopeValues target context) := by
  unfold TenantFirst at tenantFirst
  unfold scopeConditions scopeValues
  cases tenant : truthy target.tenantKey with
  | none =>
    cases principal : truthy target.principalScopeKey with
    | none => rfl
    | some key => simp [tenant, principal] at tenantFirst
  | some key => cases principal : truthy target.principalScopeKey <;> rfl

theorem scopedBy_scopeConditions (target : ReadTarget) (context : TrustedContext) (n : ℕ) :
    ScopedBy context .bare target.tenantKey target.principalScopeKey (scopeConditions target context n) := by
  constructor
  · intro column here
    obtain ⟨index, member⟩ := heldTo_numberedKey target.tenantKey (n + 1) context.tenantId column here
    exact ⟨index, List.mem_append_left _ member⟩
  · intro column here
    obtain ⟨index, member⟩ := heldTo_numberedKey target.principalScopeKey (n + 2) context.principal column here
    exact ⟨index, List.mem_append_right _ member⟩

theorem numberedTerms_bound {terms : List ColumnValue} {start : ℕ} {conditions : List Condition}
    (compiled : (terms.zipIdx start).mapM (fun (term, index) => numbered term.column (index + 1) term.value) =
      .ok conditions) : boundBy conditions = numberedFrom start (terms.map (·.value)) := by
  have each := forall₂_mapM_ok compiled
  clear compiled
  induction terms generalizing start conditions with
  | nil =>
    cases each
    rfl
  | cons term rest ih =>
    rw [List.zipIdx_cons] at each
    obtain ⟨condition, more, here, there, rfl⟩ := List.forall₂_cons_left_iff.mp each
    rw [numbered_is here, boundBy_cons, ih there]
    rfl

theorem fixedConditions_is {target : ReadTarget} {terms : List ColumnValue} {context : TrustedContext}
    {conditions : List Condition} (compiled : fixedConditions target terms context = .ok conditions) :
    ∃ fixed, boundBy fixed = numberedFrom 0 (terms.map (·.value)) ∧
      conditions = fixed ++ scopeConditions target context terms.length := by
  obtain ⟨fixed, first, compiled⟩ := bind_eq_ok compiled
  obtain ⟨tenant, second, compiled⟩ := bind_eq_ok compiled
  obtain ⟨principal, third, compiled⟩ := bind_eq_ok compiled
  cases compiled
  refine ⟨fixed, numberedTerms_bound first, ?_⟩
  rw [numberedKey_is second, numberedKey_is third, List.append_assoc]
  rfl

theorem columnTokens_silent {table : TableAlias} {column : Column} {tokens : Tokens}
    (compiled : columnTokens table column = .ok tokens) : placeholders tokens = [] := by
  obtain ⟨name, -, compiled⟩ := bind_eq_ok compiled
  cases compiled
  rfl

/-- The tables of a statement are the reviewed ones, each held to the context. -/
structure Scoped (context : TrustedContext) (target : ReadTarget) (paths : List RelationshipPath) (s : Select) :
    Prop where
  schema : s.schema = target.schema
  table : s.table = target.table
  root : s.root = .root ∨ s.root = .bare
  conditions : ScopedBy context s.root target.tenantKey target.principalScopeKey s.conditions
  joins : ∀ join ∈ s.joins, ∃ path index reviewed link, paths[path]? = some reviewed ∧
    reviewed.links[index]? = some link ∧ join.name = .link path index ∧ join.schema = link.schema ∧
    join.table = link.table ∧ ScopedBy context join.name link.tenantKey link.principalScopeKey join.conditions

theorem quoteIdentifier_is {identifier name : String} (quoted : quoteIdentifier identifier = .ok name) :
    name = identifier := by
  unfold quoteIdentifier at quoted
  split at quoted
  · cases quoted
    rfl
  · cases quoted

/-- A statement of `buildSelect` has the conditions of its scope behind others, whose values
    `queryValues` lists. -/
theorem buildSelect_is {capability : Capability} {args : Arguments} {context : TrustedContext} {s : Select}
    {values : List Scalar} (compiled : buildSelect capability ((args capability.idFromArg).getD .null) context = .ok s)
    (listed : queryValues capability args context = .ok values) :
    ∃ fixed own, boundBy fixed = numberedFrom 0 own ∧ values = own ++ scopeValues capability.target context ∧
      s.conditions = fixed ++ scopeConditions capability.target context own.length ∧ s.root = .bare ∧ s.joins = [] ∧
      s.schema = capability.target.schema ∧ s.table = capability.target.table ∧
      s.items.flatMap placeholders = [] ∧ placeholders s.stop = [] := by
  unfold buildSelect at compiled
  unfold queryValues at listed
  simp only at compiled
  split at compiled
  · cases compiled
  · split at compiled
    next aggregates =>
      rw [if_pos aggregates] at listed
      cases listed
      split at compiled
      · cases compiled
      · rename_i aggregate found
        obtain ⟨conditions, fixed, compiled⟩ := bind_eq_ok compiled
        obtain ⟨expression, expressed, compiled⟩ := bind_eq_ok compiled
        obtain ⟨schema, schemaIs, compiled⟩ := bind_eq_ok compiled
        obtain ⟨table, tableIs, compiled⟩ := bind_eq_ok compiled
        cases compiled
        obtain ⟨terms, bound, rfl⟩ := fixedConditions_is fixed
        have silent : placeholders expression = [] := by
          unfold aggregateExpression at expressed
          split at expressed
          · cases expressed
            rfl
          · obtain ⟨column, named, expressed⟩ := bind_eq_ok expressed
            cases expressed
            simp [columnTokens_silent named]
        refine ⟨terms, _, bound, by simp [found], by simp, rfl, rfl, quoteIdentifier_is schemaIs,
          quoteIdentifier_is tableIs, by simp [silent], rfl⟩
    next single =>
      rw [if_neg single] at listed
      obtain ⟨columns, named, compiled⟩ := bind_eq_ok compiled
      have silent : columns.flatMap placeholders = [] := silent_of_mapM _ named fun _ _ => columnTokens_silent
      split at compiled
      next selects =>
        rw [if_pos selects] at listed
        cases listed
        obtain ⟨conditions, fixed, compiled⟩ := bind_eq_ok compiled
        obtain ⟨schema, schemaIs, compiled⟩ := bind_eq_ok compiled
        obtain ⟨table, tableIs, compiled⟩ := bind_eq_ok compiled
        obtain ⟨primaryKey, keyIs, compiled⟩ := bind_eq_ok compiled
        cases compiled
        obtain ⟨terms, bound, rfl⟩ := fixedConditions_is fixed
        refine ⟨terms, _, bound, rfl, by simp, rfl, rfl, quoteIdentifier_is schemaIs, quoteIdentifier_is tableIs,
          silent, by simp [columnTokens_silent keyIs]⟩
      next looksUp =>
        rw [if_neg looksUp] at listed
        unfold lookupValue at listed
        cases given : args capability.idFromArg with
        | none =>
          rw [given] at listed
          cases listed
        | some key =>
          rw [given] at listed compiled
          cases listed
          obtain ⟨found, foundIs, compiled⟩ := bind_eq_ok compiled
          obtain ⟨tenant, tenantIs, compiled⟩ := bind_eq_ok compiled
          obtain ⟨principal, principalIs, compiled⟩ := bind_eq_ok compiled
          obtain ⟨schema, schemaIs, compiled⟩ := bind_eq_ok compiled
          obtain ⟨table, tableIs, compiled⟩ := bind_eq_ok compiled
          cases compiled
          rw [numbered_is foundIs, numberedKey_is tenantIs, numberedKey_is principalIs]
          exact ⟨[_], [key], rfl, rfl, rfl, rfl, rfl, quoteIdentifier_is schemaIs, quoteIdentifier_is tableIs, silent, rfl⟩

/-! ### Protected reads -/

section
variable {α β : Type} {R : β → List (Placeholder Scalar) → Prop}

theorem after_required {x : Except McpRuntimeError α} {f : α → Reader β} (next : ∀ a, x = .ok a → Emits (f a) R) :
    Emits (required x >>= f) R := by
  refine (Emits.ask (Q := fun a own => x = .ok a ∧ own = []) fun _ compiled => ⟨compiled, rfl⟩).bind ?_
  rintro a _ ⟨compiled, rfl⟩
  exact next a compiled

theorem after_bound {value : Scalar} {f : Placeholder Scalar → Reader β}
    (next : ∀ index, Emits (f ⟨index, value⟩) fun b own => R b (⟨index, value⟩ :: own)) :
    Emits (bindValue value >>= f) R := by
  refine (Emits.bindValue (Q := fun p own => p.value = value ∧ own = [p]) fun _ => ⟨rfl, rfl⟩).bind ?_
  rintro ⟨index, _⟩ _ ⟨rfl, rfl⟩
  exact next index

end

theorem scopeCondition_emits (table : TableAlias) (key : Option Column) (value : String) :
    Emits (scopeCondition table key value) fun conditions own =>
      boundBy conditions = own ∧ HeldTo conditions table key value := by
  unfold scopeCondition
  cases here : truthy key with
  | none => exact .pure ⟨rfl, fun column found => by rw [here] at found; cases found⟩
  | some column =>
    refine after_required fun name quoted => ?_
    obtain rfl := quoteIdentifier_is quoted
    refine after_bound fun index => ?_
    refine .pure ⟨rfl, fun column found => ⟨index, ?_⟩⟩
    rw [here] at found
    cases found
    exact List.mem_singleton_self _

theorem trustedScope_emits (context : TrustedContext) (table : TableAlias) (tenantKey principalScopeKey : Option Column) :
    Emits (trustedScope context table tenantKey principalScopeKey) fun conditions own =>
      boundBy conditions = own ∧ ScopedBy context table tenantKey principalScopeKey conditions := by
  unfold trustedScope
  refine (scopeCondition_emits _ _ _).bind ?_
  rintro tenant _ ⟨rfl, one⟩
  refine (scopeCondition_emits _ _ _).bind ?_
  rintro principal _ ⟨rfl, two⟩
  refine .pure ⟨by simp, ?_, ?_⟩
  · intro column here
    obtain ⟨index, member⟩ := one column here
    exact ⟨index, List.mem_append_left _ member⟩
  · intro column here
    obtain ⟨index, member⟩ := two column here
    exact ⟨index, List.mem_append_right _ member⟩

theorem linkConditions_emits (context : TrustedContext) (source own : TableAlias) (link : RelationshipLink) :
    Emits (linkConditions context source own link) fun conditions placeholders =>
      boundBy conditions = placeholders ∧
        ScopedBy context own link.tenantKey link.principalScopeKey conditions := by
  unfold linkConditions
  refine after_required fun localKey _ => ?_
  refine after_required fun targetKey _ => ?_
  refine (trustedScope_emits _ _ _ _).bind ?_
  rintro scope _ ⟨rfl, held⟩
  exact .pure ⟨by simp [Condition.bound], held.mono fun c member => List.mem_cons_of_mem _ member⟩

/-- The joins of the links of a path from one on. -/
def JoinsOf (context : TrustedContext) (path start : ℕ) (links : List RelationshipLink) (join : Join) : Prop :=
  ∃ index link, links[index]? = some link ∧ join.name = .link path (start + index) ∧ join.schema = link.schema ∧
    join.table = link.table ∧ ScopedBy context join.name link.tenantKey link.principalScopeKey join.conditions

def boundByJoins (joins : List Join) : List (Placeholder Scalar) := joins.flatMap fun join => boundBy join.conditions

theorem linkJoins_emits (context : TrustedContext) (path start : ℕ) (source : TableAlias) (keepNull : Bool)
    (links : List RelationshipLink) : Emits (linkJoins context path start source keepNull links) fun joins own =>
      boundByJoins joins = own ∧ ∀ join ∈ joins, JoinsOf context path start links join := by
  induction links generalizing start source keepNull with
  | nil => exact .pure ⟨rfl, by simp⟩
  | cons link rest ih =>
    unfold linkJoins
    refine (linkConditions_emits _ _ _ _).bind ?_
    rintro conditions _ ⟨rfl, held⟩
    refine after_required fun schema schemaIs => ?_
    refine after_required fun table tableIs => ?_
    refine (ih _ _ _).bind ?_
    rintro more _ ⟨rfl, others⟩
    refine .pure ⟨by simp [boundByJoins], ?_⟩
    intro join member
    rcases List.mem_cons.mp member with rfl | later
    · exact ⟨0, link, rfl, rfl, quoteIdentifier_is schemaIs, quoteIdentifier_is tableIs, held⟩
    · obtain ⟨index, found, at_, named, rest⟩ := others join later
      exact ⟨index + 1, found, at_, by rw [named, Nat.add_right_comm, Nat.add_assoc], rest⟩

theorem fromClause_emits (target : ReadTarget) (paths : List RelationshipPath) (context : TrustedContext) :
    Emits (fromClause target paths context) fun clause own => boundByJoins clause.2.2 = own ∧
      clause.1 = target.schema ∧ clause.2.1 = target.table ∧ ∀ join ∈ clause.2.2, ∃ path reviewed,
        paths[path]? = some reviewed ∧ JoinsOf context path 0 reviewed.links join := by
  unfold fromClause
  refine (Emits.mapM boundByJoins (P := fun entry joins => ∀ join ∈ joins, JoinsOf context entry.2 0 entry.1.links join)
    fun entry _ => linkJoins_emits context entry.2 0 .root false entry.1.links).bind ?_
  rintro joins _ ⟨rfl, each⟩
  refine after_required fun schema schemaIs => ?_
  refine after_required fun table tableIs => ?_
  have flat : boundByJoins joins.flatten = joins.flatMap boundByJoins := flatMap_flatten _ _
  refine .pure ⟨by simp [flat], quoteIdentifier_is schemaIs, quoteIdentifier_is tableIs, ?_⟩
  intro join member
  obtain ⟨own, listed, inside⟩ := List.mem_flatten.mp member
  obtain ⟨⟨reviewed, path⟩, entry, joinsOf⟩ := exists_of_forall₂ each listed
  exact ⟨path, reviewed, List.mem_zipIdx_iff_getElem?.mp entry, joinsOf join inside⟩

theorem bindValue_emits (value : Scalar) :
    Emits (bindValue (E := McpRuntimeError) value) fun p own => own = [p] :=
  .bindValue fun _ => rfl

theorem rangeConditions_emits (column : Except McpRuntimeError ColumnRef) (start stop : Except McpRuntimeError Scalar) :
    Emits (rangeConditions column start stop) fun conditions own => boundBy conditions = own := by
  unfold rangeConditions
  refine after_required fun column _ => ?_
  refine after_required fun start _ => ?_
  refine after_bound fun first => ?_
  refine after_required fun stop _ => ?_
  refine after_bound fun last => ?_
  exact .pure rfl

theorem predicateCondition_emits (paths : List RelationshipPath) (args : Arguments) (predicate : Predicate) :
    Emits (predicateCondition paths args predicate) fun condition own => Condition.bound condition = own := by
  cases predicate with
  | isOneOf name relationship values =>
    refine after_required fun column _ => ?_
    refine (Emits.mapM (fun p => [p]) (P := fun _ _ => True) fun value _ =>
      (bindValue_emits value).mono fun _ _ same => ⟨same.symm, trivial⟩).bind ?_
    rintro bound _ ⟨rfl, -⟩
    exact .pure (by simp [Condition.bound])
  | compare name relationship operator value =>
    refine after_required fun column _ => ?_
    refine after_required fun value _ => ?_
    by_cases missing : value = .null
    · rw [if_pos missing]
      by_cases ordered : operator ≠ .eq ∧ operator ≠ .neq
      · rw [if_pos ordered]
        exact .ask fun _ refused => by cases refused
      · rw [if_neg ordered]
        exact .pure rfl
    · rw [if_neg missing]
      refine after_bound fun p => ?_
      exact .pure rfl

theorem scopedWhere_emits (target : ReadTarget) (read : ProtectedRead) (paths : List RelationshipPath) (args : Arguments)
    (context : TrustedContext) : Emits (scopedWhere target read paths args context) fun conditions own =>
      boundBy conditions = own ∧ ScopedBy context .root target.tenantKey target.principalScopeKey conditions := by
  unfold scopedWhere
  refine (trustedScope_emits _ _ _ _).bind ?_
  rintro scope _ ⟨rfl, held⟩
  refine (Emits.mapM boundBy (P := fun _ _ => True) fun window _ =>
    (rangeConditions_emits _ _ _).mono fun _ _ same => ⟨same, trivial⟩).bind ?_
  rintro window _ ⟨rfl, -⟩
  refine (Emits.mapM Condition.bound (P := fun _ _ => True) fun predicate _ =>
    (predicateCondition_emits _ _ _).mono fun _ _ same => ⟨same, trivial⟩).bind ?_
  rintro predicates _ ⟨rfl, -⟩
  refine .pure ⟨?_, held.mono fun c member => by simp [member]⟩
  have windowed : boundBy window.flatten = window.flatMap boundBy := flatMap_flatten _ _
  rw [boundBy_append, boundBy_append, windowed, List.append_assoc]
  simp [boundBy]

theorem rowOrder_silent {target : ReadTarget} {read : ProtectedRead} {paths : List RelationshipPath} {tokens : Tokens}
    (compiled : rowOrder target read paths = .ok tokens) : placeholders tokens = [] := by
  unfold rowOrder at compiled
  split at compiled
  · obtain ⟨name, -, compiled⟩ := bind_eq_ok compiled
    cases compiled
    rfl
  · obtain ⟨parts, each, compiled⟩ := bind_eq_ok compiled
    cases compiled
    rw [placeholders_text, placeholders_separated]
    refine silent_of_mapM _ each fun order part here => ?_
    obtain ⟨column, -, here⟩ := bind_eq_ok here
    cases here
    rfl

theorem rowsQuery_emits (capability : Capability) (read : ProtectedRead) (args : Arguments) (context : TrustedContext) :
    Emits (rowsQuery capability read args context) fun s own => placeholders s.tokens = own ∧
      Scoped context capability.target (protectedRelationshipPaths read) s := by
  unfold rowsQuery
  refine (fromClause_emits _ _ _).bind ?_
  rintro ⟨schema, table, joins⟩ _ ⟨rfl, schemaIs, tableIs, joined⟩
  refine after_required fun items named => ?_
  refine (scopedWhere_emits _ _ _ _ _).bind ?_
  rintro conditions _ ⟨rfl, held⟩
  refine after_required fun order ordered => ?_
  refine .pure ⟨?_, schemaIs, tableIs, .inl rfl, held, ?_⟩
  · have silent : items.flatMap placeholders = [] := by
      refine silent_of_mapM _ named fun column item here => ?_
      obtain ⟨name, -, here⟩ := bind_eq_ok here
      cases here
      rfl
    simp [placeholders_select, silent, rowOrder_silent ordered, boundByJoins]
  · intro join member
    obtain ⟨path, reviewed, at_, index, link, rest⟩ := joined join member
    rw [Nat.zero_add] at rest
    exact ⟨path, index, reviewed, link, at_, rest⟩

/-! ### Protected aggregates -/

theorem protectedNumericBandSql_emits (column : ColumnRef) (band : NumericBand) :
    Emits (protectedNumericBandSql column band) fun tokens own => placeholders tokens = own := by
  unfold protectedNumericBandSql
  refine (Emits.mapM placeholders (P := fun _ _ => True) fun bucket _ => ?_).bind ?_
  · refine after_bound fun edge => ?_
    refine after_bound fun label => ?_
    exact .pure ⟨rfl, trivial⟩
  · rintro clauses _ ⟨rfl, -⟩
    refine after_bound fun last => ?_
    exact .pure (by simp)

theorem dimensionItem_emits (paths : List RelationshipPath) (dimension : Dimension) (position : ℕ) :
    Emits (dimensionItem paths dimension position) fun item own =>
      placeholders item.1 = own ∧ placeholders item.2 = [] := by
  unfold dimensionItem
  refine after_required fun column _ => ?_
  cases dimension.numericBand with
  | some band =>
    refine (protectedNumericBandSql_emits _ _).bind ?_
    rintro expression _ rfl
    refine after_required fun name _ => ?_
    exact .pure ⟨by simp, rfl⟩
  | none =>
    refine after_required fun name _ => ?_
    exact .pure ⟨rfl, rfl⟩

theorem protectedTimeBucket_silent (column : ColumnRef) (bucket : Bucket) (style : PlaceholderStyle) :
    placeholders (protectedTimeBucket column bucket style) = [] := by
  cases style <;> cases bucket <;> rfl

theorem bucketItem_silent {style : PlaceholderStyle} {paths : List RelationshipPath} {bucket : TimeBucket}
    {item : Tokens × Tokens} (compiled : bucketItem style paths bucket = .ok item) :
    placeholders item.1 = [] ∧ placeholders item.2 = [] := by
  obtain ⟨column, -, compiled⟩ := bind_eq_ok compiled
  obtain ⟨name, -, compiled⟩ := bind_eq_ok compiled
  cases compiled
  simp [protectedTimeBucket_silent]

theorem protectedAggregateMeasureSql_silent {function : MeasureFunction} {column : Option ColumnRef} {tokens : Tokens}
    (compiled : protectedAggregateMeasureSql function column = .ok tokens) : placeholders tokens = [] := by
  cases column with
  | none =>
    cases function <;> cases compiled
    rfl
  | some c =>
    cases function <;> cases compiled <;> rfl

theorem protectedDerivedOperandSql_silent {paths : List RelationshipPath} {operand : BaseMeasure} {sql : Tokens × Tokens}
    (compiled : protectedDerivedOperandSql paths operand = .ok sql) : placeholders sql.1 = [] ∧ placeholders sql.2 = [] := by
  unfold protectedDerivedOperandSql at compiled
  split at compiled
  · cases compiled
    exact ⟨rfl, rfl⟩
  · split at compiled
    · cases compiled
    · obtain ⟨column, -, compiled⟩ := bind_eq_ok compiled
      obtain ⟨value, valued, compiled⟩ := bind_eq_ok compiled
      cases compiled
      exact ⟨protectedAggregateMeasureSql_silent valued, rfl⟩

theorem measureItems_silent {paths : List RelationshipPath} {measure : Measure} {index : ℕ} {items : List Tokens}
    (compiled : measureItems paths measure index = .ok items) : items.flatMap placeholders = [] := by
  unfold measureItems at compiled
  split at compiled
  · cases compiled
  · obtain ⟨⟨value, contributors⟩, operand, compiled⟩ := bind_eq_ok compiled
    obtain ⟨name, -, compiled⟩ := bind_eq_ok compiled
    cases compiled
    obtain ⟨one, two⟩ := protectedDerivedOperandSql_silent operand
    simp_all
  · obtain ⟨⟨top, topContributors⟩, numerator, compiled⟩ := bind_eq_ok compiled
    obtain ⟨⟨bottom, bottomContributors⟩, denominator, compiled⟩ := bind_eq_ok compiled
    obtain ⟨name, -, compiled⟩ := bind_eq_ok compiled
    cases compiled
    obtain ⟨one, two⟩ := protectedDerivedOperandSql_silent numerator
    obtain ⟨three, four⟩ := protectedDerivedOperandSql_silent denominator
    simp_all
  · obtain ⟨column, -, compiled⟩ := bind_eq_ok compiled
    obtain ⟨expression, expressed, compiled⟩ := bind_eq_ok compiled
    obtain ⟨name, -, compiled⟩ := bind_eq_ok compiled
    cases compiled
    have silent := protectedAggregateMeasureSql_silent expressed
    split <;> cases column <;> simp [silent]

theorem aggregateOrder_silent {aggregate : ProtectedAggregate} {ranged : Bool} {groups : List Tokens} {tokens : Tokens}
    (silent : groups.flatMap placeholders = []) (compiled : aggregateOrder aggregate ranged groups = .ok tokens) :
    placeholders tokens = [] := by
  have grouped : placeholders (clause " ORDER BY " groups) = [] := by rw [placeholders_clause, silent]
  unfold aggregateOrder at compiled
  split at compiled
  · obtain ⟨name, -, compiled⟩ := bind_eq_ok compiled
    cases compiled
    rfl
  · split at compiled
    · cases compiled
      exact grouped
    · split at compiled
      · cases compiled
      · obtain ⟨name, -, compiled⟩ := bind_eq_ok compiled
        cases compiled
        rfl
  · cases compiled
    exact grouped

theorem periodConditions_emits (paths : List RelationshipPath) (aggregate : ProtectedAggregate) (args : Arguments)
    (period : Option Period) :
    Emits (periodConditions paths aggregate args period) fun conditions own => boundBy conditions = own := by
  unfold periodConditions
  split
  · exact rangeConditions_emits _ _ _
  · exact .pure rfl

theorem aggregateQuery_emits (style : PlaceholderStyle) (target : ReadTarget) (read : ProtectedRead)
    (aggregate : ProtectedAggregate) (args : Arguments) (context : TrustedContext) (period : Option Period) :
    Emits (aggregateQuery style target read aggregate args context period) fun s own => placeholders s.tokens = own ∧
      Scoped context target (protectedRelationshipPaths read) s := by
  unfold aggregateQuery
  refine (Emits.mapM (fun item => placeholders item.1) (P := fun _ item => placeholders item.2 = [])
    fun dimension _ => dimensionItem_emits _ _ _).bind ?_
  rintro dimensions _ ⟨rfl, dimensionGroups⟩
  refine after_required fun buckets bucketed => ?_
  refine after_required fun measures measured => ?_
  refine (fromClause_emits _ _ _).bind ?_
  rintro ⟨schema, table, joins⟩ _ ⟨rfl, schemaIs, tableIs, joined⟩
  refine (scopedWhere_emits _ _ _ _ _).bind ?_
  rintro conditions _ ⟨rfl, held⟩
  refine (periodConditions_emits _ _ _ _).bind ?_
  rintro range _ rfl
  refine after_required fun order ordered => ?_
  have groups : (dimensions.map Prod.snd ++ buckets.map Prod.snd).flatMap placeholders = [] := by
    have bucketGroups := silent_of_mapM (fun item => placeholders item.2) bucketed fun _ _ here =>
      (bucketItem_silent here).2
    rw [List.flatMap_append, List.flatMap_map, List.flatMap_map, bucketGroups, List.append_nil,
      List.flatMap_eq_nil_iff]
    intro item member
    obtain ⟨_, -, silent⟩ := exists_of_forall₂ dimensionGroups member
    exact silent
  refine .pure ⟨?_, schemaIs, tableIs, .inl rfl, held.mono fun c member => by simp [member], ?_⟩
  · have bucketItems := silent_of_mapM (fun item => placeholders item.1) bucketed fun _ _ here =>
      (bucketItem_silent here).1
    have measureItems : measures.flatten.flatMap placeholders = [] := by
      rw [flatMap_flatten]
      exact silent_of_mapM _ measured fun _ _ => measureItems_silent
    have grouped := placeholders_clause " GROUP BY " (dimensions.map Prod.snd ++ buckets.map Prod.snd)
    rw [groups] at grouped
    have named : (period.toList.map fun p => [Token.text ("'" ++ p.2 ++ "' AS "), .quoted "__period"]).flatMap
        placeholders = [] := by
      cases period <;> rfl
    have ends := aggregateOrder_silent groups ordered
    rw [placeholders_select]
    simp only [List.flatMap_append, List.flatMap_map, bucketItems, measureItems, named, placeholders_append, grouped, ends,
      boundBy_append, boundByJoins]
    simp
  · intro join member
    obtain ⟨path, reviewed, at_, index, link, rest⟩ := joined join member
    rw [Nat.zero_add] at rest
    exact ⟨path, index, reviewed, link, at_, rest⟩

theorem protectedStatement_emits (style : PlaceholderStyle) (capability : Capability) (read : ProtectedRead)
    (args : Arguments) (context : TrustedContext) :
    Emits (protectedStatement style capability read args context) fun statement own =>
      placeholders statement.tokens = own ∧
        ∀ s ∈ statement.selects, Scoped context capability.target (protectedRelationshipPaths read) s := by
  unfold protectedStatement
  by_cases rows : read.rows = true
  · rw [if_pos rows]
    refine (rowsQuery_emits _ _ _ _).bind ?_
    rintro s _ ⟨rfl, held⟩
    exact .pure ⟨by simp [ReadStatement.tokens], by simpa [ReadStatement.selects] using held⟩
  · rw [if_neg rows]
    cases read.aggregate with
    | none => exact .ask fun _ refused => by cases refused
    | some aggregate =>
      simp only
      split
      · refine (aggregateQuery_emits _ _ _ _ _ _ _).bind ?_
        rintro s _ ⟨rfl, held⟩
        exact .pure ⟨by simp [ReadStatement.tokens], by simpa [ReadStatement.selects] using held⟩
      · refine (Emits.mapM (fun s => placeholders s.tokens) (P := fun _ s =>
          Scoped context capability.target (protectedRelationshipPaths read) s) fun range _ =>
            aggregateQuery_emits _ _ _ _ _ _ _).bind ?_
        rintro parts _ ⟨rfl, held⟩
        refine .pure ⟨by simp [ReadStatement.tokens, List.flatMap_map], ?_⟩
        intro s member
        obtain ⟨_, -, reviewed⟩ := exists_of_forall₂ held member
        exact reviewed

/-! ### The order of the values -/

def ticketTarget : ReadTarget := ⟨"public", "tickets", "id", some "tenant_id", some "assigned_to"⟩

def ticketCustomer : RelationshipPath :=
  ⟨"customer", ⟨"public", "customers", some "tenant_id", none, "customer_id", "id", true⟩, []⟩

/-- Tickets by the size of their customers, in two periods. -/
def ticketsBySize : Capability where
  kind := .read
  target := ticketTarget
  idFromArg := ""
  visibleColumns := []
  maxRows := none
  aggregate := none
  operation := none
  conflictColumn := none
  protectedRead := some
    { rows := false, predicates := [.compare "status" none .eq (.fromArg "status")], relationship := none
      relationships := [ticketCustomer], timeWindow := none, rowOrderBy := []
      aggregate := some
        { measures := [⟨"tickets", .plain ⟨.count, none, none⟩⟩]
          dimensions := [⟨"size", "seats", some "customer", some ⟨[(10, "small"), (100, "medium")], "large"⟩⟩]
          timeBucket := none
          comparison := some ⟨"opened_at", none, [(.fixed (.str "2026-01"), .fixed (.str "2026-02")),
            (.fixed (.str "2026-02"), .fixed (.str "2026-03"))]⟩
          orderBy := none }
      maxRows := 0, maxGroups := 20, maxRankedGroups := none }

def openTickets : Arguments := fun name => if name = "status" then some (.str "open") else none

def agent : TrustedContext := ⟨"acme", "alice"⟩

theorem ticketsBySize_compiles : ∃ query, runtimeReadQuery .question ticketsBySize openTickets agent = .ok query ∧
    query.statement.selects.length = 2 ∧ query.values.length = 22 := by
  have sizes : (runtimeReadQuery .question ticketsBySize openTickets agent).toOption.map
      (fun query => (query.statement.selects.length, query.values.length)) = some (2, 22) := by decide +kernel
  cases compiled : runtimeReadQuery .question ticketsBySize openTickets agent with
  | error e =>
    rw [compiled] at sizes
    cases sizes
  | ok query =>
    rw [compiled] at sizes
    exact ⟨query, rfl, Prod.mk.inj (Option.some.inj sizes)⟩

abbrev Row := Column → Scalar

/-- How a database compares values. -/
abbrev Compare := CompareOperator → Scalar → Scalar → Bool

variable (compare : Compare)

/-- No comparison holds of a missing value. -/
def compares (operator : CompareOperator) (a b : Scalar) : Bool :=
  decide (a ≠ .null) && decide (b ≠ .null) && compare operator a b

open JoinedReads (Joined Step Read HeldWithin)

def valueAt (rows : Joined TableAlias Row) (column : ColumnRef) : Scalar :=
  ((rows column.table).map (· column.name)).getD .null

def meets (rows : Joined TableAlias Row) : Condition → Bool
  | .equalColumns left right => compares compare .eq (valueAt rows left) (valueAt rows right)
  | .compare column operator value => compares compare operator (valueAt rows column) value.value
  | .isOneOf column values => values.any fun p => compares compare .eq (valueAt rows column) p.value
  | .null column negated => decide (valueAt rows column = .null) != negated

def joinStep (join : Join) : Step TableAlias (String × String) Row :=
  ⟨join.name, (join.schema, join.table), join.keepNull, fun rows => join.conditions.all (meets compare rows)⟩

/-- The joined rows that a statement selects from; its items, groups, order and limit are of
    these rows only. -/
def readOf (s : Select) : Read TableAlias (String × String) Row :=
  ⟨s.root, (s.schema, s.table), s.joins.map (joinStep compare), fun rows => s.conditions.all (meets compare rows)⟩

/-- Whether a row of a table with keys is the tenant's and the principal's. -/
def inScope (context : TrustedContext) (tenantKey principalScopeKey : Option Column) (row : Row) : Bool :=
  (truthy tenantKey).all (fun key => compares compare .eq (row key) (.str context.tenantId)) &&
    (truthy principalScopeKey).all fun key => compares compare .eq (row key) (.str context.principal)

/-- Databases have the same rows of a table within the scope, in the same order. -/
def AgreeOn (context : TrustedContext) (db db' : String × String → List Row) (table : String × String)
    (tenantKey principalScopeKey : Option Column) : Prop :=
  (db table).filter (inScope compare context tenantKey principalScopeKey) =
    (db' table).filter (inScope compare context tenantKey principalScopeKey)

theorem heldTo_row {conditions : List Condition} {table : TableAlias} {key : Option Column} {value : String}
    (held : HeldTo conditions table key value) {rows : Joined TableAlias Row} {row : Row} (here : rows table = some row)
    (met : conditions.all (meets compare rows) = true) :
    (truthy key).all (fun key => compares compare .eq (row key) (.str value)) = true := by
  cases found : truthy key with
  | none => rfl
  | some column =>
    obtain ⟨index, member⟩ := held column found
    have one := List.all_eq_true.mp met _ member
    simpa [meets, valueAt, here] using one

theorem heldWithin_scope {context : TrustedContext} {table : TableAlias} {tenantKey principalScopeKey : Option Column}
    {conditions : List Condition} (scope : ScopedBy context table tenantKey principalScopeKey conditions) :
    HeldWithin (fun rows => conditions.all (meets compare rows)) table
      (inScope compare context tenantKey principalScopeKey) := by
  intro rows row here met
  unfold inScope
  rw [heldTo_row compare scope.tenant here met, heldTo_row compare scope.principal here met]
  rfl

/-- The scope of the table under an alias. -/
def scopeOf (context : TrustedContext) (target : ReadTarget) (paths : List RelationshipPath) : TableAlias → Row → Bool
  | .link path index => ((paths[path]?).bind fun reviewed => reviewed.links[index]?).elim (fun _ => true) fun link =>
    inScope compare context link.tenantKey link.principalScopeKey
  | _ => inScope compare context target.tenantKey target.principalScopeKey

theorem Scoped.rows_eq {context : TrustedContext} {target : ReadTarget} {paths : List RelationshipPath} {s : Select}
    (reviewed : Scoped context target paths s) {db db' : String × String → List Row}
    (root : AgreeOn compare context db db' (target.schema, target.table) target.tenantKey target.principalScopeKey)
    (links : ∀ path ∈ paths, ∀ link ∈ path.links,
      AgreeOn compare context db db' (link.schema, link.table) link.tenantKey link.principalScopeKey) :
    (readOf compare s).rows db = (readOf compare s).rows db' := by
  have rootScope : scopeOf compare context target paths s.root =
      inScope compare context target.tenantKey target.principalScopeKey := by
    rcases reviewed.root with isRoot | isRoot <;> rw [isRoot] <;> rfl
  have joined : ∀ step ∈ (readOf compare s).steps, step.name ≠ s.root ∧
      HeldWithin step.condition step.name (scopeOf compare context target paths step.name) ∧
      (db step.table).filter (scopeOf compare context target paths step.name) =
        (db' step.table).filter (scopeOf compare context target paths step.name) := by
    intro step member
    obtain ⟨join, listed, rfl⟩ := List.mem_map.mp member
    obtain ⟨path, index, p, link, at_, found, named, schemaIs, tableIs, held⟩ := reviewed.joins join listed
    have scopeIs : scopeOf compare context target paths join.name =
        inScope compare context link.tenantKey link.principalScopeKey := by
      rw [named]
      simp [scopeOf, at_, found]
    refine ⟨?_, ?_, ?_⟩
    · rcases reviewed.root with isRoot | isRoot <;> rw [isRoot, joinStep, named] <;> simp
    · rw [joinStep, scopeIs]
      exact heldWithin_scope compare held
    · rw [joinStep, scopeIs, schemaIs, tableIs]
      exact links p (List.mem_of_getElem? at_) link (List.mem_of_getElem? found)
  refine JoinedReads.rows_congr (scopeOf compare context target paths) (fun step member => (joined step member).1)
    ?_ (fun step member => (joined step member).2.1) ?_ fun step member => (joined step member).2.2
  · rw [readOf, rootScope]
    exact heldWithin_scope compare reviewed.conditions
  · rw [readOf, rootScope, reviewed.schema, reviewed.table]
    exact root

/-- What is outside of the trusted scope has no part in what a read capability reads: databases
    that agree within the scope, on the table of the target and on every linked table, give
    each of its statements the same rows. -/
theorem runtimeReadQuery_confined {style : PlaceholderStyle} {capability : Capability} {args : Arguments}
    {context : TrustedContext} {query : ReadQuery}
    (compiled : runtimeReadQuery style capability args context = .ok query) {db db' : String × String → List Row}
    (root : AgreeOn compare context db db' (capability.target.schema, capability.target.table) capability.target.tenantKey
      capability.target.principalScopeKey)
    (links : ∀ read, capability.protectedRead = some read → ∀ path ∈ protectedRelationshipPaths read,
      ∀ link ∈ path.links, AgreeOn compare context db db' (link.schema, link.table) link.tenantKey link.principalScopeKey) :
    ∀ s ∈ query.statement.selects, (readOf compare s).rows db = (readOf compare s).rows db' := by
  intro s member
  unfold runtimeReadQuery at compiled
  cases reads : capability.protectedRead with
  | some read =>
    rw [reads] at compiled
    obtain ⟨⟨statement, values⟩, run, compiled⟩ := bind_eq_ok compiled
    cases compiled
    obtain ⟨own, -, -, -, each⟩ := protectedStatement_emits style capability read args context _ _ _ run
    exact (each s member).rows_eq compare root (links read reads)
  | none =>
    rw [reads] at compiled
    obtain ⟨built, selected, compiled⟩ := bind_eq_ok compiled
    obtain ⟨values, listed, compiled⟩ := bind_eq_ok compiled
    cases compiled
    obtain rfl := List.mem_singleton.mp member
    obtain ⟨fixed, own, -, -, conditions, isRoot, joins, schemaIs, tableIs, -⟩ := buildSelect_is selected listed
    have reviewed : Scoped context capability.target [] s := by
      refine ⟨schemaIs, tableIs, .inr isRoot, ?_, by simp [joins]⟩
      rw [isRoot, conditions]
      exact (scopedBy_scopeConditions _ _ _).mono fun c inside => List.mem_append_right _ inside
    exact reviewed.rows_eq compare root (by simp)

/-- A database that compares values for equality only. -/
def plainly : Compare := fun operator a b => operator == .eq && decide (a = b)

def rowOf (entries : List (Column × Scalar)) : Row := fun column => (entries.lookup column).getD .null

def ownTicket : Row := rowOf [("id", .str "T-1"), ("tenant_id", .str "acme"), ("assigned_to", .str "alice"),
  ("customer_id", .str "C-1"), ("status", .str "open")]

def foreignTicket : Row := rowOf [("id", .str "T-2"), ("tenant_id", .str "umbrella"), ("assigned_to", .str "alice"),
  ("customer_id", .str "C-1"), ("status", .str "open")]

def ownCustomer : Row := rowOf [("id", .str "C-1"), ("tenant_id", .str "acme"), ("seats", .num 12)]

def foreignCustomer : Row := rowOf [("id", .str "C-1"), ("tenant_id", .str "umbrella"), ("seats", .num 400)]

def sharedDatabase (table : String × String) : List Row :=
  if table = ("public", "tickets") then [foreignTicket, ownTicket] else [ownCustomer, foreignCustomer]

def ownDatabase (table : String × String) : List Row :=
  if table = ("public", "tickets") then [ownTicket] else [ownCustomer]

theorem ticketsBySize_confined : ∃ query, runtimeReadQuery .question ticketsBySize openTickets agent = .ok query ∧
    query.statement.selects.length = 2 ∧ ∀ s ∈ query.statement.selects,
      (readOf plainly s).rows sharedDatabase = (readOf plainly s).rows ownDatabase := by
  obtain ⟨query, compiled, parts, -⟩ := ticketsBySize_compiles
  refine ⟨query, compiled, parts, runtimeReadQuery_confined plainly compiled rfl ?_⟩
  intro read reads path member link listed
  cases reads
  obtain rfl := List.mem_singleton.mp member
  obtain rfl := List.mem_singleton.mp listed
  rfl

end SynapsorRunner.ScopedReads
