import SynapsorRunner.Protocol
import SynapsorRunner.NumberedParameters
import SynapsorRunner.ExplorePlans

/-!
The statements that Explore compiles, in pieces: fixed text, quoted names, tables with their
aliases, columns of tables with what they are used for, and placeholders with the values
that they stand for. A statement is read from left to right (`Statement.tokens`); the
conditions that restrict a table stand beside it (`Statement.occurrences`).
-/
namespace SynapsorRunner.ExploreSql
open SynapsorRunner.NumberText SynapsorRunner.JsonText SynapsorRunner.ExploreBoundaries
open SynapsorRunner.ExplorePlans SynapsorRunner.NumberedParameters
open SynapsorRunner.Protocol (Engine)
open SynapsorRunner.ComplementReleases (Operator AggregateMeasureFunction)
set_option linter.unusedSimpArgs false

/-! ### Tokens -/

inductive ScopeKind where
  | tenant
  | principal
  deriving DecidableEq

def ScopeKind.text : ScopeKind → Text
  | tenant => ascii "tenant"
  | principal => ascii "principal"

/-- What a column is named for. -/
inductive Use where
  | scope (kind : ScopeKind)
  | primaryKey
  | select
  | sort
  | group
  | values
  | filter (op : Operator)
  | timeWindow
  | timeBucket (bucket : Text)
  | band
  | autoBand
  | measure (function : AggregateMeasureFunction)
  | operand (function : AggregateMeasureFunction)
  | linkSource (link : RelationshipLinkProof)
  | linkTarget (link : RelationshipLinkProof)

/-- The aliases: `t0`, `t1` and so on for joins, `fc0` or `abc0` for child counts, and
    `st0_tenant_0` for a link of a derived scope. -/
inductive TableName where
  | root
  | joined (index : ℕ)
  | childCount (adaptive : Bool) (index : ℕ)
  | step (source : TableName) (kind : ScopeKind) (index : ℕ)
  deriving DecidableEq

def TableName.text : TableName → Text
  | root => ascii "t0"
  | joined index => ascii "t" ++ ascii (toString index)
  | childCount adaptive index => ascii (if adaptive then "abc" else "fc") ++ ascii (toString index)
  | step source kind index => ascii "s" ++ source.text ++ ascii "_" ++ kind.text ++ ascii "_" ++ ascii (toString index)

structure TableUse where
  name : TableName
  resource : BoundaryResource

structure ColumnUse where
  table : TableUse
  field : Text
  use : Use

/-- The values of parameters: scalars, and the number of rows or groups. -/
inductive Parameter where
  | scalar (value : Json)
  | limit (rows : ℕ)

inductive Token where
  | text (t : Text)
  | label (name : Text)
  | table (table : TableUse)
  | column (column : ColumnUse)
  | placeholder (placeholder : Placeholder Parameter)

abbrev Tokens := List Token

def lit (s : String) : Token := .text (ascii s)

def Token.placeholder? : Token → Option (Placeholder Parameter)
  | placeholder p => some p
  | _ => none

def Token.column? : Token → Option ColumnUse
  | column c => some c
  | _ => none

def Token.table? : Token → Option TableUse
  | table t => some t
  | _ => none

def placeholders (tokens : Tokens) : List (Placeholder Parameter) := tokens.filterMap Token.placeholder?

def columns (tokens : Tokens) : List ColumnUse := tokens.filterMap Token.column?

def tables (tokens : Tokens) : List TableUse := tokens.filterMap Token.table?

/-- Tokens with a text between each two. -/
def separated (separator : String) : List Tokens → Tokens
  | [] => []
  | [part] => part
  | part :: rest => part ++ lit separator :: separated separator rest

/-! ### The text of a statement -/

def quoteUnit : Engine → CodeUnit
  | .postgres => codeUnit 34
  | .mysql => codeUnit 96

/-- `quote`, for a name that it takes. -/
def quoted (engine : Engine) (identifier : Text) : Text :=
  quoteUnit engine :: identifier.flatMap (fun u => if u = quoteUnit engine then [u, u] else [u]) ++ [quoteUnit engine]

def qualified (engine : Engine) (resource : BoundaryResource) : Text :=
  quoted engine resource.schema ++ ascii "." ++ quoted engine resource.table

def placeholderText : Engine → ℕ → Text
  | .postgres, index => ascii "$" ++ ascii (toString index)
  | .mysql, _ => ascii "?"

def Token.sql (engine : Engine) : Token → Text
  | text t => t
  | label name => quoted engine name
  | table t => qualified engine t.resource ++ ascii " " ++ t.name.text
  | column c => c.table.name.text ++ ascii "." ++ quoted engine c.field
  | placeholder p => placeholderText engine p.index

def sql (engine : Engine) (tokens : Tokens) : Text := tokens.flatMap (Token.sql engine)

/-! ### Statements -/

/-- A table of a derived scope, with the columns that link it to the one before it. -/
structure ScopeStep where
  table : TableUse
  equalities : List Tokens

/-- A derived scope: the tables that its links lead to, and what the last one is held to. -/
structure ScopePath where
  first : ScopeStep
  more : List ScopeStep
  last : Tokens

def ScopePath.tokens (path : ScopePath) : Tokens :=
  lit "EXISTS (SELECT 1 FROM " :: .table path.first.table ::
    path.more.flatMap (fun step => lit " JOIN " :: .table step.table :: lit " ON " :: separated " AND " step.equalities) ++
    lit " WHERE " :: separated " AND " (path.first.equalities ++ [path.last]) ++ [lit ")"]

inductive Condition where
  | plain (tokens : Tokens)
  | within (path : ScopePath)

def Condition.tokens : Condition → Tokens
  | plain tokens => tokens
  | within path => path.tokens

def allOf (conditions : List Condition) : Tokens := separated " AND " (conditions.map Condition.tokens)

structure Join where
  keepNull : Bool
  table : TableUse
  conditions : List Condition

def Join.tokens (join : Join) : Tokens :=
  lit (if join.keepNull then " LEFT JOIN " else " JOIN ") :: .table join.table :: lit " ON " :: allOf join.conditions

/-- The rows of a table that belong to one row of the root. -/
structure ChildCount where
  table : TableUse
  conditions : List Condition

def ChildCount.tokens (child : ChildCount) : Tokens :=
  lit "(SELECT COUNT(*) FROM " :: .table child.table :: lit " WHERE " :: allOf child.conditions ++ [lit ")"]

/-- An expression of the select list, with at most one child count in it. -/
structure Item where
  start : Tokens
  child : Option ChildCount
  stop : Tokens

def Item.tokens (item : Item) : Tokens :=
  item.start ++ (item.child.map ChildCount.tokens).getD [] ++ item.stop

structure Statement where
  start : Tokens
  select : List Item
  root : TableUse
  joins : List Join
  conditions : List Condition
  stop : Tokens

def whereTokens : List Condition → Tokens
  | [] => []
  | conditions => lit " WHERE " :: allOf conditions

def Statement.tokens (statement : Statement) : Tokens :=
  statement.start ++ lit "SELECT " :: separated ", " (statement.select.map Item.tokens) ++
    lit " FROM " :: .table statement.root :: statement.joins.flatMap Join.tokens ++
    whereTokens statement.conditions ++ statement.stop

/-- The tables that a statement reads rows of, each with the conditions that restrict it. -/
def Statement.occurrences (statement : Statement) : List (TableUse × List Condition) :=
  (statement.root, statement.conditions) :: statement.joins.map (fun join => (join.table, join.conditions)) ++
    statement.select.filterMap fun item => item.child.map fun child => (child.table, child.conditions)

/-! ### Reading statements -/

section
variable {α : Type} {f : Token → Option α}

theorem filterMap_separated {separator : String} (silent : f (lit separator) = none) (parts : List Tokens) :
    (separated separator parts).filterMap f = parts.flatMap fun part => part.filterMap f := by
  induction parts with
  | nil => rfl
  | cons part rest ih =>
    cases rest with
    | nil => simp [separated]
    | cons next rest =>
      have unfolded : separated separator (part :: next :: rest) =
          part ++ lit separator :: separated separator (next :: rest) := rfl
      rw [unfolded, List.filterMap_append, List.filterMap_cons, silent, ih]
      rfl

theorem filterMap_allOf (silent : ∀ t, f (.text t) = none) (conditions : List Condition) :
    (allOf conditions).filterMap f = conditions.flatMap fun condition => condition.tokens.filterMap f := by
  unfold allOf
  rw [filterMap_separated (silent _), List.flatMap_map]

theorem filterMap_whereTokens (silent : ∀ t, f (.text t) = none) (conditions : List Condition) :
    (whereTokens conditions).filterMap f = conditions.flatMap fun condition => condition.tokens.filterMap f := by
  cases conditions with
  | nil => rfl
  | cons condition rest =>
    rw [whereTokens, List.filterMap_cons, lit, silent]
    · exact filterMap_allOf silent _
    · simp

theorem filterMap_statement (silent : ∀ t, f (.text t) = none) (statement : Statement) :
    statement.tokens.filterMap f = statement.start.filterMap f ++
      (statement.select.flatMap fun item => item.tokens.filterMap f) ++ (f (.table statement.root)).toList ++
      (statement.joins.flatMap fun join => join.tokens.filterMap f) ++
      (statement.conditions.flatMap fun condition => condition.tokens.filterMap f) ++
      statement.stop.filterMap f := by
  unfold Statement.tokens
  simp only [List.filterMap_append, List.cons_append, List.filterMap_cons, lit, silent, filterMap_whereTokens silent,
    List.filterMap_flatMap]
  rw [filterMap_separated (silent _), List.flatMap_map]
  cases f (.table statement.root) <;> simp

theorem filterMap_join (silent : ∀ t, f (.text t) = none) (join : Join) :
    join.tokens.filterMap f = (f (.table join.table)).toList ++
      (join.conditions.flatMap fun condition => condition.tokens.filterMap f) := by
  unfold Join.tokens
  simp only [List.filterMap_cons, lit, silent, filterMap_allOf silent]
  cases f (.table join.table) <;> simp

theorem filterMap_child (silent : ∀ t, f (.text t) = none) (child : ChildCount) :
    child.tokens.filterMap f = (f (.table child.table)).toList ++
      (child.conditions.flatMap fun condition => condition.tokens.filterMap f) := by
  unfold ChildCount.tokens
  simp only [List.cons_append, List.filterMap_cons, lit, silent, List.filterMap_append, filterMap_allOf silent]
  cases f (.table child.table) <;> simp

end

@[simp] theorem placeholders_nil : placeholders [] = [] := rfl

@[simp] theorem placeholders_append (a b : Tokens) : placeholders (a ++ b) = placeholders a ++ placeholders b :=
  List.filterMap_append

@[simp] theorem placeholders_text (t : Text) (rest : Tokens) : placeholders (.text t :: rest) = placeholders rest := rfl

@[simp] theorem placeholders_lit (s : String) (rest : Tokens) : placeholders (lit s :: rest) = placeholders rest := rfl

@[simp] theorem placeholders_label (t : Text) (rest : Tokens) : placeholders (.label t :: rest) = placeholders rest := rfl

@[simp] theorem placeholders_table (t : TableUse) (rest : Tokens) : placeholders (.table t :: rest) = placeholders rest :=
  rfl

@[simp] theorem placeholders_column (c : ColumnUse) (rest : Tokens) :
    placeholders (.column c :: rest) = placeholders rest := rfl

@[simp] theorem placeholders_placeholder (p : Placeholder Parameter) (rest : Tokens) :
    placeholders (.placeholder p :: rest) = p :: placeholders rest := rfl

@[simp] theorem columns_nil : columns [] = [] := rfl

@[simp] theorem columns_append (a b : Tokens) : columns (a ++ b) = columns a ++ columns b := List.filterMap_append

@[simp] theorem columns_text (t : Text) (rest : Tokens) : columns (.text t :: rest) = columns rest := rfl

@[simp] theorem columns_lit (s : String) (rest : Tokens) : columns (lit s :: rest) = columns rest := rfl

@[simp] theorem columns_label (t : Text) (rest : Tokens) : columns (.label t :: rest) = columns rest := rfl

@[simp] theorem columns_table (t : TableUse) (rest : Tokens) : columns (.table t :: rest) = columns rest := rfl

@[simp] theorem columns_column (c : ColumnUse) (rest : Tokens) : columns (.column c :: rest) = c :: columns rest := rfl

@[simp] theorem columns_placeholder (p : Placeholder Parameter) (rest : Tokens) :
    columns (.placeholder p :: rest) = columns rest := rfl

@[simp] theorem tables_nil : tables [] = [] := rfl

@[simp] theorem tables_append (a b : Tokens) : tables (a ++ b) = tables a ++ tables b := List.filterMap_append

@[simp] theorem tables_text (t : Text) (rest : Tokens) : tables (.text t :: rest) = tables rest := rfl

@[simp] theorem tables_lit (s : String) (rest : Tokens) : tables (lit s :: rest) = tables rest := rfl

@[simp] theorem tables_label (t : Text) (rest : Tokens) : tables (.label t :: rest) = tables rest := rfl

@[simp] theorem tables_table (t : TableUse) (rest : Tokens) : tables (.table t :: rest) = t :: tables rest := rfl

@[simp] theorem tables_column (c : ColumnUse) (rest : Tokens) : tables (.column c :: rest) = tables rest := rfl

@[simp] theorem tables_placeholder (p : Placeholder Parameter) (rest : Tokens) :
    tables (.placeholder p :: rest) = tables rest := rfl

@[simp] theorem placeholders_separated (separator : String) (parts : List Tokens) :
    placeholders (separated separator parts) = parts.flatMap placeholders := filterMap_separated rfl parts

@[simp] theorem columns_separated (separator : String) (parts : List Tokens) :
    columns (separated separator parts) = parts.flatMap columns := filterMap_separated rfl parts

@[simp] theorem tables_separated (separator : String) (parts : List Tokens) :
    tables (separated separator parts) = parts.flatMap tables := filterMap_separated rfl parts

end SynapsorRunner.ExploreSql
