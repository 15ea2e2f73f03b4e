import SynapsorRunner.Mutations
import SynapsorRunner.ProgramStates
import SynapsorRunner.TableContents

/-!
How a source answers the calls of an adapter about the target of a job, and what
becomes of the table. A SELECT lists rows that meet it, a statement that succeeds
has its effect and counts the rows it touched, and a call that throws has no effect.
The primary key of the target is one: a tenant has no two rows with the same key,
before a statement or after it.
-/
namespace SynapsorRunner.Tables
open SynapsorRunner.Protocol SynapsorRunner.Adapters
open SynapsorRunner.Programs SynapsorRunner.Programs.Program

/-- The places of the rows with a property, each once. -/
structure PlacesOf (p : TableRow → Prop) (table : Table) (places : List Nat) : Prop where
  once : places.Nodup
  mem_iff : ∀ place, place ∈ places ↔ ∃ row, table place = some row ∧ p row

/-- The rows that a SELECT asks for. -/
def Selected (query : Select) (row : TableRow) : Prop :=
  Matches query.conditions row ∧ ∀ i ∈ query.identities, row i.1 ∈ i.2 ∧ row i.1 ≠ .null

/-- A row of an answer shows the columns that it has under their own names. -/
def Shows (query : Select) (row : TableRow) (answer : DbRow) : Prop :=
  ∀ c ∈ query.columns, c = underOwnName c.1 → scalar (answer.get? c.1) = row c.1

/-- The rows of an answer are those that are asked for; a SELECT without columns
    stops at the first. -/
def Answers (query : Select) (table : Table) (rows : List DbRow) : Prop :=
  ∃ all places, PlacesOf (Selected query) table all ∧ places <+: all ∧ (all ≠ [] → places ≠ []) ∧
    (query.columns ≠ [] → places = all) ∧
    List.Forall₂ (fun place answer => ∃ row, table place = some row ∧ Shows query row answer) places rows

/-- The number of rows that a statement reports. -/
def Counts : Statement → Table → Nat → Prop
  | .insert _ _, _, n => n = 1
  | .update _ _ conditions, table, n => ∃ places, PlacesOf (Matches conditions) table places ∧ places.length = n
  | .delete _ conditions, table, n => ∃ places, PlacesOf (Matches conditions) table places ∧ places.length = n

/-- A tenant has no two rows with the same primary key. -/
def Keyed (target : JobTarget) (table : Table) : Prop :=
  ∀ place place' row row', table place = some row → table place' = some row' →
    row target.tenantGuard.column = row' target.tenantGuard.column →
    row target.primaryKey.column = row' target.primaryKey.column → place = place'

/-- One call of an adapter, with its answer, on the target of a job. -/
def TableStep (target : JobTarget) (generated : Column → Prop) :
    Table → Answered SourceCall Answer AdapterError → Table → Prop
  | table, ⟨.select query, .ok rows⟩, table' =>
    table' = table ∧ (query.table = targetTable target → Answers query table rows)
  | table, ⟨.mutate s _, .ok affected⟩, table' =>
    Effect generated s table table' ∧ Keyed target table' ∧ Counts s table affected.count
  | table, _, table' => table' = table

variable {target : JobTarget} {generated : Column → Prop} {table table' : Table}

/-- A call that only reads leaves the table as it is. -/
theorem TableStep.of_reads {c : Answered SourceCall Answer AdapterError} (stepped : TableStep target generated table c table')
    (reads : c.query.Reads) : table' = table := by
  obtain ⟨query, answer⟩ := c
  cases query <;> first
    | exact reads.elim
    | (cases answer with
      | error e => exact stepped
      | ok a => first | exact stepped | exact stepped.1)

/-- The one row that a statement touches, when it counts one. -/
theorem PlacesOf.of_one {p : TableRow → Prop} {places : List Nat} (all : PlacesOf p table places) (one : places.length = 1) :
    ∃ place row, table place = some row ∧ p row ∧
      ∀ place' row', table place' = some row' → p row' → place' = place := by
  obtain ⟨place, rfl⟩ := List.length_eq_one_iff.mp one
  obtain ⟨row, found, has⟩ := (all.mem_iff place).mp (List.mem_singleton.mpr rfl)
  refine ⟨place, row, found, has, fun place' row' found' has' => ?_⟩
  exact List.mem_singleton.mp ((all.mem_iff place').mpr ⟨row', found', has'⟩)

/-- An UPDATE that counts one row changes that one only. -/
theorem effect_update_one {name : TableName} {assignments : List Assignment} {conditions : List Condition}
    (effect : Effect generated (.update name assignments conditions) table table')
    (one : Counts (.update name assignments conditions) table 1) :
    ∃ place row row', table place = some row ∧ Matches conditions row ∧ table' place = some row' ∧
      Updated generated assignments row row' ∧ ∀ place', place' ≠ place → table' place' = table place' := by
  obtain ⟨places, all, count⟩ := one
  obtain ⟨place, row, found, met, only⟩ := all.of_one count
  have here := effect place
  rw [found] at here
  obtain ⟨row', after, updated⟩ := here.of_matches met
  refine ⟨place, row, row', found, met, after, updated, fun place' apart => ?_⟩
  have there := effect place'
  cases other : table place' with
  | none => rwa [other] at there
  | some old =>
    rw [other] at there
    exact there.eq_of_not_matches fun met' => apart (only place' old other met')

/-- A DELETE that counts one row removes that one only. -/
theorem effect_delete_one {name : TableName} {conditions : List Condition}
    (effect : Effect generated (.delete name conditions) table table') (one : Counts (.delete name conditions) table 1) :
    ∃ place row, table place = some row ∧ Matches conditions row ∧ table' place = none ∧
      ∀ place', place' ≠ place → table' place' = table place' := by
  obtain ⟨places, all, count⟩ := one
  obtain ⟨place, row, found, met, only⟩ := all.of_one count
  refine ⟨place, row, found, met, ?_, fun place' apart => ?_⟩
  · rw [effect place, found]
    simp only [deletedAt, met, ↓reduceIte]
  · rw [effect place']
    cases other : table place' with
    | none => rfl
    | some old =>
      have spared : ¬ Matches conditions old := fun met' => apart (only place' old other met')
      simp only [deletedAt, spared, ↓reduceIte]

end SynapsorRunner.Tables
