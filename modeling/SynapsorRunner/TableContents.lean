import SynapsorRunner.AdapterChecks

/-!
Tables, and what the statements of the adapters do to them. A row has in every
column the scalar that a driver gives for its value, and the database compares
such scalars; a table has rows at some of its places. An inserted row has the values
of its statement, whatever its other columns start with. The columns that the
database sets by itself at an UPDATE are `generated`.
-/
namespace SynapsorRunner.Tables
open SynapsorRunner.Protocol SynapsorRunner.Adapters

abbrev TableRow := Column → Scalar

abbrev Table := Nat → Option TableRow

/-! ### Conditions -/

def conditionValue : Condition → Scalar
  | .equals _ value => value
  | .notDistinct _ value => value

/-- `= NULL` holds of no value. -/
def conditionHolds (row : TableRow) : Condition → Prop
  | .equals column value => row column = value ∧ value ≠ .null
  | .notDistinct column value => row column = value

instance (row : TableRow) : (c : Condition) → Decidable (conditionHolds row c)
  | .equals _ _ => inferInstanceAs (Decidable (_ ∧ _))
  | .notDistinct _ _ => inferInstanceAs (Decidable (_ = _))

/-- The WHERE clause of a statement. -/
def Matches (conditions : List Condition) (row : TableRow) : Prop := ∀ c ∈ conditions, conditionHolds row c

instance (conditions : List Condition) (row : TableRow) : Decidable (Matches conditions row) :=
  inferInstanceAs (Decidable (∀ c ∈ conditions, _))

theorem conditionHolds_value {row : TableRow} {c : Condition} (holds : conditionHolds row c) :
    row c.column = conditionValue c := by
  cases c with
  | equals column value => exact holds.1
  | notDistinct column value => exact holds

theorem Matches.value {conditions : List Condition} {row : TableRow} (holds : Matches conditions row) {c : Condition}
    (member : c ∈ conditions) : row c.column = conditionValue c := conditionHolds_value (holds c member)

/-- The row that conditions describe: the value of the first one on a column, and
    NULL elsewhere. -/
def described (conditions : List Condition) : TableRow := fun column =>
  ((conditions.find? fun c => c.column = column).map conditionValue).getD .null

/-- A row that meets conditions has in their columns what they describe. -/
theorem Matches.described_eq {conditions : List Condition} {row : TableRow} (holds : Matches conditions row)
    {c : Condition} (member : c ∈ conditions) : described conditions c.column = row c.column := by
  have found : (conditions.find? fun d => d.column = c.column).isSome = true :=
    List.find?_isSome.mpr ⟨c, member, by simp⟩
  obtain ⟨d, first⟩ := Option.isSome_iff_exists.mp found
  have same : d.column = c.column := by simpa using List.find?_some first
  have value := holds.value (List.mem_of_find?_eq_some first)
  simp only [described, first, Option.map_some, Option.getD_some, ← value, same]

/-- Conditions that some row meets are met by the row that they describe. -/
theorem Matches.described {conditions : List Condition} {row : TableRow} (holds : Matches conditions row) :
    Matches conditions (described conditions) := by
  intro c member
  have same := holds.described_eq member
  have here := holds c member
  cases c with
  | equals column value => exact ⟨same.trans here.1, here.2⟩
  | notDistinct column value => exact same.trans here

/-! ### Assignments -/

/-- The value that an assignment computes from a row: NULL has no successor but
    itself, and a text or a boolean none at all. -/
def newValue (row : TableRow) : Assignment → Option Scalar
  | .value _ value => some value
  | .increment column => match row column with
    | .num n => some (.num (n + 1))
    | .null => some .null
    | _ => none

/-- No column is assigned twice, and every assignment has a value. -/
def Assignable (assignments : List Assignment) (row : TableRow) : Prop :=
  (assignments.map (·.column)).Nodup ∧ ∀ a ∈ assignments, (newValue row a).isSome = true

instance (assignments : List Assignment) (row : TableRow) : Decidable (Assignable assignments row) :=
  inferInstanceAs (Decidable (_ ∧ _))

/-- The SET clause on a row. -/
def assign (assignments : List Assignment) (row : TableRow) : TableRow := fun column =>
  match assignments.find? fun a => a.column = column with
  | some a => (newValue row a).getD .null
  | none => row column

theorem assign_of_mem {assignments : List Assignment} {row : TableRow} (assignable : Assignable assignments row)
    {a : Assignment} (member : a ∈ assignments) : some (assign assignments row a.column) = newValue row a := by
  obtain ⟨distinct, valued⟩ := assignable
  have found : (assignments.find? fun b => b.column = a.column).isSome = true :=
    List.find?_isSome.mpr ⟨a, member, by simp⟩
  obtain ⟨b, first⟩ := Option.isSome_iff_exists.mp found
  have same : b.column = a.column := by simpa using List.find?_some first
  have whole : b = a := List.inj_on_of_nodup_map distinct (List.mem_of_find?_eq_some first) member same
  obtain ⟨value, known⟩ := Option.isSome_iff_exists.mp (valued a member)
  simp only [assign, first, whole, known, Option.getD_some]

theorem assign_of_not_mem {assignments : List Assignment} {row : TableRow} {column : Column}
    (absent : column ∉ assignments.map (·.column)) : assign assignments row column = row column := by
  have none : (assignments.find? fun a => a.column = column) = none := by
    refine List.find?_eq_none.mpr fun a member => ?_
    simp only [decide_eq_true_eq]
    intro same
    exact absent (same ▸ List.mem_map_of_mem member)
  simp only [assign, none]

/-! ### Effects -/

variable (generated : Column → Prop)

/-- A row after an UPDATE that has met it. -/
def Updated (assignments : List Assignment) (row row' : TableRow) : Prop :=
  Assignable assignments row ∧
    ∀ column, column ∈ assignments.map (·.column) ∨ ¬ generated column → row' column = assign assignments row column

/-- What an UPDATE makes of a place of its table. -/
def UpdatedAt (assignments : List Assignment) (conditions : List Condition) : Option TableRow → Option TableRow → Prop
  | none, after => after = none
  | some row, after =>
    if Matches conditions row then ∃ row', after = some row' ∧ Updated generated assignments row row'
    else after = some row

/-- What a DELETE makes of a place of its table. -/
def deletedAt (conditions : List Condition) : Option TableRow → Option TableRow
  | none => none
  | some row => if Matches conditions row then none else some row

/-- What a statement that succeeds does to its table. -/
def Effect : Statement → Table → Table → Prop
  | .insert _ values, table, table' => ∃ place row, table place = none ∧ (∀ e ∈ values.entries, row e.1 = e.2) ∧
      table' = Function.update table place (some row)
  | .update _ assignments conditions, table, table' =>
    ∀ place, UpdatedAt generated assignments conditions (table place) (table' place)
  | .delete _ conditions, table, table' => ∀ place, table' place = deletedAt conditions (table place)

/-- A row that an UPDATE does not meet stays as it is. -/
theorem UpdatedAt.eq_of_not_matches {generated : Column → Prop} {assignments : List Assignment}
    {conditions : List Condition} {row : TableRow} {after : Option TableRow}
    (updated : UpdatedAt generated assignments conditions (some row) after) (apart : ¬ Matches conditions row) :
    after = some row := by
  simpa only [UpdatedAt, apart, ↓reduceIte] using updated

theorem UpdatedAt.of_matches {generated : Column → Prop} {assignments : List Assignment} {conditions : List Condition}
    {row : TableRow} {after : Option TableRow}
    (updated : UpdatedAt generated assignments conditions (some row) after) (met : Matches conditions row) :
    ∃ row', after = some row' ∧ Updated generated assignments row row' := by
  simpa only [UpdatedAt, met, ↓reduceIte] using updated

end SynapsorRunner.Tables
