import Mathlib.Data.List.Basic
import Mathlib.Logic.Function.Basic

/-!
Reads over joined tables. A read starts from the rows of a root table, joins further tables
step by step, and keeps what meets a condition; a step may keep what it finds no row for. When
the condition of every step holds for rows within the scope of its table only, and the
condition of the read for rows of the root within its scope, the rows outside have no part in
it: databases that agree within the scopes give the same rows (`rows_congr`).
-/
namespace SynapsorRunner.JoinedReads

variable {A T R : Type} [DecidableEq A]

/-- A row under each name, or none. -/
abbrev Joined (A R : Type) := A → Option R

/-- A joined table. Its condition is on the rows so far with one of its own. -/
structure Step (A T R : Type) where
  name : A
  table : T
  keepsUnmatched : Bool
  condition : Joined A R → Bool

structure Read (A T R : Type) where
  name : A
  table : T
  steps : List (Step A T R)
  condition : Joined A R → Bool

variable {db db' : T → List R}

def Step.candidates (step : Step A T R) (found : List R) (rows : Joined A R) : List (Joined A R) :=
  (found.map fun row => Function.update rows step.name (some row)).filter step.condition

def Step.extend (step : Step A T R) (found : List R) (rows : Joined A R) : List (Joined A R) :=
  let candidates := step.candidates found rows
  if step.keepsUnmatched && candidates.isEmpty then [Function.update rows step.name none] else candidates

def extendAll (db : T → List R) (steps : List (Step A T R)) (rows : List (Joined A R)) : List (Joined A R) :=
  steps.foldl (fun rows step => rows.flatMap (step.extend (db step.table))) rows

/-- The rows of a root, each under its name. -/
def rooted (name : A) (found : List R) : List (Joined A R) :=
  found.map fun row => Function.update (fun _ => none) name (some row)

def Read.rows (read : Read A T R) (db : T → List R) : List (Joined A R) :=
  (extendAll db read.steps (rooted read.name (db read.table))).filter read.condition

/-! ### Scopes -/

/-- A condition holds only where the row under a name is within a scope. -/
def HeldWithin (condition : Joined A R → Bool) (name : A) (scope : R → Bool) : Prop :=
  ∀ rows row, rows name = some row → condition rows = true → scope row = true

/-- A step joins rows within the scope of its table only. -/
theorem candidates_filter {step : Step A T R} {scope : R → Bool} (held : HeldWithin step.condition step.name scope)
    (found : List R) (rows : Joined A R) : step.candidates (found.filter scope) rows = step.candidates found rows := by
  induction found with
  | nil => rfl
  | cons row rest ih =>
    unfold Step.candidates at ih ⊢
    by_cases inside : scope row = true
    · rw [List.filter_cons_of_pos inside, List.map_cons, List.map_cons, List.filter_cons, List.filter_cons, ih]
    · have fails : ¬ step.condition (Function.update rows step.name (some row)) = true := by
        intro holds
        exact inside (held _ row (Function.update_self ..) holds)
      rw [List.filter_cons_of_neg inside, List.map_cons, List.filter_cons_of_neg fails, ih]

theorem extendAll_congr {scopes : A → R → Bool} {steps : List (Step A T R)}
    (held : ∀ step ∈ steps, HeldWithin step.condition step.name (scopes step.name))
    (agree : ∀ step ∈ steps, (db step.table).filter (scopes step.name) = (db' step.table).filter (scopes step.name))
    (rows : List (Joined A R)) : extendAll db steps rows = extendAll db' steps rows := by
  induction steps generalizing rows with
  | nil => rfl
  | cons step rest ih =>
    have same : step.extend (db step.table) = step.extend (db' step.table) := by
      funext joined
      have within := candidates_filter (held step (by simp))
      unfold Step.extend
      rw [← within (db step.table), ← within (db' step.table), agree step (by simp)]
    unfold extendAll at ih ⊢
    rw [List.foldl_cons, List.foldl_cons, same]
    exact ih (fun s member => held s (by simp [member])) (fun s member => agree s (by simp [member])) _

/-- What is joined to rows is joined to each of them. -/
theorem extendAll_flatMap (steps : List (Step A T R)) (rows : List (Joined A R)) :
    extendAll db steps rows = rows.flatMap fun row => extendAll db steps [row] := by
  induction steps generalizing rows with
  | nil => simp [extendAll]
  | cons step rest ih =>
    have unfolded : ∀ rows : List (Joined A R), extendAll db (step :: rest) rows =
        extendAll db rest (rows.flatMap (step.extend (db step.table))) := fun _ => rfl
    rw [unfolded, ih, List.flatMap_assoc]
    refine congrArg (List.flatMap · rows) (funext fun row => ?_)
    rw [unfolded, List.flatMap_singleton, ih (step.extend _ row)]

/-- No step changes the row under a name that is not its own. -/
theorem extendAll_keeps {steps : List (Step A T R)} {name : A} (apart : ∀ step ∈ steps, step.name ≠ name)
    {rows : List (Joined A R)} {joined : Joined A R} (member : joined ∈ extendAll db steps rows) :
    ∃ start ∈ rows, joined name = start name := by
  induction steps generalizing rows with
  | nil => exact ⟨joined, member, rfl⟩
  | cons step rest ih =>
    have later : joined ∈ extendAll db rest (rows.flatMap (step.extend (db step.table))) := member
    obtain ⟨between, listed, same⟩ := ih (fun s inside => apart s (by simp [inside])) later
    obtain ⟨start, first, extended⟩ := List.mem_flatMap.mp listed
    have other : name ≠ step.name := (apart step (by simp)).symm
    have kept : between name = start name := by
      unfold Step.extend Step.candidates at extended
      simp only at extended
      split at extended
      · obtain rfl := List.mem_singleton.mp extended
        exact Function.update_of_ne other ..
      · obtain ⟨row, -, rfl⟩ := List.mem_map.mp (List.mem_of_mem_filter extended)
        exact Function.update_of_ne other ..
    exact ⟨start, first, same.trans kept⟩

/-- Rows of the root outside its scope come to nothing. -/
theorem rows_filter {read : Read A T R} {scope : R → Bool} (apart : ∀ step ∈ read.steps, step.name ≠ read.name)
    (held : HeldWithin read.condition read.name scope) (found : List R) :
    (extendAll db read.steps (rooted read.name (found.filter scope))).filter read.condition =
      (extendAll db read.steps (rooted read.name found)).filter read.condition := by
  unfold rooted
  induction found with
  | nil => rfl
  | cons row rest ih =>
    have split : ∀ (one : Joined A R) more, extendAll db read.steps (one :: more) =
        extendAll db read.steps [one] ++ extendAll db read.steps more := by
      intro one more
      rw [extendAll_flatMap, List.flatMap_cons, ← extendAll_flatMap]
    by_cases inside : scope row = true
    · rw [List.filter_cons_of_pos inside, List.map_cons, List.map_cons, split, split _ (rest.map _), List.filter_append,
        List.filter_append, ih]
    · have dropped : (extendAll db read.steps [Function.update (fun _ => none) read.name (some row)]).filter
          read.condition = [] := by
        rw [List.filter_eq_nil_iff]
        intro joined member holds
        obtain ⟨start, first, same⟩ := extendAll_keeps apart member
        obtain rfl := List.mem_singleton.mp first
        exact inside (held joined row (by rw [same, Function.update_self]) holds)
      rw [List.filter_cons_of_neg inside, List.map_cons, split, List.filter_append, dropped, ih]
      rfl

/-- A read whose conditions hold its tables to scopes has the same rows in databases that
    agree within the scopes. -/
theorem rows_congr {read : Read A T R} (scopes : A → R → Bool) (apart : ∀ step ∈ read.steps, step.name ≠ read.name)
    (held : HeldWithin read.condition read.name (scopes read.name))
    (joins : ∀ step ∈ read.steps, HeldWithin step.condition step.name (scopes step.name))
    (root : (db read.table).filter (scopes read.name) = (db' read.table).filter (scopes read.name))
    (agree : ∀ step ∈ read.steps,
      (db step.table).filter (scopes step.name) = (db' step.table).filter (scopes step.name)) :
    read.rows db = read.rows db' := by
  unfold Read.rows
  rw [← rows_filter apart held, root, rows_filter apart held, extendAll_congr joins agree]

end SynapsorRunner.JoinedReads
