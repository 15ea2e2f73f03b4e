import Mathlib.Data.List.Nodup
import Mathlib.Data.List.Count
import Mathlib.Logic.Function.Basic

/-!
Tables whose rows refer to rows of other tables by their keys, and what a database makes
of it: a row is written when what it refers to is there, and rows are deleted when none
that stays refers to them.

A list of deletions that clears every table before the tables it refers to goes through
exactly when no row that it keeps refers to one that it takes, and leaves then the rows
that no deletion selects (`deleteEach_eq_some`).
-/
namespace SynapsorRunner.References

/-- A column of a table that holds the key of a row of another one. -/
structure Reference (T ρ κ : Type) where
  child : T
  column : ρ → Option κ
  parent : T

/-- The keys of the rows, the rows that a table admits, and the references that are kept. -/
structure Schema (T ρ κ : Type) where
  key : T → ρ → Option κ
  admits : T → ρ → Bool
  references : List (Reference T ρ κ)

abbrev Tables (T ρ : Type) := T → List ρ

variable {T ρ κ : Type}

namespace Schema
variable (schema : Schema T ρ κ)

/-! ### Consistent contents -/

/-- What the database keeps of its contents. -/
structure Consistent (s : Tables T ρ) : Prop where
  admitted : ∀ t, ∀ row ∈ s t, schema.admits t row = true
  distinct : ∀ t, ((s t).map (schema.key t)).Nodup
  closed : ∀ r ∈ schema.references, ∀ row ∈ s r.child, ∀ k, r.column row = some k →
    ∃ other ∈ s r.parent, schema.key r.parent other = some k

theorem consistent_empty : schema.Consistent fun _ => [] where
  admitted := by simp
  distinct := by simp
  closed := by simp

theorem Consistent.eq_of_key {schema : Schema T ρ κ} {s : Tables T ρ} (consistent : schema.Consistent s) {t : T}
    {row other : ρ} (member : row ∈ s t) (member' : other ∈ s t) (same : schema.key t row = schema.key t other) :
    row = other :=
  List.inj_on_of_nodup_map (consistent.distinct t) member member' same

/-! ### Rows that refer to others -/

variable [DecidableEq κ]

/-- The row holds the key of the other one. NULL is no key. -/
def refers (r : Reference T ρ κ) (row other : ρ) : Bool :=
  match r.column row with
  | none => false
  | some k => decide (schema.key r.parent other = some k)

theorem refers_iff {r : Reference T ρ κ} {row other : ρ} :
    schema.refers r row other = true ↔ ∃ k, r.column row = some k ∧ schema.key r.parent other = some k := by
  unfold refers
  split <;> simp_all

/-! ### Writing a row -/

variable [DecidableEq T]

/-- The table with the row, in the place of one with its key. -/
def place (s : Tables T ρ) (t : T) (row : ρ) : Tables T ρ :=
  Function.update s t ((s t).filter (fun other => decide (schema.key t other ≠ schema.key t row)) ++ [row])

/-- Is what the row refers to there? -/
def grounded (s : Tables T ρ) (t : T) (row : ρ) : Bool :=
  schema.references.all fun r => decide (r.child ≠ t) ||
    (r.column row).all fun k => (s r.parent).any fun other => decide (schema.key r.parent other = some k)

/-- INSERT … ON CONFLICT DO UPDATE of one row. -/
def upsert (s : Tables T ρ) (t : T) (row : ρ) : Option (Tables T ρ) :=
  let written := schema.place s t row
  if schema.admits t row && schema.grounded written t row then some written else none

theorem mem_place {s : Tables T ρ} {t u : T} {row other : ρ} (member : other ∈ schema.place s t row u) :
    other ∈ s u ∨ (u = t ∧ other = row) := by
  unfold place at member
  by_cases same : u = t
  · subst same
    simp only [Function.update_self, List.mem_append, List.mem_filter, List.mem_singleton] at member
    rcases member with ⟨kept, -⟩ | placed
    · exact .inl kept
    · exact .inr ⟨rfl, placed⟩
  · rw [Function.update_of_ne same] at member
    exact .inl member

/-- A key that was there is there after a row has been placed. -/
theorem key_place {s : Tables T ρ} (t : T) (row : ρ) {u : T} {other : ρ} (member : other ∈ s u) :
    ∃ other' ∈ schema.place s t row u, schema.key u other' = schema.key u other := by
  unfold place
  by_cases same : u = t
  · subst same
    rw [Function.update_self]
    by_cases replaced : schema.key u other = schema.key u row
    · exact ⟨row, by simp, replaced.symm⟩
    · exact ⟨other, by simp [member, replaced], rfl⟩
  · rw [Function.update_of_ne same]
    exact ⟨other, member, rfl⟩

theorem distinct_place {s : Tables T ρ} {t : T} {row : ρ} (distinct : ∀ u, ((s u).map (schema.key u)).Nodup) (u : T) :
    ((schema.place s t row u).map (schema.key u)).Nodup := by
  unfold place
  by_cases same : u = t
  · subst same
    have kept := (distinct u).sublist (List.Sublist.map (schema.key u)
      (List.filter_sublist (p := fun other => decide (schema.key u other ≠ schema.key u row))))
    rw [Function.update_self, List.map_append, List.nodup_append]
    refine ⟨kept, by simp, ?_⟩
    intro k left k' right
    obtain ⟨other, filtered, rfl⟩ := List.mem_map.mp left
    have differs := (List.mem_filter.mp filtered).2
    simp_all
  · rw [Function.update_of_ne same]
    exact distinct u

theorem upsert_consistent {s s' : Tables T ρ} {t : T} {row : ρ} (consistent : schema.Consistent s)
    (written : schema.upsert s t row = some s') : schema.Consistent s' := by
  unfold upsert at written
  dsimp only at written
  split at written
  case isFalse => cases written
  case isTrue accepted =>
    obtain rfl := Option.some.inj written
    obtain ⟨admitted, grounded⟩ := Bool.and_eq_true_iff.mp accepted
    refine ⟨?_, schema.distinct_place consistent.distinct, ?_⟩
    · intro u other member
      rcases schema.mem_place member with old | ⟨rfl, rfl⟩
      · exact consistent.admitted u other old
      · exact admitted
    · intro r listed other member k found
      rcases schema.mem_place member with old | ⟨child, rfl⟩
      · obtain ⟨parent, there, key⟩ := consistent.closed r listed other old k found
        obtain ⟨parent', there', key'⟩ := schema.key_place t row there
        exact ⟨parent', there', key'.trans key⟩
      · have checked := List.all_eq_true.mp grounded r listed
        simpa [child, found] using checked

/-! ### Deleting rows -/

def remove (s : Tables T ρ) (t : T) (selected : ρ → Bool) : Tables T ρ :=
  Function.update s t ((s t).filter fun row => !selected row)

theorem mem_remove {s : Tables T ρ} {t u : T} {selected : ρ → Bool} {row : ρ} :
    row ∈ remove s t selected u ↔ row ∈ s u ∧ ¬ (u = t ∧ selected row = true) := by
  unfold remove
  by_cases same : u = t
  · subst same
    simp
  · simp [same]

/-- Does a row that stays refer to one that is selected? -/
def blocked (s : Tables T ρ) (t : T) (selected : ρ → Bool) : Bool :=
  schema.references.any fun r => decide (r.parent = t) &&
    (remove s t selected r.child).any fun row => (s t).any fun other => selected other && schema.refers r row other

/-- DELETE FROM … WHERE …, none where a reference forbids it. -/
def deleteWhere (s : Tables T ρ) (t : T) (selected : ρ → Bool) : Option (Tables T ρ) :=
  if schema.blocked s t selected then none else some (remove s t selected)

theorem blocked_iff {s : Tables T ρ} {t : T} {selected : ρ → Bool} :
    schema.blocked s t selected = true ↔
      ∃ r ∈ schema.references, r.parent = t ∧ ∃ row ∈ remove s t selected r.child, ∃ other ∈ s t,
        selected other = true ∧ schema.refers r row other = true := by
  simp only [blocked, List.any_eq_true, Bool.and_eq_true, decide_eq_true_eq]

theorem deleteWhere_eq_some {s s' : Tables T ρ} {t : T} {selected : ρ → Bool} :
    schema.deleteWhere s t selected = some s' ↔ schema.blocked s t selected = false ∧ remove s t selected = s' := by
  unfold deleteWhere
  by_cases blocked : schema.blocked s t selected = true <;> simp [blocked]

/-- A deletion that selects nothing changes nothing. -/
theorem deleteWhere_none {s : Tables T ρ} {t : T} {selected : ρ → Bool} (nothing : (s t).countP selected = 0) :
    schema.deleteWhere s t selected = some s := by
  have unselected := List.countP_eq_zero.mp nothing
  refine schema.deleteWhere_eq_some.mpr ⟨?_, ?_⟩
  · refine Bool.eq_false_iff.mpr fun blocked => ?_
    obtain ⟨r, -, -, row, -, other, member, selected', -⟩ := schema.blocked_iff.mp blocked
    exact unselected other member selected'
  · unfold remove
    rw [List.filter_eq_self.mpr fun row member => by simpa using unselected row member, Function.update_eq_self]

theorem deleteWhere_consistent {s s' : Tables T ρ} {t : T} {selected : ρ → Bool} (consistent : schema.Consistent s)
    (deleted : schema.deleteWhere s t selected = some s') : schema.Consistent s' := by
  obtain ⟨free, rfl⟩ := schema.deleteWhere_eq_some.mp deleted
  refine ⟨?_, ?_, ?_⟩
  · intro u row member
    exact consistent.admitted u row (mem_remove.mp member).1
  · intro u
    refine (consistent.distinct u).sublist (List.Sublist.map _ ?_)
    by_cases same : u = t
    · subst same
      simp [remove]
    · simp [remove, Function.update_of_ne same]
  · intro r listed row member k found
    obtain ⟨other, there, key⟩ := consistent.closed r listed row (mem_remove.mp member).1 k found
    refine ⟨other, mem_remove.mpr ⟨there, ?_⟩, key⟩
    rintro ⟨parent, taken⟩
    have blocks : schema.blocked s t selected = true :=
      schema.blocked_iff.mpr ⟨r, listed, parent, row, member, other, parent ▸ there, taken,
        schema.refers_iff.mpr ⟨k, found, key⟩⟩
    rw [free] at blocks
    cases blocks

/-! ### A list of deletions -/

abbrev Deletion (T ρ : Type) := T × (ρ → Bool)

def deleteEach : List (Deletion T ρ) → Tables T ρ → Option (Tables T ρ)
  | [], s => some s
  | d :: rest, s => (schema.deleteWhere s d.1 d.2).bind (deleteEach rest)

/-- Does one of the deletions select the row? -/
def selects (ds : List (Deletion T ρ)) (t : T) (row : ρ) : Bool := ds.any fun d => decide (d.1 = t) && d.2 row

/-- The tables without the rows that the deletions select. -/
def without (ds : List (Deletion T ρ)) (s : Tables T ρ) : Tables T ρ := fun t => (s t).filter fun row => !selects ds t row

/-- No row that stays refers to one that is selected. -/
def Frees (ds : List (Deletion T ρ)) (s : Tables T ρ) : Prop :=
  ∀ r ∈ schema.references, ∀ row ∈ s r.child, selects ds r.child row = false →
    ∀ other ∈ s r.parent, selects ds r.parent other = true → schema.refers r row other = false

/-- Every table is cleared before the tables it refers to. -/
def ChildrenFirst (ds : List (Deletion T ρ)) : Prop :=
  ds.Pairwise fun d e => ∀ r ∈ schema.references, r.parent = d.1 → r.child ≠ e.1

theorem selects_cons {d : Deletion T ρ} {rest : List (Deletion T ρ)} {t : T} {row : ρ} :
    selects (d :: rest) t row = true ↔ (t = d.1 ∧ d.2 row = true) ∨ selects rest t row = true := by
  simp [selects, eq_comm (a := t)]

theorem mem_without {ds : List (Deletion T ρ)} {s : Tables T ρ} {t : T} {row : ρ} :
    row ∈ without ds s t ↔ row ∈ s t ∧ ¬ selects ds t row = true := by
  simp [without]

theorem without_cons (d : Deletion T ρ) (rest : List (Deletion T ρ)) (s : Tables T ρ) :
    without rest (remove s d.1 d.2) = without (d :: rest) s := by
  funext t
  by_cases same : t = d.1
  · subst same
    simp only [without, remove, Function.update_self, List.filter_filter]
    congr 1
    funext row
    simp [selects, Bool.and_comm]
  · simp only [without, remove, Function.update_of_ne same]
    congr 1
    funext row
    simp [selects, Ne.symm same]

omit [DecidableEq κ] in
theorem unselected_of_first {rest : List (Deletion T ρ)} {r : Reference T ρ κ}
    (first : ∀ e ∈ rest, r.child ≠ e.1) (row : ρ) : selects rest r.child row = false := by
  simp only [selects, List.any_eq_false, Bool.and_eq_true, decide_eq_true_eq, not_and]
  intro e member same
  exact absurd same.symm (first e member)

theorem frees_cons {d : Deletion T ρ} {rest : List (Deletion T ρ)} {s : Tables T ρ}
    (first : ∀ e ∈ rest, ∀ r ∈ schema.references, r.parent = d.1 → r.child ≠ e.1) :
    schema.Frees (d :: rest) s ↔ schema.blocked s d.1 d.2 = false ∧ schema.Frees rest (remove s d.1 d.2) := by
  constructor
  · intro frees
    refine ⟨Bool.eq_false_iff.mpr fun blocked => ?_, ?_⟩
    · obtain ⟨r, listed, parent, row, member, other, there, taken, refers⟩ := schema.blocked_iff.mp blocked
      have kept : selects (d :: rest) r.child row = false := by
        refine Bool.eq_false_iff.mpr fun selected => ?_
        rcases selects_cons.mp selected with now | later
        · exact (mem_remove.mp member).2 now
        · rw [unselected_of_first (fun e later => first e later r listed parent) row] at later
          cases later
      have none := frees r listed row (mem_remove.mp member).1 kept other (parent ▸ there)
        (selects_cons.mpr (.inl ⟨parent, taken⟩))
      rw [none] at refers
      cases refers
    · intro r listed row member kept other there taken
      refine frees r listed row (mem_remove.mp member).1 ?_ other (mem_remove.mp there).1 (selects_cons.mpr (.inr taken))
      refine Bool.eq_false_iff.mpr fun selected => ?_
      rcases selects_cons.mp selected with now | later
      · exact (mem_remove.mp member).2 now
      · rw [kept] at later
        cases later
  · rintro ⟨free, frees⟩ r listed row member kept other there taken
    have stays : ¬ (r.child = d.1 ∧ d.2 row = true) ∧ selects rest r.child row = false := by
      have neither := (not_congr selects_cons).mp (Bool.eq_false_iff.mp kept)
      exact ⟨fun now => neither (.inl now), Bool.eq_false_iff.mpr fun later => neither (.inr later)⟩
    have member' : row ∈ remove s d.1 d.2 r.child := mem_remove.mpr ⟨member, stays.1⟩
    by_cases now : r.parent = d.1 ∧ d.2 other = true
    · refine Bool.eq_false_iff.mpr fun refers => ?_
      have blocked := schema.blocked_iff.mpr ⟨r, listed, now.1, row, member', other, now.1 ▸ there, now.2, refers⟩
      rw [free] at blocked
      cases blocked
    · refine frees r listed row member' stays.2 other (mem_remove.mpr ⟨there, now⟩) ?_
      exact (selects_cons.mp taken).resolve_left now

/-- What a list of deletions in this order leaves, and when it goes through. -/
theorem deleteEach_eq_some {ds : List (Deletion T ρ)} (ordered : schema.ChildrenFirst ds) {s s' : Tables T ρ} :
    schema.deleteEach ds s = some s' ↔ schema.Frees ds s ∧ without ds s = s' := by
  induction ds generalizing s with
  | nil =>
    have all : without ([] : List (Deletion T ρ)) s = s := by
      funext t
      simp [without, selects]
    simp [deleteEach, Frees, selects, all]
  | cons d rest ih =>
    have first := List.pairwise_cons.mp ordered
    rw [deleteEach, Option.bind_eq_some_iff, schema.frees_cons first.1, ← without_cons, and_assoc]
    constructor
    · rintro ⟨s₁, deleted, rest'⟩
      obtain ⟨free, rfl⟩ := schema.deleteWhere_eq_some.mp deleted
      exact ⟨free, (ih first.2).mp rest'⟩
    · rintro ⟨free, rest'⟩
      exact ⟨_, schema.deleteWhere_eq_some.mpr ⟨free, rfl⟩, (ih first.2).mpr rest'⟩

theorem deleteEach_consistent {ds : List (Deletion T ρ)} {s s' : Tables T ρ} (consistent : schema.Consistent s)
    (deleted : schema.deleteEach ds s = some s') : schema.Consistent s' := by
  induction ds generalizing s with
  | nil =>
    obtain rfl := Option.some.inj deleted
    exact consistent
  | cons d rest ih =>
    obtain ⟨s₁, deleted₁, rest'⟩ := Option.bind_eq_some_iff.mp deleted
    exact ih (schema.deleteWhere_consistent consistent deleted₁) rest'

end Schema

/-! ### The rows deleted -/

open Schema
variable [DecidableEq T]

theorem length_without (ds : List (Deletion T ρ)) (s : Tables T ρ) (t : T) :
    (s t).countP (selects ds t) + (without ds s t).length = (s t).length := by
  rw [without, List.length_eq_countP_add_countP (selects ds t) (l := s t), ← List.countP_eq_length_filter]
  simp

/-- With one deletion for a table, the rows selected in it are those of that deletion. -/
theorem selects_eq {ds : List (Deletion T ρ)} (distinct : (ds.map Prod.fst).Nodup) {d : Deletion T ρ} (member : d ∈ ds) :
    selects ds d.1 = d.2 := by
  funext row
  refine Bool.eq_iff_iff.mpr ⟨?_, ?_⟩
  · simp only [selects, List.any_eq_true, Bool.and_eq_true, decide_eq_true_eq]
    rintro ⟨e, member', same, selected⟩
    obtain rfl := List.inj_on_of_nodup_map distinct member' member same
    exact selected
  · intro selected
    exact List.any_eq_true.mpr ⟨d, member, by simp [selected]⟩

end SynapsorRunner.References
