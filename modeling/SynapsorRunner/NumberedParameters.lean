import Mathlib.Data.List.Range
import Mathlib.Control.Lawful

/-!
Statements with numbered parameters. A computation binds values one after another and gets
a placeholder for each, with its number; what it emits continues the numbers before it
(`Emits`). Placeholders in the order of their numbers have the values that are bound
(`Continues.bound`).
-/
namespace SynapsorRunner.NumberedParameters

structure Placeholder (V : Type) where
  index : ℕ
  value : V
  deriving DecidableEq

variable {V E α β : Type}

/-- Computations that bind values, or fail. -/
abbrev Binder (V E : Type) := StateT (List V) (Except E)

def bindValue (value : V) : Binder V E (Placeholder V) :=
  fun bound => .ok (⟨bound.length + 1, value⟩, bound ++ [value])

/-- A computation that binds nothing. -/
def ask (x : Except E α) : Binder V E α := fun bound => x.map fun a => (a, bound)

/-- Placeholders with the numbers that follow a number. -/
def Continues (start : ℕ) (placeholders : List (Placeholder V)) : Prop :=
  placeholders.map Placeholder.index = List.range' (start + 1) placeholders.length

theorem Continues.nil (start : ℕ) : Continues start ([] : List (Placeholder V)) := rfl

theorem Continues.append {start : ℕ} {first second : List (Placeholder V)} (one : Continues start first)
    (two : Continues (start + first.length) second) : Continues start (first ++ second) := by
  unfold Continues at *
  rw [List.map_append, one, two, List.length_append, show start + first.length + 1 = start + 1 + first.length by omega]
  simp

/-- Placeholders in order have the values that are bound, each at its number. -/
theorem Continues.bound {placeholders : List (Placeholder V)} (continues : Continues 0 placeholders)
    {p : Placeholder V} (member : p ∈ placeholders) :
    1 ≤ p.index ∧ (placeholders.map Placeholder.value)[p.index - 1]? = some p.value := by
  obtain ⟨i, small, rfl⟩ := List.getElem_of_mem member
  have numbered : placeholders[i].index = i + 1 := by
    have same := congrArg (fun l => l[i]?) continues
    simp only [List.getElem?_map, List.getElem?_eq_getElem small, Option.map_some, List.getElem?_range', small,
      Option.some.injEq] at same
    omega
  rw [numbered]
  refine ⟨by omega, ?_⟩
  rw [Nat.add_sub_cancel, List.getElem?_map, List.getElem?_eq_getElem small]
  rfl

/-- What a computation emits: placeholders for the values that it binds, and a result that
    has to do with them. -/
def Emits (f : Binder V E α) (Q : α → List (Placeholder V) → Prop) : Prop :=
  ∀ bound a after, f bound = .ok (a, after) →
    ∃ placeholders, Continues bound.length placeholders ∧ after = bound ++ placeholders.map Placeholder.value ∧
      Q a placeholders

theorem Emits.mono {f : Binder V E α} {Q R : α → List (Placeholder V) → Prop} (emits : Emits f Q)
    (weaker : ∀ a placeholders, Q a placeholders → R a placeholders) : Emits f R := by
  intro bound a after run
  obtain ⟨placeholders, continues, grown, holds⟩ := emits bound a after run
  exact ⟨placeholders, continues, grown, weaker a placeholders holds⟩

theorem Emits.pure {a : α} {Q : α → List (Placeholder V) → Prop} (holds : Q a []) :
    Emits (pure a : Binder V E α) Q := by
  intro bound a' after run
  cases run
  exact ⟨[], .nil _, by simp, holds⟩

theorem Emits.ask {x : Except E α} {Q : α → List (Placeholder V) → Prop} (holds : ∀ a, x = .ok a → Q a []) :
    Emits (ask x : Binder V E α) Q := by
  intro bound a after run
  cases x with
  | error e => cases run
  | ok a' =>
    cases run
    exact ⟨[], .nil _, by simp, holds a rfl⟩

theorem Emits.bindValue {value : V} {Q : Placeholder V → List (Placeholder V) → Prop}
    (holds : ∀ index, Q ⟨index, value⟩ [⟨index, value⟩]) : Emits (bindValue value : Binder V E _) Q := by
  intro bound a after run
  cases run
  exact ⟨[⟨bound.length + 1, value⟩], rfl, rfl, holds _⟩

theorem Emits.bind {f : Binder V E α} {g : α → Binder V E β} {Q : α → List (Placeholder V) → Prop}
    {R : β → List (Placeholder V) → Prop} (first : Emits f Q)
    (next : ∀ a before, Q a before → Emits (g a) fun b own => R b (before ++ own)) : Emits (f >>= g) R := by
  intro bound b after run
  cases result : f bound with
  | error e =>
    simp only [Bind.bind, StateT.bind, result, Except.bind] at run
    cases run
  | ok pair =>
    obtain ⟨a, middle⟩ := pair
    simp only [Bind.bind, StateT.bind, result, Except.bind] at run
    obtain ⟨before, continues, rfl, holds⟩ := first bound a middle result
    obtain ⟨own, continued, rfl, done⟩ := next a before holds _ b after run
    refine ⟨before ++ own, continues.append ?_, by simp, done⟩
    simpa using continued

/-- One computation for each item of a list. -/
theorem Emits.mapM {γ : Type} {items : List γ} {f : γ → Binder V E α} (view : α → List (Placeholder V))
    {P : γ → α → Prop}
    (each : ∀ item ∈ items, Emits (f item) fun a placeholders => view a = placeholders ∧ P item a) :
    Emits (items.mapM f) fun results placeholders =>
      results.flatMap view = placeholders ∧ List.Forall₂ P items results := by
  induction items with
  | nil => exact .pure ⟨rfl, .nil⟩
  | cons item rest ih =>
    rw [List.mapM_cons]
    refine (each item (by simp)).bind ?_
    rintro a before ⟨rfl, holds⟩
    refine (ih fun item member => each item (by simp [member])).bind ?_
    rintro results own ⟨rfl, related⟩
    exact .pure ⟨by simp, .cons holds related⟩

end SynapsorRunner.NumberedParameters
