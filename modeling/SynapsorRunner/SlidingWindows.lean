import Mathlib.Algebra.GroupWithZero.Nat
import Mathlib.Algebra.Order.BigOperators.Group.List
import Mathlib.Algebra.Order.Group.Nat
import Mathlib.Data.List.Dedup
import Mathlib.Data.List.Perm.Subperm

/-!
Bounds on trailing windows over dated entries. The window that ends at `t` holds what is
dated from `t - width` to `t`. A load is a number that never grows when entries are left
out. When every entry is dated by now, a load that is within its bound in the window that
ends now is within it in every later window, so a window has to be looked at only when an
entry comes in (`window_bound`).
-/
namespace SynapsorRunner.SlidingWindows

universe u v
variable {α : Type u} {β : Type v} [DecidableEq β] {time : α → ℤ} {width : ℤ}

/-- The window that ends at `t`. -/
def within (time : α → ℤ) (width t : ℤ) (a : α) : Bool := decide (t - width ≤ time a ∧ time a ≤ t)

/-- A number that does not grow when entries are left out. -/
def Load (load : List α → ℕ) : Prop := ∀ l l', l.Subperm l' → load l ≤ load l'

theorem Load.perm {load : List α → ℕ} (monotone : Load load) {l l' : List α} (same : l.Perm l') : load l = load l' :=
  le_antisymm (monotone _ _ same.subperm) (monotone _ _ same.symm.subperm)

theorem load_count (p : α → Bool) : Load fun l => (l.filter p).length :=
  fun _ _ fewer => (fewer.filter p).length_le

theorem sum_le_of_sublist {m l : List ℕ} (fewer : m.Sublist l) : m.sum ≤ l.sum := by
  induction fewer with
  | slnil => exact Nat.le_refl _
  | cons n _ ih =>
    simp only [List.sum_cons]
    omega
  | cons_cons n _ ih =>
    simp only [List.sum_cons]
    omega

theorem load_sum (f : α → ℕ) : Load fun l => (l.map f).sum := by
  rintro l l' ⟨m, same, fewer⟩
  show (l.map f).sum ≤ (l'.map f).sum
  rw [← (same.map f).sum_nat]
  exact sum_le_of_sublist (fewer.map f)

theorem load_distinct (f : α → β) : Load fun l => (l.map f).dedup.length := by
  intro l l' fewer
  have inside : (l.map f).dedup ⊆ (l'.map f).dedup := by
    intro b member
    obtain ⟨a, here, rfl⟩ := List.mem_map.mp (List.mem_dedup.mp member)
    exact List.mem_dedup.mpr (List.mem_map.mpr ⟨a, fewer.subset here, rfl⟩)
  exact ((List.nodup_dedup _).subperm inside).length_le

theorem Load.filter {load : List α → ℕ} (monotone : Load load) (p : α → Bool) : Load fun l => load (l.filter p) :=
  fun _ _ fewer => monotone _ _ (fewer.filter p)

/-- The entries of a later window that are dated by now are in the window that ends now. -/
theorem filter_within_subperm {l : List α} {now t : ℤ} (past : ∀ a ∈ l, time a ≤ now) (later : now ≤ t) :
    (l.filter (within time width t)).Subperm (l.filter (within time width now)) := by
  refine List.Sublist.subperm ?_
  have same : l.filter (within time width t) = (l.filter (within time width now)).filter (within time width t) := by
    rw [List.filter_filter]
    refine List.filter_congr fun a member => ?_
    have dated := past a member
    by_cases inside : within time width t a = true
    · simp only [within, decide_eq_true_eq] at inside
      simp only [within]
      rw [decide_eq_true_iff.mpr inside, decide_eq_true_iff.mpr (show now - width ≤ time a ∧ time a ≤ now from ⟨by omega, dated⟩)]
      rfl
    · rw [Bool.not_eq_true] at inside
      rw [inside, Bool.false_and]
  rw [same]
  exact List.filter_sublist

/-- A load that an entry of now leaves within its bound is within it in every window. -/
theorem window_bound {load : List α → ℕ} (monotone : Load load) {l : List α} {a : α} {bound : ℕ}
    (past : ∀ b ∈ l, time b ≤ time a) (before : ∀ t, load (l.filter (within time width t)) ≤ bound)
    (now : load ((l ++ [a]).filter (within time width (time a))) ≤ bound) (t : ℤ) :
    load ((l ++ [a]).filter (within time width t)) ≤ bound := by
  by_cases later : time a ≤ t
  · have dated : ∀ b ∈ l ++ [a], time b ≤ time a := by
      intro b member
      rcases List.mem_append.mp member with here | last
      · exact past b here
      · rw [List.mem_singleton.mp last]
    exact (monotone _ _ (filter_within_subperm dated later)).trans now
  · have outside : within time width t a = false := by
      simp only [within, decide_eq_false_iff_not]
      omega
    have empty : [a].filter (within time width t) = [] := by simp [outside]
    rw [List.filter_append, empty, List.append_nil]
    exact before t

end SynapsorRunner.SlidingWindows
