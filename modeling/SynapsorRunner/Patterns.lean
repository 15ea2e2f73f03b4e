import Mathlib.Data.List.Basic
import Mathlib.Data.List.TakeWhile

/-!
Patterns on lists over any alphabet, matched by backtracking: a choice tries its first
branch first, and a run of units tries its longest or its shortest length first. What is
matched under a number is a group. The continuation of a match says whether a way is
taken or the next one is tried.
-/
namespace SynapsorRunner.Patterns

universe u v

inductive Pattern (α : Type u) where
  | empty
  | one (accepts : α → Bool)
  | seq (first second : Pattern α)
  | either (first second : Pattern α)
  | longest (accepts : α → Bool) (atLeast : ℕ)
  | shortest (accepts : α → Bool) (atLeast : ℕ)
  | group (number : ℕ) (inner : Pattern α)

/-- The groups of a match, the last one first. -/
abbrev Groups (α : Type u) := List (ℕ × List α)

namespace Pattern
variable {α : Type u} {β : Type v}

/-- The first way to match the beginning of a text that the continuation takes. -/
def run : Pattern α → Groups α → List α → (Groups α → List α → Option β) → Option β
  | empty, groups, text, next => next groups text
  | one accepts, groups, text, next =>
    match text with
    | [] => none
    | a :: rest => if accepts a then next groups rest else none
  | seq first second, groups, text, next => first.run groups text fun groups rest => second.run groups rest next
  | either first second, groups, text, next =>
    match first.run groups text next with
    | some b => some b
    | none => second.run groups text next
  | longest accepts atLeast, groups, text, next =>
    let length := (text.takeWhile accepts).length
    (List.range (length + 1 - atLeast)).findSome? fun shorter => next groups (text.drop (length - shorter))
  | shortest accepts atLeast, groups, text, next =>
    let length := (text.takeWhile accepts).length
    (List.range (length + 1 - atLeast)).findSome? fun more => next groups (text.drop (atLeast + more))
  | group number inner, groups, text, next =>
    inner.run groups text fun groups rest => next ((number, text.take (text.length - rest.length)) :: groups) rest

/-- The groups of a match of a whole text. -/
def matchWhole (p : Pattern α) (text : List α) : Option (Groups α) :=
  p.run [] text fun groups rest => if rest.isEmpty then some groups else none

def optional (p : Pattern α) : Pattern α := either p empty

/-- Patterns one after the other. -/
def all : List (Pattern α) → Pattern α
  | [] => empty
  | [p] => p
  | p :: rest => seq p (all rest)

/-- The first pattern of a list that matches. -/
def any : List (Pattern α) → Pattern α
  | [] => one fun _ => false
  | [p] => p
  | p :: rest => either p (any rest)

/-! ### What a match takes -/

/-- No unit that the pattern takes is this one. -/
def avoids (a : α) : Pattern α → Bool
  | empty => true
  | one accepts | longest accepts _ | shortest accepts _ => !accepts a
  | seq first second | either first second => first.avoids a && second.avoids a
  | group _ inner => inner.avoids a

/-- A number of accepted units at the beginning of a text. -/
theorem drop_accepted (accepts : α → Bool) (text : List α) (count : ℕ) (within : count ≤ (text.takeWhile accepts).length) :
    ∃ taken, text = taken ++ text.drop count ∧ ∀ a ∈ taken, accepts a = true := by
  refine ⟨text.take count, (List.take_append_drop count text).symm, fun a member => ?_⟩
  have taken : text.take count <+: text.takeWhile accepts := by
    refine List.prefix_of_prefix_length_le (List.take_prefix count text) (List.takeWhile_prefix accepts) ?_
    rw [List.length_take]
    omega
  exact List.mem_takeWhile_imp (taken.subset member)

/-- A way that is taken splits the text, and its beginning has no unit that the pattern avoids. -/
theorem run_taken {p : Pattern α} {groups : Groups α} {text : List α} {next : Groups α → List α → Option β} {b : β}
    (found : p.run groups text next = some b) :
    ∃ after taken rest, text = taken ++ rest ∧ next after rest = some b ∧ ∀ a, p.avoids a = true → a ∉ taken := by
  induction p generalizing groups text next with
  | empty => exact ⟨groups, [], text, rfl, found, by simp⟩
  | one accepts =>
    cases text with
    | nil => cases found
    | cons u rest =>
      simp only [run] at found
      split at found
      · rename_i accepted
        refine ⟨groups, [u], rest, rfl, found, fun a avoided => ?_⟩
        simp only [avoids, Bool.not_eq_true'] at avoided
        rw [List.mem_singleton]
        rintro rfl
        simp [accepted] at avoided
      · cases found
  | seq first second firstIH secondIH =>
    obtain ⟨between, front, rest, rfl, found, avoided⟩ := firstIH found
    obtain ⟨after, back, last, rfl, found, avoided'⟩ := secondIH found
    refine ⟨after, front ++ back, last, by simp, found, fun a both => ?_⟩
    obtain ⟨one, two⟩ := Bool.and_eq_true_iff.mp both
    simp [avoided a one, avoided' a two]
  | either first second firstIH secondIH =>
    simp only [run] at found
    split at found
    · rename_i one
      cases found
      obtain ⟨after, taken, rest, is, found, avoided⟩ := firstIH one
      exact ⟨after, taken, rest, is, found, fun a both => avoided a (Bool.and_eq_true_iff.mp both).1⟩
    · obtain ⟨after, taken, rest, is, found, avoided⟩ := secondIH found
      exact ⟨after, taken, rest, is, found, fun a both => avoided a (Bool.and_eq_true_iff.mp both).2⟩
  | longest accepts atLeast =>
    obtain ⟨shorter, listed, found⟩ := List.exists_of_findSome?_eq_some found
    obtain ⟨taken, is, accepted⟩ := drop_accepted accepts text ((text.takeWhile accepts).length - shorter) (by omega)
    refine ⟨groups, taken, _, is, found, fun a avoided member => ?_⟩
    simp [avoids, accepted a member] at avoided
  | shortest accepts atLeast =>
    obtain ⟨more, listed, found⟩ := List.exists_of_findSome?_eq_some found
    have bound := List.mem_range.mp listed
    obtain ⟨taken, is, accepted⟩ := drop_accepted accepts text (atLeast + more) (by omega)
    refine ⟨groups, taken, _, is, found, fun a avoided member => ?_⟩
    simp [avoids, accepted a member] at avoided
  | group number inner ih =>
    obtain ⟨after, taken, rest, is, found, avoided⟩ := ih found
    exact ⟨_, taken, rest, is, found, avoided⟩

theorem not_mem_of_matchWhole {p : Pattern α} {text : List α} {groups : Groups α}
    (found : p.matchWhole text = some groups) {a : α} (avoided : p.avoids a = true) : a ∉ text := by
  obtain ⟨after, taken, rest, rfl, ended, not_mem⟩ := run_taken found
  split at ended
  · rename_i empty
    rw [List.isEmpty_iff.mp empty, List.append_nil]
    exact not_mem a avoided
  · cases ended

end Pattern

/-- The text of a group. -/
def Groups.get {α : Type u} (groups : Groups α) (number : ℕ) : Option (List α) := groups.lookup number

end SynapsorRunner.Patterns
