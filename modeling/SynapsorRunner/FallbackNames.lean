import Mathlib.Data.List.Basic

/-!
Names that are given in the order of a list. Each name has a plain form, and a fallback that
it is given where its plain form is taken, by an earlier one or, where the names themselves
are reserved, by another name of the list. The fallback is not compared with what is taken,
so what is given is unambiguous exactly when the fallbacks are apart (`distinct_iff`).
-/
namespace SynapsorRunner.FallbackNames

section
variable {ν : Type} [DecidableEq ν] (reserves : Bool) (plain fallback : ν → ν) (names : List ν)

/-- The first place of the one is before that of the other. -/
def Earlier (a b : ν) : Prop := names.idxOf a < names.idxOf b

/-- The plain form is another name that is reserved, or the plain form of an earlier name. -/
structure Meets (name : ν) : Prop where
  own : reserves = true → plain name ≠ name
  taken : reserves = true ∧ plain name ∈ names ∨ ∃ other, Earlier names other name ∧ plain other = plain name

/-- The name is given its fallback. -/
inductive Displaced : ν → Prop where
  | meets {name : ν} (meets : Meets reserves plain names name) : Displaced name
  | follows {name other : ν} (earlier : Earlier names other name) (displaced : Displaced other)
      (same : fallback other = plain name) : Displaced name

open Classical in
/-- What a name is given. -/
noncomputable def given (name : ν) : ν :=
  if Displaced reserves plain fallback names name then fallback name else plain name

/-- The fallback of a displaced name is no other reserved name, and is not what an earlier
    name is given. -/
structure Clear (name : ν) : Prop where
  reserved : reserves = true → ∀ other ∈ names, other ≠ name → fallback name ≠ other
  earlier : ∀ other, Earlier names other name → fallback name ≠ given reserves plain fallback names other

def Apart : Prop :=
  ∀ name ∈ names, Displaced reserves plain fallback names name → Clear reserves plain fallback names name
end

section
variable {ν : Type} [DecidableEq ν] {reserves : Bool} {plain fallback : ν → ν} {names : List ν} {name other : ν}

theorem Earlier.mem (earlier : Earlier names other name) : other ∈ names :=
  List.idxOf_lt_length_iff.mp (Nat.lt_of_lt_of_le earlier List.idxOf_le_length)

theorem Earlier.ne (earlier : Earlier names other name) : other ≠ name := by
  rintro rfl
  exact Nat.lt_irrefl _ earlier

theorem earlier_or (own : name ∈ names) (apart : other ≠ name) :
    Earlier names other name ∨ Earlier names name other := by
  rcases Nat.lt_trichotomy (names.idxOf other) (names.idxOf name) with before | same | after
  · exact .inl before
  · exact absurd (List.idxOf_inj own |>.mp same.symm).symm apart
  · exact .inr after

theorem given_displaced (displaced : Displaced reserves plain fallback names name) :
    given reserves plain fallback names name = fallback name := if_pos displaced

theorem given_plain (plainly : ¬ Displaced reserves plain fallback names name) :
    given reserves plain fallback names name = plain name := if_neg plainly

/-- A plain form that is taken displaces the name. -/
theorem displaced_of_taken (own : name ∈ names)
    (taken : (reserves = true ∧ plain name ≠ name ∧ plain name ∈ names) ∨
      ∃ other, Earlier names other name ∧ given reserves plain fallback names other = plain name) :
    Displaced reserves plain fallback names name := by
  rcases taken with ⟨reserved, apart, member⟩ | ⟨other, earlier, same⟩
  · exact .meets ⟨fun _ => apart, .inl ⟨reserved, member⟩⟩
  · by_cases displaced : Displaced reserves plain fallback names other
    · exact .follows earlier displaced ((given_displaced displaced).symm.trans same)
    · have plainly := (given_plain displaced).symm.trans same
      refine .meets ⟨fun reserved itself => displaced (.meets ⟨fun _ => ?_, .inl ⟨reserved, ?_⟩⟩),
        .inr ⟨other, earlier, plainly⟩⟩
      · rw [plainly, itself]
        exact earlier.ne.symm
      · rw [plainly, itself]
        exact own

/-- Only a plain form that is taken displaces a name. -/
theorem taken_of_displaced (displaced : Displaced reserves plain fallback names name) :
    (reserves = true ∧ plain name ≠ name ∧ plain name ∈ names) ∨
      ∃ other, Earlier names other name ∧ given reserves plain fallback names other = plain name := by
  induction place : names.idxOf name using Nat.strongRecOn generalizing name with
  | ind n ih =>
    cases displaced with
    | follows earlier displaced same => exact .inr ⟨_, earlier, (given_displaced displaced).trans same⟩
    | meets meets =>
      rcases meets.taken with ⟨reserved, member⟩ | ⟨other, earlier, same⟩
      · exact .inl ⟨reserved, meets.own reserved, member⟩
      · by_cases displaced : Displaced reserves plain fallback names other
        · rcases ih (names.idxOf other) (place ▸ earlier) displaced rfl with
            ⟨reserved, _, member⟩ | ⟨first, before, is⟩
          · exact .inl ⟨reserved, meets.own reserved, same ▸ member⟩
          · exact .inr ⟨first, Nat.lt_trans before earlier, is.trans same⟩
        · exact .inr ⟨other, earlier, (given_plain displaced).trans same⟩

theorem displaced_iff (own : name ∈ names) : Displaced reserves plain fallback names name ↔
    (reserves = true ∧ plain name ≠ name ∧ plain name ∈ names) ∨
      ∃ other, Earlier names other name ∧ given reserves plain fallback names other = plain name :=
  ⟨taken_of_displaced, displaced_of_taken own⟩

/-- No two names are given the same, and none is given another that is reserved, exactly when
    the fallbacks are apart. -/
theorem distinct_iff : (∀ a ∈ names, ∀ b ∈ names, a ≠ b →
      given reserves plain fallback names a ≠ given reserves plain fallback names b ∧
        (reserves = true → given reserves plain fallback names a ≠ b)) ↔
    Apart reserves plain fallback names := by
  constructor
  · intro distinct name own displaced
    have is := given_displaced displaced
    refine ⟨fun reserved other member apart same => ?_, fun other earlier same => ?_⟩
    · exact (distinct name own other member apart.symm).2 reserved (is.trans same)
    · exact (distinct name own other earlier.mem earlier.ne.symm).1 (is.trans same)
  · intro clear
    have later (a b : ν) (member : b ∈ names) (earlier : Earlier names a b) :
        given reserves plain fallback names b ≠ given reserves plain fallback names a := by
      intro same
      by_cases displaced : Displaced reserves plain fallback names b
      · exact (clear b member displaced).earlier a earlier ((given_displaced displaced).symm.trans same)
      · exact displaced (displaced_of_taken member (.inr ⟨a, earlier, same.symm.trans (given_plain displaced)⟩))
    intro a own b member apart
    refine ⟨fun same => ?_, fun reserved same => ?_⟩
    · rcases earlier_or member apart with earlier | earlier
      · exact later a b member earlier same.symm
      · exact later b a own earlier same
    · by_cases displaced : Displaced reserves plain fallback names a
      · exact (clear a own displaced).reserved reserved b member apart.symm ((given_displaced displaced).symm.trans same)
      · have plainly := (given_plain displaced).symm.trans same
        refine displaced (displaced_of_taken own (.inl ⟨reserved, ?_, ?_⟩))
        · rw [plainly]
          exact apart.symm
        · rw [plainly]
          exact member

/-- The names before a place are the earlier ones. -/
theorem earlier_iff_mem {before after : List ν} (parts : names = before ++ name :: after) (fresh : name ∉ before) :
    Earlier names other name ↔ other ∈ before := by
  have place : names.idxOf name = before.length := by
    rw [parts, List.idxOf_append_of_notMem fresh, List.idxOf_cons_self, Nat.add_zero]
  rw [Earlier, place, parts]
  by_cases member : other ∈ before
  · rw [List.idxOf_append_of_mem member]
    exact iff_of_true (List.idxOf_lt_length_iff.mpr member) member
  · rw [List.idxOf_append_of_notMem member]
    exact iff_of_false (by omega) member
end

end SynapsorRunner.FallbackNames
