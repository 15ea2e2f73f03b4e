import Mathlib.Data.List.Nodup
import Mathlib.Data.List.Lookmap

/-!
Insertion-ordered maps with distinct keys. They carry the proof that no key is
repeated, so a lookup has one answer and an update keeps every other entry. The
order of the entries is part of a map: an update in place keeps it and a new key
goes to the end.
-/
namespace SynapsorRunner

universe u v w

/-- A finite map as the list of its entries, in order of insertion. -/
structure KeyedMap (κ : Type u) (α : Type v) where
  entries : List (κ × α)
  nodup : (entries.map Prod.fst).Nodup

namespace KeyedMap
variable {κ : Type u} {α : Type v} {β : Type w}

@[ext] theorem ext {m n : KeyedMap κ α} (same : m.entries = n.entries) : m = n := by
  cases m; cases n; cases same; rfl

instance [DecidableEq κ] [DecidableEq α] : DecidableEq (KeyedMap κ α) := fun m n =>
  decidable_of_iff (m.entries = n.entries) ⟨ext, fun same => by rw [same]⟩

instance [Repr κ] [Repr α] : Repr (KeyedMap κ α) := ⟨fun m depth => reprPrec m.entries depth⟩

/-- The map without entries. -/
def empty : KeyedMap κ α := ⟨[], by simp⟩

instance : Inhabited (KeyedMap κ α) := ⟨empty⟩

def keys (m : KeyedMap κ α) : List κ := m.entries.map Prod.fst
def values (m : KeyedMap κ α) : List α := m.entries.map Prod.snd
def size (m : KeyedMap κ α) : Nat := m.entries.length

@[simp] theorem keys_empty : (empty : KeyedMap κ α).keys = [] := rfl
@[simp] theorem values_empty : (empty : KeyedMap κ α).values = [] := rfl
theorem keys_nodup (m : KeyedMap κ α) : m.keys.Nodup := m.nodup

/-- Apply a function to every value. -/
def mapValues (m : KeyedMap κ α) (f : α → β) : KeyedMap κ β :=
  ⟨m.entries.map fun e => (e.1, f e.2), by
    rw [List.map_map]
    exact m.nodup⟩

section
variable [DecidableEq κ]

/-! ### Lookup -/

/-- The value at a key in a list of entries. -/
def find (k : κ) : List (κ × α) → Option α
  | [] => none
  | e :: rest => if e.1 = k then some e.2 else find k rest

/-- The value at a key. -/
def get? (m : KeyedMap κ α) (k : κ) : Option α := find k m.entries

theorem find_eq_none {k : κ} {l : List (κ × α)} : find k l = none ↔ k ∉ l.map Prod.fst := by
  induction l with
  | nil => simp [find]
  | cons e rest ih =>
    by_cases here : e.1 = k
    · simp [find, here]
    · simp [find, here, ih, eq_comm (a := k)]

theorem find_mem {k : κ} {a : α} {l : List (κ × α)} (found : find k l = some a) : (k, a) ∈ l := by
  induction l with
  | nil => simp [find] at found
  | cons e rest ih =>
    by_cases here : e.1 = k
    · simp only [find, here, if_true, Option.some.injEq] at found
      subst here found
      simp
    · simp only [find, here, if_false] at found
      exact List.mem_cons_of_mem _ (ih found)

theorem find_of_mem {k : κ} {a : α} {l : List (κ × α)} (distinct : (l.map Prod.fst).Nodup) (member : (k, a) ∈ l) :
    find k l = some a := by
  induction l with
  | nil => cases member
  | cons e rest ih =>
    simp only [List.map_cons, List.nodup_cons] at distinct
    rcases List.mem_cons.mp member with rfl | later
    · simp [find]
    · have apart : e.1 ≠ k := by
        rintro rfl
        exact distinct.1 (List.mem_map.mpr ⟨_, later, rfl⟩)
      simp [find, apart, ih distinct.2 later]

@[simp] theorem get?_empty (k : κ) : (empty : KeyedMap κ α).get? k = none := rfl

theorem get?_eq_none {m : KeyedMap κ α} {k : κ} : m.get? k = none ↔ k ∉ m.keys := find_eq_none

theorem get?_eq_some {m : KeyedMap κ α} {k : κ} {a : α} : m.get? k = some a ↔ (k, a) ∈ m.entries :=
  ⟨find_mem, find_of_mem m.nodup⟩

theorem find_map (f : α → β) (k : κ) (l : List (κ × α)) : find k (l.map fun e => (e.1, f e.2)) = (find k l).map f := by
  induction l with
  | nil => rfl
  | cons e rest ih =>
    obtain ⟨key, a⟩ := e
    simp only [List.map_cons, find]
    by_cases here : key = k
    · simp [here]
    · simp [here, ih]

theorem get?_mapValues (m : KeyedMap κ α) (f : α → β) (k : κ) : (m.mapValues f).get? k = (m.get? k).map f :=
  find_map f k m.entries

theorem mem_keys {m : KeyedMap κ α} {k : κ} : k ∈ m.keys ↔ ∃ a, m.get? k = some a := by
  rw [← Option.ne_none_iff_exists', ne_eq, get?_eq_none, not_not]

theorem mem_values_of_get? {m : KeyedMap κ α} {k : κ} {a : α} (found : m.get? k = some a) : a ∈ m.values :=
  List.mem_map.mpr ⟨_, get?_eq_some.mp found, rfl⟩

/-- Whether a key is bound. -/
def contains (m : KeyedMap κ α) (k : κ) : Bool := (m.get? k).isSome

theorem contains_iff {m : KeyedMap κ α} {k : κ} : m.contains k = true ↔ k ∈ m.keys := by
  rw [contains, mem_keys, Option.isSome_iff_exists]

/-! ### Update -/

/-- Bind a key in a list of entries: in place, or at the end. -/
def put (k : κ) (a : α) : List (κ × α) → List (κ × α)
  | [] => [(k, a)]
  | e :: rest => if e.1 = k then (k, a) :: rest else e :: put k a rest

theorem put_keys (k : κ) (a : α) (l : List (κ × α)) :
    (put k a l).map Prod.fst = if k ∈ l.map Prod.fst then l.map Prod.fst else l.map Prod.fst ++ [k] := by
  induction l with
  | nil => simp [put]
  | cons e rest ih =>
    by_cases here : e.1 = k
    · simp [put, here]
    · simp only [put, here, if_false, List.map_cons, ih, List.mem_cons, eq_comm (a := k), false_or]
      split <;> simp

theorem find_put (k k' : κ) (a : α) (l : List (κ × α)) :
    find k' (put k a l) = if k' = k then some a else find k' l := by
  induction l with
  | nil => simp [put, find, eq_comm (a := k)]
  | cons e rest ih =>
    by_cases here : e.1 = k
    · by_cases same : k' = k
      · simp [put, find, here, same]
      · simp [put, find, here, same, Ne.symm same]
    · by_cases same : k' = k
      · simp [put, find, here, same] at ih ⊢
        simpa [same] using ih
      · simp [put, find, here, same] at ih ⊢
        rw [ih]

/-- Bind a key, keeping its place when it is already bound. -/
def set (m : KeyedMap κ α) (k : κ) (a : α) : KeyedMap κ α :=
  ⟨put k a m.entries, by
    rw [put_keys]
    split
    · exact m.nodup
    · rename_i absent
      rw [List.nodup_append]
      refine ⟨m.nodup, by simp, ?_⟩
      rintro x present y new rfl
      rw [List.mem_singleton] at new
      exact absent (new ▸ present)⟩

theorem get?_set (m : KeyedMap κ α) (k k' : κ) (a : α) :
    (m.set k a).get? k' = if k' = k then some a else m.get? k' := find_put k k' a m.entries

@[simp] theorem get?_set_self (m : KeyedMap κ α) (k : κ) (a : α) : (m.set k a).get? k = some a := by
  simp [get?_set]

theorem get?_set_of_ne (m : KeyedMap κ α) {k k' : κ} (a : α) (apart : k' ≠ k) : (m.set k a).get? k' = m.get? k' := by
  simp [get?_set, apart]

theorem keys_set (m : KeyedMap κ α) (k : κ) (a : α) :
    (m.set k a).keys = if k ∈ m.keys then m.keys else m.keys ++ [k] := put_keys k a m.entries

theorem mem_keys_set {m : KeyedMap κ α} {k k' : κ} {a : α} : k' ∈ (m.set k a).keys ↔ k' = k ∨ k' ∈ m.keys := by
  rw [keys_set]
  split
  · rename_i present
    exact ⟨Or.inr, fun either => either.elim (fun same => same ▸ present) id⟩
  · simp [or_comm]

theorem put_of_absent {k : κ} {a : α} {l : List (κ × α)} (absent : k ∉ l.map Prod.fst) : put k a l = l ++ [(k, a)] := by
  induction l with
  | nil => rfl
  | cons e rest ih =>
    simp only [List.map_cons, List.mem_cons, not_or] at absent
    simp [put, Ne.symm absent.1, ih absent.2]

theorem entries_set_of_absent {m : KeyedMap κ α} {k : κ} {a : α} (absent : m.get? k = none) :
    (m.set k a).entries = m.entries ++ [(k, a)] := put_of_absent (get?_eq_none.mp absent)

theorem values_set_of_absent {m : KeyedMap κ α} {k : κ} {a : α} (absent : m.get? k = none) :
    (m.set k a).values = m.values ++ [a] := by
  simp [values, entries_set_of_absent absent]

theorem countP_put {k : κ} {a b : α} (p : α → Bool) {l : List (κ × α)} (found : find k l = some b) :
    ((put k a l).map Prod.snd).countP p + (p b).toNat = (l.map Prod.snd).countP p + (p a).toNat := by
  induction l with
  | nil => cases found
  | cons e rest ih =>
    by_cases here : e.1 = k
    · simp only [find, here, if_true, Option.some.injEq] at found
      subst found
      simp only [put, here, if_true, List.map_cons, List.countP_cons]
      cases p e.2 <;> cases p a <;> simp
    · simp only [find, here, if_false] at found
      have counted := ih found
      simp only [put, here, if_false, List.map_cons, List.countP_cons]
      omega

/-- A value in place of another moves the count of a test by the difference of the two. -/
theorem countP_values_set {m : KeyedMap κ α} {k : κ} {a b : α} (p : α → Bool) (found : m.get? k = some b) :
    (m.set k a).values.countP p + (p b).toNat = m.values.countP p + (p a).toNat := countP_put p found

/-- Apply a function to the value at a key, when the key is bound. -/
def modify (m : KeyedMap κ α) (k : κ) (f : α → α) : KeyedMap κ α :=
  ⟨m.entries.map fun e => if e.1 = k then (e.1, f e.2) else e, by
    have same : (m.entries.map fun e => if e.1 = k then (e.1, f e.2) else e).map Prod.fst = m.entries.map Prod.fst := by
      rw [List.map_map]
      refine List.map_congr_left fun e _ => ?_
      simp only [Function.comp_apply]
      split <;> rfl
    rw [same]
    exact m.nodup⟩

theorem find_modified (k k' : κ) (f : α → α) (l : List (κ × α)) :
    find k' (l.map fun e => if e.1 = k then (e.1, f e.2) else e) =
      if k' = k then (find k l).map f else find k' l := by
  induction l with
  | nil => split <;> simp [find]
  | cons e rest ih =>
    by_cases here : e.1 = k
    · by_cases same : k' = k
      · subst same
        simp [find, here]
      · simp only [same, if_false] at ih
        simp [find, here, same, Ne.symm same, ih]
    · by_cases same : k' = k
      · subst same
        simp only [if_true] at ih
        simp [find, here, ih]
      · simp only [same, if_false] at ih
        simp [find, here, same, ih]

theorem get?_modify (m : KeyedMap κ α) (k k' : κ) (f : α → α) :
    (m.modify k f).get? k' = if k' = k then (m.get? k).map f else m.get? k' := find_modified k k' f m.entries

/-- A function that leaves the value at the key leaves the map. -/
theorem modify_eq_self {m : KeyedMap κ α} {k : κ} {f : α → α} (fixed : ∀ a, m.get? k = some a → f a = a) :
    m.modify k f = m := by
  apply ext
  refine (List.map_congr_left fun e member => ?_).trans (List.map_id _)
  by_cases here : e.1 = k
  · subst here
    rw [if_pos rfl, fixed e.2 (get?_eq_some.mpr member)]
    rfl
  · rw [if_neg here]
    rfl

theorem keys_modify (m : KeyedMap κ α) (k : κ) (f : α → α) : (m.modify k f).keys = m.keys := by
  unfold keys modify
  rw [List.map_map]
  refine List.map_congr_left fun e _ => ?_
  simp only [Function.comp_apply]
  split <;> rfl

/-- A modification that keeps a projection of the values keeps its list. -/
theorem map_values_modify (m : KeyedMap κ α) (k : κ) (f : α → α) (g : α → β) (kept : ∀ a, g (f a) = g a) :
    (m.modify k f).values.map g = m.values.map g := by
  unfold values modify
  simp only [List.map_map]
  refine List.map_congr_left fun e _ => ?_
  simp only [Function.comp_apply]
  split <;> simp [kept]

/-! ### Bulk update -/

/-- Bind every entry of a list in turn, a later one over an earlier one. -/
def setAll (m : KeyedMap κ α) (l : List (κ × α)) : KeyedMap κ α := l.foldl (fun n e => n.set e.1 e.2) m

/-- The map of a list of entries. -/
def ofList (l : List (κ × α)) : KeyedMap κ α := empty.setAll l

@[simp] theorem setAll_nil (m : KeyedMap κ α) : m.setAll [] = m := rfl
@[simp] theorem setAll_cons (m : KeyedMap κ α) (e : κ × α) (l : List (κ × α)) :
    m.setAll (e :: l) = (m.set e.1 e.2).setAll l := rfl

theorem get?_setAll_of_absent {m : KeyedMap κ α} {l : List (κ × α)} {k : κ} (absent : k ∉ l.map Prod.fst) :
    (m.setAll l).get? k = m.get? k := by
  induction l generalizing m with
  | nil => rfl
  | cons e rest ih =>
    simp only [List.map_cons, List.mem_cons, not_or] at absent
    rw [setAll_cons, ih absent.2, get?_set_of_ne _ _ absent.1]

/-- Binding all entries of a map over another one: the other shows where it is
    not covered. -/
theorem get?_setAll_entries (m n : KeyedMap κ α) (k : κ) :
    (m.setAll n.entries).get? k = (n.get? k).or (m.get? k) := by
  unfold get?
  obtain ⟨l, distinct⟩ := n
  induction l generalizing m with
  | nil => simp [find]
  | cons e rest ih =>
    have tail : (rest.map Prod.fst).Nodup := (List.nodup_cons.mp distinct).2
    have fresh : e.1 ∉ rest.map Prod.fst := (List.nodup_cons.mp distinct).1
    by_cases here : e.1 = k
    · subst here
      have kept := get?_setAll_of_absent (m := m.set e.1 e.2) fresh
      simp only [get?] at kept
      simp only [setAll_cons, find, if_true, Option.some_or, kept]
      exact get?_set_self m e.1 e.2
    · simp only [setAll_cons, find, here, if_false]
      rw [ih (m.set e.1 e.2) tail]
      exact congrArg _ (get?_set_of_ne m e.2 (Ne.symm here))

/-- The entries whose key passes a test. -/
def filterKeys (m : KeyedMap κ α) (p : κ → Bool) : KeyedMap κ α :=
  ⟨m.entries.filter fun e => p e.1, by
    have sub : ((m.entries.filter fun e => p e.1).map Prod.fst).Sublist (m.entries.map Prod.fst) :=
      List.Sublist.map _ List.filter_sublist
    exact m.nodup.sublist sub⟩

omit [DecidableEq κ] in
theorem mem_keys_filterKeys {m : KeyedMap κ α} {p : κ → Bool} {k : κ} :
    k ∈ (m.filterKeys p).keys ↔ k ∈ m.keys ∧ p k = true := by
  simp only [keys, filterKeys, List.mem_map, List.mem_filter]
  constructor
  · rintro ⟨e, ⟨member, passes⟩, rfl⟩
    exact ⟨⟨e, member, rfl⟩, passes⟩
  · rintro ⟨⟨e, member, rfl⟩, passes⟩
    exact ⟨e, ⟨member, passes⟩, rfl⟩

end
end KeyedMap
end SynapsorRunner
