import Mathlib.Data.List.Infix
import Mathlib.Data.List.Nodup

/-!
Depth-first search for the simple paths of a graph whose nodes are found by key. A node
lists its edges, an edge names the key of its target, and a search extends a path edge by
edge while it has room, never to a key it has visited. `mem_extensions` says which paths a
search lists. From a list of paths `uniqueShortest` keeps, for each target, the shortest
one where it is the only one of its length.
-/
namespace SynapsorRunner.SimplePaths

section
variable {Node Key Edge : Type} (out : Node → List Edge) (target : Edge → Key) (find : Key → Option Node)

/-- Each edge leaves the node where the one before it led. -/
def Chain : Node → List Edge → Prop
  | _, [] => True
  | current, next :: rest => next ∈ out current ∧ ∃ node, find (target next) = some node ∧ Chain node rest

/-- A path that meets no visited key and no key twice. -/
structure Simple (visited : List Key) (current : Node) (path : List Edge) : Prop where
  chain : Chain out target find current path
  distinct : (path.map target).Nodup
  fresh : ∀ e ∈ path, target e ∉ visited

variable {out target find}

theorem simple_nil {visited : List Key} {current : Node} : Simple out target find visited current [] :=
  ⟨trivial, List.nodup_nil, by simp⟩

theorem simple_cons {visited : List Key} {current : Node} {next : Edge} {rest : List Edge} :
    Simple out target find visited current (next :: rest) ↔
      next ∈ out current ∧ target next ∉ visited ∧
        ∃ node, find (target next) = some node ∧ Simple out target find (target next :: visited) node rest := by
  constructor
  · rintro ⟨⟨leaves, node, found, chain⟩, distinct, fresh⟩
    rw [List.map_cons, List.nodup_cons] at distinct
    refine ⟨leaves, fresh next (by simp), node, found, chain, distinct.2, ?_⟩
    intro e member
    have apart : target e ≠ target next := fun same => distinct.1 (same ▸ List.mem_map_of_mem member)
    simp [apart, fresh e (List.mem_cons_of_mem _ member)]
  · rintro ⟨leaves, unvisited, node, found, chain, distinct, fresh⟩
    refine ⟨⟨leaves, node, found, chain⟩, ?_, ?_⟩
    · rw [List.map_cons, List.nodup_cons]
      refine ⟨?_, distinct⟩
      intro again
      obtain ⟨e, member, same⟩ := List.mem_map.mp again
      exact fresh e member (by simp [same])
    · intro e member
      rcases List.mem_cons.mp member with rfl | member
      · exact unvisited
      · have := fresh e member
        simp only [List.mem_cons, not_or] at this
        exact this.2

/-- A path of one graph is one of another whose nodes correspond to its nodes. -/
theorem Chain.transfer {Node' : Type} {out' : Node' → List Edge} {find' : Key → Option Node'}
    {Same : Node → Node' → Prop}
    (edges : ∀ n n', Same n n' → ∀ e, e ∈ out n → e ∈ out' n')
    (nodes : ∀ k n, find k = some n → ∃ n', find' k = some n' ∧ Same n n') {current : Node} {current' : Node'}
    (same : Same current current') {path : List Edge} (chain : Chain out target find current path) :
    Chain out' target find' current' path := by
  induction path generalizing current current' with
  | nil => trivial
  | cons next rest ih =>
    obtain ⟨leaves, node, found, chainRest⟩ := chain
    obtain ⟨node', found', sameNode⟩ := nodes _ _ found
    exact ⟨edges _ _ same _ leaves, node', found', ih sameNode chainRest⟩

variable [DecidableEq Key]

variable (out target find) in
/-- The paths that lengthen `path` from `current`, each before the longer ones through it.
    A path that is not to be kept is not lengthened either. -/
def extensions (keep : List Edge → Bool) : Nat → Node → List Edge → List Key → List (List Edge)
  | 0, _, _, _ => []
  | room + 1, current, path, visited =>
    (out current).flatMap fun next =>
      if target next ∈ visited then []
      else match find (target next) with
        | none => []
        | some node =>
          if keep (path ++ [next]) then
            (path ++ [next]) :: extensions keep room node (path ++ [next]) (target next :: visited)
          else []

/-- A search lists the simple paths that there is room for and whose beginnings are kept. -/
theorem mem_extensions {keep : List Edge → Bool} {room : Nat} {current : Node} {path p : List Edge} {visited : List Key} :
    p ∈ extensions out target find keep room current path visited ↔
      ∃ rest, p = path ++ rest ∧ rest ≠ [] ∧ rest.length ≤ room ∧ Simple out target find visited current rest ∧
        ∀ part, part ≠ [] → part <+: rest → keep (path ++ part) = true := by
  induction room generalizing current path visited with
  | zero =>
    simp only [extensions, List.not_mem_nil, false_iff, not_exists]
    rintro rest ⟨-, nonempty, short, -⟩
    exact nonempty (List.eq_nil_of_length_eq_zero (Nat.le_zero.mp short))
  | succ room ih =>
    simp only [extensions, List.mem_flatMap]
    constructor
    · rintro ⟨next, leaves, member⟩
      by_cases visitedNext : target next ∈ visited
      · simp [visitedNext] at member
      rw [if_neg visitedNext] at member
      cases found : find (target next) with
      | none => simp [found] at member
      | some node =>
        simp only [found] at member
        by_cases kept : keep (path ++ [next]) = true
        · rw [if_pos kept, List.mem_cons] at member
          rcases member with rfl | member
          · refine ⟨[next], rfl, by simp, by simp, simple_cons.mpr ⟨leaves, visitedNext, node, found, simple_nil⟩, ?_⟩
            intro part nonempty begins
            have : part = [next] := by
              rcases List.prefix_cons_iff.mp begins with rfl | ⟨part', rfl, begins'⟩
              · exact absurd rfl nonempty
              · simp [List.prefix_nil.mp begins']
            rw [this]
            exact kept
          · obtain ⟨rest, rfl, -, short, simple, parts⟩ := ih.mp member
            refine ⟨next :: rest, by simp, by simp, by simp [short],
              simple_cons.mpr ⟨leaves, visitedNext, node, found, simple⟩, ?_⟩
            intro part nonempty begins
            rcases List.prefix_cons_iff.mp begins with rfl | ⟨part', rfl, begins'⟩
            · exact absurd rfl nonempty
            · by_cases last : part' = []
              · subst last
                exact kept
              · have := parts part' last begins'
                simpa using this
        · simp [kept] at member
    · rintro ⟨rest, rfl, nonempty, short, simple, parts⟩
      cases rest with
      | nil => exact absurd rfl nonempty
      | cons next rest =>
        obtain ⟨leaves, unvisited, node, found, simpleRest⟩ := simple_cons.mp simple
        refine ⟨next, leaves, ?_⟩
        have kept : keep (path ++ [next]) = true := parts [next] (by simp) (by simp)
        rw [if_neg unvisited]
        simp only [found, if_pos kept]
        cases rest with
        | nil => simp
        | cons second rest =>
          refine List.mem_cons_of_mem _ (ih.mpr ⟨second :: rest, by simp, by simp, ?_, simpleRest, ?_⟩)
          · simpa using short
          · intro part last begins
            have := parts (next :: part) (by simp) (List.prefix_cons_inj next |>.mpr begins)
            simpa using this

end

/-! ### The only shortest ones -/

section
variable {Item Key : Type} [DecidableEq Key] (key : Item → Key) (length : Item → Nat)

/-- The least length, and none of an empty list. -/
def leastLength (items : List Item) : Nat := ((items.map length).min?).getD 0

/-- The shortest item of each key, in the order of the keys, where no other is as short. -/
def uniqueShortest (items : List Item) : List Item :=
  (items.map key).eraseDups.flatMap fun k =>
    let group := items.filter fun item => decide (key item = k)
    let shortest := group.filter fun item => decide (length item = leastLength length group)
    if shortest.length = 1 then shortest else []

variable {key length}

theorem leastLength_le {items : List Item} {item : Item} (member : item ∈ items) :
    leastLength length items ≤ length item := by
  have listed : length item ∈ items.map length := List.mem_map_of_mem member
  unfold leastLength
  cases least : (items.map length).min? with
  | none => rw [List.min?_eq_none_iff.mp least] at listed; simp at listed
  | some n => exact (List.min?_eq_some_iff.mp least).2 _ listed

theorem uniqueShortest_singleton (item : Item) : uniqueShortest key length [item] = [item] := by
  have once : [key item].eraseDups = [key item] := by rw [List.eraseDups_cons]; simp
  rw [uniqueShortest, List.map_singleton, once]
  simp [leastLength]

/-- What is kept is listed, and every other item with its key is longer. -/
theorem mem_uniqueShortest {items : List Item} {item : Item} (kept : item ∈ uniqueShortest key length items) :
    item ∈ items ∧ ∀ other ∈ items, key other = key item →
      length item ≤ length other ∧ (length other = length item → other = item) := by
  simp only [uniqueShortest, List.mem_flatMap] at kept
  obtain ⟨k, -, kept⟩ := kept
  split at kept
  · rename_i only
    obtain ⟨single, shortest⟩ := List.length_eq_one_iff.mp only
    have isSingle : item = single := by simpa [shortest] using kept
    subst isSingle
    rw [List.mem_filter, List.mem_filter] at kept
    simp only [decide_eq_true_eq] at kept
    obtain ⟨⟨member, rfl⟩, least⟩ := kept
    refine ⟨member, ?_⟩
    intro other otherMember sameKey
    have inGroup : other ∈ items.filter fun i => decide (key i = key item) := by simp [otherMember, sameKey]
    refine ⟨least ▸ leastLength_le inGroup, ?_⟩
    intro sameLength
    have : other ∈ (items.filter fun i => decide (key i = key item)).filter fun i =>
        decide (length i = leastLength length (items.filter fun i => decide (key i = key item))) := by
      simp only [List.mem_filter, decide_eq_true_eq]
      exact ⟨⟨otherMember, sameKey⟩, sameLength.trans least⟩
    simpa [shortest] using this
  · simp at kept
end

end SynapsorRunner.SimplePaths
