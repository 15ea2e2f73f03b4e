import SynapsorRunner.JsonContents

/-!
Texts of JSON values in which a comparison of the program's own sorts the keys of every
object. What a value stands for once it is written and read (`contents`) does not depend
on the order of its keys, and a text gives it back (`contents_of_text`), whatever the
comparison is. The text of a value whose keys are enumerated is also the text of what is
read from its text (`orderedText_asRead`).
-/
namespace SynapsorRunner.LocaleJson
open SynapsorRunner.Doubles SynapsorRunner.NumberText SynapsorRunner.JsonText SynapsorRunner.CanonicalJson
open SynapsorRunner.JsonContents

section
variable (localeCompare : Text → Text → Ordering)

/-- The first key may stand before the second. -/
def keysInOrder {α : Type} (p q : Text × α) : Bool := decide (localeCompare p.1 q.1 ≠ .gt)

mutual
/-- The value with the keys of every object sorted. -/
def localeSorted : Json → Json
  | .null => .null
  | .bool value => .bool value
  | .number value => .number value
  | .string value => .string value
  | .array items => .array (localeSortedItems items)
  | .object properties => .object ((localeSortedProperties properties).mergeSort (keysInOrder localeCompare))

def localeSortedItems : List Json → List Json
  | [] => []
  | item :: rest => localeSorted item :: localeSortedItems rest

def localeSortedProperties : List (Text × Json) → List (Text × Json)
  | [] => []
  | (key, value) :: rest => (key, localeSorted value) :: localeSortedProperties rest
end

def orderedText (value : Json) : Text := (localeSorted localeCompare value).text

theorem localeSortedItems_eq (items : List Json) :
    localeSortedItems localeCompare items = items.map (localeSorted localeCompare) := by
  induction items with
  | nil => rfl
  | cons item rest ih => rw [localeSortedItems, ih, List.map_cons]

theorem localeSortedProperties_eq (properties : List (Text × Json)) :
    localeSortedProperties localeCompare properties = properties.map fun p => (p.1, localeSorted localeCompare p.2) := by
  induction properties with
  | nil => rfl
  | cons p rest ih => rw [localeSortedProperties, ih, List.map_cons]
end

/-! ### What a written value stands for -/

theorem asReadItems_eq (items : List Json) : asReadItems items = items.map asRead := by
  induction items with
  | nil => rfl
  | cons item rest ih => rw [asReadItems, ih, List.map_cons]

theorem asReadProperties_eq (properties : List (Text × Json)) :
    asReadProperties properties = properties.map fun p => (p.1, asRead p.2) := by
  induction properties with
  | nil => rfl
  | cons p rest ih => rw [asReadProperties, ih, List.map_cons]

/-- What the value stands for once it is written and read. -/
def contents (value : Json) : Value := denote (asRead value)

theorem contents_array (items : List Json) : contents (.array items) = .array (items.map contents) := by
  rw [contents, asRead, denote, asReadItems_eq, denoteItems_eq, List.map_map]
  rfl

theorem keys_of_map (f : Json → Json) (properties : List (Text × Json)) :
    (properties.map fun p => (p.1, f p.2)).map Prod.fst = properties.map Prod.fst := by
  rw [List.map_map]
  rfl

theorem contents_object {properties : List (Text × Json)} (unique : (properties.map Prod.fst).Nodup) :
    contents (.object properties) = .object fun key => (KeyedMap.find key properties).map contents := by
  have read : ((asReadProperties properties).map Prod.fst).Nodup := by
    rw [asReadProperties_eq, keys_of_map]
    exact unique
  obtain ⟨-, members⟩ := foldl_defineProperty_fresh read (by simp) List.Pairwise.nil
  rw [List.append_nil] at members
  rw [contents, asRead, denote]
  refine congrArg _ (funext fun key => ?_)
  rw [denoteProperties_perm members ((members.map Prod.fst).nodup_iff.mpr read), denoteProperties_find, asReadProperties_eq,
    KeyedMap.find_map, Option.map_map]
  rfl

theorem find_perm {left right : List (Text × Json)} (perm : left.Perm right) (unique : (left.map Prod.fst).Nodup) (key : Text) :
    KeyedMap.find key left = KeyedMap.find key right := by
  have uniqueToo : (right.map Prod.fst).Nodup := (perm.map Prod.fst).nodup_iff.mp unique
  cases found : KeyedMap.find key right with
  | none =>
    rw [KeyedMap.find_eq_none] at found ⊢
    rwa [(perm.map Prod.fst).mem_iff]
  | some value => exact KeyedMap.find_of_mem unique (perm.mem_iff.mpr (KeyedMap.find_mem found))

section
variable (localeCompare : Text → Text → Ordering)

theorem contents_localeSorted {value : Json} (distinct : Distinct value) :
    contents (localeSorted localeCompare value) = contents value := by
  induction value with
  | null => rfl
  | bool b => rfl
  | number n => rfl
  | string s => rfl
  | array items ih =>
    rw [localeSorted, localeSortedItems_eq, contents_array, contents_array, List.map_map]
    exact congrArg _ (List.map_congr_left fun item member => ih item member (itemsDistinct_iff.mp distinct item member))
  | object properties ih =>
    have each : ∀ p ∈ properties, contents (localeSorted localeCompare p.2) = contents p.2 :=
      fun p member => ih p member (propertiesDistinct_iff.mp distinct.2 p member)
    have keys := keys_of_map (localeSorted localeCompare) properties
    have perm := List.mergeSort_perm (properties.map fun p => (p.1, localeSorted localeCompare p.2)) (keysInOrder localeCompare)
    have unique := (perm.map Prod.fst).nodup_iff.mpr (keys ▸ distinct.1)
    rw [localeSorted, localeSortedProperties_eq, contents_object unique, contents_object distinct.1]
    refine congrArg _ (funext fun key => ?_)
    rw [find_perm perm unique, KeyedMap.find_map, Option.map_map]
    cases found : KeyedMap.find key properties with
    | none => rfl
    | some value => exact congrArg some (each (key, value) (KeyedMap.find_mem found))

end

variable {localeCompare : Text → Text → Ordering}

/-- The text gives back what the value stands for. -/
theorem contents_of_text {left right : Json} (distinct : Distinct left) (distinctToo : Distinct right)
    (same : orderedText localeCompare left = orderedText localeCompare right) : contents left = contents right := by
  have read := parseJson_asRead (localeSorted localeCompare left)
  rw [← orderedText, same, orderedText, parseJson_asRead, Option.some.injEq] at read
  rw [← contents_localeSorted localeCompare distinct, ← contents_localeSorted localeCompare distinctToo, contents, contents,
    read]

/-! ### The text of what is read -/

theorem numberText_unsignZero (n : Number) : numberText (unsignZero n) = numberText n := by
  cases n with
  | finite negative m =>
    by_cases positive : 0 < m.value
    · simp [unsignZero, positive]
    · simp [unsignZero, numberText, positive]
  | infinite negative => rfl
  | nan => rfl

theorem itemsText_congr : {items others : List Json} → items.map Json.text = others.map Json.text →
    itemsText items = itemsText others
  | [], [], _ => rfl
  | [], _ :: _, same => by simp at same
  | _ :: _, [], same => by simp at same
  | [_], [_], same => by simpa [itemsText] using same
  | [_], _ :: _ :: _, same => by simp at same
  | _ :: _ :: _, [_], same => by simp at same
  | item :: next :: rest, other :: after :: more, same => by
    obtain ⟨first, others⟩ := List.cons.inj same
    rw [itemsText, itemsText, first, itemsText_congr others]

theorem propertiesText_congr : {properties others : List (Text × Json)} →
    (properties.map fun p => (p.1, p.2.text)) = (others.map fun p => (p.1, p.2.text)) →
    propertiesText properties = propertiesText others
  | [], [], _ => rfl
  | [], _ :: _, same => by simp at same
  | _ :: _, [], same => by simp at same
  | [_], [_], same => by
    simp only [List.map_cons, List.map_nil, List.cons.injEq, Prod.mk.injEq, and_true] at same
    rw [propertiesText, propertiesText, same.1, same.2]
  | [_], _ :: _ :: _, same => by simp at same
  | _ :: _ :: _, [_], same => by simp at same
  | p :: next :: rest, q :: after :: more, same => by
    obtain ⟨first, others⟩ := List.cons.inj same
    obtain ⟨key, value⟩ := Prod.mk.inj first
    rw [propertiesText, propertiesText, key, value, propertiesText_congr others]

mutual
/-- The keys of every object of the value stand as they are enumerated, as those of a
    value in memory do. -/
def Ordered : Json → Prop
  | .array items => ItemsOrdered items
  | .object properties => PropertiesOrdered properties
  | _ => True

def ItemsOrdered : List Json → Prop
  | [] => True
  | item :: rest => Ordered item ∧ ItemsOrdered rest

def PropertiesOrdered : List (Text × Json) → Prop
  | [] => True
  | (key, value) :: rest => (∀ p ∈ rest, enumeratesBefore key p.1) ∧ Ordered value ∧ PropertiesOrdered rest
end

theorem itemsOrdered_iff {items : List Json} : ItemsOrdered items ↔ ∀ item ∈ items, Ordered item := by
  induction items with
  | nil => simp [ItemsOrdered]
  | cons item rest ih => rw [ItemsOrdered, ih, List.forall_mem_cons]

theorem propertiesOrdered_iff {properties : List (Text × Json)} : PropertiesOrdered properties ↔
    (properties.Pairwise fun p q => enumeratesBefore p.1 q.1) ∧ ∀ p ∈ properties, Ordered p.2 := by
  induction properties with
  | nil => simp [PropertiesOrdered]
  | cons p rest ih =>
    rw [PropertiesOrdered, ih, List.pairwise_cons, List.forall_mem_cons]
    tauto

theorem asRead_object {properties : List (Text × Json)} (ordered : PropertiesOrdered properties) :
    asRead (.object properties) = .object (properties.map fun p => (p.1, asRead p.2)) := by
  have pairs : (properties.map fun p => (p.1, asRead p.2)).Pairwise fun p q => enumeratesBefore p.1 q.1 :=
    List.pairwise_map.mpr (propertiesOrdered_iff.mp ordered).1
  rw [asRead, asReadProperties_eq, foldl_defineProperty_enumerated pairs [] (by simp), List.nil_append]

variable (localeCompare) in
/-- The text with sorted keys is made of the texts of the properties. -/
theorem orderedText_object (properties : List (Text × Json)) : ∃ texts : List (Text × Json),
    orderedText localeCompare (.object properties) = unit '{' :: (propertiesText texts ++ [unit '}']) ∧
      texts.map (fun p => (p.1, p.2.text)) =
        (properties.map fun p => (p.1, orderedText localeCompare p.2)).mergeSort (keysInOrder localeCompare) := by
  refine ⟨_, by rw [orderedText, localeSorted, Json.text], ?_⟩
  rw [List.map_mergeSort (s := keysInOrder localeCompare) (by intro p _ q _; rfl), localeSortedProperties_eq, List.map_map]
  rfl

theorem orderedText_asRead {value : Json} (ordered : Ordered value) :
    orderedText localeCompare (asRead value) = orderedText localeCompare value := by
  induction value with
  | null => rfl
  | bool b => rfl
  | number n =>
    rw [asRead]
    by_cases finite : n.isFinite = true
    · rw [if_pos finite, orderedText, orderedText, localeSorted, localeSorted, Json.text, Json.text, numberText_unsignZero]
    · rw [if_neg finite, orderedText, orderedText, localeSorted, localeSorted, Json.text, Json.text, numberText_null finite]
  | string s => rfl
  | array items ih =>
    have texts : ((items.map asRead).map (localeSorted localeCompare)).map Json.text =
        (items.map (localeSorted localeCompare)).map Json.text := by
      rw [List.map_map, List.map_map, List.map_map]
      exact List.map_congr_left fun item member => ih item member (itemsOrdered_iff.mp ordered item member)
    rw [asRead, asReadItems_eq, orderedText, orderedText, localeSorted, localeSorted, localeSortedItems_eq,
      localeSortedItems_eq, Json.text, Json.text, itemsText_congr texts]
  | object properties ih =>
    have each : ∀ p ∈ properties, orderedText localeCompare (asRead p.2) = orderedText localeCompare p.2 :=
      fun p member => ih p member ((propertiesOrdered_iff.mp ordered).2 p member)
    rw [asRead_object ordered]
    obtain ⟨texts, is, parts⟩ := orderedText_object localeCompare (properties.map fun p => (p.1, asRead p.2))
    obtain ⟨others, isToo, same⟩ := orderedText_object localeCompare properties
    have equal : texts.map (fun p => (p.1, p.2.text)) = others.map (fun p => (p.1, p.2.text)) := by
      rw [parts, same, List.map_map]
      refine congrArg (fun l => List.mergeSort l (keysInOrder localeCompare)) (List.map_congr_left ?_)
      intro p member
      exact Prod.ext rfl (each p member)
    rw [is, isToo, propertiesText_congr equal]

end SynapsorRunner.LocaleJson
