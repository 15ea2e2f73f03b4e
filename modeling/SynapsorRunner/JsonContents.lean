import SynapsorRunner.CanonicalJson
import SynapsorRunner.KeyedMap

/-!
Values that stand for the same contents. What is read from a text has each key of an
object once (`parseJson_distinct`), and whether such a value is a JSON value depends on
its contents alone (`isJson_of_denote`), not on the order of its keys.
-/
namespace SynapsorRunner.JsonContents
open SynapsorRunner.Doubles SynapsorRunner.NumberText SynapsorRunner.JsonText SynapsorRunner.CanonicalJson

mutual
/-- Every object of the value has a key once. -/
def Distinct : Json → Prop
  | .array items => ItemsDistinct items
  | .object properties => (properties.map Prod.fst).Nodup ∧ PropertiesDistinct properties
  | _ => True

def ItemsDistinct : List Json → Prop
  | [] => True
  | item :: rest => Distinct item ∧ ItemsDistinct rest

def PropertiesDistinct : List (Text × Json) → Prop
  | [] => True
  | (_, value) :: rest => Distinct value ∧ PropertiesDistinct rest
end

theorem itemsDistinct_iff {items : List Json} : ItemsDistinct items ↔ ∀ item ∈ items, Distinct item := by
  induction items with
  | nil => simp [ItemsDistinct]
  | cons item rest ih => rw [ItemsDistinct, ih, List.forall_mem_cons]

theorem propertiesDistinct_iff {properties : List (Text × Json)} :
    PropertiesDistinct properties ↔ ∀ p ∈ properties, Distinct p.2 := by
  induction properties with
  | nil => simp [PropertiesDistinct]
  | cons p rest ih => rw [PropertiesDistinct, ih, List.forall_mem_cons]

/-! ### What is read has each key once -/

theorem mem_defineProperty {α : Type} {known : List (Text × α)} {key : Text} {value : α} {p : Text × α}
    (member : p ∈ defineProperty known key value) : p.2 = value ∨ p ∈ known := by
  by_cases present : key ∈ known.map Prod.fst
  · rw [defineProperty, if_pos present] at member
    obtain ⟨q, old, rfl⟩ := List.mem_map.mp member
    by_cases same : q.1 = key
    · left
      rw [if_pos same]
    · right
      rw [if_neg same]
      exact old
  · have members := (defineProperty_perm present value).mem_iff.mp member
    rcases List.mem_cons.mp members with rfl | old
    · exact .inl rfl
    · exact .inr old

theorem defineProperty_nodup {α : Type} {known : List (Text × α)} (unique : (known.map Prod.fst).Nodup) (key : Text)
    (value : α) :
    ((defineProperty known key value).map Prod.fst).Nodup := by
  by_cases present : key ∈ known.map Prod.fst
  · rw [defineProperty, if_pos present]
    have keys : (known.map fun p => if p.1 = key then (key, value) else p).map Prod.fst = known.map Prod.fst := by
      rw [List.map_map]
      refine List.map_congr_left ?_
      intro p _
      by_cases same : p.1 = key
      · simp [same]
      · simp [same]
    rw [keys]
    exact unique
  · have perm := (defineProperty_perm present value).map Prod.fst
    rw [perm.nodup_iff, List.map_cons, List.nodup_cons]
    exact ⟨present, unique⟩

theorem find_append {α : Type} (key : Text) (left right : List (Text × α)) :
    KeyedMap.find key (left ++ right) = (KeyedMap.find key left).or (KeyedMap.find key right) := by
  induction left with
  | nil => rfl
  | cons p rest ih =>
    rw [List.cons_append, KeyedMap.find, KeyedMap.find, ih]
    by_cases same : p.1 = key <;> simp [same]

theorem find_overwritten {α : Type} (key other : Text) (value : α) (known : List (Text × α)) :
    KeyedMap.find other (known.map fun p => if p.1 = key then (key, value) else p) =
      if other = key then (KeyedMap.find key known).map fun _ => value else KeyedMap.find other known := by
  induction known with
  | nil => simp [KeyedMap.find]
  | cons p rest ih =>
    rw [List.map_cons, KeyedMap.find, KeyedMap.find, KeyedMap.find, ih]
    by_cases same : other = key
    · by_cases here : p.1 = key <;> simp [same, here]
    · by_cases here : p.1 = key
      · simp [same, here, Ne.symm same]
      · simp [same, here]

theorem find_defineProperty {α : Type} (known : List (Text × α)) (key other : Text) (value : α) :
    KeyedMap.find other (defineProperty known key value) = if other = key then some value else KeyedMap.find other known := by
  by_cases present : key ∈ known.map Prod.fst
  · rw [defineProperty, if_pos present, find_overwritten]
    obtain ⟨old, found⟩ := Option.ne_none_iff_exists'.mp (mt KeyedMap.find_eq_none.mp (not_not.mpr present))
    rw [found]
    rfl
  · have absent := KeyedMap.find_eq_none.mpr present
    rw [defineProperty, if_neg present]
    cases arrayIndex key with
    | none =>
      rw [find_append, KeyedMap.find]
      by_cases same : other = key
      · simp [same, absent]
      · simp [same, Ne.symm same, KeyedMap.find]
    | some n =>
      dsimp only
      rw [find_append, KeyedMap.find]
      by_cases same : other = key
      · have before := absent
        rw [← List.takeWhile_append_dropWhile (p := fun p : Text × α => (arrayIndex p.1).any (· < n)) (l := known), find_append,
          Option.or_eq_none_iff] at before
        simp [same, before.1]
      · rw [if_neg (Ne.symm same), if_neg same, ← find_append, List.takeWhile_append_dropWhile]

/-- The object that is read from its properties. -/
theorem foldl_defineProperty_distinct {properties known : List (Text × Json)} (unique : (known.map Prod.fst).Nodup)
    (old : ∀ p ∈ known, Distinct p.2) (new : ∀ p ∈ properties, Distinct p.2) :
    Distinct (.object (properties.foldl (fun known p => defineProperty known p.1 p.2) known)) := by
  induction properties generalizing known with
  | nil => exact ⟨unique, propertiesDistinct_iff.mpr old⟩
  | cons q rest ih =>
    rw [List.forall_mem_cons] at new
    refine ih (defineProperty_nodup unique q.1 q.2) ?_ new.2
    intro p member
    rcases mem_defineProperty member with value | before
    · rw [value]
      exact new.1
    · exact old p before

theorem parseWord_distinct {text rest : Text} {value : Json} (read : parseWord text = some (value, rest)) :
    Distinct value := by
  simp only [parseWord, Option.or_eq_some_iff, Option.map_eq_some_iff, Prod.mk.injEq] at read
  rcases read with ⟨_, _, rfl, _⟩ | ⟨_, ⟨_, _, rfl, _⟩ | ⟨_, _, _, rfl, _⟩⟩
  · trivial
  · trivial
  · trivial

/-- A value, the items of an array and the properties of an object, as they are read. -/
theorem parse_distinct (fuel : ℕ) :
    (∀ {text value rest}, parseValue fuel text = some (value, rest) → Distinct value) ∧
      (∀ {text items rest}, parseItems fuel text = some (items, rest) → ∀ item ∈ items, Distinct item) ∧
      (∀ {text properties rest}, parseProperties fuel text = some (properties, rest) → ∀ p ∈ properties, Distinct p.2) := by
  induction fuel with
  | zero =>
    refine ⟨?_, ?_, ?_⟩
    · intro text value rest read
      simp [parseValue] at read
    · intro text items rest read
      simp [parseItems] at read
    · intro text properties rest read
      simp [parseProperties] at read
  | succ fuel ih =>
    obtain ⟨values, lists, objects⟩ := ih
    refine ⟨?_, ?_, ?_⟩
    · intro text value rest read
      unfold parseValue at read
      cases start : skipWhitespace text with
      | nil => simp [start] at read
      | cons u more =>
        simp only [start] at read
        split_ifs at read with quote bracket brace digit
        · obtain ⟨⟨s, after⟩, -, same⟩ := Option.map_eq_some_iff.mp read
          cases same
          trivial
        · cases next : skipWhitespace more with
          | nil => simp [next] at read
          | cons v others =>
            simp only [next] at read
            split_ifs at read with closing
            · cases read
              trivial
            · obtain ⟨⟨items, after⟩, inner, same⟩ := Option.map_eq_some_iff.mp read
              cases same
              exact itemsDistinct_iff.mpr (lists inner)
        · cases next : skipWhitespace more with
          | nil => simp [next] at read
          | cons v others =>
            simp only [next] at read
            split_ifs at read with closing
            · cases read
              exact ⟨List.nodup_nil, trivial⟩
            · obtain ⟨⟨properties, after⟩, inner, same⟩ := Option.map_eq_some_iff.mp read
              cases same
              exact foldl_defineProperty_distinct List.nodup_nil (by simp) (objects inner)
        · obtain ⟨⟨n, after⟩, -, same⟩ := Option.map_eq_some_iff.mp read
          cases same
          trivial
        · exact parseWord_distinct read
    · intro text items rest read
      unfold parseItems at read
      obtain ⟨⟨item, after⟩, first, next⟩ := Option.bind_eq_some_iff.mp read
      dsimp only at next
      cases start : skipWhitespace after with
      | nil => simp [start] at next
      | cons u more =>
        simp only [start] at next
        split_ifs at next with comma closing
        · obtain ⟨⟨others, last⟩, inner, same⟩ := Option.map_eq_some_iff.mp next
          cases same
          exact List.forall_mem_cons.mpr ⟨values first, lists inner⟩
        · cases next
          exact List.forall_mem_singleton.mpr (values first)
    · intro text properties rest read
      unfold parseProperties at read
      cases start : skipWhitespace text with
      | nil => simp [start] at read
      | cons u more =>
        simp only [start] at read
        split_ifs at read with quote
        obtain ⟨⟨key, after⟩, -, next⟩ := Option.bind_eq_some_iff.mp read
        dsimp only at next
        cases colon : skipWhitespace after with
        | nil => simp [colon] at next
        | cons v others =>
          simp only [colon] at next
          split_ifs at next with isColon
          obtain ⟨⟨value, behind⟩, first, last⟩ := Option.bind_eq_some_iff.mp next
          dsimp only at last
          cases stop : skipWhitespace behind with
          | nil => simp [stop] at last
          | cons w final =>
            simp only [stop] at last
            split_ifs at last with comma closing
            · obtain ⟨⟨properties, end_⟩, inner, same⟩ := Option.map_eq_some_iff.mp last
              cases same
              exact List.forall_mem_cons.mpr ⟨values first, objects inner⟩
            · cases last
              exact List.forall_mem_singleton.mpr (values first)

theorem parseJson_distinct {text : Text} {value : Json} (read : parseJson text = some value) : Distinct value := by
  obtain ⟨⟨first, rest⟩, inner, last⟩ := Option.bind_eq_some_iff.mp read
  dsimp only at last
  split_ifs at last with finished
  cases last
  exact (parse_distinct _).1 inner

/-! ### Equal contents -/

theorem denote_array {items : List Json} {value : Json} (same : denote (.array items) = denote value) :
    ∃ others, value = .array others ∧ items.map denote = others.map denote := by
  cases value with
  | array others =>
    simp only [denote, Value.array.injEq, denoteItems_eq] at same
    exact ⟨others, rfl, same⟩
  | _ => simp [denote] at same

theorem denote_object {properties : List (Text × Json)} {value : Json}
    (same : denote (.object properties) = denote value) :
    ∃ others, value = .object others ∧ denoteProperties properties = denoteProperties others := by
  cases value with
  | object others =>
    simp only [denote, Value.object.injEq] at same
    exact ⟨others, rfl, same⟩
  | _ => simp [denote] at same

theorem mem_map_eq {α β : Type} {f : α → β} {left right : List α} (same : left.map f = right.map f) {b : α}
    (member : b ∈ right) :
    ∃ a ∈ left, f a = f b := by
  have image : f b ∈ left.map f := by
    rw [same]
    exact List.mem_map_of_mem member
  exact List.mem_map.mp image

/-- A property of an object is one of every object with the same contents. -/
theorem mem_of_denoteProperties {left right : List (Text × Json)} (leftUnique : (left.map Prod.fst).Nodup)
    (rightUnique : (right.map Prod.fst).Nodup) (same : denoteProperties left = denoteProperties right) {q : Text × Json}
    (member : q ∈ right) : ∃ p ∈ left, p.1 = q.1 ∧ denote p.2 = denote q.2 := by
  have found := (denoteProperties_some rightUnique).mpr ⟨q, member, rfl, rfl⟩
  rw [← same] at found
  exact (denoteProperties_some leftUnique).mp found

theorem isJson_of_denote {left : Json} : ∀ {right : Json}, IsJson left → Distinct right → denote left = denote right →
    IsJson right := by
  induction left with
  | null => intro right _ _ same; cases right <;> simp [denote] at same; trivial
  | bool b => intro right _ _ same; cases right <;> simp [denote] at same; trivial
  | string s => intro right _ _ same; cases right <;> simp [denote] at same; trivial
  | number n =>
    intro right json _ same
    cases right with
    | number m =>
      simp only [denote, Value.number.injEq] at same
      have finite : n.isFinite = true := json
      show m.isFinite = true
      cases n <;> cases m <;> simp_all [unsignZero, Number.isFinite]
    | _ => simp [denote] at same
  | array items ih =>
    intro right json distinct same
    obtain ⟨others, rfl, values⟩ := denote_array same
    refine itemsAreJson_iff.mpr ?_
    intro other member
    obtain ⟨item, inside, equal⟩ := mem_map_eq values member
    exact ih item inside (itemsAreJson_iff.mp json item inside) (itemsDistinct_iff.mp distinct other member) equal
  | object properties ih =>
    intro right json distinct same
    obtain ⟨others, rfl, values⟩ := denote_object same
    refine ⟨distinct.1, propertiesAreJson_iff.mpr ?_⟩
    intro q member
    obtain ⟨p, inside, -, equal⟩ := mem_of_denoteProperties json.1 distinct.1 values member
    exact ih p inside (propertiesAreJson_iff.mp json.2 p inside) (propertiesDistinct_iff.mp distinct.2 q member) equal

theorem denoteProperties_find (properties : List (Text × Json)) (key : Text) :
    denoteProperties properties key = (KeyedMap.find key properties).map denote := by
  induction properties with
  | nil => rfl
  | cons p rest ih =>
    obtain ⟨name, value⟩ := p
    by_cases same : name = key
    · simp [denoteProperties, KeyedMap.find, same]
    · simp [denoteProperties, KeyedMap.find, same, ih]

/-! ### Values as they are read -/

theorem PropertiesEnumerated.nodup {properties : List (Text × Json)} (enumerated : PropertiesEnumerated properties) :
    (properties.map Prod.fst).Nodup := by
  rw [List.Nodup, List.pairwise_map]
  exact enumerated.pairwise.imp fun before => enumeratesBefore_ne before

theorem itemsEnumerated_iff {items : List Json} : ItemsEnumerated items ↔ ∀ item ∈ items, item.Enumerated := by
  induction items with
  | nil => simp [ItemsEnumerated]
  | cons item rest ih => rw [ItemsEnumerated, ih, List.forall_mem_cons]

theorem PropertiesEnumerated.each {properties : List (Text × Json)} (enumerated : PropertiesEnumerated properties) :
    ∀ p ∈ properties, p.2.Enumerated := by
  induction properties with
  | nil => simp
  | cons p rest ih => exact List.forall_mem_cons.mpr ⟨enumerated.2.1, ih enumerated.2.2⟩

theorem Json.Enumerated.isJson {value : Json} (enumerated : value.Enumerated) : IsJson value := by
  induction value with
  | null => trivial
  | bool b => trivial
  | string s => trivial
  | number n => exact enumerated.1
  | array items ih =>
    refine itemsAreJson_iff.mpr ?_
    intro item member
    exact ih item member (itemsEnumerated_iff.mp enumerated item member)
  | object properties ih =>
    have each := PropertiesEnumerated.each enumerated
    refine ⟨PropertiesEnumerated.nodup enumerated, propertiesAreJson_iff.mpr ?_⟩
    intro p member
    exact ih p member (each p member)

/-! ### Objects that are read -/

theorem enumeratesBefore_of_index {key head other : Text} {n : ℕ} (index : arrayIndex key = some n)
    (before : enumeratesBefore key head) (after : enumeratesBefore head other) : enumeratesBefore key other := by
  unfold enumeratesBefore at *
  rw [index] at before ⊢
  cases one : arrayIndex head <;> cases two : arrayIndex other <;> simp only [one, two] at before after ⊢
  exact lt_trans before after

/-- A new key is put in its place of the enumeration. -/
theorem defineProperty_enumerated {known : List (Text × Json)}
    (enumerated : known.Pairwise fun p q => enumeratesBefore p.1 q.1)
    {key : Text} (fresh : key ∉ known.map Prod.fst) (value : Json) :
    (defineProperty known key value).Pairwise fun p q => enumeratesBefore p.1 q.1 := by
  have differs : ∀ p ∈ known, p.1 ≠ key := fun p member same => fresh (List.mem_map.mpr ⟨p, member, same⟩)
  unfold defineProperty
  rw [if_neg fresh]
  cases index : arrayIndex key with
  | none =>
    refine List.pairwise_append.mpr ⟨enumerated, List.pairwise_singleton _ _, ?_⟩
    intro p member q last
    rw [List.mem_singleton.mp last]
    unfold enumeratesBefore
    rw [index]
    cases arrayIndex p.1 with
    | none => exact differs p member
    | some m => trivial
  | some n =>
    dsimp only
    have split := enumerated
    rw [← List.takeWhile_append_dropWhile (p := fun p : Text × Json => (arrayIndex p.1).any (· < n)) (l := known),
      List.pairwise_append] at split
    obtain ⟨front, back, across⟩ := split
    have before : ∀ p ∈ known.takeWhile fun p => (arrayIndex p.1).any (· < n), enumeratesBefore p.1 key := by
      intro p member
      have smaller := List.mem_takeWhile_imp member
      unfold enumeratesBefore
      cases known : arrayIndex p.1 with
      | none => simp [known] at smaller
      | some m => simpa [index, known] using smaller
    have after : ∀ q ∈ known.dropWhile fun p => (arrayIndex p.1).any (· < n), enumeratesBefore key q.1 := by
      intro q member
      cases rest : known.dropWhile fun p => (arrayIndex p.1).any (· < n) with
      | nil => simp [rest] at member
      | cons first others =>
        have inside : first ∈ known := by
          refine (List.dropWhile_sublist fun p : Text × Json => (arrayIndex p.1).any (· < n)).subset ?_
          rw [rest]
          exact List.mem_cons_self
        have notSmaller : ¬ ((arrayIndex first.1).any (· < n)) = true := by
          have stops := List.head?_dropWhile_not (fun p : Text × Json => (arrayIndex p.1).any (· < n)) known
          rw [rest] at stops
          simpa using stops
        have head := enumeratesBefore_of_keyBefore (keyBefore_of_index index notSmaller (differs first inside).symm)
        rw [rest] at member back
        rcases List.mem_cons.mp member with rfl | later
        · exact head
        · exact enumeratesBefore_of_index index head ((List.pairwise_cons.mp back).1 q later)
    refine List.pairwise_append.mpr ⟨front, List.pairwise_cons.mpr ⟨after, back⟩, ?_⟩
    intro p member q inside
    rcases List.mem_cons.mp inside with rfl | later
    · exact before p member
    · exact across p member q later

theorem foldl_defineProperty_fresh {properties known : List (Text × Json)} (unique : (properties.map Prod.fst).Nodup)
    (apart : ∀ p ∈ properties, p.1 ∉ known.map Prod.fst) (enumerated : known.Pairwise fun p q => enumeratesBefore p.1 q.1) :
    ((properties.foldl (fun known p => defineProperty known p.1 p.2) known).Pairwise fun p q => enumeratesBefore p.1 q.1) ∧
      (properties.foldl (fun known p => defineProperty known p.1 p.2) known).Perm (properties ++ known) := by
  induction properties generalizing known with
  | nil => exact ⟨enumerated, List.Perm.refl _⟩
  | cons q rest ih =>
    rw [List.map_cons, List.nodup_cons] at unique
    have fresh := apart q List.mem_cons_self
    have perm := defineProperty_perm fresh q.2
    have later : ∀ p ∈ rest, p.1 ∉ (defineProperty known q.1 q.2).map Prod.fst := by
      intro p member inside
      rw [(perm.map Prod.fst).mem_iff, List.map_cons, List.mem_cons] at inside
      rcases inside with same | old
      · exact unique.1 (List.mem_map.mpr ⟨p, member, same⟩)
      · exact apart p (List.mem_cons_of_mem _ member) old
    obtain ⟨ordered, members⟩ := ih unique.2 later (defineProperty_enumerated enumerated fresh q.2)
    exact ⟨ordered, members.trans ((perm.append_left rest).trans List.perm_middle)⟩

theorem propertiesEnumerated_iff {properties : List (Text × Json)} :
    PropertiesEnumerated properties ↔
      (properties.Pairwise fun p q => enumeratesBefore p.1 q.1) ∧ ∀ p ∈ properties, p.2.Enumerated := by
  induction properties with
  | nil => simp [PropertiesEnumerated]
  | cons p rest ih =>
    rw [PropertiesEnumerated, ih, List.pairwise_cons, List.forall_mem_cons]
    tauto

end SynapsorRunner.JsonContents
