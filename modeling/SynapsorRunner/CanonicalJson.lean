import Mathlib.Data.List.Sort
import SynapsorRunner.JsonText

/-!
The canonical text of reviewed data: the keys of every object sorted, a negative zero
made positive, the rest refused. The value that is written is built by assignments to
a new object, and an assignment to `__proto__` makes no property. So the text stands
for the value without those keys, at any depth, and is the same for two values exactly
when they are equal without them (`canonical_eq_iff`).
-/
namespace SynapsorRunner.CanonicalJson
open SynapsorRunner.Doubles SynapsorRunner.NumberText SynapsorRunner.JsonText

/-! ### The code -/

def protoKey : Text := ascii "__proto__"

/-- `output[key] = value`, of which the setter of `__proto__` makes no property. -/
def assign (output : List (Text × Json)) (key : Text) (value : Json) : List (Text × Json) :=
  if key = protoKey then output else defineProperty output key value

/-- The order of strings in a sort, by their units. -/
def sortKeys (properties : List (Text × Json)) : List (Text × Json) :=
  properties.insertionSort fun p q => p.1 ≤ q.1

mutual
/-- The values are made canonical before their keys are sorted: the order of the calls
    shows only in which of equal errors is thrown. -/
def canonicalJsonValue : Json → Except String Json
  | .null => .ok .null
  | .bool value => .ok (.bool value)
  | .string value => .ok (.string value)
  | .number value =>
    if value.isFinite then .ok (.number (unsignZero value))
    else .error "canonical JSON accepts only finite numbers"
  | .array items => (canonicalJsonItems items).map .array
  | .object properties => (canonicalJsonProperties properties).map fun properties =>
      .object ((sortKeys properties).foldl (fun output p => assign output p.1 p.2) [])

def canonicalJsonItems : List Json → Except String (List Json)
  | [] => .ok []
  | item :: rest => (canonicalJsonValue item).bind fun item => (canonicalJsonItems rest).map fun rest => item :: rest

def canonicalJsonProperties : List (Text × Json) → Except String (List (Text × Json))
  | [] => .ok []
  | (key, value) :: rest =>
    (canonicalJsonValue value).bind fun value => (canonicalJsonProperties rest).map fun rest => (key, value) :: rest
end

def canonicalJsonStringify (input : Json) : Except String Text := (canonicalJsonValue input).map Json.text

/-! ### What a value stands for -/

/-- Values up to the order of keys and the sign of zero: an object gives a key its
    value. -/
inductive Value where
  | null
  | bool (value : Bool)
  | number (value : Number)
  | string (value : Text)
  | array (items : List Value)
  | object (property : Text → Option Value)

mutual
def denote : Json → Value
  | .null => .null
  | .bool value => .bool value
  | .number value => .number (unsignZero value)
  | .string value => .string value
  | .array items => .array (denoteItems items)
  | .object properties => .object (denoteProperties properties)

def denoteItems : List Json → List Value
  | [] => []
  | item :: rest => denote item :: denoteItems rest

def denoteProperties : List (Text × Json) → Text → Option Value
  | [], _ => none
  | (name, value) :: rest, key => if name = key then some (denote value) else denoteProperties rest key
end

mutual
/-- The value without the keys `__proto__`, at any depth. -/
def withoutProto : Json → Json
  | .array items => .array (itemsWithoutProto items)
  | .object properties => .object (propertiesWithoutProto properties)
  | .null => .null
  | .bool value => .bool value
  | .number value => .number value
  | .string value => .string value

def itemsWithoutProto : List Json → List Json
  | [] => []
  | item :: rest => withoutProto item :: itemsWithoutProto rest

def propertiesWithoutProto : List (Text × Json) → List (Text × Json)
  | [] => []
  | (key, value) :: rest =>
    if key = protoKey then propertiesWithoutProto rest else (key, withoutProto value) :: propertiesWithoutProto rest
end

mutual
/-- No object of the value has the key `__proto__`. -/
def ProtoFree : Json → Prop
  | .array items => ItemsProtoFree items
  | .object properties => PropertiesProtoFree properties
  | _ => True

def ItemsProtoFree : List Json → Prop
  | [] => True
  | item :: rest => ProtoFree item ∧ ItemsProtoFree rest

def PropertiesProtoFree : List (Text × Json) → Prop
  | [] => True
  | (key, value) :: rest => key ≠ protoKey ∧ ProtoFree value ∧ PropertiesProtoFree rest
end

mutual
/-- A JSON value: its numbers are finite and its objects have a key once. -/
def IsJson : Json → Prop
  | .number value => value.isFinite = true
  | .array items => ItemsAreJson items
  | .object properties => (properties.map Prod.fst).Nodup ∧ PropertiesAreJson properties
  | _ => True

def ItemsAreJson : List Json → Prop
  | [] => True
  | item :: rest => IsJson item ∧ ItemsAreJson rest

def PropertiesAreJson : List (Text × Json) → Prop
  | [] => True
  | (_, value) :: rest => IsJson value ∧ PropertiesAreJson rest
end

def JsonValue := { value : Json // IsJson value }

/-! ### Assignments to a new object -/

theorem foldl_assign (properties output : List (Text × Json)) :
    properties.foldl (fun output p => assign output p.1 p.2) output =
      (properties.filter fun p => p.1 ≠ protoKey).foldl (fun output p => defineProperty output p.1 p.2) output := by
  induction properties generalizing output with
  | nil => rfl
  | cons p rest ih =>
    rw [List.foldl_cons, ih]
    by_cases proto : p.1 = protoKey
    · rw [List.filter_cons_of_neg (by simp [proto]), assign, if_pos proto]
    · rw [List.filter_cons_of_pos (by simp [proto]), List.foldl_cons, assign, if_neg proto]

theorem defineProperty_perm {α : Type} {output : List (Text × α)} {key : Text} (fresh : key ∉ output.map Prod.fst) (value : α) :
    (defineProperty output key value).Perm ((key, value) :: output) := by
  unfold defineProperty
  rw [if_neg fresh]
  cases arrayIndex key with
  | none => exact (List.perm_append_singleton _ _)
  | some n =>
    dsimp only
    refine List.perm_middle.trans ?_
    rw [List.takeWhile_append_dropWhile]

theorem keyBefore_of_index {key other : Text} {n : ℕ} (index : arrayIndex key = some n)
    (notSmaller : ¬ ((arrayIndex other).any (· < n)) = true) (differs : key ≠ other) : keyBefore key other := by
  unfold keyBefore
  rw [index]
  cases known : arrayIndex other with
  | none => trivial
  | some m =>
    have different : m ≠ n := by
      rintro rfl
      exact differs (arrayIndex_injective index known)
    simp [known] at notSmaller
    dsimp only
    omega

theorem keyBefore_of_smaller {key other : Text} {n : ℕ} (index : arrayIndex key = some n)
    (smaller : ((arrayIndex other).any (· < n)) = true) : keyBefore other key := by
  unfold keyBefore
  rw [index]
  cases known : arrayIndex other with
  | none => simp [known] at smaller
  | some m => simpa [known] using smaller

/-- A new key that sorts after the others is put in its place of the enumeration. -/
theorem defineProperty_sorted {output : List (Text × Json)} (sorted : output.Pairwise fun p q => keyBefore p.1 q.1) {key : Text}
    (greater : ∀ p ∈ output, p.1 < key) (value : Json) :
    (defineProperty output key value).Pairwise fun p q => keyBefore p.1 q.1 := by
  have fresh : key ∉ output.map Prod.fst := by
    intro member
    obtain ⟨p, inside, rfl⟩ := List.mem_map.mp member
    exact lt_irrefl _ (greater p inside)
  unfold defineProperty
  rw [if_neg fresh]
  cases index : arrayIndex key with
  | none =>
    refine List.pairwise_append.mpr ⟨sorted, List.pairwise_singleton _ _, ?_⟩
    intro p member q last
    rw [List.mem_singleton.mp last]
    unfold keyBefore
    rw [index]
    cases arrayIndex p.1 with
    | none => exact greater p member
    | some m => trivial
  | some n =>
    dsimp only
    have parts := List.takeWhile_append_dropWhile (p := fun p : Text × Json => (arrayIndex p.1).any (· < n)) (l := output)
    have split := sorted
    rw [← parts, List.pairwise_append] at split
    obtain ⟨front, back, across⟩ := split
    have before : ∀ p ∈ output.takeWhile fun p => (arrayIndex p.1).any (· < n), keyBefore p.1 key := by
      intro p member
      have smaller := List.mem_takeWhile_imp member
      exact keyBefore_of_smaller index smaller
    have after : ∀ q ∈ output.dropWhile fun p => (arrayIndex p.1).any (· < n), keyBefore key q.1 := by
      intro q member
      have inside : ∀ r ∈ output.dropWhile (fun p => (arrayIndex p.1).any (· < n)), key ≠ r.1 := fun r kept same =>
        fresh (List.mem_map.mpr ⟨r, (List.dropWhile_sublist _).subset kept, same.symm⟩)
      cases rest : output.dropWhile fun p => (arrayIndex p.1).any (· < n) with
      | nil => simp [rest] at member
      | cons first others =>
        have notSmaller : ¬ ((arrayIndex first.1).any (· < n)) = true := by
          have stops := List.head?_dropWhile_not (fun p : Text × Json => (arrayIndex p.1).any (· < n)) output
          rw [rest] at stops
          simpa using stops
        rw [rest] at member inside back
        have head := keyBefore_of_index index notSmaller (inside first (by simp))
        rcases List.mem_cons.mp member with rfl | later
        · exact head
        · exact keyBefore_trans head ((List.pairwise_cons.mp back).1 q later)
    refine List.pairwise_append.mpr ⟨front, List.pairwise_cons.mpr ⟨after, back⟩, ?_⟩
    intro p member q inside
    rcases List.mem_cons.mp inside with rfl | later
    · exact before p member
    · exact across p member q later

/-- Properties defined in the order of a sort stand in the order of enumeration. -/
theorem foldl_defineProperty {properties : List (Text × Json)} (increasing : properties.Pairwise fun p q => p.1 < q.1)
    {output : List (Text × Json)} (sorted : output.Pairwise fun p q => keyBefore p.1 q.1)
    (greater : ∀ p ∈ output, ∀ q ∈ properties, p.1 < q.1) :
    ((properties.foldl (fun output p => defineProperty output p.1 p.2) output).Pairwise fun p q => keyBefore p.1 q.1) ∧
      (properties.foldl (fun output p => defineProperty output p.1 p.2) output).Perm (properties ++ output) := by
  induction properties generalizing output with
  | nil => exact ⟨sorted, List.Perm.refl _⟩
  | cons q rest ih =>
    rw [List.pairwise_cons] at increasing
    have last : ∀ p ∈ output, p.1 < q.1 := fun p member => greater p member q (by simp)
    have fresh : q.1 ∉ output.map Prod.fst := by
      intro member
      obtain ⟨p, inside, same⟩ := List.mem_map.mp member
      have before := last p inside
      rw [same] at before
      exact lt_irrefl _ before
    have perm := defineProperty_perm fresh q.2
    have later : ∀ p ∈ defineProperty output q.1 q.2, ∀ r ∈ rest, p.1 < r.1 := by
      intro p member r inside
      rcases List.mem_cons.mp (perm.mem_iff.mp member) with rfl | old
      · exact increasing.1 r inside
      · exact greater p old r (by simp [inside])
    obtain ⟨ordered, members⟩ := ih increasing.2 (defineProperty_sorted sorted last q.2) later
    refine ⟨ordered, members.trans ?_⟩
    exact (perm.append_left rest).trans List.perm_middle

theorem sortKeys_perm (properties : List (Text × Json)) : (sortKeys properties).Perm properties :=
  List.perm_insertionSort _ _

theorem sortKeys_increasing {properties : List (Text × Json)} (unique : (properties.map Prod.fst).Nodup) :
    (sortKeys properties).Pairwise fun p q => p.1 < q.1 := by
  have total : Std.Total fun p q : Text × Json => p.1 ≤ q.1 := ⟨fun p q => le_total p.1 q.1⟩
  have transitive : IsTrans (Text × Json) fun p q => p.1 ≤ q.1 := ⟨fun p q r => le_trans⟩
  have ordered : (sortKeys properties).Pairwise fun p q => p.1 ≤ q.1 := List.pairwise_insertionSort _ _
  have different : (sortKeys properties).Pairwise fun p q => p.1 ≠ q.1 := by
    rw [← List.pairwise_map, ← List.Nodup]
    exact ((sortKeys_perm properties).map Prod.fst).nodup_iff.mpr unique
  exact ordered.imp₂ (fun p q le ne => lt_of_le_of_ne le ne) different

/-- The object that the assignments of sorted keys make. -/
theorem assigned_spec {properties : List (Text × Json)} (unique : (properties.map Prod.fst).Nodup) :
    let output := (sortKeys properties).foldl (fun output p => assign output p.1 p.2) []
    (output.Pairwise fun p q => keyBefore p.1 q.1) ∧ output.Perm (properties.filter fun p => p.1 ≠ protoKey) := by
  intro output
  have made : output = ((sortKeys properties).filter fun p => p.1 ≠ protoKey).foldl
      (fun output p => defineProperty output p.1 p.2) [] := foldl_assign _ _
  have increasing : ((sortKeys properties).filter fun p => p.1 ≠ protoKey).Pairwise fun p q => p.1 < q.1 :=
    (sortKeys_increasing unique).filter _
  obtain ⟨sorted, members⟩ := foldl_defineProperty increasing List.Pairwise.nil (by simp)
  rw [← made] at sorted members
  rw [List.append_nil] at members
  exact ⟨sorted, members.trans ((sortKeys_perm properties).filter _)⟩

/-! ### Objects as functions -/

theorem denoteItems_eq (items : List Json) : denoteItems items = items.map denote := by
  induction items with
  | nil => rfl
  | cons item rest ih => rw [denoteItems, ih, List.map_cons]

theorem denoteProperties_some {properties : List (Text × Json)} (unique : (properties.map Prod.fst).Nodup) {key : Text} {v : Value} :
    denoteProperties properties key = some v ↔ ∃ p ∈ properties, p.1 = key ∧ denote p.2 = v := by
  induction properties with
  | nil => simp [denoteProperties]
  | cons first rest ih =>
    obtain ⟨name, value⟩ := first
    rw [List.map_cons, List.nodup_cons] at unique
    rw [denoteProperties]
    by_cases same : name = key
    · rw [if_pos same]
      constructor
      · intro found
        exact ⟨(name, value), by simp, same, by simpa using found⟩
      · rintro ⟨p, member, known, rfl⟩
        rcases List.mem_cons.mp member with rfl | later
        · rfl
        · exact absurd (List.mem_map.mpr ⟨p, later, known.trans same.symm⟩) unique.1
    · rw [if_neg same, ih unique.2]
      constructor
      · rintro ⟨p, member, known⟩
        exact ⟨p, List.mem_cons_of_mem _ member, known⟩
      · rintro ⟨p, member, known, value⟩
        rcases List.mem_cons.mp member with rfl | later
        · exact absurd known same
        · exact ⟨p, later, known, value⟩

theorem denoteProperties_perm {left right : List (Text × Json)} (perm : left.Perm right) (unique : (left.map Prod.fst).Nodup) :
    denoteProperties left = denoteProperties right := by
  have other : (right.map Prod.fst).Nodup := (perm.map Prod.fst).nodup_iff.mp unique
  funext key
  refine Option.ext fun v => ?_
  rw [denoteProperties_some unique, denoteProperties_some other]
  constructor
  · rintro ⟨p, member, known⟩
    exact ⟨p, perm.mem_iff.mp member, known⟩
  · rintro ⟨p, member, known⟩
    exact ⟨p, perm.mem_iff.mpr member, known⟩

theorem sorted_nodup {properties : List (Text × Json)} (sorted : properties.Pairwise fun p q => keyBefore p.1 q.1) :
    (properties.map Prod.fst).Nodup := by
  rw [List.Nodup, List.pairwise_map]
  refine sorted.imp ?_
  intro p q before same
  rw [same] at before
  exact keyBefore_irrefl _ before

theorem propertiesStored_iff {properties : List (Text × Json)} :
    PropertiesStored properties ↔ (properties.Pairwise fun p q => keyBefore p.1 q.1) ∧ ∀ p ∈ properties, p.2.Stored := by
  induction properties with
  | nil => simp [PropertiesStored]
  | cons p rest ih =>
    rw [PropertiesStored, ih, List.pairwise_cons, List.forall_mem_cons]
    tauto

theorem itemsStored_iff {items : List Json} : ItemsStored items ↔ ∀ item ∈ items, item.Stored := by
  induction items with
  | nil => simp [ItemsStored]
  | cons item rest ih => rw [ItemsStored, ih, List.forall_mem_cons]

/-! ### A stored value is known by what it stands for -/

theorem keyBefore_asymm {left right : Text} (before : keyBefore left right) : ¬ keyBefore right left :=
  fun after => keyBefore_irrefl _ (keyBefore_trans before after)

/-- Objects in the order of enumeration that give the same values to the same keys are
    equal when their values are known by what they stand for. -/
theorem properties_eq_of_denote {left right : List (Text × Json)} (leftSorted : left.Pairwise fun p q => keyBefore p.1 q.1)
    (rightSorted : right.Pairwise fun p q => keyBefore p.1 q.1)
    (known : ∀ p ∈ left, ∀ q ∈ right, denote p.2 = denote q.2 → p.2 = q.2)
    (same : denoteProperties left = denoteProperties right) : left = right := by
  have leftUnique := sorted_nodup leftSorted
  have rightUnique := sorted_nodup rightSorted
  have members (p : Text × Json) : p ∈ left ↔ p ∈ right := by
    constructor
    · intro member
      have found := (denoteProperties_some leftUnique).mpr ⟨p, member, rfl, rfl⟩
      rw [same] at found
      obtain ⟨q, other, key, value⟩ := (denoteProperties_some rightUnique).mp found
      have equal : p = q := Prod.ext key.symm (known p member q other value.symm)
      rw [equal]
      exact other
    · intro member
      have found := (denoteProperties_some rightUnique).mpr ⟨p, member, rfl, rfl⟩
      rw [← same] at found
      obtain ⟨q, other, key, value⟩ := (denoteProperties_some leftUnique).mp found
      have equal : q = p := Prod.ext key (known q other p member value)
      rw [← equal]
      exact other
  have perm : left.Perm right := (List.perm_ext_iff_of_nodup (List.Nodup.of_map _ leftUnique) (List.Nodup.of_map _ rightUnique)).mpr members
  exact List.Perm.eq_of_pairwise (fun p q _ _ before after => absurd after (keyBefore_asymm before)) leftSorted rightSorted perm

theorem eq_of_denote {left : Json} : ∀ {right : Json}, left.Stored → right.Stored → denote left = denote right → left = right := by
  induction left with
  | null => intro right _ _ same; cases right <;> simp [denote] at same; rfl
  | bool b => intro right _ _ same; cases right <;> simp [denote] at same; rw [same]
  | string s => intro right _ _ same; cases right <;> simp [denote] at same; rw [same]
  | number n =>
    intro right stored other same
    cases right with
    | number m =>
      simp only [denote, Value.number.injEq, stored.2, other.2] at same
      rw [same]
    | _ => simp [denote] at same
  | array items ih =>
    intro right stored other same
    cases right with
    | array others =>
      simp only [denote, Value.array.injEq, denoteItems_eq] at same
      have kept := itemsStored_iff.mp stored
      have keptToo := itemsStored_iff.mp other
      congr 1
      clear stored other
      induction items generalizing others with
      | nil => simpa using same.symm
      | cons item rest next =>
        cases others with
        | nil => simp at same
        | cons one more =>
          simp only [List.map_cons, List.cons.injEq] at same
          have first := ih item (by simp) (kept item (by simp)) (keptToo one (by simp)) same.1
          have later := next (fun i member => ih i (List.mem_cons_of_mem _ member)) more same.2
            (fun i member => kept i (List.mem_cons_of_mem _ member)) (fun i member => keptToo i (List.mem_cons_of_mem _ member))
          rw [first, later]
    | _ => simp [denote] at same
  | object properties ih =>
    intro right stored other same
    cases right with
    | object others =>
      simp only [denote, Value.object.injEq] at same
      obtain ⟨sorted, kept⟩ := propertiesStored_iff.mp stored
      obtain ⟨sortedToo, keptToo⟩ := propertiesStored_iff.mp other
      congr 1
      exact properties_eq_of_denote sorted sortedToo
        (fun p member q inside equal => ih p member (kept p member) (keptToo q inside) equal) same
    | _ => simp [denote] at same

/-! ### The canonical value -/

theorem unsignZero_idem (n : Number) : unsignZero (unsignZero n) = unsignZero n := by
  cases n <;> simp [unsignZero]

theorem unsignZero_finite {n : Number} (finite : n.isFinite = true) : (unsignZero n).isFinite = true := by
  cases n <;> simp_all [unsignZero, Number.isFinite]

/-- A value is written as one that is stored and stands for it without `__proto__`. -/
def Canonicalises (value : Json) : Prop :=
  ∃ c, canonicalJsonValue value = .ok c ∧ c.Stored ∧ denote c = denote (withoutProto value)

theorem canonicalJsonItems_spec {items : List Json} (each : ∀ item ∈ items, Canonicalises item) :
    ∃ cs, canonicalJsonItems items = .ok cs ∧ ItemsStored cs ∧ denoteItems cs = denoteItems (itemsWithoutProto items) := by
  induction items with
  | nil => exact ⟨[], rfl, trivial, rfl⟩
  | cons item rest ih =>
    obtain ⟨c, value, stored, meaning⟩ := each item (by simp)
    obtain ⟨cs, values, others, meanings⟩ := ih fun i member => each i (List.mem_cons_of_mem _ member)
    refine ⟨c :: cs, ?_, ⟨stored, others⟩, ?_⟩
    · rw [canonicalJsonItems, value, values]
      rfl
    · rw [itemsWithoutProto, denoteItems, denoteItems, meaning, meanings]

theorem canonicalJsonProperties_spec {properties : List (Text × Json)} (each : ∀ p ∈ properties, Canonicalises p.2) :
    ∃ cs, canonicalJsonProperties properties = .ok cs ∧ cs.map Prod.fst = properties.map Prod.fst ∧
      (∀ p ∈ cs, p.2.Stored) ∧
      denoteProperties (cs.filter fun p => p.1 ≠ protoKey) = denoteProperties (propertiesWithoutProto properties) := by
  induction properties with
  | nil => exact ⟨[], rfl, rfl, by simp, rfl⟩
  | cons p rest ih =>
    obtain ⟨key, value⟩ := p
    obtain ⟨c, canonical, stored, meaning⟩ := each (key, value) (by simp)
    obtain ⟨cs, values, keys, others, meanings⟩ := ih fun p member => each p (List.mem_cons_of_mem _ member)
    refine ⟨(key, c) :: cs, ?_, by rw [List.map_cons, keys, List.map_cons], ?_, ?_⟩
    · dsimp only at canonical
      rw [canonicalJsonProperties, canonical, values]
      rfl
    · intro p member
      rcases List.mem_cons.mp member with rfl | later
      · exact stored
      · exact others p later
    · rw [propertiesWithoutProto]
      by_cases proto : key = protoKey
      · rw [if_pos proto, List.filter_cons_of_neg (by simp [proto]), meanings]
      · rw [if_neg proto, List.filter_cons_of_pos (by simp [proto])]
        funext name
        rw [denoteProperties, denoteProperties, meanings, meaning]

theorem propertiesAreJson_iff {properties : List (Text × Json)} :
    PropertiesAreJson properties ↔ ∀ p ∈ properties, IsJson p.2 := by
  induction properties with
  | nil => simp [PropertiesAreJson]
  | cons p rest ih => rw [PropertiesAreJson, ih, List.forall_mem_cons]

theorem itemsAreJson_iff {items : List Json} : ItemsAreJson items ↔ ∀ item ∈ items, IsJson item := by
  induction items with
  | nil => simp [ItemsAreJson]
  | cons item rest ih => rw [ItemsAreJson, ih, List.forall_mem_cons]

theorem canonicalJsonValue_spec {value : Json} (json : IsJson value) : Canonicalises value := by
  induction value with
  | null => exact ⟨_, rfl, trivial, rfl⟩
  | bool b => exact ⟨_, rfl, trivial, rfl⟩
  | string s => exact ⟨_, rfl, trivial, rfl⟩
  | number n =>
    refine ⟨.number (unsignZero n), ?_, ⟨unsignZero_finite json, unsignZero_idem n⟩, ?_⟩
    · rw [canonicalJsonValue]
      exact if_pos json
    · rw [withoutProto, denote, denote, unsignZero_idem]
  | array items ih =>
    have each := itemsAreJson_iff.mp json
    obtain ⟨cs, values, stored, meaning⟩ := canonicalJsonItems_spec fun item member => ih item member (each item member)
    refine ⟨.array cs, ?_, stored, ?_⟩
    · rw [canonicalJsonValue, values]
      rfl
    · rw [withoutProto, denote, denote, meaning]
  | object properties ih =>
    have each := propertiesAreJson_iff.mp json.2
    obtain ⟨cs, values, keys, stored, meaning⟩ := canonicalJsonProperties_spec fun p member => ih p member (each p member)
    have unique : (cs.map Prod.fst).Nodup := by
      rw [keys]
      exact json.1
    obtain ⟨sorted, members⟩ := assigned_spec unique
    refine ⟨.object ((sortKeys cs).foldl (fun output p => assign output p.1 p.2) []), ?_,
      propertiesStored_iff.mpr ⟨sorted, ?_⟩, ?_⟩
    · rw [canonicalJsonValue, values]
      rfl
    · intro p member
      exact stored p (List.mem_of_mem_filter (members.mem_iff.mp member))
    · rw [withoutProto, denote, denote, denoteProperties_perm members (sorted_nodup sorted), meaning]

/-- Two values have the same canonical text when they are equal without `__proto__`. -/
theorem canonical_eq_iff {left right : Json} (leftJson : IsJson left) (rightJson : IsJson right) :
    canonicalJsonStringify left = canonicalJsonStringify right ↔ denote (withoutProto left) = denote (withoutProto right) := by
  obtain ⟨c, value, stored, meaning⟩ := canonicalJsonValue_spec leftJson
  obtain ⟨d, other, storedToo, meaningToo⟩ := canonicalJsonValue_spec rightJson
  rw [canonicalJsonStringify, canonicalJsonStringify, value, other, ← meaning, ← meaningToo]
  constructor
  · intro same
    have texts : c.text = d.text := Except.ok.inj same
    have read := parseJson_text stored
    rw [texts, parseJson_text storedToo] at read
    rw [Option.some.inj read]
  · intro same
    rw [eq_of_denote stored storedToo same]

/-- The canonical text is read as the value without `__proto__`. -/
theorem canonical_read {value : Json} (json : IsJson value) :
    ∃ text c, canonicalJsonStringify value = .ok text ∧ parseJson text = some c ∧ denote c = denote (withoutProto value) := by
  obtain ⟨c, canonical, stored, meaning⟩ := canonicalJsonValue_spec json
  refine ⟨c.text, c, ?_, parseJson_text stored, meaning⟩
  rw [canonicalJsonStringify, canonical]
  rfl

/-! ### Values without `__proto__` -/

theorem propertiesProtoFree_iff {properties : List (Text × Json)} :
    PropertiesProtoFree properties ↔ ∀ p ∈ properties, p.1 ≠ protoKey ∧ ProtoFree p.2 := by
  induction properties with
  | nil => simp [PropertiesProtoFree]
  | cons p rest ih =>
    rw [PropertiesProtoFree, ih, List.forall_mem_cons, and_assoc]

theorem itemsProtoFree_iff {items : List Json} : ItemsProtoFree items ↔ ∀ item ∈ items, ProtoFree item := by
  induction items with
  | nil => simp [ItemsProtoFree]
  | cons item rest ih => rw [ItemsProtoFree, ih, List.forall_mem_cons]

theorem itemsWithoutProto_eq (items : List Json) : itemsWithoutProto items = items.map withoutProto := by
  induction items with
  | nil => rfl
  | cons item rest ih => rw [itemsWithoutProto, ih, List.map_cons]

theorem mem_propertiesWithoutProto {properties : List (Text × Json)} {p : Text × Json} :
    p ∈ propertiesWithoutProto properties ↔ ∃ q ∈ properties, q.1 ≠ protoKey ∧ p = (q.1, withoutProto q.2) := by
  induction properties with
  | nil => simp [propertiesWithoutProto]
  | cons first rest ih =>
    obtain ⟨key, value⟩ := first
    rw [propertiesWithoutProto, List.exists_mem_cons_iff]
    by_cases proto : key = protoKey
    · rw [if_pos proto, ih]
      simp [proto]
    · rw [if_neg proto, List.mem_cons, ih]
      simp [proto]

theorem withoutProto_protoFree (value : Json) : ProtoFree (withoutProto value) := by
  induction value with
  | null => trivial
  | bool b => trivial
  | number n => trivial
  | string s => trivial
  | array items ih =>
    rw [withoutProto, ProtoFree, itemsProtoFree_iff, itemsWithoutProto_eq]
    intro item member
    obtain ⟨one, inside, rfl⟩ := List.mem_map.mp member
    exact ih one inside
  | object properties ih =>
    rw [withoutProto, ProtoFree, propertiesProtoFree_iff]
    intro p member
    obtain ⟨q, inside, other, rfl⟩ := mem_propertiesWithoutProto.mp member
    exact ⟨other, ih q inside⟩

theorem withoutProto_of_protoFree {value : Json} (free : ProtoFree value) : withoutProto value = value := by
  induction value with
  | null => rfl
  | bool b => rfl
  | number n => rfl
  | string s => rfl
  | array items ih =>
    rw [ProtoFree, itemsProtoFree_iff] at free
    rw [withoutProto, itemsWithoutProto_eq, List.map_congr_left fun item member => ih item member (free item member), List.map_id']
  | object properties ih =>
    rw [ProtoFree, propertiesProtoFree_iff] at free
    rw [withoutProto]
    congr 1
    induction properties with
    | nil => rfl
    | cons p rest next =>
      obtain ⟨key, value⟩ := p
      have first := free (key, value) (by simp)
      have kept := ih (key, value) (by simp) first.2
      dsimp only at kept
      rw [propertiesWithoutProto, if_neg first.1, kept,
        next (fun q member => ih q (List.mem_cons_of_mem _ member)) fun q member => free q (List.mem_cons_of_mem _ member)]

theorem withoutProto_keys_nodup {properties : List (Text × Json)} (unique : (properties.map Prod.fst).Nodup) :
    ((propertiesWithoutProto properties).map Prod.fst).Nodup := by
  induction properties with
  | nil => exact List.nodup_nil
  | cons p rest ih =>
    obtain ⟨key, value⟩ := p
    rw [List.map_cons, List.nodup_cons] at unique
    rw [propertiesWithoutProto]
    by_cases proto : key = protoKey
    · rw [if_pos proto]
      exact ih unique.2
    · rw [if_neg proto, List.map_cons, List.nodup_cons]
      refine ⟨?_, ih unique.2⟩
      intro member
      obtain ⟨q, inside, same⟩ := List.mem_map.mp member
      obtain ⟨r, known, -, rfl⟩ := mem_propertiesWithoutProto.mp inside
      exact unique.1 (List.mem_map.mpr ⟨r, known, same⟩)

theorem withoutProto_isJson {value : Json} (json : IsJson value) : IsJson (withoutProto value) := by
  induction value with
  | null => trivial
  | bool b => trivial
  | number n => exact json
  | string s => trivial
  | array items ih =>
    have each := itemsAreJson_iff.mp json
    rw [withoutProto, IsJson, itemsAreJson_iff, itemsWithoutProto_eq]
    intro item member
    obtain ⟨one, inside, rfl⟩ := List.mem_map.mp member
    exact ih one inside (each one inside)
  | object properties ih =>
    have each := propertiesAreJson_iff.mp json.2
    rw [withoutProto, IsJson, propertiesAreJson_iff]
    refine ⟨withoutProto_keys_nodup json.1, ?_⟩
    intro p member
    obtain ⟨q, inside, -, rfl⟩ := mem_propertiesWithoutProto.mp member
    exact ih q inside (each q inside)

/-- A value that stands for the same as one without `__proto__` has no such key. -/
theorem protoFree_of_denote {left : Json} : ∀ {right : Json}, IsJson left → IsJson right → ProtoFree left →
    denote left = denote right → ProtoFree right := by
  induction left with
  | null => intro right _ _ _ same; cases right <;> simp [denote] at same; trivial
  | bool b => intro right _ _ _ same; cases right <;> simp [denote] at same; trivial
  | string s => intro right _ _ _ same; cases right <;> simp [denote] at same; trivial
  | number n => intro right _ _ _ same; cases right <;> simp [denote] at same; trivial
  | array items ih =>
    intro right json other free same
    cases right with
    | array others =>
      simp only [denote, Value.array.injEq, denoteItems_eq] at same
      have jsons := itemsAreJson_iff.mp json
      have jsonsToo := itemsAreJson_iff.mp other
      rw [ProtoFree, itemsProtoFree_iff] at free ⊢
      intro item member
      have meaning : denote item ∈ items.map denote := by
        rw [same]
        exact List.mem_map_of_mem member
      obtain ⟨one, inside, equal⟩ := List.mem_map.mp meaning
      exact ih one inside (jsons one inside) (jsonsToo item member) (free one inside) equal
    | _ => simp [denote] at same
  | object properties ih =>
    intro right json other free same
    cases right with
    | object others =>
      simp only [denote, Value.object.injEq] at same
      have jsons := propertiesAreJson_iff.mp json.2
      have jsonsToo := propertiesAreJson_iff.mp other.2
      rw [ProtoFree, propertiesProtoFree_iff] at free ⊢
      intro p member
      have found := (denoteProperties_some other.1).mpr ⟨p, member, rfl, rfl⟩
      rw [← same] at found
      obtain ⟨q, inside, key, value⟩ := (denoteProperties_some json.1).mp found
      have known := free q inside
      rw [key] at known
      exact ⟨known.1, ih q inside (jsons q inside) (jsonsToo p member) known.2 value⟩
    | _ => simp [denote] at same

/-- A value is what it stands for without `__proto__` when it has no such key. -/
theorem denote_withoutProto_iff {value : Json} (json : IsJson value) :
    denote (withoutProto value) = denote value ↔ ProtoFree value := by
  constructor
  · intro same
    exact protoFree_of_denote (withoutProto_isJson json) json (withoutProto_protoFree value) same
  · intro free
    rw [withoutProto_of_protoFree free]

/-! ### Faithfulness -/

/-- The canonical texts of two values are the same just when the values are equal up to
    the order of keys and the sign of zero, and the first one's text is read as it. -/
def Faithful (a b : JsonValue) : Prop :=
  (canonicalJsonStringify a.val = canonicalJsonStringify b.val ↔ denote a.val = denote b.val) ∧
    ∃ text c, canonicalJsonStringify a.val = .ok text ∧ parseJson text = some c ∧ denote c = denote a.val

/-- The encoding is faithful where no `__proto__` is dropped. -/
theorem canonical_faithful_iff (a b : JsonValue) :
    Faithful a b ↔ ProtoFree a.val ∧ (denote a.val = denote (withoutProto b.val) → ProtoFree b.val) := by
  have texts := canonical_eq_iff a.property b.property
  obtain ⟨text, c, canonical, read, meaning⟩ := canonical_read a.property
  constructor
  · rintro ⟨same, other, d, canonicalToo, readToo, meaningToo⟩
    rw [canonical] at canonicalToo
    cases Except.ok.inj canonicalToo
    rw [read] at readToo
    cases Option.some.inj readToo
    have free : ProtoFree a.val := (denote_withoutProto_iff a.property).mp (meaning.symm.trans meaningToo)
    refine ⟨free, fun equal => ?_⟩
    have texted := same.mp (texts.mpr ((denote_withoutProto_iff a.property).mpr free |>.trans equal))
    exact (denote_withoutProto_iff b.property).mp (equal.symm.trans texted)
  · rintro ⟨free, others⟩
    have kept := (denote_withoutProto_iff a.property).mpr free
    refine ⟨?_, text, c, canonical, read, meaning.trans kept⟩
    rw [texts, kept]
    constructor
    · intro equal
      exact equal.trans ((denote_withoutProto_iff b.property).mpr (others equal))
    · intro equal
      have freeToo := protoFree_of_denote a.property b.property free equal
      exact equal.trans ((denote_withoutProto_iff b.property).mpr freeToo).symm

def numberOne : Number := .finite false ⟨1, by decide +kernel⟩

/-- An object with the key `__proto__`, as a reader of JSON makes it. -/
def withProto : JsonValue := ⟨.object [(protoKey, .number numberOne)], by simp [IsJson, PropertiesAreJson, numberOne, Number.isFinite]⟩

def emptyObject : JsonValue := ⟨.object [], by simp [IsJson, PropertiesAreJson]⟩

/-- `{"__proto__":1}` has the canonical text of `{}`. -/
theorem proto_key_dropped : ¬ ∀ a b : JsonValue, Faithful a b := by
  intro claim
  have same : canonicalJsonStringify withProto.val = canonicalJsonStringify emptyObject.val := rfl
  have equal := (claim withProto emptyObject).1.mp same
  have objects : denoteProperties [(protoKey, .number numberOne)] = denoteProperties [] := Value.object.inj equal
  have property := congrFun objects protoKey
  simp [denoteProperties] at property

end SynapsorRunner.CanonicalJson
