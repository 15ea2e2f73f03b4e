import Mathlib.Data.List.Lex
import Mathlib.Data.List.TakeWhile
import Mathlib.Order.Lex
import SynapsorRunner.NumberText

/-!
JSON values and their texts as the language's own library writes and reads them.
An object keeps its properties in the order in which its keys are enumerated: array
indices by size first, then the other keys as they came. A value is read back from
its text (`parseJson_text`) when its keys stand in that order.
-/
namespace SynapsorRunner.JsonText
open SynapsorRunner.Doubles SynapsorRunner.NumberText

inductive Json where
  | null
  | bool (value : Bool)
  | number (value : Number)
  | string (value : Text)
  | array (items : List Json)
  | object (properties : List (Text × Json))

section Induction
variable {motive : Json → Prop} (null : motive .null) (bool : ∀ value, motive (.bool value))
  (number : ∀ value, motive (.number value)) (string : ∀ value, motive (.string value))
  (array : ∀ items, (∀ item ∈ items, motive item) → motive (.array items))
  (object : ∀ properties, (∀ p ∈ properties, motive p.2) → motive (.object properties))

include null bool number string array object

mutual
/-- Induction over values, through the items of arrays and the properties of objects. -/
@[induction_eliminator]
theorem induct : (value : Json) → motive value
  | .null => null
  | .bool value => bool value
  | .number value => number value
  | .string value => string value
  | .array items => array items (induct_items items)
  | .object properties => object properties (induct_properties properties)

theorem induct_items : (items : List Json) → ∀ item ∈ items, motive item
  | [], _, member => absurd member List.not_mem_nil
  | first :: rest, item, member => (List.mem_cons.mp member).elim (fun same => same ▸ induct first)
      (induct_items rest item)

theorem induct_properties : (properties : List (Text × Json)) → ∀ p ∈ properties, motive p.2
  | [], _, member => absurd member List.not_mem_nil
  | (_, value) :: rest, p, member => (List.mem_cons.mp member).elim (fun same => same ▸ induct value)
      (induct_properties rest p)
end
end Induction

/-! ### Keys -/

/-- The index that a key stands for when it is an array index. -/
def arrayIndex (key : Text) : Option ℕ :=
  let n := natOfDigits (spanDigits key).1
  if n < 2 ^ 32 - 1 ∧ digitsText (digitsOf n) = key then some n else none

theorem arrayIndex_key {key : Text} {n : ℕ} (index : arrayIndex key = some n) : digitsText (digitsOf n) = key := by
  unfold arrayIndex at index
  dsimp only at index
  split at index
  · rename_i known
    simp only [Option.some.injEq] at index
    rw [← index]
    exact known.2
  · simp at index

/-- One key is enumerated before the other when the others come sorted. -/
def keyBefore (left right : Text) : Prop :=
  match arrayIndex left, arrayIndex right with
  | some m, some n => m < n
  | some _, none => True
  | none, some _ => False
  | none, none => left < right

theorem keyBefore_irrefl (key : Text) : ¬ keyBefore key key := by
  unfold keyBefore
  cases arrayIndex key <;> simp

theorem keyBefore_trans {first second third : Text} (before : keyBefore first second) (after : keyBefore second third) :
    keyBefore first third := by
  unfold keyBefore at *
  cases one : arrayIndex first <;> cases two : arrayIndex second <;> cases three : arrayIndex third <;>
    simp only [one, two, three] at before after ⊢
  · exact lt_trans before after
  · exact lt_trans before after

/-- One key can stand before the other in an object: indices come first and by size,
    a key comes once. -/
def enumeratesBefore (left right : Text) : Prop :=
  match arrayIndex left, arrayIndex right with
  | some m, some n => m < n
  | some _, none => True
  | none, some _ => False
  | none, none => left ≠ right

theorem enumeratesBefore_ne {left right : Text} (before : enumeratesBefore left right) : left ≠ right := by
  rintro rfl
  unfold enumeratesBefore at before
  cases index : arrayIndex left <;> simp [index] at before

theorem enumeratesBefore_of_keyBefore {left right : Text} (before : keyBefore left right) : enumeratesBefore left right := by
  unfold enumeratesBefore
  unfold keyBefore at before
  cases one : arrayIndex left <;> cases two : arrayIndex right <;> simp only [one, two] at before ⊢
  · exact ne_of_lt before
  · exact before

/-- An own property of the enumeration order: in the place of the key, or in the
    place of a new key. -/
def defineProperty {α : Type} (properties : List (Text × α)) (key : Text) (value : α) : List (Text × α) :=
  if key ∈ properties.map Prod.fst then properties.map fun p => if p.1 = key then (key, value) else p
  else
    match arrayIndex key with
    | none => properties ++ [(key, value)]
    | some n =>
      let smaller := fun p : Text × α => (arrayIndex p.1).any (· < n)
      properties.takeWhile smaller ++ (key, value) :: properties.dropWhile smaller

/-! ### Writing -/

/-- The characters with an escape of two units. -/
def shortEscapes : List (CodeUnit × CodeUnit) :=
  [(codeUnit 8, unit 'b'), (codeUnit 9, unit 't'), (codeUnit 10, unit 'n'), (codeUnit 12, unit 'f'), (codeUnit 13, unit 'r'),
    (unit '"', unit '"'), (unit '\\', unit '\\')]

def isHigh (u : CodeUnit) : Bool := decide (0xD800 ≤ u.val ∧ u.val < 0xDC00)

def isLow (u : CodeUnit) : Bool := decide (0xDC00 ≤ u.val ∧ u.val < 0xE000)

def hexUnit (digit : ℕ) : CodeUnit := codeUnit (if digit < 10 then 48 + digit else 87 + digit)

def hexText (u : CodeUnit) : Text :=
  [hexUnit (u.val / 4096), hexUnit (u.val / 256 % 16), hexUnit (u.val / 16 % 16), hexUnit (u.val % 16)]

/-- A unit of a string that is no half of a pair of surrogates. -/
def unitText (u : CodeUnit) : Text :=
  match shortEscapes.find? fun escape => escape.1 = u with
  | some escape => [unit '\\', escape.2]
  | none => if u.val < 32 ∨ isHigh u ∨ isLow u then unit '\\' :: unit 'u' :: hexText u else [u]

/-- The text between the quotes of a string. -/
def quoted : Text → Text
  | [] => []
  | [u] => unitText u
  | u :: v :: rest => if isHigh u ∧ isLow v then u :: v :: quoted rest else unitText u ++ quoted (v :: rest)

def stringText (s : Text) : Text := unit '"' :: (quoted s ++ [unit '"'])

mutual
/-- The text of a value. -/
def Json.text : Json → Text
  | .null => ascii "null"
  | .bool value => if value then ascii "true" else ascii "false"
  | .number value => numberText value
  | .string value => stringText value
  | .array items => unit '[' :: (itemsText items ++ [unit ']'])
  | .object properties => unit '{' :: (propertiesText properties ++ [unit '}'])

/-- The texts of the items with commas between them. -/
def itemsText : List Json → Text
  | [] => []
  | [item] => item.text
  | item :: next :: rest => item.text ++ unit ',' :: itemsText (next :: rest)

def propertiesText : List (Text × Json) → Text
  | [] => []
  | [(key, value)] => stringText key ++ unit ':' :: value.text
  | (key, value) :: next :: rest => stringText key ++ unit ':' :: (value.text ++ unit ',' :: propertiesText (next :: rest))
end

/-! ### Reading -/

def isWhitespace (u : CodeUnit) : Bool := decide (u.val = 32 ∨ u.val = 9 ∨ u.val = 10 ∨ u.val = 13)

def skipWhitespace (text : Text) : Text := text.dropWhile isWhitespace

/-- A word at the start of a text, taken away. -/
def takeWord : Text → Text → Option Text
  | [], text => some text
  | u :: word, v :: text => if u = v then takeWord word text else none
  | _ :: _, [] => none

def hexDigit (u : CodeUnit) : Option ℕ :=
  if 48 ≤ u.val ∧ u.val ≤ 57 then some (u.val - 48)
  else if 97 ≤ u.val ∧ u.val ≤ 102 then some (u.val - 87)
  else if 65 ≤ u.val ∧ u.val ≤ 70 then some (u.val - 55)
  else none

def parseHex (a b c d : CodeUnit) : Option CodeUnit :=
  (hexDigit a).bind fun a => (hexDigit b).bind fun b => (hexDigit c).bind fun c => (hexDigit d).map fun d =>
    codeUnit (4096 * a + 256 * b + 16 * c + d)

/-- The character of an escape of two units. -/
def unescape (u : CodeUnit) : Option CodeUnit :=
  (((unit '/', unit '/') :: shortEscapes).find? fun escape => escape.2 = u).map Prod.fst

/-- A string up to its closing quote, and the rest. -/
def parseString : Text → Option (Text × Text)
  | [] => none
  | u :: rest =>
    if u = unit '"' then some ([], rest)
    else if u = unit '\\' then
      match rest with
      | [] => none
      | e :: rest =>
        if e = unit 'u' then
          match rest with
          | a :: b :: c :: d :: rest =>
            (parseHex a b c d).bind fun v => (parseString rest).map fun (s, rest) => (v :: s, rest)
          | _ => none
        else (unescape e).bind fun v => (parseString rest).map fun (s, rest) => (v :: s, rest)
    else if u.val < 32 then none
    else (parseString rest).map fun (s, rest) => (u :: s, rest)

/-- The keyword at the start of a text. -/
def parseWord (text : Text) : Option (Json × Text) :=
  ((takeWord (ascii "null") text).map fun rest => (.null, rest)).or
    (((takeWord (ascii "true") text).map fun rest => (.bool true, rest)).or
      ((takeWord (ascii "false") text).map fun rest => (.bool false, rest)))

mutual
/-- A value at the start of a text, and the rest. -/
def parseValue : ℕ → Text → Option (Json × Text)
  | 0, _ => none
  | fuel + 1, text =>
    match skipWhitespace text with
    | [] => none
    | u :: rest =>
      if u = unit '"' then (parseString rest).map fun (s, rest) => (.string s, rest)
      else if u = unit '[' then
        match skipWhitespace rest with
        | [] => none
        | v :: more =>
          if v = unit ']' then some (.array [], more)
          else (parseItems fuel (v :: more)).map fun (items, rest) => (.array items, rest)
      else if u = unit '{' then
        match skipWhitespace rest with
        | [] => none
        | v :: more =>
          if v = unit '}' then some (.object [], more)
          else (parseProperties fuel (v :: more)).map fun (properties, rest) =>
            (.object (properties.foldl (fun known p => defineProperty known p.1 p.2) []), rest)
      else if startsNumber u then (parseNumber (u :: rest)).map fun (n, rest) => (.number n, rest)
      else parseWord (u :: rest)

/-- Items up to the closing bracket. -/
def parseItems : ℕ → Text → Option (List Json × Text)
  | 0, _ => none
  | fuel + 1, text =>
    (parseValue fuel text).bind fun (item, rest) =>
      match skipWhitespace rest with
      | [] => none
      | u :: rest =>
        if u = unit ',' then (parseItems fuel rest).map fun (items, rest) => (item :: items, rest)
        else if u = unit ']' then some ([item], rest)
        else none

/-- Properties up to the closing brace. -/
def parseProperties : ℕ → Text → Option (List (Text × Json) × Text)
  | 0, _ => none
  | fuel + 1, text =>
    match skipWhitespace text with
    | [] => none
    | u :: rest =>
      if u = unit '"' then
        (parseString rest).bind fun (key, rest) =>
          match skipWhitespace rest with
          | [] => none
          | v :: rest =>
            if v = unit ':' then
              (parseValue fuel rest).bind fun (value, rest) =>
                match skipWhitespace rest with
                | [] => none
                | w :: rest =>
                  if w = unit ',' then
                    (parseProperties fuel rest).map fun (properties, rest) => ((key, value) :: properties, rest)
                  else if w = unit '}' then some ([(key, value)], rest)
                  else none
            else none
      else none
end

/-- The value of a text. Every bracket takes two units of fuel and a unit of text. -/
def parseJson (text : Text) : Option Json :=
  (parseValue (2 * text.length + 2) text).bind fun (value, rest) => if skipWhitespace rest = [] then some value else none

/-! ### Strings are read back -/

theorem skipWhitespace_cons {u : CodeUnit} (other : isWhitespace u = false) (rest : Text) :
    skipWhitespace (u :: rest) = u :: rest := by
  rw [skipWhitespace, List.dropWhile_cons_of_neg (by simp [other])]

theorem takeWord_append (word rest : Text) : takeWord word (word ++ rest) = some rest := by
  induction word with
  | nil => rfl
  | cons u word ih => rw [List.cons_append, takeWord, if_pos rfl, ih]

theorem unescape_shortEscapes : ∀ escape ∈ shortEscapes, unescape escape.2 = some escape.1 ∧ escape.2 ≠ unit 'u' := by
  simp only [shortEscapes, List.forall_mem_cons]
  exact ⟨⟨rfl, by decide⟩, ⟨rfl, by decide⟩, ⟨rfl, by decide⟩, ⟨rfl, by decide⟩, ⟨rfl, by decide⟩, ⟨rfl, by decide⟩,
    ⟨rfl, by decide⟩, by simp⟩

theorem hexDigit_hexUnit {digit : ℕ} (small : digit < 16) : hexDigit (hexUnit digit) = some digit := by
  interval_cases digit <;> rfl

theorem parseHex_hexText (u : CodeUnit) :
    parseHex (hexUnit (u.val / 4096)) (hexUnit (u.val / 256 % 16)) (hexUnit (u.val / 16 % 16)) (hexUnit (u.val % 16)) =
      some u := by
  have bound := u.isLt
  have first : u.val / 4096 < 16 := by omega
  have sum : 4096 * (u.val / 4096) + 256 * (u.val / 256 % 16) + 16 * (u.val / 16 % 16) + u.val % 16 = u.val := by omega
  unfold parseHex
  rw [hexDigit_hexUnit first, hexDigit_hexUnit (Nat.mod_lt _ (by decide)), hexDigit_hexUnit (Nat.mod_lt _ (by decide)),
    hexDigit_hexUnit (Nat.mod_lt _ (by decide))]
  simp only [Option.bind_some, Option.map_some, sum, Option.some.injEq]
  exact Fin.ext (Nat.mod_eq_of_lt bound)

/-- A unit that a string keeps as it is. -/
def Plain (u : CodeUnit) : Prop := u ≠ unit '"' ∧ u ≠ unit '\\' ∧ 32 ≤ u.val

theorem parseString_plain {u : CodeUnit} (plain : Plain u) (rest : Text) :
    parseString (u :: rest) = (parseString rest).map fun (s, rest) => (u :: s, rest) := by
  obtain ⟨quote, backslash, control⟩ := plain
  conv_lhs => unfold parseString
  rw [if_neg quote, if_neg backslash, if_neg (by omega)]

theorem plain_of_surrogate {u : CodeUnit} (surrogate : 0xD800 ≤ u.val) : Plain u := by
  refine ⟨?_, ?_, by omega⟩
  · intro same
    rw [same] at surrogate
    exact absurd surrogate (by decide)
  · intro same
    rw [same] at surrogate
    exact absurd surrogate (by decide)

theorem parseString_unitText (u : CodeUnit) (rest : Text) :
    parseString (unitText u ++ rest) = (parseString rest).map fun (s, rest) => (u :: s, rest) := by
  have quote : unit '\\' ≠ unit '"' := by decide
  unfold unitText
  cases found : shortEscapes.find? fun escape => escape.1 = u with
  | some escape =>
    obtain ⟨meaning, notHex⟩ := unescape_shortEscapes escape (List.mem_of_find?_eq_some found)
    have key : escape.1 = u := by simpa using List.find?_some found
    simp only [List.cons_append, List.nil_append]
    conv_lhs => unfold parseString
    rw [if_neg quote, if_pos rfl]
    dsimp only
    rw [if_neg notHex, meaning, key, Option.bind_some]
  | none =>
    have other : ∀ escape ∈ shortEscapes, escape.1 ≠ u := by
      intro escape member same
      have not := List.find?_eq_none.mp found escape member
      simp [same] at not
    dsimp only
    by_cases escaped : u.val < 32 ∨ isHigh u ∨ isLow u
    · rw [if_pos escaped]
      simp only [hexText, List.cons_append, List.nil_append]
      conv_lhs => unfold parseString
      rw [if_neg quote, if_pos rfl]
      dsimp only
      rw [if_pos rfl, parseHex_hexText, Option.bind_some]
    · rw [if_neg escaped, List.singleton_append]
      refine parseString_plain ⟨?_, ?_, by omega⟩ rest
      · exact fun same => other (unit '"', unit '"') (by decide) same.symm
      · exact fun same => other (unit '\\', unit '\\') (by decide) same.symm

theorem parseString_quoted (s rest : Text) : parseString (quoted s ++ unit '"' :: rest) = some (s, rest) := by
  have closing : parseString (unit '"' :: rest) = some ([], rest) := by
    unfold parseString
    rw [if_pos rfl]
  fun_induction quoted s with
  | case1 => exact closing
  | case2 u => rw [parseString_unitText, closing, Option.map_some]
  | case3 u v more pair ih =>
    have high : 0xD800 ≤ u.val := by
      have known := pair.1
      simp only [isHigh, decide_eq_true_eq] at known
      exact known.1
    have low : 0xD800 ≤ v.val := by
      have known := pair.2
      simp only [isLow, decide_eq_true_eq] at known
      omega
    rw [List.cons_append, List.cons_append, parseString_plain (plain_of_surrogate high),
      parseString_plain (plain_of_surrogate low), ih]
    rfl
  | case4 u v more single ih => rw [List.append_assoc, parseString_unitText, ih, Option.map_some]

/-! ### Values are read back -/

mutual
/-- A value with its keys in the order of enumeration and with finite numbers, no
    zero of them negative. -/
def Json.Stored : Json → Prop
  | .null => True
  | .bool _ => True
  | .string _ => True
  | .number value => value.isFinite = true ∧ unsignZero value = value
  | .array items => ItemsStored items
  | .object properties => PropertiesStored properties

def ItemsStored : List Json → Prop
  | [] => True
  | item :: rest => item.Stored ∧ ItemsStored rest

def PropertiesStored : List (Text × Json) → Prop
  | [] => True
  | (key, value) :: rest => (∀ p ∈ rest, keyBefore key p.1) ∧ value.Stored ∧ PropertiesStored rest
end

mutual
/-- A value as it is read: its keys in an order in which they are enumerated, its
    numbers finite, no zero of them negative. -/
def Json.Enumerated : Json → Prop
  | .null => True
  | .bool _ => True
  | .string _ => True
  | .number value => value.isFinite = true ∧ unsignZero value = value
  | .array items => ItemsEnumerated items
  | .object properties => PropertiesEnumerated properties

def ItemsEnumerated : List Json → Prop
  | [] => True
  | item :: rest => item.Enumerated ∧ ItemsEnumerated rest

def PropertiesEnumerated : List (Text × Json) → Prop
  | [] => True
  | (key, value) :: rest => (∀ p ∈ rest, enumeratesBefore key p.1) ∧ value.Enumerated ∧ PropertiesEnumerated rest
end

mutual
theorem Json.Stored.enumerated : (value : Json) → value.Stored → value.Enumerated
  | .null, _ => trivial
  | .bool _, _ => trivial
  | .string _, _ => trivial
  | .number _, stored => stored
  | .array items, stored => itemsStored_enumerated items stored
  | .object properties, stored => propertiesStored_enumerated properties stored

theorem itemsStored_enumerated : (items : List Json) → ItemsStored items → ItemsEnumerated items
  | [], _ => trivial
  | item :: rest, stored => ⟨Json.Stored.enumerated item stored.1, itemsStored_enumerated rest stored.2⟩

theorem propertiesStored_enumerated : (properties : List (Text × Json)) → PropertiesStored properties →
    PropertiesEnumerated properties
  | [], _ => trivial
  | (_, value) :: rest, stored =>
    ⟨fun p member => enumeratesBefore_of_keyBefore (stored.1 p member), Json.Stored.enumerated value stored.2.1,
      propertiesStored_enumerated rest stored.2.2⟩
end

theorem arrayIndex_injective {left right : Text} {n : ℕ} (one : arrayIndex left = some n) (other : arrayIndex right = some n) :
    left = right := by
  rw [← arrayIndex_key one, arrayIndex_key other]

/-- A key after all the others is defined at the end. -/
theorem defineProperty_last {α : Type} {properties : List (Text × α)} {key : Text} (last : ∀ p ∈ properties, enumeratesBefore p.1 key)
    (value : α) : defineProperty properties key value = properties ++ [(key, value)] := by
  have fresh : key ∉ properties.map Prod.fst := by
    intro member
    obtain ⟨p, inside, rfl⟩ := List.mem_map.mp member
    exact enumeratesBefore_ne (last p inside) rfl
  unfold defineProperty
  rw [if_neg fresh]
  cases index : arrayIndex key with
  | none => rfl
  | some n =>
    have smaller : ∀ p ∈ properties, ((arrayIndex p.1).any (· < n)) = true := by
      intro p member
      have before := last p member
      unfold enumeratesBefore at before
      rw [index] at before
      cases known : arrayIndex p.1 with
      | none => simp [known] at before
      | some m =>
        rw [known] at before
        simpa using before
    dsimp only
    rw [List.takeWhile_eq_self_iff.mpr smaller, List.dropWhile_eq_nil_iff.mpr smaller]

theorem foldl_defineProperty_enumerated {α : Type} {properties : List (Text × α)}
    (sorted : properties.Pairwise fun p q => enumeratesBefore p.1 q.1) (known : List (Text × α))
    (before : ∀ p ∈ known, ∀ q ∈ properties, enumeratesBefore p.1 q.1) :
    properties.foldl (fun known p => defineProperty known p.1 p.2) known = known ++ properties := by
  induction properties generalizing known with
  | nil => simp
  | cons q rest ih =>
    rw [List.pairwise_cons] at sorted
    have last : ∀ p ∈ known, enumeratesBefore p.1 q.1 := fun p member => before p member q (by simp)
    rw [List.foldl_cons, defineProperty_last last, ih sorted.2]
    · simp
    · intro p member r inside
      rcases List.mem_append.mp member with old | new
      · exact before p old r (by simp [inside])
      · rw [List.mem_singleton.mp new]
        exact sorted.1 r inside

theorem PropertiesEnumerated.pairwise {properties : List (Text × Json)} (stored : PropertiesEnumerated properties) :
    properties.Pairwise fun p q => enumeratesBefore p.1 q.1 := by
  induction properties with
  | nil => exact List.Pairwise.nil
  | cons p rest ih =>
    obtain ⟨first, -, others⟩ := stored
    exact List.pairwise_cons.mpr ⟨first, ih others⟩

theorem endsNumeral_cons {u : CodeUnit} (other : isDigit u = false ∧ u ≠ unit '.' ∧ u ≠ unit 'e' ∧ u ≠ unit 'E') (rest : Text) :
    EndsNumeral (u :: rest) := by
  intro v member
  simp at member
  rw [← member]
  exact other

theorem startsNumber_not {u v : CodeUnit} (starts : startsNumber u = true) (other : startsNumber v = false) : u ≠ v := by
  intro same
  rw [same, other] at starts
  exact Bool.noConfusion starts

theorem startsNumber_notWhitespace {u : CodeUnit} (starts : startsNumber u = true) : isWhitespace u = false := by
  have minus : (unit '-').val = 45 := by decide
  simp only [startsNumber, isDigit, Bool.or_eq_true, decide_eq_true_eq, Fin.ext_iff, minus] at starts
  simp only [isWhitespace, decide_eq_false_iff_not]
  omega

/-- A number that is not finite has the text of `null`. -/
theorem numberText_null {n : Number} (infinite : ¬ n.isFinite = true) : numberText n = ascii "null" := by
  cases n with
  | finite negative m => exact absurd rfl infinite
  | infinite negative => rfl
  | nan => rfl

theorem text_head (value : Json) : ∃ u more, value.text = u :: more ∧ isWhitespace u = false ∧ u ≠ unit ']' := by
  cases value with
  | null => exact ⟨_, _, rfl, by decide, by decide⟩
  | bool b =>
    cases b with
    | true => exact ⟨_, _, rfl, by decide, by decide⟩
    | false => exact ⟨_, _, rfl, by decide, by decide⟩
  | number n =>
    by_cases finite : n.isFinite = true
    · obtain ⟨u, more, head, starts⟩ := numberText_head finite
      exact ⟨u, more, head, startsNumber_notWhitespace starts, startsNumber_not starts (by decide)⟩
    · exact ⟨_, _, numberText_null finite, by decide, by decide⟩
  | string s => exact ⟨_, _, rfl, by decide, by decide⟩
  | array items => exact ⟨_, _, rfl, by decide, by decide⟩
  | object properties => exact ⟨_, _, rfl, by decide, by decide⟩

theorem itemsText_head (item : Json) (items : List Json) :
    ∃ u more, itemsText (item :: items) = u :: more ∧ isWhitespace u = false ∧ u ≠ unit ']' := by
  obtain ⟨u, more, head, kept⟩ := text_head item
  cases items with
  | nil => exact ⟨u, more, by rw [itemsText, head], kept⟩
  | cons next rest => exact ⟨u, _, by rw [itemsText, head, List.cons_append], kept⟩

theorem propertiesText_head (p : Text × Json) (properties : List (Text × Json)) :
    ∃ more, propertiesText (p :: properties) = unit '"' :: more := by
  obtain ⟨key, value⟩ := p
  cases properties with
  | nil => exact ⟨_, rfl⟩
  | cons next rest => exact ⟨_, rfl⟩

theorem parseWord_null (rest : Text) : parseWord (ascii "null" ++ rest) = some (.null, rest) := by
  rw [parseWord, takeWord_append]
  rfl

theorem parseWord_true (rest : Text) : parseWord (ascii "true" ++ rest) = some (.bool true, rest) := by
  have other : takeWord (ascii "null") (ascii "true" ++ rest) = none := rfl
  rw [parseWord, other, takeWord_append]
  rfl

theorem parseWord_false (rest : Text) : parseWord (ascii "false" ++ rest) = some (.bool false, rest) := by
  have null : takeWord (ascii "null") (ascii "false" ++ rest) = none := rfl
  have other : takeWord (ascii "true") (ascii "false" ++ rest) = none := rfl
  rw [parseWord, null, other, takeWord_append]
  rfl

/-- A text that starts with a letter is read as a keyword. -/
theorem parseValue_word {u : CodeUnit} (letter : 97 ≤ u.val ∧ u.val ≤ 122) (fuel : ℕ) (rest : Text) :
    parseValue (fuel + 1) (u :: rest) = parseWord (u :: rest) := by
  have differs {v : CodeUnit} (far : ¬ (97 ≤ v.val ∧ v.val ≤ 122)) : u ≠ v := fun same => far (same ▸ letter)
  have whitespace : isWhitespace u = false := by
    simp only [isWhitespace, decide_eq_false_iff_not]
    omega
  have number : ¬ startsNumber u = true := by
    simp only [startsNumber, isDigit, Bool.or_eq_true, decide_eq_true_eq]
    rintro (digit | minus)
    · omega
    · exact differs (by decide) minus
  unfold parseValue
  rw [skipWhitespace_cons whitespace]
  dsimp only
  rw [if_neg (differs (by decide)), if_neg (differs (by decide)), if_neg (differs (by decide)), if_neg number]

mutual
/-- The value that is read from the text of a value: its keys are enumerated, its numbers
    have lost the sign of a zero, and a number that is not finite is null. -/
def asRead : Json → Json
  | .null => .null
  | .bool value => .bool value
  | .string value => .string value
  | .number value => if value.isFinite then .number (unsignZero value) else .null
  | .array items => .array (asReadItems items)
  | .object properties => .object ((asReadProperties properties).foldl (fun known p => defineProperty known p.1 p.2) [])

def asReadItems : List Json → List Json
  | [] => []
  | item :: rest => asRead item :: asReadItems rest

def asReadProperties : List (Text × Json) → List (Text × Json)
  | [] => []
  | (key, value) :: rest => (key, asRead value) :: asReadProperties rest
end

mutual
/-- A value is read from its text, whatever comes after it. -/
theorem parseValue_text : (value : Json) → (fuel : ℕ) → 2 * value.text.length ≤ fuel → (rest : Text) →
    EndsNumeral rest → parseValue fuel (value.text ++ rest) = some (asRead value, rest)
  | .null, fuel, enough, rest, _ => by
    obtain ⟨fuel, rfl⟩ : ∃ n, fuel = n + 1 := ⟨fuel - 1, by simp [Json.text, ascii] at enough; omega⟩
    exact (parseValue_word (by decide) fuel _).trans (parseWord_null rest)
  | .bool true, fuel, enough, rest, _ => by
    obtain ⟨fuel, rfl⟩ : ∃ n, fuel = n + 1 := ⟨fuel - 1, by simp [Json.text, ascii] at enough; omega⟩
    exact (parseValue_word (by decide) fuel _).trans (parseWord_true rest)
  | .bool false, fuel, enough, rest, _ => by
    obtain ⟨fuel, rfl⟩ : ∃ n, fuel = n + 1 := ⟨fuel - 1, by simp [Json.text, ascii] at enough; omega⟩
    exact (parseValue_word (by decide) fuel _).trans (parseWord_false rest)
  | .number n, fuel, enough, rest, ends => by
    rw [asRead]
    by_cases finite : n.isFinite = true
    · obtain ⟨u, more, head, starts⟩ := numberText_head finite
      have positive : 0 < (numberText n).length := by simp [head]
      obtain ⟨fuel, rfl⟩ : ∃ n, fuel = n + 1 := ⟨fuel - 1, by rw [Json.text] at enough; omega⟩
      have starting : parseValue (fuel + 1) (u :: (more ++ rest)) =
          (parseNumber (u :: (more ++ rest))).map fun (n, rest) => (Json.number n, rest) := by
        unfold parseValue
        rw [skipWhitespace_cons (startsNumber_notWhitespace starts)]
        dsimp only
        rw [if_neg (startsNumber_not starts (by decide)), if_neg (startsNumber_not starts (by decide)),
          if_neg (startsNumber_not starts (by decide)), if_pos starts]
      rw [if_pos finite, Json.text, head, List.cons_append, starting, ← List.cons_append, ← head, parseNumber_text finite ends,
        Option.map_some]
    · rw [if_neg finite, Json.text, numberText_null finite]
      rw [Json.text, numberText_null finite] at enough
      obtain ⟨fuel, rfl⟩ : ∃ n, fuel = n + 1 := ⟨fuel - 1, by simp [ascii] at enough; omega⟩
      exact (parseValue_word (by decide) fuel _).trans (parseWord_null rest)
  | .string s, fuel, enough, rest, _ => by
    obtain ⟨fuel, rfl⟩ : ∃ n, fuel = n + 1 := ⟨fuel - 1, by simp [Json.text, stringText] at enough; omega⟩
    rw [Json.text, stringText, List.cons_append, List.append_assoc]
    unfold parseValue
    rw [skipWhitespace_cons (by decide)]
    dsimp only
    rw [if_pos rfl, List.singleton_append, parseString_quoted, Option.map_some, asRead]
  | .array [], fuel, enough, rest, _ => by
    obtain ⟨fuel, rfl⟩ : ∃ n, fuel = n + 1 := ⟨fuel - 1, by simp [Json.text] at enough; omega⟩
    rfl
  | .array (item :: items), fuel, enough, rest, _ => by
    obtain ⟨fuel, rfl⟩ : ∃ n, fuel = n + 1 := ⟨fuel - 1, by simp [Json.text] at enough; omega⟩
    obtain ⟨u, more, head, whitespace, closing⟩ := itemsText_head item items
    have items := parseItems_text item items fuel (by simp [Json.text] at enough; omega) rest
    rw [Json.text, List.cons_append, List.append_assoc, List.singleton_append]
    rw [head, List.cons_append] at items ⊢
    unfold parseValue
    rw [skipWhitespace_cons (by decide)]
    dsimp only
    rw [if_neg (by decide), if_pos rfl, skipWhitespace_cons whitespace]
    dsimp only
    rw [if_neg closing, items, Option.map_some, asRead]
  | .object [], fuel, enough, rest, _ => by
    obtain ⟨fuel, rfl⟩ : ∃ n, fuel = n + 1 := ⟨fuel - 1, by simp [Json.text] at enough; omega⟩
    rfl
  | .object (p :: properties), fuel, enough, rest, _ => by
    obtain ⟨fuel, rfl⟩ : ∃ n, fuel = n + 1 := ⟨fuel - 1, by simp [Json.text] at enough; omega⟩
    obtain ⟨more, head⟩ := propertiesText_head p properties
    have read := parseProperties_text p properties fuel (by simp [Json.text] at enough; omega) rest
    rw [Json.text, List.cons_append, List.append_assoc, List.singleton_append]
    rw [head, List.cons_append] at read ⊢
    unfold parseValue
    rw [skipWhitespace_cons (by decide)]
    dsimp only
    rw [if_neg (by decide), if_neg (by decide), if_pos rfl, skipWhitespace_cons (by decide)]
    dsimp only
    rw [if_neg (by decide), read, Option.map_some, asRead]

theorem parseItems_text : (item : Json) → (items : List Json) → (fuel : ℕ) →
    2 * (itemsText (item :: items)).length + 1 ≤ fuel → (rest : Text) →
    parseItems fuel (itemsText (item :: items) ++ unit ']' :: rest) = some (asReadItems (item :: items), rest)
  | item, [], fuel, enough, rest => by
    obtain ⟨fuel, rfl⟩ : ∃ n, fuel = n + 1 := ⟨fuel - 1, by omega⟩
    rw [itemsText] at enough ⊢
    unfold parseItems
    rw [parseValue_text item fuel (by omega) _ (endsNumeral_cons (by decide) rest), Option.bind_some]
    dsimp only
    rw [skipWhitespace_cons (by decide)]
    dsimp only
    rw [if_neg (by decide), if_pos rfl, asReadItems, asReadItems]
  | item, next :: items, fuel, enough, rest => by
    obtain ⟨fuel, rfl⟩ : ∃ n, fuel = n + 1 := ⟨fuel - 1, by omega⟩
    rw [itemsText, List.length_append, List.length_cons] at enough
    rw [itemsText, List.append_assoc, List.cons_append]
    unfold parseItems
    rw [parseValue_text item fuel (by omega) _ (endsNumeral_cons (by decide) _), Option.bind_some]
    dsimp only
    rw [skipWhitespace_cons (by decide)]
    dsimp only
    rw [if_pos rfl, parseItems_text next items fuel (by omega) rest, Option.map_some]
    rfl

theorem parseProperties_text : (p : Text × Json) → (properties : List (Text × Json)) →
    (fuel : ℕ) → 2 * (propertiesText (p :: properties)).length + 1 ≤ fuel → (rest : Text) →
    parseProperties fuel (propertiesText (p :: properties) ++ unit '}' :: rest) =
      some (asReadProperties (p :: properties), rest)
  | (key, value), [], fuel, enough, rest => by
    obtain ⟨fuel, rfl⟩ : ∃ n, fuel = n + 1 := ⟨fuel - 1, by omega⟩
    rw [propertiesText, List.length_append, List.length_cons] at enough
    rw [propertiesText, stringText, List.append_assoc, List.cons_append, List.append_assoc]
    unfold parseProperties
    rw [skipWhitespace_cons (by decide)]
    dsimp only
    rw [if_pos rfl, List.singleton_append, parseString_quoted, Option.bind_some]
    dsimp only
    rw [List.cons_append, skipWhitespace_cons (by decide)]
    dsimp only
    rw [if_pos rfl, parseValue_text value fuel (by omega) _ (endsNumeral_cons (by decide) rest), Option.bind_some]
    dsimp only
    rw [skipWhitespace_cons (by decide)]
    dsimp only
    rw [if_neg (by decide), if_pos rfl, asReadProperties, asReadProperties]
  | (key, value), next :: properties, fuel, enough, rest => by
    obtain ⟨fuel, rfl⟩ : ∃ n, fuel = n + 1 := ⟨fuel - 1, by omega⟩
    rw [propertiesText, List.length_append, List.length_cons, List.length_append, List.length_cons] at enough
    rw [propertiesText, stringText, List.append_assoc, List.cons_append, List.append_assoc]
    unfold parseProperties
    rw [skipWhitespace_cons (by decide)]
    dsimp only
    rw [if_pos rfl, List.singleton_append, parseString_quoted, Option.bind_some]
    dsimp only
    rw [List.cons_append, skipWhitespace_cons (by decide)]
    dsimp only
    rw [if_pos rfl, List.append_assoc, List.cons_append,
      parseValue_text value fuel (by omega) _ (endsNumeral_cons (by decide) _), Option.bind_some]
    dsimp only
    rw [skipWhitespace_cons (by decide)]
    dsimp only
    rw [if_pos rfl, parseProperties_text next properties fuel (by omega) rest, Option.map_some]
    rfl
end

/-- What is read from the text of a value. -/
theorem parseJson_asRead (value : Json) : parseJson value.text = some (asRead value) := by
  have read := parseValue_text value (2 * value.text.length + 2) (by omega) [] (by intro u member; simp at member)
  rw [List.append_nil] at read
  rw [parseJson, read]
  rfl

mutual
theorem asRead_enumerated : (value : Json) → value.Enumerated → asRead value = value
  | .null, _ => rfl
  | .bool _, _ => rfl
  | .string _, _ => rfl
  | .number n, enumerated => by rw [asRead, if_pos enumerated.1, enumerated.2]
  | .array items, enumerated => by rw [asRead, asReadItems_enumerated items enumerated]
  | .object properties, enumerated => by
    rw [asRead, asReadProperties_enumerated properties enumerated,
      foldl_defineProperty_enumerated (PropertiesEnumerated.pairwise enumerated) [] (by simp), List.nil_append]

theorem asReadItems_enumerated : (items : List Json) → ItemsEnumerated items → asReadItems items = items
  | [], _ => rfl
  | item :: rest, enumerated => by
    rw [asReadItems, asRead_enumerated item enumerated.1, asReadItems_enumerated rest enumerated.2]

theorem asReadProperties_enumerated : (properties : List (Text × Json)) → PropertiesEnumerated properties →
    asReadProperties properties = properties
  | [], _ => rfl
  | (_, value) :: rest, enumerated => by
    rw [asReadProperties, asRead_enumerated value enumerated.2.1, asReadProperties_enumerated rest enumerated.2.2]
end

/-- An enumerated value is read back from its text. -/
theorem parseJson_enumerated {value : Json} (stored : value.Enumerated) : parseJson value.text = some value := by
  rw [parseJson_asRead, asRead_enumerated value stored]

theorem parseJson_text {value : Json} (stored : value.Stored) : parseJson value.text = some value :=
  parseJson_enumerated (Json.Stored.enumerated value stored)

end SynapsorRunner.JsonText
