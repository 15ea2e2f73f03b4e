import SynapsorRunner.JsonContents

/-!
The scan for secrets before data is kept: no key of an object may read like the name
of a credential and no string may hold one. What the scan finds depends on the contents
of a value alone (`secretFree_of_denote`), the path in its error on their order as well.
-/
namespace SynapsorRunner.SecretMaterial
open SynapsorRunner.NumberText SynapsorRunner.JsonText SynapsorRunner.CanonicalJson SynapsorRunner.JsonContents

/-! ### The patterns -/

/-- What the flag `i` compares: a capital letter of ASCII as a small one. -/
def lower (u : CodeUnit) : CodeUnit := if 65 ≤ u.val ∧ u.val ≤ 90 then codeUnit (u.val + 32) else u

def isSeparator (u : CodeUnit) : Bool := decide (u = unit '_' ∨ u = unit '-')

/-- `[_-]?` -/
def skipSeparator : Text → Text
  | [] => []
  | u :: rest => if isSeparator u then rest else u :: rest

/-- The parts of a word at the start of a text with `[_-]?` between them, taken away. -/
def takeParts : List Text → Text → Option Text
  | [], text => some text
  | [part], text => takeWord part text
  | part :: next :: rest, text => (takeWord part text).bind fun after => takeParts (next :: rest) (skipSeparator after)

/-- The words of `secretKeyPattern`, in the parts between which it has `[_-]?`. -/
def secretWords : List (List Text) :=
  [[ascii "password"], [ascii "passwd"], [ascii "secret"], [ascii "token"], [ascii "api", ascii "key"],
    [ascii "access", ascii "key"], [ascii "private", ascii "key"], [ascii "cookie"], [ascii "credential"],
    [ascii "connection", ascii "string"], [ascii "database", ascii "url"], [ascii "read", ascii "url"],
    [ascii "write", ascii "url"]]

def isWordEnd (rest : Text) : Bool := rest.head?.all isSeparator

def secretWordAt (text : Text) : Bool := secretWords.any fun word => (takeParts word text).any isWordEnd

def afterSeparators : Text → List Text
  | [] => []
  | u :: rest => if isSeparator u then rest :: afterSeparators rest else afterSeparators rest

/-- A word between separators or ends. -/
def secretKeyPattern (key : Text) : Bool :=
  let key := key.map lower
  (key :: afterSeparators key).any secretWordAt

/-- `[A-Za-z0-9._~+/=-]` of a text in small letters. -/
def isTokenUnit (u : CodeUnit) : Bool :=
  decide (97 ≤ u.val ∧ u.val ≤ 122) || isDigit u || (ascii "._~+/=-").contains u

/-- `\s` -/
def isSpace (u : CodeUnit) : Bool :=
  decide (9 ≤ u.val ∧ u.val ≤ 13 ∨ 0x2000 ≤ u.val ∧ u.val ≤ 0x200a) ||
    [32, 160, 0x1680, 0x2028, 0x2029, 0x202f, 0x205f, 0x3000, 0xfeff].contains u.val

/-- `[A-Z ]*PRIVATE KEY-----` -/
def privateKeyLine : Text → Bool
  | [] => false
  | u :: rest =>
    (takeWord (ascii "private key-----") (u :: rest)).isSome ||
      ((decide (97 ≤ u.val ∧ u.val ≤ 122) || decide (u = unit ' ')) && privateKeyLine rest)

def secretValueAt (text : Text) : Bool :=
  (takeWord (ascii "postgres://") text).isSome || (takeWord (ascii "postgresql://") text).isSome ||
    (takeWord (ascii "mysql://") text).isSome ||
    ((takeWord (ascii "bearer") text).any fun rest =>
      rest.head?.any isSpace && (rest.dropWhile isSpace).head?.any isTokenUnit) ||
    ((takeWord (ascii "syn_wbr_") text).any fun rest => rest.head?.any isTokenUnit) ||
    (takeWord (ascii "-----begin ") text).any privateKeyLine

/-- A secret anywhere in a string. -/
def secretValuePattern (value : Text) : Bool := (value.map lower).tails.any secretValueAt

/-! ### The scan -/

/-- `SECRET_MATERIAL_REJECTED`, with the path of what was found. -/
inductive SecretMaterialRejected where
  | field (path : Text)
  | value (path : Text)
  deriving DecidableEq

mutual
def assertNoSecretMaterial : Json → Text → Except SecretMaterialRejected Unit
  | .array items, path => assertItems items path 0
  | .object properties, path => assertProperties properties path
  | .string value, path => if secretValuePattern value then .error (.value path) else .ok ()
  | .null, _ => .ok ()
  | .bool _, _ => .ok ()
  | .number _, _ => .ok ()

def assertItems : List Json → Text → ℕ → Except SecretMaterialRejected Unit
  | [], _, _ => .ok ()
  | item :: rest, path, index =>
    (assertNoSecretMaterial item (path ++ unit '[' :: (digitsText (digitsOf index) ++ [unit ']']))).bind fun _ =>
      assertItems rest path (index + 1)

def assertProperties : List (Text × Json) → Text → Except SecretMaterialRejected Unit
  | [], _ => .ok ()
  | (key, value) :: rest, path =>
    if secretKeyPattern key then .error (.field (path ++ unit '.' :: key))
    else (assertNoSecretMaterial value (path ++ unit '.' :: key)).bind fun _ => assertProperties rest path
end

mutual
/-- Nothing in the value reads like a secret. -/
def SecretFree : Json → Prop
  | .array items => ItemsSecretFree items
  | .object properties => PropertiesSecretFree properties
  | .string value => secretValuePattern value = false
  | .null => True
  | .bool _ => True
  | .number _ => True

def ItemsSecretFree : List Json → Prop
  | [] => True
  | item :: rest => SecretFree item ∧ ItemsSecretFree rest

def PropertiesSecretFree : List (Text × Json) → Prop
  | [] => True
  | (key, value) :: rest => secretKeyPattern key = false ∧ SecretFree value ∧ PropertiesSecretFree rest
end

theorem bind_eq_ok_iff {ε : Type} {first : Except ε Unit} {next : Unit → Except ε Unit} :
    first.bind next = .ok () ↔ first = .ok () ∧ next () = .ok () := by
  cases first <;> simp [Except.bind]

mutual
/-- The scan passes what is free of secrets, whatever its path. -/
theorem assertNoSecretMaterial_ok_iff : (value : Json) → (path : Text) →
    (assertNoSecretMaterial value path = .ok () ↔ SecretFree value)
  | .null, _ => by simp [assertNoSecretMaterial, SecretFree]
  | .bool _, _ => by simp [assertNoSecretMaterial, SecretFree]
  | .number _, _ => by simp [assertNoSecretMaterial, SecretFree]
  | .string value, path => by
    cases found : secretValuePattern value <;> simp [assertNoSecretMaterial, SecretFree, found]
  | .array items, path => by
    rw [assertNoSecretMaterial, SecretFree]
    exact assertItems_ok_iff items path 0
  | .object properties, path => by
    rw [assertNoSecretMaterial, SecretFree]
    exact assertProperties_ok_iff properties path

theorem assertItems_ok_iff : (items : List Json) → (path : Text) → (index : ℕ) →
    (assertItems items path index = .ok () ↔ ItemsSecretFree items)
  | [], _, _ => by simp [assertItems, ItemsSecretFree]
  | item :: rest, path, index => by
    rw [assertItems, ItemsSecretFree, bind_eq_ok_iff, assertNoSecretMaterial_ok_iff item,
      assertItems_ok_iff rest path (index + 1)]

theorem assertProperties_ok_iff : (properties : List (Text × Json)) → (path : Text) →
    (assertProperties properties path = .ok () ↔ PropertiesSecretFree properties)
  | [], _ => by simp [assertProperties, PropertiesSecretFree]
  | (key, value) :: rest, path => by
    rw [assertProperties, PropertiesSecretFree]
    cases found : secretKeyPattern key with
    | true => simp
    | false =>
      rw [if_neg (by simp), bind_eq_ok_iff, assertNoSecretMaterial_ok_iff value, assertProperties_ok_iff rest path]
      simp
end

theorem itemsSecretFree_iff {items : List Json} : ItemsSecretFree items ↔ ∀ item ∈ items, SecretFree item := by
  induction items with
  | nil => simp [ItemsSecretFree]
  | cons item rest ih => rw [ItemsSecretFree, ih, List.forall_mem_cons]

theorem propertiesSecretFree_iff {properties : List (Text × Json)} :
    PropertiesSecretFree properties ↔ ∀ p ∈ properties, secretKeyPattern p.1 = false ∧ SecretFree p.2 := by
  induction properties with
  | nil => simp [PropertiesSecretFree]
  | cons p rest ih =>
    rw [PropertiesSecretFree, ih, List.forall_mem_cons]
    tauto

/-- The order of keys hides no secret and makes none. -/
theorem secretFree_of_denote {left : Json} : ∀ {right : Json}, IsJson left → IsJson right → SecretFree left →
    denote left = denote right → SecretFree right := by
  induction left with
  | null => intro right _ _ _ same; cases right <;> simp [denote] at same; trivial
  | bool b => intro right _ _ _ same; cases right <;> simp [denote] at same; trivial
  | number n => intro right _ _ _ same; cases right <;> simp [denote] at same; trivial
  | string s =>
    intro right _ _ free same
    cases right <;> simp [denote] at same
    rw [← same]
    exact free
  | array items ih =>
    intro right json other free same
    obtain ⟨others, rfl, values⟩ := denote_array same
    refine itemsSecretFree_iff.mpr ?_
    intro item member
    obtain ⟨original, inside, equal⟩ := mem_map_eq values member
    exact ih original inside (itemsAreJson_iff.mp json original inside) (itemsAreJson_iff.mp other item member)
      (itemsSecretFree_iff.mp free original inside) equal
  | object properties ih =>
    intro right json other free same
    obtain ⟨others, rfl, values⟩ := denote_object same
    refine propertiesSecretFree_iff.mpr ?_
    intro q member
    obtain ⟨p, inside, key, equal⟩ := mem_of_denoteProperties json.1 other.1 values member
    obtain ⟨name, value⟩ := propertiesSecretFree_iff.mp free p inside
    refine ⟨by rw [← key]; exact name, ?_⟩
    exact ih p inside (propertiesAreJson_iff.mp json.2 p inside) (propertiesAreJson_iff.mp other.2 q member) value equal

example : secretKeyPattern (ascii "db_API-Key_2") = true := by decide

example : secretValuePattern (ascii "see Bearer  abc") = true := by decide

end SynapsorRunner.SecretMaterial
