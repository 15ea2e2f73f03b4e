import SynapsorRunner.LedgerTables
import SynapsorRunner.SecretMaterial

/-!
The rows of the SQLite tables as the shared Postgres ledger carries them. The columns
of a row go into a JSON object, without the NULLs and with the JSON columns parsed, the
object into a `jsonb` column, and what is read from there back into columns.

A row comes back with the same contents (`restore_same`) when its JSON columns hold JSON
values other than `null` and its numbers are ones that JSON can write. A column that
cannot be parsed comes back as the text of a string, a column with the value `null` as
NULL.
-/
namespace SynapsorRunner.LedgerRows
open SynapsorRunner.Doubles SynapsorRunner.NumberText SynapsorRunner.JsonText SynapsorRunner.CanonicalJson
open SynapsorRunner.JsonContents SynapsorRunner.SecretMaterial SynapsorRunner.LedgerTables

/-! ### Rows -/

inductive SqlValue where
  | null
  | number (value : Number)
  | text (value : Text)
  deriving DecidableEq

/-- A row that its table admits: the columns of the table, those that are NOT NULL with
    a value, and no number in a JSON column, which has the type TEXT. -/
structure Row where
  table : ExportedTable
  properties : List (Text × SqlValue)
  columns : properties.map Prod.fst = table.spec.columns
  present : ∀ p ∈ properties, p.1 ∈ table.spec.required → p.2 ≠ .null
  affinity : ∀ p ∈ properties, p.1 ∈ sharedLedgerJsonColumns → ∀ n, p.2 ≠ .number n

namespace Row

def value (row : Row) (column : Text) : SqlValue := (KeyedMap.find column row.properties).getD .null

def key (row : Row) : SqlValue := row.value row.table.spec.conflict

end Row

/-- The row of a table that an entry of the ledger is about. -/
structure RowId where
  table : ExportedTable
  key : SqlValue
  deriving DecidableEq

def Row.id (row : Row) : RowId := ⟨row.table, row.key⟩

/-! ### Into the ledger -/

/-- The value of a column in the object, none for a NULL. A JSON column that cannot be
    parsed stays a string. -/
def payloadValue (column : Text) : SqlValue → Option Json
  | .null => none
  | .number n => some (.number n)
  | .text t => some (if column ∈ sharedLedgerJsonColumns then (parseJson t).getD (.string t) else .string t)

def payloadProperty (p : Text × SqlValue) : Option (Text × Json) :=
  (payloadValue p.1 p.2).map fun value => (payloadKey p.1, value)

def payloadProperties (row : Row) : List (Text × Json) :=
  (tableKey, .string (ascii row.table.name)) :: row.properties.filterMap payloadProperty

def sharedLedgerPayload (row : Row) : Json := .object (payloadProperties row)

/-! ### Out of the ledger -/

/-- `parseJsonRecord` of a value that is not a string. -/
def payloadRecord : Json → List (Text × Json)
  | .object properties => properties
  | _ => []

/-- The second value where the first is missing or `null`. -/
def orElse (first second : Option Json) : Option Json :=
  match first with
  | none => second
  | some .null => second
  | some value => some value

def restoreText (column : Text) : Json → SqlValue
  | .null => .null
  | .bool b => if column ∈ sharedLedgerJsonColumns then .text (Json.bool b).text
      else .number (if b then numberOne else .finite false .zero)
  | .number n => if column ∈ sharedLedgerJsonColumns then .text (Json.number n).text else .number n
  | .string s => if column ∈ sharedLedgerJsonColumns then .text (Json.string s).text else .text s
  | .array items => .text (Json.array items).text
  | .object properties => .text (Json.object properties).text

def sharedLedgerRestoreValue (payload : List (Text × Json)) (column : Text) : SqlValue :=
  match orElse (KeyedMap.find (normalizedKey column) payload) (KeyedMap.find column payload) with
  | none => .null
  | some value => restoreText column value

theorem restoreText_affinity {column : Text} (json : column ∈ sharedLedgerJsonColumns) (value : Json) (n : Number) :
    restoreText column value ≠ .number n := by
  cases value <;> simp [restoreText, json]

theorem sharedLedgerRestoreValue_affinity {column : Text} (json : column ∈ sharedLedgerJsonColumns)
    (payload : List (Text × Json)) (n : Number) : sharedLedgerRestoreValue payload column ≠ .number n := by
  unfold sharedLedgerRestoreValue
  split
  · simp
  · exact restoreText_affinity json _ n

def restoredProperties (table : ExportedTable) (payload : List (Text × Json)) : List (Text × SqlValue) :=
  table.spec.columns.map fun column => (column, sharedLedgerRestoreValue payload column)

/-- The row of `restoreSharedLedgerEntry`, none where a required column is missing. -/
def restoreSharedLedgerEntry (table : ExportedTable) (payload : List (Text × Json)) : Option Row :=
  if present : ∀ p ∈ restoredProperties table payload, p.1 ∈ table.spec.required → p.2 ≠ .null then
    some
      { table := table
        properties := restoredProperties table payload
        columns := by simp [restoredProperties, List.map_map, Function.comp_def]
        present := present
        affinity := by
          intro p member json n
          obtain ⟨column, -, rfl⟩ := List.mem_map.mp member
          exact sharedLedgerRestoreValue_affinity json payload n }
  else none

/-- `sharedLedgerTableForEntry` -/
def tableForEntry (kind : String) (payload : List (Text × Json)) : Option ExportedTable :=
  match KeyedMap.find tableKey payload with
  | some (.string name) => exportedTables.find? fun table => ascii table.name = name
  | _ => exportedTables.find? fun table => table.kind = kind

/-! ### The columns of a table -/

section Tables
variable (table : ExportedTable)

theorem wellFormed : table.spec.WellFormed table.created := tables_wellFormed table (mem_exportedTables table)

theorem conflict_notJson : table.spec.conflict ∉ sharedLedgerJsonColumns := (wellFormed table).1.2
theorem created_notJson : table.created ∉ sharedLedgerJsonColumns := (wellFormed table).2.1.2

variable {table}

theorem payloadKeys_nodup : (table.spec.columns.map payloadKey).Nodup :=
    (List.nodup_cons.mp (wellFormed table).2.2.2.1).2

theorem payloadKey_ne_table {column : Text} (known : column ∈ table.spec.columns) : payloadKey column ≠ tableKey := by
  intro same
  have apart := (List.nodup_cons.mp (wellFormed table).2.2.2.1).1
  exact apart (List.mem_map.mpr ⟨column, known, same⟩)

theorem normalizedKey_eq {column : Text} (known : column ∈ table.spec.columns) :
    normalizedKey column = payloadKey column :=
  (wellFormed table).2.2.2.2.1 column known

theorem payloadKey_injective {column other : Text} (known : column ∈ table.spec.columns)
    (knownToo : other ∈ table.spec.columns)
    (same : payloadKey column = payloadKey other) : column = other :=
  List.inj_on_of_nodup_map payloadKeys_nodup known knownToo same

/-- A key of the object that is the name of a column is the key of that column. -/
theorem column_of_payloadKey {column other : Text} (known : column ∈ table.spec.columns)
    (knownToo : other ∈ table.spec.columns)
    (same : payloadKey other = column) : other = column := by
  have own := (wellFormed table).2.2.2.2.2 column known (payloadKey other)
    (List.mem_cons_of_mem _ (List.mem_map_of_mem knownToo)) same
  exact payloadKey_injective knownToo known (same.trans own.symm)

theorem column_ne_table {column : Text} (known : column ∈ table.spec.columns) : column ≠ tableKey := by
  intro same
  have own := (wellFormed table).2.2.2.2.2 column known tableKey List.mem_cons_self same.symm
  exact payloadKey_ne_table known (own.trans same)

end Tables

theorem tableKey_find (kind : String) {table : ExportedTable} {payload : List (Text × Json)}
    (named : KeyedMap.find tableKey payload = some (.string (ascii table.name))) : tableForEntry kind payload = some table := by
  unfold tableForEntry
  rw [named]
  dsimp only
  cases found : exportedTables.find? fun other => ascii other.name = ascii table.name with
  | none =>
    have not := List.find?_eq_none.mp found table (mem_exportedTables table)
    simp at not
  | some other =>
    have same : ascii other.name = ascii table.name := by simpa using List.find?_some found
    rw [List.inj_on_of_nodup_map names_distinct (mem_exportedTables other) (mem_exportedTables table) same]

/-! ### The contents of a row -/

/-- What a column holds: a JSON column its value, up to the order of keys. -/
inductive ColumnValue where
  | sql (value : SqlValue)
  | json (value : Value)

def readColumn (column : Text) : SqlValue → ColumnValue
  | .text t =>
    if column ∈ sharedLedgerJsonColumns then
      match parseJson t with
      | some value => .json (denote value)
      | none => .sql (.text t)
    else .sql (.text t)
  | value => .sql value

theorem readColumn_plain {column : Text} (plain : column ∉ sharedLedgerJsonColumns) (value : SqlValue) :
    readColumn column value = .sql value := by
  cases value <;> simp [readColumn, plain]

theorem readColumn_json {column : Text} (json : column ∈ sharedLedgerJsonColumns) {t : Text} {value : Json}
    (read : parseJson t = some value) : readColumn column (.text t) = .json (denote value) := by
  simp [readColumn, json, read]

def Row.contents (row : Row) : List (Text × ColumnValue) := row.properties.map fun p => (p.1, readColumn p.1 p.2)

/-- The rows of one table with the same contents. -/
def Row.Same (left right : Row) : Prop := left.table = right.table ∧ left.contents = right.contents

namespace Row

theorem Same.refl (row : Row) : row.Same row := ⟨rfl, rfl⟩
theorem Same.symm {left right : Row} (same : left.Same right) : right.Same left := ⟨same.1.symm, same.2.symm⟩
theorem Same.trans {first second third : Row} (same : first.Same second) (next : second.Same third) :
    first.Same third :=
  ⟨same.1.trans next.1, same.2.trans next.2⟩

theorem find_contents (column : Text) (properties : List (Text × SqlValue)) :
    KeyedMap.find column (properties.map fun p => (p.1, readColumn p.1 p.2)) =
      (KeyedMap.find column properties).map (readColumn column) := by
  induction properties with
  | nil => rfl
  | cons p rest ih =>
    by_cases here : p.1 = column
    · simp [KeyedMap.find, here]
    · simp [KeyedMap.find, here, ih]

theorem Same.value {left right : Row} (same : left.Same right) {column : Text}
    (plain : column ∉ sharedLedgerJsonColumns) :
    left.value column = right.value column := by
  have found := find_contents column left.properties
  have foundToo := find_contents column right.properties
  rw [show left.properties.map (fun p => (p.1, readColumn p.1 p.2)) = right.contents from same.2] at found
  rw [show right.properties.map (fun p => (p.1, readColumn p.1 p.2)) = right.contents from rfl, found] at foundToo
  unfold Row.value
  cases one : KeyedMap.find column left.properties <;> cases two : KeyedMap.find column right.properties <;>
    simp [one, two, readColumn_plain plain] at foundToo ⊢
  exact foundToo

theorem Same.id {left right : Row} (same : left.Same right) : left.id = right.id := by
  have key : left.value left.table.spec.conflict = right.value left.table.spec.conflict :=
    same.value (conflict_notJson left.table)
  unfold Row.id Row.key
  rw [← same.1, key]

theorem mem_columns (row : Row) {p : Text × SqlValue} (member : p ∈ row.properties) :
    p.1 ∈ row.table.spec.columns := by
  rw [← row.columns]
  exact List.mem_map_of_mem member

theorem properties_eq {row : Row} {p q : Text × SqlValue} (member : p ∈ row.properties) (other : q ∈ row.properties)
    (same : p.1 = q.1) : p = q := by
  have unique : (row.properties.map Prod.fst).Nodup := by
    rw [row.columns]
    exact List.Nodup.of_map _ payloadKeys_nodup
  exact List.inj_on_of_nodup_map unique member other same

end Row

/-! ### The object of a row -/

theorem mem_payload {row : Row} {entry : Text × Json} :
    entry ∈ row.properties.filterMap payloadProperty ↔
      ∃ p ∈ row.properties, payloadValue p.1 p.2 = some entry.2 ∧ payloadKey p.1 = entry.1 := by
  simp only [List.mem_filterMap, payloadProperty, Option.map_eq_some_iff]
  constructor
  · rintro ⟨p, member, value, known, rfl⟩
    exact ⟨p, member, known, rfl⟩
  · rintro ⟨p, member, known, key⟩
    exact ⟨p, member, entry.2, known, by rw [key]⟩

theorem payload_nodup (row : Row) : ((payloadProperties row).map Prod.fst).Nodup := by
  rw [payloadProperties, List.map_cons, List.nodup_cons]
  constructor
  · intro member
    obtain ⟨entry, inside, same⟩ := List.mem_map.mp member
    obtain ⟨p, known, -, key⟩ := mem_payload.mp inside
    exact payloadKey_ne_table (row.mem_columns known) (key.trans same)
  · have keys : ((row.properties.filterMap payloadProperty).map Prod.fst).Sublist (row.properties.map fun p => payloadKey p.1) := by
      induction row.properties with
      | nil => exact List.Sublist.refl _
      | cons p rest ih =>
        cases value : payloadValue p.1 p.2 with
        | none =>
          rw [List.filterMap_cons_none (by simp [payloadProperty, value])]
          exact ih.cons _
        | some v =>
          rw [List.filterMap_cons_some (b := (payloadKey p.1, v)) (by simp [payloadProperty, value])]
          exact ih.cons_cons _
    refine keys.nodup ?_
    have columns : row.properties.map (fun p => payloadKey p.1) = row.table.spec.columns.map payloadKey := by
      rw [← row.columns, List.map_map]
      rfl
    rw [columns]
    exact payloadKeys_nodup

theorem find_table (row : Row) : KeyedMap.find tableKey (payloadProperties row) = some
    (.string (ascii row.table.name)) := by
  simp [payloadProperties, KeyedMap.find]

/-- A column has its own key in the object. -/
theorem find_payloadKey (row : Row) {p : Text × SqlValue} (member : p ∈ row.properties) :
    KeyedMap.find (payloadKey p.1) (payloadProperties row) = payloadValue p.1 p.2 := by
  cases known : payloadValue p.1 p.2 with
  | some v =>
    refine KeyedMap.find_of_mem (payload_nodup row) (List.mem_cons_of_mem _ ?_)
    exact mem_payload.mpr ⟨p, member, known, rfl⟩
  | none =>
    refine KeyedMap.find_eq_none.mpr ?_
    intro present
    obtain ⟨entry, inside, same⟩ := List.mem_map.mp present
    rcases List.mem_cons.mp inside with rfl | inside
    · exact payloadKey_ne_table (row.mem_columns member) same.symm
    · obtain ⟨q, other, value, key⟩ := mem_payload.mp inside
      have column := payloadKey_injective (row.mem_columns other) (row.mem_columns member) (key.trans same)
      rw [Row.properties_eq other member column, known] at value
      cases value

/-- The name of a column whose value is NULL is no key of the object. -/
theorem find_nullColumn (row : Row) {p : Text × SqlValue} (member : p ∈ row.properties)
    (null : payloadValue p.1 p.2 = none) :
    KeyedMap.find p.1 (payloadProperties row) = none := by
  refine KeyedMap.find_eq_none.mpr ?_
  intro present
  obtain ⟨entry, inside, same⟩ := List.mem_map.mp present
  rcases List.mem_cons.mp inside with rfl | inside
  · exact column_ne_table (row.mem_columns member) same.symm
  · obtain ⟨q, other, value, key⟩ := mem_payload.mp inside
    have column := column_of_payloadKey (row.mem_columns member) (row.mem_columns other) (key.trans same)
    rw [Row.properties_eq other member column, null] at value
    cases value

/-! ### Through Postgres -/

/-- The column `payload_json jsonb` with the driver that writes and reads it, and the cast
    of a text to `timestamptz`. What is stored keeps its contents, and whether it can be
    stored does not depend on the order of its keys. -/
structure Postgres where
  jsonb : Json → Option Json
  timestamp : Text → Bool
  keeps : ∀ {value stored : Json}, IsJson value → jsonb value = some stored → stored.Enumerated ∧ denote stored = denote value
  accepts : ∀ {value other : Json}, IsJson value → IsJson other → denote value = denote other → (jsonb value).isSome = true →
    (jsonb other).isSome = true

/-- JSON columns with JSON values other than `null`, and numbers that JSON can write. -/
structure Portable (row : Row) : Prop where
  json : ∀ p ∈ row.properties, p.1 ∈ sharedLedgerJsonColumns → ∀ t, p.2 = .text t →
    ∃ value, parseJson t = some value ∧ IsJson value ∧ value ≠ .null
  numbers : ∀ p ∈ row.properties, ∀ n, p.2 = .number n → n.isFinite = true ∧ unsignZero n = n

theorem denote_eq_null {value : Json} (null : denote value = .null) : value = .null := by
  cases value <;> simp [denote] at null
  rfl

theorem denote_eq_string {value : Json} {t : Text} (string : denote value = .string t) : value = .string t := by
  cases value <;> simp [denote] at string
  rw [string]

theorem denote_eq_number {value : Json} {n : Number} (number : denote value = .number n)
    (enumerated : value.Enumerated) :
    value = .number n := by
  cases value with
  | number m =>
    simp only [denote, Value.number.injEq, enumerated.2] at number
    rw [number]
  | _ => simp [denote] at number

theorem payloadValue_isJson {row : Row} (portable : Portable row) {p : Text × SqlValue}
    (member : p ∈ row.properties) {v : Json}
    (value : payloadValue p.1 p.2 = some v) : IsJson v := by
  obtain ⟨column, held⟩ := p
  cases held with
  | null => simp [payloadValue] at value
  | number n =>
    simp only [payloadValue, Option.some.injEq] at value
    rw [← value]
    exact (portable.numbers _ member n rfl).1
  | text t =>
    simp only [payloadValue, Option.some.injEq] at value
    rw [← value]
    by_cases json : column ∈ sharedLedgerJsonColumns
    · obtain ⟨j, read, isJson, -⟩ := portable.json _ member json t rfl
      rw [if_pos json, read]
      exact isJson
    · rw [if_neg json]
      trivial

theorem payload_isJson {row : Row} (portable : Portable row) : IsJson (sharedLedgerPayload row) := by
  refine ⟨payload_nodup row, propertiesAreJson_iff.mpr ?_⟩
  intro entry member
  rcases List.mem_cons.mp member with rfl | inside
  · trivial
  · obtain ⟨p, known, value, -⟩ := mem_payload.mp inside
    exact payloadValue_isJson portable known value

section Restore
variable {row : Row} (portable : Portable row) {stored : List (Text × Json)} (enumerated : PropertiesEnumerated stored)
  (same : denoteProperties stored = denoteProperties (payloadProperties row))

include same

theorem find_stored (key : Text) :
    (KeyedMap.find key stored).map denote = (KeyedMap.find key (payloadProperties row)).map denote := by
  rw [← denoteProperties_find, ← denoteProperties_find, same]

/-- A column that is NULL comes back as NULL. -/
theorem restore_null {p : Text × SqlValue} (member : p ∈ row.properties) (null : payloadValue p.1 p.2 = none) :
    sharedLedgerRestoreValue stored p.1 = .null := by
  have own := find_stored same (payloadKey p.1)
  have name := find_stored same p.1
  rw [find_payloadKey row member, null, Option.map_none, Option.map_eq_none_iff] at own
  rw [find_nullColumn row member null, Option.map_none, Option.map_eq_none_iff] at name
  unfold sharedLedgerRestoreValue
  rw [normalizedKey_eq (row.mem_columns member), own, name]
  rfl

include enumerated

/-- A column comes back from what is stored under its key. -/
theorem restore_some {p : Text × SqlValue} (member : p ∈ row.properties) {v : Json}
    (value : payloadValue p.1 p.2 = some v)
    (notNull : v ≠ .null) :
    ∃ w : Json, w.Enumerated ∧ denote w = denote v ∧ w ≠ .null ∧ sharedLedgerRestoreValue stored p.1 = restoreText p.1 w := by
  have own := find_stored same (payloadKey p.1)
  rw [find_payloadKey row member, value, Option.map_some, Option.map_eq_some_iff] at own
  obtain ⟨w, found, contents⟩ := own
  have enumeratedToo : w.Enumerated := PropertiesEnumerated.each enumerated _ (KeyedMap.find_mem found)
  have there : w ≠ .null := by
    rintro rfl
    exact notNull (denote_eq_null contents.symm)
  refine ⟨w, enumeratedToo, contents, there, ?_⟩
  have chosen : ∀ other, orElse (some w) other = some w := by
    intro other
    cases w <;> first | rfl | exact absurd rfl there
  unfold sharedLedgerRestoreValue
  rw [normalizedKey_eq (row.mem_columns member), found, chosen]

include portable

theorem restore_column {p : Text × SqlValue} (member : p ∈ row.properties) :
    readColumn p.1 (sharedLedgerRestoreValue stored p.1) = readColumn p.1 p.2 ∧
      (p.2 ≠ .null → sharedLedgerRestoreValue stored p.1 ≠ .null) := by
  obtain ⟨column, held⟩ := p
  cases held with
  | null =>
    rw [restore_null same member rfl]
    exact ⟨rfl, fun there => absurd rfl there⟩
  | number n =>
    have plain : column ∉ sharedLedgerJsonColumns := fun json => row.affinity _ member json n rfl
    obtain ⟨w, enumeratedToo, contents, -, restored⟩ := restore_some enumerated same member rfl (by simp)
    have unsigned := (portable.numbers _ member n rfl).2
    rw [denote, unsigned] at contents
    rw [restored, denote_eq_number contents enumeratedToo, restoreText, if_neg plain]
    exact ⟨rfl, by simp⟩
  | text t =>
    by_cases json : column ∈ sharedLedgerJsonColumns
    · obtain ⟨j, read, -, notNull⟩ := portable.json _ member json t rfl
      have value : payloadValue column (.text t) = some j := by simp [payloadValue, json, read]
      obtain ⟨w, enumeratedToo, contents, there, restored⟩ := restore_some enumerated same member value notNull
      have text : restoreText column w = .text w.text := by
        cases w <;> simp [restoreText, json] at there ⊢
      rw [restored, text, readColumn_json json (parseJson_enumerated enumeratedToo), readColumn_json json read, contents]
      exact ⟨rfl, by simp⟩
    · have value : payloadValue column (.text t) = some (.string t) := by simp [payloadValue, json]
      obtain ⟨w, -, contents, -, restored⟩ := restore_some enumerated same member value (by simp)
      rw [denote] at contents
      rw [restored, denote_eq_string contents, restoreText, if_neg json]
      exact ⟨rfl, by simp⟩

/-- A row comes back from contents that are its own. -/
theorem restore_row : ∃ restored, restoreSharedLedgerEntry row.table stored = some restored ∧ restored.Same row := by
  have columns : restoredProperties row.table stored =
      row.properties.map fun p => (p.1, sharedLedgerRestoreValue stored p.1) := by
    rw [restoredProperties, ← row.columns, List.map_map]
    rfl
  have present : ∀ p ∈ restoredProperties row.table stored, p.1 ∈ row.table.spec.required → p.2 ≠ .null := by
    intro q member required
    rw [columns] at member
    obtain ⟨p, known, rfl⟩ := List.mem_map.mp member
    exact (restore_column portable enumerated same known).2 (row.present p known required)
  unfold restoreSharedLedgerEntry
  rw [dif_pos present]
  refine ⟨_, rfl, rfl, ?_⟩
  show (restoredProperties row.table stored).map (fun p => (p.1, readColumn p.1 p.2)) = row.contents
  rw [columns, List.map_map]
  refine List.map_congr_left ?_
  intro p member
  exact Prod.ext rfl (restore_column portable enumerated same member).1

end Restore

/-- A row that Postgres stores comes back with the same contents. -/
theorem restore_same (postgres : Postgres) {row : Row} (portable : Portable row) {stored : Json}
    (written : postgres.jsonb (sharedLedgerPayload row) = some stored) :
    (∃ restored, restoreSharedLedgerEntry row.table (payloadRecord stored) = some restored ∧ restored.Same row) ∧
      (∀ kind, tableForEntry kind (payloadRecord stored) = some row.table) ∧
      (SecretFree (sharedLedgerPayload row) → SecretFree stored) := by
  obtain ⟨enumerated, contents⟩ := postgres.keeps (payload_isJson portable) written
  obtain ⟨properties, rfl, same⟩ := denote_object contents.symm
  refine ⟨restore_row portable enumerated same.symm, ?_, ?_⟩
  · intro kind
    refine tableKey_find kind ?_
    have named := find_stored same.symm tableKey
    rw [find_table, Option.map_some, Option.map_eq_some_iff] at named
    obtain ⟨w, found, string⟩ := named
    rw [denote] at string
    rw [payloadRecord, found, denote_eq_string string]
  · intro free
    exact secretFree_of_denote (payload_isJson portable) (Json.Enumerated.isJson enumerated) free contents.symm

/-! ### Rows with the same contents -/

/-- The property of the object that a column makes, as far as its contents go. -/
def contentProperty (p : Text × ColumnValue) : Option (Text × Value) :=
  match p.2 with
  | .sql .null => none
  | .sql (.number n) => some (payloadKey p.1, .number (unsignZero n))
  | .sql (.text t) => some (payloadKey p.1, .string t)
  | .json value => some (payloadKey p.1, value)

theorem contentProperty_eq (p : Text × SqlValue) :
    (payloadProperty p).map (fun entry => (entry.1, denote entry.2)) = contentProperty (p.1, readColumn p.1 p.2) := by
  obtain ⟨column, held⟩ := p
  cases held with
  | null => rfl
  | number n => simp [payloadProperty, payloadValue, readColumn, contentProperty, denote]
  | text t =>
    by_cases json : column ∈ sharedLedgerJsonColumns
    · cases read : parseJson t <;> simp [payloadProperty, payloadValue, readColumn, contentProperty, denote, json, read]
    · simp [payloadProperty, payloadValue, readColumn, contentProperty, denote, json]

theorem denoteProperties_map (properties : List (Text × Json)) (key : Text) :
    denoteProperties properties key = KeyedMap.find key (properties.map fun p => (p.1, denote p.2)) := by
  induction properties with
  | nil => rfl
  | cons p rest ih =>
    obtain ⟨name, value⟩ := p
    rw [denoteProperties, List.map_cons, KeyedMap.find, ih]

namespace Row

theorem Same.payload {left right : Row} (same : left.Same right) :
    denote (sharedLedgerPayload left) = denote (sharedLedgerPayload right) := by
  have entries (row : Row) : (payloadProperties row).map (fun p => (p.1, denote p.2)) =
      (tableKey, .string (ascii row.table.name)) :: row.contents.filterMap contentProperty := by
    rw [payloadProperties, List.map_cons, List.map_filterMap, contents, List.filterMap_map]
    refine congrArg₂ _ rfl (List.filterMap_congr ?_)
    intro p _
    exact contentProperty_eq p
  rw [sharedLedgerPayload, sharedLedgerPayload, denote, denote]
  refine congrArg _ (funext fun key => ?_)
  rw [denoteProperties_map, denoteProperties_map, entries, entries, same.1, same.2]

theorem Same.property {left right : Row} (same : left.Same right) {p : Text × SqlValue}
    (member : p ∈ right.properties) :
    ∃ q ∈ left.properties, q.1 = p.1 ∧ readColumn p.1 q.2 = readColumn p.1 p.2 := by
  have held : (p.1, readColumn p.1 p.2) ∈ left.contents := by
    rw [same.2]
    exact List.mem_map_of_mem member
  obtain ⟨q, known, equal⟩ := List.mem_map.mp held
  obtain ⟨column, value⟩ := Prod.mk.inj equal
  refine ⟨q, known, column, ?_⟩
  rw [← value, column]

theorem Same.portable {left right : Row} (same : left.Same right) (portable : Portable left) : Portable right := by
  constructor
  · intro p member json t held
    obtain ⟨q, known, column, value⟩ := same.property member
    rw [held] at value
    cases text : q.2 with
    | null => cases read : parseJson t <;> simp [text, readColumn, json, read] at value
    | number n => exact absurd text (left.affinity q known (column ▸ json) n)
    | text other =>
      obtain ⟨j, readOther, isJson, notNull⟩ := portable.json q known (column ▸ json) other text
      rw [text, readColumn_json json readOther] at value
      cases read : parseJson t with
      | none => simp [readColumn, json, read] at value
      | some k =>
        rw [readColumn_json json read, ColumnValue.json.injEq] at value
        refine ⟨k, rfl, isJson_of_denote isJson (parseJson_distinct read) value, ?_⟩
        rintro rfl
        exact notNull (denote_eq_null value)
  · intro p member n held
    obtain ⟨q, known, column, value⟩ := same.property member
    rw [held] at value
    cases number : q.2 with
    | null => simp [number, readColumn] at value
    | number m =>
      rw [number] at value
      cases value
      exact portable.numbers q known n number
    | text t =>
      rw [number] at value
      by_cases json : p.1 ∈ sharedLedgerJsonColumns
      · cases read : parseJson t <;> simp [readColumn, json, read] at value
      · simp [readColumn, json] at value

end Row

end SynapsorRunner.LedgerRows
