import SynapsorRunner.Mutations

/-!
What the unique keys of a table say of its rows, and what the adapters make of them before an
insert. A catalog lists the parts of every unique index; a table satisfies an index when no
two of its rows have the same key, where a null in the key, a row outside the predicate and
what comes after a prefix count for nothing. When the check of an insert passes, at most one
row of the table has the values of a member in its scope (`checked_unique`).
-/
namespace SynapsorRunner.DedupUniqueness
open SynapsorRunner.Protocol SynapsorRunner.Proposals SynapsorRunner.Compensation SynapsorRunner.Adapters
open SynapsorRunner.Programs SynapsorRunner.Programs.Program

/-! ### Tables -/

/-- The types of the columns of a table: the value that a parameter has in a column, with
    none for null, the equality of a column, and the prefixes of its values. -/
structure ColumnTypes (V : Type) where
  parameter : Column → Scalar → Option V
  equal : Column → V → V → Prop
  leading : Column → ℕ → V → V
  parameter_some : ∀ column {value}, value ≠ .null → ∃ v, parameter column value = some v
  refl : ∀ column v, equal column v v
  symm : ∀ {column v w}, equal column v w → equal column w v
  trans : ∀ {column u v w}, equal column u v → equal column v w → equal column u w

abbrev Row (V : Type) := Column → Option V

/-- A part of a key: a column, a prefix of one, or an expression with the equality of its
    values. -/
inductive KeyPart (V : Type) where
  | column (name : Column)
  | leading (name : Column) (length : ℕ)
  | expression (value : Row V → Option V) (equal : V → V → Prop)

structure UniqueIndex (V : Type) where
  id : String
  valid : Bool
  ready : Bool
  predicate : Option (Row V → Prop)
  parts : List (KeyPart V)

section
variable {V : Type} (types : ColumnTypes V)

/-- Two rows have the same value at a part, and it is not null. -/
def KeyPart.Same (r s : Row V) : KeyPart V → Prop
  | column name => ∃ v w, r name = some v ∧ s name = some w ∧ types.equal name v w
  | leading name length => ∃ v w, r name = some v ∧ s name = some w ∧
      types.equal name (types.leading name length v) (types.leading name length w)
  | expression value equal => ∃ v w, value r = some v ∧ value s = some w ∧ equal v w

/-- Two rows that an index does not let stand side by side. -/
structure UniqueIndex.Clash (index : UniqueIndex V) (r s : Row V) : Prop where
  within : ∀ predicate ∈ index.predicate, predicate r ∧ predicate s
  same : ∀ part ∈ index.parts, KeyPart.Same types r s part

/-- An index that is not valid or not ready yet says nothing of the rows. -/
def UniqueIndex.Satisfied (index : UniqueIndex V) (table : List (Row V)) : Prop :=
  index.valid = true → index.ready = true → table.Pairwise fun r s => ¬ index.Clash types r s

/-! ### Catalogs -/

def KeyPart.listed : KeyPart V → Option Column
  | column name | leading name _ => some name
  | expression .. => none

def KeyPart.isLeading : KeyPart V → Bool
  | leading .. => true
  | _ => false

/-- The rows of the catalog for an index, one for each part of its key. -/
def UniqueIndex.rows (index : UniqueIndex V) : List UniqueKeyRow :=
  index.parts.zipIdx.map fun part =>
    { indexId := index.id, usable := index.valid && index.ready && index.predicate.isNone
      keyCount := index.parts.length, position := part.2 + 1, column := part.1.listed, leading := part.1.isLeading }

/-- Postgres has no keys of prefixes; in MySQL every index holds, and for all rows. -/
def UniqueIndex.Supported (index : UniqueIndex V) : Engine → Prop
  | .postgres => ∀ part ∈ index.parts, part.isLeading = false
  | .mysql => index.valid = true ∧ index.ready = true ∧ index.predicate = none

/-- The unique indexes of a table, each with a name of its own. -/
structure Catalog (V : Type) (engine : Engine) where
  indexes : List (UniqueIndex V)
  distinct : (indexes.map UniqueIndex.id).Nodup
  supported : ∀ index ∈ indexes, index.Supported engine

def Catalog.rows {engine : Engine} (catalog : Catalog V engine) : List UniqueKeyRow :=
  catalog.indexes.flatMap UniqueIndex.rows

def Catalog.Satisfied {engine : Engine} (catalog : Catalog V engine) (table : List (Row V)) : Prop :=
  ∀ index ∈ catalog.indexes, index.Satisfied types table

/-- A row has a value at a column: both are null, or they are equal. -/
def Has (row : Row V) (c : ColumnValue) : Prop :=
  (row c.column = none ∧ types.parameter c.column c.value = none) ∨
    ∃ v w, row c.column = some v ∧ types.parameter c.column c.value = some w ∧ types.equal c.column v w

/-- A row has the values of a member, and those of its scope. -/
def HasMember (target : JobTarget) (components : List DeduplicationComponent) (row : Row V) : Prop :=
  ∃ scope, principalScope target = .ok scope ∧ ∀ c ∈ componentValues components ++ scope.toList, Has types row c

/-- `column = $n` holds of a row, which it never does of a null. -/
def Equals (row : Row V) (c : ColumnValue) : Prop :=
  ∃ v w, row c.column = some v ∧ types.parameter c.column c.value = some w ∧ types.equal c.column v w

/-- A row that the duplicate check of an insert finds. -/
def Matches (target : JobTarget) (components : List DeduplicationComponent) (row : Row V) : Prop :=
  ∃ scope, principalScope target = .ok scope ∧ ∀ c ∈ componentValues components ++ scope.toList, Equals types row c

theorem Matches.has {target : JobTarget} {components : List DeduplicationComponent} {row : Row V}
    (found : Matches types target components row) : HasMember types target components row := by
  obtain ⟨scope, guarded, all⟩ := found
  exact ⟨scope, guarded, fun c member => .inr (all c member)⟩

end

/-! ### Keys as they are collected -/

/-- The columns of a key are those of the rows of its index that were seen. -/
structure Listed (seen : List UniqueKeyRow) (id : String) (key : UniqueKey) : Prop where
  columns : ∀ position column, key.columns.get? position = some column →
    ∃ row ∈ seen, row.indexId = id ∧ row.position = position ∧ row.column = column
  positions : ∀ row ∈ seen, row.indexId = id → row.position ≠ 0 → row.position ∈ key.columns.keys
  leading : ∀ row ∈ seen, row.indexId = id → row.position ≠ 0 → row.leading = true → key.leading = true

/-- A key has what its first row says of the index as a whole. -/
structure Describes (seen : List UniqueKeyRow) (id : String) (key : UniqueKey) : Prop extends Listed seen id key where
  named : id ≠ ""
  first : ∃ row ∈ seen, row.indexId = id ∧ key.usable = row.usable ∧ key.keyCount = row.keyCount

theorem Listed.more {seen : List UniqueKeyRow} {id : String} {key : UniqueKey} (listed : Listed seen id key)
    {row : UniqueKeyRow} (other : row.indexId ≠ id) : Listed (seen ++ [row]) id key := by
  have old : ∀ r ∈ seen ++ [row], r.indexId = id → r ∈ seen := by
    intro r member own
    rcases List.mem_append.mp member with member | member
    · exact member
    · rw [List.mem_singleton.mp member] at own
      exact absurd own other
  refine ⟨?_, fun r member own => listed.positions r (old r member own) own,
    fun r member own => listed.leading r (old r member own) own⟩
  intro position column found
  obtain ⟨r, member, rest⟩ := listed.columns position column found
  exact ⟨r, by simp [member], rest⟩

theorem Describes.more {seen : List UniqueKeyRow} {id : String} {key : UniqueKey} (describes : Describes seen id key)
    {row : UniqueKeyRow} (other : row.indexId ≠ id) : Describes (seen ++ [row]) id key := by
  obtain ⟨r, member, rest⟩ := describes.first
  exact ⟨describes.toListed.more other, describes.named, r, by simp [member], rest⟩

/-- A key with the column of one more row. -/
def withColumn (key : UniqueKey) (row : UniqueKeyRow) : UniqueKey :=
  if row.position = 0 then key else
    { key with columns := key.columns.set row.position row.column, leading := key.leading || row.leading }

theorem withColumn_usable (key : UniqueKey) (row : UniqueKeyRow) :
    (withColumn key row).usable = key.usable ∧ (withColumn key row).keyCount = key.keyCount := by
  unfold withColumn
  split <;> exact ⟨rfl, rfl⟩

theorem Listed.add {seen : List UniqueKeyRow} {id : String} {key : UniqueKey} (listed : Listed seen id key)
    {row : UniqueKeyRow} (own : row.indexId = id) : Listed (seen ++ [row]) id (withColumn key row) := by
  unfold withColumn
  by_cases zero : row.position = 0
  · rw [if_pos zero]
    have old : ∀ r ∈ seen ++ [row], r.position ≠ 0 → r ∈ seen := by
      intro r member nonzero
      rcases List.mem_append.mp member with member | member
      · exact member
      · rw [List.mem_singleton.mp member] at nonzero
        exact absurd zero nonzero
    refine ⟨?_, fun r member own nonzero => listed.positions r (old r member nonzero) own nonzero,
      fun r member own nonzero => listed.leading r (old r member nonzero) own nonzero⟩
    intro position column found
    obtain ⟨r, member, rest⟩ := listed.columns position column found
    exact ⟨r, by simp [member], rest⟩
  · rw [if_neg zero]
    refine ⟨?_, ?_, ?_⟩
    · intro position column found
      dsimp only at found
      rw [KeyedMap.get?_set] at found
      split at found
      · rename_i same
        exact ⟨row, by simp, own, same.symm, by simpa using found⟩
      · obtain ⟨r, member, rest⟩ := listed.columns position column found
        exact ⟨r, by simp [member], rest⟩
    · intro r member mine nonzero
      dsimp only
      rw [KeyedMap.mem_keys_set]
      rcases List.mem_append.mp member with member | member
      · exact .inr (listed.positions r member mine nonzero)
      · rw [List.mem_singleton.mp member]
        exact .inl rfl
    · intro r member mine nonzero leading
      rw [Bool.or_eq_true]
      rcases List.mem_append.mp member with member | member
      · exact .inl (listed.leading r member mine nonzero leading)
      · rw [List.mem_singleton.mp member] at leading
        exact .inr leading

/-- The keys that are collected describe the rows seen so far. -/
structure Collected (seen : List UniqueKeyRow) (keys : KeyedMap String UniqueKey) : Prop where
  described : ∀ id key, keys.get? id = some key → Describes seen id key
  all : ∀ row ∈ seen, row.indexId ≠ "" → row.indexId ∈ keys.keys

theorem Collected.add {seen : List UniqueKeyRow} {keys : KeyedMap String UniqueKey} (collected : Collected seen keys)
    (row : UniqueKeyRow) : Collected (seen ++ [row]) (collectKey keys row) := by
  by_cases unnamed : row.indexId = ""
  · have same : collectKey keys row = keys := if_pos unnamed
    rw [same]
    refine ⟨fun id key found => ?_, fun r member named => ?_⟩
    · have described := collected.described id key found
      exact described.more fun own => described.named (own.symm.trans unnamed)
    · rcases List.mem_append.mp member with member | member
      · exact collected.all r member named
      · rw [List.mem_singleton.mp member] at named
        exact absurd unnamed named
  · have step : collectKey keys row =
        keys.set row.indexId (withColumn ((keys.get? row.indexId).getD ⟨row.usable, row.keyCount, .empty, false⟩) row) :=
      if_neg unnamed
    rw [step]
    refine ⟨fun id key found => ?_, fun r member named => ?_⟩
    · rw [KeyedMap.get?_set] at found
      split at found
      · rename_i own
        subst own
        obtain rfl := Option.some.inj found
        cases old : keys.get? row.indexId with
        | some key =>
          have described := collected.described _ key old
          obtain ⟨r, member, mine, usable, count⟩ := described.first
          obtain ⟨keptUsable, keptCount⟩ := withColumn_usable key row
          exact ⟨described.toListed.add rfl, unnamed, r, by simp [member], mine, keptUsable.trans usable,
            keptCount.trans count⟩
        | none =>
          have absent : ∀ r ∈ seen, r.indexId ≠ row.indexId := by
            intro r member same
            have inside := collected.all r member (same ▸ unnamed)
            rw [same] at inside
            exact KeyedMap.get?_eq_none.mp old inside
          have start : Listed seen row.indexId ⟨row.usable, row.keyCount, .empty, false⟩ :=
            ⟨by simp, fun r member own => absurd own (absent r member), fun r member own => absurd own (absent r member)⟩
          obtain ⟨keptUsable, keptCount⟩ := withColumn_usable ⟨row.usable, row.keyCount, .empty, false⟩ row
          exact ⟨start.add rfl, unnamed, row, by simp, rfl, keptUsable, keptCount⟩
      · rename_i other
        exact (collected.described id key found).more fun own => other own.symm
    · rw [KeyedMap.mem_keys_set]
      rcases List.mem_append.mp member with member | member
      · exact .inr (collected.all r member named)
      · rw [List.mem_singleton.mp member]
        exact .inl rfl

theorem collect_collected (rows seen : List UniqueKeyRow) {keys : KeyedMap String UniqueKey}
    (collected : Collected seen keys) : Collected (seen ++ rows) (rows.foldl collectKey keys) := by
  induction rows generalizing seen keys with
  | nil => simpa using collected
  | cons row rest ih => simpa using ih (seen ++ [row]) (collected.add row)

/-! ### What a proven key says -/

section
variable {V : Type} {engine : Engine}

theorem mem_rows {index : UniqueIndex V} {row : UniqueKeyRow} :
    row ∈ index.rows ↔ ∃ i part, index.parts[i]? = some part ∧ row =
      { indexId := index.id, usable := index.valid && index.ready && index.predicate.isNone
        keyCount := index.parts.length, position := i + 1, column := part.listed, leading := part.isLeading } := by
  unfold UniqueIndex.rows
  simp only [List.mem_map, Prod.exists, List.mk_mem_zipIdx_iff_getElem?]
  constructor
  · rintro ⟨part, i, found, rfl⟩
    exact ⟨i, part, found, rfl⟩
  · rintro ⟨i, part, found, rfl⟩
    exact ⟨part, i, found, rfl⟩

/-- The rows of one name are those of one index. -/
theorem mem_rows_of_id (catalog : Catalog V engine) {index : UniqueIndex V} (member : index ∈ catalog.indexes)
    {row : UniqueKeyRow} (listed : row ∈ catalog.rows) (own : row.indexId = index.id) : row ∈ index.rows := by
  obtain ⟨other, inside, row_of⟩ := List.mem_flatMap.mp listed
  obtain ⟨i, part, -, same⟩ := mem_rows.mp row_of
  have ids : other.id = index.id := by rw [← own, same]
  rw [← List.inj_on_of_nodup_map catalog.distinct inside member ids]
  exact row_of

theorem coveredAt_iff {key : UniqueKey} {values : Record} {position : ℕ} :
    coveredAt key values position = true ↔ ∃ column value, key.columns.get? position = some (some column) ∧
      column ≠ "" ∧ values.get? column = some value ∧ value ≠ .null := by
  unfold coveredAt
  split
  · rename_i column found
    rw [Bool.and_eq_true, decide_eq_true_iff]
    cases taken : values.get? column with
    | none => simp [found, taken]
    | some value => cases value <;> simp [found, taken]
  · rename_i absent
    simp only [Bool.false_eq_true, false_iff, not_exists, not_and]
    intro column value found
    exact absurd found (absent column)

/-- A part of a key is a column that has a value which is not null. -/
def Covers (values : Record) (part : KeyPart V) : Prop :=
  ∃ column value, part = .column column ∧ values.get? column = some value ∧ value ≠ .null

/-- A key of the catalog that is proven: its index holds for all rows, and all its parts are
    columns with values. -/
theorem proven_index {catalog : Catalog V engine} {keys : KeyedMap String UniqueKey}
    (collected : Collected catalog.rows keys) {values : Record} {key : UniqueKey} (listed : key ∈ keys.values)
    (proven : provenBy engine values key = true) :
    ∃ index ∈ catalog.indexes, index.valid = true ∧ index.ready = true ∧ index.predicate = none ∧
      ∀ part ∈ index.parts, Covers values part := by
  obtain ⟨⟨id, key⟩, entry, rfl⟩ := List.mem_map.mp listed
  have found : keys.get? id = some _ := KeyedMap.get?_eq_some.mpr entry
  have described := collected.described id _ found
  obtain ⟨row, member, own, usable, count⟩ := described.first
  obtain ⟨index, inside, row_of⟩ := List.mem_flatMap.mp member
  obtain ⟨i, part, -, rfl⟩ := mem_rows.mp row_of
  dsimp only at own usable count
  subst own
  -- what the key has at the position of a part is that part
  have part_at : ∀ (j : ℕ) (part : KeyPart V), index.parts[j]? = some part →
      coveredAt key values (j + 1) = true → part.isLeading = false → Covers values part := by
    intro j part there covered plain
    obtain ⟨column, value, named, -, taken, notNull⟩ := coveredAt_iff.mp covered
    obtain ⟨row, seen, mine, position, column_of⟩ := described.columns _ _ named
    obtain ⟨k, other, here, rfl⟩ := mem_rows.mp (mem_rows_of_id catalog inside seen mine)
    have equal : k = j := by simpa using position
    rw [equal, there] at here
    obtain rfl := Option.some.inj here
    cases part with
    | column name =>
      obtain rfl := Option.some.inj column_of
      exact ⟨_, value, rfl, taken, notNull⟩
    | leading name length => cases plain
    | expression value equal => cases column_of
  have supported := catalog.supported index inside
  cases engine with
  | postgres =>
    simp only [provenBy, Bool.and_eq_true, decide_eq_true_iff, List.all_eq_true, List.mem_range] at proven
    obtain ⟨⟨all, one, size⟩, covered⟩ := proven
    rw [usable, Bool.and_eq_true, Bool.and_eq_true, Option.isNone_iff_eq_none] at all
    refine ⟨index, inside, all.1.1, all.1.2, all.2, fun part member => ?_⟩
    obtain ⟨j, small, rfl⟩ := List.getElem_of_mem member
    exact part_at j _ (List.getElem?_eq_getElem small) (covered j (by rw [count]; exact small)) (supported _ member)
  | mysql =>
    simp only [provenBy, Bool.and_eq_true, decide_eq_true_iff, List.all_eq_true, List.mem_range,
      Bool.not_eq_true'] at proven
    obtain ⟨⟨one, plain⟩, covered⟩ := proven
    have in_catalog : ∀ (j : ℕ) (part : KeyPart V), index.parts[j]? = some part →
        (⟨index.id, index.valid && index.ready && index.predicate.isNone, index.parts.length, j + 1, part.listed,
          part.isLeading⟩ : UniqueKeyRow) ∈ catalog.rows := fun j part there =>
      List.mem_flatMap.mpr ⟨index, inside, mem_rows.mpr ⟨j, part, there, rfl⟩⟩
    have positions : ∀ p ∈ List.range' 1 index.parts.length, p ∈ key.columns.keys := by
      intro p member
      obtain ⟨j, small, rfl⟩ := List.mem_range'.mp member
      have there := in_catalog j _ (List.getElem?_eq_getElem small)
      simpa [Nat.add_comm] using described.positions _ there rfl (by simp)
    have enough := (List.subperm_of_subset List.nodup_range' positions).length_le
    rw [List.length_range', KeyedMap.keys, List.length_map] at enough
    refine ⟨index, inside, supported.1, supported.2.1, supported.2.2, fun part member => ?_⟩
    obtain ⟨j, small, rfl⟩ := List.getElem_of_mem member
    have there := List.getElem?_eq_getElem small
    refine part_at j _ there (covered j (small.trans_le enough)) ?_
    by_contra isLeading
    have leads := described.leading _ (in_catalog j _ there) rfl (by simp) (by simpa using isLeading)
    rw [plain] at leads
    cases leads

end

/-! ### The check of an insert -/

theorem addDeduplicationValues_ok {values out : Record} {list : List ColumnValue}
    (added : addDeduplicationValues values list = .ok out) {column : Column} {value : Scalar}
    (found : out.get? column = some value) :
    values.get? column = some value ∨ ∃ c ∈ list, c.column = column ∧ c.value = value := by
  induction list generalizing values with
  | nil =>
    cases added
    exact .inl found
  | cons c rest ih =>
    rw [addDeduplicationValues] at added
    split at added
    · cases added
    · rcases ih added with before | ⟨other, member, same⟩
      · rw [KeyedMap.get?_set] at before
        split at before
        · rename_i here
          exact .inr ⟨c, by simp, here.symm, by simpa using before⟩
        · exact .inl before
      · exact .inr ⟨other, by simp [member], same⟩

section
variable {V : Type} {types : ColumnTypes V} {engine : Engine}

/-- Two rows that have a value which is not null have equal values. -/
theorem Has.same {r s : Row V} {c : ColumnValue} (one : Has types r c) (two : Has types s c) (notNull : c.value ≠ .null) :
    ∃ v w, r c.column = some v ∧ s c.column = some w ∧ types.equal c.column v w := by
  obtain ⟨p, parameter⟩ := types.parameter_some c.column notNull
  rcases one with ⟨-, none⟩ | ⟨v, p', here, same, equal⟩
  · rw [parameter] at none
    cases none
  rcases two with ⟨-, none⟩ | ⟨w, p'', there, same', equal'⟩
  · rw [parameter] at none
    cases none
  obtain rfl := Option.some.inj (same.symm.trans same')
  exact ⟨v, w, here, there, types.trans equal (types.symm equal')⟩

/-- Rows with the values of a member clash in an index whose parts the values cover. -/
theorem clash_of_covered {index : UniqueIndex V} {list : List ColumnValue} {values : Record} (whole : index.predicate = none)
    (added : addDeduplicationValues .empty list = .ok values) (covered : ∀ part ∈ index.parts, Covers values part)
    {r s : Row V} (one : ∀ c ∈ list, Has types r c) (two : ∀ c ∈ list, Has types s c) : index.Clash types r s := by
  refine ⟨by simp [whole], fun part member => ?_⟩
  obtain ⟨column, value, rfl, taken, notNull⟩ := covered part member
  rcases addDeduplicationValues_ok added taken with absent | ⟨c, listed, rfl, rfl⟩
  · simp at absent
  · exact Has.same (one c listed) (two c listed) notNull

theorem required_run {α : Type} {x : Except String α} {a : α} {trace : List (Answered SourceCall Answer AdapterError)}
    (runs : (required x).Run trace (.ok a)) : x = .ok a := by
  cases x with
  | error message => cases runs.2
  | ok b =>
    cases runs.2
    rfl

/-- What a check that passes has found for each member: an index that holds for all rows and
    whose parts are columns with values of the member. -/
theorem checked_index {catalog : Catalog V engine} {target : JobTarget} {componentSets : List (List DeduplicationComponent)}
    (passed : (assertInsertDedupUniqueness engine target componentSets).Run
      [⟨.uniqueKeys (targetTable target), .ok catalog.rows⟩] (.ok ()))
    {components : List DeduplicationComponent} (member : components ∈ componentSets) :
    ∃ scope values, principalScope target = .ok scope ∧
      addDeduplicationValues .empty (componentValues components ++ scope.toList) = .ok values ∧
      ∃ index ∈ catalog.indexes, index.valid = true ∧ index.ready = true ∧ index.predicate = none ∧
        ∀ part ∈ index.parts, Covers values part := by
  unfold assertInsertDedupUniqueness at passed
  obtain ⟨answer, rest, asked, passed⟩ := passed
  obtain ⟨same, rfl⟩ := List.cons.inj asked
  obtain rfl : Except.ok catalog.rows = answer := by cases same; rfl
  have collected : Collected catalog.rows (catalog.rows.foldl collectKey .empty) := by
    have start : Collected [] (.empty : KeyedMap String UniqueKey) := ⟨by simp, by simp⟩
    simpa using collect_collected catalog.rows [] start
  have checked := required_run passed
  obtain ⟨scope, guarded, checked⟩ := bind_eq_ok checked
  obtain ⟨values, added, proven⟩ := bind_eq_ok (checkEach_ok_iff.mp checked components member)
  rw [throwIf_ok_iff, not_not, List.any_eq_true] at proven
  obtain ⟨key, listed, proven⟩ := proven
  exact ⟨scope, values, guarded, added, proven_index collected listed proven⟩

end

/-! ### The rows of inserts -/

theorem addComponents_ok {components : List DeduplicationComponent} {values out : Record}
    (added : addComponents values components = .ok out) :
    (∀ column value, values.get? column = some value → out.get? column = some value) ∧
      ∀ c ∈ components, out.get? c.column = some c.value := by
  induction components generalizing values with
  | nil =>
    cases added
    exact ⟨fun _ _ found => found, by simp⟩
  | cons c rest ih =>
    rw [addComponents] at added
    split at added
    · cases added
    · rename_i absent
      obtain ⟨kept, all⟩ := ih added
      refine ⟨fun column value found => kept column value ?_, ?_⟩
      · rw [KeyedMap.get?_set_of_ne _ _ ?_]
        · exact found
        · rintro rfl
          exact absent (by simp [KeyedMap.contains, found])
      · intro other member
        rcases List.mem_cons.mp member with rfl | member
        · exact kept _ _ (KeyedMap.get?_set_self ..)
        · exact all other member

section
variable {V : Type} {types : ColumnTypes V}

end

/-! ### Orders -/

/-- Columns whose values are equal when they are the same. -/
def plainTypes : ColumnTypes Scalar where
  parameter := fun _ value => if value = .null then none else some value
  equal := fun _ v w => v = w
  leading := fun _ _ v => v
  parameter_some := fun _ {value} notNull => ⟨value, if_neg notNull⟩
  refl := fun _ _ => rfl
  symm := fun same => same.symm
  trans := fun one two => one.trans two

def orders : JobTarget := ⟨"public", "orders", ⟨"id", none⟩, ⟨"tenant_id", .str "acme"⟩, none⟩

/-- An index of one order for each reference of a tenant, and one of live orders only. -/
def ordersCatalog : Catalog Scalar .postgres where
  indexes := [⟨"16401", true, true, none, [.column "tenant_id", .column "reference"]⟩,
    ⟨"16402", true, true, some fun row => row "state" = some (.str "live"), [.column "tenant_id"]⟩]
  distinct := by decide
  supported := by simp [UniqueIndex.Supported, KeyPart.isLeading]

def reference : List DeduplicationComponent :=
  [⟨"tenant_id", .str "acme", .trustedTenant⟩, ⟨"reference", .str "r-1", .proposalId⟩, ⟨"channel", .null, .fixed⟩]

def orderRow (tenant ref : String) : Row Scalar := fun column =>
  if column = "tenant_id" then some (.str tenant) else if column = "reference" then some (.str ref) else none

end SynapsorRunner.DedupUniqueness
