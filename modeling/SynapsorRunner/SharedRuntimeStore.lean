import SynapsorRunner.LedgerRows
import SynapsorRunner.PrivacyReleases

/-!
The runtime store on a shared Postgres ledger against one SQLite store that stays. Each
operation of the shared store gets a new SQLite store with the rows of the ledger, runs
there, and writes every row of the exported tables over the entry of its key. The ledger
is never emptied of a row and has no entries for `explore_privacy_releases`, so a deleted
row comes back and a claimed release is forgotten.

A run on the ledger gives the results and the contents of the run on the one store when
its operations delete no rows, claim no releases, and leave rows that the ledger can carry
(`refines_of_kept`).
-/
namespace SynapsorRunner.SharedRuntimeStore
open SynapsorRunner.Doubles SynapsorRunner.NumberText SynapsorRunner.JsonText SynapsorRunner.CanonicalJson
open SynapsorRunner.JsonContents SynapsorRunner.SecretMaterial SynapsorRunner.LedgerTables SynapsorRunner.LedgerRows
open SynapsorRunner.Privacy

/-! ### The SQLite store -/

/-- The exported tables by their keys, and the table `explore_privacy_releases`. -/
structure Database where
  rows : KeyedMap RowId Row
  keyed : ∀ {id row}, rows.get? id = some row → row.id = id
  privacyReleases : List ReleaseRow

namespace Database

def empty : Database := ⟨.empty, by simp, []⟩

/-- `INSERT … ON CONFLICT DO UPDATE` of all columns. -/
def upsert (db : Database) (row : Row) : Database where
  rows := db.rows.set row.id row
  keyed := by
    intro id other found
    rw [KeyedMap.get?_set] at found
    by_cases same : id = row.id
    · rw [if_pos same, Option.some.injEq] at found
      rw [← found, same]
    · rw [if_neg same] at found
      exact db.keyed found
  privacyReleases := db.privacyReleases

/-- Two stores with the same contents. -/
structure Same (left right : Database) : Prop where
  rows : ∀ id, Option.Rel Row.Same (left.rows.get? id) (right.rows.get? id)
  releases : left.privacyReleases = right.privacyReleases

theorem get?_of_mem (db : Database) {row : Row} (member : row ∈ db.rows.values) : db.rows.get? row.id = some row := by
  obtain ⟨⟨id, other⟩, entry, rfl⟩ := List.mem_map.mp member
  have found := KeyedMap.get?_eq_some.mpr entry
  rw [db.keyed found]
  exact found

theorem Same.refl (db : Database) : db.Same db := by
  refine ⟨fun id => ?_, rfl⟩
  cases db.rows.get? id with
  | none => exact .none
  | some row => exact .some (Row.Same.refl row)

theorem Same.symm {left right : Database} (same : left.Same right) : right.Same left := by
  refine ⟨fun id => ?_, same.releases.symm⟩
  have related := same.rows id
  cases one : left.rows.get? id <;> cases two : right.rows.get? id <;> rw [one, two] at related <;> cases related
  · exact .none
  · rename_i rows
    exact .some rows.symm

theorem Same.trans {first second third : Database} (same : first.Same second) (next : second.Same third) :
    first.Same third := by
  refine ⟨fun id => ?_, same.releases.trans next.releases⟩
  have related := same.rows id
  have relatedToo := next.rows id
  cases one : first.rows.get? id <;> cases two : second.rows.get? id <;> cases three : third.rows.get? id <;>
    rw [one, two] at related <;> rw [two, three] at relatedToo <;> cases related <;> cases relatedToo
  · exact .none
  · rename_i rows others
    exact .some (rows.trans others)

theorem Same.row {left right : Database} (same : left.Same right) {id : RowId} {row : Row}
    (found : left.rows.get? id = some row) :
    ∃ other, right.rows.get? id = some other ∧ row.Same other := by
  have related := same.rows id
  rw [found] at related
  cases two : right.rows.get? id with
  | none => rw [two] at related; cases related
  | some other =>
    rw [two] at related
    cases related
    rename_i rows
    exact ⟨other, rfl, rows⟩

theorem Same.keys {left right : Database} (same : left.Same right) (id : RowId) :
    id ∈ left.rows.keys ↔ id ∈ right.rows.keys := by
  rw [KeyedMap.mem_keys, KeyedMap.mem_keys]
  constructor
  · rintro ⟨row, found⟩
    obtain ⟨other, there, -⟩ := same.row found
    exact ⟨other, there⟩
  · rintro ⟨row, found⟩
    obtain ⟨other, there, -⟩ := same.symm.row found
    exact ⟨other, there⟩

end Database

inductive StoreFailure where
  | capacityExceeded (maxEntries : ℕ)
  | secretMaterial (found : SecretMaterialRejected)
  | refusedByPostgres
  | operation (error : String)
  deriving DecidableEq

/-- An operation of `ProposalStore`: any function of the contents of the store. A new key
    of an AUTOINCREMENT table is one of them as long as no row is deleted. -/
structure Operation (ρ : Type) where
  run : Database → Except StoreFailure ρ × Database
  respects : ∀ {left right : Database}, left.Same right → (run left).1 = (run right).1 ∧ (run left).2.Same (run right).2

/-! ### The ledger -/

/-- An entry of `ledger_entries`, without the columns that nobody reads. -/
structure SharedLedgerEntry where
  key : RowId
  kind : String
  payload : Json
  createdAt : Text

/-- The entries by `entry_key`, in the order of `entry_id`. -/
abbrev Ledger := KeyedMap RowId SharedLedgerEntry

def createdAt (row : Row) : Text :=
  match row.value row.table.created with
  | .text t => t
  | .number n => numberText n
  | .null => []

/-- The rows of an export: table by table, each ordered by its time. -/
def exportedRows (db : Database) : List Row :=
  exportedTables.flatMap fun table =>
    (db.rows.values.filter fun row => row.table = table).insertionSort fun row other => createdAt row ≤ createdAt other

def ledgerPath (name : String) : Text := ascii "shared_ledger." ++ ascii name

def checkSecrets (payload : Json) (name : String) : Except StoreFailure Unit :=
  (assertNoSecretMaterial payload (ledgerPath name)).mapError .secretMaterial

/-- `sharedLedgerEntries` of the rows of an export. -/
def ledgerEntries : List Row → Except StoreFailure (List SharedLedgerEntry)
  | [] => .ok []
  | row :: rest =>
    (checkSecrets (sharedLedgerPayload row) row.table.name).bind fun _ => (ledgerEntries rest).map fun entries =>
      { key := row.id, kind := row.table.kind, payload := sharedLedgerPayload row, createdAt := createdAt row } :: entries

/-- `restoreSharedLedgerEntry` of one entry, where the entry names a table. -/
def importEntry (db : Database) (entry : SharedLedgerEntry) : Except StoreFailure Database :=
  match tableForEntry entry.kind (payloadRecord entry.payload) with
  | none => .ok db
  | some table =>
    (checkSecrets entry.payload table.name).map fun _ =>
      match restoreSharedLedgerEntry table (payloadRecord entry.payload) with
      | some row => db.upsert row
      | none => db

def sharedLedgerRestoreRank (entry : SharedLedgerEntry) : ℕ :=
  match tableForEntry entry.kind (payloadRecord entry.payload) with
  | some table => restoreOrder.idxOf table
  | none => 2 ^ 53 - 1

def importEntries (db : Database) : List SharedLedgerEntry → Except StoreFailure Database
  | [] => .ok db
  | entry :: rest => (importEntry db entry).bind fun db => importEntries db rest

/-- Into a new store, the tables that others refer to first. -/
def importSharedLedgerEntries (entries : List SharedLedgerEntry) : Except StoreFailure Database :=
  importEntries .empty (entries.insertionSort fun entry other => sharedLedgerRestoreRank entry ≤ sharedLedgerRestoreRank other)

section Store
variable (postgres : Postgres) (maxEntries : ℕ)

def upsertEntry (ledger : Ledger) (entry : SharedLedgerEntry) : Except StoreFailure Ledger :=
  (checkSecrets entry.payload entry.kind).bind fun _ =>
    match postgres.jsonb entry.payload with
    | some stored =>
      if postgres.timestamp entry.createdAt then .ok (ledger.set entry.key { entry with payload := stored })
      else .error .refusedByPostgres
    | none => .error .refusedByPostgres

def upsertSharedLedgerEntries (ledger : Ledger) : List SharedLedgerEntry → Except StoreFailure Ledger
  | [] => .ok ledger
  | entry :: rest => (upsertEntry postgres ledger entry).bind fun ledger => upsertSharedLedgerEntries ledger rest

def transientStoreFromPostgres (ledger : Ledger) : Except StoreFailure Database :=
  if maxEntries < ledger.size then .error (.capacityExceeded maxEntries) else importSharedLedgerEntries ledger.values

variable {ρ : Type}

def withRead (ledger : Ledger) (operation : Operation ρ) : Except StoreFailure ρ :=
  (transientStoreFromPostgres maxEntries ledger).bind fun store => (operation.run store).1

/-- The ledger that an operation's store is written to. -/
def writeBack (ledger : Ledger) (store : Database) : Except StoreFailure Ledger :=
  (ledgerEntries (exportedRows store)).bind fun entries =>
    if maxEntries < entries.length then .error (.capacityExceeded maxEntries)
    else upsertSharedLedgerEntries postgres ledger entries

/-- An error at any point rolls the transaction back. -/
def withWrite (ledger : Ledger) (operation : Operation ρ) : Except StoreFailure ρ × Ledger :=
  match transientStoreFromPostgres maxEntries ledger with
  | .error failure => (.error failure, ledger)
  | .ok store =>
    match (operation.run store).1 with
    | .error failure => (.error failure, ledger)
    | .ok result =>
      match writeBack postgres maxEntries ledger (operation.run store).2 with
      | .error failure => (.error failure, ledger)
      | .ok written => (.ok result, written)

/-- A call of the runtime store. -/
inductive Call (ρ : Type) where
  | read (operation : Operation ρ)
  | write (operation : Operation ρ)

def Call.operation : Call ρ → Operation ρ
  | .read operation => operation
  | .write operation => operation

def sharedCall (ledger : Ledger) : Call ρ → Except StoreFailure ρ × Ledger
  | .read operation => (withRead maxEntries ledger operation, ledger)
  | .write operation => withWrite postgres maxEntries ledger operation

/-- The results and the last ledger of a run. -/
def sharedRun (ledger : Ledger) : List (Call ρ) → List (Except StoreFailure ρ) × Ledger
  | [] => ([], ledger)
  | call :: rest =>
    let (result, written) := sharedCall postgres maxEntries ledger call
    let (results, last) := sharedRun written rest
    (result :: results, last)

/-- The run of the same operations on one store. -/
def persistentRun (db : Database) : List (Call ρ) → List (Except StoreFailure ρ) × Database
  | [] => ([], db)
  | call :: rest =>
    let (result, changed) := call.operation.run db
    let (results, last) := persistentRun changed rest
    (result :: results, last)

/-- The run on the ledger gives the results and the contents of the run on one store. -/
def Refines (calls : List (Call ρ)) : Prop :=
  (sharedRun postgres maxEntries .empty calls).1 = (persistentRun .empty calls).1 ∧
    ∃ store, transientStoreFromPostgres maxEntries (sharedRun postgres maxEntries .empty calls).2 = .ok store ∧
      store.Same (persistentRun .empty calls).2

/-! ### What the ledger carries -/

/-- Postgres and the scan for secrets admit the row. -/
structure Admitted (row : Row) : Prop where
  secretFree : SecretFree (sharedLedgerPayload row)
  timestamp : postgres.timestamp (createdAt row) = true
  jsonb : (postgres.jsonb (sharedLedgerPayload row)).isSome = true

/-- What a writing operation may do to the store: delete no row, leave no releases, and
    no more rows than the ledger may have and can carry. -/
structure Carried (db changed : Database) : Prop where
  noDeletion : ∀ id ∈ db.rows.keys, id ∈ changed.rows.keys
  noReleases : changed.privacyReleases = []
  capacity : changed.rows.size ≤ maxEntries
  rows : ∀ row ∈ changed.rows.values, Portable row ∧ Admitted postgres row

/-- The step of the run on one store, of which a read and a failed operation change
    nothing. -/
def Kept (db : Database) : Call ρ → Prop
  | .read operation => (operation.run db).2.Same db
  | .write operation =>
    match (operation.run db).1 with
    | .ok _ => Carried postgres maxEntries db (operation.run db).2
    | .error _ => (operation.run db).2.Same db

def KeptThroughout (db : Database) : List (Call ρ) → Prop
  | [] => True
  | call :: rest => Kept postgres maxEntries db call ∧ KeptThroughout (call.operation.run db).2 rest

end Store

/-! ### Counting rows -/

theorem size_eq_of_keys {κ α β : Type} {m : KeyedMap κ α} {n : KeyedMap κ β} (same : ∀ k, k ∈ m.keys ↔ k ∈ n.keys) :
    m.size = n.size := by
  have perm : m.keys.Perm n.keys := (List.perm_ext_iff_of_nodup m.keys_nodup n.keys_nodup).mpr same
  have lengths := perm.length_eq
  simpa [KeyedMap.keys, KeyedMap.size] using lengths

theorem mem_exportedRows {db : Database} {row : Row} : row ∈ exportedRows db ↔ row ∈ db.rows.values := by
  simp only [exportedRows, List.mem_flatMap, List.mem_insertionSort, List.mem_filter, decide_eq_true_eq]
  constructor
  · rintro ⟨table, -, member, -⟩
    exact member
  · intro member
    exact ⟨row.table, mem_exportedTables row.table, member, rfl⟩

theorem values_nodup (db : Database) : db.rows.values.Nodup := by
  have ids : db.rows.values.map Row.id = db.rows.keys := by
    rw [KeyedMap.values, KeyedMap.keys, List.map_map]
    refine List.map_congr_left ?_
    intro entry member
    exact db.keyed (KeyedMap.get?_eq_some.mpr member)
  exact List.Nodup.of_map Row.id (by rw [ids]; exact db.rows.keys_nodup)

/-- An export has every row once. -/
theorem exportedRows_perm (db : Database) : (exportedRows db).Perm db.rows.values := by
  have unique : (exportedRows db).Nodup := by
    refine List.nodup_flatMap.mpr ⟨?_, ?_⟩
    · intro table _
      exact (List.perm_insertionSort _ _).nodup_iff.mpr ((values_nodup db).filter _)
    · have tables : exportedTables.Nodup := by decide
      refine tables.imp ?_
      intro table other different row member inside
      simp only [List.mem_insertionSort, List.mem_filter, decide_eq_true_eq] at member inside
      exact different (member.2.symm.trans inside.2)
  exact (List.perm_ext_iff_of_nodup unique (values_nodup db)).mpr fun row => mem_exportedRows

theorem exportedRows_length (db : Database) : (exportedRows db).length = db.rows.size := by
  rw [(exportedRows_perm db).length_eq]
  simp [KeyedMap.values, KeyedMap.size]

theorem Database.Same.size {left right : Database} (same : left.Same right) : left.rows.size = right.rows.size :=
  size_eq_of_keys same.keys

/-! ### Into a new store -/

/-- What an entry restores. -/
structure Holds (entry : SharedLedgerEntry) (row : Row) : Prop where
  table : tableForEntry entry.kind (payloadRecord entry.payload) = some row.table
  secretFree : SecretFree entry.payload
  restores : ∃ restored, restoreSharedLedgerEntry row.table (payloadRecord entry.payload) = some restored ∧ restored.Same row

theorem checkSecrets_ok {payload : Json} (free : SecretFree payload) (name : String) :
    checkSecrets payload name = .ok () := by
  rw [checkSecrets, (assertNoSecretMaterial_ok_iff payload _).mpr free]
  rfl

theorem importEntry_holds {entry : SharedLedgerEntry} {row : Row} (holds : Holds entry row) (db : Database) :
    ∃ restored : Row, importEntry db entry = .ok (db.upsert restored) ∧ restored.Same row := by
  obtain ⟨restored, found, same⟩ := holds.restores
  refine ⟨restored, ?_, same⟩
  unfold importEntry
  rw [holds.table]
  dsimp only
  rw [checkSecrets_ok holds.secretFree, found]
  rfl

/-- A store with the entries of a list has for each key the row of one of them, or what
    it had before. -/
theorem importEntries_spec {entries : List SharedLedgerEntry} (each : ∀ entry ∈ entries, ∃ row, Holds entry row)
    (db : Database) :
    ∃ store, importEntries db entries = .ok store ∧ store.privacyReleases = db.privacyReleases ∧
      ∀ id, (∃ entry ∈ entries, ∃ row restored, Holds entry row ∧ row.id = id ∧ store.rows.get? id = some restored ∧
          restored.Same row) ∨
        ((∀ entry ∈ entries, ∀ row, Holds entry row → row.id ≠ id) ∧ store.rows.get? id = db.rows.get? id) := by
  induction entries generalizing db with
  | nil => exact ⟨db, rfl, rfl, fun id => .inr ⟨by simp, rfl⟩⟩
  | cons entry rest ih =>
    obtain ⟨row, holds⟩ := each entry List.mem_cons_self
    obtain ⟨restored, imported, same⟩ := importEntry_holds holds db
    obtain ⟨store, done, releases, spec⟩ := ih (fun entry member => each entry (List.mem_cons_of_mem _ member)) (db.upsert restored)
    refine ⟨store, ?_, releases, ?_⟩
    · rw [importEntries, imported]
      exact done
    · intro id
      rcases spec id with ⟨other, member, written⟩ | ⟨others, kept⟩
      · exact .inl ⟨other, List.mem_cons_of_mem _ member, written⟩
      · by_cases here : id = restored.id
        · have bound : store.rows.get? id = some restored := by
            rw [kept, Database.upsert, KeyedMap.get?_set, if_pos here]
          exact .inl ⟨entry, List.mem_cons_self, row, restored, holds, same.id.symm.trans here.symm, bound, same⟩
        · refine .inr ⟨?_, ?_⟩
          · intro other member otherRow holdsToo
            rcases List.mem_cons.mp member with rfl | later
            · obtain ⟨another, found, sameToo⟩ := holdsToo.restores
              have tables : otherRow.table = row.table := Option.some.inj (holdsToo.table.symm.trans holds.table)
              obtain ⟨first, foundFirst, sameFirst⟩ := holds.restores
              rw [tables, foundFirst, Option.some.injEq] at found
              subst found
              intro equal
              exact here (equal.symm.trans ((sameToo.symm.trans sameFirst).id.trans same.id.symm))
            · exact others other later otherRow holdsToo
          · rw [kept, Database.upsert, KeyedMap.get?_set_of_ne _ _ here]

/-! ### The ledger of a store -/

/-- The ledger has an entry for each row of the store, and nothing else. -/
structure Synced (maxEntries : ℕ) (ledger : Ledger) (db : Database) : Prop where
  size : ledger.size ≤ maxEntries
  releases : db.privacyReleases = []
  rows : ∀ id, Option.Rel Holds (ledger.get? id) (db.rows.get? id)

theorem synced_empty (maxEntries : ℕ) : Synced maxEntries .empty .empty := by
  refine ⟨Nat.zero_le _, rfl, ?_⟩
  intro id
  exact .none

theorem Synced.row {maxEntries : ℕ} {ledger : Ledger} {db : Database} (synced : Synced maxEntries ledger db)
    {id : RowId}
    {entry : SharedLedgerEntry} (found : ledger.get? id = some entry) :
    ∃ row, db.rows.get? id = some row ∧ Holds entry row := by
  have related := synced.rows id
  rw [found] at related
  cases there : db.rows.get? id with
  | none => rw [there] at related; cases related
  | some row =>
    rw [there] at related
    cases related
    rename_i holds
    exact ⟨row, rfl, holds⟩

theorem Synced.entry {maxEntries : ℕ} {ledger : Ledger} {db : Database} (synced : Synced maxEntries ledger db)
    {id : RowId}
    {row : Row} (found : db.rows.get? id = some row) : ∃ entry, ledger.get? id = some entry ∧ Holds entry row := by
  have related := synced.rows id
  rw [found] at related
  cases there : ledger.get? id with
  | none => rw [there] at related; cases related
  | some entry =>
    rw [there] at related
    cases related
    rename_i holds
    exact ⟨entry, rfl, holds⟩

theorem Holds.same {entry : SharedLedgerEntry} {row other : Row} (holds : Holds entry row)
    (holdsToo : Holds entry other) :
    row.Same other := by
  obtain ⟨restored, found, same⟩ := holds.restores
  obtain ⟨again, foundToo, sameToo⟩ := holdsToo.restores
  have tables : row.table = other.table := Option.some.inj (holds.table.symm.trans holdsToo.table)
  rw [← tables, found, Option.some.injEq] at foundToo
  subst foundToo
  exact same.symm.trans sameToo

/-- A new store gets the contents of the store that the ledger stands for. -/
theorem transientStore_same {maxEntries : ℕ} {ledger : Ledger} {db : Database}
    (synced : Synced maxEntries ledger db) :
    ∃ store, transientStoreFromPostgres maxEntries ledger = .ok store ∧ store.Same db := by
  have values : ∀ entry ∈ ledger.values, ∃ id, ledger.get? id = some entry := by
    intro entry member
    obtain ⟨⟨id, other⟩, inside, rfl⟩ := List.mem_map.mp member
    exact ⟨id, KeyedMap.get?_eq_some.mpr inside⟩
  let sorted := ledger.values.insertionSort fun entry other => sharedLedgerRestoreRank entry ≤ sharedLedgerRestoreRank other
  have members : ∀ entry, entry ∈ sorted ↔ entry ∈ ledger.values := fun entry => List.mem_insertionSort _
  have each : ∀ entry ∈ sorted, ∃ row, Holds entry row := by
    intro entry member
    obtain ⟨id, found⟩ := values entry ((members entry).mp member)
    obtain ⟨row, -, holds⟩ := synced.row found
    exact ⟨row, holds⟩
  obtain ⟨store, imported, releases, spec⟩ := importEntries_spec each .empty
  refine ⟨store, ?_, ?_, ?_⟩
  · rw [transientStoreFromPostgres, if_neg (Nat.not_lt.mpr synced.size)]
    exact imported
  · intro id
    rcases spec id with ⟨entry, member, row, restored, holds, own, bound, same⟩ | ⟨others, kept⟩
    · obtain ⟨place, found⟩ := values entry ((members entry).mp member)
      obtain ⟨row', there, holdsToo⟩ := synced.row found
      have sameRow := holds.same holdsToo
      have here : place = id := by
        rw [← db.keyed there, ← sameRow.id]
        exact own
      rw [bound, ← here, there]
      exact .some (same.trans sameRow)
    · rw [kept]
      cases there : db.rows.get? id with
      | none => exact .none
      | some row =>
        obtain ⟨entry, found, holds⟩ := synced.entry there
        have member := (members entry).mpr (KeyedMap.mem_values_of_get? found)
        exact absurd (db.keyed there) (others entry member row holds)
  · rw [releases, synced.releases]
    rfl

/-! ### Back to the ledger -/

section WriteBack
variable {postgres : Postgres} {maxEntries : ℕ}

theorem createdAt_same {left right : Row} (same : left.Same right) : createdAt left = createdAt right := by
  have value : left.value left.table.created = right.value left.table.created := same.value (created_notJson left.table)
  unfold createdAt
  rw [value, same.1]

theorem admitted_same {left right : Row} (same : left.Same right) (portable : Portable left)
    (admitted : Admitted postgres left) : Admitted postgres right := by
  have isJson := payload_isJson portable
  have isJsonToo := payload_isJson (same.portable portable)
  refine ⟨?_, ?_, ?_⟩
  · exact secretFree_of_denote isJson isJsonToo admitted.secretFree same.payload
  · rw [← createdAt_same same]
    exact admitted.timestamp
  · exact postgres.accepts isJson isJsonToo same.payload admitted.jsonb

def entryOf (row : Row) : SharedLedgerEntry :=
  { key := row.id, kind := row.table.kind, payload := sharedLedgerPayload row, createdAt := createdAt row }

theorem ledgerEntries_ok {rows : List Row} (free : ∀ row ∈ rows, SecretFree (sharedLedgerPayload row)) :
    ledgerEntries rows = .ok (rows.map entryOf) := by
  induction rows with
  | nil => rfl
  | cons row rest ih =>
    rw [List.forall_mem_cons] at free
    rw [ledgerEntries, checkSecrets_ok free.1, ih free.2]
    rfl

theorem upsertEntry_ok {row : Row} (portable : Portable row) (admitted : Admitted postgres row) (ledger : Ledger) :
    ∃ stored, upsertEntry postgres ledger (entryOf row) = .ok (ledger.set row.id stored) ∧ Holds stored row := by
  obtain ⟨payload, written⟩ := Option.isSome_iff_exists.mp admitted.jsonb
  obtain ⟨restores, table, free⟩ := restore_same postgres portable written
  refine ⟨{ entryOf row with payload := payload }, ?_, ⟨table _, free admitted.secretFree, restores⟩⟩
  unfold upsertEntry
  rw [show (entryOf row).payload = sharedLedgerPayload row from rfl, checkSecrets_ok admitted.secretFree, written]
  show (if postgres.timestamp (createdAt row) = true then _ else _) = _
  rw [if_pos admitted.timestamp]
  rfl

/-- A ledger after an export has for each key a row of the export, or what it had before. -/
theorem upsert_spec {rows : List Row} (each : ∀ row ∈ rows, Portable row ∧ Admitted postgres row) (ledger : Ledger) :
    ∃ written, upsertSharedLedgerEntries postgres ledger (rows.map entryOf) = .ok written ∧
      ∀ id, (∃ row ∈ rows, ∃ entry, row.id = id ∧ written.get? id = some entry ∧ Holds entry row) ∨
        ((∀ row ∈ rows, row.id ≠ id) ∧ written.get? id = ledger.get? id) := by
  induction rows generalizing ledger with
  | nil => exact ⟨ledger, rfl, fun id => .inr ⟨by simp, rfl⟩⟩
  | cons row rest ih =>
    rw [List.forall_mem_cons] at each
    obtain ⟨stored, upserted, holds⟩ := upsertEntry_ok each.1.1 each.1.2 ledger
    obtain ⟨written, done, spec⟩ := ih each.2 (ledger.set row.id stored)
    refine ⟨written, ?_, ?_⟩
    · rw [List.map_cons, upsertSharedLedgerEntries, upserted]
      exact done
    · intro id
      rcases spec id with ⟨other, member, found⟩ | ⟨others, kept⟩
      · exact .inl ⟨other, List.mem_cons_of_mem _ member, found⟩
      · by_cases here : row.id = id
        · refine .inl ⟨row, List.mem_cons_self, stored, here, ?_, holds⟩
          rw [kept, ← here, KeyedMap.get?_set_self]
        · refine .inr ⟨List.forall_mem_cons.mpr ⟨here, others⟩, ?_⟩
          rw [kept, KeyedMap.get?_set_of_ne _ _ (Ne.symm here)]

/-- What an operation leaves is written to a ledger that stands for it. -/
theorem writeBack_synced {ledger : Ledger} {db changed store : Database} (synced : Synced maxEntries ledger db)
    (carried : Carried postgres maxEntries db changed) (same : store.Same changed) :
    ∃ written, writeBack postgres maxEntries ledger store = .ok written ∧ Synced maxEntries written changed := by
  have each : ∀ row ∈ exportedRows store, Portable row ∧ Admitted postgres row := by
    intro row member
    obtain ⟨other, found, sameRow⟩ := same.row (store.get?_of_mem (mem_exportedRows.mp member))
    obtain ⟨portable, admitted⟩ := carried.rows other (KeyedMap.mem_values_of_get? found)
    exact ⟨sameRow.symm.portable portable, admitted_same sameRow.symm portable admitted⟩
  obtain ⟨written, done, spec⟩ := upsert_spec each ledger
  have count : ((exportedRows store).map entryOf).length = changed.rows.size := by
    rw [List.length_map, exportedRows_length, same.size]
  have rows : ∀ id, Option.Rel Holds (written.get? id) (changed.rows.get? id) := by
    intro id
    rcases spec id with ⟨row, member, entry, own, found, holds⟩ | ⟨others, kept⟩
    · obtain ⟨other, there, sameRow⟩ := same.row (store.get?_of_mem (mem_exportedRows.mp member))
      rw [found, ← own, there]
      obtain ⟨restored, restores, sameToo⟩ := holds.restores
      refine .some ⟨?_, holds.secretFree, restored, ?_, sameToo.trans sameRow⟩
      · rw [holds.table, sameRow.1]
      · rw [← sameRow.1]
        exact restores
    · cases there : changed.rows.get? id with
      | some row =>
        obtain ⟨other, found, -⟩ := same.symm.row there
        exact absurd (store.keyed found) (others other (mem_exportedRows.mpr (KeyedMap.mem_values_of_get? found)))
      | none =>
        rw [kept]
        cases before : ledger.get? id with
        | none => exact .none
        | some entry =>
          obtain ⟨row, found, -⟩ := synced.row before
          have deleted := KeyedMap.get?_eq_none.mp there
          exact absurd (carried.noDeletion id (KeyedMap.mem_keys.mpr ⟨row, found⟩)) deleted
  have keys : ∀ id, id ∈ written.keys ↔ id ∈ changed.rows.keys := by
    intro id
    have related := rows id
    rw [KeyedMap.mem_keys, KeyedMap.mem_keys]
    cases one : written.get? id <;> cases two : changed.rows.get? id <;> rw [one, two] at related <;> cases related <;> simp
  refine ⟨written, ?_, ?_, carried.noReleases, rows⟩
  · unfold writeBack
    rw [ledgerEntries_ok fun row member => (each row member).2.secretFree]
    show (if maxEntries < ((exportedRows store).map entryOf).length then _ else _) = _
    rw [if_neg (by rw [count]; exact Nat.not_lt.mpr carried.capacity)]
    exact done
  · rw [size_eq_of_keys keys]
    exact carried.capacity

/-! ### Runs -/

variable {ρ : Type}

theorem sharedCall_read {ledger : Ledger} {store : Database}
    (opened : transientStoreFromPostgres maxEntries ledger = .ok store)
    (operation : Operation ρ) :
    sharedCall postgres maxEntries ledger (.read operation) = ((operation.run store).1, ledger) := by
  rw [sharedCall, withRead, opened]
  rfl

theorem withWrite_failed {ledger : Ledger} {store : Database}
    (opened : transientStoreFromPostgres maxEntries ledger = .ok store)
    {operation : Operation ρ} {failure : StoreFailure} (failed : (operation.run store).1 = .error failure) :
    withWrite postgres maxEntries ledger operation = (.error failure, ledger) := by
  unfold withWrite
  rw [opened]
  dsimp only
  rw [failed]

theorem withWrite_written {ledger written : Ledger} {store : Database}
    (opened : transientStoreFromPostgres maxEntries ledger = .ok store) {operation : Operation ρ} {result : ρ}
    (finished : (operation.run store).1 = .ok result)
    (done : writeBack postgres maxEntries ledger (operation.run store).2 = .ok written) :
    withWrite postgres maxEntries ledger operation = (.ok result, written) := by
  unfold withWrite
  rw [opened]
  dsimp only
  rw [finished]
  dsimp only
  rw [done]

theorem Synced.of_same {ledger : Ledger} {db changed : Database} (synced : Synced maxEntries ledger db)
    (same : changed.Same db) :
    Synced maxEntries ledger changed := by
  refine ⟨synced.size, by rw [same.releases, synced.releases], ?_⟩
  intro id
  have related := synced.rows id
  have kept := same.rows id
  cases one : ledger.get? id <;> cases two : db.rows.get? id <;> cases three : changed.rows.get? id <;>
    rw [one, two] at related <;> rw [two, three] at kept <;> cases related <;> cases kept
  · exact .none
  · rename_i holds rows
    obtain ⟨restored, restores, sameRow⟩ := holds.restores
    refine .some ⟨?_, holds.secretFree, restored, ?_, sameRow.trans rows.symm⟩
    · rw [holds.table, rows.1]
    · rw [rows.1]
      exact restores

/-- A call that the ledger can carry has the result of the one store, and the ledger
    stands for that store after it. -/
theorem sharedCall_synced {ledger : Ledger} {db : Database} (synced : Synced maxEntries ledger db) {call : Call ρ}
    (kept : Kept postgres maxEntries db call) :
    (sharedCall postgres maxEntries ledger call).1 = (call.operation.run db).1 ∧
      Synced maxEntries (sharedCall postgres maxEntries ledger call).2 (call.operation.run db).2 := by
  obtain ⟨store, opened, same⟩ := transientStore_same synced
  cases call with
  | read operation =>
    obtain ⟨result, -⟩ := operation.respects same
    rw [sharedCall_read opened]
    exact ⟨result, synced.of_same kept⟩
  | write operation =>
    obtain ⟨result, changed⟩ := operation.respects same
    simp only [Kept] at kept
    show (withWrite postgres maxEntries ledger operation).1 = (operation.run db).1 ∧
      Synced maxEntries (withWrite postgres maxEntries ledger operation).2 (operation.run db).2
    cases outcome : (operation.run db).1 with
    | error failure =>
      rw [outcome] at kept result
      rw [withWrite_failed opened result]
      exact ⟨rfl, synced.of_same kept⟩
    | ok value =>
      rw [outcome] at kept result
      obtain ⟨written, done, next⟩ := writeBack_synced synced kept changed
      rw [withWrite_written opened result done]
      exact ⟨rfl, next⟩

theorem sharedRun_synced {calls : List (Call ρ)} {ledger : Ledger} {db : Database}
    (synced : Synced maxEntries ledger db)
    (kept : KeptThroughout postgres maxEntries db calls) :
    (sharedRun postgres maxEntries ledger calls).1 = (persistentRun db calls).1 ∧
      Synced maxEntries (sharedRun postgres maxEntries ledger calls).2 (persistentRun db calls).2 := by
  induction calls generalizing ledger db with
  | nil => exact ⟨rfl, synced⟩
  | cons call rest ih =>
    obtain ⟨result, next⟩ := sharedCall_synced synced kept.1
    obtain ⟨results, last⟩ := ih next kept.2
    exact ⟨congrArg₂ List.cons result results, last⟩

theorem keptThroughout_take {calls before : List (Call ρ)} {db : Database} (first : before <+: calls)
    (kept : KeptThroughout postgres maxEntries db calls) : KeptThroughout postgres maxEntries db before := by
  induction before generalizing calls db with
  | nil => trivial
  | cons call rest ih =>
    obtain ⟨others, rfl⟩ := first
    exact ⟨kept.1, ih ⟨others, rfl⟩ kept.2⟩

end WriteBack

/-! ### A column of Postgres -/

/-- The order in which `jsonb` keeps the keys of ASCII: the shorter ones first. -/
def jsonbOrder (p q : Text × Json) : Prop := p.1.length < q.1.length ∨ p.1.length = q.1.length ∧ p.1 ≤ q.1

instance : DecidableRel jsonbOrder := fun _ _ => inferInstanceAs (Decidable (_ ∨ _))

mutual
/-- A value as it is read from the text of a `jsonb` column that it was written to. -/
def reordered : Json → Json
  | .null => .null
  | .bool value => .bool value
  | .string value => .string value
  | .number value => .number (unsignZero value)
  | .array items => .array (reorderedItems items)
  | .object properties =>
    .object (((reorderedProperties properties).insertionSort jsonbOrder).foldl (fun known p => defineProperty known p.1 p.2) [])

def reorderedItems : List Json → List Json
  | [] => []
  | item :: rest => reordered item :: reorderedItems rest

def reorderedProperties : List (Text × Json) → List (Text × Json)
  | [] => []
  | (key, value) :: rest => (key, reordered value) :: reorderedProperties rest
end

theorem reorderedItems_eq (items : List Json) : reorderedItems items = items.map reordered := by
  induction items with
  | nil => rfl
  | cons item rest ih => rw [reorderedItems, ih, List.map_cons]

theorem reorderedProperties_eq (properties : List (Text × Json)) :
    reorderedProperties properties = properties.map fun p => (p.1, reordered p.2) := by
  induction properties with
  | nil => rfl
  | cons p rest ih => rw [reorderedProperties, ih, List.map_cons]

theorem reordered_spec {value : Json} (json : IsJson value) : (reordered value).Enumerated ∧ denote
    (reordered value) = denote value := by
  induction value with
  | null => exact ⟨trivial, rfl⟩
  | bool b => exact ⟨trivial, rfl⟩
  | string s => exact ⟨trivial, rfl⟩
  | number n =>
    have finite : n.isFinite = true := json
    refine ⟨⟨unsignZero_finite finite, unsignZero_idem n⟩, ?_⟩
    rw [reordered, denote, denote, unsignZero_idem]
  | array items ih =>
    have each : ∀ item ∈ items, (reordered item).Enumerated ∧ denote (reordered item) = denote item :=
      fun item member => ih item member (itemsAreJson_iff.mp json item member)
    rw [reordered, reorderedItems_eq]
    constructor
    · refine itemsEnumerated_iff.mpr ?_
      intro item member
      obtain ⟨original, inside, rfl⟩ := List.mem_map.mp member
      exact (each original inside).1
    · rw [denote, denote, denoteItems_eq, denoteItems_eq, List.map_map]
      exact congrArg _ (List.map_congr_left fun item member => (each item member).2)
  | object properties ih =>
    have each : ∀ p ∈ properties, (reordered p.2).Enumerated ∧ denote (reordered p.2) = denote p.2 :=
      fun p member => ih p member (propertiesAreJson_iff.mp json.2 p member)
    let sorted := (properties.map fun p => (p.1, reordered p.2)).insertionSort jsonbOrder
    have perm : sorted.Perm (properties.map fun p => (p.1, reordered p.2)) := List.perm_insertionSort _ _
    have names : (properties.map fun p => (p.1, reordered p.2)).map Prod.fst = properties.map Prod.fst := by
      rw [List.map_map]
      rfl
    have unique : (sorted.map Prod.fst).Nodup := by
      rw [(perm.map Prod.fst).nodup_iff, names]
      exact json.1
    obtain ⟨enumerated, members⟩ := foldl_defineProperty_fresh unique (by simp) List.Pairwise.nil
    rw [List.append_nil] at members
    rw [reordered, reorderedProperties_eq]
    constructor
    · refine propertiesEnumerated_iff.mpr ⟨enumerated, ?_⟩
      intro p member
      obtain ⟨original, inside, rfl⟩ := List.mem_map.mp (perm.mem_iff.mp (members.mem_iff.mp member))
      exact (each original inside).1
    · rw [denote, denote]
      refine congrArg _ ?_
      rw [denoteProperties_perm members ((members.map Prod.fst).nodup_iff.mpr unique), denoteProperties_perm perm unique]
      funext key
      rw [denoteProperties_map, denoteProperties_map, List.map_map]
      refine congrArg _ (List.map_congr_left ?_)
      intro p member
      exact Prod.ext rfl (each p member).2

/-- Postgres as it stores texts without the character U+0000 and without halves of
    surrogate pairs, and takes times. -/
def plainPostgres : Postgres where
  jsonb value := some (reordered value)
  timestamp text := decide (text ≠ [])
  keeps := by
    intro value stored json written
    cases written
    exact reordered_spec json
  accepts := fun _ _ _ _ => rfl

/-! ### Operations -/

/-- `claimExplorePrivacyRelease`, which reads and writes the table of releases alone. -/
def claimRelease (now : ℤ) (scope : String) (input : ReleaseInput) : Operation ReleaseDecision where
  run db :=
    (.ok (Sqlite.claimExplorePrivacyRelease now db.privacyReleases scope input).1,
      { db with privacyReleases := (Sqlite.claimExplorePrivacyRelease now db.privacyReleases scope input).2 })
  respects := by
    intro left right same
    rw [same.releases]
    exact ⟨rfl, same.rows, rfl⟩

theorem Database.Same.upsert {left right : Database} (same : left.Same right) (row : Row) :
    (left.upsert row).Same (right.upsert row) := by
  refine ⟨fun id => ?_, same.releases⟩
  by_cases here : id = row.id
  · rw [here, Database.upsert, Database.upsert, KeyedMap.get?_set_self, KeyedMap.get?_set_self]
    exact .some (Row.Same.refl row)
  · rw [Database.upsert, Database.upsert, KeyedMap.get?_set_of_ne _ _ here, KeyedMap.get?_set_of_ne _ _ here]
    exact same.rows id

def runnerStateRow (key value updatedAt : Text) : Row where
  table := .record .runnerState
  properties := [(ascii "key", .text key), (ascii "value_json", .text value), (ascii "updated_at", .text updatedAt)]
  columns := rfl
  present := by simp
  affinity := by simp

/-- `setRunnerState`. Its result stands for the one of a read. -/
def setRunnerState (key : Text) (value : Json) (now : Text) : Operation (Option ColumnValue) where
  run db :=
    match assertNoSecretMaterial value (ascii "runner_state." ++ key) with
    | .error found => (.error (.secretMaterial found), db)
    | .ok _ => (.ok none, db.upsert (runnerStateRow key value.text now))
  respects := by
    intro left right same
    cases assertNoSecretMaterial value (ascii "runner_state." ++ key) with
    | error found => exact ⟨rfl, same⟩
    | ok _ => exact ⟨rfl, same.upsert _⟩

def stateOf (row : Row) : Option ColumnValue := KeyedMap.find (ascii "value_json") row.contents

def getRunnerState (key : Text) : Operation (Option ColumnValue) where
  run db := (.ok ((db.rows.get? ⟨.record .runnerState, .text key⟩).bind stateOf), db)
  respects := by
    intro left right same
    refine ⟨?_, same⟩
    have related := same.rows ⟨.record .runnerState, .text key⟩
    generalize left.rows.get? ⟨.record .runnerState, .text key⟩ = mine at related ⊢
    generalize right.rows.get? ⟨.record .runnerState, .text key⟩ = other at related ⊢
    cases related with
    | none => rfl
    | some rows => simp only [Option.bind_some, stateOf, rows.2]

def exampleState : Json := .object [(ascii "mode", .string (ascii "paused")), (ascii "by", .string (ascii "operator"))]

def exampleCalls : List (Call (Option ColumnValue)) :=
  [.write (setRunnerState (ascii "worker") exampleState (ascii "2026-01-01")), .read (getRunnerState (ascii "worker"))]

theorem exampleState_isJson : IsJson exampleState := by
  refine ⟨by decide, ?_⟩
  simp [PropertiesAreJson, IsJson]

theorem exampleState_enumerated : exampleState.Enumerated := by
  have keys : arrayIndex (ascii "mode") = none ∧ arrayIndex (ascii "by") = none := by decide
  have differ : ascii "mode" ≠ ascii "by" := by decide
  simp [exampleState, Json.Enumerated, PropertiesEnumerated, enumeratesBefore, keys, differ]

def exampleRow : Row := runnerStateRow (ascii "worker") exampleState.text (ascii "2026-01-01")

theorem exampleRow_portable : Portable exampleRow := by
  constructor
  · intro p known json t held
    have notKey : ascii "key" ∉ sharedLedgerJsonColumns := by decide
    have notTime : ascii "updated_at" ∉ sharedLedgerJsonColumns := by decide
    simp only [exampleRow, runnerStateRow, List.mem_cons, List.not_mem_nil, or_false] at known
    rcases known with rfl | rfl | rfl
    · exact absurd json notKey
    · have text : exampleState.text = t := by simpa using held
      rw [← text]
      exact ⟨exampleState, parseJson_enumerated exampleState_enumerated, exampleState_isJson, by simp [exampleState]⟩
    · exact absurd json notTime
  · intro p known n held
    simp only [exampleRow, runnerStateRow, List.mem_cons, List.not_mem_nil, or_false] at known
    rcases known with rfl | rfl | rfl <;> simp at held

theorem exampleRow_admitted : Admitted plainPostgres exampleRow := by
  have clean : assertNoSecretMaterial (sharedLedgerPayload exampleRow) [] = .ok () := by decide +kernel
  exact ⟨(assertNoSecretMaterial_ok_iff _ _).mp clean, by decide +kernel, rfl⟩

/-- The opposite releases of one fingerprint, claimed in two sessions. -/
def releaseOf (kind : ReleaseKind) : ReleaseInput :=
  { complementFingerprints := ["sha256:aa"], releaseKind := kind, queryFingerprint := "sha256:bb"
    boundaryDigest := "sha256:cc", additionalReleases := [] }

end SynapsorRunner.SharedRuntimeStore
