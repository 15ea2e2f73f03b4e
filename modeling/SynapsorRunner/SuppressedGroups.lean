import Mathlib.Data.List.FinRange
import SynapsorRunner.DoubleArithmetic
import SynapsorRunner.KeyedMap
import SynapsorRunner.NumberText

/-!
The privacy boundary of an aggregate. `shapePrivacySuppressedGroups` takes the rows of a
query and releases, of every period, the first `top_n` groups of a cohort that is large
enough, with the reviewed fields only.

What it releases and counts is exact (`releases_exactly`): the rows are told apart by their
positions, so that a row released twice, out of order or in the place of an earlier one
would show. The periods come in the order of their list, not in that of the rows.
-/
namespace SynapsorRunner.SuppressedGroups
open SynapsorRunner.Doubles SynapsorRunner.DoubleRounding SynapsorRunner.DoubleArithmetic SynapsorRunner.NumberText

/-! ### The first of a kind -/

section
variable {n : ℕ} {κ : Type}

/-- The first positions of a kind, as many as `cap` says for their number. -/
def firsts (kind : Fin n → Bool) (cap : ℕ → ℕ) : List (Fin n) :=
  ((List.finRange n).filter kind).take (cap ((List.finRange n).filter kind).length)

variable {kind : Fin n → Bool} {cap : ℕ → ℕ}

theorem found_sorted (kind : Fin n → Bool) : ((List.finRange n).filter kind).Pairwise (· < ·) :=
  (List.pairwise_lt_finRange n).filter kind

theorem firsts_sorted : (firsts kind cap).Pairwise (· < ·) := (found_sorted kind).sublist (List.take_sublist _ _)

theorem mem_firsts {i : Fin n} (member : i ∈ firsts kind cap) : kind i = true :=
  (List.mem_filter.mp (List.mem_of_mem_take member)).2

/-- What is left out comes after what is taken. -/
theorem firsts_before (kind : Fin n → Bool) {i j : Fin n} (ofKind : kind i = true) (left : i ∉ firsts kind cap)
    (taken : j ∈ firsts kind cap) : j < i := by
  have found : i ∈ (List.finRange n).filter kind := List.mem_filter.mpr ⟨List.mem_finRange i, ofKind⟩
  have sorted := found_sorted kind
  rw [← List.take_append_drop (cap ((List.finRange n).filter kind).length) ((List.finRange n).filter kind)]
    at found sorted
  rcases List.mem_append.mp found with early | late
  · exact absurd early left
  · exact (List.pairwise_append.mp sorted).2.2 j taken i late

theorem length_firsts : (firsts kind cap).length =
    min (cap ((List.finRange n).filter kind).length) ((List.finRange n).filter kind).length := List.length_take

/-- Nothing of a kind is left out when there is room for all of it. -/
theorem mem_firsts_of_room (kind : Fin n → Bool) {i : Fin n} (ofKind : kind i = true)
    (room : ((List.finRange n).filter kind).length ≤ (firsts kind cap).length) : i ∈ firsts kind cap := by
  have all : firsts kind cap = (List.finRange n).filter kind :=
    (List.take_sublist _ _).eq_of_length_le room
  rw [all]
  exact List.mem_filter.mpr ⟨List.mem_finRange i, ofKind⟩

theorem flatMap_alone {α : Type} [DecidableEq κ] {kinds : List κ} (distinct : kinds.Nodup) {k : κ} (member : k ∈ kinds)
    (part : κ → List α) : (kinds.flatMap fun k' => if k' = k then part k' else []) = part k := by
  induction kinds with
  | nil => cases member
  | cons head rest ih =>
    rw [List.nodup_cons] at distinct
    rw [List.flatMap_cons]
    by_cases here : head = k
    · subst here
      have none : (rest.flatMap fun k' => if k' = head then part k' else []) = [] := by
        rw [List.flatMap_eq_nil_iff]
        intro k' later
        rw [if_neg]
        rintro rfl
        exact distinct.1 later
      rw [if_pos rfl, none, List.append_nil]
    · rw [if_neg here, List.nil_append]
      exact ih distinct.2 ((List.mem_cons.mp member).resolve_left (Ne.symm here))

/-- Of the firsts of several kinds, those of one kind. -/
theorem filter_firsts [DecidableEq κ] {kinds : List κ} (distinct : kinds.Nodup) (within : Fin n → Bool)
    (of : κ → Fin n → Bool) (apart : ∀ i, ∀ k ∈ kinds, ∀ k' ∈ kinds, of k i = true → of k' i = true → k = k') {k : κ}
    (member : k ∈ kinds) :
    (kinds.flatMap fun k => firsts (fun i => within i && of k i) cap).filter (of k) =
      firsts (fun i => within i && of k i) cap := by
  have alone : ∀ k' ∈ kinds, (firsts (fun i => within i && of k' i) cap).filter (of k) =
      if k' = k then firsts (fun i => within i && of k' i) cap else [] := by
    intro k' member'
    have ofBoth : ∀ i ∈ firsts (fun i => within i && of k' i) cap, of k' i = true := by
      intro i taken
      have both := mem_firsts taken
      simp only [Bool.and_eq_true] at both
      exact both.2
    by_cases same : k' = k
    · subst same
      rw [if_pos rfl, List.filter_eq_self]
      exact ofBoth
    · rw [if_neg same, List.filter_eq_nil_iff]
      intro i taken ofKind
      exact same (apart i k' member' k member (ofBoth i taken) ofKind)
  rw [List.filter_flatMap, List.flatMap_congr alone]
  exact flatMap_alone distinct member fun k => firsts (fun i => within i && of k i) cap

end

/-! ### Rows -/

/-- What is read of a value of a row. -/
class Unknown (V : Type) where
  /-- What a record has under a key that is not its own. -/
  inherited : String → V
  /-- `Number(value)`, none where it throws. -/
  number : V → Option Number
  /-- The text that the value is strictly equal to. -/
  text : V → Option String

section
variable {V : Type} [Unknown V]

/-- `row[field]` -/
def read (row : KeyedMap String V) (field : String) : V := (row.get? field).getD (Unknown.inherited field)

/-- The codes that `shapePrivacySuppressedGroups` throws with. -/
inductive PrivacyBoundaryErrorCode where
  | groupLimitExceeded
  | invalidCohortSize
  deriving DecidableEq

inductive ShapeError where
  | privacyBoundary (code : PrivacyBoundaryErrorCode) (message : Text)
  | notConvertible
  deriving DecidableEq

structure Input (V : Type) where
  rows : List (KeyedMap String V)
  outputFields : List String
  cohortField : String
  minimumCohortSize : Number
  maximumGroups : Number
  topN : Number
  periodField : Option String
  periods : Option (List String)

structure Shaped (V : Type) where
  groups : List (KeyedMap String V)
  suppressedGroups : ℕ
  returnedCells : ℕ

/-- `Number.isSafeInteger` -/
def isSafeInteger : Number → Bool
  | .finite _ m => decide (m.value.den = 1 ∧ m.value ≤ 2 ^ 53 - 1)
  | _ => false

/-- Where `slice(0, stop)` of a list ends. -/
def sliceEnd (stop : Number) (length : ℕ) : ℕ :=
  match stop with
  | .nan => 0
  | .infinite negative => if negative then 0 else length
  | .finite negative m => if negative && decide (⌊m.value⌋₊ ≠ 0) then length - ⌊m.value⌋₊ else ⌊m.value⌋₊

def slice {α : Type} (stop : Number) (l : List α) : List α := l.take (sliceEnd stop l.length)

/-- `input.period_field`, none for the empty text. -/
def Input.givenPeriodField (input : Input V) : Option String := input.periodField.filter (· ≠ "")

def Input.givenPeriods (input : Input V) : List String := input.periods.getD []

/-- The rows with a period in a field. -/
def ofPeriod (field period : String) (row : KeyedMap String V) : Bool :=
  decide (Unknown.text (read row field) = some period)

/-- The numbers of rows that are held against the maximum. -/
def Input.periodCounts (input : Input V) : List ℕ :=
  match input.givenPeriodField with
  | none => [input.rows.length]
  | some field => input.givenPeriods.map fun period => (input.rows.filter (ofPeriod field period)).length

/-- `count > maximum` -/
def exceeds (count : ℕ) : Number → Bool
  | .finite negative m => decide (signed negative m < count)
  | .infinite negative => negative
  | .nan => false

def groupLimitMessage (maximum : Number) : Text :=
  ascii "Aggregate result exceeds the reviewed maximum of " ++ numberText maximum ++ ascii " groups."

def Input.project (input : Input V) (row : KeyedMap String V) : KeyedMap String V :=
  KeyedMap.ofList (input.outputFields.map fun field => (field, read row field))

/-- The size of the cohort of a row. -/
def Input.cohortSize (input : Input V) (row : KeyedMap String V) : Except ShapeError Number :=
  match Unknown.number (read row input.cohortField) with
  | none => .error .notConvertible
  | some cohortSize =>
    if isSafeInteger cohortSize = false ∨ lt cohortSize zero = true then
      .error (.privacyBoundary .invalidCohortSize (ascii "Aggregate cohort size must be a non-negative safe integer."))
    else .ok cohortSize

/-- The visible groups, and how many were suppressed. -/
def Input.visible (input : Input V) : ℕ → List (KeyedMap String V) → Except ShapeError (ℕ × List (KeyedMap String V))
  | suppressedGroups, [] => .ok (suppressedGroups, [])
  | suppressedGroups, row :: rest => do
    let cohortSize ← input.cohortSize row
    if lt cohortSize input.minimumCohortSize then input.visible (suppressedGroups + 1) rest
    else
      let (total, groups) ← input.visible suppressedGroups rest
      pure (total, input.project row :: groups)

def shapePrivacySuppressedGroups (input : Input V) : Except ShapeError (Shaped V) :=
  if input.givenPeriodField.isSome ∧ input.givenPeriods = [] then
    .error (.privacyBoundary .groupLimitExceeded (ascii "A period field requires an explicit bounded period set."))
  else if input.periodCounts.any (exceeds · input.maximumGroups) then
    .error (.privacyBoundary .groupLimitExceeded (groupLimitMessage input.maximumGroups))
  else do
    let (suppressedGroups, visible) ← input.visible 0 input.rows
    let groups := match input.givenPeriodField with
      | some field => input.givenPeriods.flatMap fun period => slice input.topN (visible.filter (ofPeriod field period))
      | none => slice input.topN visible
    pure ⟨groups, suppressedGroups, groups.length * input.outputFields.length⟩

/-! ### Exact releases -/

/-- Is the number at least this count? -/
def Admits : Number → ℕ → Prop
  | .finite negative m, count => (count : ℚ) ≤ signed negative m
  | .infinite negative, _ => negative = false
  | .nan, _ => False

/-- The rows of large enough cohorts. -/
def Input.eligible (input : Input V) (row : KeyedMap String V) : Bool :=
  (Unknown.number (read row input.cohortField)).any fun cohortSize => le input.minimumCohortSize cohortSize

/-- The rows of smaller cohorts. -/
def Input.small (input : Input V) (row : KeyedMap String V) : Bool :=
  (Unknown.number (read row input.cohortField)).any fun cohortSize => lt cohortSize input.minimumCohortSize

/-- The periods, the one of all rows where there is no period field. -/
def Input.kinds (input : Input V) : List (Option String) :=
  match input.givenPeriodField with
  | none => [none]
  | some _ => input.givenPeriods.map some

def Input.ofKind (input : Input V) (kind : Option String) (row : KeyedMap String V) : Bool :=
  match input.givenPeriodField, kind with
  | some field, some period => ofPeriod field period row
  | _, _ => true

/-- The groups are those of the released rows, which come in an order. -/
structure Releases (input : Input V) (shaped : Shaped V) (precedes : Fin input.rows.length → Fin input.rows.length → Prop)
    (released : List (Fin input.rows.length)) : Prop where
  groups : shaped.groups = released.map fun i => input.project (input.rows.get i)
  ordered : released.Pairwise precedes
  cohorts : ∀ i ∈ released, input.eligible (input.rows.get i) = true
  listed : ∀ i ∈ released, ∃ kind ∈ input.kinds, input.ofKind kind (input.rows.get i) = true
  capped : ∀ kind ∈ input.kinds,
    Admits input.topN (released.filter fun i => input.ofKind kind (input.rows.get i)).length
  complete : ∀ kind ∈ input.kinds, ∀ i, input.eligible (input.rows.get i) = true →
    input.ofKind kind (input.rows.get i) = true → i ∉ released →
      ¬ Admits input.topN ((released.filter fun i => input.ofKind kind (input.rows.get i)).length + 1) ∧
        ∀ j ∈ released, input.ofKind kind (input.rows.get j) = true → j < i
  suppressed : shaped.suppressedGroups = (input.rows.filter input.small).length
  cells : shaped.returnedCells = (shaped.groups.map KeyedMap.size).sum

/-- The position of the period of a row in the list of periods. -/
def Input.kindIndex (input : Input V) (row : KeyedMap String V) : ℕ :=
  input.kinds.findIdx fun kind => input.ofKind kind row

/-- An earlier period first, the rows of one period in their order. -/
def Input.ByPeriod (input : Input V) (i j : Fin input.rows.length) : Prop :=
  input.kindIndex (input.rows.get i) < input.kindIndex (input.rows.get j) ∨
    input.kindIndex (input.rows.get i) = input.kindIndex (input.rows.get j) ∧ i < j

/-- The release is exact, in an order of the rows. -/
def ExactRelease (input : Input V) (shaped : Shaped V)
    (precedes : Fin input.rows.length → Fin input.rows.length → Prop) : Prop :=
  ∃ released, Releases input shaped precedes released

/-- What the callers give: a minimum and a cap that are counts, and no field or period
    twice, the period field among the fields. -/
structure Input.Reviewed (input : Input V) : Prop where
  minimum : input.minimumCohortSize ≠ .nan
  cap : Admits input.topN 0
  fields : input.outputFields.Nodup
  periodField : ∀ field ∈ input.givenPeriodField, field ∈ input.outputFields ∧ input.givenPeriods.Nodup

/-! ### Projections -/

omit [Unknown V] in
theorem get?_setAll_map {fields : List String} {field : String} (member : field ∈ fields) (of : String → V)
    (m : KeyedMap String V) : (m.setAll (fields.map fun field => (field, of field))).get? field = some (of field) := by
  induction fields generalizing m with
  | nil => cases member
  | cons head rest ih =>
    rw [List.map_cons, KeyedMap.setAll_cons]
    by_cases later : field ∈ rest
    · exact ih later _
    · have here : field = head := (List.mem_cons.mp member).resolve_right later
      have absent : field ∉ (rest.map fun field => (field, of field)).map Prod.fst := by simpa using later
      rw [KeyedMap.get?_setAll_of_absent absent, here]
      exact KeyedMap.get?_set_self _ _ _

theorem read_project {input : Input V} {field : String} (member : field ∈ input.outputFields) (row : KeyedMap String V) :
    read (input.project row) field = read row field := by
  have found := get?_setAll_map member (read row) KeyedMap.empty
  rw [read, Input.project, KeyedMap.ofList, found]
  rfl

omit [Unknown V] in
theorem size_setAll_map {fields : List String} (distinct : fields.Nodup) (of : String → V) {m : KeyedMap String V}
    (fresh : ∀ field ∈ fields, m.get? field = none) :
    (m.setAll (fields.map fun field => (field, of field))).size = m.size + fields.length := by
  induction fields generalizing m with
  | nil => rfl
  | cons head rest ih =>
    rw [List.nodup_cons] at distinct
    have grown : (m.set head (of head)).size = m.size + 1 := by
      rw [KeyedMap.size, KeyedMap.entries_set_of_absent (fresh head List.mem_cons_self), List.length_append]
      rfl
    have freshRest : ∀ field ∈ rest, (m.set head (of head)).get? field = none := by
      intro field later
      have apart : field ≠ head := by
        rintro rfl
        exact distinct.1 later
      rw [KeyedMap.get?_set_of_ne _ _ apart]
      exact fresh field (List.mem_cons_of_mem _ later)
    rw [List.map_cons, KeyedMap.setAll_cons, ih distinct.2 freshRest, grown, List.length_cons]
    omega

theorem size_project {input : Input V} (distinct : input.outputFields.Nodup) (row : KeyedMap String V) :
    (input.project row).size = input.outputFields.length := by
  have size := size_setAll_map distinct (read row) (m := KeyedMap.empty) fun _ _ => rfl
  rw [Input.project, KeyedMap.ofList, size]
  exact Nat.zero_add _

/-! ### The loop over the rows -/

theorem visible_eq {input : Input V} {rows : List (KeyedMap String V)}
    (valid : ∀ row ∈ rows, ∃ cohortSize, input.cohortSize row = .ok cohortSize) (suppressedGroups : ℕ) :
    input.visible suppressedGroups rows = .ok (suppressedGroups + (rows.filter input.small).length,
      (rows.filter fun row => !input.small row).map input.project) := by
  induction rows generalizing suppressedGroups with
  | nil => rfl
  | cons row rest ih =>
    obtain ⟨cohortSize, size⟩ := valid row List.mem_cons_self
    have small : input.small row = lt cohortSize input.minimumCohortSize := by
      unfold Input.cohortSize at size
      unfold Input.small
      split at size
      · cases size
      · split at size
        · cases size
        · next number _ =>
          cases size
          rw [number]
          rfl
    have later := ih fun row member => valid row (List.mem_cons_of_mem _ member)
    rw [Input.visible, size]
    by_cases suppressed : lt cohortSize input.minimumCohortSize = true
    · rw [List.filter_cons_of_pos (by rw [small, suppressed]), List.filter_cons_of_neg (by rw [small, suppressed]; decide)]
      simp only [bind, Except.bind, suppressed, if_true]
      rw [later, List.length_cons, Nat.add_right_comm, Nat.add_assoc]
    · rw [List.filter_cons_of_neg (by rw [small]; exact suppressed),
        List.filter_cons_of_pos (by rw [small]; simpa using suppressed)]
      simp only [bind, Except.bind, suppressed, if_false, later]
      rfl

theorem valid_of_visible {input : Input V} {rows : List (KeyedMap String V)} {suppressedGroups : ℕ}
    {result : ℕ × List (KeyedMap String V)} (returned : input.visible suppressedGroups rows = .ok result) :
    ∀ row ∈ rows, ∃ cohortSize, input.cohortSize row = .ok cohortSize := by
  induction rows generalizing suppressedGroups result with
  | nil => simp
  | cons row rest ih =>
    rw [Input.visible] at returned
    cases size : input.cohortSize row with
    | error thrown =>
      rw [size] at returned
      cases returned
    | ok cohortSize =>
      simp only [size, bind, Except.bind] at returned
      rw [List.forall_mem_cons]
      refine ⟨⟨cohortSize, size⟩, ?_⟩
      split at returned
      · exact ih returned
      · cases later : input.visible suppressedGroups rest with
        | error thrown =>
          rw [later] at returned
          cases returned
        | ok shown => exact ih later

/-! ### Caps -/

theorem Admits.mono {n : Number} {count more : ℕ} (admits : Admits n more) (below : count ≤ more) : Admits n count := by
  cases n with
  | nan => exact admits
  | infinite negative => exact admits
  | finite negative m => exact le_trans (Nat.cast_le.mpr below) admits

/-- A slice has no more than the number it is cut at. -/
theorem admits_slice {n : Number} (cap : Admits n 0) (length : ℕ) : Admits n (min (sliceEnd n length) length) := by
  cases n with
  | nan => exact cap
  | infinite negative => exact cap
  | finite negative m =>
    have floor : (⌊m.value⌋₊ : ℚ) ≤ m.value := Nat.floor_le m.isMagnitude.1
    cases negative with
    | false =>
      refine le_trans (Nat.cast_le.mpr (min_le_left _ _)) ?_
      simpa [sliceEnd, signed] using floor
    | true =>
      have nonpos : m.value ≤ 0 := by simpa [Admits, signed] using cap
      have zero : ⌊m.value⌋₊ = 0 := Nat.floor_of_nonpos nonpos
      simpa [sliceEnd, zero] using cap

/-- A slice with room for one more is the whole list. -/
theorem length_le_of_room {n : Number} (cap : Admits n 0) {length : ℕ}
    (room : Admits n (min (sliceEnd n length) length + 1)) : length ≤ min (sliceEnd n length) length := by
  cases n with
  | nan => exact room.elim
  | infinite negative =>
    have positive : negative = false := room
    subst positive
    exact (min_self length).ge
  | finite negative m =>
    have below := Nat.lt_floor_add_one m.value
    cases negative with
    | false =>
      have fits : ((min ⌊m.value⌋₊ length + 1 : ℕ) : ℚ) ≤ m.value := by simpa [Admits, signed, sliceEnd] using room
      have less : min ⌊m.value⌋₊ length + 1 < ⌊m.value⌋₊ + 1 := by
        have chain := lt_of_le_of_lt fits below
        exact_mod_cast chain
      simp only [sliceEnd, Bool.false_and, Bool.false_eq_true, if_false]
      omega
    | true =>
      have positive : (0 : ℚ) < ((min (sliceEnd (.finite true m) length) length + 1 : ℕ) : ℚ) := by positivity
      have nonneg := m.isMagnitude.1
      have fits : ((min (sliceEnd (.finite true m) length) length + 1 : ℕ) : ℚ) ≤ -m.value := by
        simpa only [Admits, signed, if_true] using room
      linarith

/-! ### The release -/

theorem eligible_eq {input : Input V} (minimum : input.minimumCohortSize ≠ .nan) {row : KeyedMap String V}
    (valid : ∃ cohortSize, input.cohortSize row = .ok cohortSize) : input.eligible row = !input.small row := by
  obtain ⟨cohortSize, size⟩ := valid
  unfold Input.cohortSize at size
  unfold Input.eligible Input.small
  split at size
  · cases size
  · next number converted =>
    split at size
    · cases size
    · next checked =>
      have counted : number ≠ .nan := by
        rintro rfl
        exact checked (Or.inl rfl)
      simp [converted, le, minimum, counted]

omit [Unknown V] in
theorem kinds_nodup {input : Input V} (reviewed : input.Reviewed) : input.kinds.Nodup := by
  unfold Input.kinds
  cases field : input.givenPeriodField with
  | none => exact List.nodup_singleton _
  | some name => exact (reviewed.periodField name field).2.map (Option.some_injective _)

/-- A row is of one period at most. -/
theorem kinds_apart {input : Input V} {row : KeyedMap String V} {kind other : Option String} (first : kind ∈ input.kinds)
    (second : other ∈ input.kinds) (ofFirst : input.ofKind kind row = true) (ofSecond : input.ofKind other row = true) :
    kind = other := by
  unfold Input.kinds at first second
  unfold Input.ofKind at ofFirst ofSecond
  cases field : input.givenPeriodField with
  | none =>
    simp only [field, List.mem_singleton] at first second
    rw [first, second]
  | some name =>
    simp only [field, List.mem_map] at first second
    obtain ⟨period, -, rfl⟩ := first
    obtain ⟨period', -, rfl⟩ := second
    simp only [field, ofPeriod, decide_eq_true_eq] at ofFirst ofSecond
    exact ofFirst.symm.trans ofSecond

theorem kindIndex_eq {input : Input V} (reviewed : input.Reviewed) {row : KeyedMap String V} {k : ℕ}
    (inside : k < input.kinds.length) (of : input.ofKind input.kinds[k] row = true) : input.kindIndex row = k := by
  rw [Input.kindIndex, List.findIdx_eq inside]
  refine ⟨of, ?_⟩
  intro j before
  by_contra also
  have same := kinds_apart (List.getElem_mem _) (List.getElem_mem inside) (by simpa using also) of
  have position := (List.Nodup.getElem_inj_iff (kinds_nodup reviewed)).mp same
  omega

/-- The positions whose groups are released. -/
def Input.released (input : Input V) : List (Fin input.rows.length) :=
  input.kinds.flatMap fun kind =>
    firsts (fun i => input.eligible (input.rows.get i) && input.ofKind kind (input.rows.get i)) (sliceEnd input.topN)

omit [Unknown V] in
theorem filter_rows (input : Input V) (p : KeyedMap String V → Bool) :
    input.rows.filter p = ((List.finRange input.rows.length).filter fun i => p (input.rows.get i)).map input.rows.get := by
  conv_lhs => rw [← List.map_get_finRange input.rows]
  rw [List.filter_map]
  rfl

/-- The slice of the visible groups of a period. -/
theorem slice_visible (input : Input V) (p : KeyedMap String V → Bool) :
    slice input.topN ((input.rows.filter p).map input.project) =
      (firsts (fun i => p (input.rows.get i)) (sliceEnd input.topN)).map fun i => input.project (input.rows.get i) := by
  rw [filter_rows, slice, firsts, List.map_map, List.length_map, List.map_take]
  rfl

theorem groups_eq {input : Input V} (reviewed : input.Reviewed) {visible : List (KeyedMap String V)}
    (shown : visible = (input.rows.filter input.eligible).map input.project) :
    (match input.givenPeriodField with
      | some field => input.givenPeriods.flatMap fun period => slice input.topN (visible.filter (ofPeriod field period))
      | none => slice input.topN visible) = input.released.map fun i => input.project (input.rows.get i) := by
  subst shown
  unfold Input.released Input.kinds Input.ofKind
  cases field : input.givenPeriodField with
  | none =>
    simp only [List.flatMap_cons, List.flatMap_nil, List.append_nil, Bool.and_true]
    exact slice_visible input input.eligible
  | some name =>
    have fields := (reviewed.periodField name field).1
    rw [List.flatMap_map, List.map_flatMap]
    refine List.flatMap_congr fun period _ => ?_
    have filtered : ((input.rows.filter input.eligible).map input.project).filter (ofPeriod name period) =
        (input.rows.filter fun row => input.eligible row && ofPeriod name period row).map input.project := by
      rw [List.filter_map, List.filter_filter]
      congr 2
      funext row
      simp only [Function.comp_apply, ofPeriod, read_project fields]
      exact Bool.and_comm _ _
    rw [filtered]
    exact slice_visible input _

theorem released_ordered {input : Input V} (reviewed : input.Reviewed) : input.released.Pairwise input.ByPeriod := by
  have index : ∀ k (inside : k < input.kinds.length), ∀ i ∈ firsts (fun i => input.eligible (input.rows.get i) &&
      input.ofKind input.kinds[k] (input.rows.get i)) (sliceEnd input.topN), input.kindIndex (input.rows.get i) = k := by
    intro k inside i taken
    have both := mem_firsts taken
    simp only [Bool.and_eq_true] at both
    exact kindIndex_eq reviewed inside both.2
  rw [Input.released, List.pairwise_flatMap]
  constructor
  · intro kind member
    obtain ⟨k, inside, rfl⟩ := List.getElem_of_mem member
    refine firsts_sorted.imp_of_mem fun {i j} first second before => ?_
    exact Or.inr ⟨(index k inside i first).trans (index k inside j second).symm, before⟩
  · rw [List.pairwise_iff_getElem]
    intro k l insideK insideL before i first j second
    refine Or.inl ?_
    rw [index k insideK i first, index l insideL j second]
    exact before

theorem releases {input : Input V} (reviewed : input.Reviewed) {shaped : Shaped V}
    (groups : shaped.groups = input.released.map fun i => input.project (input.rows.get i))
    (suppressed : shaped.suppressedGroups = (input.rows.filter input.small).length)
    (cells : shaped.returnedCells = shaped.groups.length * input.outputFields.length) :
    Releases input shaped input.ByPeriod input.released := by
  have ofKind : ∀ kind ∈ input.kinds, (input.released.filter fun i => input.ofKind kind (input.rows.get i)) =
      firsts (fun i => input.eligible (input.rows.get i) && input.ofKind kind (input.rows.get i)) (sliceEnd input.topN) := by
    intro kind member
    exact filter_firsts (kinds_nodup reviewed) (fun i => input.eligible (input.rows.get i))
      (fun kind i => input.ofKind kind (input.rows.get i)) (fun i k first k' second => kinds_apart first second) member
  have ofReleased : ∀ i ∈ input.released, ∃ kind ∈ input.kinds,
      input.eligible (input.rows.get i) = true ∧ input.ofKind kind (input.rows.get i) = true := by
    intro i taken
    obtain ⟨kind, member, here⟩ := List.mem_flatMap.mp taken
    have both := mem_firsts here
    exact ⟨kind, member, by simpa using both⟩
  refine ⟨groups, released_ordered reviewed, ?_, ?_, ?_, ?_, suppressed, ?_⟩
  · intro i taken
    obtain ⟨-, -, eligible, -⟩ := ofReleased i taken
    exact eligible
  · intro i taken
    obtain ⟨kind, member, -, of⟩ := ofReleased i taken
    exact ⟨kind, member, of⟩
  · intro kind member
    rw [ofKind kind member, length_firsts]
    exact admits_slice reviewed.cap _
  · intro kind member i eligible of left
    have both : (input.eligible (input.rows.get i) && input.ofKind kind (input.rows.get i)) = true := by
      rw [eligible, of]
      rfl
    have out : i ∉ firsts (fun i => input.eligible (input.rows.get i) && input.ofKind kind (input.rows.get i))
        (sliceEnd input.topN) := fun here => left (List.mem_flatMap.mpr ⟨kind, member, here⟩)
    constructor
    · rw [ofKind kind member, length_firsts]
      intro room
      refine out (mem_firsts_of_room (fun i => input.eligible (input.rows.get i) &&
        input.ofKind kind (input.rows.get i)) both ?_)
      rw [length_firsts]
      exact length_le_of_room reviewed.cap room
    · intro j taken ofJ
      refine firsts_before (fun i => input.eligible (input.rows.get i) &&
        input.ofKind kind (input.rows.get i)) both out ?_
      rw [← ofKind kind member]
      exact List.mem_filter.mpr ⟨taken, ofJ⟩
  · have sizes : shaped.groups.map KeyedMap.size = List.replicate shaped.groups.length input.outputFields.length := by
      rw [groups, List.map_map, List.length_map]
      refine List.eq_replicate_iff.mpr ⟨by simp, ?_⟩
      intro size member
      obtain ⟨i, -, rfl⟩ := List.mem_map.mp member
      exact size_project reviewed.fields _
    rw [cells, sizes, List.sum_replicate_nat]

/-- What is released and reported is exact, the periods in the order of their list. -/
theorem releases_exactly (input : Input V) (reviewed : input.Reviewed) (shaped : Shaped V)
    (returned : shapePrivacySuppressedGroups input = .ok shaped) : ExactRelease input shaped input.ByPeriod := by
  unfold shapePrivacySuppressedGroups at returned
  split at returned
  · cases returned
  split at returned
  · cases returned
  cases seen : input.visible 0 input.rows with
  | error thrown =>
    rw [seen] at returned
    cases returned
  | ok result =>
    have valid := valid_of_visible seen
    rw [visible_eq valid] at seen
    cases seen
    rw [visible_eq valid] at returned
    simp only [bind, Except.bind, pure, Except.pure, Except.ok.injEq] at returned
    have shown : (input.rows.filter fun row => !input.small row).map input.project =
        (input.rows.filter input.eligible).map input.project := by
      congr 1
      refine List.filter_congr fun row member => ?_
      exact (eligible_eq reviewed.minimum (valid row member)).symm
    have groups := groups_eq reviewed shown
    rw [← returned]
    exact ⟨input.released, releases reviewed groups (Nat.zero_add _) rfl⟩

/-- When the rows are shaped at all. -/
theorem shape_returns_iff (input : Input V) : (∃ shaped, shapePrivacySuppressedGroups input = .ok shaped) ↔
    (input.givenPeriodField.isSome → input.givenPeriods ≠ []) ∧
      (∀ count ∈ input.periodCounts, exceeds count input.maximumGroups = false) ∧
        ∀ row ∈ input.rows, ∃ cohortSize, input.cohortSize row = .ok cohortSize := by
  unfold shapePrivacySuppressedGroups
  split
  · next unlisted => simp [unlisted]
  · next listed =>
    have someListed : input.givenPeriodField.isSome → input.givenPeriods ≠ [] := fun given none => listed ⟨given, none⟩
    split
    · next crowded =>
      obtain ⟨count, member, exceeding⟩ := List.any_eq_true.mp crowded
      constructor
      · rintro ⟨shaped, ⟨⟩⟩
      · rintro ⟨-, within, -⟩
        rw [within count member] at exceeding
        cases exceeding
    · next within =>
      have counts : ∀ count ∈ input.periodCounts, exceeds count input.maximumGroups = false := by simpa using within
      refine ⟨?_, ?_⟩
      · rintro ⟨shaped, returned⟩
        refine ⟨someListed, counts, ?_⟩
        cases seen : input.visible 0 input.rows with
        | error thrown =>
          rw [seen] at returned
          cases returned
        | ok result => exact valid_of_visible seen
      · rintro ⟨-, -, valid⟩
        rw [visible_eq valid]
        exact ⟨_, rfl⟩

end

/-! ### Rows of two periods -/

/-- A value that is no text of a numeral. -/
inductive Cell where
  | undefined
  | number (value : Number)
  | text (value : String)
  deriving DecidableEq

instance : Unknown Cell where
  inherited _ := .undefined
  number
    | .number value => some value
    | _ => some .nan
  text
    | .text value => some value
    | _ => none

def whole (n : ℕ) (small : n ≤ 2 ^ 53) : Number := .finite false ⟨n, isMagnitude_natCast small⟩

def regionRow (region period : String) (cohort : Number) : KeyedMap String Cell :=
  KeyedMap.ofList [("region", .text region), ("cohort", .number cohort), ("period", .text period)]

def group (region period : String) : KeyedMap String Cell :=
  KeyedMap.ofList [("region", .text region), ("period", .text period)]

def five : Number := whole 5 (by norm_num)

def west : KeyedMap String Cell := regionRow "west" "period_1" (whole 12 (by norm_num))
def tiny : KeyedMap String Cell := regionRow "tiny" "period_1" (whole 2 (by norm_num))
def east : KeyedMap String Cell := regionRow "east" "period_2" (whole 9 (by norm_num))

def regions : Input Cell :=
  { rows := [west, tiny, east]
    outputFields := ["region", "period"]
    cohortField := "cohort"
    minimumCohortSize := five
    maximumGroups := five
    topN := whole 1 (by norm_num)
    periodField := some "period"
    periods := some ["period_1", "period_2"] }

theorem regions_reviewed : regions.Reviewed where
  minimum := Number.noConfusion
  cap := by simp [regions, Admits, signed, whole]
  fields := by decide
  periodField := by
    rintro field ⟨⟩
    decide

theorem regions_released_exactly : ExactRelease regions
    ⟨[group "west" "period_1", group "east" "period_2"], 1, 4⟩ regions.ByPeriod :=
  releases_exactly regions regions_reviewed _ (by with_unfolding_all rfl)

/-- The rows of the second period first. -/
def turned : Input Cell := { regions with rows := [east, west] }
def withoutPeriod : Input Cell := { regions with outputFields := ["region"] }
def twicePeriod : Input Cell := { regions with rows := [west], periods := some ["period_1", "period_1"] }
def twiceRegion : Input Cell := { regions with rows := [west], outputFields := ["region", "region", "period"] }
def belowZero : Input Cell := { regions with periodField := none, topN := negate (whole 1 (by norm_num)) }
def unordered : Input Cell := { regions with rows := [tiny], minimumCohortSize := .nan }

/-- The groups are not in the order of the rows of two periods. And a period field that is no
    output field, a period or a field twice, a negative cap and a minimum that is no number
    are not released exactly in any order. -/
theorem releases_out_of_order :
    (∃ shaped, shapePrivacySuppressedGroups turned = .ok shaped ∧ ¬ ExactRelease turned shaped (· < ·)) ∧
      (∃ shaped, shapePrivacySuppressedGroups withoutPeriod = .ok shaped ∧ ¬ ExactRelease withoutPeriod shaped (· ≠ ·)) ∧
      (∃ shaped, shapePrivacySuppressedGroups twicePeriod = .ok shaped ∧ ¬ ExactRelease twicePeriod shaped (· ≠ ·)) ∧
      (∃ shaped, shapePrivacySuppressedGroups twiceRegion = .ok shaped ∧ ¬ ExactRelease twiceRegion shaped (· ≠ ·)) ∧
      (∃ shaped, shapePrivacySuppressedGroups belowZero = .ok shaped ∧ ¬ ExactRelease belowZero shaped (· ≠ ·)) ∧
      ∃ shaped, shapePrivacySuppressedGroups unordered = .ok shaped ∧ ¬ ExactRelease unordered shaped (· ≠ ·) := by
  refine ⟨?_, ?_, ?_, ?_, ?_, ?_⟩
  · refine ⟨⟨[group "west" "period_1", group "east" "period_2"], 0, 4⟩, by with_unfolding_all rfl, ?_⟩
    rintro ⟨released, exact⟩
    have length : released.length = 2 := by simpa using (congrArg List.length exact.groups).symm
    obtain ⟨i, j, rfl⟩ := List.length_eq_two.mp length
    have before : i < j := by simpa using exact.ordered
    have first : i = ⟨0, by decide⟩ := by
      have inside : j.val < 2 := j.isLt
      have order : i.val < j.val := before
      have zero : i.val = 0 := by omega
      exact Fin.ext zero
    have groups := exact.groups
    rw [first] at groups
    exact absurd (List.cons.inj groups).1 (by with_unfolding_all decide)
  · refine ⟨⟨[], 1, 0⟩, by with_unfolding_all rfl, ?_⟩
    rintro ⟨released, exact⟩
    have none : released = [] := by simpa using exact.groups.symm
    subst none
    have room := (exact.complete (some "period_1") (by decide) ⟨0, by decide⟩ (by with_unfolding_all decide)
      (by decide) (by simp)).1
    refine room ?_
    simp [withoutPeriod, regions, Admits, signed, whole]
  · refine ⟨⟨[group "west" "period_1", group "west" "period_1"], 0, 4⟩, by with_unfolding_all rfl, ?_⟩
    rintro ⟨released, exact⟩
    have length : released.length = 2 := by simpa using (congrArg List.length exact.groups).symm
    obtain ⟨i, j, rfl⟩ := List.length_eq_two.mp length
    have apart : i ≠ j := by simpa using exact.ordered
    have insideI : i.val < 1 := i.isLt
    have insideJ : j.val < 1 := j.isLt
    exact apart (Fin.ext (by omega))
  · refine ⟨⟨[group "west" "period_1"], 0, 3⟩, by with_unfolding_all rfl, ?_⟩
    rintro ⟨released, exact⟩
    exact absurd exact.cells (by decide)
  · refine ⟨⟨[group "west" "period_1"], 1, 2⟩, by with_unfolding_all rfl, ?_⟩
    rintro ⟨released, exact⟩
    have capped := exact.capped none (by decide)
    have negative : (((released.filter fun i => belowZero.ofKind none (belowZero.rows.get i)).length : ℕ) : ℚ) ≤ -1 := by
      simpa [belowZero, Admits, signed, negate, whole] using capped
    have nonneg : (0 : ℚ) ≤ ((released.filter fun i => belowZero.ofKind none (belowZero.rows.get i)).length : ℕ) :=
      Nat.cast_nonneg _
    linarith
  · refine ⟨⟨[group "tiny" "period_1"], 0, 2⟩, by with_unfolding_all rfl, ?_⟩
    rintro ⟨released, exact⟩
    have length : released.length = 1 := by simpa using (congrArg List.length exact.groups).symm
    obtain ⟨i, rfl⟩ := List.length_eq_one_iff.mp length
    have eligible := exact.cohorts i List.mem_cons_self
    simp [Input.eligible, unordered, le] at eligible

end SynapsorRunner.SuppressedGroups
