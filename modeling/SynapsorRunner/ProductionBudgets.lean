import SynapsorRunner.ExploreBudgets
import SynapsorRunner.PrivacyReleases

/-!
The budget ledger of Explore in the production Postgres store, beside the one of the
SQLite store. A production reservation has a principal and a tenant scope with limits of
their own; when both are the scope and the limits of a local reservation, the ledgers are
meant to decide alike. They do not when the clock goes back, since Postgres also counts
what is dated later, and not when a limit on variants was lowered below what is in use,
since SQLite then refuses a variant that is counted already (`ledgers_alike`).
-/
namespace SynapsorRunner.ProductionBudgets
open SynapsorRunner.Proposals SynapsorRunner.Runs SynapsorRunner.SlidingWindows SynapsorRunner.ExploreBudgets
open SynapsorRunner.Privacy (ScopeKind)
open SynapsorRunner.Privacy.Postgres (sha256Hex)
set_option linter.unusedSimpArgs false

/-! ### The Postgres ledger -/

/-- A row of `production_explore_budget_reservations`. -/
abbrev ProductionRow := ScopeKind × Reservation

/-- `ProductionExploreBudgetReservationInput`. -/
structure ProductionInput where
  reservationId : String
  principalScope : String
  tenantScope : String
  resource : String
  variant : String
  requiresDifferencing : Bool
  estimatedCells : ℕ
  principalLimits : BudgetLimits
  tenantLimits : BudgetLimits
  now : ℤ
  deriving DecidableEq, Repr

/-- `/^explore_budget_[a-f0-9]{32}$/`. -/
def budgetId (text : String) : Bool :=
  startsWith text "explore_budget_" && decide (text.length = 47) &&
    (text.toList.drop 15).all fun c => c.isDigit || ('a' ≤ c && c ≤ 'f')

def limitsValid (limits : BudgetLimits) : Prop := ∀ value ∈ limits.values, 1 ≤ value ∧ value ≤ maxSafeInteger

instance (limits : BudgetLimits) : Decidable (limitsValid limits) := inferInstanceAs (Decidable (∀ _ ∈ _, _))

def assertProductionExploreBudgetInput (input : ProductionInput) : Except StoreError Unit := do
  ensure (budgetId input.reservationId = true ∧ sha256Hex input.principalScope = true ∧ sha256Hex input.tenantScope = true ∧
      sha256Hex input.variant = true ∧ input.resource ≠ "" ∧ input.estimatedCells ≤ maxSafeInteger)
    (.proposalStore "EXPLORE_BUDGET_RESERVATION_INVALID" "Production Explore budget reservation input is invalid.")
  ensure (limitsValid input.principalLimits ∧ limitsValid input.tenantLimits)
    (.proposalStore "EXPLORE_BUDGET_RESERVATION_INVALID" "Production Explore budget limits must be positive safe integers.")

/-- The cells of a row that count. -/
def countedCells (r : Reservation) : ℕ :=
  match r.status with
  | .pending => r.reservedCells
  | .released => r.accountedCells
  | .notReleased => 0

/-- The rows of a scope that are not older than a day. -/
def scopeRows (rows : List ProductionRow) (kind : ScopeKind) (scope : String) (now : ℤ) : List Reservation :=
  ((rows.filter fun r => decide (r.1 = kind)).map Prod.snd).filter fun r =>
    ofScope scope r && decide (now - day ≤ r.createdAt)

def scopeVariants (rows : List Reservation) (resource : String) : List String :=
  ((rows.filter fun r => countsFor resource r && decide (r.status = .pending ∨ r.status = .released)).map
    (·.variant)).dedup

def scopeUsage (rows : List Reservation) (resource : String) (now : ℤ) : Usage :=
  { queryCount := rows.length
    queriesLastMinute := (rows.filter fun r => decide (now - minute ≤ r.createdAt)).length
    extractedCells := ((rows.map countedCells).sum : ℕ)
    differencingAttempts := (scopeVariants rows resource).length }

def productionExploreBudgetDenial (limits : BudgetLimits) (usage : Usage) (variantAlreadyCounted requiresDifferencing : Bool)
    (estimatedCells : ℕ) : Option BudgetCode :=
  if limits.maxQueriesPerSession ≤ usage.queryCount then some .queryBudgetExhausted
  else if limits.rateLimitPerMinute ≤ usage.queriesLastMinute then some .rateLimitExhausted
  else if limits.maxResponseCells < estimatedCells ∨
      (limits.maxExtractedCellsPerSession : ℚ) < usage.extractedCells + estimatedCells then
    some .extractionBudgetExhausted
  else if requiresDifferencing = true ∧ variantAlreadyCounted = false ∧
      limits.maxDifferencingQueries ≤ usage.differencingAttempts then
    some .differencingBudgetExhausted
  else none

/-- The messages of `productionExploreBudgetDenial`. -/
def productionMessage : BudgetCode → String
  | .queryBudgetExhausted => "The rolling 24-hour query budget is exhausted."
  | .rateLimitExhausted => "The requests-per-minute budget is exhausted."
  | .extractionBudgetExhausted => "The rolling 24-hour extracted-cell budget would be exceeded."
  | .differencingBudgetExhausted => "The rolling 24-hour differencing budget is exhausted."

inductive ProductionDecision where
  | admitted (principalUsage tenantUsage : Usage) (principalVariantCounted tenantVariantCounted : Bool)
  | refused (code : BudgetCode) (message : String) (exhaustedScope : ScopeKind) (usage : Usage)
  deriving DecidableEq, Repr

/-- What one scope says: its usage, whether the variant is counted, and the refusal. -/
structure ScopeCheck where
  usage : Usage
  variantAlreadyCounted : Bool
  denied : Option BudgetCode

def checkScope (rows : List ProductionRow) (input : ProductionInput) (kind : ScopeKind) (scope : String) (limits : BudgetLimits) :
    ScopeCheck :=
  let own := scopeRows rows kind scope input.now
  let usage := scopeUsage own input.resource input.now
  let counted := (scopeVariants own input.resource).contains input.variant
  ⟨usage, counted, productionExploreBudgetDenial limits usage counted input.requiresDifferencing input.estimatedCells⟩

/-- The row of a scope. -/
def productionRow (input : ProductionInput) (kind : ScopeKind) (scope : String) : ProductionRow :=
  (kind, { reservationId := input.reservationId, scope, resource := input.resource, variant := input.variant
           requiresDifferencing := input.requiresDifferencing, differencingCounted := input.requiresDifferencing
           reservedCells := input.estimatedCells, accountedCells := input.estimatedCells, status := .pending
           createdAt := input.now, completedAt := none })

def usageAfterProductionReservation (check : ScopeCheck) (input : ProductionInput) : Usage :=
  { queryCount := check.usage.queryCount + 1, queriesLastMinute := check.usage.queriesLastMinute + 1
    extractedCells := check.usage.extractedCells + input.estimatedCells
    differencingAttempts := check.usage.differencingAttempts +
      (if input.requiresDifferencing && !check.variantAlreadyCounted then 1 else 0) }

/-- `claimProductionExploreBudgetReservation`, under the locks of both scopes. -/
def claimProductionExploreBudgetReservation (rows : List ProductionRow) (input : ProductionInput) :
    Except StoreError (ProductionDecision × List ProductionRow) := do
  assertProductionExploreBudgetInput input
  let principal := checkScope rows input .principal input.principalScope input.principalLimits
  let tenant := checkScope rows input .tenant input.tenantScope input.tenantLimits
  match principal.denied, tenant.denied with
  | some code, _ => pure (.refused code (productionMessage code) .principal principal.usage, rows)
  | none, some code => pure (.refused code (productionMessage code) .tenant tenant.usage, rows)
  | none, none => do
    ensure (∀ r ∈ rows, r.2.reservationId ≠ input.reservationId)
      (.constraint "production_explore_budget_reservations.reservation_id")
    pure (.admitted (usageAfterProductionReservation principal input) (usageAfterProductionReservation tenant input)
      principal.variantAlreadyCounted tenant.variantAlreadyCounted,
      rows ++ [productionRow input .principal input.principalScope, productionRow input .tenant input.tenantScope])

/-- `completeProductionExploreBudgetReservation`: a reservation has a row for each of
    its scopes. -/
def completeProductionExploreBudgetReservation (rows : List ProductionRow) (input : CompletionInput) :
    Except StoreError (CompletionDecision × List ProductionRow) := do
  ensure (input.returnedCells ≤ maxSafeInteger)
    (.proposalStore "EXPLORE_BUDGET_RESERVATION_INVALID" "Production Explore completion accounting is invalid.")
  let own := rows.filter fun r => decide (r.2.reservationId = input.reservationId)
  if own.length ≠ 2 then pure (.reservationMissing, rows)
  else if own.all (fun r => decide (r.2.status ≠ .pending)) then
    pure (if own.all fun r => decide (completionOf input r.2 = .completed) then .completed else .reservationAlreadyFinalized, rows)
  else if own.any (fun r => decide (r.2.status ≠ .pending)) then pure (.reservationAlreadyFinalized, rows)
  else
    let exceeded := input.resultReleased && own.any fun r => decide (r.2.reservedCells < input.returnedCells)
    pure (if exceeded then .responseExceededReservation else .completed,
      rows.map fun r => if r.2.reservationId = input.reservationId ∧ r.2.status = .pending then
        (r.1, if exceeded then { r.2 with
            status := .notReleased, differencingCounted := false, accountedCells := 0, completedAt := some input.completedAt }
          else { r.2 with
            status := if input.resultReleased then .released else .notReleased
            differencingCounted := input.resultReleased && r.2.requiresDifferencing
            accountedCells := if input.resultReleased then input.returnedCells else 0
            completedAt := some input.completedAt }) else r)

def productionRetention : ℤ := 7 * day

/-- `runProductionExploreMaintenance` on the reservations. -/
def maintained (now : ℤ) (rows : List ProductionRow) : List ProductionRow :=
  rows.filter fun r => !decide (r.2.createdAt < now - productionRetention)

/-- A local reservation as a production one: both scopes are its scope. -/
def production (input : ReservationInput) : ProductionInput :=
  { reservationId := input.reservationId, principalScope := input.scope, tenantScope := input.scope
    resource := input.resource, variant := input.variant, requiresDifferencing := input.requiresDifferencing
    estimatedCells := input.estimatedCells, principalLimits := input.limits, tenantLimits := input.limits, now := input.now }

/-! ### Both ledgers -/

/-- What a ledger makes of a reservation. -/
inductive Verdict where
  | admitted
  | refused (code : BudgetCode)
  | thrown
  deriving DecidableEq, Repr

def localVerdict (rows : List Reservation) (input : ReservationInput) : Verdict :=
  match claimExploreBudgetReservation rows [] input with
  | .error _ => .thrown
  | .ok (.admitted _ _, _) => .admitted
  | .ok (.refused code _ _, _) => .refused code

def productionVerdict (rows : List ProductionRow) (input : ProductionInput) : Verdict :=
  match claimProductionExploreBudgetReservation rows input with
  | .error _ => .thrown
  | .ok (.admitted .., _) => .admitted
  | .ok (.refused code _ _ _, _) => .refused code

/-- What a call leaves, which is what was there when it throws. -/
def rowsAfter {α β : Type} (before : β) : Except StoreError (α × β) → β
  | .error _ => before
  | .ok (_, rows) => rows

/-- The two ledgers, and the time before which rows may have been deleted from them. -/
structure Ledgers where
  sqlite : List Reservation
  postgres : List ProductionRow
  horizon : ℤ
  deriving DecidableEq

def Ledgers.empty (since : ℤ) : Ledgers := ⟨[], [], since⟩

inductive LedgerEvent where
  | reserve (input : ReservationInput)
  | complete (input : CompletionInput)
  | maintain (now : ℤ)

def Ledgers.step (s : Ledgers) : LedgerEvent → Ledgers
  | .reserve input =>
    { sqlite := rowsAfter s.sqlite (claimExploreBudgetReservation s.sqlite [] input)
      postgres := rowsAfter s.postgres (claimProductionExploreBudgetReservation s.postgres (production input))
      horizon := max s.horizon (input.now - retention) }
  | .complete input =>
    { s with
      sqlite := rowsAfter s.sqlite (completeExploreBudgetReservation s.sqlite input)
      postgres := rowsAfter s.postgres (completeProductionExploreBudgetReservation s.postgres input) }
  | .maintain now => { s with postgres := maintained now s.postgres, horizon := max s.horizon (now - productionRetention) }

/-- The ledgers decide alike on an event. -/
def Ledgers.Alike (s : Ledgers) : LedgerEvent → Prop
  | .reserve input => localVerdict s.sqlite input = productionVerdict s.postgres (production input)
  | _ => True

/-! ### What the ledgers share -/

def since (time : ℤ) (r : Reservation) : Bool := decide (time ≤ r.createdAt)

def ofKind (rows : List ProductionRow) (kind : ScopeKind) : List Reservation :=
  (rows.filter fun r => decide (r.1 = kind)).map Prod.snd

/-- The accounted cells of a row are the cells that count. -/
structure Consistent (r : Reservation) : Prop where
  pending : r.status = .pending → r.accountedCells = r.reservedCells
  withheld : r.status = .notReleased → r.accountedCells = 0 ∧ r.differencingCounted = false

/-- Both kinds of scope have the same rows, and from the horizon on SQLite has them too. -/
structure Tied (s : Ledgers) (own : List Reservation) : Prop where
  rows : ∀ kind, ofKind s.postgres kind = own
  distinct : (own.map (·.reservationId)).Nodup
  late : own.filter (since s.horizon) = s.sqlite.filter (since s.horizon)
  consistent : ∀ r ∈ own, Consistent r

theorem mem_ofKind {rows : List ProductionRow} {kind : ScopeKind} {r : Reservation} :
    r ∈ ofKind rows kind ↔ (kind, r) ∈ rows := by
  constructor
  · intro member
    obtain ⟨⟨k, r'⟩, listed, rfl⟩ := List.mem_map.mp member
    obtain ⟨here, same⟩ := List.mem_filter.mp listed
    obtain rfl : k = kind := of_decide_eq_true same
    exact here
  · intro member
    exact List.mem_map.mpr ⟨(kind, r), List.mem_filter.mpr ⟨member, decide_eq_true rfl⟩, rfl⟩

theorem Tied.mem {s : Ledgers} {own : List Reservation} (tied : Tied s own) {row : ProductionRow} (member : row ∈ s.postgres) :
    row.2 ∈ own := by
  rw [← tied.rows row.1]
  exact mem_ofKind.mpr member

theorem Tied.row {s : Ledgers} {own : List Reservation} (tied : Tied s own) {r : Reservation} (member : r ∈ own)
    (kind : ScopeKind) : (kind, r) ∈ s.postgres := by
  rw [← tied.rows kind] at member
  exact mem_ofKind.mp member

theorem filter_filter_of_imp {α : Type} {p q : α → Bool} {l : List α} (narrower : ∀ a ∈ l, q a = true → p a = true) :
    (l.filter p).filter q = l.filter q := by
  rw [List.filter_filter]
  refine List.filter_congr fun a member => ?_
  by_cases chosen : q a = true
  · rw [chosen, narrower a member chosen, Bool.and_self]
  · rw [Bool.not_eq_true] at chosen
    rw [chosen, Bool.false_and]

theorem filter_since {l : List Reservation} {time later : ℤ} (order : time ≤ later) :
    (l.filter (since time)).filter (since later) = l.filter (since later) := by
  refine filter_filter_of_imp fun r _ inside => ?_
  simp only [since, decide_eq_true_eq] at inside ⊢
  omega

theorem late_mono {own rows : List Reservation} {time later : ℤ} (order : time ≤ later)
    (same : own.filter (since time) = rows.filter (since time)) : own.filter (since later) = rows.filter (since later) := by
  rw [← filter_since order, same, filter_since order]

theorem pruned_late {rows : List Reservation} {time now : ℤ} (order : now - retention ≤ time) :
    (pruned now rows).filter (since time) = rows.filter (since time) := by
  refine filter_filter_of_imp fun r _ inside => ?_
  simp only [since, decide_eq_true_eq] at inside
  simp only [Bool.not_eq_true', decide_eq_false_iff_not]
  omega

/-! ### A completion -/

theorem completeRow_createdAt (input : CompletionInput) (r : Reservation) : (completeRow input r).createdAt = r.createdAt := by
  unfold completeRow completed
  split
  · split <;> rfl
  · rfl

theorem completeRow_id (input : CompletionInput) (r : Reservation) : (completeRow input r).reservationId = r.reservationId := by
  unfold completeRow completed
  split
  · split <;> rfl
  · rfl

theorem completeRow_other {input : CompletionInput} {r : Reservation}
    (other : ¬ (r.reservationId = input.reservationId ∧ r.status = .pending)) : completeRow input r = r := if_neg other

theorem consistent_completeRow {input : CompletionInput} {r : Reservation} (consistent : Consistent r) :
    Consistent (completeRow input r) := by
  by_cases own : r.reservationId = input.reservationId ∧ r.status = .pending
  · have finished : completeRow input r = completed input r := if_pos own
    rw [finished]
    refine ⟨fun pending => absurd pending (completed_not_pending input r), ?_⟩
    unfold completed
    split
    · exact fun _ => ⟨rfl, rfl⟩
    · cases released : input.resultReleased
      · exact fun _ => ⟨rfl, rfl⟩
      · exact fun withheld => nomatch withheld
  · rw [completeRow_other own]
    exact consistent

theorem map_eq_self {α : Type} {f : α → α} {l : List α} (same : ∀ a ∈ l, f a = a) : l.map f = l :=
  (List.map_congr_left same).trans (List.map_id' l)

/-- A completion of the SQLite ledger. -/
theorem sqlite_complete (rows : List Reservation) (input : CompletionInput) :
    rowsAfter rows (completeExploreBudgetReservation rows input) =
      if input.returnedCells ≤ maxSafeInteger then rows.map (completeRow input) else rows := by
  unfold completeExploreBudgetReservation ensure
  by_cases safe : input.returnedCells ≤ maxSafeInteger
  · rw [if_pos safe, if_pos safe]
    cases found : rows.find? fun r => decide (r.reservationId = input.reservationId) with
    | none =>
      have missing := List.find?_eq_none.mp found
      have same : rows.map (completeRow input) = rows := by
        refine map_eq_self fun r member => completeRow_other ?_
        rintro ⟨own, _⟩
        exact missing r member (decide_eq_true own)
      exact same.symm
    | some r => rfl
  · rw [if_neg safe, if_neg safe]
    rfl

/-- A completion of the Postgres ledger, where a reservation has both of its rows. -/
theorem postgres_complete {rows : List ProductionRow} {input : CompletionInput}
    (alone : ∀ r ∈ rows, ∀ r' ∈ rows, r.2.reservationId = input.reservationId → r'.2.reservationId = input.reservationId →
      r.2 = r'.2)
    (both : ∀ r ∈ rows, r.2.reservationId = input.reservationId →
      (rows.filter fun r => decide (r.2.reservationId = input.reservationId)).length = 2) :
    rowsAfter rows (completeProductionExploreBudgetReservation rows input) =
      if input.returnedCells ≤ maxSafeInteger then rows.map fun r => (r.1, completeRow input r.2) else rows := by
  have idle : (∀ r ∈ rows, ¬ (r.2.reservationId = input.reservationId ∧ r.2.status = .pending)) →
      (rows.map fun r => (r.1, completeRow input r.2)) = rows := by
    intro other
    refine map_eq_self fun r member => ?_
    rw [completeRow_other (other r member)]
  unfold completeProductionExploreBudgetReservation ensure
  by_cases safe : input.returnedCells ≤ maxSafeInteger
  · rw [if_pos safe, if_pos safe]
    simp only [bind, Except.bind, pure, Except.pure]
    split
    · rename_i few
      refine (idle ?_).symm
      rintro r member ⟨own, _⟩
      exact few (both r member own)
    split
    · rename_i final
      refine (idle ?_).symm
      rintro r member ⟨own, pending⟩
      have done := List.all_eq_true.mp final r (List.mem_filter.mpr ⟨member, decide_eq_true own⟩)
      exact of_decide_eq_true done pending
    split
    · rename_i final
      obtain ⟨r, chosen, done⟩ := List.any_eq_true.mp final
      obtain ⟨here, own⟩ := List.mem_filter.mp chosen
      refine (idle ?_).symm
      rintro r' member ⟨own', pending⟩
      rw [alone r' member r here own' (of_decide_eq_true own)] at pending
      exact of_decide_eq_true done pending
    · refine List.map_congr_left fun r member => ?_
      by_cases own : r.2.reservationId = input.reservationId ∧ r.2.status = .pending
      · rw [if_pos own, completeRow, if_pos own, completed]
        have exceeds : ((rows.filter fun r => decide (r.2.reservationId = input.reservationId)).any fun r =>
            decide (r.2.reservedCells < input.returnedCells)) = decide (r.2.reservedCells < input.returnedCells) := by
          rw [Bool.eq_iff_iff, List.any_eq_true]
          constructor
          · rintro ⟨r', chosen, much⟩
            obtain ⟨here, own'⟩ := List.mem_filter.mp chosen
            rw [alone r member r' here own.1 (of_decide_eq_true own')]
            exact much
          · intro much
            exact ⟨r, List.mem_filter.mpr ⟨member, decide_eq_true own.1⟩, much⟩
        rw [exceeds]
        by_cases much : input.resultReleased = true ∧ r.2.reservedCells < input.returnedCells
        · rw [if_pos much, much.1, decide_eq_true much.2]
          rfl
        · have fits : (input.resultReleased && decide (r.2.reservedCells < input.returnedCells)) = false := by
            rw [Bool.eq_false_iff]
            intro both
            rw [Bool.and_eq_true, decide_eq_true_eq] at both
            exact much both
          rw [if_neg much, fits]
          rfl
      · rw [if_neg own, completeRow_other own]
  · rw [if_neg safe, if_neg safe]
    rfl

theorem ofKind_map (f : Reservation → Reservation) (rows : List ProductionRow) (kind : ScopeKind) :
    ofKind (rows.map fun r => (r.1, f r.2)) kind = (ofKind rows kind).map f := by
  unfold ofKind
  rw [List.filter_map, List.map_map, List.map_map]
  rfl

theorem Tied.unique {s : Ledgers} {own : List Reservation} (tied : Tied s own) {r r' : Reservation} (here : r ∈ own)
    (there : r' ∈ own) (same : r.reservationId = r'.reservationId) : r = r' :=
  List.inj_on_of_nodup_map tied.distinct here there same

/-- The rows of a reservation, one of each kind. -/
theorem Tied.count {s : Ledgers} {own : List Reservation} (tied : Tied s own) {r : Reservation} (member : r ∈ own) :
    (s.postgres.filter fun row => decide (row.2.reservationId = r.reservationId)).length = 2 := by
  have one : ∀ kind, ((s.postgres.filter fun row => decide (row.2.reservationId = r.reservationId)).filter fun row =>
      decide (row.1 = kind)).length = 1 := by
    intro kind
    have swapped : (((s.postgres.filter fun row => decide (row.2.reservationId = r.reservationId)).filter fun row =>
        decide (row.1 = kind)).map Prod.snd) = own.filter fun r' => decide (r'.reservationId = r.reservationId) := by
      rw [← tied.rows kind, ofKind, List.filter_map, List.filter_filter, List.filter_filter]
      refine congrArg (List.map Prod.snd) (List.filter_congr fun row _ => ?_)
      rw [Bool.and_comm]
      rfl
    have once := List.count_eq_one_of_mem tied.distinct (List.mem_map_of_mem (f := (·.reservationId)) member)
    rw [List.count, List.countP_map, List.countP_eq_length_filter] at once
    rw [← List.length_map (f := Prod.snd), swapped]
    refine Eq.trans (congrArg List.length (List.filter_congr fun r' _ => ?_)) once
    rfl
  have split := List.length_eq_length_filter_add
    (l := s.postgres.filter fun row => decide (row.2.reservationId = r.reservationId)) fun row => decide (row.1 = .principal)
  have others : ((s.postgres.filter fun row => decide (row.2.reservationId = r.reservationId)).filter fun row =>
      !decide (row.1 = .principal)) = ((s.postgres.filter fun row => decide (row.2.reservationId = r.reservationId)).filter
        fun row => decide (row.1 = .tenant)) := by
    refine List.filter_congr fun row _ => ?_
    cases row.1 <;> rfl
  rw [others, one, one] at split
  exact split

theorem tied_complete {s : Ledgers} {own : List Reservation} (tied : Tied s own) (input : CompletionInput) :
    ∃ own', Tied (s.step (.complete input)) own' := by
  have alone : ∀ r ∈ s.postgres, ∀ r' ∈ s.postgres, r.2.reservationId = input.reservationId →
      r'.2.reservationId = input.reservationId → r.2 = r'.2 := fun r here r' there first second =>
    tied.unique (tied.mem here) (tied.mem there) (first.trans second.symm)
  have both : ∀ r ∈ s.postgres, r.2.reservationId = input.reservationId →
      (s.postgres.filter fun r => decide (r.2.reservationId = input.reservationId)).length = 2 := by
    intro r here same
    rw [← same]
    exact tied.count (tied.mem here)
  simp only [Ledgers.step]
  rw [sqlite_complete, postgres_complete alone both]
  by_cases safe : input.returnedCells ≤ maxSafeInteger
  · rw [if_pos safe, if_pos safe]
    have dated : since s.horizon ∘ completeRow input = since s.horizon := by
      funext r
      simp only [Function.comp, since, completeRow_createdAt]
    have named : (fun r : Reservation => r.reservationId) ∘ completeRow input = fun r => r.reservationId := by
      funext r
      exact completeRow_id input r
    refine ⟨own.map (completeRow input), fun kind => ?_, ?_, ?_, fun r member => ?_⟩
    · rw [ofKind_map, tied.rows]
    · rw [List.map_map, named]
      exact tied.distinct
    · show (own.map (completeRow input)).filter (since s.horizon) = (s.sqlite.map (completeRow input)).filter (since s.horizon)
      rw [List.filter_map, List.filter_map, dated, tied.late]
    · obtain ⟨r', here, rfl⟩ := List.mem_map.mp member
      exact consistent_completeRow (tied.consistent r' here)
  · rw [if_neg safe, if_neg safe]
    exact ⟨own, tied⟩

theorem tied_maintain {s : Ledgers} {own : List Reservation} (tied : Tied s own) (now : ℤ) :
    ∃ own', Tied (s.step (.maintain now)) own' := by
  refine ⟨own.filter fun r => !decide (r.createdAt < now - productionRetention), fun kind => ?_, ?_, ?_, fun r member => ?_⟩
  · show ofKind (maintained now s.postgres) kind = _
    rw [← tied.rows kind, ofKind, ofKind, maintained, List.filter_map, List.filter_filter, List.filter_filter]
    refine congrArg (List.map Prod.snd) (List.filter_congr fun row _ => ?_)
    rw [Bool.and_comm]
    rfl
  · exact tied.distinct.sublist (List.filter_sublist.map _)
  · show (own.filter _).filter (since (max s.horizon (now - productionRetention))) = s.sqlite.filter _
    rw [filter_filter_of_imp]
    · exact late_mono (le_max_left ..) tied.late
    · intro r _ inside
      simp only [since, decide_eq_true_eq] at inside
      simp only [Bool.not_eq_true', decide_eq_false_iff_not]
      omega
  · exact tied.consistent r (List.mem_filter.mp member).1

/-! ### A reservation -/

theorem countedCells_eq {r : Reservation} (consistent : Consistent r) : countedCells r = r.accountedCells := by
  unfold countedCells
  cases state : r.status with
  | pending => exact (consistent.pending state).symm
  | released => rfl
  | notReleased => exact (consistent.withheld state).1.symm

/-- A row that counts toward the variants is not withheld. -/
theorem counts_status {r : Reservation} {resource : String} (consistent : Consistent r) :
    (countsFor resource r && decide (r.status = .pending ∨ r.status = .released)) = countsFor resource r := by
  cases state : r.status with
  | pending => simp
  | released => simp
  | notReleased =>
    have withheld := (consistent.withheld state).2
    simp [countsFor, withheld]

/-- The rows that a reservation looks at, when both ledgers still have them and none is
    dated later. -/
theorem recent_eq_scopeRows {s : Ledgers} {own : List Reservation} (tied : Tied s own) {input : ReservationInput}
    (reach : s.horizon ≤ input.now - day) (past : ∀ r ∈ s.postgres, r.2.scope = input.scope → r.2.createdAt ≤ input.now)
    (kind : ScopeKind) :
    recent (pruned input.now s.sqlite) input = scopeRows s.postgres kind input.scope input.now := by
  have shorter : day ≤ retention := day_le_retention
  have kept : recent (pruned input.now s.sqlite) input = recent s.sqlite input := by
    refine filter_filter_of_imp fun r _ inside => ?_
    simp only [inDay, within, Bool.and_eq_true, decide_eq_true_eq] at inside
    simp only [Bool.not_eq_true', decide_eq_false_iff_not]
    omega
  have later : ∀ r : Reservation, (ofScope input.scope r && inDay input.now r) = true → since s.horizon r = true := by
    intro r inside
    simp only [inDay, within, Bool.and_eq_true, decide_eq_true_eq] at inside
    simp only [since, decide_eq_true_eq]
    omega
  have shared : recent s.sqlite input = recent own input := by
    unfold recent
    rw [← filter_filter_of_imp (l := s.sqlite) fun r _ => later r, ← tied.late, filter_filter_of_imp fun r _ => later r]
  have listed : scopeRows s.postgres kind input.scope input.now =
      own.filter fun r => ofScope input.scope r && decide (input.now - day ≤ r.createdAt) := by
    rw [← tied.rows kind]
    rfl
  rw [kept, shared, listed, recent]
  refine List.filter_congr fun r member => ?_
  by_cases here : ofScope input.scope r = true
  · have dated := past (.principal, r) (tied.row member .principal) (of_decide_eq_true here)
    simp only [here, Bool.true_and, inDay, within]
    exact decide_eq_decide.mpr ⟨fun inside => inside.1, fun late => ⟨late, dated⟩⟩
  · rw [Bool.not_eq_true] at here
    rw [here, Bool.false_and, Bool.false_and]

theorem scopeRows_mem {s : Ledgers} {own : List Reservation} (tied : Tied s own) {kind : ScopeKind} {scope : String} {now : ℤ}
    {r : Reservation} (member : r ∈ scopeRows s.postgres kind scope now) : r ∈ own := by
  rw [← tied.rows kind]
  exact (List.mem_filter.mp member).1

theorem variants_eq {s : Ledgers} {own : List Reservation} (tied : Tied s own) {input : ReservationInput}
    (reach : s.horizon ≤ input.now - day) (past : ∀ r ∈ s.postgres, r.2.scope = input.scope → r.2.createdAt ≤ input.now)
    (kind : ScopeKind) :
    exploreDifferencingVariants (pruned input.now s.sqlite) [] input =
      scopeVariants (scopeRows s.postgres kind input.scope input.now) input.resource := by
  have none : legacyExploreBudgetAudits [] input = [] := rfl
  rw [exploreDifferencingVariants, scopeVariants, none, recent_eq_scopeRows tied reach past kind, List.filter_nil,
    List.map_nil, List.append_nil]
  refine congrArg List.dedup (congrArg (List.map _) (List.filter_congr fun r member => ?_))
  exact (counts_status (tied.consistent r (scopeRows_mem tied member))).symm

theorem usage_eq {s : Ledgers} {own : List Reservation} (tied : Tied s own) {input : ReservationInput}
    (reach : s.horizon ≤ input.now - day) (past : ∀ r ∈ s.postgres, r.2.scope = input.scope → r.2.createdAt ≤ input.now)
    (kind : ScopeKind) :
    exploreBudgetUsage (pruned input.now s.sqlite) [] input =
      { scopeUsage (scopeRows s.postgres kind input.scope input.now) input.resource input.now with
        differencingAttempts := 0 } := by
  have none : legacyExploreBudgetAudits [] input = [] := rfl
  have cells : (scopeRows s.postgres kind input.scope input.now).map countedCells =
      (scopeRows s.postgres kind input.scope input.now).map (·.accountedCells) :=
    List.map_congr_left fun r member => countedCells_eq (tied.consistent r (scopeRows_mem tied member))
  have audited : auditCells [] = 0 := rfl
  simp only [exploreBudgetUsage, scopeUsage, none, recent_eq_scopeRows tied reach past kind, cells, audited, add_zero,
    lastMinute, List.filter_nil, List.length_nil]

/-- The variant is counted already, a limit on variants below what is in use is all that
    stands against it. -/
def LoweredBelow (limits : BudgetLimits) (usage : Usage) (variantAlreadyCounted requiresDifferencing : Bool)
    (estimatedCells : ℕ) : Prop :=
  requiresDifferencing = true ∧ variantAlreadyCounted = true ∧ limits.maxDifferencingQueries < usage.differencingAttempts ∧
    enforcePrivacyBudgets limits usage estimatedCells false = none

instance (limits : BudgetLimits) (usage : Usage) (counted requires : Bool) (cells : ℕ) :
    Decidable (LoweredBelow limits usage counted requires cells) := inferInstanceAs (Decidable (_ ∧ _ ∧ _ ∧ _))

/-- What SQLite looks at, from the usage that counts every variant. -/
def besidesVariant (usage : Usage) (variantAlreadyCounted : Bool) : Usage :=
  { usage with differencingAttempts :=
      if variantAlreadyCounted then usage.differencingAttempts - 1 else usage.differencingAttempts }

/-- The refusals are the same exactly when the limit on variants was not lowered. -/
theorem denials_eq_iff {limits : BudgetLimits} {usage : Usage} {counted requires : Bool} {cells : ℕ}
    (positive : 1 ≤ limits.maxDifferencingQueries) :
    enforcePrivacyBudgets limits (besidesVariant usage counted) cells requires =
        productionExploreBudgetDenial limits usage counted requires cells ↔
      ¬ LoweredBelow limits usage counted requires cells := by
  unfold LoweredBelow enforcePrivacyBudgets productionExploreBudgetDenial besidesVariant
  by_cases queries : limits.maxQueriesPerSession ≤ usage.queryCount
  · simp [queries]
  by_cases rate : limits.rateLimitPerMinute ≤ usage.queriesLastMinute
  · simp [queries, rate]
  by_cases extracted : limits.maxResponseCells < cells ∨
      (limits.maxExtractedCellsPerSession : ℚ) < usage.extractedCells + cells
  · simp only [queries, rate, extracted, if_true, if_false]
    simp
  simp only [queries, rate, extracted, if_false]
  cases requires with
  | false => simp
  | true =>
    cases counted with
    | false => simp
    | true =>
      have lowered : limits.maxDifferencingQueries ≤ usage.differencingAttempts - 1 ↔
          limits.maxDifferencingQueries < usage.differencingAttempts := by omega
      simp [lowered]

/-- A reservation that the ledgers can be compared on: its texts have the form that
    Postgres asks for, or neither takes it; both ledgers have the rows of its day, none is
    dated after it, the identifier is stored in both or in neither, and the limit on
    variants was not lowered below what is in use. -/
structure Comparable (s : Ledgers) (input : ReservationInput) : Prop where
  formed : assertBudgetReservationInput input = .ok () →
    budgetId input.reservationId = true ∧ sha256Hex input.scope = true ∧ sha256Hex input.variant = true
  reach : s.horizon ≤ input.now - day
  past : ∀ r ∈ s.postgres, r.2.scope = input.scope → r.2.createdAt ≤ input.now
  stored : (∃ r ∈ pruned input.now s.sqlite, r.reservationId = input.reservationId) ↔
    ∃ r ∈ s.postgres, r.2.reservationId = input.reservationId
  unlowered : ∀ check, check = checkScope s.postgres (production input) .principal input.scope input.limits →
    ¬ LoweredBelow input.limits check.usage check.variantAlreadyCounted input.requiresDifferencing input.estimatedCells

def Meets (s : Ledgers) : LedgerEvent → Prop
  | .reserve input => Comparable s input
  | _ => True

theorem sha256Hex_start {text : String} (hex : sha256Hex text = true) : startsWith text "sha256:" = true := by
  simp only [sha256Hex, Bool.and_eq_true] at hex
  exact hex.1.1

/-- The checks of the input pass in both ledgers or in neither. -/
theorem formed_iff {s : Ledgers} {input : ReservationInput} (comparable : Comparable s input) :
    assertProductionExploreBudgetInput (production input) = .ok () ↔ assertBudgetReservationInput input = .ok () := by
  constructor
  · intro formed
    obtain ⟨_, texts, limits⟩ := bind_eq_ok formed
    obtain ⟨named, scope, _, variant, resource, cells⟩ := ensure_ok_iff.mp texts
    refine ensure_ok_iff.mpr ⟨?_, sha256Hex_start scope, sha256Hex_start variant, resource, cells, (ensure_ok_iff.mp limits).1⟩
    intro missing
    simp only [budgetId, production, missing] at named
    simp at named
  · intro formed
    obtain ⟨named, scope, variant⟩ := comparable.formed formed
    obtain ⟨_, _, _, resource, cells, limits⟩ := ensure_ok_iff.mp formed
    have checked : limitsValid input.limits ∧ limitsValid input.limits := ⟨limits, limits⟩
    simp only [assertProductionExploreBudgetInput, production, ensure, named, scope, variant, resource, cells, checked,
      ne_eq, not_false_eq_true, and_self, if_true, bind, Except.bind]

theorem checkScope_kind {s : Ledgers} {own : List Reservation} (tied : Tied s own) (input : ReservationInput) (kind : ScopeKind) :
    checkScope s.postgres (production input) kind input.scope input.limits =
      checkScope s.postgres (production input) .principal input.scope input.limits := by
  simp only [checkScope, scopeRows]
  rw [show (s.postgres.filter fun r => decide (r.1 = kind)).map Prod.snd = own from tied.rows kind,
    show (s.postgres.filter fun r => decide (r.1 = .principal)).map Prod.snd = own from tied.rows .principal]

/-- The refusal of the SQLite ledger is that of the Postgres ledger. -/
theorem denied_eq {s : Ledgers} {own : List Reservation} (tied : Tied s own) {input : ReservationInput}
    (comparable : Comparable s input) (formed : assertBudgetReservationInput input = .ok ()) :
    enforcePrivacyBudgets input.limits (snapshot (pruned input.now s.sqlite) [] input) input.estimatedCells
        input.requiresDifferencing =
      (checkScope s.postgres (production input) .principal input.scope input.limits).denied := by
  obtain ⟨_, _, _, _, _, limits⟩ := ensure_ok_iff.mp formed
  have positive : 1 ≤ input.limits.maxDifferencingQueries := (limits _ (by simp [BudgetLimits.values])).1
  have looked : snapshot (pruned input.now s.sqlite) [] input =
      besidesVariant (checkScope s.postgres (production input) .principal input.scope input.limits).usage
        (checkScope s.postgres (production input) .principal input.scope input.limits).variantAlreadyCounted := by
    simp only [snapshot, usage_eq tied comparable.reach comparable.past .principal,
      variants_eq tied comparable.reach comparable.past .principal]
    rfl
  rw [looked]
  exact (denials_eq_iff positive).mpr (comparable.unlowered _ rfl)

section
variable {rows : List Reservation} {input : ReservationInput} (formed : assertBudgetReservationInput input = .ok ())
include formed

theorem sqlite_refused {code : BudgetCode}
    (denied : enforcePrivacyBudgets input.limits (snapshot (pruned input.now rows) [] input) input.estimatedCells
      input.requiresDifferencing = some code) :
    ∃ message usage,
      claimExploreBudgetReservation rows [] input = .ok (.refused code message usage, pruned input.now rows) := by
  unfold claimExploreBudgetReservation
  simp only [formed, denied, bind, Except.bind, pure, Except.pure]
  exact ⟨_, _, rfl⟩

theorem sqlite_admitted
    (denied : enforcePrivacyBudgets input.limits (snapshot (pruned input.now rows) [] input) input.estimatedCells
      input.requiresDifferencing = none)
    (fresh : ∀ r ∈ pruned input.now rows, r.reservationId ≠ input.reservationId) :
    ∃ usage counted, claimExploreBudgetReservation rows [] input =
      .ok (.admitted usage counted, pruned input.now rows ++ [reserved input]) := by
  unfold claimExploreBudgetReservation
  simp only [formed, denied, ensure, if_pos fresh, bind, Except.bind, pure, Except.pure]
  exact ⟨_, _, rfl⟩

theorem sqlite_taken
    (denied : enforcePrivacyBudgets input.limits (snapshot (pruned input.now rows) [] input) input.estimatedCells
      input.requiresDifferencing = none)
    (taken : ¬ ∀ r ∈ pruned input.now rows, r.reservationId ≠ input.reservationId) :
    ∃ e, claimExploreBudgetReservation rows [] input = .error e := by
  unfold claimExploreBudgetReservation
  simp only [formed, denied, ensure, if_neg taken, bind, Except.bind, pure, Except.pure]
  exact ⟨_, rfl⟩

end

section
variable {rows : List ProductionRow} {input : ProductionInput} (formed : assertProductionExploreBudgetInput input = .ok ())
include formed

theorem postgres_refused {code : BudgetCode}
    (denied : (checkScope rows input .principal input.principalScope input.principalLimits).denied = some code) :
    ∃ message kind usage,
      claimProductionExploreBudgetReservation rows input = .ok (.refused code message kind usage, rows) := by
  unfold claimProductionExploreBudgetReservation
  simp only [formed, denied, bind, Except.bind, pure, Except.pure]
  exact ⟨_, _, _, rfl⟩

theorem postgres_admitted
    (principal : (checkScope rows input .principal input.principalScope input.principalLimits).denied = none)
    (tenant : (checkScope rows input .tenant input.tenantScope input.tenantLimits).denied = none)
    (fresh : ∀ r ∈ rows, r.2.reservationId ≠ input.reservationId) :
    ∃ usage usage' counted counted', claimProductionExploreBudgetReservation rows input =
      .ok (.admitted usage usage' counted counted',
        rows ++ [productionRow input .principal input.principalScope, productionRow input .tenant input.tenantScope]) := by
  unfold claimProductionExploreBudgetReservation
  simp only [formed, principal, tenant, ensure, if_pos fresh, bind, Except.bind, pure, Except.pure]
  exact ⟨_, _, _, _, rfl⟩

theorem postgres_taken
    (principal : (checkScope rows input .principal input.principalScope input.principalLimits).denied = none)
    (tenant : (checkScope rows input .tenant input.tenantScope input.tenantLimits).denied = none)
    (taken : ¬ ∀ r ∈ rows, r.2.reservationId ≠ input.reservationId) :
    ∃ e, claimProductionExploreBudgetReservation rows input = .error e := by
  unfold claimProductionExploreBudgetReservation
  simp only [formed, principal, tenant, ensure, if_neg taken, bind, Except.bind, pure, Except.pure]
  exact ⟨_, rfl⟩

end

/-- What a reservation does to both ledgers. -/
theorem reserve_cases {s : Ledgers} {own : List Reservation} (tied : Tied s own) {input : ReservationInput}
    (comparable : Comparable s input) :
    (∃ e e', claimExploreBudgetReservation s.sqlite [] input = .error e ∧
      claimProductionExploreBudgetReservation s.postgres (production input) = .error e') ∨
    (∃ code message usage message' kind usage',
      claimExploreBudgetReservation s.sqlite [] input = .ok (.refused code message usage, pruned input.now s.sqlite) ∧
      claimProductionExploreBudgetReservation s.postgres (production input) =
        .ok (.refused code message' kind usage', s.postgres)) ∨
    (∃ usage counted usage' usage'' counted' counted'',
      claimExploreBudgetReservation s.sqlite [] input =
        .ok (.admitted usage counted, pruned input.now s.sqlite ++ [reserved input]) ∧
      claimProductionExploreBudgetReservation s.postgres (production input) =
        .ok (.admitted usage' usage'' counted' counted'', s.postgres ++ [(.principal, reserved input), (.tenant, reserved input)]) ∧
      ∀ r ∈ s.postgres, r.2.reservationId ≠ input.reservationId) := by
  by_cases formed : assertBudgetReservationInput input = .ok ()
  · have formed' := (formed_iff comparable).mpr formed
    have same := denied_eq tied comparable formed
    have sameScope := checkScope_kind tied input .tenant
    cases denied : (checkScope s.postgres (production input) .principal input.scope input.limits).denied with
    | some code =>
      obtain ⟨message, usage, refused⟩ := sqlite_refused formed (same.trans denied)
      obtain ⟨message', kind, usage', refused'⟩ := postgres_refused formed' denied
      exact .inr (.inl ⟨code, message, usage, message', kind, usage', refused, refused'⟩)
    | none =>
      have tenant : (checkScope s.postgres (production input) .tenant input.scope input.limits).denied = none := by
        rw [sameScope, denied]
      by_cases fresh : ∀ r ∈ s.postgres, r.2.reservationId ≠ input.reservationId
      · have fresh' : ∀ r ∈ pruned input.now s.sqlite, r.reservationId ≠ input.reservationId := by
          intro r member own
          obtain ⟨r', listed, own'⟩ := comparable.stored.mp ⟨r, member, own⟩
          exact fresh r' listed own'
        obtain ⟨usage, counted, admitted⟩ := sqlite_admitted formed (same.trans denied) fresh'
        obtain ⟨usage', usage'', counted', counted'', admitted'⟩ := postgres_admitted formed' denied tenant fresh
        exact .inr (.inr ⟨usage, counted, usage', usage'', counted', counted'', admitted, admitted', fresh⟩)
      · have taken : ¬ ∀ r ∈ pruned input.now s.sqlite, r.reservationId ≠ input.reservationId := by
          have other := fresh
          push Not at other ⊢
          exact comparable.stored.mpr other
        obtain ⟨e, thrown⟩ := sqlite_taken formed (same.trans denied) taken
        obtain ⟨e', thrown'⟩ := postgres_taken formed' denied tenant fresh
        exact .inl ⟨e, e', thrown, thrown'⟩
  · have formed' := mt (formed_iff comparable).mp formed
    cases failed : assertBudgetReservationInput input with
    | ok u => exact absurd failed formed
    | error e =>
      cases failed' : assertProductionExploreBudgetInput (production input) with
      | ok u => exact absurd failed' formed'
      | error e' =>
        refine .inl ⟨e, e', ?_, ?_⟩
        · rw [claimExploreBudgetReservation, failed]
          rfl
        · rw [claimProductionExploreBudgetReservation, failed']
          rfl

theorem alike_of_tied {s : Ledgers} {own : List Reservation} (tied : Tied s own) {e : LedgerEvent} (meets : Meets s e) :
    s.Alike e := by
  cases e with
  | reserve input =>
    show localVerdict _ _ = productionVerdict _ _
    unfold localVerdict productionVerdict
    rcases reserve_cases tied meets with ⟨e, e', thrown, thrown'⟩ | ⟨_, _, _, _, _, _, refused, refused'⟩ |
      ⟨_, _, _, _, _, _, admitted, admitted', _⟩
    · rw [thrown, thrown']
    · rw [refused, refused']
    · rw [admitted, admitted']
  | complete input => trivial
  | maintain now => trivial

theorem ofKind_append (rows : List ProductionRow) (r : Reservation) (kind : ScopeKind) :
    ofKind (rows ++ [(.principal, r), (.tenant, r)]) kind = ofKind rows kind ++ [r] := by
  unfold ofKind
  rw [List.filter_append, List.map_append]
  cases kind <;> rfl

theorem tied_reserve {s : Ledgers} {own : List Reservation} (tied : Tied s own) {input : ReservationInput}
    (comparable : Comparable s input) : ∃ own', Tied (s.step (.reserve input)) own' := by
  have order : s.horizon ≤ max s.horizon (input.now - retention) := le_max_left ..
  have old : input.now - retention ≤ max s.horizon (input.now - retention) := le_max_right ..
  have late := late_mono order tied.late
  simp only [Ledgers.step]
  rcases reserve_cases tied comparable with ⟨e, e', thrown, thrown'⟩ | ⟨_, _, _, _, _, _, refused, refused'⟩ |
    ⟨_, _, _, _, _, _, admitted, admitted', fresh⟩
  · rw [thrown, thrown']
    exact ⟨own, tied.rows, tied.distinct, late, tied.consistent⟩
  · rw [refused, refused']
    refine ⟨own, tied.rows, tied.distinct, ?_, tied.consistent⟩
    show own.filter _ = (pruned input.now s.sqlite).filter _
    rw [pruned_late old, late]
  · rw [admitted, admitted']
    refine ⟨own ++ [reserved input], fun kind => ?_, ?_, ?_, fun r member => ?_⟩
    · show ofKind (s.postgres ++ [(.principal, reserved input), (.tenant, reserved input)]) kind = _
      rw [ofKind_append, tied.rows]
    · rw [List.map_append, List.nodup_append]
      refine ⟨tied.distinct, List.nodup_singleton _, ?_⟩
      intro name listed other new same
      obtain ⟨r, member, rfl⟩ := List.mem_map.mp listed
      rw [List.map_singleton, List.mem_singleton] at new
      exact fresh (.principal, r) (tied.row member .principal) (same.trans new)
    · show (own ++ [reserved input]).filter _ = (pruned input.now s.sqlite ++ [reserved input]).filter _
      rw [List.filter_append, List.filter_append, pruned_late old, late]
    · rcases List.mem_append.mp member with before | new
      · exact tied.consistent r before
      · rw [List.mem_singleton.mp new]
        exact ⟨fun _ => rfl, fun withheld => nomatch withheld⟩

theorem tied_step (s : Ledgers) (e : LedgerEvent) (tied : ∃ own, Tied s own) (meets : Meets s e) :
    ∃ own, Tied (s.step e) own := by
  obtain ⟨own, tied⟩ := tied
  cases e with
  | reserve input => exact tied_reserve tied meets
  | complete input => exact tied_complete tied input
  | maintain now => exact tied_maintain tied now

theorem tied_empty (since : ℤ) : ∃ own, Tied (.empty since) own :=
  ⟨[], fun _ => rfl, List.nodup_nil, rfl, fun _ member => nomatch member⟩

/-- The ledgers decide alike on every event of a run whose reservations can be compared. -/
theorem ledgers_alike (since : ℤ) (events : List LedgerEvent) (meets : Throughout Ledgers.step Meets (.empty since) events) :
    Throughout Ledgers.step Ledgers.Alike (.empty since) events := by
  refine throughout_iff_splits.mpr fun before e after parts => ?_
  rw [parts] at meets
  obtain ⟨own, tied⟩ := invariant_of_throughout (fun s => ∃ own, Tied s own) tied_step (throughout_append.mp meets).1
    (tied_empty since)
  exact alike_of_tied tied (throughout_at meets)

/-! ### A lowered limit -/

def hex64 (digit : Char) : String := String.ofList (List.replicate 64 digit)

def countQuery (digit variant : Char) (maxDifferencing : ℕ) : ReservationInput :=
  ⟨"explore_budget_" ++ String.ofList (List.replicate 32 digit), "sha256:" ++ hex64 'a', [], "orders", "sha256:" ++ hex64 variant,
    true, 1, ⟨10, 10, 10, maxDifferencing, 10⟩, day⟩

def firstCount : LedgerEvent := .reserve (countQuery '1' 'b' 2)
def firstDone : LedgerEvent := .complete ⟨"explore_budget_" ++ String.ofList (List.replicate 32 '1'), true, 1, day⟩

theorem sha256Hex_hex64 {digit : Char} (hex : Privacy.Production.isHex digit = true) :
    sha256Hex ("sha256:" ++ hex64 digit) = true :=
  Privacy.Production.sha256Hex_sampleFingerprint hex

theorem budgetId_countQuery {digit : Char} (hex : Privacy.Production.isHex digit = true) :
    budgetId ("explore_budget_" ++ String.ofList (List.replicate 32 digit)) = true := by
  have units : ("explore_budget_" ++ String.ofList (List.replicate 32 digit)).toList =
      "explore_budget_".toList ++ List.replicate 32 digit := by simp
  have start : startsWith ("explore_budget_" ++ String.ofList (List.replicate 32 digit)) "explore_budget_" = true := by
    rw [startsWith, units]
    simp
  have all : ("explore_budget_" ++ String.ofList (List.replicate 32 digit)).length = 47 := by
    rw [← String.length_toList, units, List.length_append, List.length_replicate]
    rfl
  unfold budgetId
  rw [start, decide_eq_true all, units, Bool.true_and, Bool.true_and]
  refine List.all_eq_true.mpr fun c member => ?_
  have listed : c ∈ List.replicate 32 digit := member
  rw [List.eq_of_mem_replicate listed]
  exact hex

theorem countQuery_formed {digit variant : Char} (hexDigit : Privacy.Production.isHex digit = true)
    (hexVariant : Privacy.Production.isHex variant = true) (maxDifferencing : ℕ) :
    budgetId (countQuery digit variant maxDifferencing).reservationId = true ∧
      sha256Hex (countQuery digit variant maxDifferencing).scope = true ∧
      sha256Hex (countQuery digit variant maxDifferencing).variant = true :=
  ⟨budgetId_countQuery hexDigit, sha256Hex_hex64 (by decide), sha256Hex_hex64 hexVariant⟩

/-- The input passes the checks of either ledger. -/
theorem countQuery_accepted {digit variant : Char} (hexDigit : Privacy.Production.isHex digit = true)
    (hexVariant : Privacy.Production.isHex variant = true) {maxDifferencing : ℕ}
    (limited : 1 ≤ maxDifferencing ∧ maxDifferencing ≤ 10) :
    assertBudgetReservationInput (countQuery digit variant maxDifferencing) = .ok () ∧
      assertProductionExploreBudgetInput (production (countQuery digit variant maxDifferencing)) = .ok () := by
  obtain ⟨id, scope, sha⟩ := countQuery_formed hexDigit hexVariant maxDifferencing
  have resource : (countQuery digit variant maxDifferencing).resource ≠ "" := by
    show "orders" ≠ ""
    decide
  have named : (countQuery digit variant maxDifferencing).reservationId ≠ "" := by
    rintro empty
    rw [empty] at id
    revert id
    decide
  have bounds : limitsValid (countQuery digit variant maxDifferencing).limits := by
    intro value listed
    simp only [countQuery, BudgetLimits.values, List.mem_cons, List.not_mem_nil, or_false, maxSafeInteger] at listed ⊢
    omega
  have cells : (countQuery digit variant maxDifferencing).estimatedCells ≤ maxSafeInteger := by
    show 1 ≤ maxSafeInteger
    decide
  refine ⟨ensure_ok_iff.mpr ⟨named, sha256Hex_start scope, sha256Hex_start sha, resource, cells, bounds⟩, ?_⟩
  unfold assertProductionExploreBudgetInput
  rw [ensure_ok_iff (u := ()).mpr ⟨id, scope, scope, sha, resource, cells⟩]
  exact ensure_ok_iff.mpr ⟨bounds, bounds⟩

theorem firstCount_comparable : Comparable (.empty 0) (countQuery '1' 'b' 2) where
  formed _ := countQuery_formed (by decide) (by decide) 2
  reach := by decide
  past := by simp [Ledgers.empty]
  stored := by simp [Ledgers.empty, pruned]
  unlowered := by
    rintro check rfl
    decide

/-- The ledgers with one row. -/
def oneRow (row : Reservation) : Ledgers := ⟨[row], [(.principal, row), (.tenant, row)], 0⟩

theorem firstDone_ledgers : run Ledgers.step (.empty 0) [firstCount, firstDone] =
    oneRow (completed ⟨"", true, 1, day⟩ (reserved (countQuery '1' 'b' 2))) := by
  obtain ⟨checked, checked'⟩ := countQuery_accepted (show Privacy.Production.isHex '1' = true by decide)
    (show Privacy.Production.isHex 'b' = true by decide) (show 1 ≤ 2 ∧ 2 ≤ 10 by decide)
  simp only [run_cons, run_nil, firstCount, firstDone, Ledgers.step, claimExploreBudgetReservation,
    claimProductionExploreBudgetReservation, checked, checked']
  with_unfolding_all decide

theorem secondCount_comparable : Comparable (run Ledgers.step (.empty 0) [firstCount, firstDone]) (countQuery '2' 'b' 1) := by
  rw [firstDone_ledgers]
  refine ⟨fun _ => countQuery_formed (by decide) (by decide) 1, by decide, by decide, by decide, ?_⟩
  rintro check rfl
  decide

/-- A repeated variant under a limit that is not below what is in use. -/
theorem repeated_alike :
    Throughout Ledgers.step Ledgers.Alike (.empty 0) [firstCount, firstDone, .reserve (countQuery '2' 'b' 1)] :=
  ledgers_alike 0 _ ⟨firstCount_comparable, trivial, secondCount_comparable, trivial⟩

theorem firstCount_ledgers : Ledgers.step (.empty 0) firstCount = oneRow (reserved (countQuery '1' 'b' 2)) := by
  obtain ⟨checked, checked'⟩ := countQuery_accepted (show Privacy.Production.isHex '1' = true by decide)
    (show Privacy.Production.isHex 'b' = true by decide) (show 1 ≤ 2 ∧ 2 ≤ 10 by decide)
  simp only [firstCount, Ledgers.step, claimExploreBudgetReservation, claimProductionExploreBudgetReservation, checked,
    checked']
  with_unfolding_all decide

/-- The ledgers with the rows of two variants. -/
def twoVariants : Ledgers :=
  let first := reserved (countQuery '1' 'b' 2)
  let second := reserved (countQuery '2' 'c' 2)
  ⟨[first, second], [(.principal, first), (.tenant, first), (.principal, second), (.tenant, second)], 0⟩

theorem secondVariant_ledgers :
    Ledgers.step (oneRow (reserved (countQuery '1' 'b' 2))) (.reserve (countQuery '2' 'c' 2)) = twoVariants := by
  obtain ⟨checked, checked'⟩ := countQuery_accepted (show Privacy.Production.isHex '2' = true by decide)
    (show Privacy.Production.isHex 'c' = true by decide) (show 1 ≤ 2 ∧ 2 ≤ 10 by decide)
  simp only [Ledgers.step, claimExploreBudgetReservation, claimProductionExploreBudgetReservation, checked, checked']
  with_unfolding_all decide

theorem localVerdict_refused {rows : List Reservation} {input : ReservationInput} {code : BudgetCode}
    (checked : assertBudgetReservationInput input = .ok ())
    (refused : enforcePrivacyBudgets input.limits (snapshot (pruned input.now rows) [] input) input.estimatedCells
      input.requiresDifferencing = some code) : localVerdict rows input = .refused code := by
  unfold localVerdict claimExploreBudgetReservation
  rw [checked]
  simp only [bind, Except.bind, refused]
  rfl

theorem productionVerdict_admitted {rows : List ProductionRow} {input : ProductionInput}
    (checked : assertProductionExploreBudgetInput input = .ok ())
    (principal : (checkScope rows input .principal input.principalScope input.principalLimits).denied = none)
    (tenant : (checkScope rows input .tenant input.tenantScope input.tenantLimits).denied = none)
    (fresh : ∀ r ∈ rows, r.2.reservationId ≠ input.reservationId) : productionVerdict rows input = .admitted := by
  unfold productionVerdict claimProductionExploreBudgetReservation
  rw [checked]
  simp only [bind, Except.bind, principal, tenant, ensure, if_pos fresh]
  rfl

/-- Two variants are in use when the limit becomes one: SQLite refuses the first of them,
    Postgres admits it. -/
theorem lowered_limit_differs : ¬ ∀ since events, Throughout Ledgers.step Ledgers.Alike (.empty since) events := by
  intro alike
  have all := alike 0 [firstCount, .reserve (countQuery '2' 'c' 2), .reserve (countQuery '3' 'b' 1)]
  have here : Ledgers.Alike (run Ledgers.step (.empty 0) [firstCount, .reserve (countQuery '2' 'c' 2)])
      (.reserve (countQuery '3' 'b' 1)) := throughout_iff_splits.mp all [_, _] _ [] rfl
  rw [run_cons, run_cons, run_nil, firstCount_ledgers, secondVariant_ledgers] at here
  obtain ⟨checked, checked'⟩ := countQuery_accepted (show Privacy.Production.isHex '3' = true by decide)
    (show Privacy.Production.isHex 'b' = true by decide) (show 1 ≤ 1 ∧ 1 ≤ 10 by decide)
  have refused : localVerdict twoVariants.sqlite (countQuery '3' 'b' 1) = .refused .differencingBudgetExhausted :=
    localVerdict_refused checked (by with_unfolding_all decide)
  have admitted : productionVerdict twoVariants.postgres (production (countQuery '3' 'b' 1)) = .admitted :=
    productionVerdict_admitted checked' (by with_unfolding_all decide) (by with_unfolding_all decide) (by with_unfolding_all decide)
  rw [Ledgers.Alike, refused, admitted] at here
  cases here

end SynapsorRunner.ProductionBudgets
