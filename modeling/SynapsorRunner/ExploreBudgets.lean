import Mathlib.Algebra.Order.Field.Rat
import Mathlib.Tactic.Linarith
import SynapsorRunner.Proposals
import SynapsorRunner.Runs
import SynapsorRunner.SlidingWindows

/-!
The budget ledger of Explore in the SQLite store. A query is reserved before it runs,
with the cells that it may return and its differencing variant, and the reservation is
corrected when the query is done. A reservation is admitted when what was reserved in the
last 24 hours and in the last minute leaves room for it.

With a clock that does not go back and fixed limits for a scope, no trailing window holds
more than the limits (`budgets_hold`). Variants are counted for each resource. A refusal
leaves the ledger as it is, but for reservations older than thirty days, which every call
deletes first.
-/
namespace SynapsorRunner.ExploreBudgets
open SynapsorRunner.Proposals SynapsorRunner.Runs SynapsorRunner.SlidingWindows

/-! ### Limits -/

structure BudgetLimits where
  maxQueriesPerSession : ℕ
  rateLimitPerMinute : ℕ
  maxExtractedCellsPerSession : ℕ
  maxDifferencingQueries : ℕ
  maxResponseCells : ℕ
  deriving DecidableEq, Repr

def BudgetLimits.values (limits : BudgetLimits) : List ℕ :=
  [limits.maxQueriesPerSession, limits.rateLimitPerMinute, limits.maxExtractedCellsPerSession,
    limits.maxDifferencingQueries, limits.maxResponseCells]

/-- `ExploreBudgetUsage`, which is also the snapshot that `enforcePrivacyBudgets` takes. -/
structure Usage where
  queryCount : ℕ
  queriesLastMinute : ℕ
  extractedCells : ℚ
  differencingAttempts : ℕ
  deriving DecidableEq, Repr

inductive BudgetCode where
  | queryBudgetExhausted
  | rateLimitExhausted
  | extractionBudgetExhausted
  | differencingBudgetExhausted
  deriving DecidableEq, Repr

def BudgetCode.text : BudgetCode → String
  | .queryBudgetExhausted => "QUERY_BUDGET_EXHAUSTED"
  | .rateLimitExhausted => "RATE_LIMIT_EXHAUSTED"
  | .extractionBudgetExhausted => "EXTRACTION_BUDGET_EXHAUSTED"
  | .differencingBudgetExhausted => "DIFFERENCING_BUDGET_EXHAUSTED"

/-- The messages of `enforcePrivacyBudgets`. -/
def BudgetCode.message : BudgetCode → String
  | .queryBudgetExhausted => "The reviewed per-session query budget is exhausted."
  | .rateLimitExhausted => "The reviewed request rate is exhausted."
  | .extractionBudgetExhausted => "The reviewed response or cumulative extraction budget would be exceeded."
  | .differencingBudgetExhausted => "Too many distinct filter or date-range variants of the same cohort-protected " ++
      "aggregate were requested in this privacy window."

/-- `enforcePrivacyBudgets`: the first limit that leaves no room. -/
def enforcePrivacyBudgets (limits : BudgetLimits) (snapshot : Usage) (estimatedCells : ℕ) (aggregate : Bool) :
    Option BudgetCode :=
  if limits.maxQueriesPerSession ≤ snapshot.queryCount then some .queryBudgetExhausted
  else if limits.rateLimitPerMinute ≤ snapshot.queriesLastMinute then some .rateLimitExhausted
  else if limits.maxResponseCells < estimatedCells ∨
      (limits.maxExtractedCellsPerSession : ℚ) < snapshot.extractedCells + estimatedCells then
    some .extractionBudgetExhausted
  else if aggregate = true ∧ limits.maxDifferencingQueries ≤ snapshot.differencingAttempts then
    some .differencingBudgetExhausted
  else none

theorem enforcePrivacyBudgets_eq_none {limits : BudgetLimits} {snapshot : Usage} {estimatedCells : ℕ} {aggregate : Bool} :
    enforcePrivacyBudgets limits snapshot estimatedCells aggregate = none ↔
      snapshot.queryCount < limits.maxQueriesPerSession ∧ snapshot.queriesLastMinute < limits.rateLimitPerMinute ∧
        estimatedCells ≤ limits.maxResponseCells ∧
        snapshot.extractedCells + estimatedCells ≤ limits.maxExtractedCellsPerSession ∧
        (aggregate = true → snapshot.differencingAttempts < limits.maxDifferencingQueries) := by
  unfold enforcePrivacyBudgets
  split
  · simp; omega
  split
  · simp; omega
  split
  · rename_i exceeded
    simp only [reduceCtorEq, false_iff]
    rintro ⟨_, _, response, extracted, _⟩
    rcases exceeded with much | much
    · omega
    · exact absurd extracted (not_le.mpr much)
  split
  · rename_i exhausted
    simp only [reduceCtorEq, false_iff]
    rintro ⟨_, _, _, _, variants⟩
    have room := variants exhausted.1
    have full := exhausted.2
    omega
  · rename_i queries minute cells variants
    push Not at queries minute cells variants
    simp only [true_iff]
    exact ⟨queries, minute, cells.1, cells.2, variants⟩

/-! ### Reservations -/

inductive ReservationStatus where
  | pending
  | released
  | notReleased
  deriving DecidableEq, Repr

/-- A row of `explore_budget_reservations`. -/
structure Reservation where
  reservationId : String
  scope : String
  resource : String
  variant : String
  requiresDifferencing : Bool
  differencingCounted : Bool
  reservedCells : ℕ
  accountedCells : ℕ
  status : ReservationStatus
  createdAt : ℤ
  completedAt : Option ℤ
  deriving DecidableEq, Repr

/-- What the ledger reads of a row of `query_audit`, the finite time of it if it has one. -/
structure QueryAudit where
  budgetReservationId : Option String
  budgetScope : Option String
  session : Option String
  recordedAt : Option ℤ
  executed : Bool
  variant : String
  returnedCells : ℚ
  resource : Option String
  informationBearingAggregate : Bool
  deriving DecidableEq, Repr

/-- `ExploreBudgetReservationInput`. -/
structure ReservationInput where
  reservationId : String
  scope : String
  legacySessions : List String
  resource : String
  variant : String
  requiresDifferencing : Bool
  estimatedCells : ℕ
  limits : BudgetLimits
  now : ℤ
  deriving DecidableEq, Repr

def day : ℤ := 86400000
def minute : ℤ := 60000
def retention : ℤ := 30 * day

def maxSafeInteger : ℕ := 9007199254740991

def startsWith (text start : String) : Bool := start.toList.isPrefixOf text.toList

def assertBudgetReservationInput (input : ReservationInput) : Except StoreError Unit :=
  ensure (input.reservationId ≠ "" ∧ startsWith input.scope "sha256:" = true ∧ startsWith input.variant "sha256:" = true ∧
      input.resource ≠ "" ∧ input.estimatedCells ≤ maxSafeInteger ∧
      ∀ value ∈ input.limits.values, 1 ≤ value ∧ value ≤ maxSafeInteger)
    (.proposalStore "EXPLORE_BUDGET_RESERVATION_INVALID" "Explore budget reservation input is malformed.")

def inDay (now : ℤ) : Reservation → Bool := within Reservation.createdAt day now
def inMinute (now : ℤ) : Reservation → Bool := within Reservation.createdAt minute now

def ofScope (scope : String) (r : Reservation) : Bool := decide (r.scope = scope)

/-- `legacyExploreBudgetAudits`: the audits without a reservation. -/
def legacyExploreBudgetAudits (audits : List QueryAudit) (input : ReservationInput) : List QueryAudit :=
  audits.filter fun a => a.budgetReservationId.isNone &&
    (decide (a.budgetScope = some input.scope) || a.session.any input.legacySessions.contains) &&
    a.recordedAt.any (fun time => decide (input.now - day ≤ time ∧ time ≤ input.now)) && a.executed

def lastMinute (input : ReservationInput) (audits : List QueryAudit) : List QueryAudit :=
  audits.filter fun a => a.recordedAt.any fun time => decide (input.now - minute ≤ time)

def auditCells (audits : List QueryAudit) : ℚ := (audits.map fun a => max 0 a.returnedCells).sum

/-- The reservations of the scope in the window that ends now. -/
def recent (rows : List Reservation) (input : ReservationInput) : List Reservation :=
  rows.filter fun r => ofScope input.scope r && inDay input.now r

def exploreBudgetUsage (rows : List Reservation) (audits : List QueryAudit) (input : ReservationInput) : Usage :=
  let reservations := recent rows input
  let legacy := legacyExploreBudgetAudits audits input
  { queryCount := reservations.length + legacy.length
    queriesLastMinute := (reservations.filter fun r => decide (input.now - minute ≤ r.createdAt)).length +
      (lastMinute input legacy).length
    extractedCells := ((reservations.map (·.accountedCells)).sum : ℕ) + auditCells legacy
    differencingAttempts := 0 }

/-- The reservation counts toward the variants of a resource. -/
def countsFor (resource : String) (r : Reservation) : Bool := decide (r.resource = resource) && r.differencingCounted

def exploreDifferencingVariants (rows : List Reservation) (audits : List QueryAudit) (input : ReservationInput) : List String :=
  ((((recent rows input).filter (countsFor input.resource)).map (·.variant)) ++
    ((legacyExploreBudgetAudits audits input).filter fun a =>
      a.informationBearingAggregate && decide (a.resource = some input.resource)).map (·.variant)).dedup

/-- What `enforcePrivacyBudgets` looks at. A variant that is counted already is not
    counted again. -/
def snapshot (rows : List Reservation) (audits : List QueryAudit) (input : ReservationInput) : Usage :=
  let variants := exploreDifferencingVariants rows audits input
  { exploreBudgetUsage rows audits input with
    differencingAttempts := if variants.contains input.variant then variants.length - 1 else variants.length }

inductive BudgetDecision where
  | admitted (usageAfter : Usage) (variantAlreadyCounted : Bool)
  | refused (code : BudgetCode) (message : String) (usage : Usage)
  deriving DecidableEq, Repr

/-- The row of an admitted reservation. -/
def reserved (input : ReservationInput) : Reservation :=
  { reservationId := input.reservationId, scope := input.scope, resource := input.resource, variant := input.variant
    requiresDifferencing := input.requiresDifferencing, differencingCounted := input.requiresDifferencing
    reservedCells := input.estimatedCells, accountedCells := input.estimatedCells, status := .pending
    createdAt := input.now, completedAt := none }

/-- `DELETE ... WHERE created_at < ?`. -/
def pruned (now : ℤ) (rows : List Reservation) : List Reservation :=
  rows.filter fun r => !decide (r.createdAt < now - retention)

def deletedAt (now : ℤ) (rows : List Reservation) : List Reservation :=
  rows.filter fun r => decide (r.createdAt < now - retention)

def usageAfter (rows : List Reservation) (audits : List QueryAudit) (input : ReservationInput) : Usage :=
  let usage := exploreBudgetUsage rows audits input
  let variants := exploreDifferencingVariants rows audits input
  { queryCount := usage.queryCount + 1, queriesLastMinute := usage.queriesLastMinute + 1
    extractedCells := usage.extractedCells + input.estimatedCells
    differencingAttempts := variants.length +
      (if input.requiresDifferencing && !variants.contains input.variant then 1 else 0) }

/-- `claimExploreBudgetReservation`: the decision, and the rows after it. -/
def claimExploreBudgetReservation (rows : List Reservation) (audits : List QueryAudit) (input : ReservationInput) :
    Except StoreError (BudgetDecision × List Reservation) := do
  assertBudgetReservationInput input
  let kept := pruned input.now rows
  let variants := exploreDifferencingVariants kept audits input
  match enforcePrivacyBudgets input.limits (snapshot kept audits input) input.estimatedCells input.requiresDifferencing with
  | some code => pure (.refused code code.message
      { exploreBudgetUsage kept audits input with differencingAttempts := variants.length }, kept)
  | none => do
    ensure (∀ r ∈ kept, r.reservationId ≠ input.reservationId) (.constraint "explore_budget_reservations.reservation_id")
    pure (.admitted (usageAfter kept audits input) (variants.contains input.variant), kept ++ [reserved input])

/-! ### Completion -/

/-- `CompleteExploreBudgetReservationInput`. -/
structure CompletionInput where
  reservationId : String
  resultReleased : Bool
  returnedCells : ℕ
  completedAt : ℤ
  deriving DecidableEq, Repr

inductive CompletionDecision where
  | completed
  | reservationMissing
  | reservationAlreadyFinalized
  | responseExceededReservation
  deriving DecidableEq, Repr

/-- A pending reservation after its completion. -/
def completed (input : CompletionInput) (r : Reservation) : Reservation :=
  if input.resultReleased = true ∧ r.reservedCells < input.returnedCells then
    { r with status := .notReleased, differencingCounted := false, accountedCells := 0, completedAt := some input.completedAt }
  else
    { r with status := if input.resultReleased then .released else .notReleased
             differencingCounted := input.resultReleased && r.requiresDifferencing
             accountedCells := if input.resultReleased then input.returnedCells else 0
             completedAt := some input.completedAt }

/-- `UPDATE ... WHERE reservation_id = ? AND status = 'pending'`. -/
def completeRow (input : CompletionInput) (r : Reservation) : Reservation :=
  if r.reservationId = input.reservationId ∧ r.status = .pending then completed input r else r

/-- What a completion answers for a row. -/
def completionOf (input : CompletionInput) (r : Reservation) : CompletionDecision :=
  if r.status ≠ .pending then
    if decide (r.status = .released) = input.resultReleased ∧
        r.accountedCells = (if input.resultReleased then input.returnedCells else 0) then .completed
    else .reservationAlreadyFinalized
  else if input.resultReleased = true ∧ r.reservedCells < input.returnedCells then .responseExceededReservation
  else .completed

/-- `completeExploreBudgetReservation`. -/
def completeExploreBudgetReservation (rows : List Reservation) (input : CompletionInput) :
    Except StoreError (CompletionDecision × List Reservation) := do
  ensure (input.returnedCells ≤ maxSafeInteger) (.proposalStore "EXPLORE_BUDGET_RESERVATION_INVALID"
    "Explore returned-cell accounting must be a non-negative safe integer.")
  match rows.find? fun r => decide (r.reservationId = input.reservationId) with
  | none => pure (.reservationMissing, rows)
  | some r => pure (completionOf input r, rows.map (completeRow input))

/-- A completed row says no more than it did, and is dated as before. -/
structure NoMore (r r' : Reservation) : Prop where
  reservationId : r'.reservationId = r.reservationId
  scope : r'.scope = r.scope
  resource : r'.resource = r.resource
  variant : r'.variant = r.variant
  createdAt : r'.createdAt = r.createdAt
  cells : r'.accountedCells ≤ r.accountedCells
  counted : r'.differencingCounted = true → r.differencingCounted = true

theorem NoMore.refl (r : Reservation) : NoMore r r := ⟨rfl, rfl, rfl, rfl, rfl, le_rfl, id⟩

/-- A pending row is accounted for as it was reserved. -/
def AsReserved (r : Reservation) : Prop :=
  r.status = .pending → r.accountedCells = r.reservedCells ∧ r.differencingCounted = r.requiresDifferencing

theorem completed_noMore {input : CompletionInput} {r : Reservation} (pending : r.status = .pending) (fresh : AsReserved r) :
    NoMore r (completed input r) := by
  obtain ⟨cells, counted⟩ := fresh pending
  unfold completed
  split
  · exact ⟨rfl, rfl, rfl, rfl, rfl, Nat.zero_le _, by simp⟩
  · rename_i fits
    refine ⟨rfl, rfl, rfl, rfl, rfl, ?_, ?_⟩
    · show (if input.resultReleased = true then input.returnedCells else 0) ≤ r.accountedCells
      split
      · rename_i released
        have fit : input.returnedCells ≤ r.reservedCells := not_lt.mp fun much => fits ⟨released, much⟩
        omega
      · exact Nat.zero_le _
    · show (input.resultReleased && r.requiresDifferencing) = true → r.differencingCounted = true
      rw [counted]
      simp

theorem completed_not_pending (input : CompletionInput) (r : Reservation) : (completed input r).status ≠ .pending := by
  unfold completed
  split
  · simp
  · show (if input.resultReleased = true then ReservationStatus.released else .notReleased) ≠ .pending
    split <;> simp

theorem completeRow_noMore (input : CompletionInput) {r : Reservation} (fresh : AsReserved r) :
    NoMore r (completeRow input r) ∧ AsReserved (completeRow input r) := by
  unfold completeRow
  split
  · rename_i own
    exact ⟨completed_noMore own.2 fresh, fun pending => absurd pending (completed_not_pending input r)⟩
  · exact ⟨.refl r, fresh⟩

/-! ### What a window holds -/

def queryLoad (scope : String) (l : List Reservation) : ℕ := (l.filter (ofScope scope)).length

def cellLoad (scope : String) (l : List Reservation) : ℕ := ((l.filter (ofScope scope)).map (·.accountedCells)).sum

def variantLoad (scope resource : String) (l : List Reservation) : ℕ :=
  (((l.filter (ofScope scope)).filter (countsFor resource)).map (·.variant)).dedup.length

theorem load_queryLoad (scope : String) : Load (queryLoad scope) := load_count _

theorem load_cellLoad (scope : String) : Load (cellLoad scope) := (load_sum _).filter _

theorem load_variantLoad (scope resource : String) : Load (variantLoad scope resource) :=
  ((load_distinct Reservation.variant).filter (countsFor resource)).filter (ofScope scope)

/-- No trailing window of the scope holds more than the limits. -/
structure Bounded (limits : BudgetLimits) (scope : String) (l : List Reservation) : Prop where
  queries : ∀ t, queryLoad scope (l.filter (inDay t)) ≤ limits.maxQueriesPerSession
  perMinute : ∀ t, queryLoad scope (l.filter (inMinute t)) ≤ limits.rateLimitPerMinute
  cells : ∀ t, cellLoad scope (l.filter (inDay t)) ≤ limits.maxExtractedCellsPerSession
  variants : ∀ resource t, variantLoad scope resource (l.filter (inDay t)) ≤ limits.maxDifferencingQueries

variable {limits : BudgetLimits} {scope : String}

theorem Bounded.perm {l l' : List Reservation} (bounded : Bounded limits scope l) (same : l.Perm l') :
    Bounded limits scope l' where
  queries t := by
    rw [(load_queryLoad scope).perm (same.symm.filter (inDay t))]
    exact bounded.queries t
  perMinute t := by
    rw [(load_queryLoad scope).perm (same.symm.filter (inMinute t))]
    exact bounded.perMinute t
  cells t := by
    rw [(load_cellLoad scope).perm (same.symm.filter (inDay t))]
    exact bounded.cells t
  variants resource t := by
    rw [(load_variantLoad scope resource).perm (same.symm.filter (inDay t))]
    exact bounded.variants resource t

/-- A filter that looks at the scope and the time only. -/
theorem filter_noMore {p : Reservation → Bool} {l l' : List Reservation} (related : List.Forall₂ NoMore l l')
    (same : ∀ r r', NoMore r r' → p r' = p r) : List.Forall₂ NoMore (l.filter p) (l'.filter p) := by
  induction related with
  | nil => exact .nil
  | @cons r r' rest rest' first later ih =>
    rw [List.filter_cons, List.filter_cons, same r r' first]
    split
    · exact .cons first ih
    · exact ih

theorem noMore_mem {l l' : List Reservation} (related : List.Forall₂ NoMore l l') {r' : Reservation} (member : r' ∈ l') :
    ∃ r ∈ l, NoMore r r' := by
  induction related with
  | nil => cases member
  | @cons r x rest rest' first later ih =>
    rcases List.mem_cons.mp member with rfl | others
    · exact ⟨r, List.mem_cons_self, first⟩
    · obtain ⟨y, listed, same⟩ := ih others
      exact ⟨y, List.mem_cons_of_mem _ listed, same⟩

theorem sum_noMore {l l' : List Reservation} (related : List.Forall₂ NoMore l l') :
    (l'.map (·.accountedCells)).sum ≤ (l.map (·.accountedCells)).sum := by
  induction related with
  | nil => exact le_rfl
  | cons first later ih =>
    simp only [List.map_cons, List.sum_cons]
    exact Nat.add_le_add first.cells ih

theorem variants_noMore {resource : String} {l l' : List Reservation} (related : List.Forall₂ NoMore l l') :
    ((l'.filter (countsFor resource)).map (·.variant)).dedup.length ≤
      ((l.filter (countsFor resource)).map (·.variant)).dedup.length := by
  refine ((List.nodup_dedup _).subperm fun v member => ?_).length_le
  obtain ⟨r', here, rfl⟩ := List.mem_map.mp (List.mem_dedup.mp member)
  obtain ⟨listed, counts⟩ := List.mem_filter.mp here
  obtain ⟨r, there, same⟩ := noMore_mem related listed
  simp only [countsFor, Bool.and_eq_true, decide_eq_true_eq] at counts
  refine List.mem_dedup.mpr (List.mem_map.mpr ⟨r, List.mem_filter.mpr ⟨there, ?_⟩, same.variant.symm⟩)
  simp only [countsFor, Bool.and_eq_true, decide_eq_true_eq]
  exact ⟨same.resource ▸ counts.1, same.counted counts.2⟩

theorem ofScope_noMore {r r' : Reservation} (related : NoMore r r') : ofScope scope r' = ofScope scope r := by
  rw [ofScope, ofScope, related.scope]

theorem within_noMore {width t : ℤ} {r r' : Reservation} (related : NoMore r r') :
    within Reservation.createdAt width t r' = within Reservation.createdAt width t r := by
  rw [within, within, related.createdAt]

theorem Bounded.noMore {l l' : List Reservation} (bounded : Bounded limits scope l) (related : List.Forall₂ NoMore l l') :
    Bounded limits scope l' := by
  have inScope : ∀ width t, List.Forall₂ NoMore
      ((l.filter (within Reservation.createdAt width t)).filter (ofScope scope))
      ((l'.filter (within Reservation.createdAt width t)).filter (ofScope scope)) := fun width t =>
    filter_noMore (filter_noMore related fun _ _ => within_noMore) fun _ _ => ofScope_noMore
  constructor
  · exact fun t => (inScope day t).length_eq.symm.trans_le (bounded.queries t)
  · exact fun t => (inScope ExploreBudgets.minute t).length_eq.symm.trans_le (bounded.perMinute t)
  · exact fun t => (sum_noMore (inScope day t)).trans (bounded.cells t)
  · exact fun resource t => (variants_noMore (inScope day t)).trans (bounded.variants resource t)

/-! ### An admitted reservation -/

theorem auditCells_nonneg (audits : List QueryAudit) : 0 ≤ auditCells audits := by
  refine List.sum_nonneg fun x member => ?_
  obtain ⟨a, _, rfl⟩ := List.mem_map.mp member
  exact le_max_left ..

theorem inDay_reserved (input : ReservationInput) : inDay input.now (reserved input) = true := by
  have width : (0 : ℤ) ≤ day := by decide
  refine decide_eq_true ⟨?_, le_rfl⟩
  show input.now - day ≤ input.now
  omega

theorem inMinute_reserved (input : ReservationInput) : inMinute input.now (reserved input) = true := by
  have width : (0 : ℤ) ≤ minute := by decide
  refine decide_eq_true ⟨?_, le_rfl⟩
  show input.now - minute ≤ input.now
  omega

/-- The reservations of the last minute, as `exploreBudgetUsage` counts them. -/
theorem lastMinute_length (rows : List Reservation) (input : ReservationInput) :
    ((recent rows input).filter fun r => decide (input.now - minute ≤ r.createdAt)).length =
      queryLoad input.scope (rows.filter (inMinute input.now)) := by
  have width : (0 : ℤ) ≤ day - minute := by decide
  rw [queryLoad, recent, List.filter_filter, List.filter_filter]
  refine congrArg List.length (List.filter_congr fun r _ => ?_)
  simp only [inDay, inMinute, within]
  by_cases own : ofScope input.scope r = true
  · rw [own, Bool.true_and, Bool.true_and, ← Bool.decide_and]
    refine decide_eq_decide.mpr ?_
    constructor
    · rintro ⟨late, _, past⟩
      exact ⟨late, past⟩
    · rintro ⟨late, past⟩
      exact ⟨late, by omega, past⟩
  · rw [Bool.not_eq_true] at own
    rw [own, Bool.false_and, Bool.false_and, Bool.and_false]

theorem recent_eq (rows : List Reservation) (input : ReservationInput) :
    recent rows input = (rows.filter (inDay input.now)).filter (ofScope input.scope) := List.filter_filter.symm

/-- What the checks leave room for, at the time of the reservation. -/
theorem room_of_admitted {rows : List Reservation} {audits : List QueryAudit} {input : ReservationInput}
    (room : enforcePrivacyBudgets input.limits (snapshot rows audits input) input.estimatedCells
      input.requiresDifferencing = none) :
    queryLoad input.scope (rows.filter (inDay input.now)) + 1 ≤ input.limits.maxQueriesPerSession ∧
      queryLoad input.scope (rows.filter (inMinute input.now)) + 1 ≤ input.limits.rateLimitPerMinute ∧
      cellLoad input.scope (rows.filter (inDay input.now)) + input.estimatedCells ≤
        input.limits.maxExtractedCellsPerSession ∧
      (input.requiresDifferencing = true →
        (((recent rows input).filter (countsFor input.resource)).map (·.variant) ++ [input.variant]).dedup.length ≤
          input.limits.maxDifferencingQueries) := by
  obtain ⟨queries, minute, _, cells, variants⟩ := enforcePrivacyBudgets_eq_none.mp room
  refine ⟨?_, ?_, ?_, fun requires => ?_⟩
  · have counted : (recent rows input).length + (legacyExploreBudgetAudits audits input).length <
        input.limits.maxQueriesPerSession := queries
    rw [queryLoad, ← recent_eq]
    omega
  · have counted : ((recent rows input).filter fun r => decide (input.now - ExploreBudgets.minute ≤ r.createdAt)).length +
        (lastMinute input (legacyExploreBudgetAudits audits input)).length < input.limits.rateLimitPerMinute := minute
    rw [lastMinute_length] at counted
    omega
  · have total : ((((recent rows input).map (·.accountedCells)).sum : ℕ) : ℚ) +
        auditCells (legacyExploreBudgetAudits audits input) + input.estimatedCells ≤
          input.limits.maxExtractedCellsPerSession := cells
    have own : ((((recent rows input).map (·.accountedCells)).sum + input.estimatedCells : ℕ) : ℚ) ≤
        input.limits.maxExtractedCellsPerSession := by
      have audited := auditCells_nonneg (legacyExploreBudgetAudits audits input)
      rw [Nat.cast_add]
      linarith
    rw [cellLoad, ← recent_eq]
    exact Nat.cast_le.mp own
  · have left := variants requires
    have fewer : (((recent rows input).filter (countsFor input.resource)).map (·.variant) ++ [input.variant]).dedup.length ≤
        (input.variant :: exploreDifferencingVariants rows audits input).dedup.length := by
      refine ((List.nodup_dedup _).subperm fun v member => ?_).length_le
      rw [List.mem_dedup, List.mem_append] at member
      rw [List.mem_dedup, List.mem_cons]
      rcases member with counted | new
      · exact .inr (List.mem_dedup.mpr (List.mem_append_left _ counted))
      · exact .inl (List.mem_singleton.mp new)
    have distinct : (exploreDifferencingVariants rows audits input).Nodup := List.nodup_dedup _
    simp only [snapshot, List.contains_iff_mem] at left
    by_cases counted : input.variant ∈ exploreDifferencingVariants rows audits input
    · rw [if_pos counted] at left
      rw [List.dedup_cons_of_mem counted, distinct.dedup] at fewer
      have some := List.length_pos_of_mem counted
      omega
    · rw [if_neg counted] at left
      rw [List.dedup_cons_of_notMem counted, distinct.dedup, List.length_cons] at fewer
      omega

/-! ### Runs -/

/-- The ledger with the rows that were deleted, as they were, and the time of the last
    claim. -/
structure State where
  rows : List Reservation
  deleted : List Reservation
  clock : ℤ

def State.empty (since : ℤ) : State := ⟨[], [], since⟩

/-- Every reservation that was admitted. -/
def State.admitted (s : State) : List Reservation := s.deleted ++ s.rows

/-- A claim finds the audits as they are then. -/
inductive Event where
  | claim (audits : List QueryAudit) (input : ReservationInput)
  | complete (input : CompletionInput)

def step (s : State) : Event → State
  | .claim audits input => match claimExploreBudgetReservation s.rows audits input with
    | .error _ => { s with clock := input.now }
    | .ok (_, rows) => ⟨rows, s.deleted ++ deletedAt input.now s.rows, input.now⟩
  | .complete input => match completeExploreBudgetReservation s.rows input with
    | .error _ => s
    | .ok (_, rows) => { s with rows }

def ClockForward (s : State) : Event → Prop
  | .claim _ input => s.clock ≤ input.now
  | .complete _ => True

/-- The claims of the scope have these limits. -/
def FixedLimits (scope : String) (limits : BudgetLimits) : Event → Prop
  | .claim _ input => input.scope = scope → input.limits = limits
  | .complete _ => True

def Regular (scope : String) (limits : BudgetLimits) (s : State) (e : Event) : Prop :=
  ClockForward s e ∧ FixedLimits scope limits e

/-- What a claim does to the rows. -/
theorem claim_cases {rows rows' : List Reservation} {audits : List QueryAudit} {input : ReservationInput}
    {decision : BudgetDecision} (claimed : claimExploreBudgetReservation rows audits input = .ok (decision, rows')) :
    (rows' = pruned input.now rows ∧ ∃ code message usage, decision = .refused code message usage) ∨
      (rows' = pruned input.now rows ++ [reserved input] ∧ (∃ usage counted, decision = .admitted usage counted) ∧
        enforcePrivacyBudgets input.limits (snapshot (pruned input.now rows) audits input) input.estimatedCells
          input.requiresDifferencing = none) := by
  obtain ⟨_, _, rest⟩ := bind_eq_ok claimed
  cases room : enforcePrivacyBudgets input.limits (snapshot (pruned input.now rows) audits input) input.estimatedCells
      input.requiresDifferencing with
  | some code =>
    simp only [room] at rest
    cases rest
    exact .inl ⟨rfl, _, _, _, rfl⟩
  | none =>
    simp only [room] at rest
    obtain ⟨_, _, rest⟩ := bind_eq_ok rest
    cases rest
    exact .inr ⟨rfl, ⟨_, _, rfl⟩, rfl⟩

structure Sound (limits : BudgetLimits) (scope : String) (s : State) : Prop where
  past : ∀ r ∈ s.admitted, r.createdAt ≤ s.clock
  gone : ∀ r ∈ s.deleted, r.createdAt < s.clock - retention
  fresh : ∀ r ∈ s.rows, AsReserved r
  bounded : Bounded limits scope s.admitted

theorem pruned_perm (now : ℤ) (rows : List Reservation) : (deletedAt now rows ++ pruned now rows).Perm rows :=
  List.filter_append_perm _ _

/-- A window that ends now reaches no deleted row. -/
theorem filter_old {width now : ℤ} {l : List Reservation} (shorter : width ≤ retention)
    (old : ∀ r ∈ l, r.createdAt < now - retention) : l.filter (within Reservation.createdAt width now) = [] := by
  refine List.filter_eq_nil_iff.mpr fun r member => ?_
  have early := old r member
  simp only [within, decide_eq_true_eq]
  omega

theorem filter_admitted {width now : ℤ} {s : State} (shorter : width ≤ retention) (sound : Sound limits scope s)
    (forward : s.clock ≤ now) :
    (s.deleted ++ (deletedAt now s.rows ++ pruned now s.rows)).filter (within Reservation.createdAt width now) =
      (pruned now s.rows).filter (within Reservation.createdAt width now) := by
  have before : ∀ r ∈ s.deleted, r.createdAt < now - retention := by
    intro r member
    have early := sound.gone r member
    omega
  have gone : ∀ r ∈ deletedAt now s.rows, r.createdAt < now - retention := by
    intro r member
    exact of_decide_eq_true (List.mem_filter.mp member).2
  rw [List.filter_append, List.filter_append, filter_old shorter before, filter_old shorter gone, List.nil_append,
    List.nil_append]

/-- A reservation of another scope adds nothing. -/
theorem bounded_append_other {l : List Reservation} {r : Reservation} (bounded : Bounded limits scope l)
    (other : ofScope scope r = false) : Bounded limits scope (l ++ [r]) := by
  have dropped : ∀ p : Reservation → Bool, ((l ++ [r]).filter p).filter (ofScope scope) = (l.filter p).filter (ofScope scope) := by
    intro p
    rw [List.filter_append, List.filter_append]
    have none : ([r].filter p).filter (ofScope scope) = [] := by
      refine List.filter_eq_nil_iff.mpr fun x member => ?_
      rw [List.mem_singleton.mp (List.mem_filter.mp member).1, other]
      exact Bool.false_ne_true
    rw [none, List.append_nil]
  constructor
  · intro t
    rw [queryLoad, dropped]
    exact bounded.queries t
  · intro t
    rw [queryLoad, dropped]
    exact bounded.perMinute t
  · intro t
    rw [cellLoad, dropped]
    exact bounded.cells t
  · intro resource t
    rw [variantLoad, dropped]
    exact bounded.variants resource t

/-- An admitted reservation of the scope leaves every window within its bounds. -/
theorem bounded_append {l rows : List Reservation} {audits : List QueryAudit} {input : ReservationInput}
    (bounded : Bounded input.limits input.scope l) (past : ∀ r ∈ l, r.createdAt ≤ input.now)
    (sameDay : l.filter (inDay input.now) = rows.filter (inDay input.now))
    (sameMinute : l.filter (inMinute input.now) = rows.filter (inMinute input.now))
    (room : enforcePrivacyBudgets input.limits (snapshot rows audits input) input.estimatedCells
      input.requiresDifferencing = none) : Bounded input.limits input.scope (l ++ [reserved input]) := by
  obtain ⟨queries, minute, cells, variants⟩ := room_of_admitted room
  have own : ofScope input.scope (reserved input) = true := decide_eq_true rfl
  have alone : [reserved input].filter (ofScope input.scope) = [reserved input] := by simp [own]
  have inside : (l ++ [reserved input]).filter (inDay input.now) = rows.filter (inDay input.now) ++ [reserved input] := by
    rw [List.filter_append, sameDay]
    simp [inDay_reserved]
  have insideMinute :
      (l ++ [reserved input]).filter (inMinute input.now) = rows.filter (inMinute input.now) ++ [reserved input] := by
    rw [List.filter_append, sameMinute]
    simp [inMinute_reserved]
  constructor
  · refine window_bound (load_queryLoad _) past bounded.queries ?_
    show queryLoad input.scope ((l ++ [reserved input]).filter (inDay input.now)) ≤ _
    rw [inside, queryLoad, List.filter_append, alone, List.length_append]
    exact queries
  · refine window_bound (load_queryLoad _) past bounded.perMinute ?_
    show queryLoad input.scope ((l ++ [reserved input]).filter (inMinute input.now)) ≤ _
    rw [insideMinute, queryLoad, List.filter_append, alone, List.length_append]
    exact minute
  · refine window_bound (load_cellLoad _) past bounded.cells ?_
    show cellLoad input.scope ((l ++ [reserved input]).filter (inDay input.now)) ≤ _
    rw [inside, cellLoad, List.filter_append, alone, List.map_append, List.sum_append]
    exact cells
  · intro resource
    refine window_bound (load_variantLoad _ _) past (bounded.variants resource) ?_
    show variantLoad input.scope resource ((l ++ [reserved input]).filter (inDay input.now)) ≤ _
    by_cases counts : countsFor resource (reserved input) = true
    · simp only [countsFor, Bool.and_eq_true, decide_eq_true_eq] at counts
      obtain ⟨own', requires⟩ := counts
      obtain rfl : input.resource = resource := own'
      have few := variants requires
      rw [recent_eq] at few
      have counted : countsFor input.resource (reserved input) = true := by
        simp only [countsFor, Bool.and_eq_true, decide_eq_true_eq]
        exact ⟨rfl, requires⟩
      have counting : [reserved input].filter (countsFor input.resource) = [reserved input] := by simp [counted]
      rw [inside, variantLoad, List.filter_append, alone, List.filter_append, counting, List.map_append]
      exact few
    · rw [Bool.not_eq_true] at counts
      have before := bounded.variants resource input.now
      rw [sameDay] at before
      have nothing : [reserved input].filter (countsFor resource) = [] := by simp [counts]
      rw [inside, variantLoad, List.filter_append, alone, List.filter_append, nothing, List.append_nil]
      exact before

theorem day_le_retention : day ≤ retention := by decide
theorem minute_le_retention : minute ≤ retention := by decide

theorem sound_claim {s : State} {audits : List QueryAudit} {input : ReservationInput} (sound : Sound limits scope s)
    (forward : s.clock ≤ input.now) (fixed : input.scope = scope → input.limits = limits) :
    Sound limits scope (step s (.claim audits input)) := by
  have earlier : ∀ r ∈ s.admitted, r.createdAt ≤ input.now := fun r member => (sound.past r member).trans forward
  simp only [step]
  cases claimed : claimExploreBudgetReservation s.rows audits input with
  | error e =>
    refine ⟨earlier, fun r member => ?_, sound.fresh, sound.bounded⟩
    have early := sound.gone r member
    show r.createdAt < input.now - retention
    omega
  | ok answer =>
    obtain ⟨decision, rows⟩ := answer
    have order : (s.deleted ++ (deletedAt input.now s.rows ++ pruned input.now s.rows)).Perm s.admitted :=
      (pruned_perm input.now s.rows).append_left s.deleted
    have gone : ∀ r ∈ s.deleted ++ deletedAt input.now s.rows, r.createdAt < input.now - retention := by
      intro r member
      rcases List.mem_append.mp member with before | now
      · have early := sound.gone r before
        omega
      · exact of_decide_eq_true (List.mem_filter.mp now).2
    have kept : ∀ r ∈ pruned input.now s.rows, AsReserved r := fun r member => sound.fresh r (List.mem_filter.mp member).1
    rcases claim_cases claimed with ⟨rfl, _⟩ | ⟨rfl, _, room⟩
    · have same : (s.deleted ++ deletedAt input.now s.rows ++ pruned input.now s.rows).Perm s.admitted := by
        rw [List.append_assoc]
        exact order
      exact ⟨fun r member => earlier r (same.subset member), gone, kept, sound.bounded.perm same.symm⟩
    · have listed : s.deleted ++ deletedAt input.now s.rows ++ (pruned input.now s.rows ++ [reserved input]) =
          s.deleted ++ (deletedAt input.now s.rows ++ pruned input.now s.rows) ++ [reserved input] := by
        simp only [List.append_assoc]
      refine ⟨fun r member => ?_, gone, fun r member => ?_, ?_⟩
      · simp only [State.admitted, listed] at member
        rcases List.mem_append.mp member with before | new
        · exact earlier r (order.subset before)
        · rw [List.mem_singleton.mp new]
          exact le_rfl
      · rcases List.mem_append.mp member with before | new
        · exact kept r before
        · rw [List.mem_singleton.mp new]
          exact fun _ => ⟨rfl, rfl⟩
      · show Bounded limits scope
          (s.deleted ++ deletedAt input.now s.rows ++ (pruned input.now s.rows ++ [reserved input]))
        rw [listed]
        have before := sound.bounded.perm order.symm
        by_cases own : input.scope = scope
        · obtain rfl := own
          obtain rfl := fixed rfl
          exact bounded_append before (fun r member => earlier r (order.subset member))
            (filter_admitted day_le_retention sound forward) (filter_admitted minute_le_retention sound forward) room
        · exact bounded_append_other before (decide_eq_false own)

theorem sound_complete {s : State} {input : CompletionInput} (sound : Sound limits scope s) :
    Sound limits scope (step s (.complete input)) := by
  simp only [step]
  cases answered : completeExploreBudgetReservation s.rows input with
  | error e => exact sound
  | ok answer =>
    obtain ⟨decision, rows⟩ := answer
    have related : List.Forall₂ NoMore s.rows rows ∧ ∀ r ∈ rows, AsReserved r := by
      obtain ⟨_, _, rest⟩ := bind_eq_ok answered
      split at rest
      · cases rest
        exact ⟨List.forall₂_same.mpr fun r _ => .refl r, sound.fresh⟩
      · cases rest
        refine ⟨List.forall₂_map_right_iff.mpr (List.forall₂_same.mpr fun r member => ?_), fun r member => ?_⟩
        · exact (completeRow_noMore input (sound.fresh r member)).1
        · obtain ⟨r', listed, rfl⟩ := List.mem_map.mp member
          exact (completeRow_noMore input (sound.fresh r' listed)).2
    have all : List.Forall₂ NoMore s.admitted (s.deleted ++ rows) :=
      List.rel_append (List.forall₂_same.mpr fun r _ => .refl r) related.1
    refine ⟨fun r member => ?_, sound.gone, related.2, sound.bounded.noMore all⟩
    obtain ⟨r', listed, same⟩ := noMore_mem all member
    rw [same.createdAt]
    exact sound.past r' listed

theorem sound_step {s : State} {e : Event} (sound : Sound limits scope s) (regular : Regular scope limits s e) :
    Sound limits scope (step s e) := by
  cases e with
  | claim audits input => exact sound_claim sound regular.1 regular.2
  | complete input => exact sound_complete sound

theorem sound_empty (since : ℤ) : Sound limits scope (.empty since) where
  past := by simp [State.admitted, State.empty]
  gone := by simp [State.empty]
  fresh := by simp [State.empty]
  bounded := ⟨fun _ => Nat.zero_le _, fun _ => Nat.zero_le _, fun _ => Nat.zero_le _, fun _ _ => Nat.zero_le _⟩

/-- A refused claim leaves the rows, but for those older than thirty days. -/
def RefusalsPrune (s : State) : Prop :=
  ∀ audits input code message usage rows,
    claimExploreBudgetReservation s.rows audits input = .ok (.refused code message usage, rows) →
      rows = pruned input.now s.rows

theorem refusalsPrune (s : State) : RefusalsPrune s := by
  intro audits input code message usage rows claimed
  rcases claim_cases claimed with ⟨rfl, _⟩ | ⟨_, ⟨_, _, other⟩, _⟩
  · rfl
  · cases other

/-- In a run whose clock does not go back and that has fixed limits for the scope, every
    trailing window of the scope is within the limits, and refusals only delete what is
    past its retention. -/
theorem budgets_hold (limits : BudgetLimits) (scope : String) (since : ℤ) (events : List Event)
    (regular : Throughout step (Regular scope limits) (.empty since) events) :
    Bounded limits scope (run step (.empty since) events).admitted ∧ RefusalsPrune (run step (.empty since) events) :=
  ⟨(invariant_of_throughout (Sound limits scope) (fun _ _ => sound_step) regular (sound_empty since)).bounded,
    refusalsPrune _⟩

/-! ### A refusal that deletes -/

def RefusalsKeep (s : State) : Prop :=
  ∀ audits input code message usage rows,
    claimExploreBudgetReservation s.rows audits input = .ok (.refused code message usage, rows) → rows = s.rows

def oneOfEach : BudgetLimits := ⟨1, 1, 1, 1, 1⟩

def oneQuery (reservationId : String) (cells : ℕ) (now : ℤ) : ReservationInput :=
  ⟨reservationId, "sha256:s", [], "orders", "sha256:v", true, cells, oneOfEach, now⟩

/-- A reservation, and a query of too many cells thirty-one days later. -/
def lateRefusal : List Event := [.claim [] (oneQuery "r1" 1 0), .claim [] (oneQuery "r2" 2 (31 * day))]

theorem lateRefusal_regular : Throughout step (Regular "sha256:s" oneOfEach) (.empty 0) lateRefusal := by
  have forward : (step (.empty 0) (.claim [] (oneQuery "r1" 1 0))).clock ≤ 31 * day := by with_unfolding_all decide
  exact ⟨⟨le_refl (0 : ℤ), fun _ => rfl⟩, ⟨forward, fun _ => rfl⟩, trivial⟩

/-- The windows of a run with an admitted and a refused reservation. -/
theorem lateRefusal_bounded : Bounded oneOfEach "sha256:s" (run step (.empty 0) lateRefusal).admitted ∧
    RefusalsPrune (run step (.empty 0) lateRefusal) :=
  budgets_hold oneOfEach "sha256:s" 0 lateRefusal lateRefusal_regular

/-- The refused query deletes the reservation. -/
theorem refusal_deletes : ¬ ∀ limits scope since events, Throughout step (Regular scope limits) (.empty since) events →
    Bounded limits scope (run step (.empty since) events).admitted ∧ RefusalsKeep (run step (.empty since) events) := by
  intro safe
  have first : Throughout step (Regular "sha256:s" oneOfEach) (.empty 0) [.claim [] (oneQuery "r1" 1 0)] :=
    ⟨⟨le_refl (0 : ℤ), fun _ => rfl⟩, trivial⟩
  have refused : claimExploreBudgetReservation (run step (.empty 0) [.claim [] (oneQuery "r1" 1 0)]).rows []
      (oneQuery "r2" 2 (31 * day)) =
        .ok (.refused .extractionBudgetExhausted BudgetCode.extractionBudgetExhausted.message ⟨0, 0, 0, 0⟩, []) := by
    with_unfolding_all decide
  have kept := (safe oneOfEach "sha256:s" 0 _ first).2 _ _ _ _ _ _ refused
  have one : (run step (.empty 0) [.claim [] (oneQuery "r1" 1 0)]).rows.length = 1 := by with_unfolding_all decide
  rw [← kept] at one
  cases one

end SynapsorRunner.ExploreBudgets
