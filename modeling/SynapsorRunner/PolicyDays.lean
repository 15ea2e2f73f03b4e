import SynapsorRunner.Doubles
import SynapsorRunner.ProposalRuns

/-!
The daily limits of policy approvals, with the times as the texts that the store has of
them. `approveProposalByPolicy` counts the approvals whose `created_at` lies between two
texts, the bounds of a UTC day as `toISOString` writes them, and adds their values as
numbers of double precision. So a limit holds as long as every earlier approval counts
on the day that its text means, and every partial sum is a number (`days_limited`). A
time with an offset can be a text of another day (`offset_not_counted`).
-/
namespace SynapsorRunner.PolicyDays
open SynapsorRunner.Protocol SynapsorRunner.Proposals SynapsorRunner.ProposalStore SynapsorRunner.Doubles
open SynapsorRunner.Runs

/-! ### Days -/

/-- `Date.parse`: the milliseconds since 1970, when a text is a time. -/
structure Clock where
  parse : String → Option ℤ

def millisecondsPerDay : ℤ := 86400000

/-- The UTC day of an instant. -/
def utcDay (instant : ℤ) : ℤ := instant / millisecondsPerDay

/-- Year, month and day of the month, by eras of 400 years that start in March. -/
def civil (days : ℤ) : ℤ × ℤ × ℤ :=
  let shifted := days + 719468
  let era := shifted / 146097
  let ofEra := shifted - era * 146097
  let yearOfEra := (ofEra - ofEra / 1460 + ofEra / 36524 - ofEra / 146096) / 365
  let ofYear := ofEra - (365 * yearOfEra + yearOfEra / 4 - yearOfEra / 100)
  let march := (5 * ofYear + 2) / 153
  let month := if march < 10 then march + 3 else march - 9
  (yearOfEra + era * 400 + (if month ≤ 2 then 1 else 0), month, ofYear - (153 * march + 2) / 5 + 1)

/-- The day of the first of a month. -/
def dayOfMonth (year month : ℤ) : ℤ :=
  let shifted := if month ≤ 2 then year - 1 else year
  let era := shifted / 400
  let yearOfEra := shifted - era * 400
  let ofYear := (153 * (if month > 2 then month - 3 else month + 9) + 2) / 5
  era * 146097 + (yearOfEra * 365 + yearOfEra / 4 - yearOfEra / 100 + ofYear) - 719468

/-- `Date.UTC`, which takes the years 0 to 99 for those of the last century. -/
def dateUTC (year month day : ℤ) : ℤ :=
  (dayOfMonth (if 0 ≤ year ∧ year ≤ 99 then year + 1900 else year) month + day - 1) * millisecondsPerDay

def padded (width n : ℕ) : String :=
  let digits := toString n
  String.ofList (List.replicate (width - digits.length) '0') ++ digits

def yearText (year : ℤ) : String :=
  if 0 ≤ year ∧ year ≤ 9999 then padded 4 year.toNat
  else (if year < 0 then "-" else "+") ++ padded 6 year.natAbs

/-- `Date.prototype.toISOString`. -/
def toISOString (instant : ℤ) : Except StoreError String :=
  if instant.natAbs > 8640000000000000 then .error (.proposalStore "RangeError" "Invalid time value")
  else
    let (year, month, day) := civil (utcDay instant)
    let rest := (instant - utcDay instant * millisecondsPerDay).toNat
    .ok (yearText year ++ "-" ++ padded 2 month.toNat ++ "-" ++ padded 2 day.toNat ++ "T" ++
      padded 2 (rest / 3600000) ++ ":" ++ padded 2 (rest / 60000 % 60) ++ ":" ++ padded 2 (rest / 1000 % 60) ++ "." ++
      padded 3 (rest % 1000) ++ "Z")

/-- The bounds of a day, as texts. -/
structure DayWindow where
  start : String
  stop : String
  deriving DecidableEq, Repr

/-- The order of texts, by the code points of their characters. -/
def textBefore : List Char → List Char → Bool
  | _, [] => false
  | [], _ :: _ => true
  | a :: as, b :: bs => decide (a.toNat < b.toNat) || (decide (a.toNat = b.toNat) && textBefore as bs)

/-- `created_at >= ? AND created_at < ?`. -/
def DayWindow.contains (window : DayWindow) (text : String) : Bool :=
  !textBefore text.toList window.start.toList && textBefore text.toList window.stop.toList

/-- The instant that `utcDayWindow` reads off a text. -/
def policyInstant (clock : Clock) (value : String) : Except StoreError ℤ :=
  match clock.parse value with
  | some instant => .ok instant
  | none => .error (.proposalStore "INVALID_POLICY_CLOCK" ("invalid policy evaluation time: " ++ value))

/-- `utcDayWindow`. -/
def utcDayWindow (instant : ℤ) : Except StoreError DayWindow := do
  let (year, month, day) := civil (utcDay instant)
  let start ← toISOString (dateUTC year month day)
  let stop ← toISOString (dateUTC year month day + millisecondsPerDay)
  pure ⟨start, stop⟩

example : (utcDayWindow 1783917000000).toOption = some ⟨"2026-07-13T00:00:00.000Z", "2026-07-14T00:00:00.000Z"⟩ := by
  decide

/-! ### Limits -/

/-- A limit that the number of patches or the exact sum of their values exceeds. -/
def exceeds (limit : PolicyApprovalLimit) (patches : List Record) : Bool :=
  match limit.kind with
  | .count => decide (limit.max < patches.length)
  | .total => match patchValues limit.field patches with
    | none => true
    | some values => decide (limit.max < (values.sum : ℤ))

/-- The partial sums of a limit on values are numbers. -/
def Summable (limit : PolicyApprovalLimit) (patches : List Record) : Prop :=
  limit.kind = .total → ∀ values, patchValues limit.field patches = some values → NumberSums 0 values

/-- Where the partial sums are numbers, the check of the store is exact. -/
theorem exceededBy_eq_exceeds {limit : PolicyApprovalLimit} {patches : List Record} (summable : Summable limit patches) :
    limit.exceededBy patches = exceeds limit patches := by
  cases kind : limit.kind with
  | count => simp only [PolicyApprovalLimit.exceededBy, exceeds, kind]
  | total =>
    cases read : patchValues limit.field patches with
    | none => simp only [PolicyApprovalLimit.exceededBy, exceeds, kind, read]
    | some values =>
      simp only [PolicyApprovalLimit.exceededBy, exceeds, kind, read, sumNumbers_eq (summable kind values read), zero_add]

/-! ### The store -/

/-- A row of `approvals`, with the `aggregate_limits` of its event. -/
structure DatedApproval where
  proposalId : String
  proposalVersion : ℕ
  proposalHash : String
  approver : String
  status : DecisionStatus
  reason : Option String
  freshnessProofDigest : Option String
  createdAt : String
  aggregateLimits : List PolicyApprovalLimit
  deriving DecidableEq

/-- An approval as the check of a freshness proof reads it, which takes no time. -/
def DatedApproval.undated (a : DatedApproval) : StoredApproval :=
  { proposalId := a.proposalId, proposalVersion := a.proposalVersion, proposalHash := a.proposalHash
    approver := a.approver, status := a.status, reason := a.reason, freshnessProofDigest := a.freshnessProofDigest
    createdAt := 0 }

structure PolicyStore where
  proposals : KeyedMap String ProposalRow
  approvals : List DatedApproval
  freshnessProofs : List FreshnessProof

def PolicyStore.tables (s : PolicyStore) : Store :=
  { Store.empty with
    proposals := s.proposals, approvals := s.approvals.map DatedApproval.undated, freshnessProofs := s.freshnessProofs }

/-- The change set of an approval's proposal, when it counts toward a limit on `row`. -/
def PolicyStore.counted (s : PolicyStore) (limit : PolicyApprovalLimit) (row : ProposalRow) (a : DatedApproval) :
    Option Record :=
  ((s.proposals.get? a.proposalId).filter fun other =>
    decide (other.tenantId = row.tenantId) && limit.sameScope other row).map (·.changeSet.patch)

/-- What the query of a limit returns. -/
def PolicyStore.history (s : PolicyStore) (window : DayWindow) (actor : String) (limit : PolicyApprovalLimit)
    (row : ProposalRow) : List Record :=
  (s.approvals.filter fun a => decide (a.approver = actor ∧ a.status = .approved) && window.contains a.createdAt).filterMap
    (s.counted limit row)

structure PolicyCall where
  proposalId : String
  policy : String
  proposalHash : String
  proposalVersion : ℕ
  reason : String
  limits : List PolicyApprovalLimit
  now : String
  freshnessProofDigest : Option String

def PolicyCall.actor (call : PolicyCall) : String := "policy:" ++ call.policy

def PolicyCall.approval (call : PolicyCall) : DatedApproval :=
  { proposalId := call.proposalId, proposalVersion := call.proposalVersion, proposalHash := call.proposalHash
    approver := call.actor, status := .approved, reason := some call.reason
    freshnessProofDigest := call.freshnessProofDigest, createdAt := call.now, aggregateLimits := call.limits }

def PolicyStore.approve (s : PolicyStore) (call : PolicyCall) (instant : ℤ) : PolicyStore :=
  { s with
    proposals := (s.tables.writeState call.proposalId .approved instant.toNat).proposals
    approvals := s.approvals ++ [call.approval] }

/-- `approveProposalByPolicy`. -/
def approveProposalByPolicy (runtime : StoreRuntime) (clock : Clock) (s : PolicyStore) (call : PolicyCall) :
    Except StoreError PolicyStore := do
  let instant ← policyInstant clock call.now
  let window ← utcDayWindow instant
  let proposal ← s.tables.requireProposal call.proposalId
  assertWritebackAllowed proposal.toStoredProposal "approved by policy"
  assertProposalIdentity proposal.toStoredProposal call.proposalHash call.proposalVersion
  ensure (proposal.state = .pendingReview)
    (.proposalStore "PROPOSAL_NOT_PENDING_REVIEW" ("proposal " ++ call.proposalId ++ " is " ++ proposal.state.text))
  if requiredApprovalCount proposal.toStoredProposal > 1 then pure s
  else if call.limits.any fun limit =>
      limit.exceededBy (s.history window call.actor limit proposal ++ [proposal.changeSet.patch]) then pure s
  else do
    assertApprovalFreshness runtime s.tables proposal call.freshnessProofDigest instant.toNat
    pure (s.approve call instant)

def policyStep (runtime : StoreRuntime) (clock : Clock) (s : PolicyStore) (call : PolicyCall) : PolicyStore :=
  (approveProposalByPolicy runtime clock s call).toOption.getD s

/-- What a call did: nothing, or an approval within the limits of the query. -/
theorem policyStep_cases (runtime : StoreRuntime) (clock : Clock) (s : PolicyStore) (call : PolicyCall) :
    policyStep runtime clock s call = s ∨
      ∃ instant window proposal, clock.parse call.now = some instant ∧ utcDayWindow instant = .ok window ∧
        s.proposals.get? call.proposalId = some proposal ∧ proposal.state = .pendingReview ∧
        (∀ limit ∈ call.limits,
          limit.exceededBy (s.history window call.actor limit proposal ++ [proposal.changeSet.patch]) = false) ∧
        policyStep runtime clock s call = s.approve call instant := by
  unfold policyStep
  cases approved : approveProposalByPolicy runtime clock s call with
  | error e => exact .inl rfl
  | ok s' =>
    obtain ⟨instant, parsed, rest⟩ := bind_eq_ok approved
    obtain ⟨window, bounds, rest⟩ := bind_eq_ok rest
    obtain ⟨proposal, found, rest⟩ := bind_eq_ok rest
    obtain ⟨_, _, rest⟩ := bind_eq_ok rest
    obtain ⟨_, _, rest⟩ := bind_eq_ok rest
    obtain ⟨_, pending, rest⟩ := bind_eq_ok rest
    split at rest
    · cases rest
      exact .inl rfl
    split at rest
    · cases rest
      exact .inl rfl
    · rename_i within
      obtain ⟨_, _, rest⟩ := bind_eq_ok rest
      cases rest
      refine .inr ⟨instant, window, proposal, ?_, bounds, Store.requireProposal_ok_iff.mp found, ensure_ok_iff.mp pending,
        ?_, rfl⟩
      · unfold policyInstant at parsed
        split at parsed
        · rename_i same
          cases parsed
          exact same
        · cases parsed
      · simpa using within

/-! ### The approvals of a day -/

def DatedApproval.day (clock : Clock) (a : DatedApproval) : Option ℤ := (clock.parse a.createdAt).map utcDay

/-- The patches that a policy approved on a UTC day, of those that count toward a limit
    on `row`. -/
def PolicyStore.approvedOn (s : PolicyStore) (clock : Clock) (approvals : List DatedApproval) (actor : String) (day : ℤ)
    (limit : PolicyApprovalLimit) (row : ProposalRow) : List Record :=
  (approvals.filter fun a => decide (a.approver = actor ∧ a.status = .approved ∧ a.day clock = some day)).filterMap
    (s.counted limit row)

/-- The approval of a later row is not one of those that count with `a`. -/
def Apart (s : PolicyStore) (clock : Clock) (limit : PolicyApprovalLimit) (row : ProposalRow) (a b : DatedApproval) : Prop :=
  ¬ (b.approver = a.approver ∧ b.status = .approved ∧ b.day clock = a.day clock ∧ s.counted limit row b ≠ none)

/-- The approvals of every policy, tenant and day, and of every object where a limit is
    per object, are within the limits that were in force at the last of them. -/
def DaysLimited (clock : Clock) (s : PolicyStore) : Prop :=
  ∀ earlier a later, s.approvals = earlier ++ a :: later → ∀ limit ∈ a.aggregateLimits, ∀ row day,
    s.proposals.get? a.proposalId = some row → a.day clock = some day → (∀ b ∈ later, Apart s clock limit row a b) →
      exceeds limit (s.approvedOn clock s.approvals a.approver day limit row) = false

/-- The condition on a call that may approve: for each of its limits, the query counts the
    earlier approvals of the day of `now` and no others, and the partial sums are
    numbers. -/
def CountsTheDay (clock : Clock) (s : PolicyStore) (call : PolicyCall) : Prop :=
  ∀ instant window row, clock.parse call.now = some instant → utcDayWindow instant = .ok window →
    s.proposals.get? call.proposalId = some row → row.state = .pendingReview → ∀ limit ∈ call.limits,
      (∀ a ∈ s.approvals, a.approver = call.actor → a.status = .approved → s.counted limit row a ≠ none →
        (window.contains a.createdAt = true ↔ a.day clock = some (utcDay instant))) ∧
      Summable limit (s.history window call.actor limit row ++ [row.changeSet.patch])

/-! ### Runs -/

/-- The row of a proposal after a call differs in its state and time only. -/
theorem get?_approve (s : PolicyStore) (call : PolicyCall) (instant : ℤ) (id : String) :
    (s.approve call instant).proposals.get? id = if id = call.proposalId then
      (s.proposals.get? id).map fun row => { row with state := .approved, updatedAt := instant.toNat }
    else s.proposals.get? id := by
  show (s.proposals.modify call.proposalId _).get? id = _
  rw [KeyedMap.get?_modify]
  by_cases same : id = call.proposalId
  · rw [if_pos same, if_pos same, same]
  · rw [if_neg same, if_neg same]

/-- Two states of one proposal. -/
structure SameProposal (row other : ProposalRow) : Prop where
  tenantId : other.tenantId = row.tenantId
  businessObject : other.businessObject = row.businessObject
  objectId : other.objectId = row.objectId
  changeSet : other.changeSet = row.changeSet

theorem approve_sameProposal {s : PolicyStore} {call : PolicyCall} {instant : ℤ} {id : String} {row : ProposalRow}
    (found : (s.approve call instant).proposals.get? id = some row) :
    ∃ before, s.proposals.get? id = some before ∧ SameProposal before row := by
  rw [get?_approve] at found
  by_cases same : id = call.proposalId
  · rw [if_pos same] at found
    obtain ⟨before, stored, rfl⟩ := Option.map_eq_some_iff.mp found
    exact ⟨before, stored, rfl, rfl, rfl, rfl⟩
  · rw [if_neg same] at found
    exact ⟨row, found, rfl, rfl, rfl, rfl⟩

theorem counted_sameProposal (s : PolicyStore) (limit : PolicyApprovalLimit) {row other : ProposalRow}
    (same : SameProposal row other) (a : DatedApproval) : s.counted limit other a = s.counted limit row a := by
  simp only [PolicyStore.counted, PolicyApprovalLimit.sameScope, same.tenantId, same.businessObject, same.objectId]

theorem counted_approve (s : PolicyStore) (call : PolicyCall) (instant : ℤ) (limit : PolicyApprovalLimit)
    (row : ProposalRow) (a : DatedApproval) : (s.approve call instant).counted limit row a = s.counted limit row a := by
  unfold PolicyStore.counted
  rw [get?_approve]
  by_cases same : a.proposalId = call.proposalId
  · rw [if_pos same]
    cases s.proposals.get? a.proposalId with
    | none => rfl
    | some other =>
      simp only [Option.map_some, Option.filter_some, PolicyApprovalLimit.sameScope]
      split <;> rfl
  · rw [if_neg same]

theorem approvedOn_approve (s : PolicyStore) (clock : Clock) (call : PolicyCall) (instant : ℤ)
    (approvals : List DatedApproval) (actor : String) (day : ℤ) (limit : PolicyApprovalLimit) {row other : ProposalRow}
    (same : SameProposal row other) :
    (s.approve call instant).approvedOn clock approvals actor day limit other =
      s.approvedOn clock approvals actor day limit row := by
  have each : (s.approve call instant).counted limit other = s.counted limit row := by
    funext a
    rw [counted_approve, counted_sameProposal s limit same]
  simp only [PolicyStore.approvedOn, each]

theorem approvedOn_append (s : PolicyStore) (clock : Clock) (a b : List DatedApproval) (actor : String) (day : ℤ)
    (limit : PolicyApprovalLimit) (row : ProposalRow) :
    s.approvedOn clock (a ++ b) actor day limit row =
      s.approvedOn clock a actor day limit row ++ s.approvedOn clock b actor day limit row := by
  simp [PolicyStore.approvedOn, List.filter_append, List.filterMap_append]

/-- Where the query counts the day, it returns the approvals of the day. -/
theorem history_eq {s : PolicyStore} {clock : Clock} {window : DayWindow} {actor : String} {day : ℤ}
    {limit : PolicyApprovalLimit} {row : ProposalRow}
    (counts : ∀ a ∈ s.approvals, a.approver = actor → a.status = .approved → s.counted limit row a ≠ none →
      (window.contains a.createdAt = true ↔ a.day clock = some day)) :
    s.history window actor limit row = s.approvedOn clock s.approvals actor day limit row := by
  unfold PolicyStore.history PolicyStore.approvedOn
  rw [List.filterMap_filter, List.filterMap_filter]
  refine List.filterMap_congr fun a member => ?_
  by_cases here : a.approver = actor ∧ a.status = .approved ∧ s.counted limit row a ≠ none
  · obtain ⟨approver, status, some⟩ := here
    have window' := counts a member approver status some
    by_cases inside : window.contains a.createdAt = true
    · simp [approver, status, inside, window'.mp inside]
    · have outside : a.day clock ≠ Option.some day := fun same => inside (window'.mpr same)
      simp [approver, status, inside, outside]
  · by_cases none : s.counted limit row a = none
    · simp [none]
    · have other : ¬ (a.approver = actor ∧ a.status = .approved) := fun both => here ⟨both.1, both.2, none⟩
      have other' : ¬ (a.approver = actor ∧ a.status = .approved ∧ a.day clock = some day) :=
        fun all => other ⟨all.1, all.2.1⟩
      simp [other, other']

/-- Every approval was within its limits when it was made. -/
def Admitted (clock : Clock) (s : PolicyStore) : Prop :=
  ∀ earlier a later, s.approvals = earlier ++ a :: later → ∀ limit ∈ a.aggregateLimits, ∀ row day,
    s.proposals.get? a.proposalId = some row → a.day clock = some day →
      exceeds limit (s.approvedOn clock (earlier ++ [a]) a.approver day limit row) = false

theorem admitted_step {runtime : StoreRuntime} {clock : Clock} {s : PolicyStore} {call : PolicyCall}
    (admitted : Admitted clock s) (counts : CountsTheDay clock s call) :
    Admitted clock (policyStep runtime clock s call) := by
  rcases policyStep_cases runtime clock s call with same | ⟨instant, window, proposal, parsed, bounds, found,
    pending, within, same⟩
  · rw [same]
    exact admitted
  rw [same]
  intro earlier a later split limit inForce row day stored onDay
  obtain ⟨before, stored', sameRow⟩ := approve_sameProposal stored
  rw [approvedOn_approve s clock call instant _ _ _ _ sameRow]
  have rows : s.approvals ++ [call.approval] = earlier ++ a :: later := split
  rcases List.eq_nil_or_concat later with rfl | ⟨later', last, rfl⟩
  · -- the approval of this call
    obtain ⟨rfl, last⟩ := List.append_inj' rows rfl
    cases last
    have own : s.proposals.get? call.proposalId = some before := stored'
    rw [found] at own
    cases own
    have today : day = utcDay instant := by
      have read : (clock.parse call.now).map utcDay = some day := onDay
      rw [parsed] at read
      simpa using read.symm
    obtain ⟨exact', summable⟩ := counts instant window proposal parsed bounds found pending limit inForce
    have patch : s.approvedOn clock [call.approval] call.actor day limit proposal = [proposal.changeSet.patch] := by
      have counted : s.counted limit proposal call.approval = some proposal.changeSet.patch := by
        simp [PolicyStore.counted, PolicyCall.approval, found, PolicyApprovalLimit.sameScope]
      have here : decide (call.approval.approver = call.actor ∧ call.approval.status = .approved ∧
          call.approval.day clock = some day) = true := decide_eq_true ⟨rfl, rfl, onDay⟩
      simp only [PolicyStore.approvedOn, List.filter_cons, here, if_true, List.filter_nil, List.filterMap_cons, counted,
        List.filterMap_nil]
    have total : s.approvedOn clock (s.approvals ++ [call.approval]) call.actor day limit proposal =
        s.history window call.actor limit proposal ++ [proposal.changeSet.patch] := by
      rw [approvedOn_append, patch, history_eq (today ▸ exact')]
    show exceeds limit (s.approvedOn clock (s.approvals ++ [call.approval]) call.actor day limit proposal) = false
    rw [total, ← exceededBy_eq_exceeds summable]
    exact within limit inForce
  · have earlierRows : s.approvals = earlier ++ a :: later' := by
      rw [List.concat_eq_append, ← List.cons_append, ← List.append_assoc] at rows
      exact (List.append_inj' rows rfl).1
    exact admitted earlier a later' earlierRows limit inForce before day stored' onDay

/-- What was within its limits is still, as long as no later approval counts with it. -/
theorem daysLimited_of_admitted {clock : Clock} {s : PolicyStore} (admitted : Admitted clock s) : DaysLimited clock s := by
  intro earlier a later split limit inForce row day stored onDay apart
  have none : s.approvedOn clock later a.approver day limit row = [] := by
    refine List.filterMap_eq_nil_iff.mpr fun b member => ?_
    obtain ⟨inside, good⟩ := List.mem_filter.mp member
    obtain ⟨approver, status, same⟩ := of_decide_eq_true good
    by_contra counted
    exact apart b inside ⟨approver, status, same.trans onDay.symm, counted⟩
  have rows : s.approvals = (earlier ++ [a]) ++ later := by
    rw [split, List.append_assoc, List.singleton_append]
  rw [rows, approvedOn_append, none, List.append_nil]
  exact admitted earlier a later split limit inForce row day stored onDay

/-- In a run of calls that count the day, the limits of every day hold. -/
theorem days_limited (runtime : StoreRuntime) (clock : Clock) {s : PolicyStore}
    (start : ∀ a ∈ s.approvals, a.aggregateLimits = []) {calls : List PolicyCall}
    (counts : Throughout (policyStep runtime clock) (CountsTheDay clock) s calls) :
    DaysLimited clock (run (policyStep runtime clock) s calls) := by
  refine daysLimited_of_admitted (invariant_of_throughout (Admitted clock) ?_ counts ?_)
  · intro s call admitted counts
    exact admitted_step admitted counts
  · intro earlier a later split limit inForce
    have member : a ∈ s.approvals := by
      rw [split]
      exact List.mem_append_right _ (List.mem_cons_self ..)
    rw [start a member] at inForce
    cases inForce

/-! ### Two approvals of one day -/

/-- Half past four on July 13, as a clock in New York has it on the evening of July 12 and
    as one in London has it, and ten o'clock. -/
def julyClock : Clock where
  parse text :=
    if text = "2026-07-12T23:30:00-05:00" ∨ text = "2026-07-13T04:30:00.000Z" then some 1783917000000
    else if text = "2026-07-13T10:00:00.000Z" then some 1783936800000
    else none

def ticketRow (id ticket : String) : ProposalRow := { closeTicketRow with proposalId := id, objectId := ticket }

def twoTickets : PolicyStore where
  proposals := .ofList [("prop_1", ticketRow "prop_1" "T-1"), ("prop_2", ticketRow "prop_2" "T-2")]
  approvals := []
  freshnessProofs := []

def closedADay (max : ℕ) : PolicyApprovalLimit := ⟨.count, max, none, none⟩

def ticketCall (id now : String) (max : ℕ) : PolicyCall :=
  { proposalId := id, policy := "small_closes", proposalHash := "sha256:aa", proposalVersion := 1, reason := "small"
    limits := [closedADay max], now, freshnessProofDigest := none }

/-- Two calls, of which the first is at half past four. -/
def ticketCalls (early : String) (max : ℕ) : List PolicyCall :=
  [ticketCall "prop_1" early max, ticketCall "prop_2" "2026-07-13T10:00:00.000Z" max]

def afterCalls (calls : List PolicyCall) : PolicyStore := run (policyStep constantStoreRuntime julyClock) twoTickets calls

theorem counted_in_london : Throughout (policyStep constantStoreRuntime julyClock) (CountsTheDay julyClock) twoTickets
    (ticketCalls "2026-07-13T04:30:00.000Z" 2) := by
  have count : ∀ patches, Summable (closedADay 2) patches := by
    rintro patches ⟨⟩
  refine ⟨?_, ?_, trivial⟩
  · intro instant window row parsed bounds found pending limit member
    obtain rfl := List.mem_singleton.mp member
    refine ⟨fun a none => ?_, count _⟩
    cases none
  · intro instant window row parsed bounds found pending limit member
    obtain rfl := List.mem_singleton.mp member
    refine ⟨fun a one _ _ _ => ?_, count _⟩
    have today : utcDay instant = 20647 := by
      have read : julyClock.parse "2026-07-13T10:00:00.000Z" = some instant := parsed
      obtain rfl : 1783936800000 = instant := by simpa [julyClock] using read
      rfl
    have day : utcDayWindow instant = utcDayWindow 1783917000000 := by
      unfold utcDayWindow
      rw [today]
      rfl
    have approvals : (afterCalls [ticketCall "prop_1" "2026-07-13T04:30:00.000Z" 2]).approvals =
        [(ticketCall "prop_1" "2026-07-13T04:30:00.000Z" 2).approval] := by
      decide
    have only : a ∈ (afterCalls [ticketCall "prop_1" "2026-07-13T04:30:00.000Z" 2]).approvals := one
    rw [approvals, List.mem_singleton] at only
    subst only
    have inside : (utcDayWindow 1783917000000).toOption.all fun window =>
        window.contains "2026-07-13T04:30:00.000Z" := by
      decide
    rw [← day, bounds] at inside
    exact iff_of_true inside (by rw [today]; decide)

/-- Two tickets that are closed on one day, within the limit. -/
theorem closed_in_london : DaysLimited julyClock (afterCalls (ticketCalls "2026-07-13T04:30:00.000Z" 2)) :=
  days_limited constantStoreRuntime julyClock (fun a none => absurd none (List.not_mem_nil)) counted_in_london

/-- Two tickets are closed on July 13 where one may be: the evening of July 12 in New York
    comes before the bounds of the day as a text. -/
theorem offset_not_counted : ¬ DaysLimited julyClock (afterCalls (ticketCalls "2026-07-12T23:30:00-05:00" 1)) := by
  intro limited
  have approvals : (afterCalls (ticketCalls "2026-07-12T23:30:00-05:00" 1)).approvals =
      [(ticketCall "prop_1" "2026-07-12T23:30:00-05:00" 1).approval] ++
        (ticketCall "prop_2" "2026-07-13T10:00:00.000Z" 1).approval :: [] := by
    decide
  have second : ((afterCalls (ticketCalls "2026-07-12T23:30:00-05:00" 1)).proposals.get? "prop_2").any fun row =>
      exceeds (closedADay 1) ((afterCalls (ticketCalls "2026-07-12T23:30:00-05:00" 1)).approvedOn julyClock
        (afterCalls (ticketCalls "2026-07-12T23:30:00-05:00" 1)).approvals "policy:small_closes" 20647 (closedADay 1)
        row) := by
    decide
  obtain ⟨row, found, exceeded⟩ := (Option.any_eq_true _ _).mp second
  have within := limited _ _ _ approvals (closedADay 1) (List.mem_singleton.mpr rfl) row 20647 found (by decide)
    (fun b none => absurd none List.not_mem_nil)
  exact absurd exceeded (Bool.eq_false_iff.mp within)

end SynapsorRunner.PolicyDays
