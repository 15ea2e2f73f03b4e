import SynapsorRunner.Runs
import SynapsorRunner.SecretMaterial
import SynapsorRunner.TrustedContexts
import Mathlib.Data.List.Sort

/-!
The outbox of events for the cloud. A worker leases events for a time, and acknowledges them
or reports that they failed. In every run with a clock that does not go back, no event
overtakes an earlier one of its proposal that is not acknowledged, and an event has one
unexpired lease at most.

A failure that uses up the attempts of an event ends it, but a lease that expires puts the
event back among those that wait, whatever its attempts are: `cloudOutbox_delivers` bounds
the leases of an event in the runs in which no claim finds such a lease.
-/
namespace SynapsorRunner.CloudOutbox
open SynapsorRunner.Runs SynapsorRunner.TrustedContexts
open SynapsorRunner.JsonText (Json)
open SynapsorRunner.NumberText (ascii)

/-! ### The table -/

inductive OutboxKind where
  | proposal
  | activity
  | result
  deriving DecidableEq

inductive OutboxStatus where
  | pending
  | leased
  | acknowledged
  | deadLetter
  | reconciliationRequired
  deriving DecidableEq

/-- A row of `cloud_outbox`, by its event. Times are in milliseconds. -/
structure OutboxItem (Hash : Type) where
  proposalId : Option String
  sequence : ℕ
  kind : OutboxKind
  status : OutboxStatus
  payloadHash : Hash
  payload : Json
  attempts : ℕ
  maxAttempts : ℕ
  nextAttemptAt : ℕ
  leaseOwner : Option String
  leaseExpiresAt : Option ℕ
  lastErrorCode : Option String
  sentAt : Option ℕ
  acknowledgedAt : Option ℕ
  createdAt : ℕ
  updatedAt : ℕ

abbrev Items (Hash : Type) := KeyedMap String (OutboxItem Hash)

inductive OutboxError where
  | eventIdRequired
  | proposalNotFound (proposalId : String)
  | secretMaterial (rejected : SecretMaterial.SecretMaterialRejected)
  | foreignKey
  | idempotencyMismatch (eventId : String)
  | ownerRequired
  | leaseMismatch (eventId owner : String)
  | eventNotFound (eventId : String)
  | notRequeueable (eventId : String) (status : OutboxStatus)

/-! ### The operations -/

section
variable {Hash : Type}

namespace Items

def requireItem (items : Items Hash) (eventId : String) : Except OutboxError (OutboxItem Hash) :=
  match items.get? eventId with
  | some item => .ok item
  | none => .error (.eventNotFound eventId)

end Items

/-- `proposals` are the proposals of the ledger when the event is enqueued. -/
structure EnqueueInput where
  eventId : String
  proposalId : Option String
  sequence : Option ℤ
  kind : OutboxKind
  payload : Json
  maxAttempts : Option ℤ
  proposals : List String
  now : ℕ

/-- `Math.max(low, Math.min(high, value))`. -/
def clamp (low high : ℕ) (value : ℤ) : ℕ := (max (low : ℤ) (min high value)).toNat

def EnqueueInput.row (input : EnqueueInput) (digest : Json → Hash) : OutboxItem Hash :=
  { proposalId := input.proposalId, sequence := (input.sequence.getD 0).toNat, kind := input.kind, status := .pending
    payloadHash := digest input.payload, payload := input.payload, attempts := 0
    maxAttempts := clamp 1 100 (input.maxAttempts.getD 12), nextAttemptAt := input.now
    leaseOwner := none, leaseExpiresAt := none, lastErrorCode := none, sentAt := none, acknowledgedAt := none
    createdAt := input.now, updatedAt := input.now }

/-- `INSERT OR IGNORE`: a known event stays as it is. A new one refers to a proposal of the
    ledger. -/
def insertOrIgnore (digest : Json → Hash) (items : Items Hash) (eventId : String) (input : EnqueueInput) :
    Except OutboxError (Items Hash) :=
  match items.get? eventId with
  | some _ => .ok items
  | none =>
    if input.proposalId.all input.proposals.contains then .ok (items.set eventId (input.row digest)) else .error .foreignKey

/-- What is refused before the table is read. -/
def EnqueueInput.check (input : EnqueueInput) : Except OutboxError Unit :=
  let eventId := trim input.eventId
  if eventId = "" then .error .eventIdRequired
  else if input.proposalId.any fun proposalId => proposalId != "" && !input.proposals.contains proposalId then
    .error (.proposalNotFound (input.proposalId.getD ""))
  else
    match SecretMaterial.assertNoSecretMaterial input.payload (ascii ("cloud_outbox." ++ eventId)) with
    | .error rejected => .error (.secretMaterial rejected)
    | .ok () => .ok ()

def enqueueCloudOutbox [DecidableEq Hash] (digest : Json → Hash) (items : Items Hash) (input : EnqueueInput) :
    Except OutboxError (Items Hash) := do
  input.check
  let items ← insertOrIgnore digest items (trim input.eventId) input
  let item ← items.requireItem (trim input.eventId)
  if item.payloadHash ≠ digest input.payload ∨ item.kind ≠ input.kind ∨ item.proposalId ≠ input.proposalId then
    .error (.idempotencyMismatch (trim input.eventId))
  else .ok items

structure ClaimInput where
  owner : String
  limit : Option ℤ
  leaseMs : Option ℤ
  now : ℕ

def ClaimInput.leaseExpiresAt (input : ClaimInput) : ℕ := input.now + clamp 1000 300000 (input.leaseMs.getD 30000)

/-- The lease of the item has expired. -/
def OutboxItem.lapsed (item : OutboxItem Hash) (now : ℕ) : Bool :=
  decide (item.status = .leased) && item.leaseExpiresAt.any fun expires => decide (expires ≤ now)

/-- The first UPDATE of a claim: expired leases are given up. -/
def OutboxItem.released (item : OutboxItem Hash) (now : ℕ) : OutboxItem Hash :=
  if item.lapsed now then { item with status := .pending, leaseOwner := none, leaseExpiresAt := none, updatedAt := now }
  else item

/-- The event is of the same proposal, is earlier, and is not acknowledged. -/
def OutboxItem.blocks (earlier candidate : OutboxItem Hash) : Bool :=
  (earlier.proposalId.isSome && decide (earlier.proposalId = candidate.proposalId)) &&
    decide (earlier.sequence < candidate.sequence) && decide (earlier.status ≠ .acknowledged)

def due (items : Items Hash) (now : ℕ) (candidate : OutboxItem Hash) : Bool :=
  decide (candidate.status = .pending) && decide (candidate.nextAttemptAt ≤ now) &&
    !items.values.any fun earlier => earlier.blocks candidate

/-- `ORDER BY sequence ASC, created_at ASC, event_id ASC`. -/
def inOrder (a b : String × OutboxItem Hash) : Prop :=
  a.2.sequence < b.2.sequence ∨ a.2.sequence = b.2.sequence ∧
    (a.2.createdAt < b.2.createdAt ∨ a.2.createdAt = b.2.createdAt ∧ a.1 ≤ b.1)

instance : DecidableRel (@inOrder Hash) := fun _ _ => inferInstanceAs (Decidable (_ ∨ _))

/-- The SELECT of a claim. -/
def candidates (items : Items Hash) (now limit : ℕ) : List String :=
  (((items.entries.filter fun entry => due items now entry.2).insertionSort inOrder).take limit).map Prod.fst

/-- The UPDATE of a candidate that is pending. -/
def OutboxItem.leasedBy (item : OutboxItem Hash) (input : ClaimInput) : OutboxItem Hash :=
  if item.status = .pending then
    { item with status := .leased, leaseOwner := some (trim input.owner), leaseExpiresAt := some input.leaseExpiresAt
                attempts := item.attempts + 1, sentAt := some (item.sentAt.getD input.now), updatedAt := input.now }
  else item

def isPending (items : Items Hash) (eventId : String) : Bool :=
  (items.get? eventId).any fun item => decide (item.status = .pending)

/-- The loop of a claim, with the events that it has claimed. -/
def leaseEach (input : ClaimInput) : List String → Items Hash → Items Hash × List String
  | [], items => (items, [])
  | eventId :: rest, items =>
    let (after, claimed) := leaseEach input rest (items.modify eventId fun item => item.leasedBy input)
    (after, if isPending items eventId then eventId :: claimed else claimed)

def claimCloudOutbox (items : Items Hash) (input : ClaimInput) : Except OutboxError (Items Hash × List String) :=
  if trim input.owner = "" then .error .ownerRequired
  else
    let items := items.mapValues fun item => item.released input.now
    .ok (leaseEach input (candidates items input.now (clamp 1 100 (input.limit.getD 10))) items)

def OutboxItem.heldBy (item : OutboxItem Hash) (owner : String) : Bool :=
  decide (item.status = .leased) && decide (item.leaseOwner = some owner)

def acknowledgeCloudOutbox (items : Items Hash) (eventId owner : String) (now : ℕ) : Except OutboxError (Items Hash) :=
  if (items.get? eventId).any fun item => item.heldBy owner then
    .ok (items.modify eventId fun item => { item with
      status := .acknowledged, leaseOwner := none, leaseExpiresAt := none, acknowledgedAt := some now
      lastErrorCode := none, updatedAt := now })
  else .error (.leaseMismatch eventId owner)

structure FailInput where
  eventId : String
  owner : String
  errorCode : String
  retryable : Bool
  retryAfterMs : Option ℤ
  reconciliation : Bool
  now : ℕ

def FailInput.status (input : FailInput) (current : OutboxItem Hash) : OutboxStatus :=
  if input.reconciliation then .reconciliationRequired
  else if input.retryable ∧ current.attempts < current.maxAttempts then .pending
  else .deadLetter

def FailInput.delayMs (input : FailInput) (current : OutboxItem Hash) : ℕ :=
  clamp 0 3600000 (input.retryAfterMs.getD (min 300000 (500 * 2 ^ min current.attempts 9)))

def FailInput.applyTo (input : FailInput) (current : OutboxItem Hash) : OutboxItem Hash :=
  { current with
    status := input.status current, leaseOwner := none, leaseExpiresAt := none, lastErrorCode := some input.errorCode
    nextAttemptAt := input.now + input.delayMs current, updatedAt := input.now }

def failCloudOutbox (items : Items Hash) (input : FailInput) : Except OutboxError (Items Hash) := do
  let current ← items.requireItem input.eventId
  if current.heldBy input.owner then .ok (items.modify input.eventId input.applyTo)
  else .error (.leaseMismatch input.eventId input.owner)

def requeueCloudOutbox (items : Items Hash) (eventId : String) (now : ℕ) : Except OutboxError (Items Hash) := do
  let current ← items.requireItem eventId
  if current.status = .deadLetter ∨ current.status = .reconciliationRequired then
    .ok (items.modify eventId fun item => { item with
      status := .pending, attempts := 0, nextAttemptAt := now, leaseOwner := none, leaseExpiresAt := none
      lastErrorCode := none, updatedAt := now })
  else .error (.notRequeueable eventId current.status)

/-- Acknowledged before the cutoff. -/
def OutboxItem.compacts (item : OutboxItem Hash) (acknowledgedBefore : ℕ) : Bool :=
  decide (item.status = .acknowledged) && item.acknowledgedAt.any fun time => decide (time < acknowledgedBefore)

def compactCloudOutbox (items : Items Hash) (acknowledgedBefore : ℕ) : Items Hash :=
  items.filterKeys fun eventId => !(items.get? eventId).any fun item => item.compacts acknowledgedBefore
end

/-! ### Runs -/

inductive Operation where
  | enqueue (input : EnqueueInput)
  | claim (input : ClaimInput)
  | acknowledge (eventId owner : String) (now : ℕ)
  | fail (input : FailInput)
  | requeue (eventId : String) (now : ℕ)
  | compact (acknowledgedBefore : ℕ)

/-- The time of an operation. -/
def Operation.time? : Operation → Option ℕ
  | .enqueue input => some input.now
  | .claim input => some input.now
  | .acknowledge _ _ now => some now
  | .fail input => some input.now
  | .requeue _ now => some now
  | .compact _ => none

/-- A lease that has been granted. -/
structure Grant where
  eventId : String
  expiresAt : ℕ

/-- The outbox, with the time of the last operation, the grants that have not been answered,
    and the leases of each event since it was last queued. -/
structure Monitor (Hash : Type) where
  items : Items Hash
  clock : ℕ
  held : List Grant
  leases : List String

section
variable {Hash : Type} [DecidableEq Hash] (digest : Json → Hash)

/-- The outbox after an operation, with the events that it leases. -/
def perform (items : Items Hash) : Operation → Except OutboxError (Items Hash × List String)
  | .enqueue input => (enqueueCloudOutbox digest items input).map (·, [])
  | .claim input => claimCloudOutbox items input
  | .acknowledge eventId owner now => (acknowledgeCloudOutbox items eventId owner now).map (·, [])
  | .fail input => (failCloudOutbox items input).map (·, [])
  | .requeue eventId now => (requeueCloudOutbox items eventId now).map (·, [])
  | .compact acknowledgedBefore => .ok (compactCloudOutbox items acknowledgedBefore, [])

/-- A worker answers a lease by an acknowledgement or a failure. -/
def Monitor.heldAfter (m : Monitor Hash) (claimed : List String) : Operation → List Grant
  | .claim input => claimed.map (fun eventId => ⟨eventId, input.leaseExpiresAt⟩) ++ m.held
  | .acknowledge eventId _ _ => m.held.filter fun g => decide (g.eventId ≠ eventId)
  | .fail input => m.held.filter fun g => decide (g.eventId ≠ input.eventId)
  | _ => m.held

/-- A new event and a requeued one start again. -/
def Monitor.leasesAfter (m : Monitor Hash) (claimed : List String) : Operation → List String
  | .enqueue input =>
    if (m.items.get? (trim input.eventId)).isSome then m.leases
    else m.leases.filter fun eventId => decide (eventId ≠ trim input.eventId)
  | .claim _ => claimed ++ m.leases
  | .requeue eventId _ => m.leases.filter fun other => decide (other ≠ eventId)
  | _ => m.leases

def Monitor.step (m : Monitor Hash) (op : Operation) : Monitor Hash :=
  match perform digest m.items op with
  | .error _ => { m with clock := op.time?.getD m.clock }
  | .ok (items, claimed) => ⟨items, op.time?.getD m.clock, m.heldAfter claimed op, m.leasesAfter claimed op⟩

/-- The events that an operation leases. -/
def Monitor.claimed (m : Monitor Hash) (op : Operation) : List String :=
  match perform digest m.items op with
  | .error _ => []
  | .ok (_, claimed) => claimed
end

section
variable {Hash : Type}

def Monitor.start : Monitor Hash := ⟨.empty, 0, [], []⟩

/-- The clock does not go back. -/
def Forward (m : Monitor Hash) (op : Operation) : Prop := ∀ now ∈ op.time?, m.clock ≤ now

/-- The unexpired leases of an event. -/
def Monitor.unexpired (m : Monitor Hash) (eventId : String) : List Grant :=
  m.held.filter fun g => decide (g.eventId = eventId) && decide (m.clock < g.expiresAt)

/-- No lease that a claim finds expired has used up the attempts of its event. -/
def Unspent (m : Monitor Hash) : Operation → Prop
  | .claim input => ∀ eventId item, m.items.get? eventId = some item → item.lapsed input.now = true →
      item.attempts < item.maxAttempts
  | _ => True

/-- The leases of every event are within its attempts. -/
def WithinAttempts (m : Monitor Hash) : Prop :=
  ∀ eventId item, m.items.get? eventId = some item → m.leases.count eventId ≤ item.maxAttempts

/-- An event is leased when the earlier ones of its proposal are acknowledged, and one that is
    acknowledged stays so. -/
structure InSequence [DecidableEq Hash] (digest : Json → Hash) (m : Monitor Hash) (op : Operation) : Prop where
  none_overtaken : ∀ eventId ∈ m.claimed digest op, ∀ item, m.items.get? eventId = some item →
    ∀ proposalId, item.proposalId = some proposalId →
      ∀ other earlier, m.items.get? other = some earlier → earlier.proposalId = some proposalId →
        earlier.sequence < item.sequence → earlier.status = .acknowledged
  delivered_stays : ∀ eventId item item', m.items.get? eventId = some item → item.status = .acknowledged →
    (m.step digest op).items.get? eventId = some item' → item'.status = .acknowledged
end

/-! ### What an operation does to the rows -/

section
variable {Hash : Type} {items items' : Items Hash}

theorem requireItem_ok {eventId : String} {item : OutboxItem Hash} (required : items.requireItem eventId = .ok item) :
    items.get? eventId = some item := by
  unfold Items.requireItem at required
  cases found : items.get? eventId with
  | none => simp [found] at required
  | some row => simpa [found] using required

theorem heldBy_leased {item : OutboxItem Hash} {owner : String} (held : item.heldBy owner = true) :
    item.status = .leased := by
  simp only [OutboxItem.heldBy, Bool.and_eq_true, decide_eq_true_eq] at held
  exact held.1

/-- An answer to a lease rewrites the leased row, within its attempts. -/
structure Answers (items items' : Items Hash) (eventId : String) : Prop where
  rewrites : ∃ item f, items.get? eventId = some item ∧ item.status = .leased ∧ items' = items.modify eventId f ∧
    (f item).attempts = item.attempts ∧ (f item).maxAttempts = item.maxAttempts ∧
    ((f item).status = .pending → item.attempts < item.maxAttempts)

theorem Answers.acknowledged {eventId other : String} (answers : Answers items items' eventId) {item item' : OutboxItem Hash}
    (found : items.get? other = some item) (status : item.status = .acknowledged)
    (kept : items'.get? other = some item') : item'.status = .acknowledged := by
  obtain ⟨row, f, listed, leased, rfl, _⟩ := answers.rewrites
  have apart : other ≠ eventId := by
    rintro rfl
    cases listed.symm.trans found
    rw [status] at leased
    cases leased
  rw [KeyedMap.get?_modify, if_neg apart, found] at kept
  cases kept
  exact status

theorem acknowledge_ok {eventId owner : String} {now : ℕ}
    (acknowledged : acknowledgeCloudOutbox items eventId owner now = .ok items') : Answers items items' eventId := by
  unfold acknowledgeCloudOutbox at acknowledged
  cases found : items.get? eventId with
  | none => simp [found] at acknowledged
  | some item =>
    by_cases held : item.heldBy owner = true
    · simp only [found, Option.any_some, held, if_true, Except.ok.injEq] at acknowledged
      refine ⟨item, _, found, heldBy_leased held, acknowledged.symm, ?_, ?_, ?_⟩ <;> simp
    · simp [found, held] at acknowledged

theorem fail_ok {input : FailInput} (failed : failCloudOutbox items input = .ok items') :
    Answers items items' input.eventId := by
  obtain ⟨item, required, rest⟩ := Proposals.bind_eq_ok failed
  by_cases held : item.heldBy input.owner = true
  · rw [if_pos held] at rest
    cases rest
    refine ⟨item, _, requireItem_ok required, heldBy_leased held, rfl, rfl, rfl, fun waits => ?_⟩
    have status : input.status item = .pending := waits
    unfold FailInput.status at status
    by_cases reconciles : input.reconciliation = true
    · rw [if_pos reconciles] at status
      cases status
    rw [if_neg reconciles] at status
    by_cases again : input.retryable = true ∧ item.attempts < item.maxAttempts
    · exact again.2
    · rw [if_neg again] at status
      cases status
  · rw [if_neg held] at rest
    cases rest

/-- A row that has stopped starts again. -/
structure Requeues (items items' : Items Hash) (eventId : String) : Prop where
  rewrites : ∃ item f, items.get? eventId = some item ∧
    (item.status = .deadLetter ∨ item.status = .reconciliationRequired) ∧ items' = items.modify eventId f ∧
    (f item).attempts = 0 ∧ (f item).maxAttempts = item.maxAttempts

theorem Requeues.acknowledged {eventId other : String} (requeues : Requeues items items' eventId)
    {item item' : OutboxItem Hash} (found : items.get? other = some item) (status : item.status = .acknowledged)
    (kept : items'.get? other = some item') : item'.status = .acknowledged := by
  obtain ⟨row, f, listed, stopped, rfl, _⟩ := requeues.rewrites
  have apart : other ≠ eventId := by
    rintro rfl
    cases listed.symm.trans found
    simp [status] at stopped
  rw [KeyedMap.get?_modify, if_neg apart, found] at kept
  cases kept
  exact status

theorem requeue_ok {eventId : String} {now : ℕ} (requeued : requeueCloudOutbox items eventId now = .ok items') :
    Requeues items items' eventId := by
  obtain ⟨item, required, rest⟩ := Proposals.bind_eq_ok requeued
  by_cases stopped : item.status = .deadLetter ∨ item.status = .reconciliationRequired
  · rw [if_pos stopped] at rest
    cases rest
    exact ⟨item, _, requireItem_ok required, stopped, rfl, rfl, rfl⟩
  · rw [if_neg stopped] at rest
    cases rest

theorem enqueue_ok [DecidableEq Hash] {digest : Json → Hash} {input : EnqueueInput}
    (enqueued : enqueueCloudOutbox digest items input = .ok items') :
    (∃ item, items.get? (trim input.eventId) = some item) ∧ items' = items ∨
      items.get? (trim input.eventId) = none ∧ items' = items.set (trim input.eventId) (input.row digest) := by
  obtain ⟨_, _, rest⟩ := Proposals.bind_eq_ok enqueued
  obtain ⟨inserted, insertion, rest⟩ := Proposals.bind_eq_ok rest
  obtain ⟨item, _, rest⟩ := Proposals.bind_eq_ok rest
  have same : items' = inserted := by
    split at rest <;> cases rest
    rfl
  subst same
  unfold insertOrIgnore at insertion
  cases found : items.get? (trim input.eventId) with
  | some row =>
    simp only [found, Except.ok.injEq] at insertion
    exact .inl ⟨⟨row, rfl⟩, insertion.symm⟩
  | none =>
    simp only [found] at insertion
    split at insertion <;> cases insertion
    exact .inr ⟨rfl, rfl⟩

theorem compact_get? {acknowledgedBefore : ℕ} {eventId : String} {item : OutboxItem Hash}
    (found : (compactCloudOutbox items acknowledgedBefore).get? eventId = some item) : items.get? eventId = some item := by
  rw [KeyedMap.get?_eq_some] at found ⊢
  exact (List.mem_filter.mp found).1

/-- A row that is not acknowledged survives a compaction. -/
theorem compact_keeps {acknowledgedBefore : ℕ} {eventId : String} {item : OutboxItem Hash}
    (found : items.get? eventId = some item) (status : item.status ≠ .acknowledged) :
    (compactCloudOutbox items acknowledgedBefore).get? eventId = some item := by
  rw [KeyedMap.get?_eq_some]
  refine List.mem_filter.mpr ⟨KeyedMap.get?_eq_some.mp found, ?_⟩
  simp [found, OutboxItem.compacts, status]

/-! ### What a claim does -/

theorem leasedBy_of_ne {item : OutboxItem Hash} {input : ClaimInput} (status : item.status ≠ .pending) :
    item.leasedBy input = item := if_neg status

theorem leasedBy_not_pending (item : OutboxItem Hash) (input : ClaimInput) : (item.leasedBy input).status ≠ .pending := by
  unfold OutboxItem.leasedBy
  split <;> simp_all

theorem get?_leaseEach (input : ClaimInput) (ids : List String) (items : Items Hash) (eventId : String) :
    (leaseEach input ids items).1.get? eventId =
      (items.get? eventId).map fun item => if eventId ∈ ids then item.leasedBy input else item := by
  induction ids generalizing items with
  | nil => simp [leaseEach]
  | cons first rest ih =>
    rw [leaseEach]
    dsimp only
    rw [ih, KeyedMap.get?_modify]
    by_cases own : eventId = first
    · subst own
      rw [if_pos rfl, Option.map_map]
      refine congrArg (Option.map · _) (funext fun item => ?_)
      by_cases again : eventId ∈ rest
      · simp [again, leasedBy_of_ne (leasedBy_not_pending item input)]
      · simp [again]
    · simp [own]

theorem isPending_modify {input : ClaimInput} {first eventId : String} :
    isPending (items.modify first fun item => item.leasedBy input) eventId =
      (decide (eventId ≠ first) && isPending items eventId) := by
  unfold isPending
  rw [KeyedMap.get?_modify]
  by_cases own : eventId = first
  · subst own
    rw [if_pos rfl]
    cases items.get? eventId <;> simp [leasedBy_not_pending]
  · simp [own]

/-- A claim takes each of its candidates once. -/
theorem count_leaseEach (input : ClaimInput) (ids : List String) (items : Items Hash) (eventId : String) :
    (leaseEach input ids items).2.count eventId = if eventId ∈ ids ∧ isPending items eventId = true then 1 else 0 := by
  induction ids generalizing items with
  | nil => simp [leaseEach]
  | cons first rest ih =>
    rw [leaseEach]
    dsimp only
    by_cases own : eventId = first
    · subst own
      by_cases pending : isPending items eventId = true
      · rw [if_pos pending, List.count_cons_self, ih, isPending_modify]
        simp [pending]
      · rw [if_neg pending, ih, isPending_modify]
        simp [pending]
    · have others : (if isPending items first then first :: (leaseEach input rest
          (items.modify first fun item => item.leasedBy input)).2 else (leaseEach input rest
          (items.modify first fun item => item.leasedBy input)).2).count eventId =
          (leaseEach input rest (items.modify first fun item => item.leasedBy input)).2.count eventId := by
        split
        · exact List.count_cons_of_ne (Ne.symm own)
        · rfl
      rw [others, ih, isPending_modify]
      simp [own]

theorem mem_candidates {now limit : ℕ} {eventId : String} (member : eventId ∈ candidates items now limit) :
    ∃ item, items.get? eventId = some item ∧ due items now item = true := by
  obtain ⟨⟨key, item⟩, taken, rfl⟩ := List.mem_map.mp member
  have sorted := List.mem_of_mem_take taken
  rw [List.mem_insertionSort, List.mem_filter] at sorted
  exact ⟨item, KeyedMap.get?_eq_some.mpr sorted.1, sorted.2⟩

theorem released_of_live {item : OutboxItem Hash} {now : ℕ} (live : item.lapsed now = false) :
    item.released now = item := by
  unfold OutboxItem.released
  rw [live]
  rfl

/-- A claim that commits. -/
structure Claims (items : Items Hash) (input : ClaimInput) (items' : Items Hash) (claimed : List String) : Prop where
  rows : ∀ eventId, items'.get? eventId = (items.get? eventId).map fun item =>
    if eventId ∈ claimed then (item.released input.now).leasedBy input else item.released input.now
  once : ∀ eventId, claimed.count eventId ≤ 1
  due : ∀ eventId ∈ claimed, ∃ item, items.get? eventId = some item ∧ (item.released input.now).status = .pending ∧
    ∀ other earlier, items.get? other = some earlier →
      (earlier.released input.now).blocks (item.released input.now) = false

theorem claim_ok {input : ClaimInput} {claimed : List String}
    (committed : claimCloudOutbox items input = .ok (items', claimed)) : Claims items input items' claimed := by
  unfold claimCloudOutbox at committed
  split at committed
  · cases committed
  let released := items.mapValues fun item => item.released input.now
  let ids := candidates released input.now (clamp 1 100 (input.limit.getD 10))
  have is : leaseEach input ids released = (items', claimed) := by
    simpa using committed
  have get (eventId : String) : released.get? eventId = (items.get? eventId).map fun item => item.released input.now :=
    KeyedMap.get?_mapValues ..
  have counted := count_leaseEach input ids released
  rw [is] at counted
  have member (eventId : String) : eventId ∈ claimed ↔ eventId ∈ ids ∧ isPending released eventId = true := by
    rw [← List.count_pos_iff, counted]
    split <;> simp_all
  refine ⟨fun eventId => ?_, fun eventId => ?_, fun eventId taken => ?_⟩
  · have row := get?_leaseEach input ids released eventId
    rw [is, get, Option.map_map] at row
    rw [row]
    cases found : items.get? eventId with
    | none => rfl
    | some item =>
      have pending : isPending released eventId = decide ((item.released input.now).status = .pending) := by
        simp [isPending, get, found]
      simp only [Option.map_some, Function.comp_apply, Option.some.injEq]
      by_cases listed : eventId ∈ ids
      · by_cases waits : (item.released input.now).status = .pending
        · rw [if_pos listed, if_pos ((member eventId).mpr ⟨listed, by simp [pending, waits]⟩)]
        · rw [if_pos listed, leasedBy_of_ne waits, ite_self]
      · rw [if_neg listed, if_neg fun taken => listed ((member eventId).mp taken).1]
  · rw [counted]
    split <;> omega
  · obtain ⟨row, listed, isDue⟩ := mem_candidates ((member eventId).mp taken).1
    rw [get] at listed
    obtain ⟨item, found, rfl⟩ := Option.map_eq_some_iff.mp listed
    simp only [CloudOutbox.due, Bool.and_eq_true, decide_eq_true_eq, Bool.not_eq_true', List.any_eq_false,
      Bool.not_eq_true] at isDue
    refine ⟨item, found, isDue.1.1, fun other earlier listed => ?_⟩
    refine isDue.2 _ (KeyedMap.mem_values_of_get? (k := other) ?_)
    rw [get, listed]
    rfl
end

/-! ### Leases -/

section
variable {Hash : Type} {m m' : Monitor Hash} {items' : Items Hash}

/-- An unexpired grant is the lease of its row, and the only one. -/
structure Inv (m : Monitor Hash) : Prop where
  covered : ∀ g ∈ m.held, m.clock < g.expiresAt →
    ∃ item, m.items.get? g.eventId = some item ∧ item.status = .leased ∧ item.leaseExpiresAt = some g.expiresAt
  single : ∀ eventId, (m.unexpired eventId).length ≤ 1

theorem Inv.start : Inv (.start : Monitor Hash) :=
  ⟨fun _ member _ => absurd member (List.not_mem_nil), fun _ => Nat.zero_le _⟩

theorem unexpired_sublist {clock : ℕ} (forward : m.clock ≤ clock) {held : List Grant} (kept : held.Sublist m.held)
    (eventId : String) : (held.filter fun g => decide (g.eventId = eventId) && decide (clock < g.expiresAt)).Sublist
      (m.unexpired eventId) := by
  refine (List.monotone_filter_right _ fun g live => ?_).trans (kept.filter _)
  simp only [Bool.and_eq_true, decide_eq_true_eq] at live ⊢
  exact ⟨live.1, by omega⟩

/-- The leased rows stay as they are where grants are left. -/
theorem Inv.of_kept (inv : Inv m) (forward : m.clock ≤ m'.clock) (held : m'.held.Sublist m.held)
    (rows : ∀ g ∈ m'.held, ∀ item, m.items.get? g.eventId = some item → item.status = .leased →
      m'.items.get? g.eventId = some item) : Inv m' where
  covered g member live := by
    obtain ⟨item, found, leased, expires⟩ := inv.covered g (held.subset member) (by omega)
    exact ⟨item, rows g member item found leased, leased, expires⟩
  single eventId := (unexpired_sublist forward held eventId).length_le.trans (inv.single eventId)

/-- A claim leaves a live lease as it is. -/
theorem Inv.live (inv : Inv m) {input : ClaimInput} (forward : m.clock ≤ input.now) {claimed : List String}
    (claims : Claims m.items input items' claimed) {g : Grant} (member : g ∈ m.held) (live : input.now < g.expiresAt) :
    g.eventId ∉ claimed ∧ ∃ item, items'.get? g.eventId = some item ∧ item.status = .leased ∧
      item.leaseExpiresAt = some g.expiresAt := by
  obtain ⟨item, found, leased, expires⟩ := inv.covered g member (by omega)
  have kept : item.released input.now = item := released_of_live (by simp [OutboxItem.lapsed, expires, live])
  have free : g.eventId ∉ claimed := by
    intro taken
    obtain ⟨row, found', waits, _⟩ := claims.due _ taken
    obtain rfl : row = item := Option.some.inj (found'.symm.trans found)
    rw [kept, leased] at waits
    cases waits
  refine ⟨free, item, ?_, leased, expires⟩
  rw [claims.rows, found, Option.map_some, if_neg free, kept]

theorem Inv.claim (inv : Inv m) {input : ClaimInput} (forward : m.clock ≤ input.now) {claimed leases : List String}
    (claims : Claims m.items input items' claimed) :
    Inv ⟨items', input.now, claimed.map (fun eventId => ⟨eventId, input.leaseExpiresAt⟩) ++ m.held, leases⟩ where
  covered g member live := by
    rcases List.mem_append.mp member with new | old
    · obtain ⟨eventId, taken, rfl⟩ := List.mem_map.mp new
      obtain ⟨item, found, waits, _⟩ := claims.due eventId taken
      refine ⟨(item.released input.now).leasedBy input, ?_, ?_, ?_⟩
      · rw [claims.rows, found, Option.map_some, if_pos taken]
      · rw [OutboxItem.leasedBy, if_pos waits]
      · rw [OutboxItem.leasedBy, if_pos waits]
    · exact (inv.live forward claims old live).2
  single eventId := by
    unfold Monitor.unexpired
    rw [List.filter_append, List.length_append]
    have granted : ((claimed.map fun id => (⟨id, input.leaseExpiresAt⟩ : Grant)).filter fun g =>
        decide (g.eventId = eventId) && decide (input.now < g.expiresAt)).length ≤ claimed.count eventId := by
      rw [List.filter_map, List.length_map, List.count_eq_countP, List.countP_eq_length_filter]
      refine List.Sublist.length_le (List.monotone_filter_right _ fun id live => ?_)
      simp only [Function.comp_apply, Bool.and_eq_true, decide_eq_true_eq] at live
      simp [live.1]
    have earlier := (unexpired_sublist forward (List.Sublist.refl m.held) eventId).length_le
    have alone := inv.single eventId
    have once := claims.once eventId
    by_cases taken : eventId ∈ claimed
    · have gone : (m.held.filter fun g => decide (g.eventId = eventId) && decide (input.now < g.expiresAt)) = [] := by
        refine List.filter_eq_nil_iff.mpr fun g member => ?_
        simp only [Bool.and_eq_true, decide_eq_true_eq, not_and]
        rintro rfl live
        exact (inv.live forward claims member live).1 taken
      rw [gone]
      simp only [List.length_nil, Nat.add_zero]
      omega
    · rw [List.count_eq_zero.mpr taken] at granted
      dsimp only at earlier ⊢
      omega

theorem Inv.answers (inv : Inv m) {eventId : String} (answers : Answers m.items items' eventId) {clock : ℕ}
    (forward : m.clock ≤ clock) {leases : List String} :
    Inv ⟨items', clock, m.held.filter fun g => decide (g.eventId ≠ eventId), leases⟩ := by
  obtain ⟨_, _, _, _, rfl, _⟩ := answers.rewrites
  refine inv.of_kept forward List.filter_sublist fun g member item found leased => ?_
  have other : g.eventId ≠ eventId := by simpa using (List.mem_filter.mp member).2
  rw [KeyedMap.get?_modify, if_neg other, found]

/-! ### Attempts -/

/-- The leases of an event are its attempts, of which one is left while it waits. -/
structure Counts (leases : ℕ) (item : OutboxItem Hash) : Prop where
  counted : leases = item.attempts
  positive : 0 < item.maxAttempts
  within : item.attempts ≤ item.maxAttempts
  room : item.status = .pending → item.attempts < item.maxAttempts

def Counted (m : Monitor Hash) : Prop :=
  ∀ eventId item, m.items.get? eventId = some item → Counts (m.leases.count eventId) item

theorem Counted.start : Counted (.start : Monitor Hash) := fun _ _ found => by cases found

theorem clamp_pos {high : ℕ} (_ : 1 ≤ high) (value : ℤ) : 0 < clamp 1 high value := by
  unfold clamp
  omega

theorem row_counts (digest : Json → Hash) (input : EnqueueInput) : Counts 0 (input.row digest) :=
  ⟨rfl, clamp_pos (by omega) _, Nat.zero_le _, fun _ => clamp_pos (by omega) _⟩

theorem Counted.enqueue (counted : Counted m) {digest : Json → Hash} {input : EnqueueInput} {clock : ℕ}
    {held : List Grant} : Counted ⟨m.items.set (trim input.eventId) (input.row digest), clock, held,
      m.leases.filter fun eventId => decide (eventId ≠ trim input.eventId)⟩ := by
  intro eventId item found
  dsimp only at found ⊢
  rw [KeyedMap.get?_set] at found
  by_cases own : eventId = trim input.eventId
  · rw [if_pos own, Option.some.injEq] at found
    subst found own
    rw [List.count_eq_zero.mpr (by simp)]
    exact row_counts digest input
  · rw [if_neg own] at found
    rw [List.count_filter (by simpa using own)]
    exact counted eventId item found

theorem Counted.claim (counted : Counted m) {input : ClaimInput} {claimed : List String} (unspent : Unspent m (.claim input))
    (claims : Claims m.items input items' claimed) {clock : ℕ} {held : List Grant} :
    Counted ⟨items', clock, held, claimed ++ m.leases⟩ := by
  intro eventId item found
  dsimp only at found ⊢
  rw [claims.rows] at found
  obtain ⟨row, listed, rfl⟩ := Option.map_eq_some_iff.mp found
  obtain ⟨same, positive, within, room⟩ := counted eventId row listed
  have released : Counts (m.leases.count eventId) (row.released input.now) := by
    unfold OutboxItem.released
    by_cases lapsed : row.lapsed input.now = true
    · rw [if_pos lapsed]
      exact ⟨same, positive, within, fun _ => unspent eventId row listed lapsed⟩
    · rw [if_neg lapsed]
      exact ⟨same, positive, within, room⟩
  rw [List.count_append]
  by_cases taken : eventId ∈ claimed
  · obtain ⟨row', listed', waits, _⟩ := claims.due eventId taken
    obtain rfl : row' = row := Option.some.inj (listed'.symm.trans listed)
    have single : claimed.count eventId = 1 := by
      have once := claims.once eventId
      have some := List.count_pos_iff.mpr taken
      omega
    have left := released.room waits
    have counts := released.counted
    rw [if_pos taken, OutboxItem.leasedBy, if_pos waits, single]
    exact ⟨by dsimp only; omega, released.positive, left, fun again => by cases again⟩
  · rw [if_neg taken, List.count_eq_zero.mpr taken, Nat.zero_add]
    exact released

theorem Counted.answers (counted : Counted m) {eventId : String} (answers : Answers m.items items' eventId) {clock : ℕ}
    {held : List Grant} : Counted ⟨items', clock, held, m.leases⟩ := by
  obtain ⟨row, f, listed, _, rfl, attempts, maxAttempts, room⟩ := answers.rewrites
  intro other item found
  dsimp only at found ⊢
  rw [KeyedMap.get?_modify] at found
  by_cases own : other = eventId
  · subst own
    rw [if_pos rfl, listed, Option.map_some, Option.some.injEq] at found
    subst found
    obtain ⟨same, positive, within, _⟩ := counted other row listed
    exact ⟨by omega, by omega, by omega, fun waits => by rw [attempts, maxAttempts]; exact room waits⟩
  · rw [if_neg own] at found
    exact counted other item found

theorem Counted.requeue (counted : Counted m) {eventId : String} (requeues : Requeues m.items items' eventId) {clock : ℕ}
    {held : List Grant} :
    Counted ⟨items', clock, held, m.leases.filter fun other => decide (other ≠ eventId)⟩ := by
  obtain ⟨row, f, listed, _, rfl, attempts, maxAttempts⟩ := requeues.rewrites
  intro other item found
  dsimp only at found ⊢
  rw [KeyedMap.get?_modify] at found
  by_cases own : other = eventId
  · subst own
    rw [if_pos rfl, listed, Option.map_some, Option.some.injEq] at found
    subst found
    rw [List.count_eq_zero.mpr (by simp)]
    have positive := (counted other row listed).positive
    exact ⟨attempts.symm, by omega, by omega, fun _ => by omega⟩
  · rw [if_neg own] at found
    rw [List.count_filter (by simpa using own)]
    exact counted other item found

theorem forward_clock {op : Operation} (forward : Forward m op) : m.clock ≤ op.time?.getD m.clock := by
  cases time : op.time? with
  | none => exact Nat.le_refl _
  | some now => exact forward now (by simp [time])

theorem released_acknowledged (item : OutboxItem Hash) (now : ℕ) :
    (item.released now).status = .acknowledged ↔ item.status = .acknowledged := by
  unfold OutboxItem.released
  split
  · next lapsed =>
    simp only [OutboxItem.lapsed, Bool.and_eq_true, decide_eq_true_eq] at lapsed
    simp [lapsed.1]
  · exact Iff.rfl

theorem released_sequence (item : OutboxItem Hash) (now : ℕ) :
    (item.released now).sequence = item.sequence ∧ (item.released now).proposalId = item.proposalId := by
  unfold OutboxItem.released
  split <;> exact ⟨rfl, rfl⟩
end

/-! ### Steps -/

section
variable {Hash : Type} [DecidableEq Hash] {digest : Json → Hash} {m : Monitor Hash}

theorem map_ok {ε α β : Type} {x : Except ε α} {f : α → β} {b : β} (mapped : x.map f = .ok b) :
    ∃ a, x = .ok a ∧ f a = b := by
  cases x with
  | error e => cases mapped
  | ok a => exact ⟨a, rfl, Except.ok.inj mapped⟩

/-- What an operation that commits does. -/
inductive Performed (digest : Json → Hash) (items : Items Hash) : Operation → Items Hash → List String → Prop where
  | known (input : EnqueueInput) (found : (items.get? (trim input.eventId)).isSome = true) :
      Performed digest items (.enqueue input) items []
  | inserted (input : EnqueueInput) (missing : items.get? (trim input.eventId) = none) :
      Performed digest items (.enqueue input) (items.set (trim input.eventId) (input.row digest)) []
  | claimed (input : ClaimInput) {items' : Items Hash} {taken : List String} (claims : Claims items input items' taken) :
      Performed digest items (.claim input) items' taken
  | acknowledged (eventId owner : String) (now : ℕ) {items' : Items Hash} (answers : Answers items items' eventId) :
      Performed digest items (.acknowledge eventId owner now) items' []
  | failed (input : FailInput) {items' : Items Hash} (answers : Answers items items' input.eventId) :
      Performed digest items (.fail input) items' []
  | requeued (eventId : String) (now : ℕ) {items' : Items Hash} (requeues : Requeues items items' eventId) :
      Performed digest items (.requeue eventId now) items' []
  | compacted (acknowledgedBefore : ℕ) :
      Performed digest items (.compact acknowledgedBefore) (compactCloudOutbox items acknowledgedBefore) []

theorem performed {items items' : Items Hash} {op : Operation} {taken : List String}
    (committed : perform digest items op = .ok (items', taken)) : Performed digest items op items' taken := by
  cases op with
  | enqueue input =>
    obtain ⟨after, enqueued, same⟩ := map_ok committed
    cases same
    rcases enqueue_ok enqueued with ⟨⟨item, found⟩, rfl⟩ | ⟨missing, rfl⟩
    · exact .known input (by rw [found]; rfl)
    · exact .inserted input missing
  | claim input => exact .claimed input (claim_ok committed)
  | acknowledge eventId owner now =>
    obtain ⟨after, acknowledged, same⟩ := map_ok committed
    cases same
    exact .acknowledged eventId owner now (acknowledge_ok acknowledged)
  | fail input =>
    obtain ⟨after, failed, same⟩ := map_ok committed
    cases same
    exact .failed input (fail_ok failed)
  | requeue eventId now =>
    obtain ⟨after, requeued, same⟩ := map_ok committed
    cases same
    exact .requeued eventId now (requeue_ok requeued)
  | compact acknowledgedBefore =>
    cases committed
    exact .compacted acknowledgedBefore

theorem step_clock (m : Monitor Hash) (op : Operation) : (m.step digest op).clock = op.time?.getD m.clock := by
  unfold Monitor.step
  split <;> rfl

theorem Inv.step (inv : Inv m) {op : Operation} (forward : Forward m op) : Inv (m.step digest op) := by
  have later := forward_clock forward
  unfold Monitor.step
  cases outcome : perform digest m.items op with
  | error => exact inv.of_kept later (List.Sublist.refl _) fun _ _ _ found _ => found
  | ok after =>
    obtain ⟨items', taken⟩ := after
    cases performed outcome with
    | known input found => exact inv.of_kept later (List.Sublist.refl _) fun _ _ _ found _ => found
    | inserted input missing =>
      refine inv.of_kept later (List.Sublist.refl _) fun g _ item found _ => ?_
      rw [KeyedMap.get?_set_of_ne, found]
      rintro same
      rw [same, missing] at found
      cases found
    | claimed input claims => exact inv.claim later claims
    | acknowledged eventId owner now answers => exact inv.answers answers later
    | failed input answers => exact inv.answers answers later
    | requeued eventId now requeues =>
      obtain ⟨row, f, listed, stopped, rfl, _⟩ := requeues.rewrites
      refine inv.of_kept later (List.Sublist.refl _) fun g _ item found leased => ?_
      rw [KeyedMap.get?_modify, if_neg, found]
      rintro same
      rw [same, listed] at found
      cases found
      rcases stopped with dead | unclear
      · rw [dead] at leased
        cases leased
      · rw [unclear] at leased
        cases leased
    | compacted acknowledgedBefore =>
      exact inv.of_kept later (List.Sublist.refl _) fun _ _ _ found leased => compact_keeps found (by simp [leased])

theorem Counted.step (counted : Counted m) {op : Operation} (unspent : Unspent m op) : Counted (m.step digest op) := by
  unfold Monitor.step
  cases outcome : perform digest m.items op with
  | error => exact counted
  | ok after =>
    obtain ⟨items', taken⟩ := after
    cases performed outcome with
    | known input found =>
      dsimp only [Monitor.leasesAfter]
      rw [if_pos found]
      exact counted
    | inserted input missing =>
      dsimp only [Monitor.leasesAfter]
      rw [if_neg (by simp [missing])]
      exact counted.enqueue
    | claimed input claims => exact counted.claim unspent claims
    | acknowledged eventId owner now answers => exact counted.answers answers
    | failed input answers => exact counted.answers answers
    | requeued eventId now requeues => exact counted.requeue requeues
    | compacted acknowledgedBefore => exact fun eventId item found => counted eventId item (compact_get? found)

theorem step_inSequence (m : Monitor Hash) (op : Operation) : InSequence digest m op := by
  cases outcome : perform digest m.items op with
  | error e =>
    refine ⟨fun eventId taken => ?_, fun eventId item item' found status kept => ?_⟩
    · simp [Monitor.claimed, outcome] at taken
    · simp only [Monitor.step, outcome] at kept
      cases found.symm.trans kept
      exact status
  | ok after =>
    obtain ⟨items', taken⟩ := after
    have claimed : m.claimed digest op = taken := by simp [Monitor.claimed, outcome]
    have rows : (m.step digest op).items = items' := by simp [Monitor.step, outcome]
    refine ⟨?_, fun eventId item item' found status => ?_⟩
    · rw [claimed]
      cases performed outcome with
      | claimed input claims =>
        intro eventId member item found proposalId own other earlier listed same before
        obtain ⟨row, found', _, unblocked⟩ := claims.due eventId member
        obtain rfl : row = item := Option.some.inj (found'.symm.trans found)
        have free := unblocked other earlier listed
        simpa [OutboxItem.blocks, released_sequence, own, same, before, released_acknowledged] using free
      | _ => intro eventId member; cases member
    · rw [rows]
      cases performed outcome with
      | known input => intro kept; cases found.symm.trans kept; exact status
      | inserted input missing =>
        intro kept
        rw [KeyedMap.get?_set_of_ne, found] at kept
        · cases kept
          exact status
        · rintro rfl
          rw [missing] at found
          cases found
      | claimed input claims =>
        intro kept
        rw [claims.rows, found, Option.map_some, Option.some.injEq] at kept
        subst kept
        have still := (released_acknowledged item input.now).mpr status
        split
        · rw [leasedBy_of_ne (by simp [still])]
          exact still
        · exact still
      | acknowledged eventId owner now answers => exact answers.acknowledged found status
      | failed input answers => exact answers.acknowledged found status
      | requeued eventId now requeues => exact requeues.acknowledged found status
      | compacted acknowledgedBefore => intro kept; cases found.symm.trans (compact_get? kept); exact status

theorem runs_inv {ops : List Operation} (forward : Throughout (Monitor.step digest) Forward .start ops) :
    Inv (run (Monitor.step digest) .start ops) :=
  invariant_of_throughout Inv (fun _ _ inv meets => inv.step meets) forward Inv.start

theorem runs_counted {ops : List Operation} (unspent : Throughout (Monitor.step digest) Unspent .start ops) :
    Counted (run (Monitor.step digest) .start ops) :=
  invariant_of_throughout Counted (fun _ _ counted meets => counted.step meets) unspent Counted.start

/-- The events of a proposal are leased in sequence and under one unexpired lease each. Their
    leases are within their attempts when no claim finds an expired lease that was the last. -/
theorem cloudOutbox_delivers (ops : List Operation) (forward : Throughout (Monitor.step digest) Forward .start ops) :
    Throughout (Monitor.step digest) (InSequence digest) .start ops ∧
      (∀ eventId, ((run (Monitor.step digest) .start ops).unexpired eventId).length ≤ 1) ∧
      (Throughout (Monitor.step digest) Unspent .start ops → WithinAttempts (run (Monitor.step digest) .start ops)) := by
  refine ⟨throughout_of_forall step_inSequence _ ops, (runs_inv forward).single, fun unspent eventId item found => ?_⟩
  obtain ⟨counted, _, within, _⟩ := runs_counted unspent eventId item found
  omega
end

/-- An event that may be leased once, under a lease of a minute. -/
def enqueueOnce : Operation :=
  .enqueue { eventId := "e", proposalId := none, sequence := none, kind := .activity, payload := .object [],
             maxAttempts := some 1, proposals := [], now := 0 }

def claimAt (now : ℕ) : Operation := .claim { owner := "w", limit := none, leaseMs := some 60000, now }

/-- Its lease is acknowledged. -/
theorem event_delivered : WithinAttempts
    (run (Monitor.step Json.text) .start [enqueueOnce, claimAt 0, .acknowledge "e" "w" 10]) := by
  refine (cloudOutbox_delivers _ ?_).2.2 ?_
  · simp [Throughout, Forward, step_clock, enqueueOnce, claimAt, Operation.time?, Monitor.start]
  · refine ⟨trivial, fun eventId item found lapsed => ?_, trivial, trivial⟩
    have row := KeyedMap.get?_eq_some.mp found
    obtain ⟨rfl, rfl⟩ := Prod.mk.inj (List.mem_singleton.mp row)
    cases lapsed

/-- The lease expires, and another claim takes the event again. -/
theorem lapsed_lease_claimed_again : ¬ ∀ ops : List Operation, Throughout (Monitor.step Json.text) Forward .start ops →
    WithinAttempts (run (Monitor.step Json.text) .start ops) := by
  intro claimed
  have within := claimed [enqueueOnce, claimAt 0, claimAt 60000] (by
    simp [Throughout, Forward, step_clock, enqueueOnce, claimAt, Operation.time?, Monitor.start])
  have twice : ((run (Monitor.step Json.text) .start [enqueueOnce, claimAt 0, claimAt 60000]).items.get? "e").map
      (·.maxAttempts) = some 1 := by rfl
  obtain ⟨item, found, most⟩ := Option.map_eq_some_iff.mp twice
  have leases : (run (Monitor.step Json.text) .start [enqueueOnce, claimAt 0, claimAt 60000]).leases = ["e", "e"] := by rfl
  have bound := within "e" item found
  rw [leases, most] at bound
  exact absurd bound (by decide)

end SynapsorRunner.CloudOutbox
