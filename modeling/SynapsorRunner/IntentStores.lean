import SynapsorRunner.Intents

/-!
The two stores of writeback intents. The SQLite store keeps its rows in a table
whose primary key is the intent id and which holds an idempotency key and a job
id at most once; it also looks at the proposal of the job. The Postgres store
reads the ledger entry of one intent under a lock on its job id, decides, and
writes that entry. Both follow `IntentStore.Lawful`.
-/
namespace SynapsorRunner.Intents
open SynapsorRunner.Protocol SynapsorRunner.Proposals

/-! ### The table of the SQLite store -/

/-- The table `writeback_intents`, with its UNIQUE columns. -/
structure WritebackIntents where
  rows : KeyedMap String StoredWritebackIntent
  idempotencyKeyUnique : (rows.values.map (·.idempotencyKey)).Nodup
  writebackJobIdUnique : (rows.values.map (·.writebackJobId)).Nodup

namespace WritebackIntents

def empty : WritebackIntents := ⟨.empty, by simp, by simp⟩

theorem nodup_concat {α : Type} {l : List α} {a : α} (distinct : l.Nodup) (absent : a ∉ l) : (l ++ [a]).Nodup := by
  rw [List.nodup_append]
  refine ⟨distinct, by simp, ?_⟩
  rintro x member y last rfl
  rw [List.mem_singleton] at last
  exact absent (last ▸ member)

/-- INSERT of a row. -/
def insert (t : WritebackIntents) (row : StoredWritebackIntent) : Except StoreError WritebackIntents :=
  if taken : t.rows.get? row.intentId ≠ none then .error (.constraint "writeback_intents.intent_id")
  else if key : row.idempotencyKey ∈ t.rows.values.map (·.idempotencyKey) then
    .error (.constraint "writeback_intents.idempotency_key")
  else if job : row.writebackJobId ∈ t.rows.values.map (·.writebackJobId) then
    .error (.constraint "writeback_intents.writeback_job_id")
  else .ok
    { rows := t.rows.set row.intentId row
      idempotencyKeyUnique := by
        rw [KeyedMap.values_set_of_absent (not_not.mp taken), List.map_append]
        exact nodup_concat t.idempotencyKeyUnique key
      writebackJobIdUnique := by
        rw [KeyedMap.values_set_of_absent (not_not.mp taken), List.map_append]
        exact nodup_concat t.writebackJobIdUnique job }

/-- UPDATE of the row of an intent id, by a change that keeps its identity. -/
def update (t : WritebackIntents) (intentId : String) (f : StoredWritebackIntent → StoredWritebackIntent)
    (keeps : ∀ i, (f i).identity = i.identity) : WritebackIntents :=
  { rows := t.rows.modify intentId f
    idempotencyKeyUnique := by
      rw [KeyedMap.map_values_modify _ _ _ (·.idempotencyKey) fun i => congrArg JobIdentity.idempotencyKey (keeps i)]
      exact t.idempotencyKeyUnique
    writebackJobIdUnique := by
      rw [KeyedMap.map_values_modify _ _ _ (·.writebackJobId) fun i => congrArg JobIdentity.jobId (keeps i)]
      exact t.writebackJobIdUnique }

theorem insert_ok {t t' : WritebackIntents} {row : StoredWritebackIntent} (inserted : t.insert row = .ok t') :
    t.rows.get? row.intentId = none ∧ row.idempotencyKey ∉ t.rows.values.map (·.idempotencyKey) ∧
      t'.rows = t.rows.set row.intentId row := by
  unfold insert at inserted
  split at inserted
  · cases inserted
  · rename_i absent
    split at inserted
    · cases inserted
    · rename_i key
      split at inserted
      · cases inserted
      · cases inserted
        exact ⟨not_not.mp absent, key, rfl⟩

end WritebackIntents

@[simp] theorem applyingRow_identity (runnerId : String) (i : StoredWritebackIntent) :
    (applyingRow runnerId i).identity = i.identity := rfl
@[simp] theorem completedRow_identity (result : WritebackResult) (i : StoredWritebackIntent) :
    (completedRow result i).identity = i.identity := rfl
@[simp] theorem reconciliationRow_identity (reason : String) (i : StoredWritebackIntent) :
    (reconciliationRow reason i).identity = i.identity := rfl
@[simp] theorem reconciledRow_identity (status : IntentStatus) (result : WritebackResult) (reason : String)
    (i : StoredWritebackIntent) : (reconciledRow status result reason i).identity = i.identity := rfl

theorem RowStep.applying {i : StoredWritebackIntent} (runnerId : String) (recorded : i.status = .intentRecorded) :
    RowStep (some i) (some (applyingRow runnerId i)) :=
  .advance _ _ rfl (by simp [applyingRow]) (by simp [applyingRow]) (by simp [recorded, IntentStatus.rank])

theorem RowStep.completed {i : StoredWritebackIntent} {result : WritebackResult} (finished : result.status ≠ .canceled) :
    RowStep (some i) (some (completedRow result i)) :=
  .advance _ _ rfl (ofResult_ne_recorded _) (by simpa [completedRow] using finished)
    (by simp only [completedRow, rank_ofResult]; exact rank_le_two _)

theorem RowStep.reconciliation {i : StoredWritebackIntent} (reason : String) :
    RowStep (some i) (some (reconciliationRow reason i)) :=
  .advance _ _ rfl (by simp [reconciliationRow]) (by simp [reconciliationRow]) (rank_le_two _)

theorem RowStep.reconciled {platform : Platform} {input : ReconcileInput} {i j : StoredWritebackIntent}
    (reconciled : reconcileRow platform input i = .ok j) : RowStep (some i) (some j) := by
  obtain ⟨_, receipt, result, rfl⟩ := reconcileRow_ok reconciled
  refine .advance _ _ rfl (ofResult_ne_recorded _) ?_ ?_
  · simp only [reconciledRow, ne_eq, ofResult_eq_canceled]
    intro canceled
    simp [canceled] at receipt
  · simp only [reconciledRow, rank_ofResult]
    exact rank_le_two _

/-! ### The SQLite store -/

/-- What the intent operations of the SQLite store read and write. -/
structure SqliteLedger where
  proposals : KeyedMap String StoredProposal
  intents : WritebackIntents

namespace SqliteLedger

def getWritebackIntent (s : SqliteLedger) (intentId : String) : Option StoredWritebackIntent :=
  s.intents.rows.get? intentId

def requireProposal (s : SqliteLedger) (proposalId : String) : Except StoreError StoredProposal :=
  match s.proposals.get? proposalId with
  | some proposal => .ok proposal
  | none => .error (.proposalStore "PROPOSAL_NOT_FOUND" ("proposal " ++ proposalId ++ " not found"))

def requireWritebackIntent (s : SqliteLedger) (intentId : String) : Except StoreError StoredWritebackIntent :=
  match s.getWritebackIntent intentId with
  | some intent => .ok intent
  | none => .error (.proposalStore "WRITEBACK_INTENT_NOT_FOUND" ("writeback intent not found: " ++ intentId))

/-- The row of an intent after an UPDATE. -/
def updateIntent (s : SqliteLedger) (intentId : String) (f : StoredWritebackIntent → StoredWritebackIntent)
    (keeps : ∀ i, (f i).identity = i.identity) : SqliteLedger :=
  { s with intents := s.intents.update intentId f keeps }

/-- The proposal of a job, when it may be written back as that job says. -/
def claimableProposal (s : SqliteLedger) (job : WritebackJob) : Except StoreError StoredProposal := do
  let proposal ← s.requireProposal job.proposalId
  assertWritebackAllowed proposal "recorded with a writeback intent"
  assertProposalIdentity proposal job.approvalId proposal.proposalVersion
  pure proposal

def claimWritebackIntent (s : SqliteLedger) (job : WritebackJob) (runnerId : String) :
    Except StoreError (ClaimDecision × SqliteLedger) := do
  let _ ← s.claimableProposal job
  match s.getWritebackIntent (intentIdOf job.jobId) with
  | some existing => do
    let decision ← claimExisting existing job
    pure (decision, s)
  | none => do
    let intents ← s.intents.insert (recordedIntent job runnerId)
    pure (.proceed (intentIdOf job.jobId), { s with intents })

def markWritebackIntentApplying (s : SqliteLedger) (intentId runnerId : String) : Except StoreError SqliteLedger := do
  let intent ← s.requireWritebackIntent intentId
  ensure (intent.status = .intentRecorded)
    (.proposalStore "WRITEBACK_INTENT_NOT_CLAIMABLE" ("writeback intent " ++ intentId ++ " is " ++ intent.status.text ++
      "; its source outcome must be reconciled before another apply"))
  pure (s.updateIntent intentId (applyingRow runnerId) fun _ => rfl)

/-- The statuses that `completeWritebackIntent` takes from a result. -/
def terminalResult (status : WritebackStatus) : Bool :=
  decide (status ≠ .canceled)

def completeWritebackIntent (platform : Platform) (s : SqliteLedger) (intentId : String) (resultInput : WritebackResult) :
    Except StoreError SqliteLedger := do
  let result ← parsedResult platform resultInput
  let intent ← s.requireWritebackIntent intentId
  ensure (result.jobId = intent.writebackJobId)
    (.proposalStore "WRITEBACK_INTENT_RESULT_MISMATCH"
      ("result " ++ result.jobId ++ " does not belong to intent " ++ intentId))
  ensure (terminalResult result.status)
    (.proposalStore "WRITEBACK_INTENT_RESULT_NOT_TERMINAL" ("result for " ++ intentId ++ " is not terminal"))
  if intent.status = .applying ∨ intent.status = .reconciliationRequired then
    pure (s.updateIntent intentId (completedRow result) fun _ => rfl)
  else do
    ensure (intent.result = some result)
      (.proposalStore "WRITEBACK_INTENT_COMPLETION_CONFLICT" ("writeback intent " ++ intentId ++ " cannot move from " ++
        intent.status.text ++ " to " ++ result.status.text))
    pure s

def requireWritebackReconciliation (s : SqliteLedger) (intentId reason : String) : Except StoreError SqliteLedger := do
  let intent ← s.requireWritebackIntent intentId
  if intent.status = .applied ∨ intent.status = .alreadyApplied then pure s
  else
    let safeReason := slice500 (if reason = "" then "source outcome is unknown" else reason)
    pure (s.updateIntent intentId (reconciliationRow safeReason) fun _ => rfl)

def reconcileWritebackIntent (platform : Platform) (s : SqliteLedger) (input : ReconcileInput) :
    Except StoreError SqliteLedger := do
  let intent ← s.requireWritebackIntent input.intentId
  let _ ← s.requireProposal intent.proposalId
  let reconciled ← reconcileRow platform input intent
  pure (s.updateIntent input.intentId
    (fun i => { i with status := reconciled.status, result := reconciled.result
                       reconciliationReason := reconciled.reconciliationReason }) fun _ => rfl)

theorem getWritebackIntent_updateIntent (s : SqliteLedger) (intentId intentId' : String)
    (f : StoredWritebackIntent → StoredWritebackIntent) (keeps : ∀ i, (f i).identity = i.identity) :
    (s.updateIntent intentId f keeps).getWritebackIntent intentId' =
      if intentId' = intentId then (s.getWritebackIntent intentId).map f else s.getWritebackIntent intentId' :=
  KeyedMap.get?_modify _ _ _ _

theorem requireWritebackIntent_ok {s : SqliteLedger} {intentId : String} {i : StoredWritebackIntent}
    (required : s.requireWritebackIntent intentId = .ok i) : s.getWritebackIntent intentId = some i := by
  unfold requireWritebackIntent at required
  split at required
  · rename_i found; cases required; exact found
  · cases required

/-- An update of one row by a row step is a row step of every row. -/
theorem rowStep_updateIntent {s : SqliteLedger} {intentId : String} {f : StoredWritebackIntent → StoredWritebackIntent}
    {keeps : ∀ i, (f i).identity = i.identity} {i : StoredWritebackIntent}
    (found : s.getWritebackIntent intentId = some i) (moves : RowStep (some i) (some (f i))) (intentId' : String) :
    RowStep (s.getWritebackIntent intentId') ((s.updateIntent intentId f keeps).getWritebackIntent intentId') := by
  rw [getWritebackIntent_updateIntent]
  split
  · rename_i same
    subst same
    rw [found]
    exact moves
  · exact .stay _

end SqliteLedger

/-- The intent operations of `ProposalStore`. -/
def sqliteIntentStore (platform : Platform) : IntentStore SqliteLedger where
  getWritebackIntent := SqliteLedger.getWritebackIntent
  claimWritebackIntent := SqliteLedger.claimWritebackIntent
  markWritebackIntentApplying := SqliteLedger.markWritebackIntentApplying
  completeWritebackIntent := SqliteLedger.completeWritebackIntent platform
  requireWritebackReconciliation := SqliteLedger.requireWritebackReconciliation
  reconcileWritebackIntent := SqliteLedger.reconcileWritebackIntent platform

/-- The SQLite store knows the proposal of a job, under the hash of the job. -/
def SqliteLedger.Admits (s : SqliteLedger) (job : WritebackJob) : Prop :=
  ∃ proposal, s.proposals.get? job.proposalId = some proposal ∧ WritebackAllowed proposal ∧
    proposal.proposalHash = job.approvalId

namespace SqliteLedger
variable {platform : Platform}

theorem claimWritebackIntent_ok {s s' : SqliteLedger} {job : WritebackJob} {runnerId : String} {d : ClaimDecision}
    (claimed : s.claimWritebackIntent job runnerId = .ok (d, s')) :
    (∃ i, s.getWritebackIntent (intentIdOf job.jobId) = some i ∧ claimExisting i job = .ok d ∧ s' = s) ∨
      (s.getWritebackIntent (intentIdOf job.jobId) = none ∧ d = .proceed (intentIdOf job.jobId) ∧
        ∃ intents, s.intents.insert (recordedIntent job runnerId) = .ok intents ∧ s' = { s with intents }) := by
  obtain ⟨_, _, rest⟩ := bind_eq_ok claimed
  cases found : s.getWritebackIntent (intentIdOf job.jobId) with
  | some i =>
    rw [found] at rest
    obtain ⟨d', decided, rest⟩ := bind_eq_ok rest
    cases rest
    exact .inl ⟨i, rfl, decided, rfl⟩
  | none =>
    rw [found] at rest
    obtain ⟨intents, inserted, rest⟩ := bind_eq_ok rest
    cases rest
    exact .inr ⟨rfl, rfl, intents, inserted, rfl⟩

theorem markWritebackIntentApplying_ok {s s' : SqliteLedger} {intentId runnerId : String}
    (marked : s.markWritebackIntentApplying intentId runnerId = .ok s') :
    ∃ i, s.getWritebackIntent intentId = some i ∧ i.status = .intentRecorded ∧
      s' = s.updateIntent intentId (applyingRow runnerId) fun _ => rfl := by
  obtain ⟨i, required, rest⟩ := bind_eq_ok marked
  obtain ⟨_, recorded, rest⟩ := bind_eq_ok rest
  cases rest
  exact ⟨i, requireWritebackIntent_ok required, ensure_ok_iff.mp recorded, rfl⟩

theorem completeWritebackIntent_ok {s s' : SqliteLedger} {intentId : String} {result : WritebackResult}
    (completed : s.completeWritebackIntent platform intentId result = .ok s') :
    ∃ i, s.getWritebackIntent intentId = some i ∧ result.status ≠ .canceled ∧
      (((i.status = .applying ∨ i.status = .reconciliationRequired) ∧
        s' = s.updateIntent intentId (completedRow result) fun _ => rfl) ∨ (i.result = some result ∧ s' = s)) := by
  obtain ⟨parsed, accepted, rest⟩ := bind_eq_ok completed
  obtain rfl := parsedResult_ok accepted
  obtain ⟨i, required, rest⟩ := bind_eq_ok rest
  obtain ⟨_, _, rest⟩ := bind_eq_ok rest
  obtain ⟨_, terminal, rest⟩ := bind_eq_ok rest
  have finished : parsed.status ≠ .canceled := by simpa [terminalResult] using ensure_ok_iff.mp terminal
  refine ⟨i, requireWritebackIntent_ok required, finished, ?_⟩
  split at rest
  · rename_i open'
    cases rest
    exact .inl ⟨open', rfl⟩
  · obtain ⟨_, stored, rest⟩ := bind_eq_ok rest
    cases rest
    exact .inr ⟨ensure_ok_iff.mp stored, rfl⟩

theorem requireWritebackReconciliation_ok {s s' : SqliteLedger} {intentId reason : String}
    (required : s.requireWritebackReconciliation intentId reason = .ok s') :
    ∃ i, s.getWritebackIntent intentId = some i ∧
      (((i.status = .applied ∨ i.status = .alreadyApplied) ∧ s' = s) ∨
        ((i.status ≠ .applied ∧ i.status ≠ .alreadyApplied) ∧
          ∃ text, s' = s.updateIntent intentId (reconciliationRow text) fun _ => rfl)) := by
  obtain ⟨i, found, rest⟩ := bind_eq_ok required
  refine ⟨i, requireWritebackIntent_ok found, ?_⟩
  split at rest
  · rename_i settled
    cases rest
    exact .inl ⟨settled, rfl⟩
  · rename_i unsettled
    cases rest
    exact .inr ⟨not_or.mp unsettled, _, rfl⟩

theorem reconcileWritebackIntent_ok {s s' : SqliteLedger} {input : ReconcileInput}
    (reconciled : s.reconcileWritebackIntent platform input = .ok s') :
    ∃ i j, s.getWritebackIntent input.intentId = some i ∧ reconcileRow platform input i = .ok j ∧
      ∃ f keeps, s' = s.updateIntent input.intentId f keeps ∧ f i = j := by
  obtain ⟨i, required, rest⟩ := bind_eq_ok reconciled
  obtain ⟨_, _, rest⟩ := bind_eq_ok rest
  obtain ⟨j, row, rest⟩ := bind_eq_ok rest
  cases rest
  refine ⟨i, j, requireWritebackIntent_ok required, row, _, _, rfl, ?_⟩
  obtain ⟨_, _, result, rfl⟩ := reconcileRow_ok row
  rfl

/-- The INSERT of a recorded intent steps every row. -/
theorem rowStep_insert {s : SqliteLedger} {job : WritebackJob} {runnerId : String} {intents : WritebackIntents}
    (inserted : s.intents.insert (recordedIntent job runnerId) = .ok intents) (intentId : String) :
    RowStep (s.getWritebackIntent intentId) (({ s with intents } : SqliteLedger).getWritebackIntent intentId) := by
  obtain ⟨absent, _, rows⟩ := WritebackIntents.insert_ok inserted
  have after : ({ s with intents } : SqliteLedger).getWritebackIntent intentId =
      if intentId = intentIdOf job.jobId then some (recordedIntent job runnerId)
      else s.getWritebackIntent intentId := by
    simp only [getWritebackIntent, rows]
    exact KeyedMap.get?_set _ _ _ _
  rw [after]
  split
  · rename_i same
    subst same
    have absent' : s.getWritebackIntent (intentIdOf job.jobId) = none := absent
    rw [absent']
    exact .record job runnerId
  · exact .stay _

/-- Every event steps every row. -/
theorem rowStep_step (s : SqliteLedger) (e : IntentEvent) (intentId : String) :
    RowStep (s.getWritebackIntent intentId) (((sqliteIntentStore platform).step s e).getWritebackIntent intentId) := by
  cases e with
  | claim job runnerId =>
    simp only [IntentStore.step, sqliteIntentStore]
    cases claimed : s.claimWritebackIntent job runnerId with
    | error e => exact .stay _
    | ok answer =>
      obtain ⟨d, s'⟩ := answer
      rcases claimWritebackIntent_ok claimed with ⟨i, found, decided, rfl⟩ | ⟨absent, _, intents, inserted, rfl⟩
      · exact .stay _
      · exact rowStep_insert inserted intentId
  | markApplying id runnerId =>
    simp only [IntentStore.step, sqliteIntentStore]
    cases marked : s.markWritebackIntentApplying id runnerId with
    | error e => exact .stay _
    | ok s' =>
      obtain ⟨i, found, recorded, rfl⟩ := markWritebackIntentApplying_ok marked
      exact rowStep_updateIntent found (.applying runnerId recorded) intentId
  | complete id result finished =>
    simp only [IntentStore.step, sqliteIntentStore]
    cases completed : s.completeWritebackIntent platform id result with
    | error e => exact .stay _
    | ok s' =>
      obtain ⟨i, found, _, ⟨_, rfl⟩ | ⟨_, rfl⟩⟩ := completeWritebackIntent_ok completed
      · exact rowStep_updateIntent found (.completed finished) intentId
      · exact .stay _
  | requireReconciliation id reason =>
    simp only [IntentStore.step, sqliteIntentStore]
    cases required : s.requireWritebackReconciliation id reason with
    | error e => exact .stay _
    | ok s' =>
      obtain ⟨i, found, ⟨_, rfl⟩ | ⟨_, text, rfl⟩⟩ := requireWritebackReconciliation_ok required
      · exact .stay _
      · exact rowStep_updateIntent found (.reconciliation text) intentId
  | reconcile input =>
    simp only [IntentStore.step, sqliteIntentStore]
    cases reconciled : s.reconcileWritebackIntent platform input with
    | error e => exact .stay _
    | ok s' =>
      obtain ⟨i, j, found, row, f, keeps, rfl, rfl⟩ := reconcileWritebackIntent_ok reconciled
      exact rowStep_updateIntent found (.reconciled row) intentId

/-- No event changes the proposals. -/
theorem proposals_step (s : SqliteLedger) (e : IntentEvent) :
    ((sqliteIntentStore platform).step s e).proposals = s.proposals := by
  cases e with
  | claim job runnerId =>
    simp only [IntentStore.step, sqliteIntentStore]
    cases claimed : s.claimWritebackIntent job runnerId with
    | error e => rfl
    | ok answer =>
      obtain ⟨d, s'⟩ := answer
      rcases claimWritebackIntent_ok claimed with ⟨i, found, decided, rfl⟩ | ⟨absent, _, intents, inserted, rfl⟩ <;> rfl
  | markApplying id runnerId =>
    simp only [IntentStore.step, sqliteIntentStore]
    cases marked : s.markWritebackIntentApplying id runnerId with
    | error e => rfl
    | ok s' => obtain ⟨i, found, _, rfl⟩ := markWritebackIntentApplying_ok marked; rfl
  | complete id result finished =>
    simp only [IntentStore.step, sqliteIntentStore]
    cases completed : s.completeWritebackIntent platform id result with
    | error e => rfl
    | ok s' => obtain ⟨i, found, _, ⟨_, rfl⟩ | ⟨_, rfl⟩⟩ := completeWritebackIntent_ok completed <;> rfl
  | requireReconciliation id reason =>
    simp only [IntentStore.step, sqliteIntentStore]
    cases required : s.requireWritebackReconciliation id reason with
    | error e => rfl
    | ok s' => obtain ⟨i, found, ⟨_, rfl⟩ | ⟨_, text, rfl⟩⟩ := requireWritebackReconciliation_ok required <;> rfl
  | reconcile input =>
    simp only [IntentStore.step, sqliteIntentStore]
    cases reconciled : s.reconcileWritebackIntent platform input with
    | error e => rfl
    | ok s' => obtain ⟨i, j, found, row, f, keeps, rfl, rfl⟩ := reconcileWritebackIntent_ok reconciled; rfl

/-- A claim passes the checks of its proposal exactly for the jobs that the store
    admits. -/
theorem claimableProposal_ok_iff {s : SqliteLedger} {job : WritebackJob} :
    (∃ proposal, s.claimableProposal job = .ok proposal) ↔ s.Admits job := by
  constructor
  · rintro ⟨proposal, claimable⟩
    obtain ⟨found, required, rest⟩ := bind_eq_ok claimable
    obtain ⟨_, allowed, rest⟩ := bind_eq_ok rest
    obtain ⟨_, identity, rest⟩ := bind_eq_ok rest
    cases rest
    have stored : s.proposals.get? job.proposalId = some proposal := by
      unfold requireProposal at required
      split at required
      · rename_i found; cases required; exact found
      · cases required
    exact ⟨proposal, stored, (assertWritebackAllowed_ok_iff _).mp allowed, (assertProposalIdentity_ok_iff.mp identity).1⟩
  · rintro ⟨proposal, found, allowed, hash⟩
    have open' := (assertWritebackAllowed_ok_iff "recorded with a writeback intent").mpr allowed
    have identity := assertProposalIdentity_ok_iff.mpr ⟨hash, rfl⟩
    exact ⟨proposal, by simp [claimableProposal, requireProposal, found, open', identity, bind, Except.bind, pure,
      Except.pure]⟩

end SqliteLedger

theorem sqliteIntentStore_lawful (platform : Platform) : (sqliteIntentStore platform).Lawful SqliteLedger.Admits where
  row_step := SqliteLedger.rowStep_step
  decision_existing := by
    intro s job runnerId i admits found
    obtain ⟨proposal, claimable⟩ := SqliteLedger.claimableProposal_ok_iff.mpr admits
    have found' : s.getWritebackIntent (intentIdOf job.jobId) = some i := found
    simp only [IntentStore.decision, sqliteIntentStore, SqliteLedger.claimWritebackIntent, claimable, found', bind,
      Except.bind]
    cases claimExisting i job <;> rfl
  decision_absent := by
    intro s job runnerId absent declined
    have someAnswer : ∀ d, (sqliteIntentStore platform).decision s job runnerId = .ok d →
        d = .proceed (intentIdOf job.jobId) := by
      intro d decided
      simp only [IntentStore.decision, sqliteIntentStore] at decided
      cases claimed : s.claimWritebackIntent job runnerId with
      | error e => rw [claimed] at decided; cases decided
      | ok answer =>
        obtain ⟨d', s'⟩ := answer
        rw [claimed] at decided
        cases decided
        rcases SqliteLedger.claimWritebackIntent_ok claimed with ⟨i, found, _⟩ | ⟨_, proceeds, _⟩
        · have absent' : s.getWritebackIntent (intentIdOf job.jobId) = none := absent
          rw [absent'] at found
          cases found
        · exact proceeds
    rcases declined with ⟨id, result, decided⟩ | ⟨id, reason, decided⟩ <;> cases someAnswer _ decided
  admits_step := by
    rintro s e job ⟨proposal, found, rest⟩
    exact ⟨proposal, by rw [SqliteLedger.proposals_step]; exact found, rest⟩

/-! ### The Postgres store -/

namespace PostgresIntents

/-- `intentJobId`. -/
def intentJobId (intentId : String) : Except StoreError String :=
  if "wbi:".toList.isPrefixOf intentId.toList ∧ intentId.length > 4 then .ok (String.ofList (intentId.toList.drop 4))
  else .error (.proposalStore "INVALID_WRITEBACK_INTENT_ID" "writeback intent id must use wbi:<job_id>")

def notFound (intentId : String) : StoreError :=
  .proposalStore "WRITEBACK_INTENT_NOT_FOUND" ("writeback intent not found: " ++ intentId)

/-- The callback of `claimWritebackIntent`: the decision, and the row it leaves. -/
def claimRow (job : WritebackJob) (runnerId : String) :
    Option StoredWritebackIntent → Except StoreError (ClaimDecision × Option StoredWritebackIntent)
  | some existing => do
    let decision ← claimExisting existing job
    pure (decision, some existing)
  | none => .ok (.proceed (intentIdOf job.jobId), some (recordedIntent job runnerId))

def markRow (intentId runnerId : String) :
    Option StoredWritebackIntent → Except StoreError (Option StoredWritebackIntent)
  | none => .error (notFound intentId)
  | some existing => do
    ensure (existing.status = .intentRecorded)
      (.proposalStore "WRITEBACK_INTENT_NOT_CLAIMABLE" ("writeback intent " ++ intentId ++ " is " ++ existing.status.text))
    pure (some (applyingRow runnerId existing))

def completeRow (intentId : String) (result : WritebackResult) :
    Option StoredWritebackIntent → Except StoreError (Option StoredWritebackIntent)
  | none => .error (notFound intentId)
  | some existing => do
    ensure (existing.writebackJobId = result.jobId)
      (.proposalStore "WRITEBACK_INTENT_RESULT_MISMATCH" ("result " ++ result.jobId ++ " does not belong to " ++ intentId))
    if existing.result = some result then pure (some existing)
    else do
      ensure (existing.status = .applying ∨ existing.status = .reconciliationRequired)
        (.proposalStore "WRITEBACK_INTENT_COMPLETION_CONFLICT"
          ("writeback intent " ++ intentId ++ " is " ++ existing.status.text))
      pure (some (completedRow result existing))

def reconciliationRequiredRow (intentId reason : String) :
    Option StoredWritebackIntent → Except StoreError (Option StoredWritebackIntent)
  | none => .error (notFound intentId)
  | some existing =>
    if existing.status = .applied ∨ existing.status = .alreadyApplied then .ok (some existing)
    else .ok (some (reconciliationRow (slice500 reason) existing))

/-- The ledger rows of intents, by intent id. -/
abbrev Ledger := KeyedMap String StoredWritebackIntent

/-- The row of an intent after a callback that leaves it so. -/
def writeIntent (ledger : Ledger) (intentId : String) : Option StoredWritebackIntent → Ledger
  | none => ledger
  | some row => ledger.set intentId row

/-- `withIntent`: one transaction on the row of a job. -/
def withIntent (ledger : Ledger) (jobId : String)
    (callback : Option StoredWritebackIntent → Except StoreError (Option StoredWritebackIntent)) :
    Except StoreError Ledger := do
  let row ← callback (ledger.get? (intentIdOf jobId))
  pure (writeIntent ledger (intentIdOf jobId) row)

def claimWritebackIntent (ledger : Ledger) (job : WritebackJob) (runnerId : String) :
    Except StoreError (ClaimDecision × Ledger) := do
  let (decision, row) ← claimRow job runnerId (ledger.get? (intentIdOf job.jobId))
  pure (decision, writeIntent ledger (intentIdOf job.jobId) row)

def markWritebackIntentApplying (ledger : Ledger) (intentId runnerId : String) : Except StoreError Ledger := do
  let jobId ← intentJobId intentId
  withIntent ledger jobId (markRow intentId runnerId)

def completeWritebackIntent (platform : Platform) (ledger : Ledger) (intentId : String) (resultInput : WritebackResult) :
    Except StoreError Ledger := do
  let result ← parsedResult platform resultInput
  let jobId ← intentJobId intentId
  withIntent ledger jobId (completeRow intentId result)

def requireWritebackReconciliation (ledger : Ledger) (intentId reason : String) : Except StoreError Ledger := do
  let jobId ← intentJobId intentId
  withIntent ledger jobId (reconciliationRequiredRow intentId reason)

/-- Reconciliation by the runtime store: the SQLite operation on the imported
    ledger, whose row is written back. -/
def reconcileWritebackIntent (platform : Platform) (ledger : Ledger) (input : ReconcileInput) :
    Except StoreError Ledger := do
  let jobId ← intentJobId input.intentId
  withIntent ledger jobId fun
    | none => .error (notFound input.intentId)
    | some existing => (reconcileRow platform input existing).map some

theorem claimRow_rowStep {job : WritebackJob} {runnerId : String} {a b : Option StoredWritebackIntent} {d : ClaimDecision}
    (claimed : claimRow job runnerId a = .ok (d, b)) : RowStep a b := by
  cases a with
  | some existing =>
    obtain ⟨d', _, rest⟩ := bind_eq_ok claimed
    cases rest
    exact .stay _
  | none =>
    cases claimed
    exact .record job runnerId

theorem markRow_rowStep {intentId runnerId : String} {a b : Option StoredWritebackIntent}
    (marked : markRow intentId runnerId a = .ok b) : RowStep a b := by
  cases a with
  | none => cases marked
  | some existing =>
    obtain ⟨_, recorded, rest⟩ := bind_eq_ok marked
    cases rest
    exact .applying runnerId (ensure_ok_iff.mp recorded)

theorem completeRow_rowStep {intentId : String} {result : WritebackResult} {a b : Option StoredWritebackIntent}
    (finished : result.status ≠ .canceled) (completed : completeRow intentId result a = .ok b) : RowStep a b := by
  cases a with
  | none => cases completed
  | some existing =>
    obtain ⟨_, _, rest⟩ := bind_eq_ok completed
    split at rest
    · cases rest
      exact .stay _
    · obtain ⟨_, _, rest⟩ := bind_eq_ok rest
      cases rest
      exact .completed finished

theorem reconciliationRequiredRow_rowStep {intentId reason : String} {a b : Option StoredWritebackIntent}
    (required : reconciliationRequiredRow intentId reason a = .ok b) : RowStep a b := by
  cases a with
  | none => cases required
  | some existing =>
    simp only [reconciliationRequiredRow] at required
    by_cases settled : existing.status = .applied ∨ existing.status = .alreadyApplied
    · rw [if_pos settled] at required
      cases required
      exact .stay _
    · rw [if_neg settled] at required
      cases required
      exact .reconciliation _

/-- A row of the ledger after the transaction of one intent. -/
theorem get?_writeIntent {ledger : Ledger} {intentId : String} {row : Option StoredWritebackIntent}
    (moves : RowStep (ledger.get? intentId) row) (intentId' : String) :
    RowStep (ledger.get? intentId') ((writeIntent ledger intentId row).get? intentId') := by
  cases row with
  | none => exact .stay _
  | some row =>
    simp only [writeIntent, KeyedMap.get?_set]
    split
    · rename_i same
      subst same
      exact moves
    · exact .stay _

theorem withIntent_rowStep {ledger ledger' : Ledger} {jobId : String}
    {callback : Option StoredWritebackIntent → Except StoreError (Option StoredWritebackIntent)}
    (moves : ∀ a b, callback a = .ok b → RowStep a b) (written : withIntent ledger jobId callback = .ok ledger')
    (intentId : String) : RowStep (ledger.get? intentId) (ledger'.get? intentId) := by
  obtain ⟨row, left, rest⟩ := bind_eq_ok written
  cases rest
  exact get?_writeIntent (moves _ _ left) intentId

end PostgresIntents

/-- `PostgresWritebackIntentStore`. -/
def postgresIntentStore (platform : Platform) : IntentStore PostgresIntents.Ledger where
  getWritebackIntent := KeyedMap.get?
  claimWritebackIntent := PostgresIntents.claimWritebackIntent
  markWritebackIntentApplying := PostgresIntents.markWritebackIntentApplying
  completeWritebackIntent := PostgresIntents.completeWritebackIntent platform
  requireWritebackReconciliation := PostgresIntents.requireWritebackReconciliation
  reconcileWritebackIntent := PostgresIntents.reconcileWritebackIntent platform

namespace PostgresIntents
variable {platform : Platform}

/-- Every event steps every row. -/
theorem rowStep_step (s : Ledger) (e : IntentEvent) (intentId : String) :
    RowStep (s.get? intentId) (((postgresIntentStore platform).step s e).get? intentId) := by
  cases e with
  | claim job runnerId =>
    simp only [IntentStore.step, postgresIntentStore]
    cases claimed : claimWritebackIntent s job runnerId with
    | error e => exact .stay _
    | ok answer =>
      obtain ⟨⟨d, row⟩, left, rest⟩ := bind_eq_ok claimed
      cases rest
      exact get?_writeIntent (claimRow_rowStep left) intentId
  | markApplying id runnerId =>
    simp only [IntentStore.step, postgresIntentStore]
    cases marked : markWritebackIntentApplying s id runnerId with
    | error e => exact .stay _
    | ok s' =>
      obtain ⟨jobId, _, written⟩ := bind_eq_ok marked
      exact withIntent_rowStep (fun _ _ => markRow_rowStep) written intentId
  | complete id result finished =>
    simp only [IntentStore.step, postgresIntentStore]
    cases completed : completeWritebackIntent platform s id result with
    | error e => exact .stay _
    | ok s' =>
      obtain ⟨parsed, accepted, rest⟩ := bind_eq_ok completed
      obtain rfl := parsedResult_ok accepted
      obtain ⟨jobId, _, written⟩ := bind_eq_ok rest
      exact withIntent_rowStep (fun _ _ => completeRow_rowStep finished) written intentId
  | requireReconciliation id reason =>
    simp only [IntentStore.step, postgresIntentStore]
    cases required : requireWritebackReconciliation s id reason with
    | error e => exact .stay _
    | ok s' =>
      obtain ⟨jobId, _, written⟩ := bind_eq_ok required
      exact withIntent_rowStep (fun _ _ => reconciliationRequiredRow_rowStep) written intentId
  | reconcile input =>
    simp only [IntentStore.step, postgresIntentStore]
    cases reconciled : reconcileWritebackIntent platform s input with
    | error e => exact .stay _
    | ok s' =>
      obtain ⟨jobId, _, written⟩ := bind_eq_ok reconciled
      refine withIntent_rowStep ?_ written intentId
      intro a b left
      cases a with
      | none => cases left
      | some i =>
        simp only at left
        cases row : reconcileRow platform input i with
        | error e => rw [row] at left; cases left
        | ok j => rw [row] at left; cases left; exact .reconciled row

end PostgresIntents

theorem postgresIntentStore_lawful (platform : Platform) :
    (postgresIntentStore platform).Lawful fun _ _ => True where
  row_step := PostgresIntents.rowStep_step
  decision_existing := by
    intro s job runnerId i _ found
    have found' : s.get? (intentIdOf job.jobId) = some i := found
    simp only [IntentStore.decision, postgresIntentStore, PostgresIntents.claimWritebackIntent, found',
      PostgresIntents.claimRow, bind, Except.bind]
    cases claimExisting i job <;> rfl
  decision_absent := by
    intro s job runnerId absent declined
    have absent' : s.get? (intentIdOf job.jobId) = none := absent
    simp [Declined, IntentStore.decision, postgresIntentStore, PostgresIntents.claimWritebackIntent, absent',
      PostgresIntents.claimRow, bind, Except.bind, pure, Except.pure, Except.map] at declined
  admits_step := fun _ _ _ _ => trivial

end SynapsorRunner.Intents
