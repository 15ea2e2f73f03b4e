import SynapsorRunner.IntentOutcomes

/-!
The results that the intent stores keep. A result enters a row by a completion, which
parses it and compares its job, or by a reconciliation, which makes it of a parsed
receipt of the same job. So a row only ever has results of its own job that the result
schema accepts (`Kept`), and so does the answer to a claim
(`decision_answers`).
-/
namespace SynapsorRunner.Intents
open SynapsorRunner.Protocol SynapsorRunner.Proposals SynapsorRunner.Runs
set_option linter.unusedSimpArgs false

/-- A result that reports on a job: the result schema accepts it, and it names the
    job. -/
structure Reports (platform : Platform) (jobId : String) (result : WritebackResult) : Prop where
  accepted : parseWritebackResult platform result = .ok result
  named : result.jobId = jobId

/-- The result of a row reports on the job of the row. -/
def Kept (platform : Platform) (i : StoredWritebackIntent) : Prop :=
  ∀ result, i.result = some result → Reports platform i.writebackJobId result

/-- What a claim of a job answers. -/
def Answers (platform : Platform) (jobId : String) : ClaimDecision → Prop
  | .proceed intentId => nonEmpty intentId = true
  | .existingResult _ result => Reports platform jobId result
  | .reconciliationRequired intentId _ => nonEmpty intentId = true

theorem parsedResult_accepted {platform : Platform} {result : WritebackResult}
    (accepted : parsedResult platform result = .ok result) : parseWritebackResult platform result = .ok result := by
  unfold parsedResult at accepted
  cases parses : parseWritebackResult platform result with
  | error issues => rw [parses] at accepted; cases accepted
  | ok parsed => rw [parseWritebackResult_ok parses]

theorem nonEmpty_intentIdOf (jobId : String) : nonEmpty (intentIdOf jobId) = true := by
  simp only [nonEmpty, bne_iff_ne, ne_eq]
  intro empty
  have length := congrArg String.length empty
  have marker : "wbi:".length = 4 := rfl
  rw [intentIdOf, String.length_append, marker] at length
  simp at length

/-! ### Receipts as results -/

/-- What the result of a receipt shares with the results of all versions. -/
def headerOfReceipt (receipt : ReceiptHeader) : ResultHeader :=
  { jobId := receipt.writebackJobId, runnerId := receipt.runnerId, status := receipt.status
    affectedRows := receipt.rowsAffected, resultHash := some receipt.receiptHash, completedAt := receipt.executedAt
    errorCode := receipt.safeErrorCode, intentId := receipt.reconciliation.map (·.intentId) }

theorem reconciliationIntentIssues_of_receipt {receipt : ReceiptHeader} {message : String}
    (none : reconciliationMetadataIssues receipt message = []) :
    reconciliationIntentIssues (headerOfReceipt receipt) = [] := by
  simp only [reconciliationMetadataIssues, reconciliationIntentIssues, headerOfReceipt, issueIf_eq_nil,
    Option.isNone_map] at none ⊢
  exact none

/-- The fields of a receipt are those of its result. -/
theorem resultHeaderFields_of_receipt {platform : Platform} {receipt : GovernedReceipt}
    (fields : governedReceiptFields platform receipt = true) :
    resultHeaderFields (headerOfReceipt receipt.toReceiptHeader) = true ∧
      receipt.identities.all (fun c => safeIdentifier c.column) = true ∧
      receipt.inverse.all (inverseDescriptorV1Schema platform) = true := by
  simp only [governedReceiptFields, receiptHeaderFields, Bool.and_eq_true] at fields
  simp only [resultHeaderFields, headerOfReceipt, Bool.and_eq_true, Option.all_map]
  refine ⟨⟨⟨⟨⟨?_, ?_⟩, ?_⟩, ?_⟩, ?_⟩, ?_, ?_⟩
  all_goals first | tauto | skip
  cases noted : receipt.reconciliation with
  | none => rfl
  | some r =>
    simp only [noted, Option.all_some, Bool.and_eq_true] at fields
    simp only [Option.all_some, Function.comp_apply]
    tauto

/-- The schema of receipts checks what the schema of results does. -/
theorem receiptToWritebackResult_reports {platform : Platform} {receipt : ExecutionReceipt}
    (accepted : parseExecutionReceipt platform receipt = .ok receipt) {result : WritebackResult}
    (converted : receiptToWritebackResult receipt = some result) :
    Reports platform receipt.header.writebackJobId result := by
  cases receipt with
  | v1 r => cases converted
  | v2 r =>
    cases converted
    obtain ⟨fields, issues, _⟩ := accept_ok_iff.mp accepted
    simp only [Bool.and_eq_true, List.append_eq_nil_iff] at fields issues
    obtain ⟨header, identities, inverse⟩ := resultHeaderFields_of_receipt fields.1.1
    refine ⟨accept_ok_iff.mpr ⟨?_, reconciliationIntentIssues_of_receipt issues.1.2, rfl⟩, rfl⟩
    simp only [Bool.and_eq_true]
    exact ⟨⟨⟨⟨header, fields.1.2⟩, fields.2⟩, identities⟩, inverse⟩
  | v3 r =>
    cases converted
    obtain ⟨fields, issues, _⟩ := accept_ok_iff.mp accepted
    simp only [Bool.and_eq_true, memberEffectFields, List.append_eq_nil_iff] at fields issues
    obtain ⟨header, identities, inverse⟩ := resultHeaderFields_of_receipt fields.1.1.1
    refine ⟨accept_ok_iff.mpr ⟨?_, ?_, rfl⟩, rfl⟩
    · simp only [Bool.and_eq_true]
      exact ⟨⟨⟨⟨⟨⟨header, fields.1.1.2⟩, fields.1.2⟩, identities⟩, fields.2.1⟩, fields.2.2⟩, inverse⟩
    · refine List.append_eq_nil_iff.mpr ⟨?_, reconciliationIntentIssues_of_receipt issues.2⟩
      simpa only [issueIf_eq_nil] using issues.1.1
  | v4 r =>
    cases converted
    obtain ⟨fields, issues, _⟩ := accept_ok_iff.mp accepted
    simp only [Bool.and_eq_true, memberEffectFields, List.append_eq_nil_iff] at fields issues
    obtain ⟨header, identities, inverse⟩ := resultHeaderFields_of_receipt fields.1.1.1
    refine ⟨accept_ok_iff.mpr ⟨?_, ?_, rfl⟩, rfl⟩
    · simp only [Bool.and_eq_true]
      exact ⟨⟨⟨⟨⟨⟨header, fields.1.1.2⟩, fields.1.2⟩, identities⟩, fields.2.1⟩, fields.2.2⟩, inverse⟩
    · simp only [List.append_eq_nil_iff]
      refine ⟨⟨?_, ?_⟩, reconciliationIntentIssues_of_receipt issues.2⟩
      · simpa only [issueIf_eq_nil] using issues.1.1.1
      · simpa only [issueIf_eq_nil] using issues.1.1.2

/-! ### Rows -/

theorem kept_recordedIntent {platform : Platform} (job : WritebackJob) (runnerId : String) :
    Kept platform (recordedIntent job runnerId) := by
  intro result stored
  cases stored

theorem kept_completedRow {platform : Platform} {i : StoredWritebackIntent} {result : WritebackResult}
    (reports : Reports platform i.writebackJobId result) : Kept platform (completedRow result i) := by
  intro stored same
  cases same
  exact reports

theorem kept_reconcileRow {platform : Platform} {input : ReconcileInput} {i j : StoredWritebackIntent}
    (reconciled : reconcileRow platform input i = .ok j) : Kept platform j := by
  obtain ⟨result, made, rest⟩ := bind_eq_ok reconciled
  obtain ⟨_, _, rest⟩ := bind_eq_ok rest
  obtain ⟨_, _, rest⟩ := bind_eq_ok rest
  obtain ⟨_, matched, rest⟩ := bind_eq_ok rest
  obtain ⟨_, _, rest⟩ := bind_eq_ok rest
  cases rest
  have belongs := (ensure_ok_iff.mp matched).1
  unfold reconciliationResult at made
  cases parses : parseExecutionReceipt platform input.receipt with
  | error issues => rw [parses] at made; cases made
  | ok parsed =>
    obtain rfl := parseExecutionReceipt_ok parses
    rw [parses] at made
    cases converted : receiptToWritebackResult input.receipt with
    | none => simp only [converted] at made; cases made
    | some r =>
      simp only [converted] at made
      cases made
      intro stored same
      cases same
      have reports := receiptToWritebackResult_reports parses converted
      have job : input.receipt.header.writebackJobId = i.writebackJobId := by
        unfold receiptMatchesIntent at belongs
        cases receipt : input.receipt <;> simp only [receipt] at belongs
        · cases belongs
        all_goals
          simp only [decide_eq_true_eq] at belongs
          exact belongs.2.1
      rw [job] at reports
      exact reports

/-- The answer of a claim that finds a row. -/
theorem claimExisting_answers {platform : Platform} {i : StoredWritebackIntent} {job : WritebackJob}
    {d : ClaimDecision}
    (kept : Kept platform i) (decided : claimExisting i job = .ok d) : Answers platform job.jobId d := by
  obtain ⟨_, matched, rest⟩ := bind_eq_ok decided
  have same : i.writebackJobId = job.jobId := congrArg JobIdentity.jobId (assertIntentMatchesJob_ok_iff.mp matched)
  have named := nonEmpty_intentIdOf job.jobId
  have terminal : ∀ result, i.result = some result → Answers platform job.jobId (.existingResult (intentIdOf job.jobId) result) := by
    intro result stored
    show Reports platform job.jobId result
    rw [← same]
    exact kept result stored
  cases status : i.status <;> simp only [status] at rest
  all_goals first
    | cases rest
      exact named
    | cases stored : i.result with
      | none =>
        simp only [stored] at rest
        cases rest
        exact named
      | some result =>
        simp only [stored] at rest
        cases rest
        exact terminal result stored

/-! ### Stores -/

def AllKept {σ : Type} (platform : Platform) (store : IntentStore σ) (s : σ) : Prop :=
  ∀ intentId i, store.getWritebackIntent s intentId = some i → Kept platform i

/-- A store whose rows only ever have results of their own job. -/
structure KeepsResults {σ : Type} (platform : Platform) (store : IntentStore σ) : Prop where
  step : ∀ s e, AllKept platform store s → AllKept platform store (store.step s e)
  decided : ∀ s job runnerId d, AllKept platform store s → store.decision s job runnerId = .ok d →
    Answers platform job.jobId d

theorem KeepsResults.run {σ : Type} {platform : Platform} {store : IntentStore σ} (law : KeepsResults platform store)
    {s : σ} (start : AllKept platform store s) (events : List IntentEvent) :
    AllKept platform store (run store.step s events) :=
  invariant (AllKept platform store) law.step start events

namespace SqliteLedger
variable {platform : Platform}

theorem allKept_updateIntent {s : SqliteLedger} {intentId : String}
    {f : StoredWritebackIntent → StoredWritebackIntent}
    {keeps : ∀ i, (f i).identity = i.identity} {i : StoredWritebackIntent}
    (found : s.getWritebackIntent intentId = some i) (here : Kept platform (f i))
    (kept : AllKept platform (sqliteIntentStore platform) s) :
    AllKept platform (sqliteIntentStore platform) (s.updateIntent intentId f keeps) := by
  intro other j stored
  have stored' : (s.updateIntent intentId f keeps).getWritebackIntent other = some j := stored
  rw [getWritebackIntent_updateIntent, found] at stored'
  split at stored'
  · cases stored'
    exact here
  · exact kept other j stored'

theorem allKept_insert {s : SqliteLedger} {job : WritebackJob} {runnerId : String} {intents : WritebackIntents}
    (inserted : s.intents.insert (recordedIntent job runnerId) = .ok intents)
    (kept : AllKept platform (sqliteIntentStore platform) s) :
    AllKept platform (sqliteIntentStore platform) { s with intents } := by
  obtain ⟨_, _, rows⟩ := WritebackIntents.insert_ok inserted
  intro other j stored
  have stored' : intents.rows.get? other = some j := stored
  rw [rows, KeyedMap.get?_set] at stored'
  split at stored'
  · cases stored'
    exact kept_recordedIntent job runnerId
  · exact kept other j stored'

end SqliteLedger

theorem sqliteIntentStore_keepsResults (platform : Platform) : KeepsResults platform
    (sqliteIntentStore platform) where
  step := by
    intro s e kept
    cases e with
    | claim job runnerId =>
      simp only [IntentStore.step, sqliteIntentStore]
      cases claimed : s.claimWritebackIntent job runnerId with
      | error e => exact kept
      | ok answer =>
        obtain ⟨d, s'⟩ := answer
        rcases SqliteLedger.claimWritebackIntent_ok claimed with ⟨i, found, decided, rfl⟩ | ⟨absent, _, intents, inserted, rfl⟩
        · exact kept
        · exact SqliteLedger.allKept_insert inserted kept
    | markApplying id runnerId =>
      simp only [IntentStore.step, sqliteIntentStore]
      cases marked : s.markWritebackIntentApplying id runnerId with
      | error e => exact kept
      | ok s' =>
        obtain ⟨i, found, recorded, rfl⟩ := SqliteLedger.markWritebackIntentApplying_ok marked
        exact SqliteLedger.allKept_updateIntent found (kept id i found) kept
    | complete id result finished =>
      simp only [IntentStore.step, sqliteIntentStore]
      cases completed : s.completeWritebackIntent platform id result with
      | error e => exact kept
      | ok s' =>
        obtain ⟨i, found, _, ⟨_, rfl⟩ | ⟨_, rfl⟩⟩ := SqliteLedger.completeWritebackIntent_ok completed
        · refine SqliteLedger.allKept_updateIntent found (kept_completedRow ?_) kept
          obtain ⟨parsed, accepted, rest⟩ := bind_eq_ok completed
          obtain rfl := parsedResult_ok accepted
          obtain ⟨j, required, rest⟩ := bind_eq_ok rest
          obtain ⟨_, named, _⟩ := bind_eq_ok rest
          rw [SqliteLedger.requireWritebackIntent_ok required] at found
          cases found
          exact ⟨parsedResult_accepted accepted, ensure_ok_iff.mp named⟩
        · exact kept
    | requireReconciliation id reason =>
      simp only [IntentStore.step, sqliteIntentStore]
      cases required : s.requireWritebackReconciliation id reason with
      | error e => exact kept
      | ok s' =>
        obtain ⟨i, found, ⟨_, rfl⟩ | ⟨_, text, rfl⟩⟩ := SqliteLedger.requireWritebackReconciliation_ok required
        · exact kept
        · exact SqliteLedger.allKept_updateIntent found (kept id i found) kept
    | reconcile input =>
      simp only [IntentStore.step, sqliteIntentStore]
      cases reconciled : s.reconcileWritebackIntent platform input with
      | error e => exact kept
      | ok s' =>
        obtain ⟨i, j, found, row, f, keeps, rfl, rfl⟩ := SqliteLedger.reconcileWritebackIntent_ok reconciled
        exact SqliteLedger.allKept_updateIntent found (kept_reconcileRow row) kept
  decided := by
    intro s job runnerId d kept decided
    simp only [IntentStore.decision, sqliteIntentStore] at decided
    cases claimed : s.claimWritebackIntent job runnerId with
    | error e => rw [claimed] at decided; cases decided
    | ok answer =>
      obtain ⟨d', s'⟩ := answer
      rw [claimed] at decided
      cases decided
      rcases SqliteLedger.claimWritebackIntent_ok claimed with ⟨i, found, existing, _⟩ | ⟨_, rfl, _⟩
      · exact claimExisting_answers (kept _ i found) existing
      · exact nonEmpty_intentIdOf job.jobId

namespace PostgresIntents
variable {platform : Platform}

theorem allKept_writeIntent {ledger : Ledger} {intentId : String} {row : Option StoredWritebackIntent}
    (here : ∀ i, row = some i → Kept platform i) (kept : AllKept platform (postgresIntentStore platform) ledger) :
    AllKept platform (postgresIntentStore platform) (writeIntent ledger intentId row) := by
  cases row with
  | none => exact kept
  | some i =>
    intro other j stored
    have stored' : (ledger.set intentId i).get? other = some j := stored
    rw [KeyedMap.get?_set] at stored'
    split at stored'
    · cases stored'
      exact here i rfl
    · exact kept other j stored'

theorem allKept_withIntent {ledger ledger' : Ledger} {jobId : String}
    {callback : Option StoredWritebackIntent → Except StoreError (Option StoredWritebackIntent)}
    (written : withIntent ledger jobId callback = .ok ledger') (kept : AllKept platform (postgresIntentStore platform) ledger)
    (leaves : ∀ a b, (∀ i, a = some i → Kept platform i) → callback a = .ok b → ∀ i, b = some i → Kept platform i) :
    AllKept platform (postgresIntentStore platform) ledger' := by
  obtain ⟨row, left, rest⟩ := bind_eq_ok written
  cases rest
  exact allKept_writeIntent (leaves _ _ (kept _) left) kept

theorem kept_claimRow {job : WritebackJob} {runnerId : String} {a b : Option StoredWritebackIntent}
    {d : ClaimDecision}
    (before : ∀ i, a = some i → Kept platform i) (claimed : claimRow job runnerId a = .ok (d, b)) :
    (∀ i, b = some i → Kept platform i) ∧ Answers platform job.jobId d := by
  cases a with
  | some existing =>
    obtain ⟨d', decided, rest⟩ := bind_eq_ok claimed
    cases rest
    exact ⟨before, claimExisting_answers (before existing rfl) decided⟩
  | none =>
    cases claimed
    refine ⟨?_, nonEmpty_intentIdOf job.jobId⟩
    intro i same
    cases same
    exact kept_recordedIntent job runnerId

theorem kept_markRow {intentId runnerId : String} {a b : Option StoredWritebackIntent}
    (before : ∀ i, a = some i → Kept platform i) (marked : markRow intentId runnerId a = .ok b) :
    ∀ i, b = some i → Kept platform i := by
  cases a with
  | none => cases marked
  | some existing =>
    obtain ⟨_, _, rest⟩ := bind_eq_ok marked
    cases rest
    intro i same
    cases same
    exact before existing rfl

theorem kept_completeRow {intentId : String} {result : WritebackResult} {a b : Option StoredWritebackIntent}
    (accepted : parseWritebackResult platform result = .ok result) (before : ∀ i, a = some i → Kept platform i)
    (completed : completeRow intentId result a = .ok b) : ∀ i, b = some i → Kept platform i := by
  cases a with
  | none => cases completed
  | some existing =>
    obtain ⟨_, named, rest⟩ := bind_eq_ok completed
    split at rest
    · cases rest
      exact before
    · obtain ⟨_, _, rest⟩ := bind_eq_ok rest
      cases rest
      intro i same
      cases same
      exact kept_completedRow ⟨accepted, (ensure_ok_iff.mp named).symm⟩

theorem kept_reconciliationRequiredRow {intentId reason : String} {a b : Option StoredWritebackIntent}
    (before : ∀ i, a = some i → Kept platform i) (required : reconciliationRequiredRow intentId reason a = .ok b) :
    ∀ i, b = some i → Kept platform i := by
  cases a with
  | none => cases required
  | some existing =>
    simp only [reconciliationRequiredRow] at required
    by_cases settled : existing.status = .applied ∨ existing.status = .alreadyApplied
    · rw [if_pos settled] at required
      cases required
      exact before
    · rw [if_neg settled] at required
      cases required
      intro i same
      cases same
      exact before existing rfl

end PostgresIntents

theorem postgresIntentStore_keepsResults (platform : Platform) : KeepsResults platform
    (postgresIntentStore platform) where
  step := by
    intro s e kept
    cases e with
    | claim job runnerId =>
      simp only [IntentStore.step, postgresIntentStore]
      cases claimed : PostgresIntents.claimWritebackIntent s job runnerId with
      | error e => exact kept
      | ok answer =>
        obtain ⟨⟨d, row⟩, left, rest⟩ := bind_eq_ok claimed
        cases rest
        exact PostgresIntents.allKept_writeIntent (PostgresIntents.kept_claimRow (kept _) left).1 kept
    | markApplying id runnerId =>
      simp only [IntentStore.step, postgresIntentStore]
      cases marked : PostgresIntents.markWritebackIntentApplying s id runnerId with
      | error e => exact kept
      | ok s' =>
        obtain ⟨jobId, _, written⟩ := bind_eq_ok marked
        exact PostgresIntents.allKept_withIntent written kept fun _ _ => PostgresIntents.kept_markRow
    | complete id result finished =>
      simp only [IntentStore.step, postgresIntentStore]
      cases completed : PostgresIntents.completeWritebackIntent platform s id result with
      | error e => exact kept
      | ok s' =>
        obtain ⟨parsed, accepted, rest⟩ := bind_eq_ok completed
        obtain rfl := parsedResult_ok accepted
        obtain ⟨jobId, _, written⟩ := bind_eq_ok rest
        exact PostgresIntents.allKept_withIntent written kept fun _ _ =>
          PostgresIntents.kept_completeRow (parsedResult_accepted accepted)
    | requireReconciliation id reason =>
      simp only [IntentStore.step, postgresIntentStore]
      cases required : PostgresIntents.requireWritebackReconciliation s id reason with
      | error e => exact kept
      | ok s' =>
        obtain ⟨jobId, _, written⟩ := bind_eq_ok required
        exact PostgresIntents.allKept_withIntent written kept fun _ _ => PostgresIntents.kept_reconciliationRequiredRow
    | reconcile input =>
      simp only [IntentStore.step, postgresIntentStore]
      cases reconciled : PostgresIntents.reconcileWritebackIntent platform s input with
      | error e => exact kept
      | ok s' =>
        obtain ⟨jobId, _, written⟩ := bind_eq_ok reconciled
        refine PostgresIntents.allKept_withIntent written kept ?_
        intro a b before left
        cases a with
        | none => cases left
        | some i =>
          simp only at left
          cases row : reconcileRow platform input i with
          | error e => rw [row] at left; cases left
          | ok j =>
            rw [row] at left
            cases left
            intro k same
            cases same
            exact kept_reconcileRow row
  decided := by
    intro s job runnerId d kept decided
    simp only [IntentStore.decision, postgresIntentStore] at decided
    cases claimed : PostgresIntents.claimWritebackIntent s job runnerId with
    | error e => rw [claimed] at decided; cases decided
    | ok answer =>
      obtain ⟨⟨d', row⟩, left, rest⟩ := bind_eq_ok claimed
      rw [claimed] at decided
      cases decided
      cases rest
      exact (PostgresIntents.kept_claimRow (kept _) left).2

/-- A claim answered by one of the two ledgers, in a state that its calls reach. -/
inductive AnsweredByLedger (platform : Platform) (job : WritebackJob) (runnerId : String) (d : ClaimDecision) : Prop where
  | sqlite (proposals : KeyedMap String StoredProposal) (events : List IntentEvent)
      (decided : (sqliteIntentStore platform).decision
        (run (sqliteIntentStore platform).step ⟨proposals, .empty⟩ events) job runnerId = .ok d)
  | postgres (events : List IntentEvent)
      (decided : (postgresIntentStore platform).decision
        (run (postgresIntentStore platform).step KeyedMap.empty events) job runnerId = .ok d)

theorem AnsweredByLedger.answers {platform : Platform} {job : WritebackJob} {runnerId : String} {d : ClaimDecision}
    (answered : AnsweredByLedger platform job runnerId d) : Answers platform job.jobId d := by
  cases answered with
  | sqlite proposals events decided =>
    have law := sqliteIntentStore_keepsResults platform
    refine law.decided _ job runnerId d (law.run ?_ events) decided
    intro intentId i found
    cases found
  | postgres events decided =>
    have law := postgresIntentStore_keepsResults platform
    refine law.decided _ job runnerId d (law.run ?_ events) decided
    intro intentId i found
    cases found

end SynapsorRunner.Intents
