import SynapsorRunner.Attempts

/-!
What becomes of a stored outcome. An intent is settled when it holds one of the
four terminal statuses with its result. No claim, no `applying` mark, no
completion and no reconciliation moves a settled intent (`Finalizes.kept`); the
demand to reconcile spares `applied` and `already_applied` only, and puts a
settled conflict or failure back to `reconciliation_required`, from where it may
be completed anew.
-/
namespace SynapsorRunner.Intents
open SynapsorRunner.Protocol SynapsorRunner.Proposals SynapsorRunner.Runs

/-! ### Calls of any caller -/

/-- A call on an intent store, with any result. -/
inductive IntentCall where
  | claim (job : WritebackJob) (runnerId : String)
  | markApplying (intentId runnerId : String)
  | complete (intentId : String) (result : WritebackResult)
  | requireReconciliation (intentId reason : String)
  | reconcile (input : ReconcileInput)

/-- What a call makes of the store; a call that throws leaves it as it was. -/
def IntentStore.perform {σ : Type} (store : IntentStore σ) (s : σ) : IntentCall → σ
  | .claim job runnerId => ((store.claimWritebackIntent s job runnerId).toOption.map Prod.snd).getD s
  | .markApplying intentId runnerId => (store.markWritebackIntentApplying s intentId runnerId).toOption.getD s
  | .complete intentId result => (store.completeWritebackIntent s intentId result).toOption.getD s
  | .requireReconciliation intentId reason => (store.requireWritebackReconciliation s intentId reason).toOption.getD s
  | .reconcile input => (store.reconcileWritebackIntent s input).toOption.getD s

/-- The statuses that `claimWritebackIntent` answers with the stored result. -/
def IntentStatus.terminal : IntentStatus → Bool
  | .applied | .alreadyApplied | .conflict | .failed => true
  | _ => false

/-- A terminal status with a stored result. -/
structure Settled (i : StoredWritebackIntent) : Prop where
  terminal : i.status.terminal = true
  stored : i.result.isSome = true

theorem terminal_not_open {status : IntentStatus} (terminal : status.terminal = true) :
    status ≠ .intentRecorded ∧ ¬ (status = .applying ∨ status = .reconciliationRequired) ∧
      ¬ (status = .reconciliationRequired ∨ status = .applying) := by
  cases status <;> simp_all [IntentStatus.terminal]

/-- A row has the status and the result of `i`. -/
def SameOutcome (i : StoredWritebackIntent) (row : Option StoredWritebackIntent) : Prop :=
  ∃ j, row = some j ∧ j.status = i.status ∧ j.result = i.result

/-- After every part of a run, the row of an intent has the outcome of `i`. -/
def OutcomeKept {σ : Type} (store : IntentStore σ) (s : σ) (intentId : String) (i : StoredWritebackIntent)
    (calls : List IntentCall) : Prop :=
  ∀ before after, calls = before ++ after →
    SameOutcome i (store.getWritebackIntent (run store.perform s before) intentId)

/-- No call of a run demands to reconcile the intent. -/
def NeverReopened (intentId : String) (calls : List IntentCall) : Prop :=
  ∀ reason, IntentCall.requireReconciliation intentId reason ∉ calls

/-- What a store does to a settled row: nothing, unless the call demands to
    reconcile a conflict or a failure. -/
structure Finalizes {σ : Type} (store : IntentStore σ) : Prop where
  kept : ∀ s call intentId i, store.getWritebackIntent s intentId = some i → Settled i →
    (∀ reason, call ≠ .requireReconciliation intentId reason) →
    store.getWritebackIntent (store.perform s call) intentId = some i
  spared : ∀ s reason intentId i, store.getWritebackIntent s intentId = some i →
    i.status = .applied ∨ i.status = .alreadyApplied →
    store.getWritebackIntent (store.perform s (.requireReconciliation intentId reason)) intentId = some i
  reopened : ∀ s reason jobId i, nonEmpty jobId = true → store.getWritebackIntent s (intentIdOf jobId) = some i →
    i.status = .conflict ∨ i.status = .failed →
    ∃ text, store.getWritebackIntent (store.perform s (.requireReconciliation (intentIdOf jobId) reason))
      (intentIdOf jobId) = some (reconciliationRow text i)

namespace Finalizes
variable {σ : Type} {store : IntentStore σ}

/-- A run without a demand to reconcile leaves a settled row as it is. -/
theorem kept_run (law : Finalizes store) {s : σ} {intentId : String} {i : StoredWritebackIntent}
    (found : store.getWritebackIntent s intentId = some i) (settled : Settled i) {calls : List IntentCall}
    (never : NeverReopened intentId calls) :
    store.getWritebackIntent (run store.perform s calls) intentId = some i := by
  induction calls generalizing s with
  | nil => exact found
  | cons call rest ih =>
    have here : ∀ reason, call ≠ .requireReconciliation intentId reason := by
      rintro reason rfl
      exact never reason (List.mem_cons_self ..)
    have later : NeverReopened intentId rest := fun reason member => never reason (List.mem_cons_of_mem _ member)
    exact ih (law.kept s call intentId i found settled here) later

/-- No run moves an applied row. -/
theorem spared_run (law : Finalizes store) {s : σ} {intentId : String} {i : StoredWritebackIntent}
    (found : store.getWritebackIntent s intentId = some i) (settled : Settled i)
    (applied : i.status = .applied ∨ i.status = .alreadyApplied) (calls : List IntentCall) :
    store.getWritebackIntent (run store.perform s calls) intentId = some i := by
  refine invariant (fun s => store.getWritebackIntent s intentId = some i) (fun s call found => ?_) found calls
  by_cases demand : ∃ reason, call = .requireReconciliation intentId reason
  · obtain ⟨reason, rfl⟩ := demand
    exact law.spared s reason intentId i found applied
  · exact law.kept s call intentId i found settled fun reason same => demand ⟨reason, same⟩

/-- The first demand to reconcile a conflict or a failure changes its status. -/
theorem reopened_run (law : Finalizes store) {s : σ} {jobId : String} (named : nonEmpty jobId = true)
    {i : StoredWritebackIntent} (found : store.getWritebackIntent s (intentIdOf jobId) = some i) (settled : Settled i)
    (unapplied : i.status = .conflict ∨ i.status = .failed) {calls : List IntentCall} {reason : String}
    (demand : .requireReconciliation (intentIdOf jobId) reason ∈ calls) :
    ∃ before after, calls = before ++ after ∧
      ¬ SameOutcome i (store.getWritebackIntent (run store.perform s before) (intentIdOf jobId)) := by
  induction calls generalizing s with
  | nil => cases demand
  | cons call rest ih =>
    by_cases here : ∃ reason, call = .requireReconciliation (intentIdOf jobId) reason
    · obtain ⟨reason', rfl⟩ := here
      obtain ⟨text, moved⟩ := law.reopened s reason' jobId i named found unapplied
      refine ⟨[_], rest, rfl, ?_⟩
      rintro ⟨j, row, status, _⟩
      rw [run_cons, run_nil, moved] at row
      cases row
      rcases unapplied with conflict | failed
      · rw [conflict] at status
        cases status
      · rw [failed] at status
        cases status
    · have stays := law.kept s call (intentIdOf jobId) i found settled fun reason same => here ⟨reason, same⟩
      have later : .requireReconciliation (intentIdOf jobId) reason ∈ rest := by
        rcases List.mem_cons.mp demand with same | later
        · exact absurd ⟨reason, same.symm⟩ here
        · exact later
      obtain ⟨before, after, parts, changed⟩ := ih stays later
      exact ⟨call :: before, after, by rw [parts, List.cons_append], changed⟩

theorem outcomeKept_iff (law : Finalizes store) {s : σ} {jobId : String} (named : nonEmpty jobId = true)
    {i : StoredWritebackIntent} (found : store.getWritebackIntent s (intentIdOf jobId) = some i) (settled : Settled i)
    (calls : List IntentCall) :
    OutcomeKept store s (intentIdOf jobId) i calls ↔
      (i.status = .applied ∨ i.status = .alreadyApplied) ∨ NeverReopened (intentIdOf jobId) calls := by
  constructor
  · intro kept
    by_cases applied : i.status = .applied ∨ i.status = .alreadyApplied
    · exact .inl applied
    · refine .inr fun reason demand => ?_
      have unapplied : i.status = .conflict ∨ i.status = .failed := by
        have terminal := settled.terminal
        cases status : i.status <;> simp_all [IntentStatus.terminal]
      obtain ⟨before, after, parts, changed⟩ := law.reopened_run named found settled unapplied demand
      exact changed (kept before after parts)
  · rintro (applied | never) before after rfl
    · exact ⟨i, law.spared_run found settled applied before, rfl, rfl⟩
    · have early : NeverReopened (intentIdOf jobId) before := fun reason member =>
        never reason (List.mem_append_left _ member)
      exact ⟨i, law.kept_run found settled early, rfl, rfl⟩

end Finalizes

/-! ### The SQLite store -/

namespace SqliteLedger
variable {platform : Platform}

theorem getWritebackIntent_insert {s : SqliteLedger} {job : WritebackJob} {runnerId : String} {intents : WritebackIntents}
    (inserted : s.intents.insert (recordedIntent job runnerId) = .ok intents) {intentId : String}
    {i : StoredWritebackIntent} (found : s.getWritebackIntent intentId = some i) :
    ({ s with intents } : SqliteLedger).getWritebackIntent intentId = some i := by
  obtain ⟨absent, _, rows⟩ := WritebackIntents.insert_ok inserted
  have other : intentId ≠ (recordedIntent job runnerId).intentId := by
    rintro rfl
    have found' : s.intents.rows.get? (recordedIntent job runnerId).intentId = some i := found
    rw [absent] at found'
    cases found'
  simp only [getWritebackIntent, rows]
  rw [KeyedMap.get?_set_of_ne _ _ other]
  exact found

/-- An update of another row leaves a row as it is. -/
theorem getWritebackIntent_updateOther {s : SqliteLedger} {intentId other : String} {i : StoredWritebackIntent}
    {f : StoredWritebackIntent → StoredWritebackIntent} {keeps : ∀ i, (f i).identity = i.identity}
    (found : s.getWritebackIntent intentId = some i) (apart : intentId ≠ other) :
    (s.updateIntent other f keeps).getWritebackIntent intentId = some i := by
  rw [getWritebackIntent_updateIntent, if_neg apart]
  exact found

/-- Whatever is written to an open row is not written to a settled one. -/
theorem apart_of_settled {s : SqliteLedger} {intentId other : String} {i j : StoredWritebackIntent}
    (found : s.getWritebackIntent intentId = some i) (target : s.getWritebackIntent other = some j)
    (differ : i.status ≠ j.status) : intentId ≠ other := by
  rintro rfl
  rw [found] at target
  cases target
  exact differ rfl

end SqliteLedger

theorem sqliteIntentStore_finalizes (platform : Platform) : Finalizes (sqliteIntentStore platform) where
  kept := by
    intro s call intentId i found settled quiet
    have found' : s.getWritebackIntent intentId = some i := found
    have notOpen := terminal_not_open settled.terminal
    show ((sqliteIntentStore platform).perform s call).getWritebackIntent intentId = some i
    cases call with
    | claim job runnerId =>
      simp only [IntentStore.perform, sqliteIntentStore]
      cases claimed : s.claimWritebackIntent job runnerId with
      | error e => exact found'
      | ok answer =>
        obtain ⟨d, s'⟩ := answer
        rcases SqliteLedger.claimWritebackIntent_ok claimed with ⟨j, _, _, rfl⟩ | ⟨_, _, intents, inserted, rfl⟩
        · exact found'
        · exact SqliteLedger.getWritebackIntent_insert inserted found'
    | markApplying id runnerId =>
      simp only [IntentStore.perform, sqliteIntentStore]
      cases marked : s.markWritebackIntentApplying id runnerId with
      | error e => exact found'
      | ok s' =>
        obtain ⟨j, target, recorded, rfl⟩ := SqliteLedger.markWritebackIntentApplying_ok marked
        have apart := SqliteLedger.apart_of_settled found' target (by rw [recorded]; exact notOpen.1)
        exact SqliteLedger.getWritebackIntent_updateOther found' apart
    | complete id result =>
      simp only [IntentStore.perform, sqliteIntentStore]
      cases completed : s.completeWritebackIntent platform id result with
      | error e => exact found'
      | ok s' =>
        obtain ⟨j, target, _, ⟨stillOpen, rfl⟩ | ⟨_, rfl⟩⟩ := SqliteLedger.completeWritebackIntent_ok completed
        · have apart := SqliteLedger.apart_of_settled found' target fun same => notOpen.2.1 (same ▸ stillOpen)
          exact SqliteLedger.getWritebackIntent_updateOther found' apart
        · exact found'
    | requireReconciliation id reason =>
      simp only [IntentStore.perform, sqliteIntentStore]
      cases required : s.requireWritebackReconciliation id reason with
      | error e => exact found'
      | ok s' =>
        obtain ⟨j, target, ⟨_, rfl⟩ | ⟨_, text, rfl⟩⟩ := SqliteLedger.requireWritebackReconciliation_ok required
        · exact found'
        · have apart : intentId ≠ id := by
            rintro rfl
            exact quiet reason rfl
          exact SqliteLedger.getWritebackIntent_updateOther found' apart
    | reconcile input =>
      simp only [IntentStore.perform, sqliteIntentStore]
      cases reconciled : s.reconcileWritebackIntent platform input with
      | error e => exact found'
      | ok s' =>
        obtain ⟨j, k, target, row, f, keeps, rfl, _⟩ := SqliteLedger.reconcileWritebackIntent_ok reconciled
        have apart := SqliteLedger.apart_of_settled found' target fun same =>
          notOpen.2.2 (same ▸ (reconcileRow_ok row).1)
        exact SqliteLedger.getWritebackIntent_updateOther found' apart
  spared := by
    intro s reason intentId i found applied
    have found' : s.getWritebackIntent intentId = some i := found
    have spared : s.requireWritebackReconciliation intentId reason = .ok s := by
      simp [SqliteLedger.requireWritebackReconciliation, SqliteLedger.requireWritebackIntent, found', applied, bind,
        Except.bind, pure, Except.pure]
    simp only [IntentStore.perform, sqliteIntentStore, spared]
    exact found'
  reopened := by
    intro s reason jobId i named found unapplied
    have found' : s.getWritebackIntent (intentIdOf jobId) = some i := found
    have notApplied : ¬ (i.status = .applied ∨ i.status = .alreadyApplied) := by
      rcases unapplied with status | status <;> simp [status]
    refine ⟨slice500 (if reason = "" then "source outcome is unknown" else reason), ?_⟩
    have demanded : s.requireWritebackReconciliation (intentIdOf jobId) reason =
        .ok (s.updateIntent (intentIdOf jobId)
          (reconciliationRow (slice500 (if reason = "" then "source outcome is unknown" else reason)))
          (reconciliationRow_identity _)) := by
      simp [SqliteLedger.requireWritebackReconciliation, SqliteLedger.requireWritebackIntent, found', notApplied, bind,
        Except.bind, pure, Except.pure]
    simp only [IntentStore.perform, sqliteIntentStore, demanded]
    refine (SqliteLedger.getWritebackIntent_updateIntent ..).trans ?_
    rw [if_pos rfl, found']
    rfl

/-! ### The Postgres store -/

namespace PostgresIntents
variable {platform : Platform}

theorem toList_intentIdOf (jobId : String) : (intentIdOf jobId).toList = "wbi:".toList ++ jobId.toList := by
  simp [intentIdOf]

/-- An intent id names the row that is read for it. -/
theorem intentIdOf_intentJobId {intentId jobId : String} (named : intentJobId intentId = .ok jobId) :
    intentIdOf jobId = intentId := by
  unfold intentJobId at named
  split at named
  · rename_i form
    cases named
    obtain ⟨rest, parts⟩ := List.isPrefixOf_iff_prefix.mp form.1
    apply String.toList_injective
    rw [toList_intentIdOf, String.toList_ofList, ← parts]
    simp
  · cases named

theorem intentJobId_intentIdOf {jobId : String} (named : nonEmpty jobId = true) :
    intentJobId (intentIdOf jobId) = .ok jobId := by
  have long : 0 < jobId.length := by
    rcases Nat.eq_zero_or_pos jobId.length with none | some
    · have blank : jobId = "" := String.length_eq_zero_iff.mp none
      simp [blank, nonEmpty] at named
    · exact some
  have form : "wbi:".toList.isPrefixOf (intentIdOf jobId).toList = true ∧ (intentIdOf jobId).length > 4 := by
    refine ⟨?_, ?_⟩
    · rw [List.isPrefixOf_iff_prefix, toList_intentIdOf]
      exact List.prefix_append _ _
    · have marker : "wbi:".length = 4 := rfl
      rw [intentIdOf, String.length_append, marker]
      omega
  unfold intentJobId
  rw [if_pos form, toList_intentIdOf]
  simp

/-- The row of an intent after a transaction on it. -/
theorem get?_withIntent {ledger ledger' : Ledger} {jobId : String}
    {callback : Option StoredWritebackIntent → Except StoreError (Option StoredWritebackIntent)}
    (written : withIntent ledger jobId callback = .ok ledger') {intentId : String} {i : StoredWritebackIntent}
    (found : ledger.get? intentId = some i)
    (stays : intentIdOf jobId = intentId → ∀ row, callback (some i) = .ok row → row = some i) :
    ledger'.get? intentId = some i := by
  obtain ⟨row, left, rest⟩ := bind_eq_ok written
  cases rest
  cases row with
  | none => exact found
  | some j =>
    simp only [writeIntent, KeyedMap.get?_set]
    split
    · rename_i same
      rw [← same, found] at left
      exact stays same.symm _ left
    · exact found

theorem completeRow_settled {intentId : String} {result : WritebackResult} {i : StoredWritebackIntent}
    {row : Option StoredWritebackIntent} (terminal : i.status.terminal = true)
    (completed : completeRow intentId result (some i) = .ok row) : row = some i := by
  obtain ⟨_, _, rest⟩ := bind_eq_ok completed
  split at rest
  · cases rest
    rfl
  · obtain ⟨_, stillOpen, _⟩ := bind_eq_ok rest
    exact absurd (ensure_ok_iff.mp stillOpen) (terminal_not_open terminal).2.1

theorem markRow_settled {intentId runnerId : String} {i : StoredWritebackIntent} {row : Option StoredWritebackIntent}
    (terminal : i.status.terminal = true) (marked : markRow intentId runnerId (some i) = .ok row) : row = some i := by
  obtain ⟨_, recorded, _⟩ := bind_eq_ok marked
  exact absurd (ensure_ok_iff.mp recorded) (terminal_not_open terminal).1

end PostgresIntents

theorem postgresIntentStore_finalizes (platform : Platform) : Finalizes (postgresIntentStore platform) where
  kept := by
    intro s call intentId i found settled quiet
    have found' : s.get? intentId = some i := found
    have notOpen := terminal_not_open settled.terminal
    show ((postgresIntentStore platform).perform s call).get? intentId = some i
    cases call with
    | claim job runnerId =>
      simp only [IntentStore.perform, postgresIntentStore]
      cases claimed : PostgresIntents.claimWritebackIntent s job runnerId with
      | error e => exact found'
      | ok answer =>
        obtain ⟨⟨d, row⟩, left, rest⟩ := bind_eq_ok claimed
        cases rest
        have written : PostgresIntents.withIntent s job.jobId (fun a =>
            (PostgresIntents.claimRow job runnerId a).map Prod.snd) =
              .ok (PostgresIntents.writeIntent s (intentIdOf job.jobId) row) := by
          simp only [PostgresIntents.withIntent, left]
          rfl
        refine PostgresIntents.get?_withIntent written found' ?_
        · intro same row' left'
          cases decided : claimExisting i job with
          | error e => simp [PostgresIntents.claimRow, decided, bind, Except.bind, Except.map] at left'
          | ok d' =>
            simp [PostgresIntents.claimRow, decided, bind, Except.bind, Except.map, pure, Except.pure] at left'
            exact left'.symm
    | markApplying id runnerId =>
      simp only [IntentStore.perform, postgresIntentStore]
      cases marked : PostgresIntents.markWritebackIntentApplying s id runnerId with
      | error e => exact found'
      | ok s' =>
        obtain ⟨jobId, _, written⟩ := bind_eq_ok marked
        exact PostgresIntents.get?_withIntent written found' fun _ row =>
          PostgresIntents.markRow_settled settled.terminal
    | complete id result =>
      simp only [IntentStore.perform, postgresIntentStore]
      cases completed : PostgresIntents.completeWritebackIntent platform s id result with
      | error e => exact found'
      | ok s' =>
        obtain ⟨parsed, accepted, rest⟩ := bind_eq_ok completed
        obtain ⟨jobId, _, written⟩ := bind_eq_ok rest
        exact PostgresIntents.get?_withIntent written found' fun _ row =>
          PostgresIntents.completeRow_settled settled.terminal
    | requireReconciliation id reason =>
      simp only [IntentStore.perform, postgresIntentStore]
      cases required : PostgresIntents.requireWritebackReconciliation s id reason with
      | error e => exact found'
      | ok s' =>
        obtain ⟨jobId, named, written⟩ := bind_eq_ok required
        refine PostgresIntents.get?_withIntent written found' fun same => ?_
        rw [PostgresIntents.intentIdOf_intentJobId named] at same
        exact absurd (by rw [same]) (quiet reason)
    | reconcile input =>
      simp only [IntentStore.perform, postgresIntentStore]
      cases reconciled : PostgresIntents.reconcileWritebackIntent platform s input with
      | error e => exact found'
      | ok s' =>
        obtain ⟨jobId, _, written⟩ := bind_eq_ok reconciled
        refine PostgresIntents.get?_withIntent written found' fun _ row left => ?_
        simp only at left
        cases reconciledRow : reconcileRow platform input i with
        | error e => rw [reconciledRow] at left; cases left
        | ok j => exact absurd (reconcileRow_ok reconciledRow).1 notOpen.2.2
  spared := by
    intro s reason intentId i found applied
    have found' : s.get? intentId = some i := found
    show ((postgresIntentStore platform).perform s (.requireReconciliation intentId reason)).get? intentId = some i
    simp only [IntentStore.perform, postgresIntentStore]
    cases required : PostgresIntents.requireWritebackReconciliation s intentId reason with
    | error e => exact found'
    | ok s' =>
      obtain ⟨jobId, named, written⟩ := bind_eq_ok required
      refine PostgresIntents.get?_withIntent written found' fun _ row left => ?_
      simp only [PostgresIntents.reconciliationRequiredRow, if_pos applied] at left
      cases left
      rfl
  reopened := by
    intro s reason jobId i named found unapplied
    have found' : s.get? (intentIdOf jobId) = some i := found
    have notApplied : ¬ (i.status = .applied ∨ i.status = .alreadyApplied) := by
      rcases unapplied with status | status <;> simp [status]
    refine ⟨slice500 reason, ?_⟩
    have demanded : PostgresIntents.requireWritebackReconciliation s (intentIdOf jobId) reason =
        .ok (s.set (intentIdOf jobId) (reconciliationRow (slice500 reason) i)) := by
      simp [PostgresIntents.requireWritebackReconciliation, PostgresIntents.intentJobId_intentIdOf named,
        PostgresIntents.withIntent, PostgresIntents.reconciliationRequiredRow, PostgresIntents.writeIntent, found',
        notApplied, bind, Except.bind, pure, Except.pure]
    simp only [IntentStore.perform, postgresIntentStore, demanded]
    show (s.set _ _).get? _ = _
    rw [KeyedMap.get?_set, if_pos rfl]

/-! ### Final outcomes -/

/-- In every run of either store from a state with a settled intent, its status
    and result stay as they are exactly when it is an applied one or no call of the
    run demands to reconcile it. -/
theorem settled_outcome_final_iff (platform : Platform) {jobId : String} (named : nonEmpty jobId = true)
    {i : StoredWritebackIntent} (settled : Settled i) (calls : List IntentCall) :
    (∀ s, (sqliteIntentStore platform).getWritebackIntent s (intentIdOf jobId) = some i →
      (OutcomeKept (sqliteIntentStore platform) s (intentIdOf jobId) i calls ↔
        (i.status = .applied ∨ i.status = .alreadyApplied) ∨ NeverReopened (intentIdOf jobId) calls)) ∧
    ∀ s, (postgresIntentStore platform).getWritebackIntent s (intentIdOf jobId) = some i →
      (OutcomeKept (postgresIntentStore platform) s (intentIdOf jobId) i calls ↔
        (i.status = .applied ∨ i.status = .alreadyApplied) ∨ NeverReopened (intentIdOf jobId) calls) :=
  ⟨fun _ found => (sqliteIntentStore_finalizes platform).outcomeKept_iff named found settled calls,
    fun _ found => (postgresIntentStore_finalizes platform).outcomeKept_iff named found settled calls⟩

/-! ### A conflict that another worker reopens -/

/-- The conflict that the first worker found. -/
def closeTicketConflict : WritebackResult :=
  .v1 { jobId := "wbj_prop_1", runnerId := "worker_1", status := .conflict, affectedRows := 0, resultHash := none
        completedAt := "2026-01-01T00:00:00.000Z", errorCode := some "VERSION_CONFLICT", intentId := none
        resultVersion := none }

/-- Both workers claim the job; the first one applies it and finds a conflict. -/
def firstWorkerSettles : List IntentCall :=
  [.claim (closeTicketJob 1) "worker_1", .claim (closeTicketJob 1) "worker_2",
    .markApplying "wbi:wbj_prop_1" "worker_1", .complete "wbi:wbj_prop_1" closeTicketConflict]

/-- The second worker cannot mark the intent any more and demands to reconcile it. -/
def secondWorkerReopens : List IntentCall :=
  [.markApplying "wbi:wbj_prop_1" "worker_2",
    .requireReconciliation "wbi:wbj_prop_1"
      "another worker crossed or may have crossed the source mutation boundary"]

def settledConflict : StoredWritebackIntent :=
  completedRow closeTicketConflict (applyingRow "worker_1" (recordedIntent (closeTicketJob 1) "worker_1"))

/-- In both stores the late demand of the second worker moves the settled conflict
    to `reconciliation_required`. -/
theorem late_demand_reopens_conflict :
    (let store := sqliteIntentStore constantPlatform
     let s := run store.perform (.ofProposals (.ofList [("prop_1", closeTicket)])) firstWorkerSettles
     store.getWritebackIntent s "wbi:wbj_prop_1" = some settledConflict ∧ Settled settledConflict ∧
       ¬ OutcomeKept store s "wbi:wbj_prop_1" settledConflict secondWorkerReopens) ∧
    (let store := postgresIntentStore constantPlatform
     let s := run store.perform .empty firstWorkerSettles
     store.getWritebackIntent s "wbi:wbj_prop_1" = some settledConflict ∧ Settled settledConflict ∧
       ¬ OutcomeKept store s "wbi:wbj_prop_1" settledConflict secondWorkerReopens) := by
  refine ⟨⟨by decide, ⟨rfl, rfl⟩, fun kept => ?_⟩, ⟨by decide, ⟨rfl, rfl⟩, fun kept => ?_⟩⟩
  · obtain ⟨j, row, status, _⟩ := kept secondWorkerReopens [] (List.append_nil _).symm
    have moved : ((sqliteIntentStore constantPlatform).getWritebackIntent
        (run (sqliteIntentStore constantPlatform).perform
          (run (sqliteIntentStore constantPlatform).perform (.ofProposals (.ofList [("prop_1", closeTicket)]))
            firstWorkerSettles) secondWorkerReopens) "wbi:wbj_prop_1").map (·.status) =
        some .reconciliationRequired := by decide
    rw [row, Option.map_some, status] at moved
    cases moved
  · obtain ⟨j, row, status, _⟩ := kept secondWorkerReopens [] (List.append_nil _).symm
    have moved : ((postgresIntentStore constantPlatform).getWritebackIntent
        (run (postgresIntentStore constantPlatform).perform
          (run (postgresIntentStore constantPlatform).perform .empty firstWorkerSettles) secondWorkerReopens)
        "wbi:wbj_prop_1").map (·.status) = some .reconciliationRequired := by decide
    rw [row, Option.map_some, status] at moved
    cases moved

/-- Without the second worker the conflict stays. -/
theorem settled_conflict_stays :
    OutcomeKept (postgresIntentStore constantPlatform)
      (run (postgresIntentStore constantPlatform).perform .empty firstWorkerSettles) "wbi:wbj_prop_1" settledConflict
      [.claim (closeTicketJob 1) "worker_3"] := by
  refine ((settled_outcome_final_iff constantPlatform (show nonEmpty "wbj_prop_1" = true by decide) ⟨rfl, rfl⟩ _).2 _
    (by decide)).mpr (.inr ?_)
  simp [NeverReopened]

end SynapsorRunner.Intents
