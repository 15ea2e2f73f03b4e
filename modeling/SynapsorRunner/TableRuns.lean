import SynapsorRunner.AllOrNothing

/-!
Whole runs of the Postgres adapter on the table of their job. A transaction works on
a copy: BEGIN takes it from what is committed, COMMIT puts it there, ROLLBACK leaves
it, and after a COMMIT that throws it may be there or not. A run commits the reviewed
changes of its job or nothing; it commits them when it reports them as applied, and
nothing when it reports a conflict or that an earlier run has applied them
(`applyJob_exactly`).
-/
namespace SynapsorRunner.TableRuns
open SynapsorRunner.Protocol SynapsorRunner.Proposals SynapsorRunner.Adapters SynapsorRunner.Intents
open SynapsorRunner.Programs SynapsorRunner.Programs.Program SynapsorRunner.Tables SynapsorRunner.AllOrNothing

/-! ### Transactions on a table -/

/-- The target table of a job: as it is committed, and as the transaction has it. -/
structure Contents where
  committed : Table
  working : Table

/-- One call of an adapter, with its answer. Nobody else writes the table during it. -/
def SourceStep (job : WritebackJob) : Contents → Answered SourceCall Answer AdapterError → Contents → Prop
  | s, ⟨.begin, _⟩, s' => s' = ⟨s.committed, s.committed⟩
  | s, ⟨.commit, .ok _⟩, s' => s' = ⟨s.working, s.working⟩
  | s, ⟨.commit, .error _⟩, s' => s' = ⟨s.committed, s.committed⟩ ∨ s' = ⟨s.working, s.working⟩
  | s, ⟨.rollback, _⟩, s' => s' = ⟨s.committed, s.committed⟩
  | s, c, s' => TableStep job.target (generatedColumn job) s.working c s'.working ∧ s'.committed = s.committed

/-- A call with no effect on a table. -/
def Outside : SourceCall → Prop
  | .mutate .. | .begin | .commit | .rollback => False
  | _ => True

theorem SourceStep.outside {job : WritebackJob} {s s' : Contents} {c : Answered SourceCall Answer AdapterError}
    (stepped : SourceStep job s c s') (outside : Outside c.query) : s' = s := by
  have kept : s'.working = s.working ∧ s'.committed = s.committed := by
    obtain ⟨query, answer⟩ := c
    cases query <;> first
      | exact outside.elim
      | (cases answer with
        | error e => exact stepped
        | ok a => first | exact stepped | exact ⟨stepped.1.1, stepped.2⟩)
  obtain ⟨committed, working⟩ := s
  obtain ⟨committed', working'⟩ := s'
  simp only at kept
  rw [kept.1, kept.2]

theorem SourceStep.serves {job : WritebackJob} {s s' : Contents} {c : Answered SourceCall Answer AdapterError}
    (stepped : SourceStep job s c s') (serves : c.query.Serves .postgres job) :
    TableStep job.target (generatedColumn job) s.working c s'.working ∧ s'.committed = s.committed := by
  obtain ⟨query, answer⟩ := c
  rcases serves with reads | ⟨statement, -, returning, same⟩
  · cases query <;> first
      | exact reads.elim
      | exact stepped
  · cases same
    exact stepped

/-- What a run has made of a table, by its status. -/
def Made (rt : SourceRuntime) (job : WritebackJob) (table : Table) (status : WritebackStatus) (table' : Table) : Prop :=
  status = .applied ∧ Applied rt job table table' ∨ status ≠ .applied ∧ table' = table

/-- The table is as before, or as the job was to make it. -/
def Whole (rt : SourceRuntime) (job : WritebackJob) (table table' : Table) : Prop :=
  table' = table ∨ Applied rt job table table'

/-- What is committed is the table as before, or as the job was to make it. -/
def Atomic (rt : SourceRuntime) (job : WritebackJob) (table : Table) (s : Contents) : Prop := Whole rt job table s.committed

theorem SourceStep.keyed {job : WritebackJob} {s s' : Contents} {c : Answered SourceCall Answer AdapterError}
    (stepped : SourceStep job s c s') (committed : Keyed job.target s.committed) (working : Keyed job.target s.working) :
    Keyed job.target s'.committed ∧ Keyed job.target s'.working := by
  by_cases outside : Outside c.query
  · obtain rfl := stepped.outside outside
    exact ⟨committed, working⟩
  obtain ⟨query, answer⟩ := c
  cases query <;> first
    | exact absurd trivial outside
    | skip
  · obtain rfl := stepped
    exact ⟨committed, committed⟩
  · cases answer with
    | error e =>
      obtain ⟨kept, same⟩ := stepped
      rw [kept, same]
      exact ⟨committed, working⟩
    | ok affected =>
      obtain ⟨⟨-, keyed, -⟩, same⟩ := stepped
      rw [same]
      exact ⟨committed, keyed⟩
  · cases answer with
    | error e =>
      rcases stepped with rfl | rfl
      · exact ⟨committed, committed⟩
      · exact ⟨working, working⟩
    | ok a =>
      obtain rfl := stepped
      exact ⟨working, working⟩
  · obtain rfl := stepped
    exact ⟨committed, committed⟩

section
variable {rt : SourceRuntime} {config : RunnerConfig} {job : WritebackJob} {table : Table} {α : Type}
  {E : AdapterError → Contents → Prop}

theorem Made.whole {status : WritebackStatus} {table' : Table} (made : Made rt job table status table') :
    Whole rt job table table' := by
  rcases made with ⟨-, applied⟩ | ⟨-, same⟩
  · exact .inr applied
  · exact .inl same

theorem endsIn_outside {p : Adapter α} (calls : p.Calls Outside) {R : α → Contents → Prop} {s : Contents}
    (here : Atomic rt job table s) (returns : ∀ a, R a s) (throws : ∀ e, E e s) :
    p.EndsIn (SourceStep job) (Atomic rt job table) R E s :=
  calls.endsIn_keeps (fun _ _ _ outside stepped => SourceStep.outside stepped outside) here returns throws

theorem endsIn_send (q : SourceCall) (outside : Outside q) {R : Answer q → Contents → Prop} {s : Contents}
    (here : Atomic rt job table s) (returns : ∀ a, R a s) (throws : ∀ e, E e s) :
    (send q).EndsIn (SourceStep job) (Atomic rt job table) R E s :=
  endsIn_outside (calls_ask outside) here returns throws

theorem endsIn_required {x : Except String α} {R : α → Contents → Prop} {s : Contents}
    (returns : ∀ a, x = .ok a → R a s) (throws : ∀ e, E e s) :
    (required x).EndsIn (SourceStep job) (Atomic rt job table) R E s := by
  refine endsIn_lift ?_ fun e _ => throws e
  intro a built
  cases x with
  | error message => cases built
  | ok b =>
    cases built
    exact returns a rfl

/-! ### The transaction -/

theorem endsIn_mutate (keyed : Keyed job.target table) :
    (mutate rt .postgres job).EndsIn (SourceStep job) (Atomic rt job table)
      (fun outcome s => Made rt job table outcome.status s.working ∧ s.committed = table) (fun _ s => s.committed = table)
      ⟨table, table⟩ := by
  refine EndsIn.mono ((calls_mutate rt .postgres job).endsIn_part Contents.working Contents.committed
    (fun s c s' serves stepped => stepped.serves serves) (fun _ kept => .inl kept) (returnsIn_mutate keyed)) ?_
    fun _ _ kept => kept
  rintro outcome s ⟨made, kept⟩
  refine ⟨?_, kept⟩
  rcases made with applied | ⟨refused, same⟩
  · exact .inl applied
  · refine .inr ⟨?_, same⟩
    rintro succeeded
    rcases refused with conflict | failed
    · exact absurd (conflict.symm.trans succeeded) (by decide)
    · exact absurd (failed.symm.trans succeeded) (by decide)

theorem prepares_outside {q : SourceCall} (prepares : CommitOutcomes.Prepares q) : Outside q := by
  cases q <;> first | exact prepares.elim | trivial

theorem calls_hook (hooked : Bool) (name : String) : (hook hooked name).Calls Outside := by
  unfold hook
  split
  · exact calls_ask trivial
  · exact calls_pure _

/-- After an error nothing is committed, or the outcome of COMMIT is unknown. -/
def Stopped (R : α → Table → Prop) (table : Table) (e : AdapterError) (s : Contents) : Prop :=
  s.committed = table ∨ e = .sourceOutcomeUnknown ∧ ∃ a, R a s.committed

theorem endsIn_commitSource {R : α → Table → Prop} {a : α} {s : Contents} (made : R a s.working)
    (kept : s.committed = table) (within : ∀ t, R a t → Whole rt job table t) :
    commitSource.EndsIn (SourceStep job) (Atomic rt job table) (fun _ s' => R a s'.committed) (Stopped R table) s := by
  unfold commitSource send
  rw [endsIn_tryCatch, endsIn_ask]
  refine ⟨?_, ?_⟩
  · rintro _ s' rfl
    exact ⟨within _ made, made⟩
  · rintro _ s' (rfl | rfl)
    · exact ⟨.inl kept, .inl kept⟩
    · exact ⟨within _ made, .inr ⟨rfl, a, made⟩⟩

theorem endsIn_rollbackSource {R : α → Table → Prop} {e : AdapterError} {s : Contents} (stopped : Stopped R table e s)
    {R' : α → Contents → Prop} :
    (rollbackSource .postgres e : Adapter α).EndsIn (SourceStep job) (Atomic rt job table) R' (Stopped R table) s := by
  unfold rollbackSource
  split
  · rename_i rolls
    have kept : s.committed = table := by
      refine stopped.resolve_right ?_
      rintro ⟨rfl, -⟩
      cases rolls
    rw [endsIn_bind, endsIn_tryCatch]
    refine (endsIn_ask _).mpr ⟨?_, ?_⟩
    · rintro _ s' rfl
      exact ⟨.inl kept, .inl kept⟩
    · rintro _ s' rfl
      exact ⟨.inl kept, .inl kept⟩
  · exact stopped

/-- A transaction commits what its function has made, or nothing. -/
theorem endsIn_sourceTransaction {fn : Adapter α} {hooked : Bool} {R : α → Table → Prop}
    (body : fn.EndsIn (SourceStep job) (Atomic rt job table) (fun a s => R a s.working ∧ s.committed = table)
      (fun _ s => s.committed = table) ⟨table, table⟩) (within : ∀ a t, R a t → Whole rt job table t) {s : Contents}
    (start : s.committed = table) :
    (sourceTransaction rt .postgres config job hooked fn).EndsIn (SourceStep job) (Atomic rt job table)
      (fun a s' => R a s'.committed) (Stopped R table) s := by
  have inside : (transactionBody rt .postgres config job hooked fn).EndsIn (SourceStep job) (Atomic rt job table)
      (fun a s' => R a s'.committed) (Stopped R table) ⟨table, table⟩ := by
    unfold transactionBody
    simp only [endsIn_bind, endsIn_pure]
    have start : Atomic rt job table ⟨table, table⟩ := .inl rfl
    refine endsIn_outside (CommitOutcomes.calls_prepareTransaction.mono fun _ => prepares_outside) start (fun _ => ?_)
      fun _ => .inl rfl
    refine endsIn_outside (calls_hook _ _) start (fun _ => ?_) fun _ => .inl rfl
    refine EndsIn.mono body ?_ fun _ _ kept => .inl kept
    rintro a s' ⟨made, kept⟩
    have here : Atomic rt job table s' := .inl kept
    refine endsIn_outside (calls_hook _ _) here (fun _ => ?_) fun _ => .inl kept
    refine endsIn_outside (calls_hook _ _) here (fun _ => ?_) fun _ => .inl kept
    exact endsIn_commitSource made kept (within a)
  unfold sourceTransaction
  rw [if_neg (by decide)]
  refine (endsIn_bind _ _).mpr ((endsIn_ask _).mpr ⟨?_, ?_⟩)
  · rintro _ s' rfl
    rw [start]
    refine ⟨.inl rfl, (endsIn_tryCatch _ _).mpr (inside.mono (fun _ _ made => made) ?_)⟩
    exact fun e s' stopped => endsIn_rollbackSource stopped
  · rintro _ s' rfl
    exact ⟨.inl start, .inl start⟩

/-! ### Results -/

/-- What a result says of the table that its run has left. -/
structure Reported (rt : SourceRuntime) (job : WritebackJob) (table : Table) (status : WritebackStatus) (table' : Table) :
    Prop where
  whole : Whole rt job table table'
  applied : status = .applied → Applied rt job table table'
  unchanged : status = .conflict ∨ status = .alreadyApplied → table' = table

/-- The program ends with a result that tells of the table, and the table is whole
    throughout. -/
abbrev Tells (rt : SourceRuntime) (job : WritebackJob) (table : Table) (p : Adapter WritebackResult) (s : Contents) : Prop :=
  p.EndsIn (SourceStep job) (Atomic rt job table) (fun result s' => Reported rt job table result.status s'.committed)
    (fun _ s' => Whole rt job table s'.committed) s

theorem Made.reported {status : WritebackStatus} {table' : Table} (made : Made rt job table status table') :
    Reported rt job table status table' := by
  refine ⟨made.whole, fun succeeded => ?_, fun quiet => ?_⟩
  · rcases made with ⟨-, applied⟩ | ⟨other, -⟩
    · exact applied
    · exact absurd succeeded other
  · rcases made with ⟨succeeded, -⟩ | ⟨-, same⟩
    · rcases quiet with conflict | again
      · exact absurd (conflict.symm.trans succeeded) (by decide)
      · exact absurd (again.symm.trans succeeded) (by decide)
    · exact same

theorem Whole.reported {status : WritebackStatus} {table' : Table} (whole : Whole rt job table table')
    (open_ : status = .failed ∨ status = .reconciliationRequired) : Reported rt job table status table' := by
  refine ⟨whole, fun succeeded => ?_, fun quiet => ?_⟩
  · rcases open_ with failed | unsure
    · exact absurd (failed.symm.trans succeeded) (by decide)
    · exact absurd (unsure.symm.trans succeeded) (by decide)
  · rcases open_ with failed | unsure <;> rcases quiet with conflict | again
    · exact absurd (failed.symm.trans conflict) (by decide)
    · exact absurd (failed.symm.trans again) (by decide)
    · exact absurd (unsure.symm.trans conflict) (by decide)
    · exact absurd (unsure.symm.trans again) (by decide)

theorem reported_unchanged {status : WritebackStatus} (other : status ≠ .applied) : Reported rt job table status table :=
  Made.reported (.inr ⟨other, rfl⟩)

theorem Stopped.whole {R : α → Table → Prop} {e : AdapterError} {s : Contents} (stopped : Stopped R table e s)
    (within : ∀ a t, R a t → Whole rt job table t) : Whole rt job table s.committed := by
  rcases stopped with same | ⟨-, a, made⟩
  · exact .inl same
  · exact within a _ made

/-! ### Receipts in the source -/

theorem status_existingReceipt {status : String} {hash : Option Digest} {result : WritebackResult}
    (built : resultFromExistingReceipt rt .postgres config job status hash = .ok result) : result.status ≠ .applied := by
  unfold resultFromExistingReceipt at built
  simp only at built
  split at built
  · rw [status_resultFromOutcome built]
    exact fun same => by cases same
  split at built
  · rw [status_resultFromOutcome built]
    exact fun same => by cases same
  split at built
  all_goals
    cases built
    rw [status_failedResult]
    exact fun same => by cases same

theorem endsIn_claimSourceReceipt {s : Contents} (here : Atomic rt job table s) (kept : ∀ e, E e s) :
    (claimSourceReceipt rt .postgres config job).EndsIn (SourceStep job) (Atomic rt job table)
      (fun existing s' => (∀ result ∈ existing, result.status ≠ .applied) ∧ s' = s) E s := by
  unfold claimSourceReceipt
  rw [endsIn_bind]
  refine endsIn_send (.claimReceipt _ _ _) trivial here (fun claimed => ?_) kept
  split
  · exact ⟨fun _ absent => (nomatch absent), rfl⟩
  · rw [endsIn_bind]
    refine endsIn_send (.readReceipt _) trivial here (fun receipt => ?_) kept
    cases receipt with
    | none =>
      refine ⟨?_, rfl⟩
      rintro result ⟨⟩ applied
      rw [status_failedResult] at applied
      cases applied
    | some row =>
      simp only [endsIn_bind, endsIn_pure]
      refine endsIn_required (fun result built => ⟨?_, rfl⟩) kept
      rintro _ ⟨⟩
      exact status_existingReceipt built

theorem endsIn_applyOnce (keyed : Keyed job.target table) :
    (applyOnce rt .postgres config job).EndsIn (SourceStep job) (Atomic rt job table)
      (fun result s => Made rt job table result.status s.working ∧ s.committed = table) (fun _ s => s.committed = table)
      ⟨table, table⟩ := by
  unfold applyOnce
  rw [endsIn_bind]
  refine endsIn_claimSourceReceipt (E := fun _ s => s.committed = table) (.inl rfl) (fun _ => rfl) |>.mono ?_
    fun _ _ kept => kept
  rintro existing s ⟨other, rfl⟩
  cases existing with
  | some result => exact ⟨.inr ⟨other result rfl, rfl⟩, rfl⟩
  | none =>
    simp only [mutateAndRecord, recordSourceReceipt, endsIn_bind, endsIn_pure]
    refine EndsIn.mono (endsIn_mutate keyed) ?_ fun _ _ kept => kept
    rintro outcome s' ⟨made, kept⟩
    refine endsIn_required (fun result built => ?_) fun _ => kept
    refine endsIn_send (.recordReceipt _ _ _) trivial (.inl kept) (fun updated => ?_) fun _ => kept
    refine endsIn_required (fun _ _ => ⟨?_, kept⟩) fun _ => kept
    rw [status_resultFromOutcome built]
    exact made

theorem endsIn_applyWithSourceReceipt (keyed : Keyed job.target table) {s : Contents} (start : s.committed = table) :
    Tells rt job table (applyWithSourceReceipt rt .postgres config job) s := by
  have transaction : Tells rt job table
      (tryCatch (sourceTransaction rt .postgres config job false (applyOnce rt .postgres config job)) fun e =>
        if e = .sourceOutcomeUnknown then
          pure (reconciliationResult rt .postgres config job (sourceReconciliationIntentId rt .postgres job) "OUTCOME_UNKNOWN")
        else throw e) s := by
    refine (endsIn_tryCatch _ _).mpr ?_
    refine EndsIn.mono (endsIn_sourceTransaction (endsIn_applyOnce keyed) (fun _ _ made => Made.whole made) start)
      (fun _ _ made => Made.reported made) ?_
    intro e s' stopped
    have whole := stopped.whole fun _ _ made => Made.whole made
    split
    · exact whole.reported (.inr (status_reconciliationResult ..))
    · exact whole
  unfold applyWithSourceReceipt
  split
  · refine (endsIn_bind _ _).mpr ?_
    exact endsIn_send .migrateReceipts trivial (.inl start) (fun _ => transaction) fun _ => .inl start
  · exact transaction

/-! ### Receipts in the ledger of the runner -/

theorem endsIn_reconcileIntent (intentId reason : String) {s : Contents} (whole : Whole rt job table s.committed) :
    Tells rt job table (reconcileIntent rt .postgres config job intentId reason) s := by
  unfold reconcileIntent
  refine (endsIn_bind _ _).mpr ?_
  refine endsIn_send (.requireReconciliation _ _) trivial whole (fun _ => ?_) fun _ => whole
  exact whole.reported (.inr (status_reconciliationResult ..))

/-- What a run with an intent has come to before the intent is completed. -/
def Ended (rt : SourceRuntime) (job : WritebackJob) (table : Table) : WritebackResult ⊕ WritebackResult → Table → Prop
  | .inl result, table' => Made rt job table result.status table'
  | .inr result, table' => Reported rt job table result.status table'

theorem endsIn_mutateWithIntent (keyed : Keyed job.target table) (intentId : String) {s : Contents}
    (start : s.committed = table) :
    (mutateWithIntent rt .postgres config job intentId).EndsIn (SourceStep job) (Atomic rt job table)
      (fun ended s' => Ended rt job table ended s'.committed) (fun _ s' => Whole rt job table s'.committed) s := by
  unfold mutateWithIntent
  simp only [endsIn_tryCatch, endsIn_bind, endsIn_pure]
  have handled : ∀ (e : AdapterError) (s' : Contents), Whole rt job table s'.committed →
      (if e = .sourceOutcomeUnknown then do
          let result ← reconcileIntent rt .postgres config job intentId "database COMMIT acknowledgement was not observed"
          pure (.inr result)
        else do
          let result := failedResult rt .postgres config job (safeErrorCode .postgres job.operation e)
          send (.completeIntent intentId result)
          pure (.inr result) : Adapter (WritebackResult ⊕ WritebackResult)).EndsIn (SourceStep job) (Atomic rt job table)
        (fun ended s' => Ended rt job table ended s'.committed) (fun _ s' => Whole rt job table s'.committed) s' := by
    intro e s' whole
    split
    · rw [endsIn_bind]
      exact endsIn_reconcileIntent _ _ whole
    · rw [endsIn_bind]
      refine endsIn_send (.completeIntent _ _) trivial whole (fun _ => ?_) fun _ => whole
      exact whole.reported (.inl (status_failedResult ..))
  refine EndsIn.mono (endsIn_sourceTransaction (endsIn_mutate keyed) (fun _ _ made => Made.whole made) start) ?_ ?_
  · intro outcome s' made
    refine endsIn_required (fun result built => ?_) fun e => handled e s' made.whole
    show Made rt job table result.status s'.committed
    rw [status_resultFromOutcome built]
    exact made
  · intro e s' stopped
    exact handled e s' (stopped.whole fun _ _ made => Made.whole made)

theorem endsIn_completeWithIntent (intentId : String) {result : WritebackResult} {s : Contents}
    (made : Made rt job table result.status s.committed) :
    Tells rt job table (completeWithIntent rt .postgres config job intentId result) s := by
  unfold completeWithIntent
  simp only [endsIn_bind, endsIn_tryCatch, endsIn_pure]
  refine endsIn_send (.failpoint _) trivial made.whole (fun _ => ?_) fun _ => endsIn_reconcileIntent _ _ made.whole
  refine (endsIn_bind _ _).mpr (endsIn_send (.completeIntent _ _) trivial made.whole (fun _ => ?_) fun _ => made.whole)
  refine (endsIn_bind _ _).mpr (endsIn_send (.failpoint _) trivial made.whole (fun _ => ?_) fun _ => made.whole)
  exact made.reported

theorem endsIn_applyIntent (keyed : Keyed job.target table) (intentId : String) {s : Contents} (start : s.committed = table) :
    Tells rt job table (applyIntent rt .postgres config job intentId) s := by
  have same : Whole rt job table s.committed := .inl start
  unfold applyIntent
  simp only [endsIn_bind, endsIn_tryCatch, endsIn_pure]
  refine endsIn_send (.failpoint _) trivial same (fun _ => ?_) fun _ => same
  refine endsIn_send (.markIntentApplying _ _) trivial same (fun _ => ?_) fun _ => endsIn_reconcileIntent _ _ same
  refine (endsIn_bind _ _).mpr (endsIn_send (.failpoint _) trivial same (fun _ => ?_) fun _ => same)
  refine (endsIn_bind _ _).mpr ((endsIn_mutateWithIntent keyed intentId start).mono ?_ fun _ _ whole => whole)
  intro ended s' reached
  cases ended with
  | inl result => exact endsIn_completeWithIntent intentId reached
  | inr result => exact reached

theorem status_asAlreadyApplied {found result : WritebackResult}
    (built : asAlreadyApplied rt .postgres config job found = .ok result) : result.status ≠ .applied := by
  unfold asAlreadyApplied at built
  split at built
  · rw [status_resultFromOutcome built]
    exact fun same => by cases same
  · rename_i unsuccessful
    cases built
    intro applied
    rw [applied] at unsuccessful
    exact unsuccessful rfl

theorem endsIn_applyWithRunnerLedger (keyed : Keyed job.target table) {s : Contents} (start : s.committed = table) :
    Tells rt job table (applyWithRunnerLedger rt .postgres config job) s := by
  have same : Whole rt job table s.committed := .inl start
  unfold applyWithRunnerLedger
  split
  · exact same.reported (.inl (status_failedResult ..))
  · refine (endsIn_bind _ _).mpr ?_
    refine endsIn_send (.claimIntent _ _) trivial same (fun claim => ?_) fun _ => same
    cases claim with
    | existingResult intentId found =>
      refine endsIn_required (fun result built => ?_) fun _ => same
      rw [start]
      exact reported_unchanged (status_asAlreadyApplied built)
    | reconciliationRequired intentId reason => exact same.reported (.inr (status_reconciliationResult ..))
    | proceed intentId => exact endsIn_applyIntent keyed intentId start

theorem endsIn_applyJob (live : config.dryRun = false) (keyed : Keyed job.target table) :
    Tells rt job table (applyJob rt .postgres config job) ⟨table, table⟩ := by
  have same : Whole rt job table table := .inl rfl
  unfold applyJob
  simp only [live, Bool.false_eq_true, ↓reduceIte]
  split
  · exact same.reported (.inl (status_failedResult ..))
  · refine (endsIn_tryCatch _ _).mpr ((endsIn_bind _ _).mpr ?_)
    have failed : ∀ (e : AdapterError) (s : Contents), Whole rt job table s.committed →
        Reported rt job table (failedResult rt .postgres config job (safeErrorCode .postgres job.operation e)).status
          s.committed := fun e s whole => whole.reported (.inl (status_failedResult ..))
    refine endsIn_send .connect trivial same (fun _ => ?_) fun e => failed e _ same
    unfold applyConnected
    rw [endsIn_bind]
    refine endsIn_required (fun _ _ => ?_) fun e => failed e _ same
    split
    · exact (endsIn_applyWithRunnerLedger keyed rfl).mono (fun _ _ reported => reported) failed
    · exact (endsIn_applyWithSourceReceipt keyed rfl).mono (fun _ _ reported => reported) failed

end

/-- What is committed stays whole and keyed wherever a run stops. -/
theorem stopped_whole {rt : SourceRuntime} {config : RunnerConfig} {job : WritebackJob} (live : config.dryRun = false)
    {table : Table} (keyed : Keyed job.target table) {s : Contents}
    (stops : (applyJob rt .postgres config job).StopsIn (SourceStep job) ⟨table, table⟩ s) :
    Whole rt job table s.committed ∧ Keyed job.target s.committed := by
  refine ⟨(endsIn_applyJob live keyed).of_stop (.inl rfl) stops, ?_⟩
  have both := stops.keeps (J := fun s => Keyed job.target s.committed ∧ Keyed job.target s.working) ?_ ⟨keyed, keyed⟩
  · exact both.1
  · rintro s c s' stepped ⟨committed, working⟩
    exact stepped.keyed committed working

/-! ### A ticket that is closed -/

/-- Ticket 7 of tenant `acme`, at a version. -/
def ticketRow (status : String) : TableRow := fun column =>
  if column = "id" then .str "7"
  else if column = "tenant_id" then .str "acme"
  else if column = "status" then .str status
  else if column = "version" then .num 3
  else .null

def ticketTable (status : String) : Table := fun place => if place = 0 then some (ticketRow status) else none

theorem ticketTable_some {status : String} {place : Nat} {row : TableRow} (found : ticketTable status place = some row) :
    place = 0 ∧ row = ticketRow status := by
  unfold ticketTable at found
  split at found
  · cases found
    exact ⟨‹_›, rfl⟩
  · cases found

theorem ticketTable_keyed (status : String) (target : JobTarget) : Keyed target (ticketTable status) :=
  fun _ _ _ _ found found' _ _ => (ticketTable_some found).1.trans (ticketTable_some found').1.symm

theorem ticketTable_places (status : String) {p : TableRow → Prop} (has : p (ticketRow status)) :
    PlacesOf p (ticketTable status) [0] := by
  refine ⟨by simp, fun place => ?_⟩
  constructor
  · intro first
    obtain rfl := List.mem_singleton.mp first
    exact ⟨ticketRow status, rfl, has⟩
  · rintro ⟨row, found, -⟩
    exact List.mem_singleton.mpr (ticketTable_some found).1

def closing : Adapter WritebackResult :=
  applyJob CommitOutcomes.matchingRuntime .postgres SourceReceipts.sourceRunner (SourceReceipts.closeTicket "7" "prop_1")

def closingRun : List (Answered SourceCall Answer AdapterError) × Except AdapterError WritebackResult :=
  closing.against (SourceReceipts.sourceWith none)


/-- The statement that closes the ticket. -/
def closingStatement : Statement :=
  .update ⟨"public", "tickets"⟩ [.value "status" (.str "closed")]
    [.equals "id" (.str "7"), .equals "tenant_id" (.str "acme"), .equals "version" (.num 3)]

def closingSelect : Select :=
  { table := ⟨"public", "tickets"⟩, columns := [("id", "__synapsor_primary_key"), ("version", "__synapsor_conflict_value")]
    conditions := [.equals "id" (.str "7"), .equals "tenant_id" (.str "acme")], identities := none, forUpdate := true }

theorem closingRun_trace : closingRun.1 =
    [⟨.connect, .ok ()⟩, ⟨.begin, .ok ()⟩, ⟨.claimReceipt "close-ticket" "wbj_7" "prop_1", .ok 1⟩,
      ⟨.select closingSelect, .ok [.empty]⟩, ⟨.mutate closingStatement none, .ok ⟨1, none⟩⟩,
      ⟨.recordReceipt "close-ticket" "applied" ⟨"00"⟩, .ok 1⟩, ⟨.commit, .ok ()⟩] := rfl

theorem closing_meets : Matches [.equals "id" (.str "7"), .equals "tenant_id" (.str "acme"), .equals "version" (.num 3)]
    (ticketRow "open") := by decide

theorem closing_assigns (column : Column) :
    ticketRow "closed" column = assign [.value "status" (.str "closed")] (ticketRow "open") column := by
  simp only [ticketRow, assign, Assignment.column, List.find?_cons, List.find?_nil]
  by_cases status : column = "status"
  · subst status
    simp [newValue]
  · have other : ¬ "status" = column := fun same => status same.symm
    simp [status, other]

theorem closing_effect : Effect (generatedColumn (SourceReceipts.closeTicket "7" "prop_1")) closingStatement
    (ticketTable "open") (ticketTable "closed") := by
  intro place
  by_cases first : place = 0
  · subst first
    show UpdatedAt _ _ _ (some (ticketRow "open")) (some (ticketRow "closed"))
    simp only [UpdatedAt, closing_meets, ↓reduceIte]
    exact ⟨_, rfl, by decide, fun column _ => closing_assigns column⟩
  · simp only [ticketTable, first, ↓reduceIte]
    rfl

theorem closing_answers : Answers closingSelect (ticketTable "open") [.empty] := by
  have meets : Selected closingSelect (ticketRow "open") := ⟨by decide, fun _ absent => nomatch absent⟩
  have shown : Shows closingSelect (ticketRow "open") .empty := by
    intro c listed own
    simp only [closingSelect, List.mem_cons, List.not_mem_nil, or_false] at listed
    rcases listed with rfl | rfl <;> exact absurd own (by decide)
  exact ⟨[0], [0], ticketTable_places "open" meets, List.prefix_rfl, fun _ => by simp, fun _ => rfl,
    .cons ⟨ticketRow "open", rfl, shown⟩ .nil⟩

/-- The run closes the ticket, and commits that. -/
theorem closing_runs : closing.RunsIn (SourceStep (SourceReceipts.closeTicket "7" "prop_1"))
    ⟨ticketTable "open", ticketTable "open"⟩ closingRun.1 closingRun.2 ⟨ticketTable "closed", ticketTable "closed"⟩ := by
  refine runsIn_iff.mpr ⟨run_against _ _, ?_⟩
  rw [closingRun_trace]
  have counted : Counts closingStatement (ticketTable "open") 1 := ⟨[0], ticketTable_places "open" closing_meets, rfl⟩
  refine ⟨_, ⟨rfl, rfl⟩, _, rfl, _, ⟨rfl, rfl⟩, _, ⟨⟨rfl, fun _ => closing_answers⟩, rfl⟩,
    ⟨ticketTable "open", ticketTable "closed"⟩, ⟨⟨closing_effect, ticketTable_keyed _ _, counted⟩, rfl⟩, _, ⟨rfl, rfl⟩, _, rfl, rfl⟩

end SynapsorRunner.TableRuns
