import SynapsorRunner.ReportableResults

/-!
What a run of a source adapter reports of a change that it has committed. A monitor of the
calls of a run notes when a statement has changed rows, when COMMIT was sent after it, and
whether a call after that throws.

A change that was committed, or whose COMMIT may have gone through, is reported as applied
or left to a reconciliation exactly when the later calls of the run are answered
(`committed_reported_iff`): the intent store is called outside of the `try` of the
transaction, and what it throws there makes the whole run a failure.
-/
namespace SynapsorRunner.CommitOutcomes
open SynapsorRunner.Protocol SynapsorRunner.Proposals SynapsorRunner.Adapters SynapsorRunner.Intents
open SynapsorRunner.Programs SynapsorRunner.Programs.Program

abbrev SourceCallRun := Answered SourceCall Answer AdapterError

/-! ### The effect of a run -/

/-- A statement on the target that changed rows. -/
def changesRows : SourceCallRun → Bool
  | ⟨.mutate _ _, .ok affected⟩ => decide (affected.count ≠ 0)
  | _ => false

def isCommit : SourceCall → Bool
  | .commit => true
  | _ => false

/-- A call that throws, but for the failpoint whose error the adapters catch. -/
def throwsOn : SourceCallRun → Bool
  | ⟨.failpoint name, .error _⟩ => decide (name ≠ "after_source_commit")
  | ⟨_, .error _⟩ => true
  | ⟨_, .ok _⟩ => false

/-- COMMIT was sent after a statement that changed rows. Whether it was answered or not,
    the change may be there. -/
def CommitsChange (trace : SourceTrace) : Prop :=
  ∃ earlier answer later, trace = earlier ++ ⟨.commit, answer⟩ :: later ∧ earlier.any changesRows = true

/-- No call throws after such a COMMIT. -/
def LaterCallsAnswer (trace : SourceTrace) : Prop :=
  ∀ earlier answer later, trace = earlier ++ ⟨.commit, answer⟩ :: later → earlier.any changesRows = true →
    later.any throwsOn = false

/-- A status that a change may have. -/
def ReportsChange (status : WritebackStatus) : Prop :=
  status = .applied ∨ status = .alreadyApplied ∨ status = .reconciliationRequired

/-- A committed change is reported, and a failure or a conflict committed none. -/
def TellsOfChange (trace : SourceTrace) (result : WritebackResult) : Prop :=
  (CommitsChange trace → ReportsChange result.status) ∧
    (result.status = .failed ∨ result.status = .conflict → ¬ CommitsChange trace)

/-! ### The monitor -/

/-- What has become of the changes of a run so far. -/
inductive Effect where
  | none
  | uncommitted
  | settled (threw : Bool)
  deriving DecidableEq

def note : Effect → SourceCallRun → Effect
  | .none, c => if changesRows c then .uncommitted else .none
  | .uncommitted, c => if isCommit c.query then .settled false else .uncommitted
  | .settled threw, c => .settled (threw || throwsOn c)

def effectOf (trace : SourceTrace) : Effect := trace.foldl note .none

theorem isCommit_iff {q : SourceCall} : isCommit q = true ↔ q = .commit := by
  cases q <;> simp [isCommit]

theorem foldl_settled (threw : Bool) (later : SourceTrace) :
    later.foldl note (.settled threw) = .settled (threw || later.any throwsOn) := by
  induction later generalizing threw with
  | nil => simp
  | cons c rest ih => rw [List.foldl_cons, note, ih, List.any_cons, Bool.or_assoc]

theorem foldl_changed {e : Effect} {trace : SourceTrace} (changed : e ≠ .none ∨ trace.any changesRows = true) :
    trace.foldl note e ≠ .none := by
  induction trace generalizing e with
  | nil => simpa using changed
  | cons c rest ih =>
    refine ih ?_
    rw [List.any_cons, Bool.or_eq_true] at changed
    cases e with
    | none =>
      rcases changed with other | here | later
      · exact absurd rfl other
      · exact .inl (by simp [note, here])
      · exact .inr later
    | uncommitted =>
      refine .inl ?_
      rw [note]
      split <;> exact Effect.noConfusion
    | settled threw => exact .inl Effect.noConfusion

theorem effectOf_commit {earlier : SourceTrace} (changed : earlier.any changesRows = true)
    (answer : Except AdapterError (Answer .commit)) (later : SourceTrace) :
    ∃ threw, effectOf (earlier ++ ⟨.commit, answer⟩ :: later) = .settled (threw || later.any throwsOn) := by
  rw [effectOf, List.foldl_append, List.foldl_cons]
  have noted : ∃ threw, note (earlier.foldl note .none) ⟨.commit, answer⟩ = .settled threw := by
    cases e : earlier.foldl note .none with
    | none => exact absurd e (foldl_changed (.inr changed))
    | uncommitted => exact ⟨false, rfl⟩
    | settled threw => exact ⟨_, rfl⟩
  obtain ⟨threw, settled⟩ := noted
  exact ⟨threw, by rw [settled, foldl_settled]⟩

theorem uncommitted_split {trace : SourceTrace} {threw : Bool} (settled : trace.foldl note .uncommitted = .settled threw) :
    ∃ earlier answer later, trace = earlier ++ ⟨.commit, answer⟩ :: later ∧ threw = later.any throwsOn := by
  induction trace with
  | nil => cases settled
  | cons c rest ih =>
    by_cases commits : isCommit c.query = true
    · obtain ⟨query, answer⟩ := c
      obtain rfl := isCommit_iff.mp commits
      rw [List.foldl_cons, note, if_pos commits, foldl_settled, Bool.false_or] at settled
      cases settled
      exact ⟨[], answer, rest, rfl, rfl⟩
    · rw [List.foldl_cons, note, if_neg commits] at settled
      obtain ⟨earlier, answer, later, rfl, same⟩ := ih settled
      exact ⟨c :: earlier, answer, later, rfl, same⟩

/-- Where a run settles its changes. -/
theorem settled_split {trace : SourceTrace} {threw : Bool} (settled : effectOf trace = .settled threw) :
    ∃ earlier answer later, trace = earlier ++ ⟨.commit, answer⟩ :: later ∧ earlier.any changesRows = true ∧
      threw = later.any throwsOn := by
  unfold effectOf at settled
  induction trace with
  | nil => cases settled
  | cons c rest ih =>
    by_cases changes : changesRows c = true
    · rw [List.foldl_cons, note, if_pos changes] at settled
      obtain ⟨earlier, answer, later, rfl, same⟩ := uncommitted_split settled
      exact ⟨c :: earlier, answer, later, rfl, by simp [changes], same⟩
    · rw [List.foldl_cons, note, if_neg changes] at settled
      obtain ⟨earlier, answer, later, rfl, changed, same⟩ := ih settled
      exact ⟨c :: earlier, answer, later, rfl, by simp [changed], same⟩

theorem commitsChange_iff {trace : SourceTrace} : CommitsChange trace ↔ ∃ threw, effectOf trace = .settled threw := by
  constructor
  · rintro ⟨earlier, answer, later, rfl, changed⟩
    obtain ⟨threw, settled⟩ := effectOf_commit changed answer later
    exact ⟨_, settled⟩
  · rintro ⟨threw, settled⟩
    obtain ⟨earlier, answer, later, split, changed, -⟩ := settled_split settled
    exact ⟨earlier, answer, later, split, changed⟩

theorem laterCallsAnswer_iff {trace : SourceTrace} : LaterCallsAnswer trace ↔ effectOf trace ≠ .settled true := by
  constructor
  · intro answered settled
    obtain ⟨earlier, answer, later, split, changed, threw⟩ := settled_split settled
    rw [answered earlier answer later split changed] at threw
    cases threw
  · rintro unsettled earlier answer later rfl changed
    obtain ⟨threw, settled⟩ := effectOf_commit changed answer later
    cases any : later.any throwsOn with
    | false => rfl
    | true =>
      rw [any, Bool.or_true] at settled
      exact absurd settled unsettled

/-! ### Calls before a transaction -/

def Prepares : SourceCall → Prop
  | .setting .. | .inspectRls .. | .bindScope _ => True
  | _ => False

section
variable {rt : SourceRuntime} {engine : Engine} {config : RunnerConfig} {job : WritebackJob}

theorem calls_setTimeouts : (setTimeouts engine config).Calls Prepares := by
  unfold setTimeouts
  refine Calls.bind ?_ fun _ => calls_pure _
  exact Calls.each fun _ _ => calls_ask trivial

theorem calls_assertPostgresRlsTarget (table : TableName) (operations : List String) :
    (assertPostgresRlsTarget table operations).Calls Prepares := (calls_ask trivial).bind fun _ => calls_required _

theorem calls_enterDatabaseScope (scope : DatabaseScope) : (enterDatabaseScope rt job scope).Calls Prepares := by
  refine (calls_required _).bind fun _ => (calls_assertPostgresRlsTarget _ _).bind fun _ => ?_
  refine (Calls.each fun _ _ => calls_assertPostgresRlsTarget _ _).bind fun _ => ?_
  exact (calls_required _).bind fun _ => (calls_required _).bind fun _ => calls_ask trivial

theorem calls_prepareTransaction : (prepareTransaction rt engine config job).Calls Prepares := by
  cases engine with
  | mysql => exact calls_required _
  | postgres =>
    refine calls_setTimeouts.bind fun _ => ?_
    cases config.databaseScope with
    | some scope => exact calls_enterDatabaseScope scope
    | none => exact calls_pure _

end

/-! ### Calls that leave the effect as it is -/

/-- No statement on the target, and no COMMIT. -/
def Quiet : SourceCall → Prop
  | .mutate .. | .commit => False
  | _ => True

/-- Nothing is settled yet. -/
def Open (e : Effect) : Prop := e = .none ∨ e = .uncommitted

/-- The effect after COMMIT. -/
def Effect.settle : Effect → Effect
  | .uncommitted => .settled false
  | e => e

theorem Prepares.quiet {q : SourceCall} (prepares : Prepares q) : Quiet q := by
  cases q <;> first | exact prepares.elim | trivial

theorem changesRows_quiet {c : SourceCallRun} (quiet : Quiet c.query) : changesRows c = false := by
  obtain ⟨query, answer⟩ := c
  cases query <;> first | exact quiet.elim | rfl

theorem note_quiet {c : SourceCallRun} {e : Effect} (quiet : Quiet c.query) (unsettled : Open e) : note e c = e := by
  rcases unsettled with rfl | rfl
  · rw [note, changesRows_quiet quiet]
    rfl
  · rw [note, if_neg]
    intro commits
    rw [isCommit_iff.mp commits] at quiet
    exact quiet

theorem note_open {c : SourceCallRun} {e : Effect} (other : isCommit c.query = false) (unsettled : Open e) :
    Open (note e c) := by
  rcases unsettled with rfl | rfl
  · rw [note]
    split
    · exact .inr rfl
    · exact .inl rfl
  · rw [note, other]
    exact .inr rfl

section
variable {rt : SourceRuntime} {engine : Engine} {config : RunnerConfig} {job : WritebackJob} {α : Type}

/-- A program of quiet calls ends with the effect it started with. -/
theorem wp_quiet {p : Adapter α} (calls : p.Calls Quiet) {e : Effect} (unsettled : Open e) {R : α → Effect → Prop}
    {E : AdapterError → Effect → Prop} (returns : ∀ a, R a e) (throws : ∀ err, E err e) : p.wp note R E e := by
  have keeps : ∀ e' c, Quiet c.query → e' = e → note e' c = e := by
    rintro e' c quiet rfl
    exact note_quiet quiet unsettled
  have kept : p.wp note (fun _ e' => e' = e) (fun _ e' => e' = e) e := calls.wp_keeps keeps rfl
  refine wp_mono ?_ ?_ kept
  · rintro a e' rfl
    exact returns a
  · rintro err e' rfl
    exact throws err

theorem wp_send (q : SourceCall) (quiet : Quiet q) {e : Effect} (unsettled : Open e) {R : Answer q → Effect → Prop}
    {E : AdapterError → Effect → Prop} (returns : ∀ a, R a e) (throws : ∀ err, E err e) : (send q).wp note R E e :=
  wp_quiet (calls_ask quiet) unsettled returns throws

theorem wp_required {x : Except String α} {e : Effect} {R : α → Effect → Prop} {E : AdapterError → Effect → Prop}
    (returns : ∀ a, x = .ok a → R a e) (throws : ∀ message, x = .error message → E (.thrown message) e) :
    (required x).wp note R E e := by
  cases x with
  | error message => exact throws message rfl
  | ok a => exact returns a rfl

theorem calls_hook (hooked : Bool) (name : String) : (hook hooked name).Calls Quiet := by
  unfold hook
  split
  · exact calls_ask trivial
  · exact calls_pure _

theorem calls_claimSourceReceipt : (claimSourceReceipt rt engine config job).Calls Quiet := by
  refine (calls_ask trivial).bind fun claimed => ?_
  split
  · exact calls_pure _
  · refine (calls_ask trivial).bind fun receipt => ?_
    cases receipt with
    | none => exact calls_pure _
    | some row => exact (calls_required _).bind fun _ => calls_pure _

theorem calls_recordSourceReceipt (status : WritebackStatus) (hash : Digest) :
    (recordSourceReceipt job status hash).Calls Quiet := (calls_ask trivial).bind fun _ => calls_required _

/-! ### The mutation -/

/-- The inverse that the result of an outcome carries can be built. -/
def HasInverse (rt : SourceRuntime) (job : WritebackJob) (outcome : MutationOutcome) : Prop :=
  ∃ inverse, resultInverse rt job outcome = .ok inverse

/-- Statements that went through are an outcome that is applied. -/
theorem returns_write (rt : SourceRuntime) (engine : Engine) (job : WritebackJob) :
    (write rt engine job).Returns fun outcome => outcome.status = .applied ∧ HasInverse rt job outcome := by
  have row : ∀ row : RowJob, (writeRow rt engine row).Returns fun outcome => outcome.status = .applied := by
    intro row
    refine returns_after fun statement => returns_after fun affected => returns_after fun _ => ?_
    refine returns_after fun version => returns_after fun _ => returns_after fun inserted => ?_
    refine (returns_pure _).mpr ?_
    unfold rowOutcome
    cases row.operation <;> rfl
  have carried : ∀ (job : WritebackJob) (outcome : MutationOutcome), (∀ reversal, job ≠ .v4 reversal) →
      HasInverse rt job outcome := by
    intro job outcome forward
    unfold HasInverse resultInverse
    split
    · cases job with
      | v4 reversal => exact absurd rfl (forward reversal)
      | _ => exact ⟨_, rfl⟩
    · exact ⟨_, rfl⟩
  cases job with
  | v1 legacy => exact (row _).mono fun outcome applied => ⟨applied, carried _ _ fun _ => WritebackJob.noConfusion⟩
  | v2 job => exact (row _).mono fun outcome applied => ⟨applied, carried _ _ fun _ => WritebackJob.noConfusion⟩
  | v3 set => exact returns_after fun effects => ⟨rfl, carried _ _ fun _ => WritebackJob.noConfusion⟩
  | v4 reversal => exact returns_after fun effects => returns_after fun inverse => ⟨rfl, some inverse, rfl⟩

theorem isCommit_serves {q : SourceCall} (serves : q.Serves engine job) : isCommit q = false := by
  rcases serves with reads | ⟨statement, -, returning, rfl⟩
  · cases q <;> first | exact reads.elim | rfl
  · rfl

/-- A mutation that has sent statements and returns is applied. -/
theorem wp_mutate : (mutate rt engine job).wp note
    (fun outcome e => Open e ∧ (e = .none ∨ outcome.status = .applied ∧ HasInverse rt job outcome))
    (fun _ e => Open e) .none := by
  have start : Open .none := .inl rfl
  have quiet : (refusal rt engine job).Calls Quiet := by
    refine (calls_refusal rt engine job).mono fun query reads => ?_
    cases query <;> first | exact reads.elim | trivial
  have opens : ∀ e c, SourceCall.Serves engine job c.query → Open e → Open (note e c) :=
    fun e c serves unsettled => note_open (isCommit_serves serves) unsettled
  unfold mutate
  rw [wp_bind]
  refine wp_quiet quiet start ?_ fun _ => start
  intro refused
  cases refused with
  | some outcome => exact ⟨start, .inl rfl⟩
  | none =>
    refine wp_mono ?_ (fun _ _ unsettled => unsettled)
      ((calls_write rt engine job).wp_returns opens start (returns_write rt engine job))
    rintro outcome e ⟨applied, unsettled⟩
    exact ⟨unsettled, .inr applied⟩

/-! ### The transaction -/

/-- After an error nothing is settled, or COMMIT was sent and its outcome is unknown. -/
def Stopped (err : AdapterError) (e : Effect) : Prop := Open e ∨ err = .sourceOutcomeUnknown ∧ e = .settled false

theorem wp_rollbackSource {err : AdapterError} {e : Effect} (stopped : Stopped err e) {R : α → Effect → Prop} :
    (rollbackSource engine err : Adapter α).wp note R Stopped e := by
  rcases stopped with unsettled | ⟨rfl, rfl⟩
  · unfold rollbackSource
    split
    · rw [wp_bind, wp_tryCatch]
      exact wp_send .rollback trivial unsettled (fun _ => .inl unsettled) fun _ => .inl unsettled
    · exact .inl unsettled
  · exact .inr ⟨rfl, rfl⟩

theorem wp_commitSource {e : Effect} (unsettled : Open e) {R : Unit → Effect → Prop} (returns : R () e.settle) :
    commitSource.wp note R Stopped e := by
  have settles : ∀ answer : Except AdapterError (Answer .commit), note e ⟨.commit, answer⟩ = e.settle := by
    intro answer
    rcases unsettled with rfl | rfl <;> rfl
  rw [commitSource, wp_tryCatch]
  refine (wp_ask _).mpr ⟨?_, ?_⟩
  · intro answered
    rw [settles]
    exact returns
  · intro thrown
    rw [settles]
    rcases unsettled with rfl | rfl
    · exact .inl (.inl rfl)
    · exact .inr ⟨rfl, rfl⟩

/-- What a transaction returns is settled. -/
theorem wp_sourceTransaction {fn : Adapter α} {hooked : Bool} {R : α → Effect → Prop}
    (body : fn.wp note (fun a e => Open e ∧ R a e) (fun _ e => Open e) .none) :
    (sourceTransaction rt engine config job hooked fn).wp note
      (fun a e => ∃ reached, Open reached ∧ R a reached ∧ e = reached.settle) Stopped .none := by
  have start : Open .none := .inl rfl
  have stopped : ∀ err : AdapterError, Stopped err .none := fun _ => .inl start
  have inside : (transactionBody rt engine config job hooked fn).wp note
      (fun a e => ∃ reached, Open reached ∧ R a reached ∧ e = reached.settle) Stopped .none := by
    unfold transactionBody
    simp only [wp_bind, wp_pure]
    refine wp_quiet (calls_prepareTransaction.mono fun _ => Prepares.quiet) start (fun _ => ?_) stopped
    refine wp_quiet (calls_hook _ _) start (fun _ => ?_) stopped
    refine wp_mono ?_ (fun _ _ unsettled => .inl unsettled) body
    rintro result reached ⟨unsettled, good⟩
    refine wp_quiet (calls_hook _ _) unsettled (fun _ => ?_) fun _ => .inl unsettled
    refine wp_quiet (calls_hook _ _) unsettled (fun _ => ?_) fun _ => .inl unsettled
    exact wp_commitSource unsettled ⟨reached, unsettled, good, rfl⟩
  have begun : (do send .begin; tryCatch (transactionBody rt engine config job hooked fn) (rollbackSource engine) :
      Adapter α).wp note (fun a e => ∃ reached, Open reached ∧ R a reached ∧ e = reached.settle) Stopped .none := by
    rw [wp_bind]
    refine wp_send .begin trivial start (fun _ => ?_) stopped
    rw [wp_tryCatch]
    exact wp_mono (fun _ _ => id) (fun _ _ stopped => wp_rollbackSource stopped) inside
  unfold sourceTransaction
  split
  · rw [wp_bind]
    exact wp_quiet (calls_setTimeouts.mono fun _ => Prepares.quiet) start (fun _ => begun) stopped
  · exact begun

/-! ### Reports -/

/-- What a result says of a change. -/
def Told (result : WritebackResult) : Effect → Prop
  | .settled false => ReportsChange result.status
  | .settled true => result.status = .failed
  | _ => True

theorem told_open {e : Effect} (unsettled : Open e) (result : WritebackResult) : Told result e := by
  rcases unsettled with rfl | rfl <;> exact trivial

/-- The changes of a run that ends in an error are not settled, or a later call threw. -/
def Lost (e : Effect) : Prop := e ≠ .settled false

theorem lost_open {e : Effect} (unsettled : Open e) : Lost e := by
  rcases unsettled with rfl | rfl <;> exact Effect.noConfusion

/-- A transaction has made no change or one that its outcome tells. -/
def Done (status : WritebackStatus) (e : Effect) : Prop := e = .none ∨ e = .settled false ∧ status = .applied

theorem done_of_settle {reached : Effect} {status : WritebackStatus} (unsettled : Open reached)
    (applied : reached = .none ∨ status = .applied) : Done status reached.settle := by
  rcases unsettled with rfl | rfl
  · exact .inl rfl
  · exact .inr ⟨rfl, applied.resolve_left Effect.noConfusion⟩

theorem Done.told {result : WritebackResult} {e : Effect} (done : Done result.status e) : Told result e := by
  rcases done with rfl | ⟨rfl, applied⟩
  · trivial
  · exact .inl applied

theorem told_reconciliation (intentId reason : String) {e : Effect} (unsure : Open e ∨ e = .settled false) :
    Told (reconciliationResult rt engine config job intentId reason) e := by
  rcases unsure with unsettled | rfl
  · exact told_open unsettled _
  · exact .inr (.inr (status_reconciliationResult ..))

theorem wp_applyWithSourceReceipt :
    (applyWithSourceReceipt rt engine config job).wp note Told (fun _ e => Lost e) .none := by
  have start : Open .none := .inl rfl
  have once : (applyOnce rt engine config job).wp note
      (fun result e => Open e ∧ (e = .none ∨ result.status = .applied)) (fun _ e => Open e) .none := by
    unfold applyOnce
    rw [wp_bind]
    refine wp_quiet calls_claimSourceReceipt start (fun existing => ?_) fun _ => start
    cases existing with
    | some result => exact ⟨start, .inl rfl⟩
    | none =>
      simp only [mutateAndRecord, wp_bind, wp_pure]
      refine wp_mono ?_ (fun _ _ unsettled => unsettled) wp_mutate
      rintro outcome e ⟨unsettled, applied⟩
      refine wp_required ?_ fun _ _ => unsettled
      intro result built
      refine wp_quiet (calls_recordSourceReceipt _ _) unsettled (fun _ => ⟨unsettled, ?_⟩) fun _ => unsettled
      rw [status_resultFromOutcome built]
      exact applied.imp_right And.left
  have transaction : (tryCatch (sourceTransaction rt engine config job false (applyOnce rt engine config job)) fun e =>
      if e = .sourceOutcomeUnknown then
        pure (reconciliationResult rt engine config job (sourceReconciliationIntentId rt engine job) "OUTCOME_UNKNOWN")
      else throw e).wp note Told (fun _ e => Lost e) .none := by
    rw [wp_tryCatch]
    refine wp_mono ?_ ?_ (wp_sourceTransaction once)
    · rintro result e ⟨reached, unsettled, applied, rfl⟩
      exact (done_of_settle unsettled applied).told
    · intro err e stopped
      split
      · exact told_reconciliation _ _ (stopped.imp_right And.right)
      · next known =>
        exact lost_open (stopped.resolve_right fun unknown => known unknown.1)
  unfold applyWithSourceReceipt
  split
  · rw [wp_bind]
    exact wp_send .migrateReceipts trivial start (fun _ => transaction) fun _ => lost_open start
  · exact transaction

theorem wp_reconcileIntent {intentId reason : String} {e : Effect} (unsure : Open e ∨ e = .settled false) :
    (reconcileIntent rt engine config job intentId reason).wp note Told (fun _ e => Lost e) e := by
  rcases unsure with unsettled | rfl
  · rw [reconcileIntent, wp_bind]
    exact wp_send (.requireReconciliation _ _) trivial unsettled (fun _ => told_open unsettled _)
      fun _ => lost_open unsettled
  · rw [reconcileIntent, wp_bind]
    refine (wp_ask _).mpr ⟨?_, ?_⟩
    · intro answered
      exact told_reconciliation _ _ (.inr rfl)
    · intro thrown
      exact fun settled => by cases settled

theorem resultFromOutcome_of_inverse {outcome : MutationOutcome} (carried : HasInverse rt job outcome)
    (engine : Engine) (config : RunnerConfig) (overrideHash : Option Digest) :
    ∃ result, resultFromOutcome rt engine config job outcome overrideHash = .ok result := by
  obtain ⟨inverse, resolved⟩ := carried
  rw [resultFromOutcome, resolved]
  exact ⟨_, rfl⟩

/-- What a run with an intent has come to before the intent is completed. -/
def Ended : WritebackResult ⊕ WritebackResult → Effect → Prop
  | .inl result, e => Done result.status e
  | .inr result, e => Told result e

theorem wp_mutateWithIntent {intentId : String} :
    (mutateWithIntent rt engine config job intentId).wp note Ended (fun _ e => Lost e) .none := by
  have body : (do
      let outcome ← sourceTransaction rt engine config job true (mutate rt engine job)
      let result ← required (resultFromOutcome rt engine config job outcome none)
      pure (.inl result) : Adapter (WritebackResult ⊕ WritebackResult)).wp note Ended Stopped .none := by
    rw [wp_bind]
    refine wp_mono ?_ (fun _ _ stopped => stopped) (wp_sourceTransaction wp_mutate)
    rintro outcome e ⟨reached, unsettled, applied, rfl⟩
    rw [wp_bind]
    refine wp_required ?_ ?_
    · intro result built
      show Done result.status reached.settle
      rw [status_resultFromOutcome built]
      exact done_of_settle unsettled (applied.imp_right And.left)
    · intro message failed
      rcases applied with rfl | ⟨-, carried⟩
      · exact .inl (.inl rfl)
      · obtain ⟨result, built⟩ := resultFromOutcome_of_inverse carried engine config none
        rw [built] at failed
        cases failed
  unfold mutateWithIntent
  rw [wp_tryCatch]
  refine wp_mono (fun _ _ ended => ended) ?_ body
  intro err e stopped
  split
  · rw [wp_bind]
    exact wp_reconcileIntent (stopped.imp_right And.right)
  · next known =>
    have unsettled : Open e := stopped.resolve_right fun unknown => known unknown.1
    rw [wp_bind]
    exact wp_send (.completeIntent _ _) trivial unsettled (fun _ => told_open unsettled _) fun _ => lost_open unsettled

theorem throwsOn_answered (q : SourceCall) (a : Answer q) : throwsOn ⟨q, .ok a⟩ = false := by
  cases q <;> rfl

/-- A call after the transaction whose error the adapters do not catch. -/
theorem wp_later (q : SourceCall) (quiet : Quiet q) (uncaught : ∀ err, throwsOn ⟨q, .error err⟩ = true)
    {status : WritebackStatus} {e : Effect} (done : Done status e) {R : Answer q → Effect → Prop} (returns : ∀ a, R a e) :
    (send q).wp note R (fun _ e => Lost e) e := by
  rcases done with rfl | ⟨rfl, -⟩
  · exact wp_send q quiet (.inl rfl) returns fun _ => lost_open (.inl rfl)
  · refine (wp_ask q).mpr ⟨?_, ?_⟩
    · intro answered
      rw [note, throwsOn_answered]
      exact returns answered
    · intro thrown
      rw [note, uncaught]
      exact fun settled => by cases settled

theorem wp_completeWithIntent {intentId : String} {result : WritebackResult} {e : Effect} (done : Done result.status e) :
    (completeWithIntent rt engine config job intentId result).wp note Told (fun _ e => Lost e) e := by
  have kept : ∀ answer : Except AdapterError Unit, note e ⟨.failpoint "after_source_commit", answer⟩ = e := by
    intro answer
    rcases done with rfl | ⟨rfl, -⟩
    · exact note_quiet trivial (.inl rfl)
    · cases answer <;> rfl
  have completed : (do
      send (.completeIntent intentId result)
      send (.failpoint "after_intent_completed")
      pure result : Adapter WritebackResult).wp note Told (fun _ e => Lost e) e := by
    simp only [wp_bind, wp_pure]
    refine wp_later (.completeIntent intentId result) trivial (fun _ => rfl) done fun _ => ?_
    exact wp_later (.failpoint "after_intent_completed") trivial (fun _ => rfl) done fun _ => done.told
  have unsure : Open e ∨ e = .settled false := by
    rcases done with rfl | ⟨rfl, -⟩
    · exact .inl (.inl rfl)
    · exact .inr rfl
  unfold completeWithIntent
  simp only [wp_bind, wp_tryCatch, wp_pure]
  refine (wp_ask _).mpr ⟨?_, ?_⟩
  · intro answered
    rw [kept]
    exact completed
  · intro thrown
    rw [kept]
    exact wp_reconcileIntent unsure

theorem wp_applyIntent {intentId : String} :
    (applyIntent rt engine config job intentId).wp note Told (fun _ e => Lost e) .none := by
  have start : Open .none := .inl rfl
  have lost : ∀ err : AdapterError, Lost .none := fun _ => lost_open start
  unfold applyIntent
  rw [wp_bind]
  refine wp_send (.failpoint _) trivial start (fun _ => ?_) lost
  rw [wp_bind, wp_tryCatch, wp_bind]
  refine wp_send (.markIntentApplying _ _) trivial start (fun _ => ?_) fun _ => ?_
  · rw [wp_pure, if_neg (by decide), wp_bind]
    refine wp_send (.failpoint _) trivial start (fun _ => ?_) lost
    rw [wp_bind]
    refine wp_mono ?_ (fun _ _ lost => lost) wp_mutateWithIntent
    intro ended e reached
    cases ended with
    | inl result => exact wp_completeWithIntent reached
    | inr result => exact reached
  · rw [wp_pure, if_pos (by decide)]
    exact wp_reconcileIntent (.inl start)

theorem wp_applyWithRunnerLedger :
    (applyWithRunnerLedger rt engine config job).wp note Told (fun _ e => Lost e) .none := by
  have start : Open .none := .inl rfl
  unfold applyWithRunnerLedger
  split
  · exact told_open start _
  · rw [wp_bind]
    refine wp_send (.claimIntent _ _) trivial start (fun claim => ?_) fun _ => lost_open start
    cases claim with
    | existingResult intentId result => exact wp_required (fun _ _ => told_open start _) fun _ _ => lost_open start
    | reconciliationRequired intentId reason => exact told_open start _
    | proceed intentId => exact wp_applyIntent

theorem wp_applyJob : (applyJob rt engine config job).wp note Told (fun _ _ => True) .none := by
  have start : Open .none := .inl rfl
  have connected : ∀ engine, (applyConnected rt engine config job).wp note Told (fun _ e => Lost e) .none := by
    intro engine
    unfold applyConnected
    rw [wp_bind]
    refine wp_required (fun _ _ => ?_) fun _ _ => lost_open start
    split
    · exact wp_applyWithRunnerLedger
    · exact wp_applyWithSourceReceipt
  have failed : ∀ engine (err : AdapterError) e, Lost e →
      Told (failedResult rt engine config job (safeErrorCode engine job.operation err)) e := by
    intro engine err e lost
    cases e with
    | settled threw =>
      cases threw with
      | false => exact absurd rfl lost
      | true => exact status_failedResult ..
    | _ => trivial
  unfold applyJob
  simp only
  split
  · exact wp_required (fun _ _ => told_open start _) fun _ _ => trivial
  split
  · exact told_open start _
  cases engine with
  | postgres =>
    rw [wp_tryCatch, wp_bind]
    refine wp_send .connect trivial start (fun _ => ?_) fun err => failed .postgres err _ (lost_open start)
    exact wp_mono (fun _ _ told => told) (fun err e lost => failed .postgres err e lost) (connected .postgres)
  | mysql =>
    rw [wp_bind]
    refine wp_send .connect trivial start (fun _ => ?_) fun _ => trivial
    rw [wp_tryCatch]
    exact wp_mono (fun _ _ told => told) (fun err e lost => failed .mysql err e lost) (connected .mysql)

end

/-- Either adapter reports a committed change as what it is exactly when the calls of the
    run after the COMMIT are answered. -/
theorem committed_reported_iff (rt : SourceRuntime) (engine : Engine) (config : RunnerConfig) (job : WritebackJob)
    {trace : SourceTrace} {result : WritebackResult} (runs : (applyJob rt engine config job).Run trace (.ok result)) :
    TellsOfChange trace result ↔ LaterCallsAnswer trace := by
  have told : Told result (effectOf trace) := (wp_iff_run.mp wp_applyJob).1 result trace runs
  rw [laterCallsAnswer_iff, TellsOfChange, commitsChange_iff]
  cases settled : effectOf trace with
  | settled threw =>
    rw [settled] at told
    cases threw with
    | false =>
      have reported : ReportsChange result.status := told
      refine ⟨fun _ => by decide, fun _ => ⟨fun _ => reported, ?_⟩⟩
      rintro (failed | conflict) - <;> simp_all [ReportsChange]
    | true =>
      have failed : result.status = .failed := told
      refine ⟨fun ⟨_, silent⟩ => absurd ⟨true, rfl⟩ (silent (.inl failed)), fun other => absurd rfl other⟩
  | _ => simp

/-! ### A ledger that is full -/

def matchingRuntime : SourceRuntime := { quietRuntime with versionValuesMatch := fun _ _ => true }

def ledgerRunner : RunnerConfig :=
  { rehearsal with
    databaseUrl := "postgres://source", dryRun := false, receipts := some ⟨.runnerLedger, false⟩
    writebackIntentStore := true }

/-- A source that does what it is told, and a ledger that can claim an intent and not
    complete it. -/
def fullLedger : (q : SourceCall) → Except AdapterError (Answer q)
  | .select _ => .ok [.empty]
  | .mutate _ _ => .ok ⟨1, none⟩
  | .claimIntent _ _ => .ok (.proceed "intent_1")
  | .completeIntent _ _ => .error (.thrown "database or disk is full")
  | .inspectRls _ _ | .uniqueKeys _ => .ok []
  | .dependents _ | .visibility _ => .ok ⟨false, false⟩
  | .triggers _ | .cascades _ => .ok false
  | .claimReceipt _ _ _ | .recordReceipt _ _ _ => .ok 1
  | .readReceipt _ => .ok none
  | .connect | .migrateReceipts | .setting _ _ | .begin | .bindScope _ | .commit | .rollback | .markIntentApplying _ _
  | .requireReconciliation _ _ | .failpoint _ => .ok ()

/-- The run that closes a ticket. -/
def closing : Adapter WritebackResult :=
  applyJob matchingRuntime .postgres ledgerRunner (closeFor "prop_1" "prop_1:7")

def closingResult : WritebackResult :=
  failedResult matchingRuntime .postgres ledgerRunner (closeFor "prop_1" "prop_1:7")
    (safeErrorCode .postgres (.row .update) (.thrown "database or disk is full"))

theorem closing_runs : closing.Run (closing.against fullLedger).1 (.ok closingResult) := by
  have ended : (closing.against fullLedger).2 = .ok closingResult := rfl
  rw [← ended]
  exact run_against fullLedger closing

theorem closing_committed : effectOf (closing.against fullLedger).1 = .settled true := rfl

/-- The ticket is closed, and the result says that closing it failed. -/
theorem closed_reported_failed : ∃ trace result,
    (applyJob matchingRuntime .postgres ledgerRunner (closeFor "prop_1" "prop_1:7")).Run trace (.ok result) ∧
      CommitsChange trace ∧ result.status = .failed ∧ ¬ TellsOfChange trace result := by
  have committed : CommitsChange (closing.against fullLedger).1 := commitsChange_iff.mpr ⟨true, closing_committed⟩
  have failed : closingResult.status = .failed := status_failedResult ..
  exact ⟨_, closingResult, closing_runs, committed, failed, fun tells => tells.2 (.inl failed) committed⟩

theorem closing_reported_iff : TellsOfChange (closing.against fullLedger).1 closingResult ↔
    LaterCallsAnswer (closing.against fullLedger).1 :=
  committed_reported_iff matchingRuntime .postgres ledgerRunner (closeFor "prop_1" "prop_1:7") closing_runs

end SynapsorRunner.CommitOutcomes
