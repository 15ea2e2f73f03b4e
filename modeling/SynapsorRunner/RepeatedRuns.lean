import SynapsorRunner.TableRuns

/-!
Runs of the Postgres adapter on one job again and again. What a job was reviewed for
is gone once its changes are made: a version is one further, a row is deleted, a key
is taken. So however many runs there are and however they end, the changes are made
once or not at all, and at most one run reports them as applied
(`runs_make_changes_once`). No receipt takes part in this. It fails for a job that
leaves its version or its key as they were, and for a row whose key the database
makes (`UsesUp`).
-/
namespace SynapsorRunner.RepeatedRuns
open SynapsorRunner.Protocol SynapsorRunner.Proposals SynapsorRunner.Compensation SynapsorRunner.Adapters
open SynapsorRunner.Programs SynapsorRunner.Programs.Program SynapsorRunner.Tables SynapsorRunner.Confinement
open SynapsorRunner.AllOrNothing SynapsorRunner.TableRuns

/-! ### Changes that cannot be made twice -/

section
variable {β : Type} {post : β → Option TableRow → Option TableRow → Prop} {target : JobTarget} {members : List β}
  {table table' table'' : Table}

/-- Members that change the rows of their keys do so once, when no row that one of them
    leaves is one that a member changes. -/
theorem changed_once (key : β → Scalar) (keyed : Keyed target table) (some_ : members ≠ [])
    (touches : ∀ m ∈ members, ∀ before after, post m before after → ∃ row, before = some row ∧
      row target.tenantGuard.column = target.tenantGuard.value ∧ row target.primaryKey.column = key m)
    (spent : ∀ m ∈ members, ∀ m' ∈ members, ∀ before row after, post m before (some row) → ¬ post m' (some row) after)
    (first : Exactly post members table table') : ¬ Exactly post members table' table'' := by
  rintro ⟨place', -, changed', -⟩
  obtain ⟨place, -, changed, kept⟩ := first
  obtain ⟨m, member⟩ := List.exists_mem_of_ne_nil members some_
  obtain ⟨row', found', tenant', key'⟩ := touches m member _ _ (changed' m member)
  by_cases own : ∃ m' ∈ members, place m' = place' m
  · obtain ⟨m', member', same⟩ := own
    have left := changed m' member'
    have again := changed' m member
    rw [← same] at again found'
    rw [found'] at left again
    exact spent m' member' m member _ row' _ left again
  · obtain ⟨row, found, tenant, known⟩ := touches m member _ _ (changed m member)
    have stays : table (place' m) = some row' := by
      rw [← kept (place' m) fun m' member' same => own ⟨m', member', same⟩, found']
    refine own ⟨m, member, ?_⟩
    exact keyed _ _ row row' found stays (tenant.trans tenant'.symm) (known.trans key'.symm)

/-- Members that add the rows of their keys do so once. -/
theorem added_once (keyed : Keyed target table'') (some_ : members ≠ [])
    (adds : ∀ m ∈ members, ∀ before after, post m before after → before = none ∧ ∃ row, after = some row)
    (same : ∀ m ∈ members, ∀ before row before' row', post m before (some row) → post m before' (some row') →
      row target.tenantGuard.column = row' target.tenantGuard.column ∧
        row target.primaryKey.column = row' target.primaryKey.column)
    (first : Exactly post members table table') : ¬ Exactly post members table' table'' := by
  rintro ⟨place', -, changed', kept'⟩
  obtain ⟨place, -, changed, -⟩ := first
  obtain ⟨m, member⟩ := List.exists_mem_of_ne_nil members some_
  obtain ⟨-, row, found⟩ := adds m member _ _ (changed m member)
  obtain ⟨free, row', found'⟩ := adds m member _ _ (changed' m member)
  have stays : table'' (place m) = some row := by
    rw [kept' (place m) ?_, found]
    intro m' member' taken
    have none := (adds m' member' _ _ (changed' m' member')).1
    rw [taken, found] at none
    cases none
  have left := changed m member
  have again := changed' m member
  rw [found] at left
  rw [found'] at again
  obtain ⟨tenant, key⟩ := same m member _ row _ row' left again
  have one := keyed _ _ row row' stays found' tenant key
  rw [← one, found] at free
  cases free

end

/-! ### Jobs that use up what they were reviewed for -/

/-- The version of an update advances, and keys stay as they are. -/
def UsesUp : WritebackJob → Prop
  | .v1 _ => False
  | .v2 job => match job.operation with
    | .update => ∃ column n, job.conflictGuard = .versionColumn column (.num n) ∧
        integerVersion job.versionAdvance = some column
    | .insert => False
    | .delete => True
  | .v3 job => ∀ v ∈ job.versionAdvance, v.column ≠ job.target.primaryKey.column
  | .v4 job => (∀ v ∈ job.compensation.versionAdvance, v.column ≠ job.target.primaryKey.column) ∧
      ∀ m ∈ job.compensation.members, job.target.primaryKey.column ∉ (m.restoreValues.getD .empty).keys

theorem nextVersion_ne (n : Rat) : nextVersion (some (.num n)) ≠ .num n := by
  intro same
  simp only [nextVersion, Scalar.num.injEq] at same
  exact absurd same (by simp)

theorem not_generated {job : RowJob} {column : Column} (advances : integerVersion job.versionAdvance = some column) :
    ¬ rowGenerated job column := by
  rintro ⟨v, given, generated, -⟩
  unfold integerVersion at advances
  rw [Option.mem_def.mp given] at advances
  obtain ⟨_, strategy⟩ := v
  cases generated
  cases advances

section
variable {rt : SourceRuntime} {table table' table'' : Table}

theorem row_once {job : RowJob} (uses : UsesUp (.v2 job)) (keyed : Keyed job.target table)
    (first : Exactly (RowDone rt) [job] table table') : ¬ Exactly (RowDone rt) [job] table' table'' := by
  have reviewed : ∀ row, RowReviewed rt job row → row job.target.tenantGuard.column = job.target.tenantGuard.value ∧
      row job.target.primaryKey.column = job.target.primaryKey.value.getD .null := by
    intro row seen
    refine ⟨seen.inScope.tenant, ?_⟩
    rw [seen.key]
    rfl
  refine changed_once (fun _ => job.target.primaryKey.value.getD .null) keyed (by simp) ?_ ?_ first
  · intro m member before after done
    obtain rfl := List.mem_singleton.mp member
    unfold RowDone at done
    unfold UsesUp at uses
    cases operation : m.operation with
    | update =>
      simp only [operation] at done
      obtain ⟨row, _, found, seen, -⟩ := done
      exact ⟨row, found, reviewed row seen⟩
    | insert =>
      simp only [operation] at uses
    | delete =>
      simp only [operation] at done
      obtain ⟨row, found, seen, -⟩ := done
      exact ⟨row, found, reviewed row seen⟩
  · intro m member m' member' before row after done again
    obtain rfl := List.mem_singleton.mp member
    obtain rfl := List.mem_singleton.mp member'
    unfold RowDone at done again
    unfold UsesUp at uses
    cases operation : m'.operation with
    | update =>
      simp only [operation] at done again uses
      obtain ⟨old, _, -, seen, ⟨⟩, image⟩ := done
      obtain ⟨_, _, ⟨⟩, seen', -⟩ := again
      obtain ⟨column, n, guarded, advances⟩ := uses
      obtain ⟨_, guarded'⟩ := seen.version
      obtain ⟨_, guarded''⟩ := seen'.version
      rw [guarded] at guarded' guarded''
      obtain ⟨rfl, value⟩ := ConflictGuard.versionColumn.inj guarded'
      obtain ⟨rfl, value'⟩ := ConflictGuard.versionColumn.inj guarded''
      have advanced := image column (.inr (not_generated advances))
      rw [advances, afterImage_version, ← value, ← value'] at advanced
      exact nextVersion_ne n advanced.symm
    | insert =>
      simp only [operation] at uses
    | delete =>
      simp only [operation] at done
      obtain ⟨_, -, -, ⟨⟩⟩ := done

theorem members_once {platform : Platform} {job : SetJob} (integrity : assertFrozenSetJobIntegrity platform job = .ok ())
    (allowed : job.operation = .update → PatchAllowed job.toJobHeader job.patch) (uses : UsesUp (.v3 job))
    (keyed : Keyed job.target table) (keyed' : Keyed job.target table'')
    (first : Exactly (SetDone rt job) job.frozenSet.members table table') :
    ¬ Exactly (SetDone rt job) job.frozenSet.members table' table'' := by
  obtain ⟨_, count, rest⟩ := bind_eq_ok integrity
  obtain ⟨_, distinct, -⟩ := bind_eq_ok rest
  simp only [throwIf_ok_iff, not_or, not_not, not_lt] at count distinct
  have some_ : job.frozenSet.members ≠ [] := by
    intro empty
    rw [empty] at count
    exact absurd count.2.1 (by rw [count.1]; decide)
  cases operation : job.operation with
  | update =>
    refine changed_once (fun m => m.primaryKey.value) keyed some_ ?_ ?_ first
    · exact fun m _ _ _ => setDone_found (by simp [operation])
    · intro m member m' member' before row after done again
      simp only [SetDone, operation] at done again
      obtain ⟨old, _, -, seen, version, ⟨⟩, image, -⟩ := done
      obtain ⟨_, _, ⟨⟩, seen', version', -⟩ := again
      obtain ⟨advance, expected, n, advances, expects, column, value, -⟩ := updateMember_after integrity operation member
      have patchable := allowed operation
      have key : row job.target.primaryKey.column = old job.target.primaryKey.column := by
        rw [image]
        refine afterImage_kept ?_ fun patch => patchable.primaryKey (patchable.columns _ patch)
        rw [advances, Option.map_some, ne_eq, Option.some.injEq]
        exact uses advance advances
      have same : m = m' :=
        List.inj_on_of_nodup_map distinct member member' (seen.key.symm.trans (key.symm.trans seen'.key))
      have before := version expected expects
      have after := version' expected (same ▸ expects)
      rw [column, value] at before after
      rw [image, advances, Option.map_some, afterImage_version, before] at after
      exact nextVersion_ne n after
  | delete =>
    refine changed_once (fun m => m.primaryKey.value) keyed some_ ?_ ?_ first
    · exact fun m _ _ _ => setDone_found (by simp [operation])
    · intro m member m' member' before row after done again
      simp only [SetDone, operation] at done
      obtain ⟨_, -, -, -, ⟨⟩⟩ := done
  | batchInsert =>
    refine added_once keyed' some_ ?_ ?_ first
    · intro m member before after done
      simp only [SetDone, operation] at done
      obtain ⟨free, row, found, -⟩ := done
      exact ⟨free, row, found⟩
    · intro m member before row before' row' done again
      simp only [SetDone, operation] at done again
      obtain ⟨-, _, ⟨⟩, given⟩ := done
      obtain ⟨-, _, ⟨⟩, given'⟩ := again
      have agree : ∀ column value, m.after.get? column = some value → row column = row' column := fun column value listed =>
        (given _ (KeyedMap.get?_eq_some.mp listed)).trans (given' _ (KeyedMap.get?_eq_some.mp listed)).symm
      exact ⟨agree _ _ (batchMember_inScope integrity operation member).1, agree _ _ (batchMember_key integrity operation member)⟩

/-- A member of a restoring UPDATE expects a number as its version. -/
theorem expected_version {job : CompensationJob} {m : InverseMember} (checked : assertCompensationMember job m = .ok ())
    (operation : job.operation = .restoreUpdate) :
    ∃ advance n, job.compensation.versionAdvance = some advance ∧ (advance.column, .num n) ∈ m.expectedState.entries := by
  obtain ⟨_, -, checked⟩ := bind_eq_ok checked
  rw [operation] at checked
  obtain ⟨_, advances, checked⟩ := bind_eq_ok checked
  obtain ⟨_, numbered, -⟩ := bind_eq_ok checked
  simp only [throwIf_ok_iff, not_not] at advances numbered
  cases given : job.compensation.versionAdvance with
  | none => simp [given] at advances
  | some advance =>
    simp only [given, Option.all_some, Option.isNone_iff_eq_none] at numbered
    unfold numberAt at numbered
    cases listed : m.expectedState.get? advance.column with
    | none => simp [listed] at numbered
    | some value =>
      cases value with
      | num n => exact ⟨advance, n, rfl, KeyedMap.get?_eq_some.mp listed⟩
      | _ => simp [listed] at numbered

theorem compensation_once {platform : Platform} {job : CompensationJob} (integrity : CompensationIntegrity platform job)
    (uses : UsesUp (.v4 job)) (keyed : Keyed job.target table) (keyed' : Keyed job.target table'')
    (first : Exactly (CompensationDone job) job.compensation.members table table') :
    ¬ Exactly (CompensationDone job) job.compensation.members table' table'' := by
  have some_ : job.compensation.members ≠ [] := by
    intro empty
    have count := integrity.rows.1
    rw [empty] at count
    exact absurd count (by decide)
  cases operation : job.operation with
  | restoreUpdate =>
    refine changed_once (fun m => m.primaryKey.value) keyed some_ ?_ ?_ first
    · exact fun m _ _ _ => compensationDone_found (by simp [operation])
    · intro m member m' member' before row after done again
      simp only [CompensationDone, operation] at done again
      obtain ⟨old, _, -, seen, ⟨⟩, image⟩ := done
      obtain ⟨_, _, ⟨⟩, seen', -⟩ := again
      obtain ⟨advance, n, advances, numbered⟩ := expected_version (integrity.members m member) operation
      have key : row job.target.primaryKey.column = old job.target.primaryKey.column := by
        rw [image]
        refine afterImage_kept ?_ (uses.2 m member)
        rw [advances, Option.map_some, ne_eq, Option.some.injEq]
        exact uses.1 advance advances
      have same : m = m' :=
        List.inj_on_of_nodup_map integrity.identities member member' (seen.key.symm.trans (key.symm.trans seen'.key))
      have before := seen.state _ numbered
      have after := seen'.state _ (same ▸ numbered)
      rw [image, advances, Option.map_some, afterImage_version, before] at after
      exact nextVersion_ne n after
  | removeInsert =>
    refine changed_once (fun m => m.primaryKey.value) keyed some_ ?_ ?_ first
    · exact fun m _ _ _ => compensationDone_found (by simp [operation])
    · intro m member m' member' before row after done again
      simp only [CompensationDone, operation] at done
      obtain ⟨_, -, -, ⟨⟩⟩ := done
  | restoreInsert =>
    refine added_once keyed' some_ ?_ ?_ first
    · intro m member before after done
      simp only [CompensationDone, operation] at done
      obtain ⟨free, row, _, found, -⟩ := done
      exact ⟨free, row, found⟩
    · intro m member before row before' row' done again
      simp only [CompensationDone, operation] at done again
      obtain ⟨-, _, scope, ⟨⟩, resolved, given⟩ := done
      obtain ⟨-, _, _, ⟨⟩, resolved', given'⟩ := again
      rw [resolved] at resolved'
      cases resolved'
      have agree : ∀ column ∈ keyColumns job.target, row column = row' column := by
        intro column key
        have named : column ∈ (restoredRow job m scope).keys := (mem_restoredRow_keys resolved).mpr (.inr key)
        obtain ⟨value, listed⟩ := Option.ne_none_iff_exists'.mp fun none => KeyedMap.get?_eq_none.mp none named
        exact (given _ (KeyedMap.get?_eq_some.mp listed)).trans (given' _ (KeyedMap.get?_eq_some.mp listed)).symm
      exact ⟨agree _ (by simp [keyColumns]), agree _ (by simp [keyColumns])⟩

/-- The changes of an accepted job that uses up what it was reviewed for are not made
    again. -/
theorem applied_once {job : WritebackJob} (valid : validateOperation .postgres rt.platform job = .ok ()) (uses : UsesUp job)
    (keyed : Keyed job.target table) (keyed' : Keyed job.target table'') (first : Applied rt job table table') :
    ¬ Applied rt job table' table'' := by
  cases job with
  | v1 job => exact uses.elim
  | v2 job => exact row_once uses keyed first
  | v3 job =>
    obtain ⟨_, integrity, rest⟩ := bind_eq_ok valid
    refine members_once integrity ?_ uses keyed keyed' first
    intro operation
    obtain ⟨_, -, rest⟩ := bind_eq_ok rest
    rw [operation] at rest
    obtain ⟨_, patchable, -⟩ := bind_eq_ok rest
    exact validatePatch_ok patchable
  | v4 job => exact compensation_once (assertCompensationJobIntegrity_ok valid) uses keyed keyed' first

end

/-! ### Runs again and again -/

/-- Runs on a job, each on what the last one has committed, with the results of those
    that were not stopped. -/
inductive Runs (rt : SourceRuntime) (job : WritebackJob) (table : Table) : List WritebackResult → Table → Prop where
  | start : Runs rt job table [] table
  | ended {results : List WritebackResult} {between : Table} (runs : Runs rt job table results between) (config : RunnerConfig)
      (live : config.dryRun = false) {trace : List (Answered SourceCall Answer AdapterError)} {result : WritebackResult}
      {s : Contents}
      (run : (applyJob rt .postgres config job).RunsIn (SourceStep job) ⟨between, between⟩ trace (.ok result) s) :
      Runs rt job table (results ++ [result]) s.committed
  | stopped {results : List WritebackResult} {between : Table} (runs : Runs rt job table results between)
      (config : RunnerConfig) (live : config.dryRun = false) {s : Contents}
      (stop : (applyJob rt .postgres config job).StopsIn (SourceStep job) ⟨between, between⟩ s) :
      Runs rt job table results s.committed

def appliedResults (results : List WritebackResult) : ℕ := (results.map (·.status)).count .applied

theorem appliedResults_snoc (results : List WritebackResult) (result : WritebackResult) :
    appliedResults (results ++ [result]) = appliedResults results + if result.status = .applied then 1 else 0 := by
  simp [appliedResults, List.count_append, List.count_singleton]

/-- The changes are not made and not reported, or made once. -/
def Once (rt : SourceRuntime) (job : WritebackJob) (table : Table) (results : List WritebackResult) (table' : Table) : Prop :=
  table' = table ∧ appliedResults results = 0 ∨ Applied rt job table table' ∧ appliedResults results ≤ 1

section
variable {rt : SourceRuntime} {job : WritebackJob} {table : Table}

/-- The invariant of the runs, which the table stays keyed for. -/
theorem once_of_runs (valid : validateOperation .postgres rt.platform job = .ok ()) (uses : UsesUp job)
    (keyed : Keyed job.target table) {results : List WritebackResult} {table' : Table}
    (runs : Runs rt job table results table') : Keyed job.target table' ∧ Once rt job table results table' := by
  induction runs with
  | start => exact ⟨keyed, .inl ⟨rfl, rfl⟩⟩
  | ended runs config live run ih =>
    obtain ⟨keyed', once⟩ := ih
    have reported := ((endsIn_applyJob live keyed').of_run run).1 _ rfl
    have keyed'' := (stopped_whole live keyed' run.stops).2
    refine ⟨keyed'', ?_⟩
    unfold Once
    rw [appliedResults_snoc]
    rcases once with ⟨rfl, none⟩ | ⟨applied, most⟩
    · split
      · exact .inr ⟨reported.applied ‹_›, by omega⟩
      · rcases reported.whole with same | applied
        · exact .inl ⟨same, none⟩
        · exact .inr ⟨applied, by omega⟩
    · have never := applied_once valid uses keyed keyed'' applied
      rw [if_neg fun succeeded => never (reported.applied succeeded), reported.whole.resolve_right never]
      exact .inr ⟨applied, most⟩
  | stopped runs config live stop ih =>
    obtain ⟨keyed', once⟩ := ih
    obtain ⟨whole, keyed''⟩ := stopped_whole live keyed' stop
    refine ⟨keyed'', ?_⟩
    rcases once with ⟨rfl, none⟩ | ⟨applied, most⟩
    · rcases whole with same | applied
      · exact .inl ⟨same, none⟩
      · exact .inr ⟨applied, by omega⟩
    · have same := whole.resolve_right (applied_once valid uses keyed keyed'' applied)
      rw [same]
      exact .inr ⟨applied, most⟩

end

/-- The job that deletes ticket 7. -/
def deleteTicket : WritebackJob :=
  .v2
    { jobId := "wbj_7", proposalId := "prop_1", approvalId := "sha256:bb", sourceId := "crm", engine := .postgres
      target := ⟨"public", "tickets", ⟨"id", some (.str "7")⟩, ⟨"tenant_id", .str "acme"⟩, none⟩
      allowedColumns := [], idempotencyKey := "delete-ticket", attemptCount := 1
      operation := .delete, patch := .empty, conflictGuard := .versionColumn "version" (.num 3), freshness := none
      versionAdvance := none, deduplication := none, inverseCapture := none }

def deleting : Adapter WritebackResult :=
  applyJob CommitOutcomes.matchingRuntime .postgres SourceReceipts.sourceRunner deleteTicket

def deletingRun : List (Answered SourceCall Answer AdapterError) × Except AdapterError WritebackResult :=
  deleting.against (SourceReceipts.sourceWith none)

def deletingStatement : Statement :=
  .delete ⟨"public", "tickets"⟩ [.equals "id" (.str "7"), .equals "tenant_id" (.str "acme"), .equals "version" (.num 3)]

theorem deletingRun_trace : deletingRun.1 =
    [⟨.connect, .ok ()⟩, ⟨.begin, .ok ()⟩, ⟨.claimReceipt "delete-ticket" "wbj_7" "prop_1", .ok 1⟩,
      ⟨.select closingSelect, .ok [.empty]⟩, ⟨.dependents ⟨"public", "tickets"⟩, .ok ⟨false, false⟩⟩,
      ⟨.mutate deletingStatement none, .ok ⟨1, none⟩⟩, ⟨.recordReceipt "delete-ticket" "applied" ⟨"00"⟩, .ok 1⟩,
      ⟨.commit, .ok ()⟩] := rfl

def emptyTable : Table := fun _ => none

theorem deleting_effect : Effect (generatedColumn deleteTicket) deletingStatement (ticketTable "open") emptyTable := by
  intro place
  by_cases first : place = 0
  · subst first
    show none = deletedAt _ (some (ticketRow "open"))
    simp only [deletedAt, closing_meets, ↓reduceIte]
  · simp only [ticketTable, first, ↓reduceIte]
    rfl

theorem emptyTable_keyed (target : JobTarget) : Keyed target emptyTable := fun _ _ _ _ found => nomatch found

/-- The run deletes the ticket, and commits that. -/
theorem deleting_runs : deleting.RunsIn (SourceStep deleteTicket) ⟨ticketTable "open", ticketTable "open"⟩ deletingRun.1
    deletingRun.2 ⟨emptyTable, emptyTable⟩ := by
  refine runsIn_iff.mpr ⟨run_against _ _, ?_⟩
  rw [deletingRun_trace]
  have counted : Counts deletingStatement (ticketTable "open") 1 := ⟨[0], ticketTable_places "open" closing_meets, rfl⟩
  refine ⟨_, ⟨rfl, rfl⟩, _, rfl, _, ⟨rfl, rfl⟩, _, ⟨⟨rfl, fun _ => closing_answers⟩, rfl⟩, _, ⟨rfl, rfl⟩,
    ⟨ticketTable "open", emptyTable⟩, ⟨⟨deleting_effect, emptyTable_keyed _, counted⟩, rfl⟩, _, ⟨rfl, rfl⟩, _, rfl, rfl⟩

end SynapsorRunner.RepeatedRuns
