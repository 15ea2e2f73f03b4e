import SynapsorRunner.CommitOutcomes

/-!
Receipts in the source. A sequence of applies of the two adapters against one source
database, with the receipt table that each run finds and leaves: a run claims the
idempotency key of its job, mutates and records the receipt in one transaction.

The table is looked up by the key alone. When jobs with one key ask for the same change, an
apply is answered as already applied only after a run that committed every statement of
that change (`replays_own_change`); a second job with the key of another one is answered
as applied without any statement of its own.
-/
namespace SynapsorRunner.SourceReceipts
open SynapsorRunner.Protocol SynapsorRunner.Proposals SynapsorRunner.Compensation SynapsorRunner.Adapters
open SynapsorRunner.CommitOutcomes
open SynapsorRunner.Programs SynapsorRunner.Programs.Program

/-! ### The receipt table -/

structure Receipt where
  jobId : String
  proposalId : String
  status : String
  resultHash : Option Digest
  deriving DecidableEq

/-- The receipt table by its primary key. -/
abbrev Receipts := KeyedMap String Receipt

/-- A source between the calls of a run: the receipts as they are committed and as the
    transaction has them, the statements that touched rows of the target, and whether
    every answer was the one of the table. -/
structure Source where
  committed : Receipts
  pending : Receipts
  sent : List Statement
  landed : List Statement
  honest : Bool

def opened (table : Receipts) : Source := ⟨table, table, [], [], true⟩

def Source.land (s : Source) : Source := { s with committed := s.pending, landed := s.landed ++ s.sent, sent := [] }

def Source.abort (s : Source) : Source := { s with pending := s.committed, sent := [] }

/-- INSERT with ON CONFLICT DO NOTHING, or INSERT IGNORE. -/
def Source.claim (s : Source) (key jobId proposalId : String) (claimed : Nat) : Source :=
  if s.pending.contains key then { s with honest := s.honest && decide (claimed = 0) }
  else { s with
    pending := s.pending.set key ⟨jobId, proposalId, "in_progress", none⟩, honest := s.honest && decide (claimed = 1) }

def Source.record (s : Source) (key status : String) (resultHash : Digest) (updated : Nat) : Source :=
  match s.pending.get? key with
  | none => { s with honest := s.honest && decide (updated = 0) }
  | some receipt => { s with
    pending := s.pending.set key { receipt with status, resultHash := some resultHash }
    honest := s.honest && decide (updated = 1) }

def Source.look (s : Source) (key : String) (found : Option ReceiptRow) : Source :=
  { s with honest := s.honest && decide (found.map (fun row => (row.status, row.resultHash)) =
      (s.pending.get? key).map fun receipt => (receipt.status, receipt.resultHash)) }

/-- What a call does to the source. A COMMIT that throws may have gone through (`lands`). -/
def after (lands : Bool) (s : Source) : SourceCallRun → Source
  | ⟨.begin, .ok _⟩ => s.abort
  | ⟨.claimReceipt key jobId proposalId, .ok claimed⟩ => s.claim key jobId proposalId claimed
  | ⟨.readReceipt key, .ok found⟩ => s.look key found
  | ⟨.recordReceipt key status resultHash, .ok updated⟩ => s.record key status resultHash updated
  | ⟨.mutate statement _, .ok affected⟩ => if affected.count = 0 then s else { s with sent := s.sent ++ [statement] }
  | ⟨.commit, .ok _⟩ => s.land
  | ⟨.commit, .error _⟩ => if lands then s.land else s
  | ⟨.rollback, _⟩ => s.abort
  | _ => s

/-! ### Applies in sequence -/

/-- The change that a job asks for on its target. -/
inductive Change where
  | row (patch : Record)
  | set (patch : Record) (frozenSet : FrozenSet)
  | reversal (compensation : InverseDescriptor)
  deriving DecidableEq

def change : WritebackJob → Change
  | .v1 job => .row job.patch
  | .v2 job => .row job.patch
  | .v3 job => .set job.patch job.frozenSet
  | .v4 job => .reversal job.compensation

/-- The same proposal, target and change. -/
def SameWork (job other : WritebackJob) : Prop :=
  job.proposalId = other.proposalId ∧ job.target = other.target ∧ job.operation = other.operation ∧
    change job = change other

/-- A run of an adapter on a job, against the receipts that it finds. -/
structure SourceRun where
  engine : Engine
  config : RunnerConfig
  job : WritebackJob
  found : Receipts
  lands : Bool
  trace : SourceTrace
  ended : Except AdapterError WritebackResult

/-- The source after a run. -/
def SourceRun.left (run : SourceRun) : Source := run.trace.foldl (after run.lands) (opened run.found)

/-- The run committed the statements of its job. -/
def SourceRun.Committed (run : SourceRun) : Prop := run.left.landed = statements run.engine run.job

/-- Runs with receipts in the source, one after another against one source that answers
    from its receipt table. -/
inductive History (rt : SourceRuntime) : List SourceRun → Receipts → Prop where
  | start : History rt [] .empty
  | next {runs : List SourceRun} (run : SourceRun) (history : History rt runs run.found)
      (authority : receiptAuthority run.config = .sourceDb)
      (ran : (applyJob rt run.engine run.config run.job).Run run.trace run.ended) (honest : run.left.honest = true) :
      History rt (runs ++ [run]) run.left.committed

/-- The answer that an earlier run has applied the job. -/
def SourceRun.Replays (run : SourceRun) : Prop := ∃ result, run.ended = .ok result ∧ result.status = .alreadyApplied

/-- Every replay follows a run that committed the same change. -/
def ReplaysOwnChange (runs : List SourceRun) : Prop :=
  ∀ earlier run later, runs = earlier ++ run :: later → run.Replays →
    ∃ first ∈ earlier, first.Committed ∧ SameWork first.job run.job

/-- Jobs with one idempotency key ask for the same change. -/
def KeysNameChanges (runs : List SourceRun) : Prop :=
  ∀ first ∈ runs, ∀ second ∈ runs, first.job.idempotencyKey = second.job.idempotencyKey → SameWork first.job second.job

/-! ### What a mutation sends -/

/-- A source with other statements sent. -/
def Sends (s s' : Source) : Prop := ∃ sent, s' = { s with sent }

theorem after_reads {q : SourceCall} (reads : q.Reads) (lands : Bool) (s : Source)
    (answer : Except AdapterError (Answer q)) : after lands s ⟨q, answer⟩ = s := by
  cases q <;> first | exact reads.elim | (cases answer <;> rfl)

section
variable {rt : SourceRuntime} {engine : Engine} {config : RunnerConfig} {job : WritebackJob} {lands : Bool} {α : Type}

theorem wp_reads {p : Adapter α} (calls : p.Calls SourceCall.Reads) {R : α → Source → Prop}
    {E : AdapterError → Source → Prop} {s : Source} (returns : ∀ a, R a s) (throws : ∀ err, E err s) :
    p.wp (after lands) R E s := by
  refine wp_mono ?_ ?_ (calls.wp_unnoticed (fun s' c reads => after_reads reads lands s' c.answer) s)
  · rintro a s' rfl
    exact returns a
  · rintro err s' rfl
    exact throws err

theorem wp_checked {x : Except String α} {R : α → Source → Prop} {E : AdapterError → Source → Prop} {s : Source}
    (returns : ∀ a, x = .ok a → R a s) (throws : ∀ message, x = .error message → E (.thrown message) s) :
    (required x).wp (after lands) R E s := by
  cases x with
  | error message => exact throws message rfl
  | ok a => exact returns a rfl

/-- A statement that touches one row is sent. -/
theorem wp_sendStatement (statement : Statement) (returning : Option Column) {R : Affected → Source → Prop} {s : Source}
    (goes : ∀ affected, affected.count = 1 → R affected { s with sent := s.sent ++ [statement] })
    (stops : ∀ affected sent, affected.count ≠ 1 → R affected { s with sent }) :
    (send (.mutate statement returning)).wp (after lands) R (fun _ s' => Sends s s') s := by
  refine (wp_ask _).mpr ⟨?_, fun _ => ⟨s.sent, rfl⟩⟩
  intro affected
  by_cases one : affected.count = 1
  · have sent : after lands s ⟨.mutate statement returning, .ok affected⟩ = { s with sent := s.sent ++ [statement] } := by
      simp [after, one]
    rw [sent]
    exact goes affected one
  · have sent : ∃ sent, after lands s ⟨.mutate statement returning, .ok affected⟩ = { s with sent } := by
      simp only [after]
      split
      · exact ⟨s.sent, rfl⟩
      · exact ⟨_, rfl⟩
    obtain ⟨sent, same⟩ := sent
    rw [same]
    exact stops affected sent one

theorem Sends.append {s s' : Source} {more : List Statement} (sends : Sends { s with sent := s.sent ++ more } s') :
    Sends s s' := by
  obtain ⟨sent, rfl⟩ := sends
  exact ⟨sent, rfl⟩

theorem wp_writeRow (row : RowJob) (s : Source) :
    (writeRow rt engine row).wp (after lands)
      (fun outcome s' => outcome.status = .applied ∧ s' = { s with sent := s.sent ++ (buildRow engine row).toOption.toList })
      (fun _ s' => Sends s s') s := by
  rw [writeRow, wp_bind]
  refine wp_checked (fun statement built => ?_) fun _ _ => ⟨s.sent, rfl⟩
  rw [built, wp_bind]
  refine wp_sendStatement statement _ ?_ ?_
  · intro affected one
    rw [wp_bind]
    refine wp_checked (fun _ _ => ?_) fun _ _ => ⟨_, rfl⟩
    rw [wp_bind]
    refine wp_reads (calls_writtenVersion engine row affected) (fun version => ?_) fun _ => ⟨_, rfl⟩
    rw [wp_bind]
    refine wp_checked (fun _ _ => ?_) fun _ _ => ⟨_, rfl⟩
    rw [wp_bind]
    refine wp_checked (fun inserted _ => ⟨?_, rfl⟩) fun _ _ => ⟨_, rfl⟩
    unfold rowOutcome
    cases row.operation <;> rfl
  · intro affected sent other
    rw [wp_bind]
    exact wp_checked (fun _ passed => absurd other (throwIf_ok_iff.mp passed)) fun _ _ => ⟨sent, rfl⟩

/-- The members of a set are written one by one. -/
theorem wp_members {β : Type} {turn : α → Adapter β} {build : α → Except String Statement}
    (step : ∀ m s, (turn m).wp (after lands) (fun _ s' => s' = { s with sent := s.sent ++ (build m).toOption.toList })
      (fun _ s' => Sends s s') s) (members : List α) (s : Source) :
    (each turn members).wp (after lands)
      (fun _ s' => s' = { s with sent := s.sent ++ members.filterMap fun m => (build m).toOption })
      (fun _ s' => Sends s s') s := by
  induction members generalizing s with
  | nil =>
    show s = _
    simp
  | cons m rest ih =>
    rw [each, wp_bind]
    refine wp_mono ?_ (fun _ _ sends => sends) (step m s)
    rintro _ s' rfl
    rw [wp_bind]
    refine wp_mono ?_ (fun _ _ => Sends.append) (ih _)
    rintro _ s'' rfl
    show _ = _
    rw [List.filterMap_cons]
    cases (build m).toOption <;> simp

theorem wp_writeMember (set : SetJob) (m : FrozenSetMember) (s : Source) :
    (writeMember rt engine set m).wp (after lands)
      (fun _ s' => s' = { s with sent := s.sent ++ (buildMember engine set m).toOption.toList })
      (fun _ s' => Sends s s') s := by
  rw [writeMember, wp_bind]
  refine wp_checked (fun statement built => ?_) fun _ _ => ⟨s.sent, rfl⟩
  rw [built, wp_bind]
  refine wp_sendStatement statement _ ?_ ?_
  · intro affected one
    rw [wp_bind]
    exact wp_checked (fun _ _ => rfl) fun _ _ => ⟨_, rfl⟩
  · intro affected sent other
    rw [wp_bind]
    refine wp_checked (fun _ passed => ?_) fun _ _ => ⟨sent, rfl⟩
    exact absurd (not_not.mp (throwIf_ok_iff.mp passed)).1 other

theorem wp_writeCompensationMember (reversal : CompensationJob) (m : InverseMember) (s : Source) :
    (writeCompensationMember rt engine reversal m).wp (after lands)
      (fun _ s' => s' = { s with sent := s.sent ++ (buildCompensation engine reversal m).toOption.toList })
      (fun _ s' => Sends s s') s := by
  rw [writeCompensationMember, wp_bind]
  refine wp_checked (fun statement built => ?_) fun _ _ => ⟨s.sent, rfl⟩
  rw [built, wp_bind]
  refine wp_sendStatement statement _ ?_ ?_
  · intro affected one
    rw [wp_bind]
    refine wp_checked (fun _ _ => ?_) fun _ _ => ⟨_, rfl⟩
    rw [wp_bind]
    exact wp_checked (fun _ _ => rfl) fun _ _ => ⟨_, rfl⟩
  · intro affected sent other
    rw [wp_bind]
    exact wp_checked (fun _ passed => absurd other (throwIf_ok_iff.mp passed)) fun _ _ => ⟨sent, rfl⟩

/-- A write that returns has sent the statements of the job. -/
theorem wp_write (job : WritebackJob) (s : Source) :
    (write rt engine job).wp (after lands)
      (fun outcome s' => outcome.status = .applied ∧ s' = { s with sent := s.sent ++ statements engine job })
      (fun _ s' => Sends s s') s := by
  cases job with
  | v1 job => exact wp_writeRow (LegacyJob.toRowJob job) s
  | v2 job => exact wp_writeRow job s
  | v3 set =>
    show (writeSet rt engine set).wp _ _ _ s
    rw [writeSet, wp_bind]
    refine wp_mono ?_ (fun _ _ sends => sends) (wp_members (wp_writeMember set) set.frozenSet.members s)
    rintro effects s' rfl
    exact ⟨rfl, rfl⟩
  | v4 reversal =>
    show (writeCompensation rt engine reversal).wp _ _ _ s
    rw [writeCompensation, wp_bind]
    refine wp_mono ?_ (fun _ _ sends => sends)
      (wp_members (wp_writeCompensationMember reversal) reversal.compensation.members s)
    rintro effects s' rfl
    rw [wp_bind]
    exact wp_checked (fun inverse _ => ⟨rfl, rfl⟩) fun _ _ => ⟨_, rfl⟩

/-! ### What a mutation ends in -/

/-- Nothing was sent for a refused job, which is a conflict or a failure. -/
def Refused (refused : Option MutationOutcome) : Prop :=
  ∀ outcome ∈ refused, outcome.status = .conflict ∨ outcome.status = .failed

theorem refused_none : Refused none := by simp [Refused]

theorem refused_conflict (code : Option String) (identity : List ColumnValue) :
    Refused (some (outcomeOf .conflict code identity)) := by
  rintro outcome ⟨⟩
  exact .inl rfl

theorem refused_blockedBy (identity : List ColumnValue) (code : Option String) : Refused (blockedBy identity code) := by
  intro outcome blocked
  obtain ⟨code, -, rfl⟩ := Option.map_eq_some_iff.mp blocked
  exact .inr rfl

theorem refused_rowConflict (rt : SourceRuntime) (engine : Engine) (row : RowJob) (found : Option DbRow) :
    Refused (rowConflict rt engine row found) := by
  unfold rowConflict
  cases found with
  | none => exact refused_conflict _ _
  | some found =>
    simp only
    split
    · rintro outcome ⟨⟩
      exact .inl rfl
    · split
      · exact refused_none
      · exact refused_conflict _ _

theorem returns_rowRefused (row : RowJob) : (rowRefusal rt engine row).Returns Refused := by
  unfold rowRefusal
  cases row.operation with
  | insert =>
    show (insertRefusal engine row).Returns Refused
    unfold insertRefusal
    cases row.deduplication with
    | none => trivial
    | some components =>
      refine returns_after fun _ => returns_after fun rows => (returns_pure _).mpr ?_
      intro outcome found
      obtain ⟨first, -, rfl⟩ := Option.map_eq_some_iff.mp found
      exact .inl rfl
  | update => exact returns_after fun found => refused_rowConflict rt engine row found
  | delete =>
    refine returns_after fun found => ?_
    cases conflict : rowConflict rt engine row found with
    | some outcome =>
      have refused := refused_rowConflict rt engine row found
      rw [conflict] at refused
      exact refused
    | none => exact returns_after fun code => refused_blockedBy _ code

theorem returns_setRefused (set : SetJob) : (setRefusal rt engine set).Returns Refused := by
  refine returns_after fun _ => ?_
  split
  · refine returns_after fun _ => returns_findSome fun m _ => returns_after fun rows => (returns_pure _).mpr ?_
    split
    · exact refused_none
    · exact refused_conflict _ _
  · refine returns_after fun locked => ?_
    split
    · exact refused_conflict _ _
    split
    · exact returns_after fun code => refused_blockedBy _ code
    · exact refused_none

theorem returns_compensationRefused (reversal : CompensationJob) :
    (compensationRefusal rt engine reversal).Returns Refused := by
  refine returns_after fun _ => returns_after fun rows => ?_
  cases compensationConflict rt reversal rows with
  | some code => exact refused_conflict _ _
  | none =>
    simp only
    split
    · exact refused_none
    · exact returns_after fun code => refused_blockedBy _ code

theorem returns_refused (job : WritebackJob) : (refusal rt engine job).Returns Refused := by
  refine returns_after fun stale => ?_
  cases stale with
  | some code => exact refused_conflict _ _
  | none =>
    show (targetRefusal rt engine job).Returns Refused
    cases job with
    | v1 job => exact returns_rowRefused (LegacyJob.toRowJob job)
    | v2 job => exact returns_rowRefused job
    | v3 set => exact returns_setRefused set
    | v4 reversal => exact returns_compensationRefused reversal

/-- What a mutation has sent, by its outcome. -/
def Sent (engine : Engine) (job : WritebackJob) (s : Source) (status : WritebackStatus) (s' : Source) : Prop :=
  status = .applied ∧ s' = { s with sent := s.sent ++ statements engine job } ∨
    (status = .conflict ∨ status = .failed) ∧ s' = s

theorem wp_mutateSent (job : WritebackJob) (s : Source) :
    (mutate rt engine job).wp (after lands) (fun outcome s' => Sent engine job s outcome.status s')
      (fun _ s' => Sends s s') s := by
  have keeps : ∀ s' c, SourceCall.Reads c.query → s' = s → after lands s' c = s := by
    rintro s' c reads rfl
    exact after_reads reads lands s' c.answer
  rw [mutate, wp_bind]
  refine wp_mono ?_ ?_ ((calls_refusal rt engine job).wp_returns keeps rfl (returns_refused job))
  · rintro refused s' ⟨none, rfl⟩
    cases refused with
    | some outcome => exact .inr ⟨none outcome rfl, rfl⟩
    | none => exact wp_mono (fun outcome s'' => .inl) (fun _ _ sends => sends) (wp_write job s')
  · rintro err s' rfl
    exact ⟨s'.sent, rfl⟩

/-! ### What a run leaves -/

/-- A status that is answered as already applied. -/
def SaysApplied (status : String) : Prop := status = "applied" ∨ status = "already_applied"

/-- The receipts that say applied are of before, or of the job whose statements landed. -/
def Truthful (engine : Engine) (job : WritebackJob) (found : Receipts) (s : Source) : Prop :=
  ∀ key receipt, s.committed.get? key = some receipt → SaysApplied receipt.status →
    found.get? key = some receipt ∨ key = job.idempotencyKey ∧ s.landed = statements engine job

/-- A replay has found a receipt that says applied under the key of the job. -/
def Replayed (job : WritebackJob) (found : Receipts) (result : WritebackResult) : Prop :=
  result.status = .alreadyApplied → ∃ receipt, found.get? job.idempotencyKey = some receipt ∧ SaysApplied receipt.status

/-- A transaction that has changed nothing yet that counts. -/
def Kept (found : Receipts) (s : Source) : Prop := s.committed = found ∧ s.landed = []

/-- A transaction that may be committed. -/
def Ready (engine : Engine) (job : WritebackJob) (found : Receipts) (s : Source) : Prop :=
  Kept found s ∧ ∀ key receipt, s.pending.get? key = some receipt → SaysApplied receipt.status →
    found.get? key = some receipt ∨ key = job.idempotencyKey ∧ s.sent = statements engine job

variable {found : Receipts}

theorem truthful_of_kept {s : Source} (kept : Kept found s) : Truthful engine job found s := by
  intro key receipt here _
  rw [kept.1] at here
  exact .inl here

theorem truthful_of_ready {s : Source} (ready : Ready engine job found s) : Truthful engine job found s.land := by
  intro key receipt here applied
  refine (ready.2 key receipt here applied).imp_right ?_
  rintro ⟨own, sent⟩
  refine ⟨own, ?_⟩
  rw [Source.land, ready.1.2, sent]
  rfl

/-- An answer that is not the one of the table is not taken back. -/
theorem after_dishonest {s : Source} (dishonest : s.honest = false) (c : SourceCallRun) :
    (after lands s c).honest = false := by
  unfold after
  split
  · exact dishonest
  · unfold Source.claim
    split <;> simp [dishonest]
  · simp [Source.look, dishonest]
  · unfold Source.record
    split <;> simp [dishonest]
  · split <;> exact dishonest
  · exact dishonest
  · split <;> exact dishonest
  · exact dishonest
  · exact dishonest

theorem wp_dishonest (p : Adapter α) {s : Source} (dishonest : s.honest = false) {R : α → Source → Prop}
    {E : AdapterError → Source → Prop} (returns : ∀ a s', s'.honest = false → R a s')
    (throws : ∀ err s', s'.honest = false → E err s') : p.wp (after lands) R E s := by
  induction p generalizing s with
  | done a => exact returns a s dishonest
  | fail err => exact throws err s dishonest
  | call q next ih => exact fun answer => ih answer (after_dishonest dishonest ⟨q, answer⟩)

/-- The receipt of a claimed key. -/
def claimedReceipt (job : WritebackJob) : Receipt := ⟨job.jobId, job.proposalId, "in_progress", none⟩

def claimedSource (job : WritebackJob) (found : Receipts) : Source :=
  { opened found with pending := found.set job.idempotencyKey (claimedReceipt job) }

theorem replayed_of_receipt {job : WritebackJob} {receipt : Receipt} {row : ReceiptRow} {hash : Option Digest}
    {result : WritebackResult} (here : found.get? job.idempotencyKey = some receipt) (same : row.status = receipt.status)
    (built : resultFromExistingReceipt rt engine config job row.status hash = .ok result) : Replayed job found result := by
  intro replay
  refine ⟨receipt, here, ?_⟩
  rw [← same]
  unfold resultFromExistingReceipt at built
  simp only at built
  split at built
  · assumption
  · split at built
    · rw [status_resultFromOutcome built] at replay
      cases replay
    · split at built <;> cases built <;> rw [status_failedResult] at replay <;> cases replay

/-- What the claim of a key has found. -/
def Claimed (job : WritebackJob) (found : Receipts) (existing : Option WritebackResult) (s : Source) : Prop :=
  s.honest = true → match existing with
    | some result => s = opened found ∧ Replayed job found result
    | none => s = claimedSource job found

theorem claim_present {key jobId proposalId : String} {claimed : Nat} (present : found.contains key = true) :
    (opened found).claim key jobId proposalId claimed = { opened found with honest := decide (claimed = 0) } := by
  simp [Source.claim, opened, present]

theorem claim_absent {claimed : Nat} (absent : found.contains job.idempotencyKey = false) :
    (opened found).claim job.idempotencyKey job.jobId job.proposalId claimed =
      { claimedSource job found with honest := decide (claimed = 1) } := by
  simp [Source.claim, claimedSource, claimedReceipt, opened, absent]

/-- The receipt under a key that was taken. -/
theorem wp_readReceipt {receipt : Receipt} (here : found.get? job.idempotencyKey = some receipt) :
    (do
      let row ← send (.readReceipt job.idempotencyKey)
      match row with
      | none => pure (some (failedResult rt engine config job "SOURCE_RECEIPT_UNAVAILABLE"))
      | some row => do
        let result ← required (resultFromExistingReceipt rt engine config job row.status row.resultHash)
        pure (some result) : Adapter (Option WritebackResult)).wp (after lands) (Claimed job found)
      (fun _ s => s.honest = true → s = opened found) (opened found) := by
  rw [wp_bind]
  refine (wp_ask _).mpr ⟨?_, fun _ _ => rfl⟩
  intro row
  have state : after lands (opened found) ⟨.readReceipt job.idempotencyKey, .ok row⟩ = { opened found with
      honest := decide (row.map (fun row => (row.status, row.resultHash)) =
        some (receipt.status, receipt.resultHash)) } := by
    show (opened found).look _ _ = _
    simp [Source.look, opened, here]
  rw [state]
  cases row with
  | none =>
    intro honest
    cases honest
  | some row =>
    rw [wp_bind]
    refine wp_checked ?_ ?_
    · intro result built honest
      have same : row.status = receipt.status ∧ row.resultHash = receipt.resultHash := by simpa using honest
      refine ⟨?_, replayed_of_receipt here same.1 built⟩
      rw [show decide _ = true from honest]
      rfl
    · intro message _ honest
      rw [show decide _ = true from honest]
      rfl

theorem wp_claimSourceReceipt :
    (claimSourceReceipt rt engine config job).wp (after lands) (Claimed job found)
      (fun _ s => s.honest = true → s = opened found) (opened found) := by
  have lost : ∀ {s : Source}, s.honest = false → ∀ p : Adapter (Option WritebackResult),
      p.wp (after lands) (Claimed job found) (fun _ s => s.honest = true → s = opened found) s := by
    intro s dishonest p
    refine wp_dishonest p dishonest ?_ ?_
    · intro existing s' stays honest
      rw [stays] at honest
      cases honest
    · intro err s' stays honest
      rw [stays] at honest
      cases honest
  rw [claimSourceReceipt, wp_bind]
  refine (wp_ask _).mpr ⟨?_, fun _ _ => rfl⟩
  intro (claimed : Nat)
  show Program.wp (after lands) _ _ _ ((opened found).claim job.idempotencyKey job.jobId job.proposalId claimed)
  cases present : found.contains job.idempotencyKey with
  | true =>
    obtain ⟨receipt, here⟩ := Option.isSome_iff_exists.mp present
    rw [claim_present present]
    by_cases free : claimed = 0
    · subst free
      exact wp_readReceipt here
    · exact lost (decide_eq_false free) _
  | false =>
    rw [claim_absent present]
    by_cases own : claimed = 1
    · subst own
      exact fun _ => rfl
    · exact lost (decide_eq_false own) _

theorem saysApplied_text {status : WritebackStatus} (applied : SaysApplied status.text) :
    status = .applied ∨ status = .alreadyApplied := by
  revert applied
  unfold SaysApplied
  cases status <;> decide

/-- What a transaction ends in when it is answered from the table. -/
def Finished (engine : Engine) (job : WritebackJob) (found : Receipts) (result : WritebackResult) (s : Source) : Prop :=
  s.honest = true → Ready engine job found s ∧ Replayed job found result

theorem ready_of_recorded {s : Source} {status : WritebackStatus} (sent : Sent engine job (claimedSource job found) status s)
    (hash : Digest) (updated : Nat) : Ready engine job found (s.record job.idempotencyKey status.text hash updated) := by
  have claimed : s.pending = found.set job.idempotencyKey (claimedReceipt job) ∧ Kept found s := by
    rcases sent with ⟨-, rfl⟩ | ⟨-, rfl⟩ <;> exact ⟨rfl, rfl, rfl⟩
  have own : s.pending.get? job.idempotencyKey = some (claimedReceipt job) := by
    rw [claimed.1]
    exact KeyedMap.get?_set_self _ _ _
  rw [Source.record, own]
  refine ⟨claimed.2, ?_⟩
  intro key receipt here applied
  by_cases same : key = job.idempotencyKey
  · subst same
    refine .inr ⟨rfl, ?_⟩
    simp only [KeyedMap.get?_set_self, Option.some.injEq] at here
    rw [← here] at applied
    have wrote : status = .applied := by
      rcases sent with ⟨status, -⟩ | ⟨refused, -⟩
      · exact status
      · rcases saysApplied_text applied with rfl | rfl <;> simp at refused
    rcases sent with ⟨-, rfl⟩ | ⟨refused, -⟩
    · rfl
    · rw [wrote] at refused
      simp at refused
  · left
    simpa only [KeyedMap.get?_set_of_ne _ _ same, claimed.1] using here

theorem wp_mutateAndRecord :
    (mutateAndRecord rt engine config job).wp (after lands) (Finished engine job found) (fun _ s => Kept found s)
      (claimedSource job found) := by
  rw [mutateAndRecord, wp_bind]
  refine wp_mono ?_ ?_ (wp_mutateSent job (claimedSource job found))
  · intro outcome s sent
    have kept : Kept found s := by
      rcases sent with ⟨-, rfl⟩ | ⟨-, rfl⟩ <;> exact ⟨rfl, rfl⟩
    rw [wp_bind]
    refine wp_checked (fun result built => ?_) fun _ _ => kept
    have status : result.status ≠ .alreadyApplied := by
      rw [status_resultFromOutcome built]
      rcases sent with ⟨applied, -⟩ | ⟨conflict | failed, -⟩ <;> simp [*]
    simp only [recordSourceReceipt, wp_bind, wp_pure]
    refine (wp_ask _).mpr ⟨?_, fun _ => kept⟩
    intro updated
    have ready := ready_of_recorded sent (resultHashFromResult rt job result) updated
    refine wp_checked (fun _ _ _ => ⟨ready, fun replay => absurd replay status⟩) fun _ _ => ready.1
  · rintro err s ⟨sent, rfl⟩
    exact ⟨rfl, rfl⟩

theorem wp_applyOnce :
    (applyOnce rt engine config job).wp (after lands) (Finished engine job found)
      (fun _ s => s.honest = true → Kept found s) (opened found) := by
  rw [applyOnce, wp_bind]
  refine wp_mono ?_ ?_ wp_claimSourceReceipt
  · intro existing s claimed
    cases honest : s.honest with
    | false =>
      refine wp_dishonest _ honest ?_ ?_
      · intro result s' stays other
        rw [stays] at other
        cases other
      · intro err s' stays other
        rw [stays] at other
        cases other
    | true =>
      cases existing with
      | some result =>
        obtain ⟨rfl, replayed⟩ := claimed honest
        exact fun _ => ⟨⟨⟨rfl, rfl⟩, fun key receipt here _ => .inl here⟩, replayed⟩
      | none =>
        rw [show s = claimedSource job found from claimed honest]
        exact wp_mono (fun _ _ finished => finished) (fun _ _ kept _ => kept) wp_mutateAndRecord
  · intro err s same honest
    rw [same honest]
    exact ⟨rfl, rfl⟩

/-- What a run leaves, whatever it ends in. -/
def Leaves (engine : Engine) (job : WritebackJob) (found : Receipts) (s : Source) : Prop :=
  s.honest = true → Truthful engine job found s

theorem wp_prepares {p : Adapter α} (calls : p.Calls Prepares) {R : α → Source → Prop} {E : AdapterError → Source → Prop}
    {s : Source} (returns : ∀ a, R a s) (throws : ∀ err, E err s) : p.wp (after lands) R E s := by
  have unnoticed : ∀ s' c, Prepares c.query → after lands s' c = s' := by
    rintro s' ⟨query, answer⟩ prepares
    cases query <;> first | exact prepares.elim | (cases answer <;> rfl)
  refine wp_mono ?_ ?_ (calls.wp_unnoticed unnoticed s)
  · rintro a s' rfl
    exact returns a
  · rintro err s' rfl
    exact throws err

theorem wp_rollback {err : AdapterError} {s : Source} (leaves : s.honest = true → Truthful engine job found s)
    {R : α → Source → Prop} :
    (rollbackSource engine err : Adapter α).wp (after lands) R (fun _ s => Leaves engine job found s) s := by
  unfold rollbackSource
  split
  · rw [wp_bind, wp_tryCatch]
    exact (wp_ask _).mpr ⟨fun _ => leaves, fun _ => leaves⟩
  · exact leaves

theorem wp_commit {s : Source} (ready : s.honest = true → Ready engine job found s) {R : Unit → Source → Prop}
    (returns : R () s.land) :
    commitSource.wp (after lands) R (fun _ s => Leaves engine job found s) s := by
  rw [commitSource, wp_tryCatch]
  refine (wp_ask _).mpr ⟨fun _ => returns, fun _ => ?_⟩
  show Leaves engine job found (if lands then s.land else s)
  split
  · exact fun honest => truthful_of_ready (ready honest)
  · exact fun honest => truthful_of_kept (ready honest).1

/-- A transaction without hooks. -/
theorem wp_transaction :
    (sourceTransaction rt engine config job false (applyOnce rt engine config job)).wp (after lands)
      (fun result s => s.honest = true → Truthful engine job found s ∧ Replayed job found result)
      (fun _ s => Leaves engine job found s) (opened found) := by
  have fresh : Leaves engine job found (opened found) := fun _ => truthful_of_kept ⟨rfl, rfl⟩
  have begun : (do
      send .begin
      tryCatch (transactionBody rt engine config job false (applyOnce rt engine config job)) (rollbackSource engine) :
      Adapter WritebackResult).wp (after lands)
      (fun result s => s.honest = true → Truthful engine job found s ∧ Replayed job found result)
      (fun _ s => Leaves engine job found s) (opened found) := by
    rw [wp_bind]
    refine (wp_ask _).mpr ⟨?_, fun _ => fresh⟩
    intro answered
    show Program.wp (after lands) _ _ _ (opened found)
    rw [wp_tryCatch]
    refine wp_mono (fun _ _ ended => ended) (fun _ _ leaves => wp_rollback leaves) ?_
    rw [transactionBody, wp_bind]
    refine wp_prepares calls_prepareTransaction (fun _ => ?_) fun _ => fresh
    show Program.wp (after lands) (applyOnce rt engine config job >>= _) _ _ (opened found)
    rw [wp_bind]
    refine wp_mono ?_ (fun _ _ kept honest => truthful_of_kept (kept honest)) wp_applyOnce
    intro result s finished
    show Program.wp (after lands) (commitSource >>= _) _ _ s
    rw [wp_bind]
    refine wp_commit (fun honest => (finished honest).1) ?_
    exact fun honest => ⟨truthful_of_ready (finished honest).1, (finished honest).2⟩
  unfold sourceTransaction
  split
  · rw [wp_bind]
    exact wp_prepares calls_setTimeouts (fun _ => begun) fun _ => fresh
  · exact begun

theorem wp_applyWithSourceReceipt :
    (applyWithSourceReceipt rt engine config job).wp (after lands)
      (fun result s => s.honest = true → Truthful engine job found s ∧ Replayed job found result)
      (fun _ s => Leaves engine job found s) (opened found) := by
  have caught : (tryCatch (sourceTransaction rt engine config job false (applyOnce rt engine config job)) fun e =>
      if e = .sourceOutcomeUnknown then
        pure (reconciliationResult rt engine config job (sourceReconciliationIntentId rt engine job) "OUTCOME_UNKNOWN")
      else throw e).wp (after lands)
      (fun result s => s.honest = true → Truthful engine job found s ∧ Replayed job found result)
      (fun _ s => Leaves engine job found s) (opened found) := by
    rw [wp_tryCatch]
    refine wp_mono (fun _ _ ended => ended) ?_ wp_transaction
    intro err s leaves
    split
    · intro honest
      refine ⟨leaves honest, fun replay => ?_⟩
      rw [status_reconciliationResult] at replay
      cases replay
    · exact leaves
  unfold applyWithSourceReceipt
  split
  · rw [wp_bind]
    refine (wp_ask _).mpr ⟨fun _ => caught, fun _ _ => truthful_of_kept ⟨rfl, rfl⟩⟩
  · exact caught

/-- A run with receipts in the source leaves truthful receipts, and replays what the receipt
    table says. -/
theorem wp_applyJob (authority : receiptAuthority config = .sourceDb) :
    (applyJob rt engine config job).wp (after lands)
      (fun result s => s.honest = true → Truthful engine job found s ∧ Replayed job found result)
      (fun _ s => Leaves engine job found s) (opened found) := by
  have fresh : Leaves engine job found (opened found) := fun _ => truthful_of_kept ⟨rfl, rfl⟩
  have failed : ∀ engine' code s, Leaves engine job found s → s.honest = true →
      Truthful engine job found s ∧ Replayed job found (failedResult rt engine' config job code) := by
    intro engine' code s leaves honest
    refine ⟨leaves honest, fun replay => ?_⟩
    rw [status_failedResult] at replay
    cases replay
  have connected : ∀ (R : WritebackResult → Source → Prop) (E : AdapterError → Source → Prop),
      (∀ result s, (s.honest = true → Truthful engine job found s ∧ Replayed job found result) → R result s) →
      (∀ err s, Leaves engine job found s → E err s) →
      (applyConnected rt engine config job).wp (after lands) R E (opened found) := by
    intro R E returns throws
    rw [applyConnected, wp_bind]
    refine wp_checked (fun _ _ => ?_) fun _ _ => throws _ _ fresh
    rw [if_neg (by rw [authority]; decide)]
    exact wp_mono returns throws wp_applyWithSourceReceipt
  unfold applyJob
  simp only
  split
  · refine wp_checked (fun result built honest => ⟨fresh honest, fun replay => ?_⟩) fun _ _ => fresh
    obtain ⟨_, -, rest⟩ := bind_eq_ok built
    rw [status_resultFromOutcome rest] at replay
    cases job <;> cases replay
  split
  · exact failed _ _ _ fresh
  cases engine with
  | postgres =>
    rw [wp_tryCatch, wp_bind]
    refine (wp_ask _).mpr ⟨fun _ => ?_, fun _ => failed _ _ _ fresh⟩
    exact connected _ _ (fun _ _ ended => ended) fun _ s leaves => failed _ _ s leaves
  | mysql =>
    rw [wp_bind]
    refine (wp_ask _).mpr ⟨fun _ => ?_, fun _ => fresh⟩
    show Program.wp (after lands) (tryCatch _ _) _ _ (opened found)
    rw [wp_tryCatch]
    exact connected _ _ (fun _ _ ended => ended) fun _ s leaves => failed _ _ s leaves

/-! ### Histories -/

/-- What a run leaves and answers. -/
theorem run_leaves {run : SourceRun} (authority : receiptAuthority run.config = .sourceDb)
    (ran : (applyJob rt run.engine run.config run.job).Run run.trace run.ended) (honest : run.left.honest = true) :
    Truthful run.engine run.job run.found run.left ∧
      ∀ result, run.ended = .ok result → Replayed run.job run.found result := by
  have holds : (applyJob rt run.engine run.config run.job).wp (after run.lands) _ _ (opened run.found) :=
    wp_applyJob authority
  have runs := wp_iff_run.mp holds
  cases ended : run.ended with
  | ok result =>
    rw [ended] at ran
    obtain ⟨truthful, replayed⟩ := runs.1 result run.trace ran honest
    refine ⟨truthful, ?_⟩
    rintro other ⟨⟩
    exact replayed
  | error err =>
    rw [ended] at ran
    exact ⟨runs.2 err run.trace ran honest, fun other none => by cases none⟩

/-- Every receipt that says applied is of a run that committed its job. -/
theorem history_truthful {runs : List SourceRun} {table : Receipts} (history : History rt runs table) :
    ∀ key receipt, table.get? key = some receipt → SaysApplied receipt.status →
      ∃ run ∈ runs, run.job.idempotencyKey = key ∧ run.Committed := by
  induction history with
  | start =>
    intro key receipt here
    cases here
  | next run history authority ran honest ih =>
    intro key receipt here applied
    rcases (run_leaves authority ran honest).1 key receipt here applied with before | ⟨own, landed⟩
    · obtain ⟨first, member, committed⟩ := ih key receipt before applied
      exact ⟨first, List.mem_append_left _ member, committed⟩
    · exact ⟨run, by simp, own.symm, landed⟩

/-- The last run of a history replays a run with its key. -/
theorem next_replays {runs : List SourceRun} {run : SourceRun} (history : History rt runs run.found)
    (authority : receiptAuthority run.config = .sourceDb)
    (ran : (applyJob rt run.engine run.config run.job).Run run.trace run.ended) (honest : run.left.honest = true)
    (replays : run.Replays) : ∃ first ∈ runs, first.job.idempotencyKey = run.job.idempotencyKey ∧ first.Committed := by
  obtain ⟨result, ended, replay⟩ := replays
  obtain ⟨receipt, here, applied⟩ := (run_leaves authority ran honest).2 result ended replay
  exact history_truthful history _ receipt here applied

end

/-! ### Two tickets under one key -/

def sourceRunner : RunnerConfig := { rehearsal with databaseUrl := "postgres://source", dryRun := false }

/-- The job that closes a ticket for a proposal. -/
def closeTicket (ticket proposalId : String) : WritebackJob :=
  .v1
    { jobId := "wbj_" ++ ticket, proposalId, approvalId := "sha256:bb", sourceId := "crm", engine := .postgres
      target := ⟨"public", "tickets", ⟨"id", some (.str ticket)⟩, ⟨"tenant_id", .str "acme"⟩, none⟩
      allowedColumns := ["status"], idempotencyKey := "close-ticket", attemptCount := 1
      patch := .ofList [("status", .str "closed")], conflictGuard := .versionColumn "version" (.num 3), freshness := none }

/-- A source with a receipt, or none, under the key that a run asks for. -/
def sourceWith (receipt : Option ReceiptRow) : (q : SourceCall) → Except AdapterError (Answer q)
  | .select _ => .ok [.empty]
  | .mutate _ _ => .ok ⟨1, none⟩
  | .claimReceipt _ _ _ => .ok (if receipt.isSome then 0 else 1)
  | .readReceipt _ => .ok receipt
  | .recordReceipt _ _ _ => .ok 1
  | .claimIntent _ _ => .error (.thrown "no ledger")
  | .inspectRls _ _ | .uniqueKeys _ => .ok []
  | .dependents _ | .visibility _ => .ok ⟨false, false⟩
  | .triggers _ | .cascades _ => .ok false
  | .connect | .migrateReceipts | .setting _ _ | .begin | .bindScope _ | .commit | .rollback | .markIntentApplying _ _
  | .completeIntent _ _ | .requireReconciliation _ _ | .failpoint _ => .ok ()

/-- The run that closes a ticket. -/
def closeRun (ticket proposalId : String) (found : Receipts) (receipt : Option ReceiptRow) : SourceRun :=
  let ran := (applyJob matchingRuntime .postgres sourceRunner (closeTicket ticket proposalId)).against (sourceWith receipt)
  { engine := .postgres, config := sourceRunner, job := closeTicket ticket proposalId, found, lands := true
    trace := ran.1, ended := ran.2 }

def firstRun : SourceRun := closeRun "7" "prop_1" .empty none
def againRun : SourceRun := closeRun "7" "prop_1" firstRun.left.committed (some ⟨"applied", some ⟨"00"⟩⟩)
def otherRun : SourceRun := closeRun "8" "prop_2" firstRun.left.committed (some ⟨"applied", some ⟨"00"⟩⟩)

theorem closeRun_next {runs : List SourceRun} {ticket proposalId : String} {found : Receipts} {receipt : Option ReceiptRow}
    (history : History matchingRuntime runs found) (honest : (closeRun ticket proposalId found receipt).left.honest = true) :
    History matchingRuntime (runs ++ [closeRun ticket proposalId found receipt])
      (closeRun ticket proposalId found receipt).left.committed :=
  .next (closeRun ticket proposalId found receipt) history rfl (run_against _ _) honest

theorem firstRun_history : History matchingRuntime [firstRun] firstRun.left.committed := closeRun_next .start rfl

theorem againRun_history : History matchingRuntime [firstRun, againRun] againRun.left.committed :=
  closeRun_next firstRun_history rfl

theorem otherRun_history : History matchingRuntime [firstRun, otherRun] otherRun.left.committed :=
  closeRun_next firstRun_history rfl

end SynapsorRunner.SourceReceipts
