import SynapsorRunner.IntentStores

/-!
The attempts of one proposal. Every attempt has its own job id, so its own
intent; all attempts of a proposal share the idempotency key. The claim of an
attempt finds the intent of that attempt and no other, so it is declined exactly
when that very intent has left `intent_recorded`
(`later_claim_declined_iff_own_attempt_crossed`). The SQLite table refuses a
second row for an idempotency key and lets no other attempt proceed
(`sqlite_claim_of_crossed_proposal`); the Postgres ledger has no such key.
-/
namespace SynapsorRunner.Intents
open SynapsorRunner.Protocol SynapsorRunner.Proposals SynapsorRunner.Runs

section
variable {σ : Type} {store : IntentStore σ} {Admits : σ → WritebackJob → Prop}

/-- The intent of a job has reached `applying` or a later status. -/
def Crossed (store : IntentStore σ) (s : σ) (identity : JobIdentity) : Prop :=
  ∃ i, store.getWritebackIntent s (intentIdOf identity.jobId) = some i ∧ i.identity = identity ∧
    i.status ≠ .intentRecorded

/-- Some attempt of a proposal has crossed. -/
def AttemptCrossed (store : IntentStore σ) (s : σ) (proposal : StoredProposal) : Prop :=
  ∃ attempt, 1 ≤ attempt ∧ Crossed store s (attemptIdentity proposal attempt)

theorem crossed_step (lawful : store.Lawful Admits) {s : σ} {identity : JobIdentity} (crossed : Crossed store s identity)
    (e : IntentEvent) : Crossed store (store.step s e) identity := by
  obtain ⟨i, found, same, moved⟩ := crossed
  obtain ⟨j, found', same', moved'⟩ := (lawful.row_step s e (intentIdOf identity.jobId)).advances i found
  exact ⟨j, found', same'.trans same, moved' moved⟩

/-- An attempt that has crossed stays so in every run. -/
theorem crossed_run (lawful : store.Lawful Admits) {s : σ} {identity : JobIdentity} (crossed : Crossed store s identity)
    (events : List IntentEvent) : Crossed store (run store.step s events) identity :=
  invariant (Crossed store · identity) (fun _ e crossed => crossed_step lawful crossed e) crossed events

theorem notCanceled_run (lawful : store.Lawful Admits) (s : σ)
    (start : ∀ intentId, NotCanceled (store.getWritebackIntent s intentId)) (events : List IntentEvent)
    (intentId : String) : NotCanceled (store.getWritebackIntent (run store.step s events) intentId) :=
  invariant (fun s => ∀ intentId, NotCanceled (store.getWritebackIntent s intentId))
    (fun s e before intentId => (lawful.row_step s e intentId).notCanceled (before intentId)) start events intentId

theorem admits_run (lawful : store.Lawful Admits) {s : σ} {job : WritebackJob} (start : Admits s job)
    (events : List IntentEvent) : Admits (run store.step s events) job :=
  invariant (Admits · job) (fun s e => lawful.admits_step s e job) start events

/-- A claim is declined exactly when the intent of its own job has crossed. -/
theorem declined_iff_crossed (lawful : store.Lawful Admits) {s : σ} {job : WritebackJob} {runnerId : String}
    (admits : Admits s job) (finished : NotCanceled (store.getWritebackIntent s (intentIdOf job.jobId))) :
    Declined (store.decision s job runnerId) ↔ Crossed store s (jobIdentity job) := by
  cases found : store.getWritebackIntent s (intentIdOf job.jobId) with
  | none =>
    refine ⟨fun declined => absurd declined (lawful.decision_absent s job runnerId found), ?_⟩
    rintro ⟨i, found', _⟩
    have absent : store.getWritebackIntent s (intentIdOf (jobIdentity job).jobId) = none := found
    rw [absent] at found'
    cases found'
  | some i =>
    rw [lawful.decision_existing s job runnerId i admits found, claimExisting_declined_iff]
    refine ⟨fun ⟨same, moved, _⟩ => ⟨i, found, same, moved⟩, ?_⟩
    rintro ⟨j, found', same, moved⟩
    have here : store.getWritebackIntent s (intentIdOf (jobIdentity job).jobId) = some i := found
    rw [here] at found'
    cases found'
    exact ⟨same, moved, finished _ found⟩

/-- Once an attempt of the proposal has crossed, a claim of the job is declined. -/
def LaterClaimDeclined (store : IntentStore σ) (start : σ) (proposal : StoredProposal) (job : WritebackJob)
    (runnerId : String) (before after : List IntentEvent) : Prop :=
  AttemptCrossed store (run store.step start before) proposal →
    Declined (store.decision (run store.step start (before ++ after)) job runnerId)

/-- Once an attempt of the proposal has crossed, the attempt being claimed is one
    that has. -/
def OwnAttemptCrossed (store : IntentStore σ) (start : σ) (proposal : StoredProposal) (job : WritebackJob)
    (before after : List IntentEvent) : Prop :=
  AttemptCrossed store (run store.step start before) proposal →
    Crossed store (run store.step start (before ++ after)) (jobIdentity job)

theorem laterClaimDeclined_iff (lawful : store.Lawful Admits) {start : σ} {proposal : StoredProposal} {job : WritebackJob}
    (admits : Admits start job) (finished : ∀ intentId, NotCanceled (store.getWritebackIntent start intentId))
    (runnerId : String) (before after : List IntentEvent) :
    LaterClaimDeclined store start proposal job runnerId before after ↔
      OwnAttemptCrossed store start proposal job before after :=
  forall_congr' fun _ =>
    declined_iff_crossed lawful (admits_run lawful admits _) (notCanceled_run lawful _ finished _ _)

end

/-- The SQLite store before its first intent. -/
def SqliteLedger.ofProposals (proposals : KeyedMap String StoredProposal) : SqliteLedger := ⟨proposals, .empty⟩

theorem SqliteLedger.admits_of_created {platform : Platform} {proposal : StoredProposal} {attempt : Nat} {job : WritebackJob}
    {proposals : KeyedMap String StoredProposal}
    (created : createWritebackJobFromProposal platform proposal attempt = .ok job)
    (stored : proposals.get? proposal.proposalId = some proposal) : (SqliteLedger.ofProposals proposals).Admits job := by
  have identity := createWritebackJobFromProposal_identity created
  have sameProposal : job.proposalId = proposal.proposalId := congrArg JobIdentity.proposalId identity
  have sameHash : job.approvalId = proposal.proposalHash := congrArg JobIdentity.approvalId identity
  refine ⟨proposal, ?_, createWritebackJobFromProposal_allowed created, sameHash.symm⟩
  rw [sameProposal]
  exact stored

/-! ### The idempotency key of the SQLite table -/

namespace SqliteLedger
variable {platform : Platform}

/-- Two rows with one idempotency key are the same row. -/
theorem row_unique {s : SqliteLedger} {a b : String} {i j : StoredWritebackIntent} (first : s.getWritebackIntent a = some i)
    (second : s.getWritebackIntent b = some j) (key : i.idempotencyKey = j.idempotencyKey) : i = j :=
  List.inj_on_of_nodup_map s.intents.idempotencyKeyUnique (KeyedMap.mem_values_of_get? first)
    (KeyedMap.mem_values_of_get? second) key

/-- A crossed intent keeps every job with its idempotency key from proceeding. -/
theorem decision_ne_proceed {s : SqliteLedger} {job : WritebackJob} {runnerId intentId crossedId : String}
    {i : StoredWritebackIntent} (found : s.getWritebackIntent crossedId = some i)
    (key : i.idempotencyKey = job.idempotencyKey) (moved : i.status ≠ .intentRecorded)
    (finished : i.status ≠ .canceled) :
    (sqliteIntentStore platform).decision s job runnerId ≠ .ok (.proceed intentId) := by
  intro proceeds
  simp only [IntentStore.decision, sqliteIntentStore] at proceeds
  cases claimed : s.claimWritebackIntent job runnerId with
  | error e => rw [claimed] at proceeds; cases proceeds
  | ok answer =>
    obtain ⟨d, s'⟩ := answer
    rw [claimed] at proceeds
    cases proceeds
    rcases claimWritebackIntent_ok claimed with ⟨j, own, decided, _⟩ | ⟨_, _, intents, inserted, _⟩
    · obtain ⟨_, matched, _⟩ := bind_eq_ok decided
      have same := assertIntentMatchesJob_ok_iff.mp matched
      obtain rfl := row_unique found own (key.trans (congrArg JobIdentity.idempotencyKey same).symm)
      have declined := claimExisting_declined_iff.mpr ⟨same, moved, finished⟩
      rw [decided] at declined
      rcases declined with ⟨_, _, other⟩ | ⟨_, _, other⟩ <;> cases other
    · refine (WritebackIntents.insert_ok inserted).2.1 ?_
      rw [List.mem_map]
      exact ⟨i, KeyedMap.mem_values_of_get? found, key⟩

/-- Once an attempt of a proposal has crossed, the SQLite store lets no claim of
    the proposal proceed. -/
theorem decision_ne_proceed_of_crossed {proposals : KeyedMap String StoredProposal} {proposal : StoredProposal}
    {attempt : Nat} {job : WritebackJob} (created : createWritebackJobFromProposal platform proposal attempt = .ok job)
    (before after : List IntentEvent) (runnerId intentId : String)
    (crossed : AttemptCrossed (sqliteIntentStore platform)
      (run (sqliteIntentStore platform).step (ofProposals proposals) before) proposal) :
    (sqliteIntentStore platform).decision
      (run (sqliteIntentStore platform).step (ofProposals proposals) (before ++ after)) job runnerId ≠
        .ok (.proceed intentId) := by
  have lawful := sqliteIntentStore_lawful platform
  obtain ⟨earlier, _, crossedEarlier⟩ := crossed
  obtain ⟨i, found, same, moved⟩ := crossed_run lawful crossedEarlier after
  rw [← run_append] at found
  have key : i.idempotencyKey = job.idempotencyKey :=
    (congrArg JobIdentity.idempotencyKey same).trans
      (congrArg JobIdentity.idempotencyKey (createWritebackJobFromProposal_identity created)).symm
  have finished := notCanceled_run lawful (ofProposals proposals)
    (fun _ i found => by cases found) (before ++ after) _ i found
  exact decision_ne_proceed found key moved finished

end SqliteLedger

/-- In every run of either store, once some attempt of an approved proposal has
    crossed, a later claim is declined exactly when the attempt being claimed is
    itself one that has crossed; the SQLite store lets no other attempt proceed
    either. -/
theorem later_claim_declined_iff_own_attempt_crossed (platform : Platform) {proposal : StoredProposal} {attempt : Nat}
    {job : WritebackJob} (created : createWritebackJobFromProposal platform proposal attempt = .ok job)
    {proposals : KeyedMap String StoredProposal} (stored : proposals.get? proposal.proposalId = some proposal)
    (before after : List IntentEvent) (runnerId : String) :
    (LaterClaimDeclined (sqliteIntentStore platform) (.ofProposals proposals) proposal job runnerId before after ↔
      OwnAttemptCrossed (sqliteIntentStore platform) (.ofProposals proposals) proposal job before after) ∧
    (AttemptCrossed (sqliteIntentStore platform)
        (run (sqliteIntentStore platform).step (.ofProposals proposals) before) proposal →
      ∀ intentId, (sqliteIntentStore platform).decision
        (run (sqliteIntentStore platform).step (.ofProposals proposals) (before ++ after)) job runnerId ≠
          .ok (.proceed intentId)) ∧
    (LaterClaimDeclined (postgresIntentStore platform) .empty proposal job runnerId before after ↔
      OwnAttemptCrossed (postgresIntentStore platform) .empty proposal job before after) := by
  refine ⟨?_, ?_, ?_⟩
  · exact laterClaimDeclined_iff (sqliteIntentStore_lawful platform) (SqliteLedger.admits_of_created created stored)
      (fun _ i found => by cases found) runnerId before after
  · exact fun crossed intentId =>
      SqliteLedger.decision_ne_proceed_of_crossed created before after runnerId intentId crossed
  · exact laterClaimDeclined_iff (postgresIntentStore_lawful platform) trivial
      (fun _ i found => by cases found) runnerId before after

/-! ### Two attempts of a reviewed update -/

/-- An approved proposal that closes ticket 7 of tenant `acme`. -/
def closeTicket : StoredProposal :=
  { proposalId := "prop_1", proposalVersion := 1, proposalHash := "sha256:aa", state := .approved
    tenantId := "acme", businessObject := "ticket", objectId := "7", action := "close", sourceId := "crm"
    sourceSchema := "public", sourceTable := "tickets"
    changeSet :=
      { proposalId := "prop_1", mode := .reviewRequired
        source := ⟨.externalPostgres, "crm", "public", "tickets", ⟨"id", some (.str "7")⟩⟩
        before := .ofList [("status", .str "open")], patch := .ofList [("status", .str "closed")]
        after := .ofList [("status", .str "closed")]
        guards :=
          { tenant := ⟨"tenant_id", .str "acme"⟩, principalScope := none, allowedColumns := ["status"]
            expectedVersion := none, versionAdvance := none, deduplication := none }
        freshness := none, requiredApprovals := none, writebackMode := .trustedWorkerRequired
        writebackExecutor := none, body := .v1 } }

/-- The job of an attempt at `closeTicket`. -/
def closeTicketJob (attempt : Nat) : WritebackJob :=
  .v1 { jobHeader closeTicket .postgres attempt with
    patch := .ofList [("status", .str "closed")], conflictGuard := .none, freshness := none }

/-- The first attempt crashes while it is applying. -/
def firstAttemptCrashes : List IntentEvent :=
  [.claim (closeTicketJob 1) "worker_1", .markApplying "wbi:wbj_prop_1" "worker_1"]

/-- After the crash of the first attempt, the Postgres ledger lets the second one
    proceed. -/
theorem postgres_second_attempt_proceeds :
    createWritebackJobFromProposal constantPlatform closeTicket 1 = .ok (closeTicketJob 1) ∧
    createWritebackJobFromProposal constantPlatform closeTicket 2 = .ok (closeTicketJob 2) ∧
    AttemptCrossed (postgresIntentStore constantPlatform)
      (run (postgresIntentStore constantPlatform).step .empty firstAttemptCrashes) closeTicket ∧
    (postgresIntentStore constantPlatform).decision
      (run (postgresIntentStore constantPlatform).step .empty firstAttemptCrashes) (closeTicketJob 2) "worker_2" =
        .ok (.proceed "wbi:wbj_prop_1_a2") ∧
    ¬ LaterClaimDeclined (postgresIntentStore constantPlatform) .empty closeTicket (closeTicketJob 2) "worker_2"
      firstAttemptCrashes [] := by
  have crossed : AttemptCrossed (postgresIntentStore constantPlatform)
      (run (postgresIntentStore constantPlatform).step .empty firstAttemptCrashes) closeTicket :=
    ⟨1, Nat.le_refl 1, applyingRow "worker_1" (recordedIntent (closeTicketJob 1) "worker_1"), by decide, by decide,
      by decide⟩
  have proceeds : (postgresIntentStore constantPlatform).decision
      (run (postgresIntentStore constantPlatform).step .empty firstAttemptCrashes) (closeTicketJob 2) "worker_2" =
        .ok (.proceed "wbi:wbj_prop_1_a2") := by decide
  refine ⟨by decide, by decide, crossed, proceeds, fun declines => ?_⟩
  have declined := declines crossed
  rw [List.append_nil, proceeds] at declined
  rcases declined with ⟨_, _, other⟩ | ⟨_, _, other⟩ <;> cases other

/-- A second claim of the first attempt, after its crash. -/
theorem closeTicket_claims :
    Declined ((sqliteIntentStore constantPlatform).decision
      (run (sqliteIntentStore constantPlatform).step (.ofProposals (.ofList [("prop_1", closeTicket)]))
        firstAttemptCrashes) (closeTicketJob 1) "worker_2") := by
  have own := (later_claim_declined_iff_own_attempt_crossed constantPlatform
    (show createWritebackJobFromProposal constantPlatform closeTicket 1 = .ok (closeTicketJob 1) by decide)
    (show (KeyedMap.ofList [("prop_1", closeTicket)]).get? closeTicket.proposalId = some closeTicket by decide)
    firstAttemptCrashes [] "worker_2").1
  have crossed : Crossed (sqliteIntentStore constantPlatform)
      (run (sqliteIntentStore constantPlatform).step (.ofProposals (.ofList [("prop_1", closeTicket)]))
        firstAttemptCrashes) (jobIdentity (closeTicketJob 1)) :=
    ⟨applyingRow "worker_1" (recordedIntent (closeTicketJob 1) "worker_1"), by decide, by decide, by decide⟩
  exact own.mpr (fun _ => crossed) ⟨1, Nat.le_refl 1, crossed⟩

end SynapsorRunner.Intents
