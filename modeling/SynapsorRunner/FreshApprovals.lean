import SynapsorRunner.ApprovalQuorum
import SynapsorRunner.ProposalRuns

/-!
Approvals that are bound to a freshness proof, in runs of several processes on one
store. The two approval paths make the same check against the latest proof, so an
approvals row of a proposal with a freshness authority goes back to a step that
found such a proof (`approvals_bound_to_proofs`). Proofs and approvals are never
withdrawn, and no transaction brings a proposal back into review, so a stale proof
ends the approvals of its proposal.
-/
namespace SynapsorRunner.ProposalStore
open SynapsorRunner.Protocol SynapsorRunner.Proposals SynapsorRunner.Intents SynapsorRunner.Runs

/-! ### The check -/

/-- An approvals row names a freshness proof of its proposal. -/
def UsedBy (proof : FreshnessProof) (approval : StoredApproval) : Prop :=
  proof.proposalId = approval.proposalId ∧ approval.freshnessProofDigest = some proof.proofDigest

/-- Two approvals rows that name no proof together. -/
def SharesNoProof (a b : StoredApproval) : Prop := ∀ proof, UsedBy proof a → ¬ UsedBy proof b

/-- An approval that names the latest proof of its proposal, which is fresh, not
    expired, and about what the proposal is and depends on. -/
def BoundToProof (runtime : StoreRuntime) (s : Store) (proposal : StoredProposal) (authority : FreshnessAuthority)
    (approval : StoredApproval) : Prop :=
  ∃ proof, s.latestFreshnessProof approval.proposalId = some proof ∧ UsedBy proof approval ∧
    proof.result = .fresh ∧ approval.createdAt ≤ proof.validUntil ∧
    proof.proposalHash = proposal.proposalHash ∧ proof.proposalVersion = proposal.proposalVersion ∧
    proof.dependencySetDigest = runtime.dependencySetDigest authority

theorem latestFreshnessProof_proposalId {s : Store} {id : String} {proof : FreshnessProof}
    (latest : s.latestFreshnessProof id = some proof) : proof.proposalId = id := by
  unfold Store.latestFreshnessProof at latest
  simpa using List.find?_some latest

theorem assertFreshProof_ok {runtime : StoreRuntime} {s : Store} {row : ProposalRow} {authority : FreshnessAuthority}
    {digest : String} {now : Nat} (checked : assertFreshProof runtime s row authority digest now = .ok ()) :
    ∃ proof, s.latestFreshnessProof row.proposalId = some proof ∧ proof.proofDigest = digest ∧
      (proof.proposalHash = row.proposalHash ∧ proof.proposalVersion = row.proposalVersion ∧
        proof.dependencySetDigest = runtime.dependencySetDigest authority) ∧
      proof.result = .fresh ∧ now ≤ proof.validUntil ∧
      ∀ approval ∈ s.approvalsOf row.proposalId, approval.freshnessProofDigest ≠ some digest := by
  unfold assertFreshProof at checked
  split at checked
  · cases checked
  · rename_i proof supplied
    obtain ⟨latest, same⟩ := Option.filter_eq_some_iff.mp supplied
    obtain ⟨_, authorised, rest⟩ := bind_eq_ok checked
    obtain ⟨_, fresh, rest⟩ := bind_eq_ok rest
    obtain ⟨_, unexpired, unused⟩ := bind_eq_ok rest
    exact ⟨proof, latest, of_decide_eq_true same, ensure_ok_iff.mp authorised, ensure_ok_iff.mp fresh,
      ensure_ok_iff.mp unexpired, ensure_ok_iff.mp unused⟩

/-- The check of an approval that names a proof or needs one. -/
theorem assertApprovalFreshness_ok {runtime : StoreRuntime} {s : Store} {row : ProposalRow} {digest : Option String}
    {now : Nat} (checked : assertApprovalFreshness runtime s row digest now = .ok ()) :
    (row.changeSet.freshness = none ∧ digest = none) ∨
      ∃ authority named, row.changeSet.freshness = some authority ∧ digest = some named ∧
        assertFreshProof runtime s row authority named now = .ok () := by
  unfold assertApprovalFreshness at checked
  cases needed : row.changeSet.freshness with
  | none =>
    cases digest with
    | none => exact .inl ⟨rfl, rfl⟩
    | some named => simp only [needed] at checked; cases checked
  | some authority =>
    simp only [needed] at checked
    split at checked
    · rename_i given
      cases digest with
      | none => cases given
      | some named => exact .inr ⟨authority, named, rfl, rfl, checked⟩
    · cases checked

/-! ### What a transaction adds -/

/-- What a transaction does to the approvals: nothing, one row that has passed the
    freshness check of a proposal in review, or a row that names no proof. -/
inductive Adds (runtime : StoreRuntime) (s s' : Store) : Prop where
  | nothing (approvals : s'.approvals = s.approvals)
  | approval (row : ProposalRow) (a : StoredApproval) (found : s.getProposal a.proposalId = some row)
      (pending : row.state = .pendingReview)
      (checked : assertApprovalFreshness runtime s row a.freshnessProofDigest a.createdAt = .ok ())
      (approvals : s'.approvals = s.approvals ++ [a])
  | rejection (a : StoredApproval) (status : a.status = .rejected) (free : a.freshnessProofDigest = none)
      (approvals : s'.approvals = s.approvals ++ [a])

theorem approve_adds {runtime : StoreRuntime} {s s' : Store} {input : ApproveInput}
    (committed : approveTransaction runtime s input = .ok s') : Adds runtime s s' := by
  obtain ⟨current, required, rest⟩ := bind_eq_ok committed
  obtain ⟨_, state, rest⟩ := bind_eq_ok rest
  obtain ⟨_, _, rest⟩ := bind_eq_ok rest
  obtain ⟨_, checked, rest⟩ := bind_eq_ok rest
  have appended : s'.approvals = s.approvals ++ [input.approval] := by
    dsimp only at rest
    split at rest <;> cases rest <;> rfl
  exact .approval current input.approval (Store.requireProposal_ok_iff.mp required) (ensure_ok_iff.mp state) checked appended

theorem approveByPolicy_adds {runtime : StoreRuntime} {s s' : Store} {input : PolicyInput}
    (committed : approveByPolicyTransaction runtime s input = .ok s') : Adds runtime s s' := by
  obtain ⟨proposal, required, rest⟩ := bind_eq_ok committed
  obtain ⟨_, _, rest⟩ := bind_eq_ok rest
  obtain ⟨_, _, rest⟩ := bind_eq_ok rest
  obtain ⟨_, state, rest⟩ := bind_eq_ok rest
  split at rest
  · cases rest
    exact .nothing rfl
  · split at rest
    · cases rest
      exact .nothing rfl
    · obtain ⟨_, checked, rest⟩ := bind_eq_ok rest
      cases rest
      exact .approval proposal input.approval (Store.requireProposal_ok_iff.mp required) (ensure_ok_iff.mp state) checked rfl

theorem commit_adds {runtime : StoreRuntime} {s s' : Store} {t : Transaction} (committed : commit runtime s t = .ok s') :
    Adds runtime s s' := by
  cases commit_step committed with
  | quiet _ _ approvals _ => exact .nothing approvals
  | created _ _ _ _ approvals _ => exact .nothing approvals
  | recorded input is => subst is; exact approve_adds committed
  | approved input is => subst is; exact approve_adds committed
  | byPolicy input is => subst is; exact approveByPolicy_adds committed
  | looked _ _ _ _ _ _ _ approvals _ => exact .nothing approvals
  | blindly _ _ _ _ approvals _ =>
    cases t with
    | reject input => exact .rejection input.rejection rfl rfl approvals
    | _ => exact .nothing (approvals.trans (List.append_nil _))

/-! ### What every step keeps -/

/-- Each proposal stands under its id, and no two approvals share a proof. -/
structure FreshInv (s : Store) : Prop where
  keyed : ∀ id v, s.reviewed id = some v → v.proposal.proposalId = id
  once : s.approvals.Pairwise SharesNoProof

theorem freshInv_empty : FreshInv .empty where
  keyed := by intro id v found; cases found
  once := .nil

/-- The proposals of a store stay, up to their states. -/
def Kept (s s' : Store) : Prop := ∀ id v, s.reviewed id = some v → ∃ state, s'.reviewed id = some (v.withState state)

theorem Kept.refl (s : Store) : Kept s s := fun _ v found => ⟨v.state, found⟩

theorem Kept.trans {a b c : Store} (first : Kept a b) (second : Kept b c) : Kept a c := by
  intro id v found
  obtain ⟨state, later⟩ := first id v found
  obtain ⟨state', last⟩ := second id _ later
  exact ⟨state', last⟩

theorem kept_of_same {s s' : Store} (proposals : ∀ id, s'.reviewed id = s.reviewed id) : Kept s s' :=
  fun id v found => ⟨v.state, (proposals id).trans found⟩

theorem kept_of_writes {s s' : Store} {written : String} {state : ProposalState} (writes : Writes s s' written state) :
    Kept s s' := by
  intro id v found
  by_cases same : id = written
  · subst same
    exact ⟨state, by rw [writes id, if_pos rfl, found, Option.map_some]⟩
  · exact ⟨v.state, by rw [writes.of_ne same, found, withState_self]⟩

theorem Step.kept {s s' : Store} {t : Transaction} (step : Step s t s') : Kept s s' := by
  cases step with
  | quiet _ proposals _ _ => exact kept_of_same proposals
  | created row _ fresh proposals _ _ =>
    intro id v found
    have apart : id ≠ row.proposalId := by
      rintro rfl
      rw [fresh] at found
      cases found
    exact ⟨v.state, by rw [proposals, if_neg apart, found, withState_self]⟩
  | recorded _ _ _ _ _ proposals _ _ => exact kept_of_same proposals
  | approved _ _ _ _ _ writes _ _ _ => exact kept_of_writes writes
  | byPolicy _ _ _ _ _ _ writes _ _ _ => exact kept_of_writes writes
  | looked _ _ _ _ _ _ writes _ _ => exact kept_of_writes writes
  | blindly _ _ _ writes _ _ => exact kept_of_writes writes

/-- What a transaction leaves was there before, up to its state, or is the proposal
    that it creates. -/
theorem Step.reviewed_before {s s' : Store} {t : Transaction} (step : Step s t s') {id : String} {v : Reviewed}
    (found : s'.reviewed id = some v) :
    (∃ w, s.reviewed id = some w ∧ ∃ state, v = w.withState state) ∨
      ∃ row : ProposalRow, row.proposalId = id ∧ v = row.reviewed := by
  by_cases new : s.reviewed id = none
  · have absent : ∀ {written state}, Writes s s' written state → s'.reviewed id = none := by
      intro written state writes
      rw [writes id]
      split
      · rename_i same
        rw [← same, new, Option.map_none]
      · exact new
    have none' : s'.reviewed id ≠ none := by rw [found]; exact Option.some_ne_none v
    cases step with
    | quiet _ proposals _ _ => exact absurd ((proposals id).trans new) none'
    | created row _ _ proposals _ _ =>
      rw [proposals] at found
      split at found
      · rename_i same
        exact .inr ⟨row, same.symm, (Option.some.inj found).symm⟩
      · exact absurd (new.symm.trans found) (Option.some_ne_none v).symm
    | recorded _ _ _ _ _ proposals _ _ => exact absurd ((proposals id).trans new) none'
    | approved _ _ _ _ _ writes _ _ _ => exact absurd (absent writes) none'
    | byPolicy _ _ _ _ _ _ writes _ _ _ => exact absurd (absent writes) none'
    | looked _ _ _ _ _ _ writes _ _ => exact absurd (absent writes) none'
    | blindly _ _ _ writes _ _ => exact absurd (absent writes) none'
  · obtain ⟨w, before⟩ := Option.ne_none_iff_exists'.mp new
    obtain ⟨state, after⟩ := step.kept id w before
    exact .inl ⟨w, before, state, Option.some.inj (found.symm.trans after)⟩

/-- A row that has passed the check shares its proof with no earlier row. -/
theorem sharesNoProof_of_checked {runtime : StoreRuntime} {s : Store} {row : ProposalRow} {a b : StoredApproval}
    (here : row.proposalId = b.proposalId) (member : a ∈ s.approvals)
    (checked : assertApprovalFreshness runtime s row b.freshnessProofDigest b.createdAt = .ok ()) : SharesNoProof a b := by
  intro proof before after
  rcases assertApprovalFreshness_ok checked with ⟨_, free⟩ | ⟨authority, named, _, digest, fresh⟩
  · rw [after.2] at free
    cases free
  · obtain ⟨_, _, _, _, _, _, unused⟩ := assertFreshProof_ok fresh
    refine unused a (Store.mem_approvalsOf.mpr ⟨member, ?_⟩) ?_
    · rw [here, ← after.1, before.1]
    · rw [before.2, ← after.2, digest]

theorem FreshInv.row_id {s : Store} (inv : FreshInv s) {id : String} {row : ProposalRow}
    (found : s.getProposal id = some row) : row.proposalId = id :=
  inv.keyed id row.reviewed (by rw [Store.reviewed, found]; rfl)

theorem freshInv_commit {runtime : StoreRuntime} {s s' : Store} {t : Transaction} (inv : FreshInv s)
    (committed : commit runtime s t = .ok s') : FreshInv s' where
  keyed := by
    intro id v found
    rcases (commit_step committed).reviewed_before found with ⟨w, before, state, rfl⟩ | ⟨row, here, rfl⟩
    · exact inv.keyed id w before
    · exact here
  once := by
    cases commit_adds committed with
    | nothing approvals => rw [approvals]; exact inv.once
    | approval row a found pending checked approvals =>
      rw [approvals]
      refine List.pairwise_append.mpr ⟨inv.once, List.pairwise_singleton _ _, fun b member c new => ?_⟩
      rw [List.mem_singleton.mp new]
      exact sharesNoProof_of_checked (inv.row_id found) member checked
    | rejection a status free approvals =>
      rw [approvals]
      refine List.pairwise_append.mpr ⟨inv.once, List.pairwise_singleton _ _, fun b _ c new proof _ used => ?_⟩
      rw [List.mem_singleton.mp new] at used
      cases free.symm.trans used.2

/-! ### Proposals out of review -/

/-- The approvals of a proposal that approve it. -/
def Store.approvedOf (s : Store) (id : String) : List StoredApproval :=
  (s.approvalsOf id).filter fun approval => decide (approval.status = .approved)

theorem approvedOf_append {s s' : Store} {a : StoredApproval} {id : String} (approvals : s'.approvals = s.approvals ++ [a])
    (other : a.proposalId ≠ id ∨ a.status = .rejected) : s'.approvedOf id = s.approvedOf id := by
  rcases other with apart | rejected
  · simp [Store.approvedOf, Store.approvalsOf, approvals, apart]
  · by_cases own : a.proposalId = id <;> simp [Store.approvedOf, Store.approvalsOf, approvals, own, rejected]

/-- A proposal that is not in review. -/
def Decided (s : Store) (id : String) : Prop := ∃ v, s.reviewed id = some v ∧ v.state ≠ .pendingReview

theorem decided_of_same {s s' : Store} {id : String} (proposals : ∀ id, s'.reviewed id = s.reviewed id)
    (decided : Decided s id) : Decided s' id := by
  obtain ⟨v, found, out⟩ := decided
  exact ⟨v, (proposals id).trans found, out⟩

theorem decided_of_writes {s s' : Store} {id written : String} {state : ProposalState} (writes : Writes s s' written state)
    (out : state ≠ .pendingReview) (decided : Decided s id) : Decided s' id := by
  obtain ⟨v, found, before⟩ := decided
  by_cases same : id = written
  · subst same
    exact ⟨v.withState state, by rw [writes id, if_pos rfl, found, Option.map_some], out⟩
  · exact ⟨v, by rw [writes.of_ne same, found], before⟩

/-- No transaction brings a proposal back into review. -/
theorem Step.decided {s s' : Store} {t : Transaction} (step : Step s t s') {id : String} (decided : Decided s id) :
    Decided s' id := by
  cases step with
  | quiet _ proposals _ _ => exact decided_of_same proposals decided
  | created row is fresh proposals approvals queue =>
    obtain ⟨v, found, out⟩ := decided
    have apart : id ≠ row.proposalId := by
      rintro rfl
      rw [fresh] at found
      cases found
    exact ⟨v, by rw [proposals, if_neg apart, found], out⟩
  | recorded _ _ _ _ _ proposals _ _ => exact decided_of_same proposals decided
  | approved _ _ _ _ _ writes _ _ _ => exact decided_of_writes writes (by simp) decided
  | byPolicy _ _ _ _ _ _ writes _ _ _ => exact decided_of_writes writes (by simp) decided
  | looked _ _ _ _ _ move writes _ _ => exact decided_of_writes writes move.ne_pendingReview decided
  | blindly _ _ is writes _ _ => exact decided_of_writes writes (blindWrite_ne_pendingReview is) decided

/-- A proposal out of review takes no more approvals. -/
theorem approvedOf_commit {runtime : StoreRuntime} {s s' : Store} {t : Transaction} {id : String}
    (committed : commit runtime s t = .ok s') (decided : Decided s id) : s'.approvedOf id = s.approvedOf id := by
  cases commit_adds committed with
  | nothing approvals => simp only [Store.approvedOf, Store.approvalsOf, approvals]
  | approval row a found pending checked approvals =>
    refine approvedOf_append approvals (.inl ?_)
    rintro rfl
    obtain ⟨v, stored, out⟩ := decided
    rw [Store.reviewed, found] at stored
    cases stored
    exact out pending
  | rejection a status free approvals => exact approvedOf_append approvals (.inr status)

/-- A stale proof takes an active proposal out of review, into conflict. -/
theorem stale_conflict {s s' : Store} {proof : FreshnessProof} {now : Nat} {row : ProposalRow}
    (committed : freshnessTransaction s proof now = .ok s') (stale : proof.result = .stale)
    (found : s.getProposal proof.proposalId = some row) (active : ProposalState.active row.state = true) :
    ∃ row', s'.getProposal proof.proposalId = some row' ∧ row'.state = .conflict := by
  unfold freshnessTransaction at committed
  dsimp only at committed
  rw [if_pos stale] at committed
  obtain ⟨current, required, rest⟩ := bind_eq_ok committed
  have here : s.getProposal proof.proposalId = some current := Store.requireProposal_ok_iff.mp required
  obtain rfl : row = current := Option.some.inj (found.symm.trans here)
  rw [if_pos active] at rest
  cases rest
  refine ⟨{ row with state := .conflict, updatedAt := now }, ?_, rfl⟩
  rw [Store.writeState, Store.getProposal_updateProposal, if_pos rfl]
  exact congrArg (Option.map _) here

theorem freshness_goes_through {s : Store} {proof : FreshnessProof} (now : Nat) {row : ProposalRow}
    (found : s.getProposal proof.proposalId = some row) : ∃ s', freshnessTransaction s proof now = .ok s' := by
  unfold freshnessTransaction
  have required : ∀ proofs, ({ s with freshnessProofs := proofs } : Store).requireProposal proof.proposalId = .ok row :=
    fun _ => Store.requireProposal_ok_iff.mpr found
  by_cases stale : proof.result = .stale
  · by_cases active : ProposalState.active row.state = true
    · exact ⟨_, by simp only [stale, if_true, required, bind, Except.bind, active]; rfl⟩
    · exact ⟨_, by simp only [stale, if_true, required, bind, Except.bind, active]; rfl⟩
  · exact ⟨_, by simp only [stale, if_false]; rfl⟩

theorem freshness_approvals {s s' : Store} {proof : FreshnessProof} {now : Nat}
    (committed : freshnessTransaction s proof now = .ok s') : s'.approvals = s.approvals := by
  cases freshness_step committed with
  | quiet _ _ approvals _ => exact approvals
  | created _ is => cases is
  | recorded _ is => cases is
  | approved _ is => cases is
  | byPolicy _ is => cases is
  | looked _ _ _ _ _ _ _ approvals _ => exact approvals
  | blindly _ _ is => cases is

/-! ### Runs -/

section
variable {ι : Type} [DecidableEq ι]

/-- A world with nothing stored and nothing prepared. -/
def World.start (ι : Type) : World ι := ⟨.empty, fun _ => none⟩

/-- A step of a world leaves the store alone or commits one transaction. -/
theorem world_step_store (runtime : StoreRuntime) (w : World ι) (e : WorldEvent ι) :
    (World.step runtime w e).store = w.store ∨
      ∃ t, commit runtime w.store t = .ok (World.step runtime w e).store := by
  cases e with
  | prepare process operation =>
    simp only [World.step]
    split <;> exact .inl rfl
  | commit process =>
    simp only [World.step]
    split
    · rename_i t prepared
      cases outcome : commit runtime w.store t with
      | ok s' => exact .inr ⟨t, by simp only [committed, outcome]; rfl⟩
      | error e => exact .inl (by simp only [committed, outcome]; rfl)
    · exact .inl rfl

theorem freshInv_step (runtime : StoreRuntime) (w : World ι) (e : WorldEvent ι) (inv : FreshInv w.store) :
    FreshInv (World.step runtime w e).store := by
  rcases world_step_store runtime w e with same | ⟨t, committed⟩
  · rw [same]
    exact inv
  · exact freshInv_commit inv committed

theorem freshInv_run (runtime : StoreRuntime) (events : List (WorldEvent ι)) :
    FreshInv (run (World.step runtime) (World.start ι) events).store :=
  invariant (fun w : World ι => FreshInv w.store) (freshInv_step runtime) freshInv_empty events

theorem kept_run (runtime : StoreRuntime) (w : World ι) (events : List (WorldEvent ι)) :
    Kept w.store (run (World.step runtime) w events).store := by
  refine related (R := fun a b : World ι => Kept a.store b.store) (fun w => .refl w.store) (fun _ _ _ => Kept.trans)
    (fun w e => ?_) w events
  rcases world_step_store runtime w e with same | ⟨t, committed⟩
  · rw [same]
    exact .refl _
  · exact (commit_step committed).kept


/-- A row of the approvals at the end of a run was inserted by the step that found
    exactly the rows before it. -/
theorem inserted_at {runtime : StoreRuntime} {events : List (WorldEvent ι)} {earlier later : List StoredApproval}
    {approval : StoredApproval}
    (here : (run (World.step runtime) (World.start ι) events).store.approvals = earlier ++ approval :: later) :
    ∃ before e after, events = before ++ e :: after ∧
      (run (World.step runtime) (World.start ι) before).store.approvals = earlier ∧
      (run (World.step runtime) (World.start ι) (before ++ [e])).store.approvals = earlier ++ [approval] ∧
      Adds runtime (run (World.step runtime) (World.start ι) before).store
        (run (World.step runtime) (World.start ι) (before ++ [e])).store := by
  have start : ¬ earlier ++ [approval] <+: (World.start ι).store.approvals := by simp [World.start, Store.empty]
  have finish : earlier ++ [approval] <+: (run (World.step runtime) (World.start ι) events).store.approvals := by
    rw [here]
    exact ⟨later, by simp⟩
  obtain ⟨before, e, after, parts, without, with'⟩ :=
    begins_at (fun w : World ι => earlier ++ [approval] <+: w.store.approvals) start finish
  refine ⟨before, e, after, parts, ?_⟩
  rw [run_append] at with' ⊢
  simp only [run_cons, run_nil] at with' ⊢
  rcases world_step_store runtime (run (World.step runtime) (World.start ι) before) e with same | ⟨t, committed⟩
  · rw [same] at with'
    exact absurd with' without
  · have adds := commit_adds committed
    have appended : ∀ a, (World.step runtime (run (World.step runtime) (World.start ι) before) e).store.approvals =
        (run (World.step runtime) (World.start ι) before).store.approvals ++ [a] →
        (run (World.step runtime) (World.start ι) before).store.approvals = earlier ∧
          (World.step runtime (run (World.step runtime) (World.start ι) before) e).store.approvals =
            earlier ++ [approval] := by
      intro a approvals
      rw [approvals] at with'
      rcases List.prefix_concat_iff.mp with' with whole | shorter
      · exact ⟨(List.append_inj' whole rfl).1.symm, approvals.trans whole.symm⟩
      · exact absurd shorter without
    cases adds with
    | nothing approvals =>
      rw [approvals] at with'
      exact absurd with' without
    | approval row a found pending checked approvals =>
      exact ⟨(appended a approvals).1, (appended a approvals).2, .approval row a found pending checked approvals⟩
    | rejection a status free approvals =>
      exact ⟨(appended a approvals).1, (appended a approvals).2, .rejection a status free approvals⟩

/-- The approval that passed the check was bound to a proof, for the proposal as it
    is ever after. -/
theorem bound_of_checked {runtime : StoreRuntime} {s s' : Store} (inv : FreshInv s) (kept : Kept s s') {a : StoredApproval}
    {row row' : ProposalRow} {authority : FreshnessAuthority} (found : s.getProposal a.proposalId = some row)
    (checked : assertApprovalFreshness runtime s row a.freshnessProofDigest a.createdAt = .ok ())
    (later : s'.getProposal a.proposalId = some row') (needs : row'.changeSet.freshness = some authority) :
    BoundToProof runtime s row'.toStoredProposal authority a := by
  have stored : s.reviewed a.proposalId = some row.reviewed := by rw [Store.reviewed, found]; rfl
  obtain ⟨state, after⟩ := kept _ _ stored
  rw [Store.reviewed, later, Option.map_some, Option.some.injEq] at after
  have same : row'.toStoredProposal = { row.toStoredProposal with state } := congrArg Reviewed.proposal after
  have here : row.proposalId = a.proposalId := inv.row_id found
  rcases assertApprovalFreshness_ok checked with ⟨free, _⟩ | ⟨authority', named, needs', digest, fresh⟩
  · rw [same] at needs
    cases free.symm.trans needs
  · rw [same] at needs
    obtain rfl : authority' = authority := Option.some.inj (needs'.symm.trans needs)
    obtain ⟨proof, latest, rfl, ⟨hash, version, dependencies⟩, result, unexpired, _⟩ := assertFreshProof_ok fresh
    rw [here] at latest
    refine ⟨proof, latest, ⟨latestFreshnessProof_proposalId latest, digest⟩, result, unexpired, ?_, ?_, dependencies⟩
    · rw [same, hash]
    · rw [same, version]

/-- Each approval of a proposal that requires freshness was inserted by a step that
    found a proof that it is bound to. -/
def ApprovalsBound (runtime : StoreRuntime) (events : List (WorldEvent ι)) : Prop :=
  ∀ earlier approval later,
    (run (World.step runtime) (World.start ι) events).store.approvals = earlier ++ approval :: later →
    approval.status = .approved → ∀ row authority,
    (run (World.step runtime) (World.start ι) events).store.getProposal approval.proposalId = some row →
    row.changeSet.freshness = some authority →
      ∃ before e after, events = before ++ e :: after ∧
        (run (World.step runtime) (World.start ι) before).store.approvals = earlier ∧
        (run (World.step runtime) (World.start ι) (before ++ [e])).store.approvals = earlier ++ [approval] ∧
        BoundToProof runtime (run (World.step runtime) (World.start ι) before).store row.toStoredProposal authority approval

/-- A process that commits a stale proof of an active proposal puts it in conflict,
    and the proposal takes no approval after that. -/
def StaleEndsReview (runtime : StoreRuntime) (events : List (WorldEvent ι)) : Prop :=
  ∀ before process after proof now row, events = before ++ .commit process :: after →
    (run (World.step runtime) (World.start ι) before).prepared process = some (.freshness proof now) →
    proof.result = .stale →
    (run (World.step runtime) (World.start ι) before).store.getProposal proof.proposalId = some row →
    ProposalState.active row.state = true →
      (∃ row', (run (World.step runtime) (World.start ι) (before ++ [.commit process])).store.getProposal proof.proposalId =
        some row' ∧ row'.state = .conflict) ∧
      (run (World.step runtime) (World.start ι) events).store.approvedOf proof.proposalId =
        (run (World.step runtime) (World.start ι) before).store.approvedOf proof.proposalId

theorem decided_run (runtime : StoreRuntime) {w : World ι} {id : String} (decided : Decided w.store id)
    (events : List (WorldEvent ι)) :
    (run (World.step runtime) w events).store.approvedOf id = w.store.approvedOf id := by
  have settled : Decided (run (World.step runtime) w events).store id ∧
      (run (World.step runtime) w events).store.approvedOf id = w.store.approvedOf id := by
    refine invariant (fun w' : World ι => Decided w'.store id ∧ w'.store.approvedOf id = w.store.approvedOf id)
      (fun w' e inv => ?_) ⟨decided, rfl⟩ events
    rcases world_step_store runtime w' e with same | ⟨t, committed⟩
    · rw [same]
      exact inv
    · exact ⟨(commit_step committed).decided inv.1, (approvedOf_commit committed inv.1).trans inv.2⟩
  exact settled.2

theorem approvalsBound_run (runtime : StoreRuntime) (events : List (WorldEvent ι)) : ApprovalsBound runtime events := by
  intro earlier approval later here status row authority found needs
  obtain ⟨before, e, after, parts, found', inserted, adds⟩ := inserted_at here
  refine ⟨before, e, after, parts, found', inserted, ?_⟩
  have whole : run (World.step runtime) (World.start ι) events =
      run (World.step runtime) (run (World.step runtime) (World.start ι) before) (e :: after) := by
    rw [parts, run_append]
  have new : ∀ a, (run (World.step runtime) (World.start ι) (before ++ [e])).store.approvals =
      (run (World.step runtime) (World.start ι) before).store.approvals ++ [a] → approval = a := by
    intro a approvals
    rw [inserted, found'] at approvals
    simpa using approvals
  cases adds with
  | nothing approvals =>
    rw [inserted, found'] at approvals
    simp at approvals
  | approval row' a stored pending checked approvals =>
    obtain rfl := new a approvals
    have kept := kept_run runtime (run (World.step runtime) (World.start ι) before) (e :: after)
    rw [← whole] at kept
    exact bound_of_checked (freshInv_run runtime before) kept stored checked found needs
  | rejection a rejected free approvals =>
    obtain rfl := new a approvals
    rw [rejected] at status
    cases status

theorem staleEndsReview_run (runtime : StoreRuntime) (events : List (WorldEvent ι)) : StaleEndsReview runtime events := by
  intro before process after proof now row parts prepared stale found active
  obtain ⟨s', through⟩ := freshness_goes_through now found
  have next : (run (World.step runtime) (World.start ι) (before ++ [.commit process])).store = s' := by
    rw [run_append]
    simp only [run_cons, run_nil, World.step, prepared, committed, commit, through]
    rfl
  obtain ⟨row', stored, conflict⟩ := stale_conflict through stale found active
  refine ⟨⟨row', by rw [next]; exact stored, conflict⟩, ?_⟩
  have decided : Decided s' proof.proposalId :=
    ⟨row'.reviewed, by rw [Store.reviewed, stored]; rfl, fun pending => by cases conflict.symm.trans pending⟩
  rw [← next] at decided
  have settled := decided_run runtime decided after
  rw [← run_append, List.append_assoc, List.singleton_append, ← parts, next] at settled
  rw [settled]
  simp only [Store.approvedOf, Store.approvalsOf, freshness_approvals through]

/-- In every run of processes on one store, the approvals of a proposal that
    requires freshness are bound to proofs, no two of them to the same one, and a
    stale proof ends the review. -/
theorem approvals_bound_to_proofs (runtime : StoreRuntime) (events : List (WorldEvent ι)) :
    ApprovalsBound runtime events ∧
      (run (World.step runtime) (World.start ι) events).store.approvals.Pairwise SharesNoProof ∧
      StaleEndsReview runtime events :=
  ⟨approvalsBound_run runtime events, (freshInv_run runtime events).once, staleEndsReview_run runtime events⟩

end

/-! ### A fresh proof and a stale one -/

/-- `closeTicketRow` with a freshness authority over its target row. -/
def guardedTicketRow : ProposalRow :=
  { closeTicketRow with changeSet := { closeTicketRow.changeSet with freshness := some ⟨.exactGuard, 1, []⟩ } }

def guardedTicketProof (result : FreshnessResult) (proofDigest : String) : FreshnessProof :=
  { proposalId := "prop_1", proposalHash := "sha256:aa", proposalVersion := 1, dependencySetDigest := "sha256:00"
    result, validUntil := 5, proofDigest }

/-- The ticket is approved with its proof while another process has read it for a
    second approval with the same proof. -/
def approvedWithProof : List (WorldEvent Bool) :=
  undisturbed false (.createProposal guardedTicketRow) ++
  undisturbed false (.recordFreshnessProof (guardedTicketProof .fresh "sha256:01") 0) ++
  [.prepare true (.approveProposal { closeTicketApproval with
    decider := ⟨"ben", none, false⟩, freshnessProofDigest := some "sha256:01" })] ++
  undisturbed false (.approveProposal { closeTicketApproval with freshnessProofDigest := some "sha256:01" }) ++
  [.commit true]

/-- The names of the approvers of the ticket, and its state. -/
def ticketApprovals (events : List (WorldEvent Bool)) : List String × Option ProposalState :=
  ((run (World.step constantStoreRuntime) (World.start Bool) events).store.approvals.map (·.approver), stateAfter events)

example : ticketApprovals approvedWithProof = (["ana"], some .approved) := by decide

example : ticketApprovals (approvedWithProof ++
    undisturbed true (.recordFreshnessProof (guardedTicketProof .stale "sha256:02") 2)) = (["ana"], some .conflict) := by
  decide

end SynapsorRunner.ProposalStore
