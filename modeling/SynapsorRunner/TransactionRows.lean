import SynapsorRunner.LeaseRuns

/-!
What one transaction of the SQLite proposal store does to the rows of the proposals and
approvals, in full: the time that it writes, the proposals that it records as applied, and
that everything but the state, its time and the mark of a source mutation stays.
-/
namespace SynapsorRunner.ProposalStore
open SynapsorRunner.Protocol SynapsorRunner.Proposals SynapsorRunner.Intents
open SynapsorRunner.LeaseRuns (claimStep leaseTransaction_ok)

/-- The time that a transaction writes to the rows it changes. -/
def writtenAt : Transaction → Option ℕ
  | .create row => some row.updatedAt
  | .freshness _ now => some now
  | .approve input => some input.now
  | .approveByPolicy input => some input.now
  | .reject input => some input.now
  | .setPendingWorker _ now => some now
  | .createJob _ _ now => some now
  | .receipt _ _ now => some now
  | .cloudGovernance _ _ now => some now
  | .enqueue input _ => some input.now
  | .enqueueApproved _ _ now => some now
  | .claim input => some input.now
  | .onLease _ _ now => some now
  | .cancel input _ => some input.now
  | .requeue input _ _ => some input.now
  | .discard input => some input.now
  | .reconcile _ _ _ now => some now
  | .nothing | .claimIntent .. | .markApplying .. | .completeIntent .. | .requireReconciliation .. => none

/-- The proposals that a transaction records as applied. -/
def applications : Transaction → List String
  | .receipt header _ _ => if stateFromReceipt header.status = .applied then [header.proposalId] else []
  | .cloudGovernance proposalId state _ =>
    if localStateFromCloudGovernance state = some .applied then [proposalId] else []
  | .reconcile input reconciled _ _ =>
    if stateFromReceipt input.receipt.status = .applied then [input.receipt.header.proposalId, reconciled.proposalId] else []
  | _ => []

/-! ### Proposals -/

/-- A row of a proposal after a transaction: as it was, or in another state and with
    the time of the transaction. -/
inductive Rewritten (t : Transaction) (id : String) (row row' : ProposalRow) : Prop where
  | kept (same : row' = row)
  | moved (state : ProposalState) (mutated : Bool) (now : ℕ) (at' : writtenAt t = some now)
      (is : row' = { row with state, sourceDatabaseMutated := mutated, updatedAt := now })
      (left : state ≠ .pendingReview) (applied : state = .applied → id ∈ applications t)

/-- The rows of a transaction's proposal keep what a limit reads. -/
theorem Rewritten.content {t : Transaction} {id : String} {row row' : ProposalRow} (step : Rewritten t id row row') :
    row'.proposalId = row.proposalId ∧ row'.tenantId = row.tenantId ∧ row'.businessObject = row.businessObject ∧
      row'.objectId = row.objectId ∧ row'.changeSet = row.changeSet ∧ row'.proposalHash = row.proposalHash ∧
      row'.proposalVersion = row.proposalVersion := by
  cases step with
  | kept same => subst same; exact ⟨rfl, rfl, rfl, rfl, rfl, rfl, rfl⟩
  | moved state mutated now at' is left applied => subst is; exact ⟨rfl, rfl, rfl, rfl, rfl, rfl, rfl⟩

theorem Rewritten.left {t : Transaction} {id : String} {row row' : ProposalRow} (step : Rewritten t id row row')
    (state : row.state ≠ .pendingReview) : row'.state ≠ .pendingReview := by
  cases step with
  | kept same => rw [same]; exact state
  | moved state' mutated now at' is left applied => rw [is]; exact left

inductive RowsStep (t : Transaction) (s s' : Store) : Prop where
  | same (proposals : s'.proposals = s.proposals)
  | created (row : ProposalRow) (is : t = .create row) (fresh : s.getProposal row.proposalId = none)
      (proposals : s'.proposals = s.proposals.set row.proposalId row)
  | written (id : String) (f : ProposalRow → ProposalRow) (each : ∀ row, Rewritten t id row (f row))
      (proposals : s'.proposals = s.proposals.modify id f)

theorem RowsStep.writeState {t : Transaction} {s s' : Store} {id : String} {state : ProposalState} {now : ℕ}
    (at' : writtenAt t = some now) (left : state ≠ .pendingReview) (applied : state ≠ .applied)
    (proposals : s'.proposals = (s.writeState id state now).proposals) : RowsStep t s s' :=
  .written id (fun row => { row with state, updatedAt := now })
    (fun row => .moved state row.sourceDatabaseMutated now at' rfl left fun is => absurd is applied) proposals

theorem stateFromReceipt_left (status : WritebackStatus) : stateFromReceipt status ≠ .pendingReview := by
  cases status <;> simp [stateFromReceipt]

theorem localState_left {state : String} {localState : ProposalState}
    (projected : localStateFromCloudGovernance state = some localState) : localState ≠ .pendingReview := by
  rintro rfl
  cases localState_closed projected

/-- The UPDATE of a receipt. -/
theorem RowsStep.receipt {t : Transaction} {s s' : Store} {header : ReceiptHeader} {mutated : Bool} {now : ℕ}
    (at' : writtenAt t = some now) (applied : stateFromReceipt header.status = .applied → header.proposalId ∈ applications t)
    (proposals : s'.proposals = (recordExecutionReceiptRows s header mutated now).proposals) : RowsStep t s s' :=
  .written header.proposalId
    (fun row => { row with state := stateFromReceipt header.status
                           sourceDatabaseMutated := header.sourceDatabaseMutated || mutated, updatedAt := now })
    (fun _ => .moved _ _ now at' rfl (stateFromReceipt_left _) applied) proposals

theorem rowsStep {runtime : StoreRuntime} {s s' : Store} {t : Transaction} (committed : commit runtime s t = .ok s') :
    RowsStep t s s' := by
  cases t with
  | nothing => cases committed; exact .same rfl
  | create row =>
    obtain ⟨_, fresh, rest⟩ := bind_eq_ok committed
    cases rest
    exact .created row rfl (by simpa using ensure_ok_iff.mp fresh) rfl
  | freshness proof now =>
    unfold commit freshnessTransaction at committed
    dsimp only at committed
    split at committed
    · obtain ⟨current, _, rest⟩ := bind_eq_ok committed
      split at rest
      · cases rest
        exact .writeState rfl (by simp) (by simp) rfl
      · cases rest
        exact .same rfl
    · cases committed
      exact .same rfl
  | approve input =>
    obtain ⟨current, _, rest⟩ := bind_eq_ok committed
    obtain ⟨_, _, rest⟩ := bind_eq_ok rest
    obtain ⟨_, _, rest⟩ := bind_eq_ok rest
    obtain ⟨_, _, rest⟩ := bind_eq_ok rest
    dsimp only at rest
    split at rest
    · cases rest
      exact .writeState rfl (by simp) (by simp) rfl
    · cases rest
      exact .same rfl
  | approveByPolicy input =>
    obtain ⟨proposal, _, rest⟩ := bind_eq_ok committed
    obtain ⟨_, _, rest⟩ := bind_eq_ok rest
    obtain ⟨_, _, rest⟩ := bind_eq_ok rest
    obtain ⟨_, _, rest⟩ := bind_eq_ok rest
    split at rest
    · cases rest
      exact .same rfl
    split at rest
    · cases rest
      exact .same rfl
    · obtain ⟨_, _, rest⟩ := bind_eq_ok rest
      cases rest
      exact .writeState rfl (by simp) (by simp) rfl
  | reject input =>
    cases committed
    exact .writeState rfl (by simp) (by simp) rfl
  | setPendingWorker proposalId now =>
    cases committed
    exact .writeState rfl (by simp) (by simp) rfl
  | createJob proposalId read now =>
    cases committed
    unfold createJobTransaction
    split
    · exact .writeState rfl (by simp) (by simp) rfl
    · exact .same rfl
  | receipt header mutated now =>
    cases committed
    exact .receipt rfl (fun applied => by simp [applications, applied]) rfl
  | cloudGovernance proposalId state now =>
    obtain ⟨row, _, rest⟩ := bind_eq_ok committed
    split at rest
    · cases rest
      exact .same rfl
    · rename_i localState projected
      cases rest
      refine .written proposalId (fun row => if ProposalState.active row.state = true then
          { row with state := localState
                     sourceDatabaseMutated := decide (localState = .applied) || row.sourceDatabaseMutated, updatedAt := now }
        else row) (fun row => ?_) rfl
      by_cases active : ProposalState.active row.state = true
      · rw [if_pos active]
        refine .moved localState _ now rfl rfl (localState_left projected) fun applied => ?_
        simp [applications, projected, applied]
      · rw [if_neg active]
        exact .kept rfl
  | enqueue input proposal =>
    unfold commit enqueueTransaction at committed
    dsimp only at committed
    split at committed
    · obtain ⟨_, _, rest⟩ := bind_eq_ok committed
      cases rest
      exact .same rfl
    · obtain ⟨_, _, rest⟩ := bind_eq_ok committed
      cases rest
      exact .same rfl
  | enqueueApproved proposalIds maxAttempts now => cases committed; exact .same rfl
  | claim input =>
    cases committed
    rcases claimStep runtime s input with ⟨_, same⟩ | ⟨id, item, row, _, _, code, is⟩ | ⟨id, item, row, _, _, is⟩
    · rw [same]
      exact .same rfl
    · rw [is]
      exact .same rfl
    · rw [is]
      unfold leaseItem
      dsimp only
      split
      · exact .writeState rfl (by simp) (by simp) rfl
      · exact .same rfl
  | onLease lease action now =>
    obtain ⟨_, _, _, _, _, rfl⟩ := leaseTransaction_ok committed
    exact .same rfl
  | cancel input read =>
    obtain ⟨item, _, rest⟩ := bind_eq_ok committed
    obtain ⟨_, _, rest⟩ := bind_eq_ok rest
    dsimp only at rest
    split at rest
    · cases rest
      exact .writeState rfl (by simp) (by simp) rfl
    · cases rest
      exact .same rfl
  | requeue input retryBudget read =>
    obtain ⟨item, _, rest⟩ := bind_eq_ok committed
    obtain ⟨_, _, rest⟩ := bind_eq_ok rest
    obtain ⟨_, _, rest⟩ := bind_eq_ok rest
    dsimp only at rest
    split at rest
    · cases rest
      exact .writeState rfl (by simp) (by simp) rfl
    · cases rest
      exact .same rfl
  | discard input =>
    obtain ⟨item, _, rest⟩ := bind_eq_ok committed
    obtain ⟨_, _, rest⟩ := bind_eq_ok rest
    cases rest
    exact .same rfl
  | claimIntent job runnerId =>
    obtain ⟨_, _, rest⟩ := bind_eq_ok committed
    cases rest
    exact .same rfl
  | markApplying intentId runnerId =>
    obtain ⟨_, _, rest⟩ := bind_eq_ok committed
    cases rest
    exact .same rfl
  | completeIntent intentId result =>
    obtain ⟨_, _, rest⟩ := bind_eq_ok committed
    cases rest
    exact .same rfl
  | requireReconciliation intentId reason =>
    obtain ⟨_, _, rest⟩ := bind_eq_ok committed
    cases rest
    exact .same rfl
  | reconcile input reconciled mutated now =>
    obtain ⟨intent, _, rest⟩ := bind_eq_ok committed
    obtain ⟨_, _, rest⟩ := bind_eq_ok rest
    cases rest
    refine .receipt rfl (fun applied => ?_) rfl
    have status : stateFromReceipt input.receipt.status = .applied := applied
    simp [applications, status]

/-- A row after a transaction that creates no proposal comes from a row before it. -/
theorem RowsStep.before {t : Transaction} {s s' : Store} (step : RowsStep t s s') {id : String} {row' : ProposalRow}
    (found : s'.getProposal id = some row') :
    (∃ row, t = .create row ∧ s.getProposal row.proposalId = none ∧ row' = row ∧ id = row.proposalId) ∨
      ∃ row, s.getProposal id = some row ∧ Rewritten t id row row' := by
  cases step with
  | same proposals =>
    refine .inr ⟨row', ?_, .kept rfl⟩
    rw [← found, Store.getProposal, Store.getProposal, proposals]
  | created row is fresh proposals =>
    rw [Store.getProposal, proposals, KeyedMap.get?_set] at found
    by_cases own : id = row.proposalId
    · rw [if_pos own] at found
      exact .inl ⟨row, is, fresh, (Option.some.inj found).symm, own⟩
    · rw [if_neg own] at found
      exact .inr ⟨row', found, .kept rfl⟩
  | written written f each proposals =>
    rw [Store.getProposal, proposals, KeyedMap.get?_modify] at found
    by_cases own : id = written
    · rw [if_pos own] at found
      obtain ⟨row, stored, rfl⟩ := Option.map_eq_some_iff.mp found
      subst own
      exact .inr ⟨row, stored, each row⟩
    · rw [if_neg own] at found
      exact .inr ⟨row', found, .kept rfl⟩

/-- A proposal stays in the store. -/
theorem RowsStep.after {t : Transaction} {s s' : Store} (step : RowsStep t s s') {id : String} {row : ProposalRow}
    (found : s.getProposal id = some row) : ∃ row', s'.getProposal id = some row' ∧ Rewritten t id row row' := by
  cases step with
  | same proposals => exact ⟨row, by rw [← found, Store.getProposal, Store.getProposal, proposals], .kept rfl⟩
  | created new is fresh proposals =>
    have apart : id ≠ new.proposalId := by
      rintro rfl
      rw [found] at fresh
      cases fresh
    refine ⟨row, ?_, .kept rfl⟩
    rw [Store.getProposal, proposals, KeyedMap.get?_set_of_ne _ _ apart]
    exact found
  | written written f each proposals =>
    rw [Store.getProposal, proposals, KeyedMap.get?_modify]
    by_cases own : id = written
    · subst own
      exact ⟨f row, by rw [if_pos rfl]; exact congrArg (Option.map f) found, each row⟩
    · exact ⟨row, by rw [if_neg own]; exact found, .kept rfl⟩

/-! ### Approvals -/

/-- The approvals after a transaction. A transaction that approves a proposal looks at its
    state and applies nothing. -/
inductive ApprovalsStep (t : Transaction) (s s' : Store) : Prop where
  | same (approvals : s'.approvals = s.approvals)
  | rejected (a : StoredApproval) (status : a.status = .rejected) (approvals : s'.approvals = s.approvals ++ [a])
  | approved (a : StoredApproval) (row : ProposalRow) (found : s.getProposal a.proposalId = some row)
      (pending : row.state = .pendingReview) (none : applications t = []) (approvals : s'.approvals = s.approvals ++ [a])

theorem approvalsStep {runtime : StoreRuntime} {s s' : Store} {t : Transaction}
    (committed : commit runtime s t = .ok s') :
    ApprovalsStep t s s' := by
  cases commit_step committed with
  | quiet blind proposals approvals queue => exact .same approvals
  | created row is fresh proposals approvals queue => exact .same approvals
  | recorded input is v found pending proposals approvals queue =>
    subst is
    obtain ⟨row, stored, rfl⟩ := Option.map_eq_some_iff.mp found
    exact .approved input.approval row stored pending rfl approvals
  | approved input is v found pending writes approvals queue complete =>
    subst is
    obtain ⟨row, stored, rfl⟩ := Option.map_eq_some_iff.mp found
    exact .approved input.approval row stored pending rfl approvals
  | byPolicy input is v found pending bound writes approvals queue single =>
    subst is
    obtain ⟨row, stored, rfl⟩ := Option.map_eq_some_iff.mp found
    exact .approved input.approval row stored pending rfl approvals
  | looked blind proposalId state v found move writes approvals queue => exact .same approvals
  | blindly proposalId state is writes approvals queue =>
    cases t with
    | reject input => exact .rejected input.rejection rfl approvals
    | _ => exact .same (by simpa [Transaction.inserts] using approvals)

/-! ### Change sets -/

theorem sublist_filter {α : Type} {p q : α → Bool} {l : List α} (weaker : ∀ a ∈ l, p a = true → q a = true) :
    (l.filter p).Sublist (l.filter q) := by
  have both : l.filter p = (l.filter q).filter p := by
    rw [List.filter_filter]
    refine List.filter_congr fun a member => ?_
    cases here : p a with
    | false => simp
    | true => simp [weaker a member here]
  rw [both]
  exact List.filter_sublist

/-- The change sets of some rows after a transaction are among those of the rows that
    they come from. -/
theorem RowsStep.sublist {t : Transaction} {s s' : Store} (step : RowsStep t s s') {p q : ProposalRow → Bool}
    (from' : ∀ id row', s'.getProposal id = some row' → p row' = true →
      ∃ row, s.getProposal id = some row ∧ q row = true) :
    ((s'.proposals.values.filter p).map (·.changeSet.patch)).Sublist
      ((s.proposals.values.filter q).map (·.changeSet.patch)) := by
  have entry : ∀ {m : KeyedMap String ProposalRow} {e}, e ∈ m.entries → m.get? e.1 = some e.2 :=
    fun member => KeyedMap.get?_eq_some.mpr member
  have counted : ∀ {e : String × ProposalRow} {row'}, e ∈ s.proposals.entries → s'.proposals.get? e.1 = some row' →
      p row' = true → q e.2 = true := by
    intro e row' member found here
    obtain ⟨row, stored, good⟩ := from' e.1 row' found here
    have same : some row = some e.2 := stored.symm.trans (entry member)
    cases same
    exact good
  have values : ∀ (r : ProposalRow → Bool) (m : KeyedMap String ProposalRow),
      (m.values.filter r).map (·.changeSet.patch) =
        (m.entries.filter fun e => r e.2).map fun e => e.2.changeSet.patch := by
    intro r m
    rw [KeyedMap.values, List.filter_map, List.map_map]
    rfl
  cases step with
  | same proposals =>
    rw [values, values, proposals]
    refine List.Sublist.map _ (sublist_filter fun e member here => counted member ?_ here)
    rw [proposals]
    exact entry member
  | created row is fresh proposals =>
    have out : p row = false := by
      by_contra here
      obtain ⟨row', stored, _⟩ := from' row.proposalId row (by rw [Store.getProposal, proposals, KeyedMap.get?_set_self])
        (by simpa using here)
      rw [fresh] at stored
      cases stored
    rw [values, values, proposals, KeyedMap.entries_set_of_absent fresh, List.filter_append]
    simp only [List.filter_cons, out, Bool.false_eq_true, if_false, List.filter_nil, List.append_nil]
    refine List.Sublist.map _ (sublist_filter fun e member here => counted member ?_ here)
    rw [proposals, KeyedMap.get?_set_of_ne]
    · exact entry member
    · intro same
      have stored := entry member
      rw [same] at stored
      exact absurd (stored.symm.trans fresh) (by simp)
  | written id f each proposals =>
    rw [values, values, proposals, KeyedMap.modify, List.filter_map, List.map_map]
    have patches : ((fun e : String × ProposalRow => e.2.changeSet.patch) ∘
        fun e => if e.1 = id then (e.1, f e.2) else e) = fun e => e.2.changeSet.patch := by
      funext e
      simp only [Function.comp_apply]
      split
      · exact congrArg ChangeSet.patch (each e.2).content.2.2.2.2.1
      · rfl
    rw [patches]
    refine List.Sublist.map _ (sublist_filter fun e member here => ?_)
    simp only [Function.comp_apply] at here
    by_cases own : e.1 = id
    · rw [if_pos own] at here
      refine counted member ?_ here
      rw [proposals, KeyedMap.get?_modify, if_pos own, ← own, entry member]
      rfl
    · rw [if_neg own] at here
      refine counted member ?_ here
      rw [proposals, KeyedMap.get?_modify, if_neg own]
      exact entry member

end SynapsorRunner.ProposalStore
