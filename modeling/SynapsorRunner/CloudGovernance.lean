import SynapsorRunner.Faults
import SynapsorRunner.ProposalRuns
import SynapsorRunner.SecretMaterial

/-!
Decisions that come from the cloud. `recordCloudGovernanceEvent` inserts the event where its
id is new, writes the state that follows from it on an open proposal, appends to the log of
the proposal, and compares the stored event with the given one last. No transaction is
around these statements, and any of them may fail: `recordCloudGovernanceEvent_atomic_iff`
says from which states and failing points an event is recorded whole or not at all.
-/
namespace SynapsorRunner.CloudGovernance
open SynapsorRunner.Proposals SynapsorRunner.ProposalStore SynapsorRunner.Faults
open SynapsorRunner.JsonText (Json)
open SynapsorRunner.NumberText (Text ascii)

/-! ### Events and tables -/

/-- An event without its hash. The authority is that of the cloud. -/
structure EventContent where
  eventId : String
  proposalId : String
  cloudProposalId : Option String
  kind : String
  state : String
  payload : Json
  createdAt : Nat

/-- A row of `cloud_governance_events`, with the digest of its content. -/
structure GovernanceEvent {Hash : Type} (digest : EventContent → Hash) where
  content : EventContent
  integrityHash : Hash
  signed : integrityHash = digest content

/-- What `appendEvent` writes in a transaction of its own: the row of `proposal_events`,
    from which the rows that call for attention follow. -/
structure ProposalLogEntry where
  proposalId : String
  kind : String
  cloudEventId : String
  cloudProposalId : String
  cloudState : String

structure CloudStore {Hash : Type} (digest : EventContent → Hash) where
  store : Store
  governance : KeyedMap String (GovernanceEvent digest)
  log : List ProposalLogEntry

/-- The input of a caller, who may leave out the time. -/
structure EventInput where
  eventId : String
  proposalId : String
  cloudProposalId : Option String
  kind : String
  state : String
  payload : Json
  createdAt : Option Nat

/-- An empty cloud id is left out. -/
def EventInput.content (input : EventInput) (now : Nat) : EventContent :=
  { eventId := input.eventId, proposalId := input.proposalId
    cloudProposalId := input.cloudProposalId.filter fun id => id != ""
    kind := input.kind, state := input.state, payload := input.payload, createdAt := input.createdAt.getD now }

/-- The statements of the operation. -/
inductive Statement where
  | insert
  | project
  | append
  | select
  deriving DecidableEq

section
variable {Hash : Type} {digest : EventContent → Hash}

namespace CloudStore

/-- `INSERT OR IGNORE`, by the primary key. -/
def insertOrIgnore (s : CloudStore digest) (event : GovernanceEvent digest) : CloudStore digest :=
  match s.governance.get? event.content.eventId with
  | some _ => s
  | none => { s with governance := s.governance.set event.content.eventId event }

/-- The UPDATE of an open proposal. -/
def project (s : CloudStore digest) (event : EventContent) (localState : ProposalState) : CloudStore digest :=
  { s with store := s.store.updateProposal event.proposalId fun row =>
      if ProposalState.active row.state then
        { row with state := localState
                   sourceDatabaseMutated := decide (localState = .applied) || row.sourceDatabaseMutated
                   updatedAt := event.createdAt }
      else row }

/-- The proposal is in one of the states that the UPDATE selects. -/
def isOpen (s : CloudStore digest) (proposalId : String) : Bool :=
  (s.store.getProposal proposalId).any fun row => ProposalState.active row.state

def appendEvent (s : CloudStore digest) (event : EventContent) (localState : ProposalState) : CloudStore digest :=
  { s with log := s.log ++ [{
      proposalId := event.proposalId, kind := "proposal_cloud_" ++ localState.text, cloudEventId := event.eventId
      cloudProposalId := event.cloudProposalId.getD event.proposalId, cloudState := event.state }] }

/-- The event of that id among those of the proposal. -/
def stored (s : CloudStore digest) (event : EventContent) : Option (GovernanceEvent digest) :=
  (s.governance.get? event.eventId).filter fun row => row.content.proposalId == event.proposalId

end CloudStore

abbrev Recording {Hash : Type} (digest : EventContent → Hash) := Attempt (CloudStore digest) Statement
  (Progress (CloudStore digest) Statement)

/-- The projection of an event on its proposal. -/
def applyEffect (point : Nat) (event : EventContent) (p : Progress (CloudStore digest) Statement) : Recording digest :=
  match localStateFromCloudGovernance event.state with
  | none => .ok p
  | some localState => do
    let changes := p.state.isOpen event.proposalId
    let p ← attempt point .project (fun s => some (s.project event localState)) p
    if changes then attempt point .append (fun s => some (s.appendEvent event localState)) p else .ok p

variable [DecidableEq Hash]

/-- The comparison with the stored event. -/
def readBack (event : GovernanceEvent digest) (p : Progress (CloudStore digest) Statement) : Recording digest :=
  match p.state.stored event.content with
  | none => refuse p
  | some row => if row.integrityHash = event.integrityHash then .ok p else refuse p

/-- The operation, of which the statement at the point fails. Past the last statement no
    point is one. -/
def recordCloudGovernanceEvent (point : Nat) (s : CloudStore digest) (input : EventInput) (now : Nat) : Recording digest :=
  let start : Progress (CloudStore digest) Statement := ⟨s, []⟩
  match s.store.getProposal input.proposalId, SecretMaterial.assertNoSecretMaterial input.payload
      (ascii ("cloud_governance_event." ++ input.eventId)) with
  | none, _ => refuse start
  | _, .error _ => refuse start
  | some _, .ok () => do
    let event : GovernanceEvent digest := ⟨input.content now, digest (input.content now), rfl⟩
    let p ← attempt point .insert (fun s => some (s.insertOrIgnore event)) start
    let p ← applyEffect point event.content p
    let p ← attempt point .select some p
    readBack event p

/-! ### What the operation should do -/

/-- The event is recorded and its effect applied. -/
def recorded (s : CloudStore digest) (event : GovernanceEvent digest) : CloudStore digest :=
  let inserted := s.insertOrIgnore event
  match localStateFromCloudGovernance event.content.state with
  | none => inserted
  | some localState =>
    if s.isOpen event.content.proposalId then
      (inserted.project event.content localState).appendEvent event.content localState
    else inserted

/-- All or nothing: a new event is recorded with its effect, the same event again changes
    nothing, and whatever throws, as another event of the same id must, changes nothing. -/
def Atomic (s : CloudStore digest) (content : EventContent) : Recording digest → Prop
  | .ok p => match s.governance.get? content.eventId with
    | none => p.state = recorded s ⟨content, digest content, rfl⟩
    | some row => row.content = content ∧ p.state = s
  | .error failure => failure.progress.state = s

/-- How many statements a first recording takes. -/
def statements (s : CloudStore digest) (content : EventContent) : Nat :=
  match localStateFromCloudGovernance content.state with
  | none => 2
  | some _ => if s.isOpen content.proposalId then 4 else 3

/-- The checks before the first statement pass. -/
def Admissible (s : CloudStore digest) (input : EventInput) : Prop :=
  (s.store.getProposal input.proposalId).isSome = true ∧
    SecretMaterial.assertNoSecretMaterial input.payload (ascii ("cloud_governance_event." ++ input.eventId)) = .ok ()

/-- A new id: no statement fails after the insertion. A known id: the event has no effect on
    the proposal as it is, or one of the first two statements fails. -/
def Undivided (s : CloudStore digest) (content : EventContent) (point : Nat) : Prop :=
  match s.governance.get? content.eventId with
  | none => point = 0 ∨ statements s content ≤ point
  | some _ => localStateFromCloudGovernance content.state = none ∨ s.isOpen content.proposalId = false ∨ point ≤ 1
end

/-! ### The statements -/

section
variable {Hash : Type} {digest : EventContent → Hash}

theorem localState_closed {state : String} {localState : ProposalState}
    (projected : localStateFromCloudGovernance state = some localState) : ProposalState.active localState = false := by
  unfold localStateFromCloudGovernance at projected
  split at projected <;> [cases projected; skip]
  · rfl
  split at projected <;> [cases projected; skip]
  · rfl
  split at projected <;> [cases projected; skip]
  · rfl
  split at projected <;> [cases projected; skip]
  · rfl
  split at projected <;> [cases projected; skip]
  · rfl
  split at projected <;> cases projected
  rfl

theorem insertOrIgnore_known {s : CloudStore digest} {event row : GovernanceEvent digest}
    (known : s.governance.get? event.content.eventId = some row) : s.insertOrIgnore event = s := by
  rw [CloudStore.insertOrIgnore, known]

theorem get?_insertOrIgnore {s : CloudStore digest} {event : GovernanceEvent digest}
    (fresh : s.governance.get? event.content.eventId = none) :
    (s.insertOrIgnore event).governance.get? event.content.eventId = some event := by
  simp [CloudStore.insertOrIgnore, fresh]

@[simp] theorem insertOrIgnore_store (s : CloudStore digest) (event : GovernanceEvent digest) :
    (s.insertOrIgnore event).store = s.store := by
  unfold CloudStore.insertOrIgnore
  split <;> rfl

@[simp] theorem isOpen_insertOrIgnore (s : CloudStore digest) (event : GovernanceEvent digest) (id : String) :
    (s.insertOrIgnore event).isOpen id = s.isOpen id := by
  simp [CloudStore.isOpen]

/-- What differs from a store with another governance table is another store. -/
theorem inserted_ne {s t : CloudStore digest} {event : GovernanceEvent digest}
    (fresh : s.governance.get? event.content.eventId = none)
    (table : t.governance = (s.insertOrIgnore event).governance) : t ≠ s := by
  intro same
  rw [same] at table
  have stands := get?_insertOrIgnore fresh
  rw [← table, fresh] at stands
  cases stands

/-- A closed proposal is not projected. -/
theorem project_closed {s : CloudStore digest} {event : EventContent} {localState : ProposalState}
    (closed : s.isOpen event.proposalId = false) : s.project event localState = s := by
  have fixed : s.store.updateProposal event.proposalId (fun row =>
      if ProposalState.active row.state then
        { row with state := localState
                   sourceDatabaseMutated := decide (localState = .applied) || row.sourceDatabaseMutated
                   updatedAt := event.createdAt }
      else row) = s.store := by
    rw [Store.updateProposal, KeyedMap.modify_eq_self]
    intro row found
    rw [CloudStore.isOpen, Store.getProposal, found, Option.any_some] at closed
    rw [if_neg (by simp [closed])]
  rw [CloudStore.project, fixed]

/-- The projection of an open proposal closes it. -/
theorem project_ne {s t : CloudStore digest} {event : EventContent} {localState : ProposalState}
    (projected : localStateFromCloudGovernance event.state = some localState)
    (openProposal : s.isOpen event.proposalId = true) (store : t.store = (s.project event localState).store) : t ≠ s := by
  intro same
  rw [same] at store
  have closed : s.isOpen event.proposalId = false := by
    rw [CloudStore.isOpen, store, CloudStore.project, Store.getProposal_updateProposal, if_pos rfl]
    cases found : s.store.getProposal event.proposalId with
    | none => rfl
    | some row =>
      simp only [CloudStore.isOpen, found, Option.any_some] at openProposal
      simp [openProposal, localState_closed projected]
  rw [closed] at openProposal
  cases openProposal

theorem stored_inserted {s t : CloudStore digest} {event : GovernanceEvent digest}
    (fresh : s.governance.get? event.content.eventId = none)
    (table : t.governance = (s.insertOrIgnore event).governance) : t.stored event.content = some event := by
  rw [CloudStore.stored, table, get?_insertOrIgnore fresh]
  simp

variable [DecidableEq Hash]

/-- The operation of an admissible event, statement by statement. -/
theorem record_cases {s : CloudStore digest} {input : EventInput} (admissible : Admissible s input) {point now : Nat}
    (event : GovernanceEvent digest) (given : event.content = input.content now) :
    recordCloudGovernanceEvent point s input now =
      let inserted := s.insertOrIgnore event
      if 0 = point then .error ⟨some .insert, ⟨s, []⟩⟩
      else if 1 = point then .error ⟨some (if localStateFromCloudGovernance event.content.state = none then .select
        else .project), ⟨inserted, [.insert]⟩⟩
      else match localStateFromCloudGovernance event.content.state with
        | none => readBack event ⟨inserted, [.insert, .select]⟩
        | some localState =>
          let projected := inserted.project event.content localState
          if s.isOpen event.content.proposalId then
            let appended := projected.appendEvent event.content localState
            if 2 = point then .error ⟨some .append, ⟨projected, [.insert, .project]⟩⟩
            else if 3 = point then .error ⟨some .select, ⟨appended, [.insert, .project, .append]⟩⟩
            else readBack event ⟨appended, [.insert, .project, .append, .select]⟩
          else if 2 = point then .error ⟨some .select, ⟨projected, [.insert, .project]⟩⟩
          else readBack event ⟨projected, [.insert, .project, .select]⟩ := by
  obtain ⟨present, clean⟩ := admissible
  obtain ⟨proposal, found⟩ := Option.isSome_iff_exists.mp present
  obtain ⟨content, hash, rfl⟩ := event
  obtain rfl : content = input.content now := given
  unfold recordCloudGovernanceEvent
  rw [found, clean]
  dsimp only
  rw [attempt_bind]
  dsimp only [List.length_nil]
  by_cases first : 0 = point
  · rw [if_pos first, if_pos first]
  rw [if_neg first, if_neg first, applyEffect]
  cases localStateFromCloudGovernance (input.content now).state with
  | none =>
    show (attempt point .select some _ >>= readBack _) = _
    rw [attempt_bind]
    rfl
  | some localState =>
    dsimp only
    rw [bind_assoc, attempt_bind, isOpen_insertOrIgnore]
    dsimp only [List.nil_append, List.length_singleton]
    by_cases second : 1 = point
    · rw [if_pos second, if_pos second]
      rfl
    rw [if_neg second, if_neg second]
    cases s.isOpen (input.content now).proposalId with
    | true =>
      simp only [if_true]
      rw [attempt_bind]
      dsimp only [List.cons_append, List.nil_append, List.length_cons, List.length_nil]
      by_cases third : 2 = point
      · rw [if_pos third, if_pos third]
      rw [if_neg third, if_neg third, attempt_bind]
      rfl
    | false =>
      show (attempt point .select some _ >>= readBack _) = _
      rw [attempt_bind]
      rfl

theorem record_refused {s : CloudStore digest} {input : EventInput} (inadmissible : ¬ Admissible s input)
    (point now : Nat) :
    recordCloudGovernanceEvent point s input now = refuse ⟨s, []⟩ := by
  unfold recordCloudGovernanceEvent
  split
  · rfl
  · rfl
  · rename_i present clean
    exact absurd ⟨by rw [present]; rfl, clean⟩ inadmissible

/-- What is read at the end of a first recording is the event itself. -/
theorem readBack_inserted {s : CloudStore digest} {event : GovernanceEvent digest}
    (fresh : s.governance.get? event.content.eventId = none) {p : Progress (CloudStore digest) Statement}
    (table : p.state.governance = (s.insertOrIgnore event).governance) : readBack event p = .ok p := by
  rw [readBack, stored_inserted fresh table]
  simp

/-- What is read at the end of a later one: the event itself, or one to refuse it for. -/
theorem readBack_known (injective : Function.Injective digest) {s : CloudStore digest} {event row : GovernanceEvent digest}
    (known : s.governance.get? event.content.eventId = some row) {p : Progress (CloudStore digest) Statement}
    (table : p.state.governance = s.governance) :
    (row.content = event.content ∧ readBack event p = .ok p) ∨ readBack event p = refuse p := by
  rw [readBack, CloudStore.stored, table, known]
  by_cases own : row.content.proposalId = event.content.proposalId
  · rw [Option.filter_some, if_pos (by simpa using own)]
    by_cases same : row.integrityHash = event.integrityHash
    · refine .inl ⟨?_, if_pos same⟩
      rw [row.signed, event.signed] at same
      exact injective same
    · exact .inr (if_neg same)
  · rw [Option.filter_some, if_neg (by simpa using own)]
    exact .inr rfl

/-- A new event is recorded with its effect, unless a statement fails after the insertion. -/
theorem atomic_fresh_iff {s : CloudStore digest} {input : EventInput} (admissible : Admissible s input) {point now : Nat}
    (fresh : s.governance.get? (input.content now).eventId = none) :
    Atomic s (input.content now) (recordCloudGovernanceEvent point s input now) ↔
      point = 0 ∨ statements s (input.content now) ≤ point := by
  let event : GovernanceEvent digest := ⟨input.content now, digest (input.content now), rfl⟩
  rw [record_cases admissible event rfl]
  dsimp only
  -- every statement after the insertion leaves its table alone
  have divided (failure : Failure (CloudStore digest) Statement)
      (table : failure.progress.state.governance = (s.insertOrIgnore event).governance) :
      ¬ Atomic s (input.content now) (.error failure) := inserted_ne fresh table
  have whole (p : Progress (CloudStore digest) Statement) (state : p.state = recorded s event)
      (table : p.state.governance = (s.insertOrIgnore event).governance) :
      Atomic s (input.content now) (readBack event p) := by
    rw [readBack_inserted fresh table]
    simp only [Atomic, fresh]
    exact state
  by_cases first : 0 = point
  · rw [if_pos first]
    exact iff_of_true rfl (.inl first.symm)
  rw [if_neg first]
  by_cases second : 1 = point
  · rw [if_pos second]
    refine iff_of_false (divided _ rfl) ?_
    simp only [statements]
    split
    · omega
    · split <;> omega
  rw [if_neg second]
  cases projected : localStateFromCloudGovernance (input.content now).state with
  | none =>
    simp only [statements, projected]
    refine iff_of_true (whole _ ?_ rfl) (by omega)
    simp only [recorded, event, projected]
  | some localState =>
    simp only [statements, projected]
    cases openProposal : s.isOpen (input.content now).proposalId with
    | true =>
      simp only [if_true]
      by_cases third : 2 = point
      · rw [if_pos third]
        exact iff_of_false (divided _ rfl) (by omega)
      rw [if_neg third]
      by_cases fourth : 3 = point
      · rw [if_pos fourth]
        exact iff_of_false (divided _ rfl) (by omega)
      rw [if_neg fourth]
      refine iff_of_true (whole _ ?_ rfl) (by omega)
      simp only [recorded, event, projected, openProposal, if_true]
    | false =>
      simp only [Bool.false_eq_true, if_false]
      by_cases third : 2 = point
      · rw [if_pos third]
        exact iff_of_false (divided _ rfl) (by omega)
      rw [if_neg third]
      refine iff_of_true (whole _ ?_ rfl) (by omega)
      simp only [recorded, event, projected, openProposal, Bool.false_eq_true, if_false]
      exact project_closed ((isOpen_insertOrIgnore s event _).trans openProposal)

/-- The same event again and another event of its id change nothing, unless the event has
    something to say of an open proposal. -/
theorem atomic_known_iff (injective : Function.Injective digest) {s : CloudStore digest} {input : EventInput}
    (admissible : Admissible s input) {point now : Nat} {row : GovernanceEvent digest}
    (known : s.governance.get? (input.content now).eventId = some row) :
    Atomic s (input.content now) (recordCloudGovernanceEvent point s input now) ↔
      localStateFromCloudGovernance (input.content now).state = none ∨
        s.isOpen (input.content now).proposalId = false ∨ point ≤ 1 := by
  let event : GovernanceEvent digest := ⟨input.content now, digest (input.content now), rfl⟩
  have isKnown : s.governance.get? event.content.eventId = some row := known
  rw [record_cases admissible event rfl, insertOrIgnore_known isKnown]
  dsimp only
  have unchanged (p : Progress (CloudStore digest) Statement) (state : p.state = s) :
      Atomic s (input.content now) (readBack event p) := by
    rcases readBack_known injective isKnown (by rw [state]) with ⟨same, ok⟩ | refused
    · rw [ok]
      simp only [Atomic, known]
      exact ⟨same, state⟩
    · rw [refused]
      exact state
  have changed (p : Progress (CloudStore digest) Statement) (table : p.state.governance = s.governance)
      (state : p.state ≠ s) : ¬ Atomic s (input.content now) (readBack event p) := by
    rcases readBack_known injective isKnown table with ⟨-, ok⟩ | refused
    · rw [ok]
      simp only [Atomic, known]
      exact fun whole => state whole.2
    · rw [refused]
      exact state
  by_cases first : 0 = point
  · rw [if_pos first]
    exact iff_of_true rfl (.inr (.inr (by omega)))
  rw [if_neg first]
  by_cases second : 1 = point
  · rw [if_pos second]
    exact iff_of_true rfl (.inr (.inr (by omega)))
  rw [if_neg second]
  cases projected : localStateFromCloudGovernance (input.content now).state with
  | none => exact iff_of_true (unchanged _ rfl) (.inl rfl)
  | some localState =>
    cases openProposal : s.isOpen (input.content now).proposalId with
    | true =>
      simp only [if_true, reduceCtorEq, false_or]
      have closes (t : CloudStore digest) (store : t.store = (s.project (input.content now) localState).store) : t ≠ s :=
        project_ne projected openProposal store
      refine iff_of_false ?_ (by omega)
      by_cases third : 2 = point
      · rw [if_pos third]
        exact closes _ rfl
      rw [if_neg third]
      by_cases fourth : 3 = point
      · rw [if_pos fourth]
        exact closes _ rfl
      rw [if_neg fourth]
      exact changed _ rfl (closes _ rfl)
    | false =>
      simp only [Bool.false_eq_true, if_false]
      have same : s.project (input.content now) localState = s := project_closed openProposal
      refine iff_of_true ?_ (.inr (.inl trivial))
      rw [same]
      by_cases third : 2 = point
      · rw [if_pos third]
        rfl
      rw [if_neg third]
      exact unchanged _ rfl

/-- An event is recorded whole or not at all exactly when it is refused before the first
    statement or undivided. -/
theorem recordCloudGovernanceEvent_atomic_iff (injective : Function.Injective digest) (s : CloudStore digest)
    (input : EventInput) (point now : Nat) :
    Atomic s (input.content now) (recordCloudGovernanceEvent point s input now) ↔
      (Admissible s input → Undivided s (input.content now) point) := by
  by_cases admissible : Admissible s input
  · simp only [admissible, true_imp_iff, Undivided]
    cases known : s.governance.get? (input.content now).eventId with
    | none => exact atomic_fresh_iff admissible known
    | some row => exact atomic_known_iff injective admissible known
  · refine iff_of_true ?_ (fun is => absurd is admissible)
    rw [record_refused admissible]
    rfl
end

/-- A state of a proposal that the cloud reports under the id `e`. -/
def report (state : String) : EventInput :=
  { eventId := "e", proposalId := "prop_1", cloudProposalId := none, kind := "k", state, payload := .null
    createdAt := some 1 }

/-- The proposal in review, with the reports that are known of it. -/
def underReview {Hash : Type} (digest : EventContent → Hash) (known : List (String × GovernanceEvent digest)) :
    CloudStore digest :=
  { store := { Store.empty with proposals := .ofList [("prop_1", closeTicketRow)] }, governance := .ofList known, log := [] }

theorem report_admissible {Hash : Type} (digest : EventContent → Hash) (known : List (String × GovernanceEvent digest))
    (state : String) : Admissible (underReview digest known) (report state) := ⟨rfl, rfl⟩

/-- A report that is new, and is not interrupted. -/
theorem rejection_recorded : letI : DecidableEq EventContent := Classical.decEq _
    Atomic (underReview id []) ((report "rejected").content 1)
      (recordCloudGovernanceEvent 9 (underReview id []) (report "rejected") 1) :=
  letI : DecidableEq EventContent := Classical.decEq _
  (recordCloudGovernanceEvent_atomic_iff Function.injective_id _ _ _ _).mpr fun _ => .inr (by decide)

/-- Another report under a known id is refused after it rejected the proposal. -/
theorem refused_report_applies : ¬ ∃ (Hash : Type) (_ : DecidableEq Hash) (digest : EventContent → Hash),
    Function.Injective digest ∧ ∀ (s : CloudStore digest) (input : EventInput) (point now : Nat),
      Atomic s (input.content now) (recordCloudGovernanceEvent point s input now) := by
  rintro ⟨Hash, _, digest, injective, claimed⟩
  let earlier : GovernanceEvent digest := ⟨(report "pending_review").content 1, digest _, rfl⟩
  have whole := claimed (underReview digest [("e", earlier)]) (report "rejected") 9 1
  have known : (underReview digest [("e", earlier)]).governance.get? ((report "rejected").content 1).eventId =
      some earlier := rfl
  rw [atomic_known_iff injective (report_admissible digest _ _) known] at whole
  rcases whole with noState | closed | early
  · cases noState
  · cases closed
  · omega

end SynapsorRunner.CloudGovernance
