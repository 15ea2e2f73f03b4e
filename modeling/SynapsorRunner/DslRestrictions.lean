import SynapsorRunner.DslCapabilities
import SynapsorRunner.Proposals

/-!
What the clauses of a capability block restrict, and what of it the compiled capability
keeps. A clause is the last word on the slots that it writes, so a restriction is
compiled exactly where some clause says it and no later clause takes its slot
(`restrictions_kept`).

Two clauses of one kind replace each other, and PROPOSE ACTION starts the proposal anew.
Only CONFLICT GUARD, LIMIT and the read declarations refuse a second clause.
-/
namespace SynapsorRunner.Dsl
open SynapsorRunner.Doubles SynapsorRunner.NumberText
open SynapsorRunner.Proposals (bind_eq_ok)
set_option linter.unusedSimpArgs false

/-! ### Restrictions -/

inductive Restriction where
  | keptOut (field : Text)
  | withheld (field : Text)
  | conflictGuard (column : Text)
  | weakConflictGuard
  | maxRows (rows : Number)
  | setMaxRows (rows : Number)
  | minGroupSize (size : Number)
  | protectedLimits (limits : ProtectedLimits)
  | total (bound : AggregateBound)
  | minimum (field : Text) (value : Number)
  | maximum (field : Text) (value : Number)
  | transition (field : Text) (fromColumn : Option Text) (source : Text) (targets : List Text)
  | approvals (count : ℕ)
  | limit (kind : LimitKind) (max : ℕ) (scope : LimitScope)

/-- The part of a draft that a restriction stands in. -/
inductive Slot where
  | keptOut
  | withheld
  | conflictGuard
  | maxRows
  | setMaxRows
  | minGroupSize
  | protectedLimits
  | totals
  | range (field : Text)
  | transitions (field : Text)
  | approvals
  | limits
  deriving DecidableEq

def Restriction.slot : Restriction → Slot
  | keptOut _ => .keptOut
  | withheld _ => .withheld
  | conflictGuard _ => .conflictGuard
  | weakConflictGuard => .conflictGuard
  | maxRows _ => .maxRows
  | setMaxRows _ => .setMaxRows
  | minGroupSize _ => .minGroupSize
  | protectedLimits _ => .protectedLimits
  | total _ => .totals
  | minimum field _ => .range field
  | maximum field _ => .range field
  | transition field .. => .transitions field
  | approvals _ => .approvals
  | limit .. => .limits

/-- The slots of a proposal. -/
def Slot.ofProposal : Slot → Bool
  | setMaxRows | totals | range _ | transitions _ | approvals | limits => true
  | _ => false

/-- What the lines before a clause say of it: whether the proposal is one of a set, and
    whether the block is a protected read of rows. -/
structure Context where
  set : Bool
  rows : Bool

/-- Whether a clause starts the proposal of a set. -/
def proposesSet : Clause → Option Bool
  | .propose kind set => some (kind.isSome && set)
  | _ => none

def readsRows : Clause → Bool
  | .protectedRead false => true
  | _ => false

def Context.start : Context := ⟨false, false⟩

def Context.next (context : Context) (clause : Clause) : Context :=
  ⟨(proposesSet clause).getD context.set, context.rows || readsRows clause⟩

/-- The context of a clause after these lines. -/
def contextAfter (before : List Item) : Context :=
  before.foldl (fun context item => context.next (clauseOf item.text)) .start

def rulesOf (item : Item) (rules : Text) : List (Text × List Text) :=
  ((transitionRules rules item.line).toOption).getD []

/-- What a clause restricts, as it is written. -/
def said (context : Context) (item : Item) : List Restriction :=
  match clauseOf item.text with
  | .weakConflictGuard => [.weakConflictGuard]
  | .conflictGuard column => [.conflictGuard column]
  | .keepOut fields => fields.map .keptOut
  | .modelWithheld fields => fields.map .withheld
  | .maxRows rows => [if context.set then .setMaxRows rows else .maxRows rows]
  | .protectedLimits limits => [.protectedLimits limits]
  | .minGroupSize size => [.minGroupSize size]
  | .maxTotal bound => [.total bound]
  | .bound field range => (range.minimum.map (.minimum field)).toList ++ (range.maximum.map (.maximum field)).toList
  | .transition field fromColumn rules => (rulesOf item rules).map fun rule => .transition field fromColumn rule.1 rule.2
  | .requireApprovals count => [.approvals count]
  | .limit raw => ((readLimit (trim raw)).map fun (kind, max, scope) => .limit kind max scope).toList
  | _ => []

/-- The rules of a transition that no later one of the clause replaces. -/
def effective : List (Text × List Text) → List (Text × List Text)
  | [] => []
  | rule :: rest =>
    if rule.1 = ascii "__proto__" ∨ rule.1 ∈ rest.map Prod.fst then effective rest else rule :: effective rest

/-- What a clause writes: what it says, but for a property `__proto__` and for replaced
    rules. The limits of a protected read of rows write MAX ROWS too. -/
def written (context : Context) (item : Item) : List Restriction :=
  match clauseOf item.text with
  | .protectedLimits limits => .protectedLimits limits :: if context.rows then [.maxRows limits.maxRows] else []
  | .bound field _ => if field = ascii "__proto__" then [] else said context item
  | .transition field fromColumn rules =>
    if field = ascii "__proto__" then []
    else (effective (rulesOf item rules)).map fun rule => .transition field fromColumn rule.1 rule.2
  | _ => said context item

/-- A clause takes a slot from the clauses before it. -/
def takes (context : Context) (clause : Clause) (slot : Slot) : Bool :=
  match clause with
  | .keepOut _ => decide (slot = .keptOut)
  | .modelWithheld _ => decide (slot = .withheld)
  | .maxRows _ => decide (slot = if context.set then .setMaxRows else .maxRows)
  | .protectedLimits _ => decide (slot = .protectedLimits) || context.rows && decide (slot = .maxRows)
  | .aggregateRead => decide (slot = .minGroupSize)
  | .minGroupSize _ => decide (slot = .minGroupSize)
  | .propose .. => slot.ofProposal
  | .bound field _ => decide (slot = .range field ∧ field ≠ ascii "__proto__")
  | .transition field .. => decide (slot = .transitions field ∧ field ≠ ascii "__proto__")
  | .requireApprovals _ => decide (slot = .approvals)
  | _ => false

/-- No line of a list takes the slot, where these lines come before the list. -/
def Untaken (slot : Slot) : List Item → List Item → Prop
  | _, [] => True
  | before, item :: rest =>
    takes (contextAfter before) (clauseOf item.text) slot = false ∧ Untaken slot (before ++ [item]) rest

/-- A clause of the block says a restriction. -/
def Says (block : Block) (r : Restriction) : Prop :=
  ∃ before item after, block.body = before ++ item :: after ∧ r ∈ said (contextAfter before) item

/-- A line of a list writes the restriction, and no later one takes its slot. -/
def LastWord (r : Restriction) : List Item → List Item → Prop
  | _, [] => False
  | before, item :: rest =>
    (r ∈ written (contextAfter before) item ∧ Untaken r.slot (before ++ [item]) rest) ∨
      LastWord r (before ++ [item]) rest

def proposes : Clause → Bool
  | .propose .. => true
  | _ => false

/-- What the compiled capability has a place for: MAX ROWS 0 has none, and a weak guard
    only in a proposal. -/
def Emitted (body : List Item) : Restriction → Prop
  | .maxRows rows => isZero rows = false
  | .weakConflictGuard => ∃ item ∈ body, proposes (clauseOf item.text) = true
  | _ => True

/-- The compiled capability has the restriction. -/
def CapabilitySpec.Holds (spec : CapabilitySpec) : Restriction → Prop
  | .keptOut field => field ∈ spec.keptOutFields
  | .withheld field => field ∈ spec.modelWithheldFields
  | .conflictGuard column =>
    spec.conflictKey = some column ∧ ∀ proposal ∈ spec.proposal, proposal.conflictGuard = some ⟨some column, false⟩
  | .weakConflictGuard => ∃ proposal, spec.proposal = some proposal ∧ proposal.conflictGuard = some ⟨none, true⟩
  | .maxRows rows => spec.maxRows = some rows
  | .setMaxRows rows => ((spec.proposal.bind (·.operation)).bind (·.maxRows)) = some rows
  | .minGroupSize size =>
    spec.aggregate.bind (·.minimumGroupSize) = some size ∨ spec.protectedRead.bind (·.minimumGroupSize) = some size
  | .protectedLimits limits => spec.protectedRead.bind (·.limits) = some limits
  | .total bound => ∃ operation, spec.proposal.bind (·.operation) = some operation ∧ bound ∈ operation.aggregateBounds
  | .minimum field value => ((spec.proposal.bind (·.numericBounds.get? field)).bind (·.minimum)) = some value
  | .maximum field value => ((spec.proposal.bind (·.numericBounds.get? field)).bind (·.maximum)) = some value
  | .transition field fromColumn source targets =>
    ∃ guard, spec.proposal.bind (·.transitionGuards.get? field) = some guard ∧ guard.fromColumn = fromColumn ∧
      guard.allowed.get? source = some targets
  | .approvals count => spec.proposal.bind (·.requiredApprovals) = some count
  | .limit kind max scope =>
    ∃ proposal limit, spec.proposal = some proposal ∧ limit ∈ proposal.limits ∧ limit.kind = kind ∧ limit.max = max ∧
      limit.scope = scope

/-! ### The draft -/

/-- The draft has the restriction. -/
def Draft.Holds (draft : Draft) : Restriction → Prop
  | .keptOut field => field ∈ draft.keptOutFields
  | .withheld field => field ∈ draft.modelWithheldFields
  | .conflictGuard column => draft.conflictKey = some column
  | .weakConflictGuard => draft.weakConflictGuardAcknowledged = true
  | .maxRows rows => draft.maxRows = some rows
  | .setMaxRows rows => ((draft.proposal.bind (·.operation)).bind (·.maxRows)) = some rows
  | .minGroupSize size =>
    draft.aggregate.bind (·.minimumGroupSize) = some size ∨ draft.protectedRead.bind (·.minimumGroupSize) = some size
  | .protectedLimits limits => draft.protectedRead.bind (·.limits) = some limits
  | .total bound => ∃ operation, draft.proposal.bind (·.operation) = some operation ∧ bound ∈ operation.aggregateBounds
  | .minimum field value => ((draft.proposal.bind (·.numericBounds.get? field)).bind (·.minimum)) = some value
  | .maximum field value => ((draft.proposal.bind (·.numericBounds.get? field)).bind (·.maximum)) = some value
  | .transition field fromColumn source targets =>
    ∃ guard, draft.proposal.bind (·.transitionGuards.get? field) = some guard ∧ guard.fromColumn = fromColumn ∧
      guard.allowed.get? source = some targets
  | .approvals count => draft.proposal.bind (·.requiredApprovals) = some count
  | .limit kind max scope =>
    ∃ proposal limit, draft.proposal = some proposal ∧ limit ∈ proposal.autoApprovalLimits ∧ limit.kind = kind ∧
      limit.max = max ∧ limit.scope = scope

/-- What a draft is in every block, with the context that its lines give. -/
structure DraftInv (draft : Draft) (context : Context) : Prop where
  set : draft.isSet = context.set
  rows : draft.protectedRead.any (fun reviewed => !reviewed.aggregate) = context.rows
  oneRead : draft.aggregate = none ∨ draft.protectedRead = none
  rowsUngrouped : ∀ reviewed ∈ draft.protectedRead, reviewed.aggregate = false → reviewed.minimumGroupSize = none
  kind : draft.proposal.isSome → draft.kind = .proposal
  oneGuard : draft.conflictKey = none ∨ draft.weakConflictGuardAcknowledged = false
  ruled : ∀ proposal ∈ draft.proposal, proposal.autoApprovalRules = [] → proposal.autoApprovalLimits = []

theorem draftInv_start : DraftInv .start .start := by
  constructor <;> simp [Draft.start, Draft.isSet, Context.start]

theorem not_holds_start (r : Restriction) : ¬ Draft.start.Holds r := by
  cases r <;> simp [Draft.Holds, Draft.start]

/-! ### Records -/

theorem get?_assign {α : Type} (record : KeyedMap Text α) (key key' : Text) (value : α) :
    (assign record key value).get? key' =
      if key' = key ∧ key ≠ ascii "__proto__" then some value else record.get? key' := by
  unfold assign
  by_cases proto : key = ascii "__proto__"
  · simp [proto]
  · rw [if_neg proto, KeyedMap.get?_set]
    simp [proto]

theorem effective_of_mem {rules : List (Text × List Text)} {rule : Text × List Text} (member : rule ∈ effective rules) :
    rule ∈ rules ∧ rule.1 ≠ ascii "__proto__" := by
  induction rules with
  | nil => cases member
  | cons first rest ih =>
    unfold effective at member
    split at member
    · exact ⟨List.mem_cons_of_mem _ (ih member).1, (ih member).2⟩
    · rename_i kept
      rcases List.mem_cons.mp member with rfl | later
      · exact ⟨List.mem_cons_self .., (not_or.mp kept).1⟩
      · exact ⟨List.mem_cons_of_mem _ (ih later).1, (ih later).2⟩

/-- A state of the rules has the targets of its last rule. -/
theorem get?_rules (rules : List (Text × List Text)) (allowed : KeyedMap Text (List Text)) (source : Text)
    (targets : List Text) :
    (rules.foldl (fun allowed rule => assign allowed rule.1 rule.2) allowed).get? source = some targets ↔
      (source, targets) ∈ effective rules ∨
        ((source = ascii "__proto__" ∨ source ∉ rules.map Prod.fst) ∧ allowed.get? source = some targets) := by
  induction rules generalizing allowed with
  | nil => simp [effective]
  | cons rule rest ih =>
    rw [List.foldl_cons, ih, get?_assign]
    obtain ⟨state, next⟩ := rule
    by_cases proto : state = ascii "__proto__"
    · by_cases same : source = state
      · simp [effective, proto, same]
      · have other : source ≠ ascii "__proto__" := fun is => same (is.trans proto.symm)
        simp [effective, proto, other]
    by_cases later : state ∈ rest.map Prod.fst
    · by_cases same : source = state
      · subst same
        simp [effective, proto, later]
      · simp [effective, proto, later, same]
    · by_cases same : source = state
      · subst same
        have gone : ∀ targets, (source, targets) ∉ effective rest := fun targets member =>
          later (List.mem_map.mpr ⟨_, (effective_of_mem member).1, rfl⟩)
        simp [effective, proto, later, gone, eq_comm]
      · simp [effective, proto, later, same]

theorem parseTransitionAllowed_ok {item : Item} {rules : Text} {allowed : KeyedMap Text (List Text)}
    (accepted : parseTransitionAllowed rules item.line = .ok allowed) :
    allowed = (rulesOf item rules).foldl (fun allowed rule => assign allowed rule.1 rule.2) .empty := by
  obtain ⟨listed, read, rest⟩ := bind_eq_ok accepted
  dsimp only at rest
  split at rest
  · cases rest
  · cases rest
    simp only [rulesOf, read, Except.toOption, Option.getD_some]

/-! ### One clause -/

theorem ensureProposal_ok {draft : Draft} {line : ℕ} {proposal : ProposalDraft}
    (ensured : ensureProposal draft line = .ok proposal) : draft.proposal = some proposal := by
  unfold ensureProposal at ensured
  cases is : draft.proposal with
  | none => rw [is] at ensured; cases ensured
  | some other => rw [is] at ensured; cases ensured; rfl

theorem requireProtectedRead_ok {draft : Draft} {line : ℕ} {reviewed : ProtectedDraft}
    (required : requireProtectedRead draft line = .ok reviewed) : draft.protectedRead = some reviewed := by
  unfold requireProtectedRead at required
  cases is : draft.protectedRead with
  | none => rw [is] at required; cases required
  | some other => rw [is] at required; cases required; rfl

theorem duplicateGuard_ok {draft : Draft} {blockName : Text} {line : ℕ} {u : Unit}
    (single : duplicateGuard draft blockName line = .ok u) :
    draft.conflictKey = none ∧ draft.weakConflictGuardAcknowledged = false := by
  unfold duplicateGuard at single
  split at single
  · cases single
  · rename_i free
    simpa using free

theorem ensureSetProposal_ok {draft : Draft} {line : ℕ} {proposal : ProposalDraft} {operation : Operation}
    (ensured : ensureSetProposal draft line = .ok (proposal, operation)) :
    draft.proposal = some proposal ∧ proposal.operation = some operation ∧ operation.set = true := by
  obtain ⟨other, proposed, rest⟩ := bind_eq_ok ensured
  split at rest
  · rename_i found is
    cases rest
    obtain ⟨same, set⟩ := Option.filter_eq_some_iff.mp is
    exact ⟨ensureProposal_ok proposed, same, set⟩
  · cases rest

/-- The rule of AUTO APPROVE leaves the restrictions of a proposal. -/
theorem parseAutoApprovalClause_ok {proposal ruled : ProposalDraft} {condition : Text} {line : ℕ}
    (accepted : parseAutoApprovalClause proposal condition line = .ok ruled) :
    ∃ rule, ruled = { proposal with autoApprovalRules := proposal.autoApprovalRules ++ [rule] } := by
  unfold parseAutoApprovalClause at accepted
  split at accepted
  · cases accepted
  · split at accepted
    · cases accepted
    split at accepted
    · cases accepted
    split at accepted
    · cases accepted
    · cases accepted
      exact ⟨_, rfl⟩

theorem parseAutoApprovalLimitClause_ok {proposal : ProposalDraft} {raw : Text} {line : ℕ} {limit : ApprovalLimit}
    (accepted : parseAutoApprovalLimitClause proposal raw line = .ok limit) :
    proposal.autoApprovalRules ≠ [] ∧ readLimit (trim raw) = some (limit.kind, limit.max, limit.scope) := by
  unfold parseAutoApprovalLimitClause at accepted
  split at accepted
  · cases accepted
  · rename_i ruled
    refine ⟨ruled, ?_⟩
    split at accepted
    · cases accepted
    · rename_i kind max scope read
      split at accepted
      · cases accepted
      · obtain ⟨field, _, rest⟩ := bind_eq_ok accepted
        split at rest
        · cases rest
        · cases rest
          exact read

/-- What holds of a draft after a clause: what the clause writes, and what was there in
    the slots that it leaves. -/
theorem applyClause_holds {blockName : Text} {draft next : Draft} {item : Item} {context : Context}
    (inv : DraftInv draft context)
    (accepted : applyClause blockName item.line draft (clauseOf item.text) = .ok next) (r : Restriction) :
    next.Holds r ↔
      r ∈ written context item ∨ (draft.Holds r ∧ takes context (clauseOf item.text) r.slot = false) := by
  unfold written said
  cases is : clauseOf item.text with
  | weakConflictGuard =>
    rw [is] at accepted
    obtain ⟨_, _, rest⟩ := bind_eq_ok accepted
    cases rest
    cases r <;> simp [Draft.Holds, takes]
  | conflictGuard column =>
    rw [is] at accepted
    obtain ⟨_, single, rest⟩ := bind_eq_ok accepted
    obtain ⟨free, _⟩ := duplicateGuard_ok single
    cases rest
    cases r with
    | conflictGuard other => simp [Draft.Holds, takes, free, eq_comm (a := column)]
    | _ => simp [Draft.Holds, takes]
  | keepOut fields =>
    rw [is] at accepted
    cases accepted
    cases r <;> simp [Draft.Holds, takes, Restriction.slot]
  | modelWithheld fields =>
    rw [is] at accepted
    cases accepted
    cases r <;> simp [Draft.Holds, takes, Restriction.slot]
  | maxRows rows =>
    rw [is] at accepted
    simp only [applyClause] at accepted
    have set := inv.set
    split at accepted
    · rename_i proposal operation found
      cases accepted
      obtain ⟨other, proposed, rest⟩ := Option.bind_eq_some_iff.mp found
      obtain ⟨_, is, same⟩ := Option.map_eq_some_iff.mp rest
      cases same
      obtain ⟨operates, sets⟩ := Option.filter_eq_some_iff.mp is
      have here : context.set = true := by rw [← set]; simp [Draft.isSet, proposed, operates, sets]
      cases r <;>
        simp [Draft.Holds, Draft.withProposal, takes, Restriction.slot, here, proposed, operates, eq_comm (a := rows)]
    · rename_i none
      cases accepted
      have elsewhere : context.set = false := by
        rw [← set, Draft.isSet]
        cases proposed : draft.proposal with
        | none => rfl
        | some proposal =>
          cases operates : proposal.operation with
          | none => simp [operates]
          | some operation => simpa [proposed, operates, Option.filter] using none
      cases r <;> simp [Draft.Holds, takes, Restriction.slot, elsewhere, eq_comm (a := rows)]
  | protectedRead aggregate =>
    rw [is] at accepted
    simp only [applyClause] at accepted
    split at accepted
    · cases accepted
    · rename_i free
      cases accepted
      have alone : draft.aggregate = none ∧ draft.protectedRead = none := by
        simp only [not_or, Bool.not_eq_true, Option.isSome_eq_false_iff, Option.isNone_iff_eq_none] at free
        exact free.2
      cases r <;> simp [Draft.Holds, takes, alone.1, alone.2]
  | protectedLimits limits =>
    rw [is] at accepted
    obtain ⟨reviewed, required, rest⟩ := bind_eq_ok accepted
    have reads := requireProtectedRead_ok required
    have rows := inv.rows
    rw [reads, Option.any_some] at rows
    cases grouped : reviewed.aggregate with
    | true =>
      rw [grouped] at rest rows
      cases rest
      cases r <;>
        simp [Draft.Holds, takes, Restriction.slot, ← rows, reads, eq_comm (a := limits), eq_comm (a := limits.maxRows)]
    | false =>
      rw [grouped] at rest rows
      cases rest
      cases r <;>
        simp [Draft.Holds, takes, Restriction.slot, ← rows, reads, eq_comm (a := limits), eq_comm (a := limits.maxRows)]
  | aggregateRead =>
    rw [is] at accepted
    simp only [applyClause] at accepted
    split at accepted
    · cases accepted
    · rename_i free
      cases accepted
      have alone : draft.protectedRead = none := by
        simp only [not_or, Bool.not_eq_true, Option.isSome_eq_false_iff, Option.isNone_iff_eq_none] at free
        exact free.2
      cases r <;> simp [Draft.Holds, takes, Restriction.slot, alone]
  | minGroupSize size =>
    rw [is] at accepted
    simp only [applyClause] at accepted
    split at accepted
    · rename_i reviewed is
      obtain ⟨reads, grouped⟩ := Option.filter_eq_some_iff.mp is
      cases accepted
      have alone : draft.aggregate = none := inv.oneRead.resolve_right (by rw [reads]; simp)
      cases r <;> simp [Draft.Holds, takes, Restriction.slot, reads, alone, eq_comm (a := size)]
    · split at accepted
      · rename_i legacy
        cases accepted
        have alone : draft.protectedRead = none :=
          inv.oneRead.resolve_left (Option.isSome_iff_ne_none.mp legacy)
        cases r <;> simp [Draft.Holds, takes, Restriction.slot, alone, eq_comm (a := size)]
      · cases accepted
  | propose kind set =>
    rw [is] at accepted
    cases accepted
    cases r <;> simp [Draft.Holds, takes, Restriction.slot, Slot.ofProposal, KeyedMap.get?_empty]
    all_goals cases kind <;> simp
  | maxTotal bound =>
    rw [is] at accepted
    obtain ⟨⟨proposal, operation⟩, ensured, rest⟩ := bind_eq_ok accepted
    obtain ⟨proposed, operates, _⟩ := ensureSetProposal_ok ensured
    cases rest
    cases r <;> simp [Draft.Holds, Draft.withProposal, takes, Restriction.slot, proposed, operates, or_comm]
  | bound field range =>
    rw [is] at accepted
    obtain ⟨proposal, ensured, rest⟩ := bind_eq_ok accepted
    have proposed := ensureProposal_ok ensured
    split at rest
    · cases rest
    cases rest
    have after (other : Text) := get?_assign proposal.numericBounds field other range
    by_cases proto : field = ascii "__proto__"
    · subst proto
      cases r <;> simp [Draft.Holds, Draft.withProposal, takes, Restriction.slot, proposed, assign]
    · cases r with
      | minimum other value =>
        by_cases same : field = other
        · subst same
          simp [Draft.Holds, Draft.withProposal, takes, Restriction.slot, after, proto]
        · simp [Draft.Holds, Draft.withProposal, takes, Restriction.slot, proposed, after, proto, same, Ne.symm same]
      | maximum other value =>
        by_cases same : field = other
        · subst same
          simp [Draft.Holds, Draft.withProposal, takes, Restriction.slot, after, proto]
        · simp [Draft.Holds, Draft.withProposal, takes, Restriction.slot, proposed, after, proto, same, Ne.symm same]
      | _ => simp [Draft.Holds, Draft.withProposal, takes, Restriction.slot, proposed, proto]
  | transition field fromColumn rules =>
    rw [is] at accepted
    obtain ⟨proposal, ensured, rest⟩ := bind_eq_ok accepted
    have proposed := ensureProposal_ok ensured
    obtain ⟨allowed, parsed, rest⟩ := bind_eq_ok rest
    have listed := parseTransitionAllowed_ok parsed
    cases rest
    cases r with
    | transition other fromOther source targets =>
      have after := get?_assign proposal.transitionGuards field other ⟨fromColumn, allowed⟩
      have rule := get?_rules (rulesOf item rules) .empty source targets
      rw [← listed, KeyedMap.get?_empty] at rule
      by_cases proto : field = ascii "__proto__"
      · subst proto
        simp [Draft.Holds, Draft.withProposal, takes, Restriction.slot, proposed, assign]
      by_cases same : field = other
      · subst same
        simp [Draft.Holds, Draft.withProposal, takes, Restriction.slot, after, proto, rule, and_comm]
      · simp [Draft.Holds, Draft.withProposal, takes, Restriction.slot, proposed, after, proto, same, Ne.symm same]
    | _ => by_cases proto : field = ascii "__proto__" <;>
        simp [Draft.Holds, Draft.withProposal, takes, Restriction.slot, proposed, proto]
  | requireApprovals count =>
    rw [is] at accepted
    obtain ⟨proposal, ensured, rest⟩ := bind_eq_ok accepted
    have proposed := ensureProposal_ok ensured
    split at rest
    · cases rest
    cases rest
    cases r <;> simp [Draft.Holds, Draft.withProposal, takes, Restriction.slot, proposed, eq_comm (a := count)]
  | autoApprove condition =>
    rw [is] at accepted
    obtain ⟨proposal, ensured, rest⟩ := bind_eq_ok accepted
    have proposed := ensureProposal_ok ensured
    obtain ⟨ruled, parsed, rest⟩ := bind_eq_ok rest
    obtain ⟨rule, rfl⟩ := parseAutoApprovalClause_ok parsed
    cases rest
    cases r <;> simp [Draft.Holds, Draft.withProposal, takes, proposed]
  | limit raw =>
    rw [is] at accepted
    obtain ⟨proposal, ensured, rest⟩ := bind_eq_ok accepted
    have proposed := ensureProposal_ok ensured
    obtain ⟨limit, parsed, rest⟩ := bind_eq_ok rest
    obtain ⟨_, read⟩ := parseAutoApprovalLimitClause_ok parsed
    cases rest
    cases r with
    | limit kind max scope =>
      have said : Restriction.limit kind max scope ∈ [Restriction.limit limit.kind limit.max limit.scope] ↔
          limit.kind = kind ∧ limit.max = max ∧ limit.scope = scope := by
        simp [eq_comm]
      simp only [read, Option.map_some, Option.toList_some, said]
      constructor
      · rintro ⟨_, other, again, member, same⟩
        cases again
        rcases List.mem_append.mp member with old | new
        · exact .inr ⟨⟨proposal, other, proposed, old, same⟩, rfl⟩
        · obtain rfl := List.mem_singleton.mp new
          exact .inl same
      · rintro (same | ⟨⟨_, other, again, member, same⟩, _⟩)
        · exact ⟨_, limit, rfl, List.mem_append_right _ (List.mem_singleton_self limit), same⟩
        · obtain rfl := Option.some.inj (proposed.symm.trans again)
          exact ⟨_, other, rfl, List.mem_append_left _ member, same⟩
    | _ => simp [Draft.Holds, Draft.withProposal, takes, Restriction.slot, proposed, read]
  | other =>
    rw [is] at accepted
    cases accepted
    cases r <;> simp [Draft.Holds, takes]

/-! ### A block -/

theorem contextAfter_append (before : List Item) (item : Item) :
    contextAfter (before ++ [item]) = (contextAfter before).next (clauseOf item.text) := by
  simp [contextAfter]

/-- A clause that neither proposes nor reads rows leaves the context. -/
theorem Context.next_eq (context : Context) {clause : Clause} (unproposed : proposesSet clause = none)
    (unread : readsRows clause = false) : context.next clause = context := by
  simp [Context.next, unproposed, unread]

/-- Another proposal in the place of one leaves what a draft is. -/
theorem DraftInv.withProposal {draft : Draft} {context : Context} (inv : DraftInv draft context)
    {proposal other : ProposalDraft} (proposed : draft.proposal = some proposal)
    (set : other.operation.any (·.set) = proposal.operation.any (·.set))
    (ruled : other.autoApprovalRules = [] → other.autoApprovalLimits = []) :
    DraftInv (draft.withProposal other) context := by
  refine ⟨?_, inv.rows, inv.oneRead, inv.rowsUngrouped, fun _ => inv.kind (by simp [proposed]), inv.oneGuard, ?_⟩
  · rw [← inv.set]
    simpa [Draft.isSet, Draft.withProposal, proposed] using set
  · rintro _ ⟨⟩
    exact ruled

theorem applyClause_inv {blockName : Text} {line : ℕ} {draft next : Draft} {clause : Clause} {context : Context}
    (inv : DraftInv draft context) (accepted : applyClause blockName line draft clause = .ok next) :
    DraftInv next (context.next clause) := by
  have ruled := inv.ruled
  cases clause with
  | weakConflictGuard =>
    obtain ⟨_, single, rest⟩ := bind_eq_ok accepted
    obtain ⟨free, _⟩ := duplicateGuard_ok single
    cases rest
    rw [context.next_eq rfl rfl]
    exact { inv with oneGuard := .inl free }
  | conflictGuard column =>
    obtain ⟨_, single, rest⟩ := bind_eq_ok accepted
    obtain ⟨_, free⟩ := duplicateGuard_ok single
    cases rest
    rw [context.next_eq rfl rfl]
    exact { inv with oneGuard := .inr free }
  | keepOut fields =>
    cases accepted
    rw [context.next_eq rfl rfl]
    exact { inv with }
  | modelWithheld fields =>
    cases accepted
    rw [context.next_eq rfl rfl]
    exact { inv with }
  | maxRows rows =>
    rw [context.next_eq rfl rfl]
    simp only [applyClause] at accepted
    split at accepted
    · rename_i proposal operation found
      cases accepted
      obtain ⟨other, proposed, rest⟩ := Option.bind_eq_some_iff.mp found
      obtain ⟨_, is, same⟩ := Option.map_eq_some_iff.mp rest
      cases same
      obtain ⟨operates, sets⟩ := Option.filter_eq_some_iff.mp is
      exact inv.withProposal proposed (by simp [operates]) (ruled proposal proposed)
    · cases accepted
      exact { inv with }
  | protectedRead aggregate =>
    simp only [applyClause] at accepted
    split at accepted
    · cases accepted
    rename_i free
    simp only [not_or, Bool.not_eq_true, Option.isSome_eq_false_iff, Option.isNone_iff_eq_none] at free
    obtain ⟨unproposed, single, unread⟩ := free
    cases accepted
    refine ⟨inv.set, ?_, .inl single, ?_, fun proposed => by simp [unproposed] at proposed, inv.oneGuard, ruled⟩
    · have rows := inv.rows
      rw [unread] at rows
      cases aggregate <;> simp [Context.next, readsRows, ← rows]
    · rintro _ ⟨⟩
      exact fun _ => rfl
  | protectedLimits limits =>
    obtain ⟨reviewed, required, rest⟩ := bind_eq_ok accepted
    have reads := requireProtectedRead_ok required
    have unread : draft.aggregate = none := inv.oneRead.resolve_right (by simp [reads])
    have rows := inv.rows
    rw [reads, Option.any_some] at rows
    rw [context.next_eq rfl rfl]
    cases grouped : reviewed.aggregate with
    | true =>
      rw [grouped] at rest rows
      cases rest
      refine ⟨inv.set, by simpa [grouped] using rows, .inl unread, ?_, inv.kind, inv.oneGuard, ruled⟩
      rintro _ ⟨⟩ ungrouped
      cases ungrouped
    | false =>
      rw [grouped] at rest rows
      cases rest
      refine ⟨inv.set, by simpa [grouped] using rows, .inl unread, ?_, inv.kind, inv.oneGuard, ruled⟩
      rintro _ ⟨⟩ ungrouped
      exact inv.rowsUngrouped reviewed reads grouped
  | aggregateRead =>
    simp only [applyClause] at accepted
    split at accepted
    · cases accepted
    rename_i free
    simp only [not_or, Bool.not_eq_true, Option.isSome_eq_false_iff, Option.isNone_iff_eq_none] at free
    obtain ⟨unproposed, unread⟩ := free
    cases accepted
    rw [context.next_eq rfl rfl]
    exact { inv with oneRead := .inr unread, kind := fun proposed => by simp [unproposed] at proposed }
  | minGroupSize size =>
    rw [context.next_eq rfl rfl]
    simp only [applyClause] at accepted
    split at accepted
    · rename_i reviewed is
      obtain ⟨reads, grouped⟩ := Option.filter_eq_some_iff.mp is
      cases accepted
      have rows := inv.rows
      rw [reads] at rows
      refine ⟨inv.set, by simpa using rows, .inl (inv.oneRead.resolve_right (by simp [reads])), ?_, inv.kind, inv.oneGuard,
        ruled⟩
      rintro _ ⟨⟩ ungrouped
      rw [grouped] at ungrouped
      cases ungrouped
    · split at accepted
      · rename_i legacy
        cases accepted
        exact { inv with oneRead := .inr (inv.oneRead.resolve_left (Option.isSome_iff_ne_none.mp legacy)) }
      · cases accepted
  | propose action set =>
    cases accepted
    refine ⟨?_, by simpa [Context.next, readsRows] using inv.rows, inv.oneRead, inv.rowsUngrouped, fun _ => rfl,
      inv.oneGuard, ?_⟩
    · cases action <;> simp [Draft.isSet, Context.next, proposesSet]
    · rintro _ ⟨⟩
      exact fun _ => rfl
  | maxTotal bound =>
    obtain ⟨⟨proposal, operation⟩, ensured, rest⟩ := bind_eq_ok accepted
    obtain ⟨proposed, operates, sets⟩ := ensureSetProposal_ok ensured
    cases rest
    rw [context.next_eq rfl rfl]
    exact inv.withProposal proposed (by simp [operates]) (ruled proposal proposed)
  | bound field range =>
    obtain ⟨proposal, ensured, rest⟩ := bind_eq_ok accepted
    have proposed := ensureProposal_ok ensured
    split at rest
    · cases rest
    cases rest
    rw [context.next_eq rfl rfl]
    exact inv.withProposal proposed rfl (ruled proposal proposed)
  | transition field fromColumn rules =>
    obtain ⟨proposal, ensured, rest⟩ := bind_eq_ok accepted
    have proposed := ensureProposal_ok ensured
    obtain ⟨allowed, parsed, rest⟩ := bind_eq_ok rest
    cases rest
    rw [context.next_eq rfl rfl]
    exact inv.withProposal proposed rfl (ruled proposal proposed)
  | requireApprovals count =>
    obtain ⟨proposal, ensured, rest⟩ := bind_eq_ok accepted
    have proposed := ensureProposal_ok ensured
    split at rest
    · cases rest
    cases rest
    rw [context.next_eq rfl rfl]
    exact inv.withProposal proposed rfl (ruled proposal proposed)
  | autoApprove condition =>
    obtain ⟨proposal, ensured, rest⟩ := bind_eq_ok accepted
    have proposed := ensureProposal_ok ensured
    obtain ⟨_, parsed, rest⟩ := bind_eq_ok rest
    obtain ⟨rule, rfl⟩ := parseAutoApprovalClause_ok parsed
    cases rest
    rw [context.next_eq rfl rfl]
    exact inv.withProposal proposed rfl (by simp)
  | limit raw =>
    obtain ⟨proposal, ensured, rest⟩ := bind_eq_ok accepted
    have proposed := ensureProposal_ok ensured
    obtain ⟨limit, parsed, rest⟩ := bind_eq_ok rest
    obtain ⟨ruledHere, _⟩ := parseAutoApprovalLimitClause_ok parsed
    cases rest
    rw [context.next_eq rfl rfl]
    exact inv.withProposal proposed rfl fun unruled => absurd unruled ruledHere
  | other =>
    cases accepted
    rw [context.next_eq rfl rfl]
    exact inv

theorem applyClause_proposes {blockName : Text} {line : ℕ} {draft next : Draft} {clause : Clause}
    (accepted : applyClause blockName line draft clause = .ok next) :
    next.proposal.isSome = (draft.proposal.isSome || proposes clause) := by
  cases clause with
  | weakConflictGuard | conflictGuard =>
    obtain ⟨_, _, rest⟩ := bind_eq_ok accepted
    cases rest
    simp [proposes]
  | keepOut | modelWithheld | other | propose =>
    cases accepted
    simp [proposes]
  | maxRows rows =>
    simp only [applyClause] at accepted
    split at accepted
    · rename_i proposal operation found
      cases accepted
      obtain ⟨other, proposed, _⟩ := Option.bind_eq_some_iff.mp found
      simp [Draft.withProposal, proposed]
    · cases accepted
      simp [proposes]
  | protectedRead | aggregateRead =>
    simp only [applyClause] at accepted
    split at accepted
    · cases accepted
    cases accepted
    simp [proposes]
  | protectedLimits limits =>
    obtain ⟨reviewed, _, rest⟩ := bind_eq_ok accepted
    cases grouped : reviewed.aggregate with
    | true | false =>
      rw [grouped] at rest
      cases rest
      simp [proposes]
  | minGroupSize size =>
    simp only [applyClause] at accepted
    split at accepted
    · cases accepted
      simp [proposes]
    · split at accepted
      · cases accepted
        simp [proposes]
      · cases accepted
  | maxTotal bound =>
    obtain ⟨⟨proposal, operation⟩, ensured, rest⟩ := bind_eq_ok accepted
    cases rest
    simp [Draft.withProposal, (ensureSetProposal_ok ensured).1]
  | bound field range =>
    obtain ⟨proposal, ensured, rest⟩ := bind_eq_ok accepted
    split at rest
    · cases rest
    cases rest
    simp [Draft.withProposal, ensureProposal_ok ensured]
  | transition field fromColumn rules =>
    obtain ⟨proposal, ensured, rest⟩ := bind_eq_ok accepted
    obtain ⟨allowed, _, rest⟩ := bind_eq_ok rest
    cases rest
    simp [Draft.withProposal, ensureProposal_ok ensured]
  | requireApprovals count =>
    obtain ⟨proposal, ensured, rest⟩ := bind_eq_ok accepted
    split at rest
    · cases rest
    cases rest
    simp [Draft.withProposal, ensureProposal_ok ensured]
  | autoApprove condition =>
    obtain ⟨proposal, ensured, rest⟩ := bind_eq_ok accepted
    obtain ⟨_, _, rest⟩ := bind_eq_ok rest
    cases rest
    simp [Draft.withProposal, ensureProposal_ok ensured]
  | limit raw =>
    obtain ⟨proposal, ensured, rest⟩ := bind_eq_ok accepted
    obtain ⟨_, _, rest⟩ := bind_eq_ok rest
    cases rest
    simp [Draft.withProposal, ensureProposal_ok ensured]

theorem parseItems_ok {checks : OtherChecks} {blockName : Text} {items before : List Item} {draft final : Draft}
    (inv : DraftInv draft (contextAfter before)) (accepted : parseItems checks blockName before draft items = .ok final) :
    DraftInv final (contextAfter (before ++ items)) ∧
      (∀ r, final.Holds r ↔ LastWord r before items ∨ (draft.Holds r ∧ Untaken r.slot before items)) ∧
      (final.proposal.isSome = true ↔
        draft.proposal.isSome = true ∨ ∃ item ∈ items, proposes (clauseOf item.text) = true) := by
  induction items generalizing before draft with
  | nil =>
    cases accepted
    exact ⟨by simpa using inv, fun r => by simp [LastWord, Untaken], by simp⟩
  | cons item rest ih =>
    obtain ⟨_, _, applied⟩ := bind_eq_ok accepted
    obtain ⟨next, stepped, parsed⟩ := bind_eq_ok applied
    have nextInv : DraftInv next (contextAfter (before ++ [item])) := by
      rw [contextAfter_append]
      exact applyClause_inv inv stepped
    obtain ⟨finalInv, holds, proposed⟩ := ih nextInv parsed
    refine ⟨by simpa using finalInv, fun r => ?_, ?_⟩
    · rw [holds, applyClause_holds inv stepped r]
      simp only [LastWord, Untaken]
      tauto
    · rw [proposed, applyClause_proposes stepped]
      simp [or_assoc]

/-! ### The compiled capability -/

/-- The proposal is compiled whenever there is one. -/
theorem capabilitySpec_eq {draft : Draft} {context : Context} (inv : DraftInv draft context) :
    capabilitySpec draft =
      { conflictKey := draft.conflictKey, keptOutFields := draft.keptOutFields
        modelWithheldFields := draft.modelWithheldFields, maxRows := draft.maxRows.filter fun rows => !isZero rows
        aggregate := draft.aggregate, protectedRead := draft.protectedRead
        proposal := draft.proposal.map (proposalSpec draft) } := by
  cases proposed : draft.proposal with
  | none => simp [capabilitySpec, proposed]
  | some proposal => simp [capabilitySpec, proposed, inv.kind (by simp [proposed])]

theorem proposalSpec_limits {draft : Draft} {context : Context} (inv : DraftInv draft context) {proposal : ProposalDraft}
    (proposed : draft.proposal = some proposal) : (proposalSpec draft proposal).limits = proposal.autoApprovalLimits := by
  unfold proposalSpec
  dsimp only
  split
  · rename_i unruled
    exact (inv.ruled proposal proposed unruled).symm
  · rfl

theorem capabilitySpec_holds {draft : Draft} {context : Context} (inv : DraftInv draft context) (r : Restriction) :
    (capabilitySpec draft).Holds r ↔
      draft.Holds r ∧ (match r with
        | .maxRows rows => isZero rows = false
        | .weakConflictGuard => draft.proposal.isSome = true
        | _ => True) := by
  rw [capabilitySpec_eq inv]
  cases r with
  | conflictGuard column =>
    cases proposed : draft.proposal with
    | none => simp [CapabilitySpec.Holds, Draft.Holds]
    | some proposal =>
      simp only [CapabilitySpec.Holds, Draft.Holds, Option.map_some, Option.mem_some_iff, forall_eq', proposalSpec, and_true]
      exact ⟨And.left, fun guarded => ⟨guarded, by simp [conflictGuardOf, guarded]⟩⟩
  | weakConflictGuard =>
    cases proposed : draft.proposal with
    | none => simp [CapabilitySpec.Holds, Draft.Holds]
    | some proposal =>
      rcases inv.oneGuard with unguarded | strict
      · simp [CapabilitySpec.Holds, Draft.Holds, proposalSpec, conflictGuardOf, unguarded]
      · cases guarded : draft.conflictKey <;>
          simp [CapabilitySpec.Holds, Draft.Holds, proposalSpec, conflictGuardOf, strict, guarded]
  | maxRows rows => simp [CapabilitySpec.Holds, Draft.Holds, Option.filter_eq_some_iff]
  | limit kind max scope =>
    cases proposed : draft.proposal with
    | none => simp [CapabilitySpec.Holds, Draft.Holds, proposed]
    | some proposal =>
      simp [CapabilitySpec.Holds, Draft.Holds, proposed, proposalSpec_limits inv proposed]
  | _ => cases proposed : draft.proposal <;> simp [CapabilitySpec.Holds, Draft.Holds, proposed, proposalSpec]

/-- A restriction of a block is compiled exactly where some clause writes it and no later
    clause takes its slot. -/
theorem compileCapability_holds {checks : OtherChecks} {block : Block} {spec : CapabilitySpec}
    (accepted : compileCapability checks block = .ok spec) (r : Restriction) :
    spec.Holds r ↔ Emitted block.body r ∧ LastWord r [] block.body := by
  obtain ⟨draft, parsed, rfl⟩ : ∃ draft, parseCapabilityBlock checks block = .ok draft ∧ capabilitySpec draft = spec := by
    unfold compileCapability at accepted
    cases parsed : parseCapabilityBlock checks block with
    | error e => rw [parsed] at accepted; cases accepted
    | ok draft => rw [parsed] at accepted; cases accepted; exact ⟨draft, rfl, rfl⟩
  obtain ⟨final, items, rest⟩ := bind_eq_ok parsed
  obtain ⟨_, _, rest⟩ := bind_eq_ok rest
  cases rest
  obtain ⟨inv, holds, proposed⟩ := parseItems_ok draftInv_start items
  rw [capabilitySpec_holds inv, holds, and_comm]
  simp only [not_holds_start, false_and, or_false]
  refine and_congr_left' ?_
  cases r with
  | weakConflictGuard => simpa [Emitted, Draft.start] using proposed
  | _ => rfl

/-- Everything that a clause of the block says is compiled. -/
def Kept (block : Block) (spec : CapabilitySpec) : Prop := ∀ r, Says block r → spec.Holds r

/-- Everything that a clause of the block says has a last word and a place. -/
def Block.Lasting (block : Block) : Prop := ∀ r, Says block r → Emitted block.body r ∧ LastWord r [] block.body

/-- The capability blocks of a source. -/
def capabilitiesOf (source : Text) : List Block := ((parseBlocks source).toOption.map capabilityBlocks).getD []

theorem kept_iff {checks : OtherChecks} {block : Block} {spec : CapabilitySpec}
    (accepted : compileCapability checks block = .ok spec) : Kept block spec ↔ block.Lasting :=
  forall₂_congr fun r _ => compileCapability_holds accepted r

theorem forall₂_mapM_ok {ε α β : Type} {f : α → Except ε β} {l : List α} {r : List β} (run : l.mapM f = .ok r) :
    List.Forall₂ (fun a b => f a = .ok b) l r := by
  induction l generalizing r with
  | nil =>
    cases run
    exact .nil
  | cons a rest ih =>
    rw [List.mapM_cons] at run
    obtain ⟨b, here, run⟩ := bind_eq_ok run
    obtain ⟨bs, there, run⟩ := bind_eq_ok run
    cases run
    exact .cons here (ih there)

theorem forall₂_kept_iff {checks : OtherChecks} {blocks : List Block} {specs : List CapabilitySpec}
    (accepted : List.Forall₂ (fun block spec => compileCapability checks block = .ok spec) blocks specs) :
    List.Forall₂ Kept blocks specs ↔ ∀ block ∈ blocks, block.Lasting := by
  induction accepted with
  | nil => simp
  | cons here _ ih => rw [List.forall₂_cons, List.forall_mem_cons, kept_iff here, ih]

/-- An accepted source keeps every restriction of its capability blocks exactly where each
    is the last word on its slot and has a place in the capability. -/
theorem restrictions_kept (checks : OtherChecks) (source : Text) (specs : List CapabilitySpec)
    (accepted : compileAgentDsl checks source = .ok specs) :
    List.Forall₂ Kept (capabilitiesOf source) specs ↔ ∀ block ∈ capabilitiesOf source, block.Lasting := by
  obtain ⟨blocks, parsed, rest⟩ := bind_eq_ok accepted
  obtain ⟨compiled, each, rest⟩ := bind_eq_ok rest
  obtain ⟨_, _, rest⟩ := bind_eq_ok rest
  cases rest
  have are : capabilitiesOf source = capabilityBlocks blocks := by
    rw [capabilitiesOf, parsed]
    rfl
  rw [are]
  exact forall₂_kept_iff (forall₂_mapM_ok each)

/-- Nothing else refuses. -/
def permissive : OtherChecks := ⟨fun _ _ => .ok (), fun _ => .ok (), fun _ => .ok ()⟩

def sourceOf (lines : List String) : Text := lines.flatMap fun line => ascii line ++ [unit '\n']

/-- A capability that keeps out one field, and then another. -/
def keptOutTwice : Text :=
  sourceOf
    ["CREATE AGENT CONTEXT support_context",
     "  BIND tenant_id FROM ENVIRONMENT SYNAPSOR_TENANT_ID REQUIRED",
     "  TENANT BINDING tenant_id",
     "END",
     "CREATE CAPABILITY support.inspect_customer",
     "  USING CONTEXT support_context",
     "  SOURCE local_postgres",
     "  ON public.customers",
     "  PRIMARY KEY id",
     "  TENANT KEY tenant_id",
     "  LOOKUP customer_id BY id",
     "  ALLOW READ id",
     "  KEEP OUT ssn",
     "  KEEP OUT email",
     "END"]

theorem keptOutTwice_compiles :
    (compileAgentDsl permissive keptOutTwice).map (List.map CapabilitySpec.keptOutFields) = .ok [[ascii "email"]] := by
  decide

def twiceBlock : Block :=
  ⟨.capability, ascii "support.inspect_customer", 5,
    [⟨ascii "USING CONTEXT support_context", 6⟩, ⟨ascii "SOURCE local_postgres", 7⟩, ⟨ascii "ON public.customers", 8⟩,
     ⟨ascii "PRIMARY KEY id", 9⟩, ⟨ascii "TENANT KEY tenant_id", 10⟩, ⟨ascii "LOOKUP customer_id BY id", 11⟩,
     ⟨ascii "ALLOW READ id", 12⟩, ⟨ascii "KEEP OUT ssn", 13⟩, ⟨ascii "KEEP OUT email", 14⟩]⟩

theorem capabilitiesOf_keptOutTwice : capabilitiesOf keptOutTwice = [twiceBlock] := by
  decide

theorem twiceBlock_says : Says twiceBlock (.keptOut (ascii "ssn")) := by
  refine ⟨twiceBlock.body.take 7, ⟨ascii "KEEP OUT ssn", 13⟩, [⟨ascii "KEEP OUT email", 14⟩], rfl, ?_⟩
  have is : clauseOf (ascii "KEEP OUT ssn") = .keepOut [ascii "ssn"] := rfl
  simp [said, is]

/-- The second clause drops the field of the first. -/
theorem second_keep_out_replaces :
    ∃ specs, compileAgentDsl permissive keptOutTwice = .ok specs ∧
      ¬ List.Forall₂ Kept (capabilitiesOf keptOutTwice) specs := by
  have compiles := keptOutTwice_compiles
  cases compiled : compileAgentDsl permissive keptOutTwice with
  | error e => rw [compiled] at compiles; cases compiles
  | ok specs =>
    rw [compiled] at compiles
    refine ⟨specs, rfl, fun kept => ?_⟩
    rw [capabilitiesOf_keptOutTwice] at kept
    cases kept with
    | cons here none =>
      cases none
      have kept := here _ twiceBlock_says
      have fields := List.singleton_inj.mp (Except.ok.inj compiles)
      rw [CapabilitySpec.Holds, fields] at kept
      revert kept
      decide

theorem restrictions_kept_twice :
    ∃ specs, compileAgentDsl permissive keptOutTwice = .ok specs ∧
      (List.Forall₂ Kept (capabilitiesOf keptOutTwice) specs ↔ twiceBlock.Lasting) := by
  have compiles := keptOutTwice_compiles
  cases compiled : compileAgentDsl permissive keptOutTwice with
  | error e => rw [compiled] at compiles; cases compiles
  | ok specs =>
    refine ⟨specs, rfl, ?_⟩
    rw [restrictions_kept permissive keptOutTwice specs compiled, capabilitiesOf_keptOutTwice]
    simp

end SynapsorRunner.Dsl
