import SynapsorRunner.DslText

/-!
The restrictions of a capability block. Every line of the block is one clause, taken by
the first pattern that it matches, and writes the draft of the capability; the compiled
capability is read off the last draft.

The clauses that restrict nothing are read as `other`. What they and the checks of a
whole block, of the contexts and workflows and of the contract refuse is `OtherChecks`,
of which nothing is assumed.
-/
namespace SynapsorRunner.Dsl
open SynapsorRunner.Doubles SynapsorRunner.NumberText SynapsorRunner.Patterns SynapsorRunner.Patterns.Pattern

/-! ### Values -/

/-- `Number(text)` of an optional sign, digits and a fraction. -/
def numberOf (t : Text) : Number :=
  let unsigned := if t.head? = some (unit '-') then t.tail else t
  let (whole, rest) := spanDigits unsigned
  numeralNumber (decide (t.head? = some (unit '-'))) ⟨whole, (spanDigits rest.tail).1, none⟩

/-- The number of a text of digits. -/
def digitsValue (t : Text) : ℕ := natOfDigits (spanDigits t).1

/-- A number that a condition takes for false. -/
def isZero : Number → Bool
  | .finite _ m => decide (m = Magnitude.zero)
  | _ => false

/-- `split(separator)`, with the parts trimmed and the empty ones left out. -/
def trimmedParts (separator : Char) (t : Text) : List Text :=
  ((t.splitOn (unit separator)).map trim).filter fun part => part != []

def parseList (value : Text) : List Text := trimmedParts ',' value

/-- An assignment to a property of a record. That of `__proto__` makes no property. -/
def assign {α : Type} (record : KeyedMap Text α) (key : Text) (value : α) : KeyedMap Text α :=
  if key = ascii "__proto__" then record else record.set key value

structure Bound where
  minimum : Option Number
  maximum : Option Number
  deriving DecidableEq

structure TransitionGuard where
  fromColumn : Option Text
  allowed : KeyedMap Text (List Text)

inductive TotalMeasure where
  | before
  | after
  | absoluteDelta
  deriving DecidableEq

structure AggregateBound where
  column : Text
  measure : TotalMeasure
  maximum : Number
  deriving DecidableEq

inductive LimitKind where
  | count
  | total
  deriving DecidableEq

inductive LimitScope where
  | tenantPolicy
  | tenantPolicyObject
  deriving DecidableEq

structure ApprovalLimit where
  kind : LimitKind
  max : ℕ
  field : Option Text
  scope : LimitScope
  deriving DecidableEq

structure ProtectedLimits where
  maxRows : Number
  maxGroups : Number
  maxRankedGroups : Option Number
  maxResponseCells : Number
  maxResponseBytes : Number
  statementTimeoutMs : Number
  maxQueriesPerSession : Number
  maxExtractedCellsPerSession : Number
  maxDifferencingQueries : Number
  rateLimitPerMinute : Number
  deriving DecidableEq

inductive OperationKind where
  | update
  | insert
  | delete
  deriving DecidableEq

/-! ### Clauses -/

inductive Clause where
  | weakConflictGuard
  | conflictGuard (column : Text)
  | keepOut (fields : List Text)
  | modelWithheld (fields : List Text)
  | maxRows (rows : Number)
  | protectedRead (aggregate : Bool)
  | protectedLimits (limits : ProtectedLimits)
  | aggregateRead
  | minGroupSize (size : Number)
  | propose (kind : Option OperationKind) (set : Bool)
  | maxTotal (bound : AggregateBound)
  | bound (field : Text) (range : Bound)
  | transition (field : Text) (fromColumn : Option Text) (rules : Text)
  | requireApprovals (count : ℕ)
  | autoApprove (condition : Text)
  | limit (raw : Text)
  | other

/-- The clause of a pattern, where its groups are as the code asks for them. -/
def clause (p : TextPattern) (read : Groups CodeUnit → Option Clause) (t : Text) : Option Clause :=
  (p.matchWhole t).bind read

def keptOutPattern : TextPattern := all [phrase ["KEEP", "OUT"], spaces, group 1 someText]

def modelWithheldPattern : TextPattern := all [phrase ["MODEL", "WITHHELD"], spaces, group 1 someText]

def conflictPattern : TextPattern := all [phrase ["CONFLICT", "GUARD"], spaces, group 1 name]

def maxRowsPattern : TextPattern := all [phrase ["MAX", "ROWS"], spaces, group 1 digits]

def protectedReadPattern : TextPattern :=
  all [phrase ["PROTECTED", "READ"], spaces, group 1 (any [word "ROWS", word "AGGREGATE"])]

/-- Words, and a number under a group. -/
def counted (words : List String) (number : ℕ) : TextPattern := all [phrase words, spaces, group number digits]

def protectedLimitsPattern : TextPattern :=
  all [counted ["PROTECTED", "LIMITS", "ROWS"] 1, spaces, counted ["GROUPS"] 2,
    optional (seq spaces (counted ["RANKED", "GROUPS"] 3)), spaces, counted ["CELLS"] 4, spaces, counted ["BYTES"] 5,
    spaces, counted ["TIMEOUT", "MS"] 6, spaces, counted ["QUERIES"] 7, spaces, counted ["EXTRACTED", "CELLS"] 8,
    spaces, counted ["DIFFERENCING"] 9, spaces, counted ["RATE", "PER", "MINUTE"] 10]

def aggregateReadPattern : TextPattern :=
  all [phrase ["AGGREGATE", "READ"], spaces,
    any [phrase ["COUNT", "ROWS"], all [phrase ["COUNT", "NON", "NULL"], spaces, name],
      all [word "SUM", spaces, name], all [word "AVG", spaces, name]]]

def minimumGroupPattern : TextPattern := counted ["MIN", "GROUP", "SIZE"] 1

def proposePattern : TextPattern :=
  all [phrase ["PROPOSE", "ACTION"], spaces,
    group 1 (seq (one startsName) (longest (fun u => inName u || decide (u = unit '.')) 0)),
    optional (all [spaces, group 2 (any [word "UPDATE", word "INSERT", word "DELETE"]),
      optional (group 3 (seq spaces (word "SET")))])]

def maxTotalPattern : TextPattern :=
  all [phrase ["MAX", "TOTAL"], spaces, group 1 name, spaces,
    group 2 (any [word "BEFORE", word "AFTER", phrase ["ABSOLUTE", "DELTA"]]), spaces, group 3 decimal]

def boundPattern : TextPattern :=
  all [word "BOUND", spaces, group 1 name, spaces, optional (group 2 decimal), maybeSpaces, exactly "..", maybeSpaces,
    optional (group 3 decimal)]

def transitionPattern : TextPattern :=
  all [word "TRANSITION", spaces, group 1 name, optional (all [spaces, word "FROM", spaces, group 2 name]), spaces,
    word "ALLOW", spaces, group 3 someText]

def approvalsPattern : TextPattern := all [word "REQUIRE", spaces, group 1 digits, spaces, word "APPROVALS"]

def autoApprovePattern : TextPattern := all [phrase ["AUTO", "APPROVE", "WHEN"], spaces, group 1 someText]

def limitPattern : TextPattern := all [word "LIMIT", spaces, group 1 someText]

/-- The numbers of PROTECTED LIMITS. -/
def readLimits (g : Groups CodeUnit) : Option ProtectedLimits := do
  let number (group : ℕ) := (g.get group).map numberOf
  pure { maxRows := ← number 1, maxGroups := ← number 2, maxRankedGroups := number 3, maxResponseCells := ← number 4
         maxResponseBytes := ← number 5, statementTimeoutMs := ← number 6, maxQueriesPerSession := ← number 7
         maxExtractedCellsPerSession := ← number 8, maxDifferencingQueries := ← number 9
         rateLimitPerMinute := ← number 10 }

/-- A word that a group has matched, by its first letter. -/
def firstLetter (t : Text) : Option CodeUnit := t.head?.map lowerLetter

def readOperation (t : Text) : OperationKind :=
  if firstLetter t = some (unit 'u') then .update
  else if firstLetter t = some (unit 'i') then .insert
  else .delete

def readMeasure (t : Text) : TotalMeasure :=
  if firstLetter t = some (unit 'b') then .before
  else if (t.take 2).map lowerLetter = ascii "af" then .after
  else .absoluteDelta

def readMaxTotal (g : Groups CodeUnit) : Option Clause := do
  let column ← g.get 1
  let measure ← g.get 2
  let maximum ← g.get 3
  pure (.maxTotal ⟨column, readMeasure measure, numberOf maximum⟩)

/-- The patterns in the order in which a line tries them. -/
def clauseReaders : List (Text → Option Clause) :=
  [clause (phrase ["CONFLICT", "GUARD", "WEAK", "ROW", "HASH", "ACKNOWLEDGED"]) fun _ => some .weakConflictGuard,
   clause conflictPattern fun g => (g.get 1).map .conflictGuard,
   clause keptOutPattern fun g => (g.get 1).map fun fields => .keepOut (parseList fields),
   clause modelWithheldPattern fun g => (g.get 1).map fun fields => .modelWithheld (parseList fields),
   clause maxRowsPattern fun g => (g.get 1).map fun rows => .maxRows (numberOf rows),
   clause protectedReadPattern fun g => (g.get 1).map fun mode =>
     .protectedRead (decide (firstLetter mode = some (unit 'a'))),
   clause protectedLimitsPattern fun g => (readLimits g).map .protectedLimits,
   clause aggregateReadPattern fun _ => some .aggregateRead,
   clause minimumGroupPattern fun g => (g.get 1).map fun size => .minGroupSize (numberOf size),
   clause proposePattern fun g => some (.propose ((g.get 2).map readOperation) (g.get 3).isSome),
   clause maxTotalPattern readMaxTotal,
   clause boundPattern fun g => (g.get 1).map fun field =>
     .bound field ⟨(g.get 2).map numberOf, (g.get 3).map numberOf⟩,
   clause transitionPattern fun g => (g.get 1).bind fun field => (g.get 3).map fun rules =>
     .transition field (g.get 2) rules,
   clause approvalsPattern fun g => (g.get 1).map fun count => .requireApprovals (digitsValue count),
   clause autoApprovePattern fun g => (g.get 1).map .autoApprove,
   clause limitPattern fun g => (g.get 1).map .limit]

def clauseOf (t : Text) : Clause := (clauseReaders.findSome? fun read => read t).getD .other

/-! ### Transitions -/

def parseStateValue (raw : Text) : Text :=
  let trimmed := trim raw
  let quoted := (all [exactly "'", group 1 anyText, exactly "'"]).matchWhole trimmed
  trim ((quoted.bind fun g => g.get 1).getD trimmed)

def rulePattern : TextPattern :=
  all [group 1 (shortest isInLine 1), maybeSpaces, exactly "->", maybeSpaces, group 2 someText]

def ruleError {α : Type} (line : ℕ) (what : String) (item : Text) : Except DslError α :=
  dslError line 1 "TRANSITION_RULE_INVALID" (ascii what ++ item)

/-- One rule of a transition: a state and the states that it may become. -/
def parseRule (line : ℕ) (item : Text) : Except DslError (Text × List Text) :=
  match (rulePattern.matchWhole item).bind fun g => (g.get 1).bind fun left => (g.get 2).map fun right => (left, right) with
  | none => ruleError line "transition rule must use from -> to syntax: " item
  | some (left, right) =>
    let source := parseStateValue left
    let targets := ((right.splitOn (unit '|')).map parseStateValue).filter fun state => state != []
    if source = [] ∨ targets = [] then ruleError line "transition rule must name non-empty states: " item
    else .ok (source, targets)

/-- The rules of a TRANSITION clause, in order. -/
def transitionRules (raw : Text) (line : ℕ) : Except DslError (List (Text × List Text)) :=
  (trimmedParts ',' raw).mapM (parseRule line)

/-- `parseTransitionAllowed`: a rule replaces an earlier one for the same state. -/
def parseTransitionAllowed (raw : Text) (line : ℕ) : Except DslError (KeyedMap Text (List Text)) := do
  let rules ← transitionRules raw line
  let allowed := rules.foldl (fun allowed (source, targets) => assign allowed source targets) KeyedMap.empty
  if allowed.entries = [] then
    dslError line 1 "TRANSITION_ALLOWED_REQUIRED" (ascii "TRANSITION requires at least one from -> to rule")
  else pure allowed

/-! ### The draft of a capability -/

structure Operation where
  kind : OperationKind
  set : Bool
  maxRows : Option Number
  aggregateBounds : List AggregateBound

structure ProposalDraft where
  operation : Option Operation
  numericBounds : KeyedMap Text Bound
  transitionGuards : KeyedMap Text TransitionGuard
  requiredApprovals : Option ℕ
  autoApprovalRules : List (Text × ℕ)
  autoApprovalLimits : List ApprovalLimit

structure AggregateDraft where
  minimumGroupSize : Option Number

structure ProtectedDraft where
  aggregate : Bool
  limits : Option ProtectedLimits
  minimumGroupSize : Option Number

inductive CapabilityKind where
  | read
  | aggregateRead
  | proposal
  deriving DecidableEq

structure Draft where
  kind : CapabilityKind
  keptOutFields : List Text
  modelWithheldFields : List Text
  conflictKey : Option Text
  weakConflictGuardAcknowledged : Bool
  maxRows : Option Number
  aggregate : Option AggregateDraft
  protectedRead : Option ProtectedDraft
  proposal : Option ProposalDraft

def Draft.start : Draft := ⟨.read, [], [], none, false, none, none, none, none⟩

def ensureProposal (draft : Draft) (line : ℕ) : Except DslError ProposalDraft :=
  match draft.proposal with
  | some proposal => .ok proposal
  | none => dslError line 1 "PROPOSAL_ACTION_REQUIRED" (ascii "proposal clauses require PROPOSE ACTION first")

/-- The proposal of a set, with its operation. -/
def ensureSetProposal (draft : Draft) (line : ℕ) : Except DslError (ProposalDraft × Operation) := do
  let proposal ← ensureProposal draft line
  match proposal.operation.filter (·.set) with
  | some operation => pure (proposal, operation)
  | none =>
    dslError line 1 "SET_OPERATION_REQUIRED"
      (ascii "bounded-set clauses require PROPOSE ACTION ... UPDATE SET, INSERT SET, or DELETE SET")

def requireProtectedRead (draft : Draft) (line : ℕ) : Except DslError ProtectedDraft :=
  match draft.protectedRead with
  | some reviewed => .ok reviewed
  | none => dslError line 1 "PROTECTED_READ_REQUIRED"
      (ascii "protected-read clauses require PROTECTED READ ROWS or PROTECTED READ AGGREGATE first")

def Draft.withProposal (draft : Draft) (proposal : ProposalDraft) : Draft := { draft with proposal := some proposal }

/-- The proposal is one of a set. -/
def Draft.isSet (draft : Draft) : Bool := (draft.proposal.bind (·.operation)).any (·.set)

def duplicateGuard (draft : Draft) (blockName : Text) (line : ℕ) : Except DslError Unit :=
  if draft.conflictKey.isSome ∨ draft.weakConflictGuardAcknowledged then
    dslError line 1 "DUPLICATE_CONFLICT_GUARD" (blockName ++ ascii " declares CONFLICT GUARD more than once")
  else .ok ()

/-! ### Automatic approval -/

def autoApprovalPattern : TextPattern := all [group 1 name, maybeSpaces, exactly "<=", maybeSpaces, group 2 someText]

/-- The rule of AUTO APPROVE WHEN. -/
def parseAutoApprovalClause (proposal : ProposalDraft) (rawCondition : Text) (line : ℕ) : Except DslError ProposalDraft :=
  match (autoApprovalPattern.matchWhole (trim rawCondition)).bind fun g =>
      (g.get 1).bind fun field => (g.get 2).map fun rawMax => (field, trim rawMax) with
  | none => dslError line 1 "AUTO_APPROVE_UNSUPPORTED" (ascii "AUTO APPROVE WHEN supports only: <field> <= <integer>")
  | some (field, rawMax) =>
    if (digits.matchWhole rawMax).isNone then
      dslError line 1 "AUTO_APPROVE_MAX_INVALID" (ascii "AUTO APPROVE WHEN max must be a non-negative integer")
    else if 2 ^ 53 ≤ digitsValue rawMax then
      dslError line 1 "AUTO_APPROVE_MAX_INVALID" (ascii "AUTO APPROVE WHEN max must be a safe non-negative integer")
    else if proposal.autoApprovalRules.any fun rule => decide (rule.1 = field) then
      dslError line 1 "AUTO_APPROVE_DUPLICATE_FIELD" (ascii "AUTO APPROVE WHEN already defines a rule for " ++ field)
    else .ok { proposal with autoApprovalRules := proposal.autoApprovalRules ++ [(field, digitsValue rawMax)] }

/-- `PER (?:(OBJECT) )?DAY` after a number. -/
def perDay : TextPattern :=
  all [group 1 digits, spaces, word "PER", spaces, optional (seq (group 2 (word "OBJECT")) spaces), word "DAY"]

/-- The limit of LIMIT, before its field is known. -/
def readLimit (value : Text) : Option (LimitKind × ℕ × LimitScope) :=
  let scope (g : Groups CodeUnit) := if (g.get 2).isSome then LimitScope.tenantPolicyObject else .tenantPolicy
  let read (kind : LimitKind) (g : Groups CodeUnit) := (g.get 1).map fun max => (kind, digitsValue max, scope g)
  ((perDay.matchWhole value).bind (read .count)).or
    (((all [word "TOTAL", spaces, perDay]).matchWhole value).bind (read .total))

/-- The only field of the rules, for a total. -/
def limitField (proposal : ProposalDraft) (kind : LimitKind) (line : ℕ) : Except DslError (Option Text) :=
  match kind with
  | .count => .ok none
  | .total =>
    match (proposal.autoApprovalRules.map Prod.fst).dedup with
    | [field] => .ok (some field)
    | _ => dslError line 1 "AUTO_APPROVAL_TOTAL_FIELD_AMBIGUOUS"
        (ascii "LIMIT TOTAL requires exactly one AUTO APPROVE WHEN numeric field")

def parseAutoApprovalLimitClause (proposal : ProposalDraft) (rawLimit : Text) (line : ℕ) :
    Except DslError ApprovalLimit :=
  if proposal.autoApprovalRules = [] then
    dslError line 1 "AUTO_APPROVAL_LIMIT_POLICY_REQUIRED"
      (ascii "LIMIT must follow AUTO APPROVE WHEN in the same capability")
  else match readLimit (trim rawLimit) with
    | none => dslError line 1 "AUTO_APPROVAL_LIMIT_UNSUPPORTED"
        (ascii "LIMIT supports: LIMIT <count> PER DAY or LIMIT TOTAL <amount> PER DAY")
    | some (kind, max, scope) =>
      if 2 ^ 53 ≤ max then
        dslError line 1 "AUTO_APPROVAL_LIMIT_MAX_INVALID" (ascii "LIMIT max must be a safe non-negative integer")
      else do
        let field ← limitField proposal kind line
        if proposal.autoApprovalLimits.any fun limit => decide (limit.kind = kind ∧ limit.scope = scope) then
          dslError line 1 "AUTO_APPROVAL_LIMIT_DUPLICATE" (ascii "duplicate " ++
            ascii (match kind with | .count => "count" | .total => "total") ++ ascii " auto-approval limit for the same scope")
        else pure ⟨kind, max, field, scope⟩

/-! ### The effect of a clause -/

def applyClause (blockName : Text) (line : ℕ) (draft : Draft) : Clause → Except DslError Draft
  | .weakConflictGuard => do
    duplicateGuard draft blockName line
    pure { draft with weakConflictGuardAcknowledged := true }
  | .conflictGuard column => do
    duplicateGuard draft blockName line
    pure { draft with conflictKey := some column }
  | .keepOut fields => .ok { draft with keptOutFields := fields }
  | .modelWithheld fields => .ok { draft with modelWithheldFields := fields }
  | .maxRows rows =>
    match draft.proposal.bind fun proposal =>
      (proposal.operation.filter (·.set)).map fun operation => (proposal, operation) with
    | some (proposal, operation) =>
      .ok (draft.withProposal { proposal with operation := some { operation with maxRows := some rows } })
    | none => .ok { draft with maxRows := some rows }
  | .protectedRead aggregate =>
    if draft.proposal.isSome ∨ draft.aggregate.isSome ∨ draft.protectedRead.isSome then
      dslError line 1 "PROTECTED_READ_CONFLICT"
        (ascii "PROTECTED READ cannot be combined with proposal, legacy aggregate, or another protected-read declaration")
    else .ok { draft with
      kind := if aggregate then .aggregateRead else .read, protectedRead := some ⟨aggregate, none, none⟩ }
  | .protectedLimits limits => do
    let reviewed ← requireProtectedRead draft line
    let limited := { draft with protectedRead := some { reviewed with limits := some limits } }
    pure (if reviewed.aggregate then limited else { limited with maxRows := some limits.maxRows })
  | .aggregateRead =>
    if draft.proposal.isSome ∨ draft.protectedRead.isSome then
      dslError line 1 "AGGREGATE_PROPOSAL_CONFLICT"
        (ascii "AGGREGATE READ cannot be combined with PROPOSE ACTION or PROTECTED READ")
    else .ok { draft with kind := .aggregateRead, aggregate := some ⟨none⟩ }
  | .minGroupSize size =>
    match draft.protectedRead.filter (·.aggregate) with
    | some reviewed => .ok { draft with protectedRead := some { reviewed with minimumGroupSize := some size } }
    | none =>
      if draft.aggregate.isSome then .ok { draft with aggregate := some ⟨some size⟩ }
      else dslError line 1 "AGGREGATE_READ_REQUIRED"
        (ascii "MIN GROUP SIZE requires AGGREGATE READ or PROTECTED READ AGGREGATE first")
  | .propose kind set =>
    .ok { draft with
      kind := .proposal
      proposal := some ⟨kind.map fun kind => ⟨kind, set, none, []⟩, .empty, .empty, none, [], []⟩ }
  | .maxTotal bound => do
    let (proposal, operation) ← ensureSetProposal draft line
    pure (draft.withProposal
      { proposal with operation := some { operation with aggregateBounds := operation.aggregateBounds ++ [bound] } })
  | .bound field range => do
    let proposal ← ensureProposal draft line
    if range = ⟨none, none⟩ then
      dslError line 1 "BOUND_RANGE_REQUIRED" (ascii "BOUND requires minimum, maximum, or both, such as 1..2500")
    else pure (draft.withProposal { proposal with numericBounds := assign proposal.numericBounds field range })
  | .transition field fromColumn rules => do
    let proposal ← ensureProposal draft line
    let allowed ← parseTransitionAllowed rules line
    pure (draft.withProposal
      { proposal with transitionGuards := assign proposal.transitionGuards field ⟨fromColumn, allowed⟩ })
  | .requireApprovals count => do
    let proposal ← ensureProposal draft line
    if count < 1 ∨ 10 < count then
      dslError line 1 "INVALID_REQUIRED_APPROVALS"
        (ascii "REQUIRE N APPROVALS supports a small-team quorum from 1 through 10")
    else pure (draft.withProposal { proposal with requiredApprovals := some count })
  | .autoApprove condition => do
    let proposal ← ensureProposal draft line
    let ruled ← parseAutoApprovalClause proposal condition line
    pure (draft.withProposal ruled)
  | .limit raw => do
    let proposal ← ensureProposal draft line
    let limit ← parseAutoApprovalLimitClause proposal raw line
    pure (draft.withProposal { proposal with autoApprovalLimits := proposal.autoApprovalLimits ++ [limit] })
  | .other => .ok draft

/-- What else may refuse a source: a line after those before it, a whole block, and all
    blocks together. -/
structure OtherChecks where
  line : List Item → Item → Except DslError Unit
  block : Block → Except DslError Unit
  contract : List Block → Except DslError Unit

/-- The draft after the lines of a block. -/
def parseItems (checks : OtherChecks) (blockName : Text) : List Item → Draft → List Item → Except DslError Draft
  | _, draft, [] => .ok draft
  | before, draft, item :: rest => do
    checks.line before item
    let next ← applyClause blockName item.line draft (clauseOf item.text)
    parseItems checks blockName (before ++ [item]) next rest

def parseCapabilityBlock (checks : OtherChecks) (block : Block) : Except DslError Draft := do
  let draft ← parseItems checks block.name [] .start block.body
  checks.block block
  pure draft

/-! ### The compiled capability -/

structure ConflictGuard where
  column : Option Text
  weakGuardAck : Bool
  deriving DecidableEq

structure ProposalSpec where
  operation : Option Operation
  numericBounds : KeyedMap Text Bound
  transitionGuards : KeyedMap Text TransitionGuard
  conflictGuard : Option ConflictGuard
  requiredApprovals : Option ℕ
  /-- The limits of the approval policy. -/
  limits : List ApprovalLimit

structure CapabilitySpec where
  conflictKey : Option Text
  keptOutFields : List Text
  modelWithheldFields : List Text
  maxRows : Option Number
  aggregate : Option AggregateDraft
  protectedRead : Option ProtectedDraft
  proposal : Option ProposalSpec

def conflictGuardOf (draft : Draft) : Option ConflictGuard :=
  match draft.conflictKey with
  | some column => some ⟨some column, false⟩
  | none => if draft.weakConflictGuardAcknowledged then some ⟨none, true⟩ else none

def proposalSpec (draft : Draft) (proposal : ProposalDraft) : ProposalSpec :=
  { operation := proposal.operation, numericBounds := proposal.numericBounds
    transitionGuards := proposal.transitionGuards, conflictGuard := conflictGuardOf draft
    requiredApprovals := proposal.requiredApprovals
    limits := if proposal.autoApprovalRules = [] then [] else proposal.autoApprovalLimits }

def capabilitySpec (draft : Draft) : CapabilitySpec :=
  { conflictKey := draft.conflictKey, keptOutFields := draft.keptOutFields
    modelWithheldFields := draft.modelWithheldFields, maxRows := draft.maxRows.filter fun rows => !isZero rows
    aggregate := draft.aggregate, protectedRead := draft.protectedRead
    proposal := if draft.kind = .proposal then draft.proposal.map (proposalSpec draft) else none }

def compileCapability (checks : OtherChecks) (block : Block) : Except DslError CapabilitySpec :=
  (parseCapabilityBlock checks block).map capabilitySpec

def capabilityBlocks (blocks : List Block) : List Block := blocks.filter fun block => decide (block.kind = .capability)

/-- The compiled capabilities of a source. -/
def compileAgentDsl (checks : OtherChecks) (source : Text) : Except DslError (List CapabilitySpec) := do
  let blocks ← parseBlocks source
  let specs ← (capabilityBlocks blocks).mapM (compileCapability checks)
  checks.contract blocks
  pure specs

end SynapsorRunner.Dsl
