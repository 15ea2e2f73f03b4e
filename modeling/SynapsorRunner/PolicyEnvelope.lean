import SynapsorRunner.ApprovalPolicies
import SynapsorRunner.Compensation
import SynapsorRunner.ProposalRuns
import SynapsorRunner.WritebackAuthority

/-!
A tool call that a policy approves. The arguments are checked against the capability,
the patch is built from them and held against the numeric bounds, and
`maybeAutoApproveProposal` evaluates the policy that the merged config has under the
name of the capability's approval.

The evaluation sees of several rules of one field only the last, so the approval is
inside every rule of the policy exactly if the value is inside the rules that later
ones replace (`policy_approval_inside_iff`). The parser of the contract language
rejects a second rule of a field; the validator of contracts does not.
-/
namespace SynapsorRunner.ApprovalPolicies
open SynapsorRunner.Protocol SynapsorRunner.Proposals SynapsorRunner.ProposalStore SynapsorRunner.WritebackAuthority
open SynapsorRunner.Compensation

/-! ### Policies of the config -/

inductive MergeError where
  | duplicatePolicy (name : String)
  deriving DecidableEq

/-- `rememberPolicyName` for each policy. The places that its text names are left out. -/
def rememberPolicyNames (seen : List String) : List PolicySpec → Except MergeError Unit
  | [] => .ok ()
  | policy :: rest =>
    if policy.name ∈ seen then .error (.duplicatePolicy policy.name) else rememberPolicyNames (seen ++ [policy.name]) rest

/-- The policies of the resolved config: the embedded ones and those of the contracts. -/
def mergePolicies (embedded : List PolicySpec) (contracts : List SynapsorContract) : Except MergeError (List PolicySpec) := do
  let policies := embedded ++ contracts.flatMap (·.policies)
  rememberPolicyNames [] policies
  pure policies

def approvalPolicyByName (policies : List PolicySpec) (policyName : String) : Option PolicySpec :=
  policies.find? fun policy => decide (policy.kind = .approval ∧ policy.name = policyName)

theorem rememberPolicyNames_ok {seen : List String} {policies : List PolicySpec}
    (remembered : rememberPolicyNames seen policies = .ok ()) :
    (policies.map (·.name)).Nodup ∧ ∀ policy ∈ policies, policy.name ∉ seen := by
  induction policies generalizing seen with
  | nil => simp
  | cons policy rest ih =>
    simp only [rememberPolicyNames] at remembered
    split at remembered
    · cases remembered
    · rename_i unseen
      obtain ⟨distinct, others⟩ := ih remembered
      refine ⟨List.nodup_cons.mpr ⟨?_, distinct⟩, ?_⟩
      · intro twice
        obtain ⟨other, member, same⟩ := List.mem_map.mp twice
        exact others other member (by rw [same]; simp)
      · intro other member
        rcases List.mem_cons.mp member with rfl | later
        · exact unseen
        · exact fun before => others other later (List.mem_append_left _ before)

/-- A policy of a contract is the one that the merged config has under its name. -/
theorem approvalPolicyByName_merged {embedded policies : List PolicySpec} {contracts : List SynapsorContract}
    (merged : mergePolicies embedded contracts = .ok policies) {contract : SynapsorContract} (listed : contract ∈ contracts)
    {policy : PolicySpec} (declared : policy ∈ contract.policies) (kind : policy.kind = .approval) :
    approvalPolicyByName policies policy.name = some policy := by
  obtain ⟨_, remembered, rest⟩ := bind_eq_ok merged
  cases rest
  have distinct := (rememberPolicyNames_ok remembered).1
  have member : policy ∈ embedded ++ contracts.flatMap (·.policies) :=
    List.mem_append_right _ (List.mem_flatMap.mpr ⟨contract, listed, declared⟩)
  cases found : approvalPolicyByName (embedded ++ contracts.flatMap (·.policies)) policy.name with
  | none =>
    have missing := List.find?_eq_none.mp found policy member
    simp [kind] at missing
  | some other =>
    have here := List.mem_of_find?_eq_some found
    have same := List.find?_some found
    simp only [decide_eq_true_eq] at same
    rw [List.inj_on_of_nodup_map distinct here member same.2]

/-! ### Arguments and patches -/

inductive RuntimeError where
  | mcpRuntime (code message : String)
  | store (error : StoreError)
  deriving DecidableEq

def require (holds : Prop) [Decidable holds] (code message : String) : Except RuntimeError Unit :=
  if holds then .ok () else .error (.mcpRuntime code message)

@[simp] theorem require_ok_iff {holds : Prop} [Decidable holds] {code message : String} {u : Unit} :
    require holds code message = .ok u ↔ holds := by
  unfold require
  split <;> simp [*]

/-- An argument of a tool call. A member of an array that is no object is absent. -/
inductive ToolArg where
  | scalar (value : Scalar)
  | items (rows : List (Option Record))
  | object

def hasType : Scalar → ScalarType → Bool
  | .str _, .string => true
  | .num _, .number => true
  | .bool _, .boolean => true
  | _, _ => false

def article (type : ScalarType) : String := "a " ++ type.text

def checkSize (name : String) (spec : ScalarArgSpec) : Scalar → Except RuntimeError Unit
  | .str s => require (∀ length ∈ spec.maxLength, length ≠ 0 → stringLength s ≤ length) "ARGUMENT_TOO_LONG"
      (name ++ " is longer than " ++ toString (spec.maxLength.getD 0) ++ ".")
  | .num n => do
    require (∀ minimum ∈ spec.minimum, minimum ≤ n) "ARGUMENT_BELOW_MINIMUM"
      (name ++ " must be at least " ++ numeral (spec.minimum.getD 0) ++ ".")
    require (∀ maximum ∈ spec.maximum, n ≤ maximum) "ARGUMENT_ABOVE_MAXIMUM"
      (name ++ " must be at most " ++ numeral (spec.maximum.getD 0) ++ ".")
  | _ => .ok ()

def validateScalarArg (name : String) (spec : ScalarArgSpec) : Option Scalar → Except RuntimeError Unit
  | none => require (spec.required = false) "ARGUMENT_REQUIRED" (name ++ " is required.")
  | some value => do
    require (hasType value spec.type) "ARGUMENT_TYPE_INVALID" (name ++ " must be " ++ article spec.type ++ ".")
    checkSize name spec value
    require (∀ allowed ∈ spec.enum, value ∈ allowed) "ARGUMENT_NOT_ALLOWED" (name ++ " is not an allowed value.")

def validateItem (name : String) (fields : KeyedMap String ScalarArgSpec) (index : Nat) (item : Option Record) :
    Except RuntimeError Unit :=
  match item with
  | none => .error (.mcpRuntime "ARGUMENT_ITEM_TYPE_INVALID" (indexed name index ++ " must be an object."))
  | some row => do
    checkEach (fun key => require (fields.contains key) "ARGUMENT_ITEM_FIELD_NOT_ALLOWED"
      (indexed name index ++ "." ++ key ++ " is not a reviewed item field.")) row.keys
    checkEach (fun (fieldName, fieldSpec) => validateScalarArg (indexed name index ++ "." ++ fieldName) fieldSpec
      (row.get? fieldName)) fields.entries

def validateArg (name : String) (spec : ArgSpec) (value : Option ToolArg) : Except RuntimeError Unit :=
  match spec, value with
  | .scalar spec, none => validateScalarArg name spec none
  | .scalar spec, some (.scalar value) => validateScalarArg name spec (some value)
  | .scalar spec, some _ => .error (.mcpRuntime "ARGUMENT_TYPE_INVALID" (name ++ " must be " ++ article spec.type ++ "."))
  | .objectArray required _ _, none => require (required = false) "ARGUMENT_REQUIRED" (name ++ " is required.")
  | .objectArray _ maxItems fields, some (.items rows) => do
    require (1 ≤ rows.length ∧ rows.length ≤ maxItems) "ARGUMENT_ITEM_COUNT_INVALID"
      (name ++ " must contain 1 through " ++ toString maxItems ++ " items.")
    checkEach (fun (row, index) => validateItem name fields index row) rows.zipIdx
  | .objectArray _ _ _, some _ =>
    .error (.mcpRuntime "ARGUMENT_TYPE_INVALID" (name ++ " must be an array of reviewed objects."))

def isSetCapability (proposal : ProposalAction) : Bool := proposal.operation.any (·.isSet)

def validateToolArgs (specs : KeyedMap String ArgSpec) (isSet : Bool) (args : KeyedMap String ToolArg) :
    Except RuntimeError Unit := do
  checkEach (fun name =>
    if isSet then require (specs.contains name) "MODEL_PREDICATE_REJECTED" ("bounded-set argument " ++ name ++
      " is not reviewed; selection, ordering, columns, operators, and row caps are contract-fixed.")
    else require (specs.contains name) "ARGUMENT_NOT_ALLOWED" (name ++ " is not a reviewed capability argument.")) args.keys
  checkEach (fun (name, spec) => validateArg name spec (args.get? name)) specs.entries

/-- `scalar` of an argument. -/
def ToolArg.toScalar : Option ToolArg → Scalar
  | none => .null
  | some (.scalar value) => value
  | some (.items rows) => .str (",".intercalate (rows.map fun row => if row.isSome then "[object Object]" else ""))
  | some .object => .str "[object Object]"

def patchValue (args : KeyedMap String ToolArg) (binding : PatchBinding) : Scalar :=
  match binding.fromArg.filter nonEmpty with
  | some arg => ToolArg.toScalar (args.get? arg)
  | none => binding.fixed.getD .null

def buildPatch (proposal : ProposalAction) (args : KeyedMap String ToolArg) : Record :=
  proposal.patch.mapValues (patchValue args)

def checkBound (patch : Record) (column : Column) (bounds : NumericBound) : Except RuntimeError Unit :=
  match patch.get? column with
  | none => .ok ()
  | some (.num proposed) => do
    require (∀ minimum ∈ bounds.minimum, minimum ≤ proposed) "PATCH_BELOW_MINIMUM"
      (column ++ " must be at least " ++ numeral (bounds.minimum.getD 0) ++ ".")
    require (∀ maximum ∈ bounds.maximum, proposed ≤ maximum) "PATCH_ABOVE_MAXIMUM"
      (column ++ " must be at most " ++ numeral (bounds.maximum.getD 0) ++ ".")
  | some _ => .error (.mcpRuntime "PATCH_NUMERIC_BOUND_TYPE_INVALID" (column ++ " must be numeric to use numeric_bounds."))

def checkTransition (before patch : Record) (column : Column) (guard : TransitionGuard) : Except RuntimeError Unit :=
  match patch.get? column with
  | none => .ok ()
  | some proposed => match before.get? (guard.fromColumn.getD column), proposed with
    | some (.str current), .str proposed =>
      require (proposed ∈ (guard.allowed.get? current).getD []) "PATCH_TRANSITION_NOT_ALLOWED"
        (column ++ " cannot transition from " ++ current ++ " to " ++ proposed ++ ".")
    | _, _ => .error (.mcpRuntime "PATCH_TRANSITION_TYPE_INVALID"
        (column ++ " transition guard requires string current and proposed values."))

def enforcePatchGuards (proposal : ProposalAction) (before patch : Record) : Except RuntimeError Unit := do
  checkEach (fun (column, bounds) => checkBound patch column bounds) (proposal.numericBounds.getD .empty).entries
  checkEach (fun (column, guard) => checkTransition before patch column guard) (proposal.transitionGuards.getD .empty).entries

/-- The patch of a tool call on a row. -/
def toolPatch (specs : KeyedMap String ArgSpec) (proposal : ProposalAction) (args : KeyedMap String ToolArg) (before : Record) :
    Except RuntimeError Record := do
  validateToolArgs specs (isSetCapability proposal) args
  enforcePatchGuards proposal before (buildPatch proposal args)
  pure (buildPatch proposal args)

theorem checkEach_entry {α : Type} {check : String × α → Except RuntimeError Unit} {entries : KeyedMap String α}
    (ran : checkEach check entries.entries = .ok ()) {key : String} {value : α} (found : entries.get? key = some value) :
    check (key, value) = .ok () :=
  checkEach_ok_iff.mp ran _ (KeyedMap.get?_eq_some.mp found)

/-- An argument that is a number is declared as one. -/
theorem isNumber_of_accepted {specs : KeyedMap String ArgSpec} {isSet : Bool} {args : KeyedMap String ToolArg}
    (accepted : validateToolArgs specs isSet args = .ok ()) {name : String} {n : Rat}
    (given : args.get? name = some (.scalar (.num n))) : ∃ spec, specs.get? name = some spec ∧ spec.isNumber = true := by
  obtain ⟨_, known, rest⟩ := bind_eq_ok accepted
  have declared : specs.contains name = true := by
    have checked := checkEach_ok_iff.mp known name (KeyedMap.mem_keys.mpr ⟨_, given⟩)
    split at checked <;> exact require_ok_iff.mp checked
  obtain ⟨spec, found⟩ := KeyedMap.mem_keys.mp (KeyedMap.contains_iff.mp declared)
  have checked := checkEach_entry rest found
  simp only [given] at checked
  refine ⟨spec, found, ?_⟩
  cases spec with
  | scalar spec =>
    obtain ⟨_, typed, _⟩ := bind_eq_ok checked
    have type := require_ok_iff.mp typed
    cases kind : spec.type <;> simp [hasType, kind] at type
    simp [ArgSpec.isNumber, kind]
  | objectArray required maxItems fields => cases checked

/-- A patched number is within the bound of its column. -/
theorem within_bound {proposal : ProposalAction} {before patch : Record}
    (enforced : enforcePatchGuards proposal before patch = .ok ()) {column : Column} {value : Rat}
    (proposed : patch.get? column = some (.num value)) :
    ∀ bounds ∈ proposal.numericBounds, ∀ bound ∈ bounds.get? column, ∀ maximum ∈ bound.maximum, value ≤ maximum := by
  intro bounds present bound found maximum limit
  obtain ⟨_, bounded, _⟩ := bind_eq_ok enforced
  rw [Option.mem_def] at present found
  rw [present, Option.getD_some] at bounded
  have checked := checkEach_entry bounded found
  simp only [checkBound, proposed] at checked
  obtain ⟨_, _, above⟩ := bind_eq_ok checked
  exact require_ok_iff.mp above maximum limit

/-! ### Approval by policy -/

inductive FreshnessEvaluation where
  | notRequired
  | required (status : FreshnessResult) (safeCode : String) (proof : FreshnessProof)

structure ApprovalConfig where
  mode : RunnerMode
  disableAutoApproval : Bool
  policies : List PolicySpec

structure AutoApprovalResult where
  store : Store
  proposal : ProposalRow
  approved : Bool
  policy : Option String
  trippedLimits : List PolicyApprovalLimit
  freshness : Option (FreshnessResult × String)

def storeCall {α : Type} (outcome : Except StoreError α) : Except RuntimeError α := outcome.mapError .store

def recordFreshnessProof (runtime : StoreRuntime) (s : Store) (proof : FreshnessProof) (now : Nat) :
    Except StoreError Store := do
  prepareFreshness runtime s proof
  freshnessTransaction s proof now

def recordFreshnessApprovalBlocked (s : Store) (proposalId proofDigest : String) : Except StoreError Unit :=
  ensure (∃ proof ∈ s.latestFreshnessProof proposalId, proof.proofDigest = proofDigest ∧ proof.result ≠ .fresh)
    (.proposalStore "FRESHNESS_BLOCK_RECORD_INVALID"
      ("freshness block for proposal " ++ proposalId ++ " does not match its latest non-fresh proof"))

/-- The limits that `approveProposalByPolicy` finds exceeded, and whether a larger
    quorum defers it before that. -/
def policyDecision (s : Store) (input : PolicyInput) (row : ProposalRow) : Bool × List PolicyApprovalLimit :=
  if requiredApprovalCount row.toStoredProposal > 1 then (true, [])
  else (false, input.limits.filter fun limit =>
    limit.exceededBy ((policyHistory s input.actor row input.now limit ++ [row]).map (·.changeSet.patch)))

def approveByPolicy (runtime : StoreRuntime) (s : Store) (row : ProposalRow) (policy : PolicySpec) (reason : String)
    (freshness : Option (FreshnessResult × String)) (proofDigest : Option String) (now : Nat) :
    Except RuntimeError AutoApprovalResult := do
  let input : PolicyInput :=
    { proposalId := row.proposalId, policy := policy.name, proposalHash := row.proposalHash
      proposalVersion := row.proposalVersion, reason := "auto-approved by policy " ++ policy.name ++ ": " ++ reason
      limits := policy.limits, now, freshnessProofDigest := proofDigest }
  let stored ← storeCall (s.requireProposal row.proposalId)
  let store ← storeCall (approveByPolicyTransaction runtime s input)
  let decided ← storeCall (store.requireProposal row.proposalId)
  let (deferred, trippedLimits) := policyDecision s input stored
  pure ⟨store, decided, !deferred && trippedLimits.isEmpty, some policy.name, trippedLimits, freshness⟩

/-- What follows a policy that qualifies. Other processes may use the store between
    the freshness proof and the approval. -/
def decideByPolicy (runtime : StoreRuntime) (s : Store) (meanwhile : Store → Store) (row : ProposalRow)
    (policy : PolicySpec) (reason : String) (freshness : FreshnessEvaluation) (now : Nat) :
    Except RuntimeError AutoApprovalResult :=
  match freshness with
  | .notRequired => approveByPolicy runtime (meanwhile s) row policy reason none none now
  | .required status safeCode proof => do
    let recorded ← storeCall (recordFreshnessProof runtime s proof now)
    if status = .fresh then
      approveByPolicy runtime (meanwhile recorded) row policy reason (some (status, safeCode)) (some proof.proofDigest) now
    else do
      storeCall (recordFreshnessApprovalBlocked recorded row.proposalId proof.proofDigest)
      pure ⟨recorded, (recorded.getProposal row.proposalId).getD row, false, some policy.name, [], some (status, safeCode)⟩

def unapproved (s : Store) (row : ProposalRow) (policy : Option String) : AutoApprovalResult :=
  ⟨s, row, false, policy, [], none⟩

/-- The policy that the approval of a capability names. -/
def approvalPolicyName (proposal : ProposalAction) : Option String :=
  (proposal.approval.filter fun approval => decide (approval.mode = some .policy)).bind fun approval =>
    approval.policy.filter nonEmpty

def maybeAutoApproveProposal (runtime : StoreRuntime) (s : Store) (meanwhile : Store → Store) (config : ApprovalConfig)
    (capability : CapabilitySpec) (proposal : ProposalAction) (row : ProposalRow) (patch : Record)
    (freshness : FreshnessEvaluation) (now : Nat) : Except RuntimeError AutoApprovalResult :=
  if config.mode ≠ .review then .ok (unapproved s row none)
  else if config.disableAutoApproval then .ok (unapproved s row none)
  else if isSetCapability proposal then .ok (unapproved s row none)
  else if proposal.operation.any (fun operation => decide (operation.kind = .delete)) then .ok (unapproved s row none)
  else match approvalPolicyName proposal with
    | none => .ok (unapproved s row none)
    | some policyName =>
      if row.state = .approved then .ok ⟨s, row, true, some policyName, [], none⟩
      else if row.state ≠ .pendingReview then .ok (unapproved s row none)
      else match approvalPolicyByName config.policies policyName with
        | none => .error (.mcpRuntime "APPROVAL_POLICY_UNRESOLVED"
            ("capability " ++ capability.name ++ " references missing approval policy " ++ policyName ++ "."))
        | some policy =>
          let evaluation := evaluateApprovalPolicy proposal capability.args policy patch
          if evaluation.qualifies then decideByPolicy runtime s meanwhile row policy evaluation.reason freshness now
          else .ok (unapproved s row (some policyName))

theorem approveByPolicy_policy {runtime : StoreRuntime} {s : Store} {row : ProposalRow} {policy : PolicySpec} {reason : String}
    {freshness : Option (FreshnessResult × String)} {digest : Option String} {now : Nat} {result : AutoApprovalResult}
    (ran : approveByPolicy runtime s row policy reason freshness digest now = .ok result) :
    result.policy = some policy.name := by
  obtain ⟨_, _, rest⟩ := bind_eq_ok ran
  obtain ⟨_, _, rest⟩ := bind_eq_ok rest
  obtain ⟨_, _, rest⟩ := bind_eq_ok rest
  cases rest
  rfl

theorem decideByPolicy_policy {runtime : StoreRuntime} {s : Store} {meanwhile : Store → Store} {row : ProposalRow}
    {policy : PolicySpec} {reason : String} {freshness : FreshnessEvaluation} {now : Nat} {result : AutoApprovalResult}
    (ran : decideByPolicy runtime s meanwhile row policy reason freshness now = .ok result) :
    result.policy = some policy.name := by
  cases freshness with
  | notRequired => exact approveByPolicy_policy ran
  | required status safeCode proof =>
    obtain ⟨_, _, rest⟩ := bind_eq_ok ran
    split at rest
    · exact approveByPolicy_policy rest
    · obtain ⟨_, _, rest⟩ := bind_eq_ok rest
      cases rest
      rfl

/-- An approval that the call itself decides goes by a policy of the config that
    qualifies the patch. -/
theorem qualifies_of_approved {runtime : StoreRuntime} {s : Store} {meanwhile : Store → Store} {config : ApprovalConfig}
    {capability : CapabilitySpec} {proposal : ProposalAction} {row : ProposalRow} {patch : Record}
    {freshness : FreshnessEvaluation} {now : Nat} {result : AutoApprovalResult}
    (ran : maybeAutoApproveProposal runtime s meanwhile config capability proposal row patch freshness now = .ok result)
    (undecided : row.state ≠ .approved) (approved : result.approved = true) :
    ∃ policyName policy, approvalPolicyName proposal = some policyName ∧
      approvalPolicyByName config.policies policyName = some policy ∧ result.policy = some policy.name ∧
      (evaluateApprovalPolicy proposal capability.args policy patch).qualifies = true := by
  unfold maybeAutoApproveProposal at ran
  have declined : ∀ name, (unapproved s row name).approved = true → False := fun _ => Bool.false_ne_true
  split at ran
  · cases ran; exact absurd approved (declined _)
  split at ran
  · cases ran; exact absurd approved (declined _)
  split at ran
  · cases ran; exact absurd approved (declined _)
  split at ran
  · cases ran; exact absurd approved (declined _)
  split at ran
  · cases ran; exact absurd approved (declined _)
  rename_i policyName named
  split at ran
  · cases ran; exact absurd approved (declined _)
  split at ran
  · cases ran
  rename_i policy found
  dsimp only at ran
  split at ran
  · rename_i qualifies
    exact ⟨policyName, policy, named, found, decideByPolicy_policy ran, qualifies⟩
  · cases ran; exact absurd approved (declined _)

/-! ### The envelope -/

/-- The model supplies the number that a column of the patch proposes. -/
def SuppliedNumber (proposal : ProposalAction) (args : KeyedMap String ToolArg) (column : Column) : Prop :=
  ∃ binding arg n, proposal.patch.get? column = some binding ∧ binding.fromArg.filter nonEmpty = some arg ∧
    args.get? arg = some (.scalar (.num n))

/-- The reviewed envelope: a number of the model in a patched column has a rule, and
    a patched column that a rule names has an integer within the rule and the bound. -/
structure InsideEnvelope (proposal : ProposalAction) (args : KeyedMap String ToolArg) (policy : PolicySpec) (patch : Record) :
    Prop where
  covered : ∀ column ∈ patch.keys, SuppliedNumber proposal args column → ∃ rule ∈ policy.rules, rule.field = some column
  within : ∀ rule ∈ policy.rules, ∀ column ∈ patch.keys, rule.field = some column →
    ∃ value : Int, patch.get? column = some (.num value) ∧ (∀ max ∈ rule.max, (value : Rat) ≤ max) ∧
      ∀ bounds ∈ proposal.numericBounds, ∀ bound ∈ bounds.get? column, ∀ maximum ∈ bound.maximum, (value : Rat) ≤ maximum

/-- A patch within the rules that later rules of the same field replace. -/
def InsideReplaced (policy : PolicySpec) (patch : Record) : Prop :=
  ∀ rule, Replaced policy.rules rule → ∀ column ∈ rule.field, ∀ value : Rat, patch.get? column = some (.num value) →
    ∀ max ∈ rule.max, value ≤ max

theorem toolPatch_ok {specs : KeyedMap String ArgSpec} {proposal : ProposalAction} {args : KeyedMap String ToolArg}
    {before patch : Record} (built : toolPatch specs proposal args before = .ok patch) :
    validateToolArgs specs (isSetCapability proposal) args = .ok () ∧ enforcePatchGuards proposal before patch = .ok () := by
  obtain ⟨_, accepted, rest⟩ := bind_eq_ok built
  obtain ⟨_, enforced, rest⟩ := bind_eq_ok rest
  cases rest
  exact ⟨accepted, enforced⟩

/-- The value of a patched column against one rule of a qualifying policy. -/
theorem within_rule {proposal : ProposalAction} {capability : CapabilitySpec} {policy : PolicySpec} {patch : Record}
    (qualifies : (evaluateApprovalPolicy proposal capability.args policy patch).qualifies = true)
    (replaced : InsideReplaced policy patch) {rule : PolicyRule} (member : rule ∈ policy.rules) {column : Column} {max : Int}
    (reviewed : RuleReviewed capability proposal rule column max) (patched : column ∈ patch.keys) :
    ∃ value : Int, patch.get? column = some (.num value) ∧ (value : Rat) ≤ max := by
  obtain ⟨limit, value, found, proposed, within⟩ := evaluateApprovalPolicy_qualifies qualifies patched reviewed.numeric
  obtain ⟨before, last, after, parts, entry, final⟩ := ruleByField_eq_some found
  refine ⟨value, proposed, ?_⟩
  rw [parts] at member
  rcases List.mem_append.mp member with earlier | later
  · obtain ⟨first, rest, split⟩ := List.append_of_mem earlier
    have overridden : Replaced policy.rules rule := by
      refine ⟨first, rest ++ last :: after, by rw [parts, split, List.append_assoc, List.cons_append], last, by simp, ?_⟩
      rw [(ruleEntry_field entry).1, (ruleEntry_field reviewed.entry).1]
    exact replaced rule overridden column (ruleEntry_field reviewed.entry).1 _ proposed _ (ruleEntry_field reviewed.entry).2
  · rcases List.mem_cons.mp later with rfl | beyond
    · have same := entry.symm.trans reviewed.entry
      simp only [Option.some.injEq, Prod.mk.injEq, true_and] at same
      rwa [← same]
    · exact absurd reviewed.entry (final rule beyond _)

theorem insideEnvelope_iff {proposal : ProposalAction} {capability : CapabilitySpec} {args : KeyedMap String ToolArg}
    {policy : PolicySpec} {before patch : Record}
    (reviewed : ∀ rule ∈ policy.rules, ∃ field max, RuleReviewed capability proposal rule field max)
    (built : toolPatch capability.args proposal args before = .ok patch)
    (qualifies : (evaluateApprovalPolicy proposal capability.args policy patch).qualifies = true) :
    InsideEnvelope proposal args policy patch ↔ InsideReplaced policy patch := by
  obtain ⟨accepted, enforced⟩ := toolPatch_ok built
  constructor
  · rintro inside rule ⟨first, after, parts, _⟩ column named value proposed max bounded
    have member : rule ∈ policy.rules := by rw [parts]; simp
    obtain ⟨whole, here, below, _⟩ := inside.within rule member column (KeyedMap.mem_keys.mpr ⟨_, proposed⟩) named
    have same := proposed.symm.trans here
    simp only [Option.some.injEq, Scalar.num.injEq] at same
    rw [same]
    exact below max bounded
  · intro replaced
    refine ⟨?_, ?_⟩
    · rintro column patched ⟨binding, arg, n, bound, given, supplied⟩
      obtain ⟨fromArg, nonempty⟩ := Option.filter_eq_some_iff.mp given
      obtain ⟨spec, declared, number⟩ := isNumber_of_accepted accepted supplied
      have numeric := isNumericProposalField_of_arg bound fromArg nonempty declared number
      obtain ⟨limit, _, found, _⟩ := evaluateApprovalPolicy_qualifies qualifies patched numeric
      obtain ⟨first, rule, after, parts, entry, _⟩ := ruleByField_eq_some found
      exact ⟨rule, by rw [parts]; simp, (ruleEntry_field entry).1⟩
    · intro rule member column patched named
      obtain ⟨field, max, ofRule⟩ := reviewed rule member
      obtain rfl : field = column := Option.some.inj ((ruleEntry_field ofRule.entry).1.symm.trans named)
      obtain ⟨value, proposed, below⟩ := within_rule qualifies replaced member ofRule patched
      refine ⟨value, proposed, fun limit bounded => ?_, within_bound enforced proposed⟩
      obtain rfl := Option.some.inj ((ruleEntry_field ofRule.entry).2.symm.trans bounded)
      exact below

theorem approvalPolicyName_eq_some {proposal : ProposalAction} {name : String}
    (named : approvalPolicyName proposal = some name) :
    ∃ approval, proposal.approval = some approval ∧ approval.mode = some .policy ∧ approval.policy = some name := by
  obtain ⟨approval, used, given⟩ := Option.bind_eq_some_iff.mp named
  obtain ⟨present, mode⟩ := Option.filter_eq_some_iff.mp used
  exact ⟨approval, present, of_decide_eq_true mode, (Option.filter_eq_some_iff.mp given).1⟩

/-- For a capability of an accepted contract, a tool call whose proposal a policy
    approves is inside the envelope exactly when its values are within the rules that
    later rules of the same column replace. -/
theorem policy_approval_inside_iff (runtime : StoreRuntime) (s : Store) (meanwhile : Store → Store)
    {contract : SynapsorContract} {contracts : List SynapsorContract} {embedded : List PolicySpec} {config : ApprovalConfig}
    (valid : validateContract contract = []) (listed : contract ∈ contracts)
    (merged : mergePolicies embedded contracts = .ok config.policies)
    {capability : CapabilitySpec} (declared : capability ∈ contract.capabilities)
    {proposal : ProposalAction} (proposes : capability.proposal = some proposal)
    {args : KeyedMap String ToolArg} {before patch : Record}
    (built : toolPatch capability.args proposal args before = .ok patch)
    {row : ProposalRow} {freshness : FreshnessEvaluation} {now : Nat} {result : AutoApprovalResult}
    (ran : maybeAutoApproveProposal runtime s meanwhile config capability proposal row patch freshness now = .ok result)
    (undecided : row.state ≠ .approved) (approved : result.approved = true) :
    ∃ policy ∈ contract.policies, result.policy = some policy.name ∧
      (InsideEnvelope proposal args policy patch ↔ InsideReplaced policy patch) := by
  obtain ⟨name, policy, named, found, byPolicy, qualifies⟩ := qualifies_of_approved ran undecided approved
  obtain ⟨approval, present, mode, given⟩ := approvalPolicyName_eq_some named
  obtain ⟨own, member, kind, same, reviewed⟩ := rulesReviewed_of_accepted valid declared proposes present mode given
  have resolved := approvalPolicyByName_merged merged listed member kind
  rw [same] at resolved
  obtain rfl : own = policy := Option.some.inj (resolved.symm.trans found)
  exact ⟨own, member, byPolicy, insideEnvelope_iff reviewed built qualifies⟩

/-! ### Two rules of one column -/

/-- A refund of an amount that the model gives. -/
def refundAction : ProposalAction :=
  { patch := .ofList [("amount", ⟨none, some "amount", none⟩)], numericBounds := none, transitionGuards := none
    operation := none, approval := some ⟨some .policy, some "support_lead", some "refunds.small"⟩ }

def refundCapability : CapabilitySpec :=
  { name := "refunds.issue", args := .ofList [("amount", .scalar ⟨.number, true, none, none, none, none⟩)]
    proposal := some refundAction }

/-- A policy with two bounds for the amount. -/
def refundPolicy (first second : Rat) : PolicySpec :=
  ⟨"refunds.small", .approval, [⟨some "amount", some first⟩, ⟨some "amount", some second⟩], []⟩

def refundContract (first second : Rat) : SynapsorContract := ⟨[refundCapability], [refundPolicy first second]⟩

def refundConfig (first second : Rat) : ApprovalConfig := ⟨.review, false, [refundPolicy first second]⟩

def refundArgs : KeyedMap String ToolArg := .ofList [("amount", .scalar (.num 50))]

/-- The ticket row stands for the proposal that the refund creates. -/
def refundStore : Store := { Store.empty with proposals := .ofList [("prop_1", closeTicketRow)] }

/-- The call for a refund of 50 under two bounds. -/
def refundCall (first second : Rat) : Except RuntimeError AutoApprovalResult := do
  let patch ← toolPatch refundCapability.args refundAction refundArgs .empty
  maybeAutoApproveProposal constantStoreRuntime refundStore id (refundConfig first second) refundCapability refundAction
    closeTicketRow patch .notRequired 1

def approvedBy (outcome : Except RuntimeError AutoApprovalResult) : Option (Bool × Option String) :=
  outcome.toOption.map fun result => (result.approved, result.policy)

/-- A refund of 50 is approved by an accepted policy whose first rule stops at 10. -/
theorem refund_above_first_rule :
    validateContract (refundContract 10 100) = [] ∧ approvedBy (refundCall 10 100) = some (true, some "refunds.small") ∧
    ¬ InsideEnvelope refundAction refundArgs (refundPolicy 10 100) (buildPatch refundAction refundArgs) := by
  refine ⟨by decide, by decide, fun inside => ?_⟩
  have first : (⟨some "amount", some 10⟩ : PolicyRule) ∈ (refundPolicy 10 100).rules := by simp [refundPolicy]
  obtain ⟨value, proposed, below, _⟩ := inside.within _ first "amount" (by decide) rfl
  have fifty : (buildPatch refundAction refundArgs).get? "amount" = some (.num 50) := by decide
  have same := proposed.symm.trans fifty
  simp only [Option.some.injEq, Scalar.num.injEq] at same
  have small := below 10 rfl
  rw [same] at small
  exact absurd small (by decide)

theorem approvedBy_eq_some {outcome : Except RuntimeError AutoApprovalResult} {approved : Bool} {policy : Option String}
    (here : approvedBy outcome = some (approved, policy)) :
    ∃ result, outcome = .ok result ∧ result.approved = approved ∧ result.policy = policy := by
  cases outcome with
  | error e => cases here
  | ok result => cases here; exact ⟨result, rfl, rfl, rfl⟩

/-- A refund of 50 under the rules 60 and 100 is inside both. -/
theorem refund_inside_both_rules :
    ∃ policy ∈ (refundContract 60 100).policies, some "refunds.small" = some policy.name ∧
      (InsideEnvelope refundAction refundArgs policy (buildPatch refundAction refundArgs) ↔
        InsideReplaced policy (buildPatch refundAction refundArgs)) := by
  have called : approvedBy (refundCall 60 100) = some (true, some "refunds.small") := by decide
  obtain ⟨result, ran, approved, byPolicy⟩ := approvedBy_eq_some called
  obtain ⟨patch, built, ran⟩ := bind_eq_ok ran
  have amount : toolPatch refundCapability.args refundAction refundArgs .empty = .ok (buildPatch refundAction refundArgs) := rfl
  obtain rfl : buildPatch refundAction refundArgs = patch := Except.ok.inj (amount.symm.trans built)
  have valid : validateContract (refundContract 60 100) = [] := by decide
  have listed : refundContract 60 100 ∈ [refundContract 60 100] := List.mem_singleton_self _
  have merged : mergePolicies [] [refundContract 60 100] = .ok (refundConfig 60 100).policies := rfl
  have declared : refundCapability ∈ (refundContract 60 100).capabilities := List.mem_singleton_self _
  rw [← byPolicy]
  exact policy_approval_inside_iff constantStoreRuntime refundStore id valid listed merged declared rfl built ran
    (by decide) approved

end SynapsorRunner.ApprovalPolicies
