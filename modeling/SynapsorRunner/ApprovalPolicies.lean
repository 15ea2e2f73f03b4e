import SynapsorRunner.NumberText
import SynapsorRunner.ProposalStore

/-!
Approval policies: what the validator of a contract asks of the rules of a policy,
how the runtime merges the policies of its contracts, and how `evaluateApprovalPolicy`
folds the rules of a policy into a map from fields to bounds. A later rule of a field
replaces an earlier one there (`ruleByField_eq_some`), and the validator lets both
stand.

Extension fields, unknown keys and the limits that only the store reads are left out
of the validator.
-/
namespace SynapsorRunner.ApprovalPolicies
open SynapsorRunner.Protocol SynapsorRunner.ProposalStore SynapsorRunner.Doubles SynapsorRunner.NumberText

/-! ### Contracts -/

inductive ScalarType where
  | string
  | number
  | boolean
  deriving DecidableEq, Repr

def ScalarType.text : ScalarType → String
  | .string => "string"
  | .number => "number"
  | .boolean => "boolean"

structure ScalarArgSpec where
  type : ScalarType
  required : Bool
  maxLength : Option Nat
  minimum : Option Rat
  maximum : Option Rat
  enum : Option (List Scalar)

inductive ArgSpec where
  | scalar (spec : ScalarArgSpec)
  | objectArray (required : Bool) (maxItems : Nat) (fields : KeyedMap String ScalarArgSpec)

/-- `args[name]?.type === "number"`. -/
def ArgSpec.isNumber : ArgSpec → Bool
  | .scalar spec => decide (spec.type = .number)
  | .objectArray _ _ _ => false

structure PatchBinding where
  fixed : Option Scalar
  fromArg : Option String
  fromItem : Option String

structure NumericBound where
  minimum : Option Rat
  maximum : Option Rat

structure TransitionGuard where
  fromColumn : Option Column
  allowed : KeyedMap String (List String)

inductive ApprovalMode where
  | human
  | operator
  | policy
  deriving DecidableEq, Repr

structure ApprovalSpec where
  mode : Option ApprovalMode
  requiredRole : Option String
  policy : Option String

inductive ProposalOperationKind where
  | update
  | insert
  | delete
  deriving DecidableEq, Repr

structure ProposalOperation where
  kind : ProposalOperationKind
  isSet : Bool

structure ProposalAction where
  patch : KeyedMap Column PatchBinding
  numericBounds : Option (KeyedMap Column NumericBound)
  transitionGuards : Option (KeyedMap Column TransitionGuard)
  operation : Option ProposalOperation
  approval : Option ApprovalSpec

structure CapabilitySpec where
  name : String
  args : KeyedMap String ArgSpec
  proposal : Option ProposalAction

/-- A rule of a policy. A field that is not a string and a bound that is not a
    number are absent here. -/
structure PolicyRule where
  field : Option Column
  max : Option Rat

inductive PolicyKind where
  | approval
  | settlement
  | scope
  | custom
  deriving DecidableEq, Repr

structure PolicySpec where
  name : String
  kind : PolicyKind
  rules : List PolicyRule
  limits : List PolicyApprovalLimit

structure SynapsorContract where
  capabilities : List CapabilitySpec
  policies : List PolicySpec

structure ValidationIssue where
  path : String
  code : String
  message : String
  deriving DecidableEq, Repr

/-! ### Objects, strings and numbers -/

/-- What every object inherits, and so a lookup finds in any of them. -/
def objectPrototype : List String :=
  ["constructor", "__proto__", "hasOwnProperty", "isPrototypeOf", "propertyIsEnumerable", "toLocaleString", "toString",
    "valueOf", "__defineGetter__", "__defineSetter__", "__lookupGetter__", "__lookupSetter__"]

/-- `value.length` of a string. -/
def stringLength (s : String) : Nat := (s.toList.map fun c => if 0x10000 ≤ c.toNat then 2 else 1).sum

/-- `Number.isInteger`. -/
def isInteger (n : Rat) : Bool := decide (n.den = 1)

def isIntegerValue : Scalar → Bool
  | .num n => isInteger n
  | _ => false

/-! ### Numeric fields -/

def isNumericProposalField (proposal : ProposalAction) (args : KeyedMap String ArgSpec) (field : Column) : Bool :=
  (proposal.numericBounds.any fun bounds => bounds.contains field || objectPrototype.contains field) ||
    (proposal.patch.get? field).any fun patch =>
      patch.fixed.any isIntegerValue || (patch.fromArg.filter nonEmpty).any fun arg => (args.get? arg).any ArgSpec.isNumber

/-- A field bound to an argument that is a number. -/
theorem isNumericProposalField_of_arg {proposal : ProposalAction} {args : KeyedMap String ArgSpec} {field : Column}
    {patch : PatchBinding} {arg : String} {spec : ArgSpec} (bound : proposal.patch.get? field = some patch)
    (given : patch.fromArg = some arg) (named : nonEmpty arg = true) (declared : args.get? arg = some spec)
    (number : spec.isNumber = true) : isNumericProposalField proposal args field = true := by
  simp [isNumericProposalField, bound, given, named, declared, number]

/-! ### The validator -/

/-- The issue that a check raises when it fails. -/
def issueUnless (holds : Bool) (path code message : String) : List ValidationIssue :=
  if holds then [] else [⟨path, code, message⟩]

theorem issueUnless_eq_nil {holds : Bool} {path code message : String} : issueUnless holds path code message = [] ↔ holds = true := by
  cases holds <;> simp [issueUnless]

def validateApprovalPolicyRuleShape (rule : PolicyRule) (path : String) : List ValidationIssue :=
  issueUnless (rule.field.any safeIdentifier) (path ++ ".field") "INVALID_APPROVAL_POLICY_FIELD"
    "approval policy rule field must be a safe identifier." ++
  issueUnless (rule.max.any fun max => isInteger max && decide (0 ≤ max)) (path ++ ".max") "INVALID_APPROVAL_POLICY_MAX"
    "approval policy rule max must be a non-negative integer."

def indexed (path : String) (index : Nat) : String := path ++ "[" ++ toString index ++ "]"

def validatePolicies (policies : List PolicySpec) : List ValidationIssue :=
  policies.zipIdx.flatMap fun (policy, index) =>
    issueUnless (((policies.take index).map (·.name)).all (· != policy.name)) (indexed "$.policies" index ++ ".name")
      "DUPLICATE_POLICY_NAME" ("Duplicate name: " ++ policy.name) ++
    if policy.kind = .approval then
      policy.rules.zipIdx.flatMap fun (rule, ruleIndex) =>
        validateApprovalPolicyRuleShape rule (indexed (indexed "$.policies" index ++ ".rules") ruleIndex)
    else []

/-- The checks of one rule against a capability. -/
def validateRuleAgainstCapability (capability : CapabilitySpec) (proposal : ProposalAction) (capabilityIndex : Nat)
    (rulePath : String) (rule : PolicyRule) : List ValidationIssue :=
  match rule.field, rule.max with
  | some field, some max =>
    if safeIdentifier field && isInteger max then
      issueUnless (isNumericProposalField proposal capability.args field) (rulePath ++ ".field") "APPROVAL_POLICY_FIELD_NOT_NUMERIC"
        ("approval policy field " ++ field ++ " must be numeric for capability " ++ capability.name ++ ".") ++
      issueUnless (((proposal.numericBounds.bind (·.get? field)).bind (·.maximum)).all fun maximum => decide (max ≤ maximum))
        (rulePath ++ ".max") "APPROVAL_POLICY_MAX_EXCEEDS_BOUND"
        ("approval policy max for " ++ field ++ " must be <= numeric_bounds maximum on " ++
          indexed "$.capabilities" capabilityIndex ++ ".proposal.numeric_bounds." ++ field ++ ".maximum.")
    else []
  | _, _ => []

def validateTotalAgainstCapability (capability : CapabilitySpec) (proposal : ProposalAction) (limitPath : String)
    (limit : PolicyApprovalLimit) : List ValidationIssue :=
  match limit.kind, limit.field with
  | .total, some field =>
    if safeIdentifier field then
      issueUnless (isNumericProposalField proposal capability.args field) (limitPath ++ ".field")
        "APPROVAL_POLICY_TOTAL_FIELD_NOT_NUMERIC"
        ("aggregate approval total field " ++ field ++ " must be numeric for capability " ++ capability.name ++ ".")
    else []
  | _, _ => []

def validateApprovalPolicyRulesAgainstCapability (policy : PolicySpec) (policyIndex : Nat) (capability : CapabilitySpec)
    (proposal : ProposalAction) (capabilityIndex : Nat) : List ValidationIssue :=
  (policy.rules.zipIdx.flatMap fun (rule, ruleIndex) =>
    validateRuleAgainstCapability capability proposal capabilityIndex
      (indexed (indexed "$.policies" policyIndex ++ ".rules") ruleIndex) rule) ++
  policy.limits.zipIdx.flatMap fun (limit, limitIndex) =>
    validateTotalAgainstCapability capability proposal (indexed (indexed "$.policies" policyIndex ++ ".limits") limitIndex)
      limit

/-- The last policy of a name with its index, as `validatePolicies` collects them. -/
def policyByName (policies : List PolicySpec) (name : String) : Option (PolicySpec × Nat) :=
  policies.zipIdx.reverse.find? fun (policy, _) => policy.name == name

def validateApprovalPolicy (policies : List PolicySpec) (capability : CapabilitySpec) (index : Nat) :
    List ValidationIssue :=
  match capability.proposal with
  | none => []
  | some proposal => match proposal.approval with
    | none => []
    | some approval =>
      let path := indexed "$.capabilities" index ++ ".proposal.approval"
      if approval.mode = some .policy then
        issueUnless (approval.requiredRole.any nonEmpty) (path ++ ".required_role") "APPROVAL_POLICY_ROLE_REQUIRED"
          "approval.mode policy still requires required_role for human fallback." ++
        match approval.policy with
        | none => [⟨path ++ ".policy", "APPROVAL_POLICY_REQUIRED", "approval.mode policy requires approval.policy."⟩]
        | some policyName => match policyByName policies policyName with
          | none => [⟨path ++ ".policy", "UNKNOWN_APPROVAL_POLICY",
              "approval.policy must reference an existing approval policy: " ++ policyName⟩]
          | some (policy, policyIndex) =>
            if policy.kind = .approval then
              validateApprovalPolicyRulesAgainstCapability policy policyIndex capability proposal index
            else [⟨path ++ ".policy", "APPROVAL_POLICY_KIND_REQUIRED",
              "approval.policy must reference a policy with kind approval."⟩]
      else
        issueUnless approval.policy.isNone (path ++ ".policy") "APPROVAL_POLICY_MODE_REQUIRED"
          "approval.policy can only be set when approval.mode is policy."

/-- What the validator of a contract says of its approval policies. -/
def validateContract (contract : SynapsorContract) : List ValidationIssue :=
  validatePolicies contract.policies ++
    contract.capabilities.zipIdx.flatMap fun (capability, index) => validateApprovalPolicy contract.policies capability index

/-- The field and the bound that the evaluation reads of a rule. -/
def ruleEntry (rule : PolicyRule) : Option (Column × Rat) :=
  match rule.field.filter nonEmpty, rule.max.filter isInteger with
  | some field, some max => some (field, max)
  | _, _ => none

theorem ruleEntry_field {rule : PolicyRule} {field : Column} {max : Rat} (entry : ruleEntry rule = some (field, max)) :
    rule.field = some field ∧ rule.max = some max := by
  unfold ruleEntry at entry
  split at entry
  · rename_i named bounded
    cases entry
    exact ⟨(Option.filter_eq_some_iff.mp named).1, (Option.filter_eq_some_iff.mp bounded).1⟩
  · cases entry

/-- What an accepted rule of a policy is for a capability that uses the policy. -/
structure RuleReviewed (capability : CapabilitySpec) (proposal : ProposalAction) (rule : PolicyRule) (field : Column)
    (max : Int) : Prop where
  entry : ruleEntry rule = some (field, (max : Rat))
  numeric : isNumericProposalField proposal capability.args field = true
  within : ∀ bounds ∈ proposal.numericBounds, ∀ bound ∈ bounds.get? field, ∀ maximum ∈ bound.maximum, (max : Rat) ≤ maximum

theorem nonEmpty_of_safeIdentifier {s : String} (safe : safeIdentifier s = true) : nonEmpty s = true := by
  by_cases empty : s = ""
  · subst empty
    cases safe
  · simp [nonEmpty, empty]

theorem eq_intCast_of_isInteger {n : Rat} (whole : isInteger n = true) : n = (n.num : Rat) :=
  (Rat.coe_int_num_of_den_eq_one (of_decide_eq_true whole)).symm

theorem mem_zipIdx_of_mem {α : Type} {items : List α} {item : α} (member : item ∈ items) :
    ∃ index, (item, index) ∈ items.zipIdx := by
  obtain ⟨index, here⟩ := List.mem_iff_getElem?.mp member
  exact ⟨index, List.mem_zipIdx_iff_getElem?.mpr here⟩

theorem no_issue_of_mem {α β : Type} {f : α × Nat → List β} {items : List α} (empty : items.zipIdx.flatMap f = [])
    {item : α} (member : item ∈ items) : ∃ index, f (item, index) = [] := by
  obtain ⟨index, here⟩ := mem_zipIdx_of_mem member
  exact ⟨index, List.flatMap_eq_nil_iff.mp empty _ here⟩

/-- The shape of a rule of an accepted approval policy. -/
theorem ruleShape_of_accepted {policies : List PolicySpec} (accepted : validatePolicies policies = [])
    {policy : PolicySpec} (member : policy ∈ policies) (kind : policy.kind = .approval) {rule : PolicyRule}
    (rules : rule ∈ policy.rules) :
    ∃ field max, rule.field = some field ∧ safeIdentifier field = true ∧ rule.max = some max ∧ isInteger max = true := by
  obtain ⟨index, checked⟩ := no_issue_of_mem accepted member
  simp only [kind, if_true, List.append_eq_nil_iff] at checked
  obtain ⟨ruleIndex, shaped⟩ := no_issue_of_mem checked.2 rules
  simp only [validateApprovalPolicyRuleShape, List.append_eq_nil_iff, issueUnless_eq_nil, Option.any_eq_true,
    Bool.and_eq_true] at shaped
  obtain ⟨⟨field, named, safe⟩, max, bounded, whole, _⟩ := shaped
  exact ⟨field, max, named, safe, bounded, whole⟩

/-- A rule that an accepted contract gives a capability. -/
theorem ruleReviewed_of_no_issue {capability : CapabilitySpec} {proposal : ProposalAction} {index : Nat} {path : String}
    {rule : PolicyRule} {field : Column} {max : Rat} (named : rule.field = some field) (safe : safeIdentifier field = true)
    (bounded : rule.max = some max) (whole : isInteger max = true)
    (checked : validateRuleAgainstCapability capability proposal index path rule = []) :
    RuleReviewed capability proposal rule field max.num := by
  simp only [validateRuleAgainstCapability, named, bounded, safe, whole, Bool.and_self, if_true, List.append_eq_nil_iff,
    issueUnless_eq_nil] at checked
  obtain ⟨numeric, within⟩ := checked
  refine ⟨?_, numeric, ?_⟩
  · simp only [ruleEntry, named, bounded, Option.filter_some, nonEmpty_of_safeIdentifier safe, whole, if_true]
    rw [← eq_intCast_of_isInteger whole]
  intro bounds present bound found maximum limit
  rw [← eq_intCast_of_isInteger whole]
  rw [Option.mem_def] at present found limit
  simpa [present, found, limit] using within

theorem policyByName_mem {policies : List PolicySpec} {name : String} {policy : PolicySpec} {index : Nat}
    (found : policyByName policies name = some (policy, index)) : policy ∈ policies ∧ policy.name = name := by
  have member := List.mem_of_find?_eq_some found
  rw [List.mem_reverse] at member
  exact ⟨List.fst_mem_of_mem_zipIdx member, by simpa using List.find?_some found⟩

/-- The rules that an accepted contract gives a capability whose approval is by a
    policy. -/
theorem rulesReviewed_of_accepted {contract : SynapsorContract} (accepted : validateContract contract = [])
    {capability : CapabilitySpec} (member : capability ∈ contract.capabilities) {proposal : ProposalAction}
    (proposes : capability.proposal = some proposal) {approval : ApprovalSpec} (approved : proposal.approval = some approval)
    (mode : approval.mode = some .policy) {name : String} (named : approval.policy = some name) :
    ∃ policy ∈ contract.policies, policy.kind = .approval ∧ policy.name = name ∧
      ∀ rule ∈ policy.rules, ∃ field max, RuleReviewed capability proposal rule field max := by
  obtain ⟨shapes, uses⟩ := List.append_eq_nil_iff.mp accepted
  obtain ⟨index, checked⟩ := no_issue_of_mem uses member
  simp only [validateApprovalPolicy, proposes, approved, mode, named, if_true, List.append_eq_nil_iff] at checked
  obtain ⟨_, checked⟩ := checked
  split at checked
  · cases checked
  · rename_i policy policyIndex found
    obtain ⟨declared, same⟩ := policyByName_mem found
    split at checked
    · rename_i kind
      refine ⟨policy, declared, kind, same, fun rule rules => ?_⟩
      obtain ⟨field, max, ruleField, safe, ruleMax, whole⟩ := ruleShape_of_accepted shapes declared kind rules
      obtain ⟨ruleIndex, fits⟩ := no_issue_of_mem (List.append_eq_nil_iff.mp checked).1 rules
      exact ⟨field, max.num, ruleReviewed_of_no_issue ruleField safe ruleMax whole fits⟩
    · cases checked

/-! ### The evaluation -/

/-- The text of a number. -/
def numeral (n : Rat) : String :=
  let magnitude := match roundToDouble |n| with
    | some m => Number.finite (decide (n < 0)) m
    | none => Number.infinite (decide (n < 0))
  String.ofList ((numberText magnitude).map fun u => Char.ofNat u.val)

/-- The map that `evaluateApprovalPolicy` folds the rules into. -/
def ruleByField (rules : List PolicyRule) : KeyedMap Column Rat :=
  rules.foldl (fun found rule => match ruleEntry rule with
    | some (field, max) => found.set field max
    | none => found) .empty

structure PolicyEvaluation where
  qualifies : Bool
  reason : String

/-- The loop over the numeric fields of a patch. -/
def evaluateFields (ruleByField : KeyedMap Column Rat) (patch : Record) : List Column → List String → PolicyEvaluation
  | [], reasons => ⟨true, ", ".intercalate reasons⟩
  | field :: rest, reasons =>
    match ruleByField.get? field, patch.get? field with
    | none, _ => ⟨false, field ++ " has no matching policy rule"⟩
    | some max, some (.num value) =>
      if ¬ isInteger value then ⟨false, field ++ " is not an integer"⟩
      else if max < value then ⟨false, field ++ " " ++ numeral value ++ " > " ++ numeral max⟩
      else evaluateFields ruleByField patch rest (reasons ++ [field ++ " " ++ numeral value ++ " <= " ++ numeral max])
    | some _, _ => ⟨false, field ++ " is not an integer"⟩

def numericFields (proposal : ProposalAction) (args : KeyedMap String ArgSpec) (patch : Record) : List Column :=
  patch.keys.filter (isNumericProposalField proposal args)

def evaluateApprovalPolicy (proposal : ProposalAction) (args : KeyedMap String ArgSpec) (policy : PolicySpec)
    (patch : Record) : PolicyEvaluation :=
  if numericFields proposal args patch = [] then ⟨false, "no numeric patch fields covered by policy"⟩
  else evaluateFields (ruleByField policy.rules) patch (numericFields proposal args patch) []

/-- A rule of a policy with a later rule of the same field. -/
def Replaced (rules : List PolicyRule) (rule : PolicyRule) : Prop :=
  ∃ before after, rules = before ++ rule :: after ∧ ∃ later ∈ after, later.field = rule.field

theorem ruleByField_append (rules : List PolicyRule) (rule : PolicyRule) :
    ruleByField (rules ++ [rule]) = match ruleEntry rule with
      | some (field, max) => (ruleByField rules).set field max
      | none => ruleByField rules := by
  simp only [ruleByField, List.foldl_append, List.foldl_cons, List.foldl_nil]

/-- What the map holds for a field comes from a rule of the field that no later rule
    with a bound replaces. -/
theorem ruleByField_eq_some {rules : List PolicyRule} {field : Column} {max : Rat}
    (found : (ruleByField rules).get? field = some max) :
    ∃ before rule after, rules = before ++ rule :: after ∧ ruleEntry rule = some (field, max) ∧
      ∀ later ∈ after, ∀ bound, ruleEntry later ≠ some (field, bound) := by
  induction rules using List.reverseRecOn with
  | nil => cases found
  | append_singleton rules rule ih =>
    rw [ruleByField_append] at found
    cases entry : ruleEntry rule with
    | none =>
      simp only [entry] at found
      obtain ⟨before, last, after, parts, here, none'⟩ := ih found
      refine ⟨before, last, after ++ [rule], by rw [parts, List.append_assoc, List.cons_append], here, ?_⟩
      intro later member bound
      rcases List.mem_append.mp member with earlier | new
      · exact none' later earlier bound
      · rw [List.mem_singleton.mp new, entry]
        simp
    | some pair =>
      obtain ⟨named, limit⟩ := pair
      simp only [entry, KeyedMap.get?_set] at found
      split at found
      · rename_i same
        subst same
        cases found
        exact ⟨rules, rule, [], rfl, entry, by simp⟩
      · rename_i apart
        obtain ⟨before, last, after, parts, here, none'⟩ := ih found
        refine ⟨before, last, after ++ [rule], by rw [parts, List.append_assoc, List.cons_append], here, ?_⟩
        intro later member bound
        rcases List.mem_append.mp member with earlier | new
        · exact none' later earlier bound
        · rw [List.mem_singleton.mp new, entry]
          simp only [ne_eq, Option.some.injEq, Prod.mk.injEq, not_and]
          exact fun same => absurd same.symm apart

/-- A patch qualifies only with an integer in each of its numeric fields that is not
    above what the map holds for the field. -/
theorem evaluateFields_qualifies {byField : KeyedMap Column Rat} {patch : Record} {fields : List Column}
    {reasons : List String} (qualifies : (evaluateFields byField patch fields reasons).qualifies = true) :
    ∀ field ∈ fields, ∃ (max : Rat) (value : Int), byField.get? field = some max ∧
      patch.get? field = some (.num value) ∧ (value : Rat) ≤ max := by
  induction fields generalizing reasons with
  | nil => simp
  | cons field rest ih =>
    simp only [evaluateFields] at qualifies
    split at qualifies
    · cases qualifies
    · rename_i max value found proposed
      split at qualifies
      · cases qualifies
      · rename_i whole
        split at qualifies
        · cases qualifies
        · rename_i within
          intro other member
          rcases List.mem_cons.mp member with rfl | later
          · have exact' := eq_intCast_of_isInteger (not_not.mp whole)
            exact ⟨max, value.num, found, by rw [← exact', proposed], by rw [← exact']; exact not_lt.mp within⟩
          · exact ih qualifies other later
    · cases qualifies

theorem evaluateApprovalPolicy_qualifies {proposal : ProposalAction} {args : KeyedMap String ArgSpec} {policy : PolicySpec}
    {patch : Record} (qualifies : (evaluateApprovalPolicy proposal args policy patch).qualifies = true) {field : Column}
    (patched : field ∈ patch.keys) (numeric : isNumericProposalField proposal args field = true) :
    ∃ (max : Rat) (value : Int), (ruleByField policy.rules).get? field = some max ∧
      patch.get? field = some (.num value) ∧ (value : Rat) ≤ max := by
  unfold evaluateApprovalPolicy at qualifies
  split at qualifies
  · cases qualifies
  · exact evaluateFields_qualifies qualifies field (List.mem_filter.mpr ⟨patched, numeric⟩)

end SynapsorRunner.ApprovalPolicies
