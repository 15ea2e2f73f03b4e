import Mathlib.Data.List.Sort
import SynapsorRunner.Runs
import SynapsorRunner.Proposals

/-!
The operator control of supervised workers: one stored state with a mode and a
list of capability controls, rewritten by every command (`updateWorkerControl`)
and read before a worker claims or applies an item (`admitsExecution`).

A revocation survives every command except the disabling of the same capability
and digest, which replaces its control (`revoked_update_iff`), so it is permanent
in the runs without one (`revocation_permanent`).
-/
namespace SynapsorRunner.WorkerControl
open SynapsorRunner.Protocol SynapsorRunner.Proposals SynapsorRunner.Runs

inductive WorkerControlMode where
  | active
  | paused
  | draining
  deriving DecidableEq, Repr

inductive WorkerCapabilityControlStatus where
  | enabled
  | disabled
  | revoked
  deriving DecidableEq, Repr

structure WorkerCapabilityControl where
  capability : String
  contractDigest : String
  status : WorkerCapabilityControlStatus
  updatedAt : String
  actor : String
  deriving DecidableEq, Repr

inductive WorkerControlAction where
  | pause
  | resume
  | drain
  | capabilityEnable
  | capabilityDisable
  | digestRevoke
  deriving DecidableEq, Repr

def WorkerControlAction.text : WorkerControlAction → String
  | .pause => "pause"
  | .resume => "resume"
  | .drain => "drain"
  | .capabilityEnable => "capability_enable"
  | .capabilityDisable => "capability_disable"
  | .digestRevoke => "digest_revoke"

structure WorkerControlTarget where
  action : WorkerControlAction
  capability : Option String
  contractDigest : Option String
  deriving DecidableEq, Repr

/-- `OperatorDecision`, with its action as text. -/
structure OperatorDecision where
  action : String
  proposalId : String
  proposalVersion : Nat
  proposalHash : String
  subject : String
  deriving DecidableEq, Repr

inductive OperatorProvider where
  | devEnv
  | signedKey
  | jwtOidc
  deriving DecidableEq, Repr

structure OperatorIdentityProof where
  provider : OperatorProvider
  verified : Bool
  subject : String
  decision : OperatorDecision
  decisionHash : String
  integrityHash : String
  deriving DecidableEq, Repr

/-- A control state without its integrity hash. -/
structure UnsignedControlState where
  mode : WorkerControlMode
  revision : Nat
  capabilityControls : List WorkerCapabilityControl
  lastDecision : Option OperatorIdentityProof
  updatedAt : String
  deriving DecidableEq, Repr

structure WorkerControlState extends UnsignedControlState where
  integrityHash : String
  deriving DecidableEq, Repr

structure WorkerControlInput extends WorkerControlTarget where
  actor : String
  identity : Option OperatorIdentityProof
  requireVerifiedIdentity : Bool
  now : String
  deriving DecidableEq, Repr

/-- What the control uses of its runtime: the collation, the digests of canonical
    JSON, the scan for secrets, and the attention event of the same transaction,
    which may fail. -/
structure ControlRuntime where
  localeCompare : String → String → Ordering
  stateDigest : UnsignedControlState → String
  targetDigest : Nat → String → WorkerControlTarget → String
  decisionDigest : OperatorDecision → String
  identityDigest : OperatorIdentityProof → String
  assertNoSecretMaterial : WorkerControlState → Except StoreError Unit
  attentionEvent : WorkerControlInput → WorkerControlState → Except StoreError Unit

/-! ### Stored states -/

/-- `/^[A-Za-z_][A-Za-z0-9_.-]*$/`. -/
def capabilityName (s : String) : Bool :=
  match s.toList with
  | [] => false
  | c :: rest => (c.isAlpha || c == '_') && rest.all fun c => c.isAlphanum || c == '_' || c == '.' || c == '-'

/-- `/^sha256:[a-f0-9]{64}$/`. -/
def contractDigestText (s : String) : Bool :=
  "sha256:".toList.isPrefixOf s.toList && decide (s.toList.length = 71) &&
    (s.toList.drop 7).all fun c => c.isDigit || (decide ('a' ≤ c) && decide (c ≤ 'f'))

def defaultWorkerControlState (runtime : ControlRuntime) : WorkerControlState :=
  let unsigned : UnsignedControlState :=
    { mode := .active, revision := 0, capabilityControls := [], lastDecision := none
      updatedAt := "1970-01-01T00:00:00.000Z" }
  { unsigned with integrityHash := runtime.stateDigest unsigned }

/-- `parseWorkerControlState` on a state of the stored form. -/
def parseWorkerControlState (runtime : ControlRuntime) (value : WorkerControlState) :
    Except StoreError WorkerControlState := do
  ensure (value.revision ≤ 9007199254740991)
    (.proposalStore "WORKER_CONTROL_STATE_INVALID" "stored supervised-worker control state is invalid")
  ensure (∀ entry ∈ value.capabilityControls, capabilityName entry.capability ∧ contractDigestText entry.contractDigest)
    (.proposalStore "WORKER_CONTROL_STATE_INVALID" "stored supervised-worker capability control is invalid")
  ensure (value.integrityHash = runtime.stateDigest value.toUnsignedControlState)
    (.proposalStore "WORKER_CONTROL_STATE_TAMPERED" "stored supervised-worker control state failed integrity validation")
  pure value

/-- `workerControlState`, on the row `supervised_worker_control`. -/
def workerControlState (runtime : ControlRuntime) : Option WorkerControlState → Except StoreError WorkerControlState
  | none => .ok (defaultWorkerControlState runtime)
  | some raw => parseWorkerControlState runtime raw

theorem workerControlState_some {runtime : ControlRuntime} {raw state : WorkerControlState}
    (parsed : workerControlState runtime (some raw) = .ok state) : state = raw := by
  obtain ⟨_, _, rest⟩ := bind_eq_ok parsed
  obtain ⟨_, _, rest⟩ := bind_eq_ok rest
  obtain ⟨_, _, rest⟩ := bind_eq_ok rest
  cases rest
  rfl

/-! ### The checks of a command -/

def WorkerControlAction.onCapability : WorkerControlAction → Bool
  | .capabilityEnable | .capabilityDisable | .digestRevoke => true
  | _ => false

def assertWorkerControlTarget (target : WorkerControlTarget) : Except StoreError Unit :=
  if target.action.onCapability then do
    ensure (target.capability.any capabilityName)
      (.proposalStore "WORKER_CONTROL_CAPABILITY_REQUIRED" (target.action.text ++ " requires a fixed capability name"))
    ensure (target.contractDigest.any contractDigestText)
      (.proposalStore "WORKER_CONTROL_DIGEST_REQUIRED" (target.action.text ++ " requires an exact sha256 contract digest"))
  else
    ensure (¬ (target.capability.any nonEmpty ∨ target.contractDigest.any nonEmpty))
      (.proposalStore "WORKER_CONTROL_TARGET_INVALID"
        (target.action.text ++ " is a global control and cannot carry capability authority"))

def workerControlOperatorAction : WorkerControlAction → String
  | .pause => "worker_pause"
  | .resume => "worker_resume"
  | .drain => "worker_drain"
  | .capabilityEnable => "worker_capability_enable"
  | .capabilityDisable => "worker_capability_disable"
  | .digestRevoke => "worker_digest_revoke"

def assertWorkerControlOperatorDecision (runtime : ControlRuntime) (state : WorkerControlState)
    (input : WorkerControlInput) : Except StoreError Unit := do
  ensure (input.requireVerifiedIdentity → input.identity.any fun i => i.verified && i.provider != .devEnv)
    (.proposalStore "VERIFIED_OPERATOR_IDENTITY_REQUIRED"
      ("verified operator identity is required to " ++ input.action.text ++ " supervised execution"))
  match input.identity with
  | none => pure ()
  | some identity => do
    ensure (identity.subject = input.actor ∧ identity.decision.subject = input.actor)
      (.proposalStore "OPERATOR_IDENTITY_MISMATCH" "worker-control identity does not match its actor")
    let target := runtime.targetDigest state.revision state.integrityHash input.toWorkerControlTarget
    ensure (identity.decision.action = workerControlOperatorAction input.action ∧
        identity.decision.proposalId = "worker_control_" ++ String.ofList ((target.toList.drop 7).take 32) ∧
        identity.decision.proposalVersion = state.revision + 1 ∧ identity.decision.proposalHash = target)
      (.proposalStore "OPERATOR_DECISION_MISMATCH" "operator proof is not bound to this exact worker-control revision")
    ensure (identity.decisionHash = runtime.decisionDigest identity.decision)
      (.proposalStore "OPERATOR_IDENTITY_TAMPERED" "worker-control decision hash failed integrity validation")
    ensure (identity.integrityHash = runtime.identityDigest identity)
      (.proposalStore "OPERATOR_IDENTITY_TAMPERED" "worker-control identity proof failed integrity validation")

/-! ### Commands -/

/-- `keyMatches`. -/
def Names (capability contractDigest : String) (entry : WorkerCapabilityControl) : Prop :=
  entry.capability = capability ∧ entry.contractDigest = contractDigest

instance (capability contractDigest : String) : DecidablePred (Names capability contractDigest) :=
  fun _ => inferInstanceAs (Decidable (_ ∧ _))

/-- The order of the stored controls. -/
def controlBefore (runtime : ControlRuntime) (a b : WorkerCapabilityControl) : Prop :=
  (runtime.localeCompare a.capability b.capability).then (runtime.localeCompare a.contractDigest b.contractDigest) ≠ .gt

instance (runtime : ControlRuntime) : DecidableRel (controlBefore runtime) :=
  fun _ _ => inferInstanceAs (Decidable (_ ≠ _))

def modeAfter (action : WorkerControlAction) (mode : WorkerControlMode) : WorkerControlMode :=
  match action with
  | .pause => .paused
  | .resume => .active
  | .drain => .draining
  | _ => mode

/-- The status that a capability action writes. -/
def statusOf : WorkerControlAction → WorkerCapabilityControlStatus
  | .capabilityEnable => .enabled
  | .capabilityDisable => .disabled
  | _ => .revoked

/-- The controls after a command on a capability. -/
def replaceControl (runtime : ControlRuntime) (input : WorkerControlInput) (capability contractDigest : String)
    (controls : List WorkerCapabilityControl) : Except StoreError (List WorkerCapabilityControl) :=
  let existing := controls.find? fun entry => decide (Names capability contractDigest entry)
  if existing.any (fun entry => entry.status == .revoked) ∧ input.action = .capabilityEnable then
    .error (.proposalStore "WORKER_DIGEST_REVOKED"
      ("revoked supervised-worker digest " ++ contractDigest ++ " cannot be re-enabled"))
  else .ok (List.insertionSort (controlBefore runtime)
    ((controls.filter fun entry => decide (¬ Names capability contractDigest entry)) ++
      [⟨capability, contractDigest, statusOf input.action, input.now, input.actor⟩]))

def controlsAfter (runtime : ControlRuntime) (input : WorkerControlInput) (controls : List WorkerCapabilityControl) :
    Except StoreError (List WorkerCapabilityControl) :=
  if input.action.onCapability then
    replaceControl runtime input (input.capability.getD "") (input.contractDigest.getD "") controls
  else .ok controls

def updateWorkerControl (runtime : ControlRuntime) (stored : Option WorkerControlState) (input : WorkerControlInput) :
    Except StoreError WorkerControlState := do
  let current ← workerControlState runtime stored
  assertWorkerControlTarget input.toWorkerControlTarget
  assertWorkerControlOperatorDecision runtime current input
  let controls ← controlsAfter runtime input current.capabilityControls
  let unsigned : UnsignedControlState :=
    { mode := modeAfter input.action current.mode, revision := current.revision + 1, capabilityControls := controls
      lastDecision := input.identity, updatedAt := input.now }
  let updated : WorkerControlState := { unsigned with integrityHash := runtime.stateDigest unsigned }
  runtime.assertNoSecretMaterial updated
  runtime.attentionEvent input updated
  pure updated

/-- A command on the stored state; a rejected one leaves it. -/
def step (runtime : ControlRuntime) (stored : Option WorkerControlState) (input : WorkerControlInput) :
    Option WorkerControlState :=
  match updateWorkerControl runtime stored input with
  | .ok updated => some updated
  | .error _ => stored

/-! ### Evaluation -/

/-- `workerControlAllowsPolicy`. -/
def workerControlAllowsPolicy (state : WorkerControlState) (capability contractDigest : String) : Bool :=
  match state.capabilityControls.find? fun entry => decide (Names capability contractDigest entry) with
  | none => true
  | some control => control.status != .disabled && control.status != .revoked

/-- Whether a worker may begin a source mutation under the stored control. -/
def admitsExecution (runtime : ControlRuntime) (stored : Option WorkerControlState) (capability contractDigest : String) :
    Bool :=
  match workerControlState runtime stored with
  | .error _ => false
  | .ok state => decide (state.mode = .active) && workerControlAllowsPolicy state capability contractDigest

/-! ### Revocation -/

/-- Every control of the pair is a revocation, and there is one. -/
def RevokedIn (controls : List WorkerCapabilityControl) (capability contractDigest : String) : Prop :=
  (∃ entry ∈ controls, Names capability contractDigest entry) ∧
    ∀ entry ∈ controls, Names capability contractDigest entry → entry.status = .revoked

/-- The stored state revokes the pair. -/
def Revoked (stored : Option WorkerControlState) (capability contractDigest : String) : Prop :=
  ∃ state ∈ stored, RevokedIn state.capabilityControls capability contractDigest

/-- The command is to disable the pair. -/
def Disables (input : WorkerControlInput) (capability contractDigest : String) : Prop :=
  input.action = .capabilityDisable ∧ input.capability = some capability ∧ input.contractDigest = some contractDigest

section
variable {runtime : ControlRuntime} {capability contractDigest : String}

theorem RevokedIn.found {controls : List WorkerCapabilityControl} (revoked : RevokedIn controls capability contractDigest) :
    ∃ entry, controls.find? (fun entry => decide (Names capability contractDigest entry)) = some entry ∧
      entry.status = .revoked := by
  obtain ⟨⟨entry, member, named⟩, all⟩ := revoked
  cases found : controls.find? (fun entry => decide (Names capability contractDigest entry)) with
  | none =>
    have unnamed := List.find?_eq_none.mp found entry member
    exact absurd (decide_eq_true named) unnamed
  | some first => exact ⟨first, rfl, all first (List.mem_of_find?_eq_some found) (by simpa using List.find?_some found)⟩

/-- A revoked pair is refused. -/
theorem admitsExecution_of_revoked {stored : Option WorkerControlState} (revoked : Revoked stored capability contractDigest) :
    admitsExecution runtime stored capability contractDigest = false := by
  obtain ⟨state, present, controls⟩ := revoked
  obtain rfl : stored = some state := present
  unfold admitsExecution
  cases parsed : workerControlState runtime (some state) with
  | error e => rfl
  | ok read =>
    obtain rfl := workerControlState_some parsed
    obtain ⟨entry, found, status⟩ := controls.found
    simp [workerControlAllowsPolicy, found, status]

theorem mem_replaceControl {input : WorkerControlInput} {controls replaced : List WorkerCapabilityControl}
    (accepted : replaceControl runtime input capability contractDigest controls = .ok replaced)
    (entry : WorkerCapabilityControl) :
    entry ∈ replaced ↔ (entry ∈ controls ∧ ¬ Names capability contractDigest entry) ∨
      entry = ⟨capability, contractDigest, statusOf input.action, input.now, input.actor⟩ := by
  unfold replaceControl at accepted
  dsimp only at accepted
  split at accepted
  · cases accepted
  · cases accepted
    rw [List.mem_insertionSort, List.mem_append, List.mem_filter, List.mem_singleton, decide_eq_true_iff]

/-- A command on the pair leaves the one control that it writes. -/
theorem revokedIn_replaceControl_self {input : WorkerControlInput} {controls replaced : List WorkerCapabilityControl}
    (accepted : replaceControl runtime input capability contractDigest controls = .ok replaced) :
    RevokedIn replaced capability contractDigest ↔ statusOf input.action = .revoked := by
  have members := mem_replaceControl accepted
  constructor
  · rintro ⟨_, all⟩
    exact all _ ((members _).mpr (.inr rfl)) ⟨rfl, rfl⟩
  · intro status
    refine ⟨⟨_, (members _).mpr (.inr rfl), rfl, rfl⟩, fun entry member named => ?_⟩
    rcases (members entry).mp member with ⟨_, unnamed⟩ | rfl
    · exact absurd named unnamed
    · exact status

/-- A command on another pair keeps the controls of this one. -/
theorem revokedIn_replaceControl_of_ne {input : WorkerControlInput} {controls replaced : List WorkerCapabilityControl}
    {capability' contractDigest' : String} (other : ¬ (capability' = capability ∧ contractDigest' = contractDigest))
    (accepted : replaceControl runtime input capability' contractDigest' controls = .ok replaced)
    (revoked : RevokedIn controls capability contractDigest) : RevokedIn replaced capability contractDigest := by
  have members := mem_replaceControl accepted
  obtain ⟨⟨entry, member, named⟩, all⟩ := revoked
  refine ⟨⟨entry, (members entry).mpr (.inl ⟨member, fun named' => other ?_⟩), named⟩, fun entry member named => ?_⟩
  · exact ⟨named'.1.symm.trans named.1, named'.2.symm.trans named.2⟩
  · rcases (members entry).mp member with ⟨kept, _⟩ | rfl
    · exact all entry kept named
    · exact absurd named other

theorem updateWorkerControl_ok {stored : Option WorkerControlState} {input : WorkerControlInput} {updated : WorkerControlState}
    (accepted : updateWorkerControl runtime stored input = .ok updated) :
    ∃ current, workerControlState runtime stored = .ok current ∧
      assertWorkerControlTarget input.toWorkerControlTarget = .ok () ∧
      controlsAfter runtime input current.capabilityControls = .ok updated.capabilityControls := by
  obtain ⟨current, parsed, rest⟩ := bind_eq_ok accepted
  obtain ⟨_, target, rest⟩ := bind_eq_ok rest
  obtain ⟨_, _, rest⟩ := bind_eq_ok rest
  obtain ⟨controls, replaced, rest⟩ := bind_eq_ok rest
  obtain ⟨_, _, rest⟩ := bind_eq_ok rest
  obtain ⟨_, _, rest⟩ := bind_eq_ok rest
  cases rest
  exact ⟨current, parsed, target, replaced⟩

/-- A capability command names its capability and digest. -/
theorem assertWorkerControlTarget_ok {target : WorkerControlTarget} (accepted : assertWorkerControlTarget target = .ok ())
    (onCapability : target.action.onCapability = true) :
    ∃ capability contractDigest, target.capability = some capability ∧ target.contractDigest = some contractDigest := by
  unfold assertWorkerControlTarget at accepted
  rw [if_pos onCapability] at accepted
  obtain ⟨_, named, digested⟩ := bind_eq_ok accepted
  rw [ensure_ok_iff] at named digested
  cases capability : target.capability with
  | none => rw [capability] at named; cases named
  | some c =>
    cases contractDigest : target.contractDigest with
    | none => rw [contractDigest] at digested; cases digested
    | some d => exact ⟨c, d, rfl, rfl⟩

/-- Exactly the disabling of the pair takes a revocation back. -/
theorem revoked_update_iff {state updated : WorkerControlState} {input : WorkerControlInput}
    (revoked : Revoked (some state) capability contractDigest)
    (accepted : updateWorkerControl runtime (some state) input = .ok updated) :
    Revoked (some updated) capability contractDigest ↔ ¬ Disables input capability contractDigest := by
  obtain ⟨read, present, controls⟩ := revoked
  obtain rfl : state = read := Option.some.inj present
  obtain ⟨current, parsed, target, replaced⟩ := updateWorkerControl_ok accepted
  obtain rfl := workerControlState_some parsed
  have inUpdated : Revoked (some updated) capability contractDigest ↔
      RevokedIn updated.capabilityControls capability contractDigest :=
    ⟨fun ⟨_, present, revoked⟩ => by cases present; exact revoked, fun revoked => ⟨updated, rfl, revoked⟩⟩
  rw [inUpdated]
  cases onCapability : input.action.onCapability with
  | false =>
    rw [controlsAfter, onCapability, if_neg (by simp)] at replaced
    have same : current.capabilityControls = updated.capabilityControls := Except.ok.inj replaced
    rw [← same]
    refine ⟨fun _ => ?_, fun _ => controls⟩
    rintro ⟨disable, _⟩
    rw [disable] at onCapability
    cases onCapability
  | true =>
    obtain ⟨c, d, named, digested⟩ := assertWorkerControlTarget_ok target onCapability
    rw [controlsAfter, if_pos onCapability, named, digested] at replaced
    simp only [Option.getD_some] at replaced
    by_cases here : c = capability ∧ d = contractDigest
    · obtain ⟨rfl, rfl⟩ := here
      rw [revokedIn_replaceControl_self replaced]
      obtain ⟨entry, found, status⟩ := controls.found
      cases action : input.action with
      | capabilityEnable => simp [replaceControl, found, status, action] at replaced
      | capabilityDisable => simp [statusOf, Disables, action, named, digested]
      | digestRevoke => simp [statusOf, Disables, action]
      | pause | resume | drain => rw [action] at onCapability; cases onCapability
    · refine ⟨fun _ => ?_, fun _ => revokedIn_replaceControl_of_ne here replaced controls⟩
      rintro ⟨_, named', digested'⟩
      rw [named] at named'
      rw [digested] at digested'
      exact here ⟨Option.some.inj named', Option.some.inj digested'⟩

/-- An accepted revocation revokes. -/
theorem revoked_of_digestRevoke {stored : Option WorkerControlState} {input : WorkerControlInput} {updated : WorkerControlState}
    (revokes : input.action = .digestRevoke) (named : input.capability = some capability)
    (digested : input.contractDigest = some contractDigest)
    (accepted : updateWorkerControl runtime stored input = .ok updated) :
    Revoked (some updated) capability contractDigest := by
  obtain ⟨current, _, _, replaced⟩ := updateWorkerControl_ok accepted
  rw [controlsAfter, if_pos (by rw [revokes]; rfl), named, digested] at replaced
  exact ⟨updated, rfl, (revokedIn_replaceControl_self replaced).mpr (by rw [revokes]; rfl)⟩

/-- A command that does not disable a revoked pair. -/
def KeepsRevocation (capability contractDigest : String) (stored : Option WorkerControlState) (input : WorkerControlInput) :
    Prop :=
  Revoked stored capability contractDigest → ¬ Disables input capability contractDigest

theorem revoked_step {stored : Option WorkerControlState} {input : WorkerControlInput}
    (revoked : Revoked stored capability contractDigest) (keeps : KeepsRevocation capability contractDigest stored input) :
    Revoked (step runtime stored input) capability contractDigest := by
  unfold step
  cases accepted : updateWorkerControl runtime stored input with
  | error e => exact revoked
  | ok updated =>
    obtain ⟨state, present, _⟩ := id revoked
    obtain rfl : stored = some state := present
    exact (revoked_update_iff revoked accepted).mpr (keeps revoked)

/-- Once a revocation is accepted, every later evaluation refuses the pair, in
    every run whose commands do not disable a revoked pair. -/
theorem revocation_permanent {stored : Option WorkerControlState} {revoke : WorkerControlInput} {updated : WorkerControlState}
    (revokes : revoke.action = .digestRevoke) (named : revoke.capability = some capability)
    (digested : revoke.contractDigest = some contractDigest)
    (accepted : updateWorkerControl runtime stored revoke = .ok updated) {commands : List WorkerControlInput}
    (keeps : Throughout (step runtime) (KeepsRevocation capability contractDigest) (some updated) commands) :
    admitsExecution runtime (run (step runtime) (some updated) commands) capability contractDigest = false :=
  admitsExecution_of_revoked
    (invariant_of_throughout (Revoked · capability contractDigest) (fun _ _ revoked keeps => revoked_step revoked keeps)
      keeps (revoked_of_digestRevoke revokes named digested accepted))

end

/-! ### Revoke, disable, enable -/

/-- A runtime with one digest, no collation and no rejection. -/
def constantRuntime : ControlRuntime :=
  { localeCompare := fun _ _ => .eq, stateDigest := fun _ => "sha256:00", targetDigest := fun _ _ _ => "sha256:00"
    decisionDigest := fun _ => "sha256:00", identityDigest := fun _ => "sha256:00"
    assertNoSecretMaterial := fun _ => .ok (), attentionEvent := fun _ _ => .ok () }

def refundDigest : String := "sha256:dddddddddddddddddddddddddddddddddddddddddddddddddddddddddddddddd"

/-- A command of an operator on the refund capability. -/
def refundCommand (action : WorkerControlAction) : WorkerControlInput :=
  { action, capability := some "billing.refund", contractDigest := some refundDigest, actor := "ops", identity := none
    requireVerifiedIdentity := false, now := "2026-07-12T00:00:00.000Z" }

/-- A disable between them lets a revoked digest be enabled again. -/
theorem disable_then_enable_reactivates :
    (updateWorkerControl constantRuntime none (refundCommand .digestRevoke)).isOk = true ∧
    admitsExecution constantRuntime (run (step constantRuntime) none [refundCommand .digestRevoke])
      "billing.refund" refundDigest = false ∧
    admitsExecution constantRuntime
      (run (step constantRuntime) none
        [refundCommand .digestRevoke, refundCommand .capabilityDisable, refundCommand .capabilityEnable])
      "billing.refund" refundDigest = true := by
  refine ⟨?_, ?_, ?_⟩ <;> decide

/-- The control after the revocation. -/
def refundRevoked : WorkerControlState :=
  { mode := .active, revision := 1
    capabilityControls := [⟨"billing.refund", refundDigest, .revoked, "2026-07-12T00:00:00.000Z", "ops"⟩]
    lastDecision := none, updatedAt := "2026-07-12T00:00:00.000Z", integrityHash := "sha256:00" }

theorem enable_stays_refused :
    admitsExecution constantRuntime (run (step constantRuntime) (some refundRevoked) [refundCommand .capabilityEnable])
      "billing.refund" refundDigest = false :=
  revocation_permanent rfl rfl rfl
    (show updateWorkerControl constantRuntime none (refundCommand .digestRevoke) = .ok refundRevoked by decide)
    ⟨fun _ disables => absurd disables.1 (by decide), trivial⟩

end SynapsorRunner.WorkerControl
