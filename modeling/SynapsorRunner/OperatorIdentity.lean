import Mathlib.Data.List.Dedup
import SynapsorRunner.DslText
import SynapsorRunner.LocaleJson
import SynapsorRunner.Proposals

/-!
The proofs that operators leave with their decisions. A `jwt_oidc` proof carries a keyed
hash of all it says. A `signed_key` proof carries a signature of the decision alone: the
subject and the roles beside it stand under the unkeyed hash, so they are not bound
(`operatorProofs_bind_iff`).
-/
namespace SynapsorRunner.OperatorIdentity
open SynapsorRunner.Doubles SynapsorRunner.NumberText SynapsorRunner.JsonText SynapsorRunner.CanonicalJson
open SynapsorRunner.JsonContents SynapsorRunner.LocaleJson SynapsorRunner.Dsl SynapsorRunner.Proposals

/-! ### The platform -/

inductive Encoding where
  | utf8
  | base64url
  deriving DecidableEq

abbrev Bytes := List (Fin 256)

/-- What `node:crypto` and the locale do. A signature and a keyed hash are never empty. -/
structure Platform where
  localeCompare : Text → Text → Ordering
  /-- SHA-256 in hexadecimal digits. -/
  digest : Text → Text
  /-- The keyed hash of a text under a secret, in base64url. -/
  hmac : Text → Text → Text
  /-- A signature under a private key, in base64url, and the coins it is made with. -/
  sign : Text → Text → ℕ → Except Text Text
  verify : Text → Text → Bytes → Except Text Bool
  decode : Encoding → Text → Bytes
  /-- `Buffer.from` of a value that is not a text. -/
  bufferOf : Json → Except Text Bytes
  hmac_ne : ∀ secret text, hmac secret text ≠ []
  sign_ne : ∀ {key text coins signature}, sign key text coins = .ok signature → signature ≠ []

/-- An object in memory: a property can be there without a value. -/
abbrev Object := List (Text × Option Json)

def present (object : Object) : List (Text × Json) := object.filterMap fun p => p.2.map fun value => (p.1, value)

def check (broken : Prop) [Decidable broken] (message : Text) : Except Text Unit := if broken then .error message else .ok ()

/-- `value?.trim()` where an empty text counts as none. -/
def trimmed (value : Option Text) : Option Text := (value.map trim).filter fun t => decide (t ≠ [])

def truthyText (value : Option Text) : Option Text := value.filter fun t => decide (t ≠ [])

section
variable (platform : Platform)

def stableJson (value : Json) : Text := orderedText platform.localeCompare value

def stableObject (object : Object) : Text := stableJson platform (.object (present object))

def sha256 (value : Text) : Text := ascii "sha256:" ++ platform.digest value

def hmacAttestation (value : Object) (secret : Text) : Text := platform.hmac secret (stableObject platform value)

def bufferFrom (encoding : Encoding) : Json → Except Text Bytes
  | .string text => .ok (platform.decode encoding text)
  | value => platform.bufferOf value
end

/-! ### Inputs -/

inductive Action where
  | approve
  | reject
  | apply
  | revert
  | reconcile
  | workerRequeue
  | workerDiscard
  | workerPause
  | workerResume
  | workerDrain
  | workerCapabilityEnable
  | workerCapabilityDisable
  | workerDigestRevoke
  | workerCancel
  | attentionAcknowledge
  | notificationReplay
  | boundaryReview
  | boundaryActivate
  deriving DecidableEq

def Action.text : Action → Text
  | .approve => ascii "approve"
  | .reject => ascii "reject"
  | .apply => ascii "apply"
  | .revert => ascii "revert"
  | .reconcile => ascii "reconcile"
  | .workerRequeue => ascii "worker_requeue"
  | .workerDiscard => ascii "worker_discard"
  | .workerPause => ascii "worker_pause"
  | .workerResume => ascii "worker_resume"
  | .workerDrain => ascii "worker_drain"
  | .workerCapabilityEnable => ascii "worker_capability_enable"
  | .workerCapabilityDisable => ascii "worker_capability_disable"
  | .workerDigestRevoke => ascii "worker_digest_revoke"
  | .workerCancel => ascii "worker_cancel"
  | .attentionAcknowledge => ascii "attention_acknowledge"
  | .notificationReplay => ascii "notification_replay"
  | .boundaryReview => ascii "boundary_review"
  | .boundaryActivate => ascii "boundary_activate"

inductive Provider where
  | devEnv
  | signedKey
  | jwtOidc
  deriving DecidableEq

def Provider.text : Provider → Text
  | .devEnv => ascii "dev_env"
  | .signedKey => ascii "signed_key"
  | .jwtOidc => ascii "jwt_oidc"

structure Operator where
  publicKeyPath : Text
  roles : List Text

/-- The part of the configuration that the verifier of tokens is made from. -/
structure JwtOptions where
  algorithms : Option (List Text)
  jwksUrlEnv : Option Text
  publicKeyEnv : Option Text
  publicKeyPath : Option Text
  issuer : Option Text
  audience : Option Text
  clockSkewSeconds : Option Number
  jwksCacheSeconds : Option Number
  jwksCooldownSeconds : Option Number
  fetchTimeoutMs : Option Number
  maxResponseBytes : Option Number

structure OperatorIdentityConfig where
  provider : Provider
  actorEnv : Option Text
  rolesEnv : Option Text
  operators : Option (List (Text × Operator))
  tokenEnv : Option Text
  tokenFileEnv : Option Text
  tokenStdin : Bool
  rolesClaim : Option Text
  subjectClaim : Option Text
  attestationSecretEnv : Option Text
  jwt : JwtOptions

/-- A token that was verified: the claims of its payload and two fields of its header. -/
structure VerifiedJwt where
  payload : Text → Option Json
  kid : Option Text
  alg : Text

/-- A call: the input and what the call finds around it. -/
structure Call where
  config : Option OperatorIdentityConfig
  configPath : Option Text
  proposalId : Text
  proposalVersion : Number
  proposalHash : Text
  action : Action
  reason : Option Text
  actor : Option Text
  identity : Option Text
  privateKeyPath : Option Text
  requiredRole : Option Text
  env : Text → Option Text
  /-- The given time or the one of the clock. -/
  now : Text
  token : Option Text
  tokenInput : Text
  readFile : Text → Except Text Text
  dirname : Text → Text
  resolvePath : List Text → Text
  coins : ℕ
  /-- `createJwtVerifier` for the options, the environment and the base directory. -/
  verifier : JwtOptions → (Text → Option Text) → Text → Text → Except Text VerifiedJwt

/-! ### The decision -/

def operatorDecision (call : Call) (subject : Text) : List (Text × Json) :=
  [(ascii "schema_version", .string (ascii "synapsor.operator-decision.v1")),
    (ascii "action", .string call.action.text),
    (ascii "proposal_id", .string call.proposalId),
    (ascii "proposal_version", .number call.proposalVersion),
    (ascii "proposal_hash", .string call.proposalHash),
    (ascii "subject", .string subject),
    (ascii "issued_at", .string call.now)] ++
  match truthyText call.reason with
  | some reason => [(ascii "reason", .string reason)]
  | none => []

def assertRole (subject : Text) (roles : List Text) (requiredRole : Option Text) : Except Text Unit :=
  match truthyText requiredRole with
  | some required => check (required ∉ roles) (ascii "operator " ++ subject ++ ascii " lacks required role " ++ required)
  | none => .ok ()

/-- `[...new Set(values)].sort()`. -/
def sortedSet (values : List Text) : List Text := values.dedup.mergeSort fun a b => decide (a ≤ b)

/-- The parts between separators. The empty parts between two of them are left out by
    the filters of both callers. -/
def splitSeparated (value : Text) : List Text := value.splitOnP fun u => isSpace u || decide (u = unit ',')

def splitRoles (value : Option Text) : List Text :=
  sortedSet (((splitSeparated (value.getD [])).map trim).filter fun t => decide (t ≠ []))

def isLetter (u : CodeUnit) : Bool := decide (65 ≤ u.val ∧ u.val ≤ 90 ∨ 97 ≤ u.val ∧ u.val ≤ 122)

/-- `^[A-Za-z0-9@._:/+-]+$`. -/
def isSafeIdentity (t : Text) : Bool :=
  decide (t ≠ []) && t.all fun u => isLetter u || isDigit u || decide (u ∈ ascii "@._:/+-")

/-- `^[A-Za-z_][A-Za-z0-9_.-]*$`. -/
def isRole : Text → Bool
  | [] => false
  | first :: rest => (isLetter first || decide (first = unit '_')) &&
      rest.all fun u => isLetter u || isDigit u || decide (u ∈ ascii "_.-")

def safeIdentityClaim : Option Json → Option Text
  | some (.string value) =>
    if trim value ≠ [] ∧ (trim value).length ≤ 256 ∧ isSafeIdentity (trim value) then some (trim value) else none
  | _ => none

def textOf : Json → Option Text
  | .string value => some value
  | _ => none

def rolesFromClaim (value : Option Json) : List Text :=
  let candidates := match value with
    | some (.array items) => items.filterMap textOf
    | some (.string text) => splitSeparated text
    | _ => []
  sortedSet ((candidates.map trim).filter fun t => isRole t)

/-- The token of the request, or of the one place that the configuration names. -/
def operatorToken (config : OperatorIdentityConfig) (call : Call) : Except Text Text :=
  match trimmed call.token with
  | some token => .ok token
  | none =>
    let tokenEnv : Option Text :=
      match config.tokenEnv with
      | some name => some name
      | none =>
        if (truthyText config.tokenFileEnv).isNone ∧ config.tokenStdin = false then some (ascii "SYNAPSOR_OPERATOR_TOKEN")
        else none
    let inline := (truthyText tokenEnv).bind fun name => trimmed (call.env name)
    let filePath := (truthyText config.tokenFileEnv).bind fun name => trimmed (call.env name)
    let selected := inline.toList.length + filePath.toList.length + (if config.tokenStdin then 1 else 0)
    if selected > 1 then .error (ascii "operator JWT must come from exactly one of env, token file, or stdin")
    else
      match inline with
      | some token => .ok token
      | none => do
        let fromFile ← match filePath with
          | some path => (call.readFile (call.resolvePath [path])).map fun text => trimmed (some text)
          | none => .ok none
        match fromFile with
        | some token => .ok token
        | none =>
          if config.tokenStdin then
            match trimmed (some call.tokenInput) with
            | some token => .ok token
            | none => .error (ascii "operator JWT stdin was empty")
          else .error (ascii "operator JWT requires " ++ tokenEnv.getD (ascii "a configured token source") ++
            match truthyText config.tokenFileEnv with
            | some name => ascii " or a token file path in " ++ name
            | none => [])

/-! ### Proofs -/

section
variable (platform : Platform)

/-- The record with the unkeyed hash over it. -/
def withIntegrity (core : Object) : Object :=
  core ++ [(ascii "integrity_hash", some (.string (sha256 platform (stableObject platform core))))]

def texts (values : List Text) : Json := .array (values.map .string)

def decisionHash (decision : List (Text × Json)) : Text := sha256 platform (stableJson platform (.object decision))

/-- `process.env.USER` and the like, which nothing verifies. -/
def resolveDevEnv (call : Call) : Except Text Object := do
  let actorEnv := (call.config.bind (·.actorEnv)).getD (ascii "USER")
  let rolesEnv := (call.config.bind (·.rolesEnv)).getD (ascii "SYNAPSOR_OPERATOR_ROLES")
  let subject := ((trimmed call.actor).orElse fun _ => trimmed (call.env actorEnv)).getD (ascii "local_operator")
  let configuredRoles := splitRoles (call.env rolesEnv)
  let roles :=
    if configuredRoles ≠ [] then configuredRoles
    else if call.config.isNone then (truthyText call.requiredRole).toList
    else []
  assertRole subject roles call.requiredRole
  let decision := operatorDecision call subject
  pure (withIntegrity platform
    [(ascii "provider", some (.string Provider.devEnv.text)), (ascii "verified", some (.bool false)),
      (ascii "subject", some (.string subject)), (ascii "roles", some (texts roles)),
      (ascii "decision", some (.object decision)),
      (ascii "decision_hash", some (.string (decisionHash platform decision)))])

def configDir (call : Call) : Text :=
  call.dirname (call.resolvePath [call.configPath.getD (ascii "synapsor.runner.json")])

/-- A secret of at least 32 bytes. -/
def attestationSecret (config : OperatorIdentityConfig) (call : Call) : Except Text Text :=
  let name := config.attestationSecretEnv.getD (ascii "SYNAPSOR_OPERATOR_ATTESTATION_SECRET")
  let message := name ++ ascii " must contain at least 32 bytes of operator decision attestation key material"
  match trimmed (call.env name) with
  | none => .error message
  | some secret => if (platform.decode .utf8 secret).length < 32 then .error message else .ok secret

/-- The record that the proof of a token attests. -/
def tokenRecord (verified : VerifiedJwt) (subject : Text) (roles : List Text) (decision : List (Text × Json)) : Object :=
  [(ascii "provider", some (.string Provider.jwtOidc.text)), (ascii "verified", some (.bool true)),
    (ascii "subject", some (.string subject)), (ascii "roles", some (texts roles)),
    (ascii "key_id", verified.kid.map .string), (ascii "algorithm", some (.string verified.alg)),
    (ascii "issuer", ((verified.payload (ascii "iss")).bind textOf).map .string),
    (ascii "decision", some (.object decision)), (ascii "decision_hash", some (.string (decisionHash platform decision)))]

/-- The record and the secret that it is attested under. -/
def attested (config : OperatorIdentityConfig) (call : Call) : Except Text (Text × Object) := do
  let token ← operatorToken config call
  let verified ← call.verifier config.jwt call.env (configDir call) token
  match safeIdentityClaim (verified.payload (config.subjectClaim.getD (ascii "sub"))) with
  | none => .error (ascii "verified operator JWT is missing a safe subject claim")
  | some subject =>
    let roles := rolesFromClaim (verified.payload (config.rolesClaim.getD (ascii "roles")))
    assertRole subject roles call.requiredRole
    let secret ← attestationSecret platform config call
    pure (secret, tokenRecord platform verified subject roles (operatorDecision call subject))

def resolveJwtOidc (config : OperatorIdentityConfig) (call : Call) : Except Text Object := do
  let (secret, unsigned) ← attested platform config call
  let signature := hmacAttestation platform unsigned secret
  pure (withIntegrity platform (unsigned ++ [(ascii "signature", some (.string signature))]))

/-- What the holder of a key signs: the operator of the configuration, the key that it
    registers for them, the decision and its signature. -/
structure SignedDecision where
  subject : Text
  operator : Operator
  publicKey : Text
  decision : List (Text × Json)
  signature : Text

def signDecision (config : OperatorIdentityConfig) (call : Call) : Except Text SignedDecision :=
  match (trimmed call.identity).orElse fun _ => trimmed (call.env (ascii "SYNAPSOR_OPERATOR_ID")) with
  | none => .error (ascii "signed operator identity requires --identity <operator> or SYNAPSOR_OPERATOR_ID")
  | some subject =>
    match config.operators.bind (KeyedMap.find subject) with
    | none => .error (ascii "operator " ++ subject ++ ascii " is not present in operator_identity.operators")
    | some operator => do
      assertRole subject operator.roles call.requiredRole
      match (trimmed call.privateKeyPath).orElse fun _ => trimmed (call.env (ascii "SYNAPSOR_OPERATOR_PRIVATE_KEY_PATH")) with
      | none => .error (ascii
          "signed operator identity requires --identity-key <private-key.pem> or SYNAPSOR_OPERATOR_PRIVATE_KEY_PATH")
      | some privateKeyPath =>
        let publicKey ← call.readFile (call.resolvePath [configDir call, operator.publicKeyPath])
        let privateKey ← call.readFile (call.resolvePath [privateKeyPath])
        let decision := operatorDecision call subject
        let canonical := stableJson platform (.object decision)
        let signature ← platform.sign privateKey canonical call.coins
        let matched ← platform.verify publicKey canonical (platform.decode .base64url signature)
        check (matched = false) (ascii "private key does not match the reviewed public key for operator " ++ subject)
        pure ⟨subject, operator, publicKey, decision, signature⟩

/-- The record of a signed decision with roles beside it. -/
def SignedDecision.record (signed : SignedDecision) (roles : List Text) : Object :=
  [(ascii "provider", some (.string Provider.signedKey.text)), (ascii "verified", some (.bool true)),
    (ascii "subject", some (.string signed.subject)), (ascii "roles", some (texts roles)),
    (ascii "key_id", some (.string signed.subject)), (ascii "algorithm", some (.string (ascii "SHA256"))),
    (ascii "decision", some (.object signed.decision)),
    (ascii "decision_hash", some (.string (decisionHash platform signed.decision))),
    (ascii "signature", some (.string signed.signature))]

def resolveSignedKey (config : OperatorIdentityConfig) (call : Call) : Except Text Object :=
  (signDecision platform config call).map fun signed =>
    withIntegrity platform (signed.record platform (sortedSet signed.operator.roles))

def resolveOperatorIdentity (call : Call) : Except Text Object :=
  match call.config with
  | none => resolveDevEnv platform call
  | some config =>
    match config.provider with
    | .devEnv => resolveDevEnv platform call
    | .jwtOidc => resolveJwtOidc platform config call
    | .signedKey => resolveSignedKey platform config call

/-! ### Verification -/

/-- `Boolean(value)`. -/
def truthy : Json → Bool
  | .null => false
  | .bool value => value
  | .number (.finite _ m) => decide (0 < m.value)
  | .number (.infinite _) => true
  | .number .nan => false
  | .string value => decide (value ≠ [])
  | .array _ => true
  | .object _ => true

/-- A property that is a text. -/
def field (key : Text) (proof : List (Text × Json)) : Option Text := (KeyedMap.find key proof).bind textOf

/-- The parts of a proof that both functions look at first: a verified proof of the
    provider, its signature and its decision. -/
def opened (provider : Provider) (proof : List (Text × Json)) : Option (Json × Option Json) :=
  if field (ascii "provider") proof = some provider.text ∧ (KeyedMap.find (ascii "verified") proof).any truthy then
    ((KeyedMap.find (ascii "signature") proof).filter truthy).map fun signature =>
      (signature, KeyedMap.find (ascii "decision") proof)
  else none

def without (keys : List Text) (proof : List (Text × Json)) : List (Text × Json) := proof.filter fun p => decide (p.1 ∉ keys)

/-- A hash of an absent decision is a type error. -/
def canonicalDecision (decision : Option Json) : Except Text Text :=
  match decision with
  | some decision => .ok (stableJson platform decision)
  | none => .error (ascii "The data argument must be of type string")

/-- The property holds the unkeyed hash of the text. -/
def hashes (key : Text) (proof : List (Text × Json)) (text : Text) : Bool :=
  decide (field key proof = some (sha256 platform text))

def verifyJwtOperatorProof (proof : List (Text × Json)) (attestationSecret : Text) : Except Text Bool :=
  match opened .jwtOidc proof with
  | none => .ok false
  | some (signature, decision) => do
    let canonical ← canonicalDecision platform decision
    if hashes platform (ascii "decision_hash") proof canonical = false then .ok false
    else
      let unsigned := without [ascii "integrity_hash", ascii "signature"] proof
      let expected := platform.hmac attestationSecret (stableJson platform (.object unsigned))
      let actual ← bufferFrom platform .utf8 signature
      if actual ≠ platform.decode .utf8 expected then .ok false
      else
        let core := unsigned ++ [(ascii "signature", signature)]
        .ok (hashes platform (ascii "integrity_hash") proof (stableJson platform (.object core)))

def verifySignedOperatorProof (proof : List (Text × Json)) (publicKey : Text) : Except Text Bool :=
  match opened .signedKey proof with
  | none => .ok false
  | some (signature, decision) => do
    let canonical ← canonicalDecision platform decision
    if hashes platform (ascii "decision_hash") proof canonical = false then .ok false
    else
      let core := without [ascii "integrity_hash"] proof
      if hashes platform (ascii "integrity_hash") proof (stableJson platform (.object core)) = false then .ok false
      else
        let bytes ← bufferFrom platform .base64url signature
        platform.verify publicKey canonical bytes
end

/-! ### Objects with names -/

/-- No key of the object is an array index or comes twice. -/
structure Named (object : List (Text × Json)) : Prop where
  nodup : (object.map Prod.fst).Nodup
  names : ∀ key ∈ object.map Prod.fst, arrayIndex key = none
  ordered : ∀ p ∈ object, Ordered p.2

theorem enumeratesBefore_names {left right : Text} (name : arrayIndex left = none) (nameToo : arrayIndex right = none)
    (apart : left ≠ right) : enumeratesBefore left right := by
  rw [enumeratesBefore, name, nameToo]
  exact apart

theorem Named.propertiesOrdered {object : List (Text × Json)} (named : Named object) : PropertiesOrdered object := by
  refine propertiesOrdered_iff.mpr ⟨?_, named.ordered⟩
  refine (List.pairwise_map.mp named.nodup).imp_of_mem ?_
  intro p q member memberToo apart
  exact enumeratesBefore_names (named.names _ (List.mem_map_of_mem member)) (named.names _ (List.mem_map_of_mem memberToo)) apart

theorem Named.sublist {object part : List (Text × Json)} (named : Named object) (sub : part.Sublist object) : Named part where
  nodup := named.nodup.sublist (sub.map Prod.fst)
  names key member := named.names key ((sub.map Prod.fst).subset member)
  ordered p member := named.ordered p (sub.subset member)

theorem Named.perm {object other : List (Text × Json)} (named : Named object) (perm : other.Perm object) : Named other where
  nodup := (perm.map Prod.fst).nodup_iff.mpr named.nodup
  names key member := named.names key ((perm.map Prod.fst).subset member)
  ordered p member := named.ordered p (perm.subset member)

theorem ordered_distinct {value : Json} (ordered : Ordered value) : Distinct value := by
  induction value with
  | null => trivial
  | bool b => trivial
  | number n => trivial
  | string s => trivial
  | array items ih =>
    exact itemsDistinct_iff.mpr fun item member => ih item member (itemsOrdered_iff.mp ordered item member)
  | object properties ih =>
    obtain ⟨pairs, each⟩ := propertiesOrdered_iff.mp ordered
    refine ⟨?_, propertiesDistinct_iff.mpr fun p member => ih p member (each p member)⟩
    rw [List.Nodup, List.pairwise_map]
    exact pairs.imp fun before => enumeratesBefore_ne before

theorem Named.distinct {object : List (Text × Json)} (named : Named object) : Distinct (.object object) :=
  ordered_distinct (show Ordered (.object object) from named.propertiesOrdered)

theorem texts_ordered (values : List Text) : Ordered (texts values) := by
  refine itemsOrdered_iff.mpr ?_
  intro item member
  obtain ⟨text, -, rfl⟩ := List.mem_map.mp member
  trivial

theorem present_keys (object : Object) : ((present object).map Prod.fst).Sublist (object.map Prod.fst) := by
  induction object with
  | nil => exact List.Sublist.slnil
  | cons p rest ih =>
    obtain ⟨key, value⟩ := p
    cases value with
    | none => exact ih.cons key
    | some value => exact ih.cons_cons key

theorem present_append (left right : Object) : present (left ++ right) = present left ++ present right :=
  List.filterMap_append

/-- The names of a decision. -/
def decisionNames : List Text :=
  [ascii "schema_version", ascii "action", ascii "proposal_id", ascii "proposal_version", ascii "proposal_hash", ascii "subject",
    ascii "issued_at", ascii "reason"]

theorem decisionNames_named : decisionNames.Nodup ∧ ∀ key ∈ decisionNames, arrayIndex key = none := by
  decide

theorem operatorDecision_named (call : Call) (subject : Text) : Named (operatorDecision call subject) := by
  have keys : ((operatorDecision call subject).map Prod.fst).Sublist decisionNames := by
    unfold operatorDecision decisionNames
    cases truthyText call.reason <;> simp
  refine ⟨decisionNames_named.1.sublist keys, fun key member => decisionNames_named.2 key (keys.subset member), ?_⟩
  intro p member
  unfold operatorDecision at member
  cases reason : truthyText call.reason <;> simp only [reason, List.append_nil, List.cons_append, List.nil_append,
    List.mem_cons, List.not_mem_nil, or_false] at member
  all_goals
    rcases member with rfl | rfl | rfl | rfl | rfl | rfl | rfl | rfl
    all_goals trivial

/-- The names of a proof. -/
def proofNames : List Text :=
  [ascii "provider", ascii "verified", ascii "subject", ascii "roles", ascii "key_id", ascii "algorithm", ascii "issuer",
    ascii "decision", ascii "decision_hash", ascii "signature", ascii "integrity_hash"]

theorem proofNames_named : proofNames.Nodup ∧ ∀ key ∈ proofNames, arrayIndex key = none := by
  decide

theorem present_named {object : Object} (keys : (object.map Prod.fst).Sublist proofNames)
    (values : ∀ p ∈ object, ∀ value ∈ p.2, Ordered value) : Named (present object) where
  nodup := proofNames_named.1.sublist ((present_keys object).trans keys)
  names key member := proofNames_named.2 key (((present_keys object).trans keys).subset member)
  ordered := by
    intro p member
    obtain ⟨q, inside, is⟩ := List.mem_filterMap.mp member
    obtain ⟨value, there, rfl⟩ := Option.map_eq_some_iff.mp is
    exact values q inside value there

theorem mem_present {object : Object} {key : Text} {value : Json} (member : (key, some value) ∈ object) :
    (key, value) ∈ present object :=
  List.mem_filterMap.mpr ⟨_, member, rfl⟩

/-! ### What is read of a proof -/

/-- The properties as they are read from the text of the object. -/
def reading (proof : List (Text × Json)) : List (Text × Json) := proof.map fun p => (p.1, asRead p.2)

theorem parseJson_named {proof : List (Text × Json)} (named : Named proof) :
    parseJson (Json.text (.object proof)) = some (.object (reading proof)) := by
  rw [parseJson_asRead, asRead_object named.propertiesOrdered, reading]

theorem find_reading (key : Text) (proof : List (Text × Json)) :
    KeyedMap.find key (reading proof) = (KeyedMap.find key proof).map asRead :=
  KeyedMap.find_map asRead key proof

theorem textOf_asRead (value : Json) : textOf (asRead value) = textOf value := by
  cases value with
  | number n =>
    rw [asRead]
    split <;> rfl
  | _ => rfl

theorem field_reading (key : Text) (proof : List (Text × Json)) : field key (reading proof) = field key proof := by
  rw [field, field, find_reading]
  cases KeyedMap.find key proof with
  | none => rfl
  | some value => exact textOf_asRead value

theorem without_reading (keys : List Text) (proof : List (Text × Json)) :
    without keys (reading proof) = reading (without keys proof) := by
  rw [without, without, reading, reading, List.filter_map]
  rfl

variable {platform : Platform}

theorem stableJson_reading {proof : List (Text × Json)} (named : Named proof) :
    stableJson platform (.object (reading proof)) = stableJson platform (.object proof) := by
  rw [reading, ← asRead_object named.propertiesOrdered]
  exact orderedText_asRead (show Ordered (.object proof) from named.propertiesOrdered)

/-- A proof in memory: a signature and a decision under its hash. -/
structure Carries (platform : Platform) (provider : Provider) (proof : List (Text × Json)) (signature : Text) (decision : Json) :
    Prop where
  named : Named proof
  provided : KeyedMap.find (ascii "provider") proof = some (.string provider.text)
  verified : KeyedMap.find (ascii "verified") proof = some (.bool true)
  signed : KeyedMap.find (ascii "signature") proof = some (.string signature)
  nonempty : signature ≠ []
  decided : KeyedMap.find (ascii "decision") proof = some decision
  hashed : KeyedMap.find (ascii "decision_hash") proof = some (.string (sha256 platform (stableJson platform decision)))

theorem field_of_find {key text : Text} {proof : List (Text × Json)} (found : KeyedMap.find key proof = some (.string text)) :
    field key proof = some text := by
  rw [field, found]
  rfl

theorem Carries.opened_reading {provider : Provider} {proof : List (Text × Json)} {signature : Text} {decision : Json}
    (carries : Carries platform provider proof signature decision) :
    opened provider (reading proof) = some (.string signature, some (asRead decision)) := by
  rw [opened, field_reading, field_of_find carries.provided, find_reading, find_reading, find_reading, carries.verified,
    carries.signed, carries.decided]
  simp [asRead, truthy, carries.nonempty, Option.filter]

theorem Carries.decision_text {provider : Provider} {proof : List (Text × Json)} {signature : Text} {decision : Json}
    (carries : Carries platform provider proof signature decision) :
    stableJson platform (asRead decision) = stableJson platform decision :=
  orderedText_asRead (carries.named.ordered _ (KeyedMap.find_mem carries.decided))

theorem hashes_reading {key text : Text} {proof : List (Text × Json)}
    (found : KeyedMap.find key proof = some (.string (sha256 platform text))) :
    hashes platform key (reading proof) text = true := by
  rw [hashes, field_reading, field_of_find found]
  exact decide_eq_true rfl

/-- A signed proof verifies after it is written and read. -/
theorem verifySigned_reading {proof : List (Text × Json)} {signature key : Text} {decision : Json}
    (carries : Carries platform .signedKey proof signature decision)
    (whole : KeyedMap.find (ascii "integrity_hash") proof =
      some (.string (sha256 platform (stableJson platform (.object (without [ascii "integrity_hash"] proof))))))
    (valid : platform.verify key (stableJson platform decision) (platform.decode .base64url signature) = .ok true) :
    verifySignedOperatorProof platform (reading proof) key = .ok true := by
  have hash : hashes platform (ascii "decision_hash") (reading proof) (stableJson platform decision) = true :=
    hashes_reading carries.hashed
  have core : hashes platform (ascii "integrity_hash") (reading proof)
      (stableJson platform (.object (without [ascii "integrity_hash"] (reading proof)))) = true := by
    have named : Named (without [ascii "integrity_hash"] proof) := carries.named.sublist List.filter_sublist
    rw [without_reading, stableJson_reading named]
    exact hashes_reading whole
  rw [verifySignedOperatorProof, carries.opened_reading]
  simp only [canonicalDecision, bind, Except.bind, hash, core, bufferFrom, carries.decision_text, valid,
    Bool.true_eq_false, if_false]

/-- An attested proof verifies after it is written and read. -/
theorem verifyJwt_reading {proof unsigned : List (Text × Json)} {secret signature : Text} {decision : Json}
    (carries : Carries platform .jwtOidc proof signature decision)
    (rest : without [ascii "integrity_hash", ascii "signature"] proof = unsigned)
    (attests : signature = platform.hmac secret (stableJson platform (.object unsigned)))
    (named : Named (unsigned ++ [(ascii "signature", .string signature)]))
    (whole : KeyedMap.find (ascii "integrity_hash") proof =
      some (.string (sha256 platform (stableJson platform (.object (unsigned ++ [(ascii "signature", .string signature)])))))) :
    verifyJwtOperatorProof platform (reading proof) secret = .ok true := by
  have hash : hashes platform (ascii "decision_hash") (reading proof) (stableJson platform decision) = true :=
    hashes_reading carries.hashed
  have unsignedText : stableJson platform (.object (reading unsigned)) = stableJson platform (.object unsigned) :=
    stableJson_reading (named.sublist (List.sublist_append_left _ _))
  have core : stableJson platform (.object (reading unsigned ++ [(ascii "signature", .string signature)])) =
      stableJson platform (.object (unsigned ++ [(ascii "signature", .string signature)])) := by
    rw [← stableJson_reading named, reading, reading, List.map_append]
    rfl
  rw [verifyJwtOperatorProof, carries.opened_reading]
  simp only [canonicalDecision, bind, Except.bind, hash, without_reading, rest, unsignedText, ← attests, bufferFrom, ne_eq,
    not_true_eq_false, Bool.true_eq_false, if_false, core, hashes_reading whole, carries.decision_text]

/-! ### What is produced -/

theorem without_append {keys : List Text} {kept extra : List (Text × Json)} (apart : ((kept ++ extra).map Prod.fst).Nodup)
    (same : ∀ key, key ∈ keys ↔ key ∈ extra.map Prod.fst) : without keys (kept ++ extra) = kept := by
  rw [List.map_append, List.nodup_append] at apart
  have first : kept.filter (fun p => decide (p.1 ∉ keys)) = kept := by
    refine List.filter_eq_self.mpr fun p member => decide_eq_true fun inside => ?_
    exact apart.2.2 _ (List.mem_map_of_mem member) _ ((same _).mp inside) rfl
  have second : extra.filter (fun p => decide (p.1 ∉ keys)) = [] := by
    refine List.filter_eq_nil_iff.mpr fun p member => ?_
    rw [decide_eq_true_eq, not_not]
    exact (same _).mpr (List.mem_map_of_mem member)
  rw [without, List.filter_append, first, second, List.append_nil]

theorem present_withIntegrity (core : Object) : present (withIntegrity platform core) =
    present core ++ [(ascii "integrity_hash", .string (sha256 platform (stableObject platform core)))] := by
  rw [withIntegrity, present_append]
  rfl

section
variable {signed : SignedDecision} (roles : List Text)

theorem record_named (decided : Named signed.decision) :
    Named (present (withIntegrity platform (signed.record platform roles))) := by
  refine present_named ?_ ?_
  · show List.Sublist [ascii "provider", ascii "verified", ascii "subject", ascii "roles", ascii "key_id", ascii "algorithm",
      ascii "decision", ascii "decision_hash", ascii "signature", ascii "integrity_hash"] proofNames
    decide
  · intro p member value there
    simp only [withIntegrity, SignedDecision.record, List.cons_append, List.nil_append, List.mem_cons, List.not_mem_nil,
      or_false] at member
    rcases member with rfl | rfl | rfl | rfl | rfl | rfl | rfl | rfl | rfl | rfl
    all_goals
      cases there
      first
      | exact trivial
      | exact texts_ordered roles
      | exact decided.propertiesOrdered

theorem record_carries (decided : Named signed.decision) (nonempty : signed.signature ≠ []) :
    Carries platform .signedKey (present (withIntegrity platform (signed.record platform roles))) signed.signature
      (.object signed.decision) := by
  have named : Named (present (withIntegrity platform (signed.record platform roles))) := record_named roles decided
  have found {key : Text} {value : Json} (member : (key, some value) ∈ withIntegrity platform (signed.record platform roles)) :
      KeyedMap.find key (present (withIntegrity platform (signed.record platform roles))) = some value :=
    KeyedMap.find_of_mem named.nodup (mem_present member)
  exact ⟨named, found (by simp [withIntegrity, SignedDecision.record]), found (by simp [withIntegrity, SignedDecision.record]),
    found (by simp [withIntegrity, SignedDecision.record]), nonempty, found (by simp [withIntegrity, SignedDecision.record]),
    found (by simp [withIntegrity, SignedDecision.record, OperatorIdentity.decisionHash])⟩

/-- A record with a signature of its decision verifies, whatever roles stand in it. -/
theorem record_verifies {key : Text} (decided : Named signed.decision) (nonempty : signed.signature ≠ [])
    (valid : platform.verify key (stableJson platform (.object signed.decision))
      (platform.decode .base64url signed.signature) = .ok true) :
    verifySignedOperatorProof platform (reading (present (withIntegrity platform (signed.record platform roles)))) key =
      .ok true := by
  have named : Named (present (withIntegrity platform (signed.record platform roles))) := record_named roles decided
  refine verifySigned_reading (record_carries roles decided nonempty) ?_ valid
  rw [present_withIntegrity] at named ⊢
  rw [without_append named.nodup (by simp)]
  exact KeyedMap.find_of_mem named.nodup (List.mem_append_right _ (List.mem_singleton.mpr rfl))
end

theorem check_ok {broken : Prop} [Decidable broken] {message : Text} {u : Unit} (passed : check broken message = .ok u) :
    ¬ broken := by
  intro fails
  rw [check, if_pos fails] at passed
  cases passed

theorem signDecision_ok {config : OperatorIdentityConfig} {call : Call} {signed : SignedDecision}
    (done : signDecision platform config call = .ok signed) :
    Named signed.decision ∧ signed.signature ≠ [] ∧
      platform.verify signed.publicKey (stableJson platform (.object signed.decision))
        (platform.decode .base64url signed.signature) = .ok true := by
  unfold signDecision at done
  split at done
  · cases done
  · rename_i subject identified
    split at done
    · cases done
    · obtain ⟨_, -, done⟩ := bind_eq_ok done
      split at done
      · cases done
      · obtain ⟨publicKey, -, done⟩ := bind_eq_ok done
        obtain ⟨privateKey, -, done⟩ := bind_eq_ok done
        obtain ⟨signature, made, done⟩ := bind_eq_ok done
        obtain ⟨matched, verified, done⟩ := bind_eq_ok done
        obtain ⟨_, passed, done⟩ := bind_eq_ok done
        cases done
        have isTrue : matched = true := by simpa using check_ok passed
        exact ⟨operatorDecision_named call subject, platform.sign_ne made, isTrue ▸ verified⟩

theorem attested_ok {config : OperatorIdentityConfig} {call : Call} {secret : Text} {unsigned : Object}
    (done : attested platform config call = .ok (secret, unsigned)) :
    ∃ verified subject roles, unsigned = tokenRecord platform verified subject roles (operatorDecision call subject) := by
  obtain ⟨token, -, done⟩ := bind_eq_ok done
  obtain ⟨verified, -, done⟩ := bind_eq_ok done
  dsimp only at done
  split at done
  · cases done
  · rename_i subject safe
    obtain ⟨_, -, done⟩ := bind_eq_ok done
    obtain ⟨found, -, done⟩ := bind_eq_ok done
    cases done
    exact ⟨verified, subject, _, rfl⟩

section
variable (verified : VerifiedJwt) (call : Call) (subject signature : Text) (roles : List Text)

/-- An attested record in memory. -/
def tokenProof (platform : Platform) : Object :=
  withIntegrity platform (tokenRecord platform verified subject roles (operatorDecision call subject) ++
    [(ascii "signature", some (.string signature))])

theorem token_named : Named (present (tokenProof verified call subject signature roles platform)) := by
  refine present_named ?_ ?_
  · show List.Sublist proofNames proofNames
    exact List.Sublist.refl _
  · intro p member value there
    simp only [tokenProof, withIntegrity, tokenRecord, List.cons_append, List.nil_append, List.mem_cons, List.not_mem_nil,
      or_false] at member
    rcases member with rfl | rfl | rfl | rfl | rfl | rfl | rfl | rfl | rfl | rfl | rfl
    all_goals
      first
      | obtain ⟨text, -, rfl⟩ := Option.map_eq_some_iff.mp there
        exact trivial
      | cases there
        first
        | exact trivial
        | exact texts_ordered roles
        | exact (operatorDecision_named call subject).propertiesOrdered

theorem present_tokenProof : present (tokenProof verified call subject signature roles platform) =
    present (tokenRecord platform verified subject roles (operatorDecision call subject)) ++
      [(ascii "signature", .string signature), (ascii "integrity_hash", .string (sha256 platform (stableJson platform (.object
        (present (tokenRecord platform verified subject roles (operatorDecision call subject)) ++
          [(ascii "signature", .string signature)])))))] := by
  rw [tokenProof, present_withIntegrity, stableObject, present_append, List.append_assoc]
  rfl

theorem without_tokenProof : without [ascii "integrity_hash", ascii "signature"]
    (present (tokenProof verified call subject signature roles platform)) =
      present (tokenRecord platform verified subject roles (operatorDecision call subject)) := by
  have named : Named (present (tokenProof verified call subject signature roles platform)) :=
    token_named verified call subject signature roles
  rw [present_tokenProof] at named ⊢
  refine without_append named.nodup fun key => ?_
  simp only [List.map_cons, List.map_nil, List.mem_cons, List.not_mem_nil, or_false]
  exact Or.comm

theorem token_verifies {secret : Text} (attests : signature = hmacAttestation platform
    (tokenRecord platform verified subject roles (operatorDecision call subject)) secret) :
    verifyJwtOperatorProof platform (reading (present (tokenProof verified call subject signature roles platform))) secret =
      .ok true := by
  have named : Named (present (tokenProof verified call subject signature roles platform)) :=
    token_named verified call subject signature roles
  have found {key : Text} {value : Json}
      (member : (key, some value) ∈ tokenProof verified call subject signature roles platform) :
      KeyedMap.find key (present (tokenProof verified call subject signature roles platform)) = some value :=
    KeyedMap.find_of_mem named.nodup (mem_present member)
  have carries : Carries platform .jwtOidc (present (tokenProof verified call subject signature roles platform)) signature
      (.object (operatorDecision call subject)) :=
    ⟨named, found (by simp [tokenProof, withIntegrity, tokenRecord]), found (by simp [tokenProof, withIntegrity, tokenRecord]),
      found (by simp [tokenProof, withIntegrity, tokenRecord]), attests ▸ platform.hmac_ne _ _,
      found (by simp [tokenProof, withIntegrity, tokenRecord]),
      found (by simp [tokenProof, withIntegrity, tokenRecord, OperatorIdentity.decisionHash])⟩
  rw [present_tokenProof] at named
  refine verifyJwt_reading carries (without_tokenProof ..) attests (named.sublist ?_) ?_
  · exact List.Sublist.append_left (List.Sublist.cons_cons _ (List.nil_sublist _)) _
  · rw [present_tokenProof]
    exact KeyedMap.find_of_mem named.nodup (List.mem_append_right _ (List.mem_cons_of_mem _ (List.mem_singleton.mpr rfl)))
end

/-! ### What a proof that verifies says -/

theorem find_without {keys : List Text} {key : Text} (other : key ∉ keys) (proof : List (Text × Json)) :
    KeyedMap.find key (without keys proof) = KeyedMap.find key proof := by
  induction proof with
  | nil => rfl
  | cons p rest ih =>
    by_cases inside : p.1 ∈ keys
    · have apart : p.1 ≠ key := fun same => other (same ▸ inside)
      rw [without, List.filter_cons_of_neg (by simpa using inside), ← without, ih, KeyedMap.find, if_neg apart]
    · rw [without, List.filter_cons_of_pos (by simpa using inside), ← without, KeyedMap.find, KeyedMap.find, ih]

theorem distinct_without {proof : List (Text × Json)} (distinct : Distinct (.object proof)) (keys : List Text) :
    Distinct (.object (without keys proof)) :=
  ⟨distinct.1.sublist (List.filter_sublist.map Prod.fst), propertiesDistinct_iff.mpr fun p member =>
    propertiesDistinct_iff.mp distinct.2 p (List.filter_sublist.subset member)⟩

theorem opened_eq {provider : Provider} {proof : List (Text × Json)} {signature : Json} {decision : Option Json}
    (parts : opened provider proof = some (signature, decision)) :
    KeyedMap.find (ascii "provider") proof = some (.string provider.text) ∧
      KeyedMap.find (ascii "signature") proof = some signature ∧ KeyedMap.find (ascii "decision") proof = decision := by
  unfold opened at parts
  split at parts
  · rename_i known
    obtain ⟨value, kept, same⟩ := Option.map_eq_some_iff.mp parts
    obtain ⟨rfl, rfl⟩ := Prod.mk.inj same
    obtain ⟨provided, found, isText⟩ := Option.bind_eq_some_iff.mp known.1
    refine ⟨?_, (Option.filter_eq_some_iff.mp kept).1, rfl⟩
    cases provided with
    | string text =>
      cases isText
      exact found
    | _ => cases isText
  · cases parts

theorem verifyJwt_ok {proof : List (Text × Json)} {secret : Text}
    (verified : verifyJwtOperatorProof platform proof secret = .ok true) :
    ∃ signature, KeyedMap.find (ascii "signature") proof = some signature ∧
      bufferFrom platform .utf8 signature = .ok (platform.decode .utf8 (platform.hmac secret
        (stableJson platform (.object (without [ascii "integrity_hash", ascii "signature"] proof))))) := by
  unfold verifyJwtOperatorProof at verified
  split at verified
  · cases verified
  · rename_i signature decision parts
    obtain ⟨canonical, -, verified⟩ := bind_eq_ok verified
    split at verified
    · cases verified
    · obtain ⟨actual, bytes, verified⟩ := bind_eq_ok verified
      split at verified
      · cases verified
      · rename_i same
        rw [ne_eq, not_not] at same
        exact ⟨signature, (opened_eq parts).2.1, same ▸ bytes⟩

theorem verifySigned_ok {proof : List (Text × Json)} {key : Text}
    (verified : verifySignedOperatorProof platform proof key = .ok true) :
    KeyedMap.find (ascii "provider") proof = some (.string Provider.signedKey.text) ∧
      ∃ signature decision bytes, KeyedMap.find (ascii "signature") proof = some signature ∧
        KeyedMap.find (ascii "decision") proof = some decision ∧ bufferFrom platform .base64url signature = .ok bytes ∧
          platform.verify key (stableJson platform decision) bytes = .ok true := by
  unfold verifySignedOperatorProof at verified
  split at verified
  · cases verified
  · rename_i signature decision parts
    obtain ⟨canonical, text, verified⟩ := bind_eq_ok verified
    obtain ⟨provided, signed, decided⟩ := opened_eq parts
    refine ⟨provided, signature, ?_⟩
    split at verified
    · cases verified
    · dsimp only at verified
      split at verified
      · cases verified
      · obtain ⟨bytes, buffer, verified⟩ := bind_eq_ok verified
        cases decision with
        | none => cases text
        | some decision =>
          cases text
          exact ⟨decision, bytes, signed, decided, buffer, verified⟩

/-! ### Histories -/

/-- Calls that returned, under one configuration: the keys that it registers for operators
    and its secret of attestation. -/
structure History (platform : Platform) where
  calls : List Call
  keys : Text → Option Text
  secret : Text
  returned : ∀ call ∈ calls, ∃ object, resolveOperatorIdentity platform call = .ok object
  registered : ∀ call ∈ calls, ∀ config ∈ call.config, ∀ signed, signDecision platform config call = .ok signed →
    keys signed.subject = some signed.publicKey
  attests : ∀ call ∈ calls, ∀ config ∈ call.config, ∀ secret' unsigned, attested platform config call = .ok (secret', unsigned) →
    secret' = secret

/-- Whoever writes the ledger has neither the private keys nor the secret: of the
    signatures that they know, those of the calls among them, each that verifies was made
    by a call. -/
structure Unforgeable (h : History platform) (known : Json → Prop) : Prop where
  readable : ∀ call ∈ h.calls, ∀ object, resolveOperatorIdentity platform call = .ok object →
    ∀ signature, KeyedMap.find (ascii "signature") (present object) = some signature → known signature
  signatures : ∀ signature bytes subject key text, known signature → h.keys subject = some key →
    bufferFrom platform .base64url signature = .ok bytes → platform.verify key text bytes = .ok true →
      ∃ call ∈ h.calls, ∃ config ∈ call.config, config.provider = .signedKey ∧
        ∃ signed, signDecision platform config call = .ok signed ∧ stableJson platform (.object signed.decision) = text
  attestations : ∀ signature text, known signature →
    bufferFrom platform .utf8 signature = .ok (platform.decode .utf8 (platform.hmac h.secret text)) →
      ∃ call ∈ h.calls, ∃ config ∈ call.config, config.provider = .jwtOidc ∧
        ∃ unsigned, attested platform config call = .ok (h.secret, unsigned) ∧ stableObject platform unsigned = text

/-- The proof verifies with the key of its operator, or with the secret. -/
def History.Verifies (h : History platform) (proof : List (Text × Json)) : Prop :=
  (∃ subject key, field (ascii "subject") proof = some subject ∧ h.keys subject = some key ∧
    verifySignedOperatorProof platform proof key = .ok true) ∨
  verifyJwtOperatorProof platform proof h.secret = .ok true

/-- Each verified proof verifies after it is stored as JSON and read back. -/
def History.Survives (h : History platform) : Prop :=
  ∀ call ∈ h.calls, ∀ object, resolveOperatorIdentity platform call = .ok object →
    KeyedMap.find (ascii "verified") (present object) = some (.bool true) →
      ∃ proof, parseJson (Json.text (.object (present object))) = some (.object proof) ∧ h.Verifies proof

/-- The property stands for the same value in both proofs. -/
def Agree (key : Text) (proof other : List (Text × Json)) : Prop :=
  (KeyedMap.find key proof).map contents = (KeyedMap.find key other).map contents

def boundNames : List Text := [ascii "subject", ascii "roles", ascii "provider", ascii "decision"]

/-- Whatever text is written into the ledger: a proof that is read from it and verifies
    was produced by a call, with the same subject, roles, provider and decision. -/
def History.Binds (h : History platform) (known : Json → Prop) : Prop :=
  ∀ text proof, parseJson text = some (.object proof) →
    (∀ signature, KeyedMap.find (ascii "signature") proof = some signature → known signature) → h.Verifies proof →
      ∃ call ∈ h.calls, ∃ object, resolveOperatorIdentity platform call = .ok object ∧
        ∀ key ∈ boundNames, Agree key proof (present object)

theorem resolve_signedKey {call : Call} {config : OperatorIdentityConfig} (configured : config ∈ call.config)
    (signs : config.provider = .signedKey) :
    resolveOperatorIdentity platform call = resolveSignedKey platform config call := by
  rw [resolveOperatorIdentity, Option.mem_def.mp configured]
  dsimp only
  rw [signs]

theorem resolve_jwtOidc {call : Call} {config : OperatorIdentityConfig} (configured : config ∈ call.config)
    (attests : config.provider = .jwtOidc) :
    resolveOperatorIdentity platform call = resolveJwtOidc platform config call := by
  rw [resolveOperatorIdentity, Option.mem_def.mp configured]
  dsimp only
  rw [attests]

theorem resolveSignedKey_ok {call : Call} {config : OperatorIdentityConfig} {object : Object}
    (done : resolveSignedKey platform config call = .ok object) : ∃ signed, signDecision platform config call = .ok signed ∧
      object = withIntegrity platform (signed.record platform (sortedSet signed.operator.roles)) := by
  unfold resolveSignedKey at done
  cases made : signDecision platform config call with
  | error message =>
    rw [made] at done
    cases done
  | ok signed =>
    rw [made] at done
    exact ⟨signed, rfl, (Except.ok.inj done).symm⟩

theorem resolveJwtOidc_ok {call : Call} {config : OperatorIdentityConfig} {object : Object}
    (done : resolveJwtOidc platform config call = .ok object) : ∃ secret verified subject roles,
      attested platform config call = .ok (secret, tokenRecord platform verified subject roles (operatorDecision call subject)) ∧
        object = tokenProof verified call subject (hmacAttestation platform
          (tokenRecord platform verified subject roles (operatorDecision call subject)) secret) roles platform := by
  obtain ⟨⟨secret, unsigned⟩, made, done⟩ := bind_eq_ok done
  obtain ⟨verified, subject, roles, rfl⟩ := attested_ok made
  cases done
  exact ⟨secret, verified, subject, roles, made, rfl⟩

theorem find_second {α : Type} {first second : Text} {a b : α} (apart : first ≠ second) (rest : List (Text × α)) :
    KeyedMap.find second ((first, a) :: (second, b) :: rest) = some b := by
  rw [KeyedMap.find, if_neg apart, KeyedMap.find, if_pos rfl]

theorem resolveDevEnv_unverified {call : Call} {object : Object} (done : resolveDevEnv platform call = .ok object) :
    KeyedMap.find (ascii "verified") (present object) = some (.bool false) := by
  obtain ⟨_, -, done⟩ := bind_eq_ok done
  cases done
  have apart : ascii "provider" ≠ ascii "verified" := by decide
  exact find_second apart _

section
variable {h : History platform} {known : Json → Prop}

/-- Every verified proof survives the ledger. -/
theorem survives (h : History platform) : h.Survives := by
  intro call member object done verified
  cases configured : call.config with
  | none =>
    rw [resolveOperatorIdentity, configured] at done
    rw [resolveDevEnv_unverified done] at verified
    cases verified
  | some config =>
    cases provider : config.provider with
    | devEnv =>
      rw [resolveOperatorIdentity, configured] at done
      dsimp only at done
      rw [provider] at done
      rw [resolveDevEnv_unverified done] at verified
      cases verified
    | signedKey =>
      rw [resolve_signedKey configured provider] at done
      obtain ⟨signed, made, rfl⟩ := resolveSignedKey_ok done
      obtain ⟨decided, nonempty, valid⟩ := signDecision_ok made
      have named : Named (present (withIntegrity platform (signed.record platform (sortedSet signed.operator.roles)))) :=
        record_named _ decided
      refine ⟨_, parseJson_named named, .inl ⟨signed.subject, signed.publicKey, ?_,
        h.registered call member config configured signed made, record_verifies _ decided nonempty valid⟩⟩
      rw [field_reading]
      exact field_of_find (KeyedMap.find_of_mem named.nodup (mem_present (by simp [withIntegrity, SignedDecision.record])))
    | jwtOidc =>
      rw [resolve_jwtOidc configured provider] at done
      obtain ⟨secret, token, subject, roles, made, rfl⟩ := resolveJwtOidc_ok done
      refine ⟨_, parseJson_named (token_named ..), .inr ?_⟩
      rw [← h.attests call member config configured _ _ made]
      exact token_verifies _ _ _ _ _ rfl

/-- A proof that verifies with the secret says what a call attested. -/
theorem jwt_bound (unforgeable : Unforgeable h known) {proof : List (Text × Json)} (distinct : Distinct (.object proof))
    (isKnown : ∀ signature, KeyedMap.find (ascii "signature") proof = some signature → known signature)
    (verified : verifyJwtOperatorProof platform proof h.secret = .ok true) :
    ∃ call ∈ h.calls, ∃ object, resolveOperatorIdentity platform call = .ok object ∧
      ∀ key ∉ [ascii "integrity_hash", ascii "signature"], Agree key proof (present object) := by
  obtain ⟨signature, found, bytes⟩ := verifyJwt_ok verified
  obtain ⟨call, member, config, configured, attests, unsigned, made, same⟩ :=
    unforgeable.attestations signature _ (isKnown signature found) bytes
  obtain ⟨object, done⟩ := h.returned call member
  refine ⟨call, member, object, done, fun key other => ?_⟩
  rw [resolve_jwtOidc configured attests] at done
  obtain ⟨secret, token, subject, roles, madeToo, rfl⟩ := resolveJwtOidc_ok done
  rw [made] at madeToo
  cases madeToo
  have named : Named (present (tokenProof token call subject (hmacAttestation platform
      (tokenRecord platform token subject roles (operatorDecision call subject)) h.secret) roles platform)) := token_named ..
  have distinctToo := distinct_without named.distinct [ascii "integrity_hash", ascii "signature"]
  have distinctUnsigned := distinct_without distinct [ascii "integrity_hash", ascii "signature"]
  rw [stableObject, ← without_tokenProof token call subject (hmacAttestation platform
      (tokenRecord platform token subject roles (operatorDecision call subject)) h.secret) roles] at same
  have equal := contents_of_text distinctToo distinctUnsigned same
  rw [contents_object distinctToo.1, contents_object distinctUnsigned.1, Value.object.injEq] at equal
  have here := congrFun equal key
  rw [find_without other, find_without other] at here
  exact here.symm

/-- A proof that verifies with a key has the provider and a decision that a call signed. -/
theorem signed_bound (unforgeable : Unforgeable h known) {proof : List (Text × Json)} {subject key : Text}
    (distinct : Distinct (.object proof)) (registered : h.keys subject = some key)
    (isKnown : ∀ signature, KeyedMap.find (ascii "signature") proof = some signature → known signature)
    (verified : verifySignedOperatorProof platform proof key = .ok true) :
    ∃ call ∈ h.calls, (∃ config ∈ call.config, config.provider = .signedKey) ∧
      ∃ object, resolveOperatorIdentity platform call = .ok object ∧
        Agree (ascii "provider") proof (present object) ∧ Agree (ascii "decision") proof (present object) := by
  obtain ⟨provided, signature, decision, bytes, found, decided, buffer, valid⟩ := verifySigned_ok verified
  obtain ⟨call, member, config, configured, signs, signed, made, same⟩ :=
    unforgeable.signatures signature bytes subject key _ (isKnown signature found) registered buffer valid
  obtain ⟨decisionNamed, nonempty, -⟩ := signDecision_ok made
  have done : resolveOperatorIdentity platform call =
      .ok (withIntegrity platform (signed.record platform (sortedSet signed.operator.roles))) := by
    rw [resolve_signedKey configured signs, resolveSignedKey, made]
    rfl
  have carries : Carries platform .signedKey
      (present (withIntegrity platform (signed.record platform (sortedSet signed.operator.roles)))) signed.signature
      (.object signed.decision) := record_carries _ decisionNamed nonempty
  refine ⟨call, member, ⟨config, configured, signs⟩, _, done, ?_, ?_⟩
  · rw [Agree, provided, carries.provided]
  · have read := propertiesDistinct_iff.mp distinct.2 _ (KeyedMap.find_mem decided)
    rw [Agree, decided, carries.decided, Option.map_some, Option.map_some,
      contents_of_text decisionNamed.distinct read same]
end

/-! ### Edited roles -/

theorem contents_eq_array {value : Json} {values : List Value} (is : contents value = .array values) :
    ∃ items, value = .array items ∧ items.map contents = values := by
  cases value with
  | array items =>
    rw [contents_array, Value.array.injEq] at is
    exact ⟨items, rfl, is⟩
  | number n =>
    rw [contents, asRead] at is
    split at is <;> cases is
  | _ => cases is

variable (platform) in
/-- How many roles stand in the proof of a call. -/
def rolesCount (call : Call) : ℕ :=
  match resolveOperatorIdentity platform call with
  | .error _ => 0
  | .ok object =>
    match KeyedMap.find (ascii "roles") (present object) with
    | some (.array items) => items.length
    | _ => 0

theorem rolesCount_eq {call : Call} {object : Object} (done : resolveOperatorIdentity platform call = .ok object)
    {items : List Json} (found : KeyedMap.find (ascii "roles") (present object) = some (.array items)) :
    rolesCount platform call = items.length := by
  rw [rolesCount, done]
  dsimp only
  rw [found]

section
variable {h : History platform} {known : Json → Prop}

/-- More roles than any proof has can be written beside a signed decision. -/
theorem not_binds_of_signed (unforgeable : Unforgeable h known) {call : Call} (member : call ∈ h.calls)
    {config : OperatorIdentityConfig} (configured : config ∈ call.config) (signs : config.provider = .signedKey) :
    ¬ h.Binds known := by
  intro binds
  obtain ⟨object, done⟩ := h.returned call member
  have returned := done
  rw [resolve_signedKey configured signs] at returned
  obtain ⟨signed, made, rfl⟩ := resolveSignedKey_ok returned
  obtain ⟨decided, nonempty, valid⟩ := signDecision_ok made
  let roles : List Text := List.replicate ((h.calls.map (rolesCount platform)).sum + 1) (ascii "owner")
  have named : Named (present (withIntegrity platform (signed.record platform roles))) := record_named roles decided
  have forged : Carries platform .signedKey (present (withIntegrity platform (signed.record platform roles))) signed.signature
      (.object signed.decision) := record_carries roles decided nonempty
  have honest : Carries platform .signedKey
      (present (withIntegrity platform (signed.record platform (sortedSet signed.operator.roles)))) signed.signature
      (.object signed.decision) := record_carries _ decided nonempty
  have isKnown : ∀ signature,
      KeyedMap.find (ascii "signature") (reading (present (withIntegrity platform (signed.record platform roles)))) =
        some signature → known signature := by
    intro signature found
    rw [find_reading, forged.signed] at found
    cases found
    exact unforgeable.readable call member _ done _ honest.signed
  have subject : KeyedMap.find (ascii "subject") (present (withIntegrity platform (signed.record platform roles))) =
      some (.string signed.subject) :=
    KeyedMap.find_of_mem named.nodup (mem_present (by simp [withIntegrity, SignedDecision.record]))
  have rolesThere : KeyedMap.find (ascii "roles") (present (withIntegrity platform (signed.record platform roles))) =
      some (texts roles) :=
    KeyedMap.find_of_mem named.nodup (mem_present (by simp [withIntegrity, SignedDecision.record]))
  have verifies : h.Verifies (reading (present (withIntegrity platform (signed.record platform roles)))) := by
    refine .inl ⟨signed.subject, signed.publicKey, ?_, h.registered call member config configured signed made,
      record_verifies roles decided nonempty valid⟩
    rw [field_reading]
    exact field_of_find subject
  obtain ⟨other, memberToo, produced, doneToo, agree⟩ := binds _ _ (parseJson_named named) isKnown verifies
  have same := agree (ascii "roles") (by simp [boundNames])
  rw [Agree, find_reading, rolesThere, Option.map_some, Option.map_some, texts, asRead, asReadItems_eq, contents_array] at same
  obtain ⟨value, found, is⟩ := Option.map_eq_some_iff.mp same.symm
  obtain ⟨items, rfl, each⟩ := contents_eq_array is
  have count : items.length = (h.calls.map (rolesCount platform)).sum + 1 := by
    have lengths := congrArg List.length each
    simpa [roles] using lengths
  have bound : rolesCount platform other ≤ (h.calls.map (rolesCount platform)).sum :=
    List.le_sum_of_mem (List.mem_map_of_mem memberToo)
  rw [rolesCount_eq doneToo found] at bound
  omega

/-- Proofs survive the ledger and bind the operator and the decision exactly when no call
    was made with keys of operators. -/
theorem operatorProofs_bind_iff (unforgeable : Unforgeable h known) : h.Survives ∧ h.Binds known ↔
    ∀ call ∈ h.calls, ∀ config ∈ call.config, config.provider ≠ .signedKey := by
  constructor
  · rintro ⟨-, binds⟩ call member config configured signs
    exact not_binds_of_signed unforgeable member configured signs binds
  · intro unsigned
    refine ⟨survives h, fun text proof read isKnown verifies => ?_⟩
    have distinct : Distinct (.object proof) := parseJson_distinct read
    rcases verifies with ⟨subject, key, -, registered, verified⟩ | verified
    · obtain ⟨call, member, ⟨config, configured, signs⟩, -⟩ := signed_bound unforgeable distinct registered isKnown verified
      exact absurd signs (unsigned call member config configured)
    · obtain ⟨call, member, object, done, agree⟩ := jwt_bound unforgeable distinct isKnown verified
      refine ⟨call, member, object, done, fun key bound => agree key ?_⟩
      have apart : ∀ key ∈ boundNames, key ∉ [ascii "integrity_hash", ascii "signature"] := by decide
      exact apart key bound
end

/-! ### A signed approval -/

/-- Two bytes for a unit. -/
def unitBytes (u : CodeUnit) : Bytes := [Fin.ofNat 256 (u.val / 256), Fin.ofNat 256 u.val]

theorem unitBytes_append {u v : CodeUnit} {left right : Bytes} (same : unitBytes u ++ left = unitBytes v ++ right) :
    u = v ∧ left = right := by
  obtain ⟨high, rest⟩ := List.cons.inj same
  obtain ⟨low, others⟩ := List.cons.inj rest
  have highs := congrArg Fin.val high
  have lows := congrArg Fin.val low
  simp only [Fin.val_ofNat] at highs lows
  exact ⟨Fin.ext (by omega), others⟩

theorem flatMap_unitBytes_injective : Function.Injective fun t : Text => t.flatMap unitBytes := by
  intro left
  induction left with
  | nil =>
    intro right same
    cases right with
    | nil => rfl
    | cons v rest => simp [unitBytes] at same
  | cons u rest ih =>
    intro right same
    cases right with
    | nil => simp [unitBytes] at same
    | cons v more =>
      dsimp only at same
      rw [List.flatMap_cons, List.flatMap_cons] at same
      obtain ⟨rfl, others⟩ := unitBytes_append same
      rw [ih others]

/-- Signatures and keyed hashes that show their text. -/
def plainPlatform : Platform where
  localeCompare a b := if a < b then .lt else if a = b then .eq else .gt
  digest text := text
  hmac _ text := unit 'm' :: text
  sign _ text _ := .ok (unit 's' :: text)
  verify _ text bytes := .ok (decide (bytes = (unit 's' :: text).flatMap unitBytes))
  decode _ text := text.flatMap unitBytes
  bufferOf _ := .error []
  hmac_ne _ _ := List.cons_ne_nil _ _
  sign_ne := by
    intro key text coins signature made
    cases made
    exact List.cons_ne_nil _ _

def approvalOperator : Operator := ⟨ascii "alice.pub", [ascii "reviewer"]⟩

def approvalConfig : OperatorIdentityConfig :=
  ⟨.signedKey, none, none, some [(ascii "alice", approvalOperator)], none, none, false, none, none, none,
    ⟨none, none, none, none, none, none, none, none, none, none, none⟩⟩

def approvalCall : Call where
  config := some approvalConfig
  configPath := none
  proposalId := ascii "wrp_1"
  proposalVersion := numberOne
  proposalHash := ascii "sha256:1"
  action := .approve
  reason := none
  actor := none
  identity := some (ascii "alice")
  privateKeyPath := some (ascii "alice.pem")
  requiredRole := none
  env _ := none
  now := ascii "2026-07-12"
  token := none
  tokenInput := []
  readFile path := .ok path
  dirname path := path
  resolvePath paths := paths.flatten
  coins := 0
  verifier _ _ _ _ := .error []

def approval : SignedDecision where
  subject := ascii "alice"
  operator := approvalOperator
  publicKey := approvalCall.resolvePath [configDir approvalCall, ascii "alice.pub"]
  decision := operatorDecision approvalCall (ascii "alice")
  signature := unit 's' :: stableJson plainPlatform (.object (operatorDecision approvalCall (ascii "alice")))

theorem approval_signed : signDecision plainPlatform approvalConfig approvalCall = .ok approval := by
  have identified : trimmed approvalCall.identity = some (ascii "alice") := by decide
  have holder : trimmed approvalCall.privateKeyPath = some (ascii "alice.pem") := by decide
  have registered : approvalConfig.operators.bind (KeyedMap.find (ascii "alice")) = some approvalOperator := by
    rw [approvalConfig, Option.bind_some, KeyedMap.find, if_pos rfl]
  rw [signDecision, identified]
  dsimp only [Option.orElse]
  rw [registered, holder]
  simp [assertRole, truthyText, approvalCall, bind, Except.bind, pure, Except.pure, plainPlatform, check, approval,
    approvalOperator]

theorem approval_returned : resolveOperatorIdentity plainPlatform approvalCall =
    .ok (withIntegrity plainPlatform (approval.record plainPlatform (sortedSet approval.operator.roles))) := by
  have configured : approvalConfig ∈ approvalCall.config := rfl
  rw [resolve_signedKey configured rfl, resolveSignedKey, approval_signed]
  rfl

theorem approval_not_attested {secret : Text} {unsigned : Object}
    (done : attested plainPlatform approvalConfig approvalCall = .ok (secret, unsigned)) : False := by
  obtain ⟨token, -, done⟩ := bind_eq_ok done
  obtain ⟨verified, refused, -⟩ := bind_eq_ok done
  simp [approvalCall] at refused

def approvalHistory : History plainPlatform where
  calls := [approvalCall]
  keys subject := if subject = ascii "alice" then some approval.publicKey else none
  secret := []
  returned := by
    intro call member
    rw [List.mem_singleton.mp member]
    exact ⟨_, approval_returned⟩
  registered := by
    intro call member config configured signed made
    cases List.mem_singleton.mp member
    cases configured
    rw [approval_signed] at made
    cases made
    exact if_pos rfl
  attests := by
    intro call member config configured secret unsigned made
    cases List.mem_singleton.mp member
    cases configured
    exact (approval_not_attested made).elim

/-- The one signature of the history. -/
def fromLedger (signature : Json) : Prop := signature = .string approval.signature

theorem approval_unforgeable : Unforgeable approvalHistory fromLedger where
  readable := by
    intro call member object done signature found
    cases List.mem_singleton.mp member
    rw [approval_returned] at done
    cases done
    obtain ⟨decided, nonempty, -⟩ := signDecision_ok approval_signed
    have carries : Carries plainPlatform .signedKey
        (present (withIntegrity plainPlatform (approval.record plainPlatform (sortedSet approval.operator.roles))))
        approval.signature (.object approval.decision) := record_carries _ decided nonempty
    rw [carries.signed] at found
    exact (Option.some.inj found).symm
  signatures := by
    rintro signature bytes subject key text rfl - buffer valid
    cases buffer
    refine ⟨approvalCall, List.mem_singleton.mpr rfl, approvalConfig, rfl, rfl, approval, approval_signed, ?_⟩
    have same := of_decide_eq_true (Except.ok.inj valid)
    exact (List.cons.inj (flatMap_unitBytes_injective same)).2
  attestations := by
    rintro signature text rfl buffer
    have same := flatMap_unitBytes_injective (Except.ok.inj buffer)
    have differs : unit 's' ≠ unit 'm' := by decide
    exact absurd (List.cons.inj same).1 differs

theorem approval_not_bound : ¬ (approvalHistory.Survives ∧ approvalHistory.Binds fromLedger) := by
  intro bound
  exact (operatorProofs_bind_iff approval_unforgeable).mp bound approvalCall (List.mem_singleton.mpr rfl) approvalConfig rfl rfl

/-- Anyone who can write the ledger adds roles to a signed approval. -/
theorem roles_added_unnoticed : ¬ ∀ (platform : Platform) (h : History platform) (known : Json → Prop),
    Unforgeable h known → h.Survives ∧ h.Binds known := by
  intro claimed
  have bound := claimed plainPlatform approvalHistory fromLedger approval_unforgeable
  have configured : approvalConfig ∈ approvalCall.config := rfl
  exact not_binds_of_signed approval_unforgeable (List.mem_singleton.mpr rfl) configured rfl bound.2

end SynapsorRunner.OperatorIdentity
