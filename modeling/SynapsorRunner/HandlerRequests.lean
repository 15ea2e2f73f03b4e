import SynapsorRunner.ExplorePlans
import SynapsorRunner.CanonicalJson

/-!
Requests to an app-owned writeback handler, and its receipts. A request is taken when it
carries what the settings ask for and its body gives a job (`acceptRequest`); what is not taken is
answered before the database is touched, as failed and without a mutation
(`acceptRequest_refuses`). A receipt is stored as JSON and read back by the schema of receipts,
which gives the status it was written with (`coerceReceipt_status`).
-/
namespace SynapsorRunner.HandlerRequests
open SynapsorRunner.Doubles SynapsorRunner.NumberText SynapsorRunner.JsonText SynapsorRunner.Proposals
open SynapsorRunner.CanonicalJson (protoKey)
open SynapsorRunner.ExploreBoundaries (entry)
open SynapsorRunner.ExplorePlans (Properties property asRecord)

/-! ### Receipts -/

inductive HandlerReceiptStatus where
  | applied
  | alreadyApplied
  | conflict
  | failed
  deriving DecidableEq

def HandlerReceiptStatus.text : HandlerReceiptStatus → Text
  | applied => ascii "applied"
  | alreadyApplied => ascii "already_applied"
  | conflict => ascii "conflict"
  | failed => ascii "failed"

structure HandlerReceipt where
  status : HandlerReceiptStatus
  rowsAffected : Number
  sourceDatabaseMutated : Bool
  previousVersion : Option Json
  newVersion : Option Json
  safeErrorCode : Option (Option Text)
  details : Option Properties

def wholeNumber (n : ℕ) : Number :=
  match roundToDouble n with
  | some m => .finite false m
  | none => .infinite false

def failedReceipt (code : String) : HandlerReceipt where
  status := .failed
  rowsAffected := wholeNumber 0
  sourceDatabaseMutated := false
  previousVersion := none
  newVersion := none
  safeErrorCode := some (some (ascii code))
  details := none

def conflictReceipt (code : String) (previousVersion : Option Json) : HandlerReceipt where
  status := .conflict
  rowsAffected := wholeNumber 0
  sourceDatabaseMutated := false
  previousVersion := previousVersion
  newVersion := none
  safeErrorCode := some (some (ascii code))
  details := none

/-- What the business function returns; nothing where it returns nothing. -/
structure HandlerEffects where
  rowsAffected : Option Number
  newVersion : Option Json
  effects : Option (List Json)
  details : Option Properties

/-- `Math.max(1, n)` -/
def atLeastOne : Number → Number
  | .nan => .nan
  | .infinite negative => if negative then wholeNumber 1 else .infinite false
  | .finite negative m => if negative ∨ m.value < 1 then wholeNumber 1 else .finite false m

/-- A value of a version that is neither `null` nor missing. -/
def present : Option Json → Option Json
  | some .null => none
  | value => value

def appliedReceipt (currentVersion : Json) (effects : HandlerEffects) : HandlerReceipt :=
  let counted := effects.rowsAffected.getD (wholeNumber ((effects.effects.map List.length).getD 1))
  let given := effects.details.getD []
  let details := match effects.effects with
    | some list => defineProperty given (ascii "effects") (.array list)
    | none => given
  { status := .applied
    rowsAffected := atLeastOne counted
    sourceDatabaseMutated := true
    previousVersion := some currentVersion
    newVersion := some ((present effects.newVersion).getD currentVersion)
    safeErrorCode := some none
    details := if details.isEmpty then none else some details }

/-- The answer to a request whose effect is stored. -/
def duplicateReceipt (duplicate : HandlerReceipt) : HandlerReceipt :=
  { duplicate with status := .alreadyApplied, rowsAffected := wholeNumber 0, sourceDatabaseMutated := false }

def optionalEntry (key : String) (value : Option Json) : Properties :=
  match value with
  | some value => [(ascii key, value)]
  | none => []

/-- `JSON.stringify(receipt)` as the column of type `jsonb` keeps it: a number that JSON has
    no text for becomes `null`. -/
def jsonNumber (n : Number) : Json := if n.isFinite then .number n else .null

def codeJson : Option Text → Json
  | some code => .string code
  | none => .null

def receiptJson (receipt : HandlerReceipt) : Json :=
  .object ([(ascii "status", .string receipt.status.text), (ascii "rows_affected", jsonNumber receipt.rowsAffected),
      (ascii "source_database_mutated", .bool receipt.sourceDatabaseMutated)] ++
    optionalEntry "previous_version" receipt.previousVersion ++ optionalEntry "new_version" receipt.newVersion ++
    optionalEntry "safe_error_code" (receipt.safeErrorCode.map codeJson) ++
    optionalEntry "details" (receipt.details.map .object))

def readStatus : Option Json → Option HandlerReceiptStatus
  | some (.string t) =>
    if t = ascii "applied" then some .applied
    else if t = ascii "already_applied" then some .alreadyApplied
    else if t = ascii "conflict" then some .conflict
    else if t = ascii "failed" then some .failed
    else none
  | _ => none

/-- `z.number().int().nonnegative().default(0)` -/
def readRows : Option Json → Option Number
  | none => some (wholeNumber 0)
  | some (.number (.finite negative m)) =>
    if m.value.den = 1 ∧ (negative = false ∨ m.value = 0) then some (.finite negative m) else none
  | _ => none

def readFlag : Option Json → Option Bool
  | none => some false
  | some (.bool flag) => some flag
  | _ => none

def isScalar : Json → Bool
  | .array _ | .object _ => false
  | _ => true

/-- A value of `scalarSchema.optional()`. -/
def readScalar : Option Json → Option (Option Json)
  | none => some none
  | some value => if isScalar value then some (some value) else none

def readCode : Option Json → Option (Option (Option Text))
  | none => some none
  | some .null => some (some none)
  | some (.string code) => some (some (some code))
  | _ => none

def readDetails : Option Json → Option (Option Properties)
  | none => some none
  | some (.object details) => some (some details)
  | _ => none

/-- `appHandlerReceiptV1Schema` -/
def coerceReceipt : Json → Option HandlerReceipt
  | .object value => do
    let status ← readStatus (property value "status")
    let rowsAffected ← readRows (property value "rows_affected")
    let mutated ← readFlag (property value "source_database_mutated")
    let previousVersion ← readScalar (property value "previous_version")
    let newVersion ← readScalar (property value "new_version")
    let code ← readCode (property value "safe_error_code")
    let details ← readDetails (property value "details")
    pure ⟨status, rowsAffected, mutated, previousVersion, newVersion, code, details⟩
  | _ => none

theorem readStatus_text (status : HandlerReceiptStatus) : readStatus (some (.string status.text)) = some status := by
  cases status <;> rfl

theorem property_status (receipt : HandlerReceipt) (rest : Properties) :
    property ((ascii "status", Json.string receipt.status.text) :: rest) "status" =
      some (.string receipt.status.text) := by
  simp [property, entry]

/-- A stored receipt is read with the status it was written with, if it is read. -/
theorem coerceReceipt_status {receipt read : HandlerReceipt}
    (coerced : coerceReceipt (receiptJson receipt) = some read) :
    read.status = receipt.status := by
  simp only [receiptJson, coerceReceipt, List.cons_append, property_status, readStatus_text, Option.bind_eq_bind,
    Option.bind_some, Option.bind_eq_some_iff, Option.pure_def, Option.some.injEq] at coerced
  obtain ⟨_, -, _, -, _, -, _, -, _, -, _, -, same⟩ := coerced
  rw [← same]

/-! ### Jobs -/

structure Guard where
  column : Text
  value : Json

structure Target where
  schema : Text
  table : Text
  primaryKey : Guard

/-- A job without the row it is about. -/
structure HandlerJob where
  protocolVersion : Text
  proposalId : Text
  idempotencyKey : Text
  issuedAt : Option Text
  action : Text
  tenantId : Text
  objectId : Text
  principal : Text
  target : Target
  tenantGuard : Guard
  expectedVersion : Guard
  patch : Properties
  raw : Properties

def isLetter (u : CodeUnit) : Bool :=
  decide (65 ≤ u.val ∧ u.val ≤ 90) || decide (97 ≤ u.val ∧ u.val ≤ 122) || decide (u.val = 95)

def safeIdentifier : Text → Bool
  | [] => false
  | first :: rest => isLetter first && rest.all fun u => isLetter u || isDigit u

def numberString : Number → Text
  | .infinite negative => if negative then ascii "-Infinity" else ascii "Infinity"
  | .nan => ascii "NaN"
  | n => numberText n

def joinedByCommas : List Text → Text
  | [] => []
  | [t] => t
  | t :: rest => t ++ ascii "," ++ joinedByCommas rest

mutual
/-- `String(value)`, which throws on an object with a property `toString` of its own. -/
def stringOf : Json → Option Text
  | .null => some (ascii "null")
  | .bool value => some (if value then ascii "true" else ascii "false")
  | .number value => some (numberString value)
  | .string value => some value
  | .array items => (stringsOf items).map joinedByCommas
  | .object properties => if ascii "toString" ∈ properties.map Prod.fst then none else some (ascii "[object Object]")

def stringsOf : List Json → Option (List Text)
  | [] => some []
  | .null :: rest => (stringsOf rest).map ([] :: ·)
  | first :: rest => (stringOf first).bind fun t => (stringsOf rest).map (t :: ·)
end

/-- `a ?? b` -/
def orElse (value other : Option Json) : Option Json := (present value).orElse fun _ => other

def stringValue (value : Option Json) (name : String) : Except Text Text :=
  match value with
  | some (.string t) => if t.isEmpty then .error (ascii name ++ ascii " must be a non-empty string") else .ok t
  | _ => .error (ascii name ++ ascii " must be a non-empty string")

def safeIdentifierValue (value : Option Json) (name : String) : Except Text Text := do
  let t ← stringValue value name
  if safeIdentifier t then .ok t else .error (ascii name ++ ascii " must be a safe identifier")

def scalarValue (value : Option Json) (name : Text) : Except Text Json :=
  match value with
  | some value => if isScalar value then .ok value else .error (name ++ ascii " must be a scalar")
  | none => .error (name ++ ascii " must be a scalar")

/-- The properties of a patch; the key `__proto__` passes the checks and is not assigned. -/
def scalarProperties : Properties → Except Text Properties
  | [] => .ok []
  | (key, value) :: rest => do
    if safeIdentifier key then
      let scalar ← scalarValue (some value) (ascii "patch." ++ key)
      let later ← scalarProperties rest
      pure (if key = protoKey then later else (key, scalar) :: later)
    else .error (ascii "unsafe patch column: " ++ key)

def scalarRecord : Option Json → Except Text Properties
  | some (.object input) => do
    let result ← scalarProperties input
    if result.isEmpty then .error (ascii "patch must not be empty") else .ok result
  | _ => .error (ascii "patch must be an object")

def stringified (value : Option Json) (fallback : String) : Except Text Text :=
  match present value with
  | none => .ok (ascii fallback)
  | some value => match stringOf value with
    | some t => .ok t
    | none => .error (ascii "Cannot convert object to primitive value")

/-- The value of a key, where it is a record. -/
def subrecord (input : Properties) (key : String) : Option Properties := (property input key).bind asRecord

def recordOr (input : Properties) (key : String) (other : Properties) : Properties := (subrecord input key).getD other

def normalizeHandlerJob (request : Properties) : Except Text HandlerJob := do
  let changeSet := recordOr request "change_set" request
  let source := recordOr changeSet "source" []
  let target := recordOr changeSet "target" source
  let guards := recordOr changeSet "guards" []
  let scope := recordOr changeSet "scope" []
  let principal := recordOr changeSet "principal" []
  let primaryKey := recordOr target "primary_key" (recordOr source "primary_key" [])
  let tenantGuard := recordOr guards "tenant" (recordOr changeSet "tenant_guard" [])
  let expectedVersion := recordOr guards "expected_version" []
  let patch ← scalarRecord (property changeSet "patch")
  let action ← stringValue (orElse (property changeSet "action") (property request "action")) "action"
  let schema ← safeIdentifierValue (orElse (property target "schema") (property source "schema")) "target.schema"
  let table ← safeIdentifierValue (orElse (property target "table") (property source "table")) "target.table"
  let keyColumn ← safeIdentifierValue (property primaryKey "column") "target.primary_key.column"
  let keyValue ← scalarValue (orElse (property primaryKey "value") (property scope "object_id"))
    (ascii "target.primary_key.value")
  let tenantColumn ← safeIdentifierValue (property tenantGuard "column") "guards.tenant.column"
  let tenantValue ← scalarValue (orElse (property tenantGuard "value") (property scope "tenant_id"))
    (ascii "guards.tenant.value")
  let expectedColumn ← safeIdentifierValue (property expectedVersion "column") "guards.expected_version.column"
  let expectedValue ← scalarValue (property expectedVersion "value") (ascii "guards.expected_version.value")
  let protocolVersion ← stringified (orElse (property request "protocol_version") (property request "schema_version")) "1.0"
  let proposalId ← stringValue (property request "proposal_id") "proposal_id"
  let idempotencyKey ← stringValue (property request "idempotency_key") "idempotency_key"
  let tenantId ← stringified (some tenantValue) "null"
  let objectId ← stringified (some keyValue) "null"
  let principalId ← stringified (orElse (property principal "id") (property changeSet "runner_hint")) "approved_operator"
  pure
    { protocolVersion, proposalId, idempotencyKey
      issuedAt := match property request "issued_at" with
        | some (.string t) => some t
        | _ => none
      action, tenantId, objectId
      principal := principalId
      target := ⟨schema, table, ⟨keyColumn, keyValue⟩⟩
      tenantGuard := ⟨tenantColumn, tenantValue⟩
      expectedVersion := ⟨expectedColumn, expectedValue⟩
      patch
      raw := request }

def supportedProtocolVersion (value : Text) : Bool :=
  decide (value = ascii "1.0") || decide (value = ascii "synapsor.handler-writeback.v1")

/-! ### Requests -/

structure Response where
  statusCode : ℕ
  receipt : HandlerReceipt

/-- What the library takes from its platform: the signature of a text under a secret, and the
    time that a text is a date of. -/
structure Platform where
  signHandlerRequest : Text → Text → Text
  instant : Text → Option Int
  isoText : Int → Text

structure HandlerOptions where
  tokenEnv : Option Text
  signingSecretEnv : Option Text
  issuedAtSkewMs : Option ℕ
  env : Text → Option Text
  /-- The actions with a business function. -/
  capabilities : Text → Bool

/-- A request, whose body is missing where it is longer than 1 MiB or cannot be read. -/
structure HttpRequest where
  method : Option Text
  authorization : Option Text
  signature : Option Text
  issuedAt : Option Text
  rawBody : Option Text

def nonEmpty (t : Option Text) : Option Text := t.filter fun t => !t.isEmpty

def validBearer (header : Option Text) (expected : Text) : Bool :=
  match header with
  | some value => (ascii "Bearer ").isPrefixOf value && decide (value.drop 7 = expected)
  | none => false

def issuedAtWithinSkew (p : Platform) (value : Text) (skewMs : ℕ) (now : Int) : Bool :=
  match p.instant value with
  | some time => decide (|now - time| ≤ skewMs)
  | none => false

def refusal (statusCode : ℕ) (code : String) : Except Response Unit := .error ⟨statusCode, failedReceipt code⟩

def verifyToken (options : HandlerOptions) (request : HttpRequest) : Except Response Unit :=
  match nonEmpty options.tokenEnv with
  | none => .ok ()
  | some name => match nonEmpty (options.env name) with
    | none => refusal 500 "HANDLER_TOKEN_MISSING"
    | some expected =>
      if validBearer request.authorization expected then .ok () else refusal 401 "UNAUTHORIZED"

def verifySignature (p : Platform) (options : HandlerOptions) (request : HttpRequest) (rawBody : Text) (now : Int) :
    Except Response Unit :=
  match nonEmpty options.signingSecretEnv with
  | none => .ok ()
  | some name => match nonEmpty (options.env name) with
    | none => refusal 500 "HANDLER_SIGNING_SECRET_MISSING"
    | some secret =>
      if (nonEmpty request.signature).any fun given => decide (given = p.signHandlerRequest rawBody secret) then
        if (nonEmpty request.issuedAt).any fun at' => issuedAtWithinSkew p at' (options.issuedAtSkewMs.getD 300000) now
        then .ok () else refusal 401 "INVALID_ISSUED_AT"
      else refusal 401 "INVALID_SIGNATURE"

def verifyRequestAuth (p : Platform) (options : HandlerOptions) (request : HttpRequest) (rawBody : Text) (now : Int) :
    Except Response Unit := do
  verifyToken options request
  verifySignature p options request rawBody now

def optionalText : Option Json → Bool
  | none => true
  | some (.string _) => true
  | _ => false

def requiredText : Option Json → Bool
  | some (.string t) => !t.isEmpty
  | _ => false

/-- `appHandlerRequestV1Schema` -/
def parseRequest (body : Json) : Option Properties :=
  match body with
  | .object request =>
    if optionalText (property request "protocol_version") ∧ optionalText (property request "schema_version") ∧
        requiredText (property request "proposal_id") ∧ requiredText (property request "idempotency_key") ∧
        optionalText (property request "issued_at") ∧ optionalText (property request "signature") then some request
    else none
  | _ => none

def orRefuse {α : Type} (value : Option α) (statusCode : ℕ) (code : String) : Except Response α :=
  match value with
  | some value => .ok value
  | none => .error ⟨statusCode, failedReceipt code⟩

def verifyMethod (request : HttpRequest) : Except Response Unit :=
  if (nonEmpty request.method).any fun method => decide (method ≠ ascii "POST") then refusal 405 "METHOD_NOT_ALLOWED"
  else .ok ()

/-- `handleWritebackHttpRequest` up to its transaction. -/
def acceptRequest (p : Platform) (options : HandlerOptions) (request : HttpRequest) (now : Int) : Except Response HandlerJob := do
  verifyMethod request
  let rawBody ← orRefuse request.rawBody 500 "HANDLER_EXCEPTION"
  verifyRequestAuth p options request rawBody now
  let body ← orRefuse (parseJson (if rawBody.isEmpty then ascii "\x7b\x7d" else rawBody)) 400 "BAD_JSON"
  let parsed ← orRefuse (parseRequest body) 400 "BAD_WRITEBACK_REQUEST"
  let baseJob ← orRefuse (normalizeHandlerJob parsed).toOption 400 "BAD_WRITEBACK_REQUEST"
  if supportedProtocolVersion baseJob.protocolVersion then
    if options.capabilities baseJob.action then .ok baseJob else .error ⟨400, failedReceipt "UNSUPPORTED_ACTION"⟩
  else .error ⟨400, failedReceipt "UNSUPPORTED_PROTOCOL_VERSION"⟩

/-! What is refused is answered as failed, without a mutation. -/

def Response.Refuses (response : Response) : Prop :=
  response.receipt.status = .failed ∧ response.receipt.sourceDatabaseMutated = false

/-- Every error of a computation refuses. -/
def OnlyRefuses {α : Type} (x : Except Response α) : Prop := ∀ response, x = .error response → response.Refuses

theorem onlyRefuses_ok {α : Type} (a : α) : OnlyRefuses (.ok a : Except Response α) := by
  intro response failed
  cases failed

theorem onlyRefuses_failed {α : Type} (statusCode : ℕ) (code : String) :
    OnlyRefuses (.error ⟨statusCode, failedReceipt code⟩ : Except Response α) := by
  intro response failed
  cases failed
  exact ⟨rfl, rfl⟩

theorem OnlyRefuses.bind {α β : Type} {x : Except Response α} {f : α → Except Response β} (first : OnlyRefuses x)
    (rest : ∀ a, OnlyRefuses (f a)) : OnlyRefuses (x >>= f) := by
  intro response failed
  cases found : x with
  | error e =>
    rw [found] at failed
    cases failed
    exact first _ found
  | ok a =>
    rw [found] at failed
    exact rest a response failed

theorem onlyRefuses_ite {α : Type} (c : Prop) {decision : Decidable c} {x y : Except Response α} (yes : OnlyRefuses x)
    (no : OnlyRefuses y) : OnlyRefuses (if c then x else y) := by
  by_cases holds : c
  · rw [if_pos holds]
    exact yes
  · rw [if_neg holds]
    exact no

theorem onlyRefuses_orRefuse {α : Type} (value : Option α) (statusCode : ℕ) (code : String) :
    OnlyRefuses (orRefuse value statusCode code) := by
  cases value with
  | none => exact onlyRefuses_failed statusCode code
  | some a => exact onlyRefuses_ok a

theorem onlyRefuses_verifyToken (options : HandlerOptions) (request : HttpRequest) :
    OnlyRefuses (verifyToken options request) := by
  unfold verifyToken
  cases nonEmpty options.tokenEnv with
  | none => exact onlyRefuses_ok ()
  | some name =>
    simp only
    cases nonEmpty (options.env name) with
    | none => exact onlyRefuses_failed _ _
    | some expected => exact onlyRefuses_ite _ (onlyRefuses_ok ()) (onlyRefuses_failed _ _)

theorem onlyRefuses_verifySignature (p : Platform) (options : HandlerOptions) (request : HttpRequest) (rawBody : Text)
    (now : Int) : OnlyRefuses (verifySignature p options request rawBody now) := by
  unfold verifySignature
  cases nonEmpty options.signingSecretEnv with
  | none => exact onlyRefuses_ok ()
  | some name =>
    simp only
    cases nonEmpty (options.env name) with
    | none => exact onlyRefuses_failed _ _
    | some secret =>
      refine onlyRefuses_ite _ (onlyRefuses_ite _ (onlyRefuses_ok ()) ?_) ?_
      · exact onlyRefuses_failed _ _
      · exact onlyRefuses_failed _ _

/-- A request that is not admitted is answered as failed and without a mutation. -/
theorem acceptRequest_refuses (p : Platform) (options : HandlerOptions) (request : HttpRequest) (now : Int) :
    OnlyRefuses (acceptRequest p options request now) := by
  unfold acceptRequest
  refine OnlyRefuses.bind (onlyRefuses_ite _ (onlyRefuses_failed _ _) (onlyRefuses_ok ())) fun _ => ?_
  refine OnlyRefuses.bind (onlyRefuses_orRefuse _ _ _) fun rawBody => ?_
  refine OnlyRefuses.bind (OnlyRefuses.bind (onlyRefuses_verifyToken options request)
    fun _ => onlyRefuses_verifySignature p options request rawBody now) fun _ => ?_
  refine OnlyRefuses.bind (onlyRefuses_orRefuse _ _ _) fun body => ?_
  refine OnlyRefuses.bind (onlyRefuses_orRefuse _ _ _) fun parsed => ?_
  refine OnlyRefuses.bind (onlyRefuses_orRefuse _ _ _) fun job => ?_
  refine onlyRefuses_ite _ (onlyRefuses_ite _ (onlyRefuses_ok job) ?_) ?_
  · exact onlyRefuses_failed _ _
  · exact onlyRefuses_failed _ _

end SynapsorRunner.HandlerRequests
