import SynapsorRunner.HandlerRequests
import SynapsorRunner.ReceiptTables
import SynapsorRunner.TransactionRows

/-!
The Runner's side of app-owned writeback: calls of a HTTP or a command handler for one
proposal, with the work of the queue between them. A call that finds a receipt of an effect
answers from it; any other one marks the proposal as pending, records its job, asks the
handler, and records a receipt of what came back.

No outcome is false (`outcomes_true`) in the runs where no dry run is answered as if it had an
effect, no call that reached its handler is cut off, an answer that reports an effect can be
read to its end, and the runner has a name.
-/
namespace SynapsorRunner.HandlerCalls
open SynapsorRunner.Doubles SynapsorRunner.NumberText SynapsorRunner.JsonText
open SynapsorRunner.Protocol SynapsorRunner.Proposals SynapsorRunner.ProposalStore SynapsorRunner.Runs
open SynapsorRunner.ExplorePlans (Properties property isSpace)
open SynapsorRunner.HandlerRequests (stringOf present isScalar)

/-- What the calls take from their platform: the string with given units, the text of a time,
    the hash of a receipt, and the parts of a command. -/
structure HandlerRuntime extends StoreRuntime where
  string : Text → String
  isoText : Nat → String
  isoText_nonEmpty : ∀ now, nonEmpty (isoText now) = true
  hashReceipt : LegacyReceipt → Digest
  splitCommand : String → List String
  hasSecretMaterial : StoredProposal → Bool

/-! ### Receipts -/

/-- `writeback_job_id` and `idempotency_key` of a request. -/
structure HandlerRequest where
  writebackJobId : String
  idempotencyKey : String

/-- What the code units of a character leave in the id of a job. -/
def jobIdPart (c : Char) : List Char :=
  if c.isAlphanum ∨ c ∈ ['_', ':', '-'] then [c] else if c.val < 0x10000 then ['_'] else ['_', '_']

def handlerRequest (proposal : StoredProposal) (workerAttempt : Nat) : HandlerRequest where
  writebackJobId := "hwb_" ++ (String.ofList (proposal.proposalId.toList.flatMap jobIdPart) ++
    if 1 < workerAttempt then "_a" ++ toString workerAttempt else "")
  idempotencyKey := proposal.proposalId ++ (":" ++ proposal.objectId)

/-- `handlerReceiptStatuses`, and what else a status counts as. -/
def handlerStatus (rawStatus : Text) : WritebackStatus :=
  if rawStatus = ascii "applied" then .applied
  else if rawStatus = ascii "already_applied" then .alreadyApplied
  else if rawStatus = ascii "conflict" then .conflict
  else .failed

/-- A count of rows that `Number.isInteger` accepts and that is not negative. -/
def wholeRows : Option Json → Option Nat
  | some (.number (.finite negative m)) =>
    if m.value.den = 1 ∧ (negative = false ∨ m.value = 0) then some m.value.num.toNat else none
  | _ => none

/-- A number as JSON keeps it. -/
def scalarNumber : Number → Scalar
  | .finite negative m => .num (if negative then -m.value else m.value)
  | _ => .null

/-- `scalarOrUndefined`, which throws where a value has no text. -/
def scalarOrUndefined (rt : HandlerRuntime) : Option Json → Option (Option Scalar)
  | none => some none
  | some .null => some (some .null)
  | some (.bool value) => some (some (.bool value))
  | some (.number value) => some (some (scalarNumber value))
  | some (.string value) => some (some (.str (rt.string value)))
  | some value => (stringOf value).map fun t => some (.str (rt.string t))

def buildHandlerReceipt (rt : HandlerRuntime) (request : HandlerRequest) (proposalId runnerId : String)
    (status : WritebackStatus) (rowsAffected : Nat) (previousVersion newVersion : Option Scalar)
    (sourceDatabaseMutated : Bool) (safeErrorCode : Option String) (now : Nat) : ExecutionReceipt :=
  let core : LegacyReceipt :=
    { writebackJobId := request.writebackJobId, proposalId, runnerId, status, rowsAffected
      idempotencyKey := request.idempotencyKey, sourceDatabaseMutated, executedAt := rt.isoText now, safeErrorCode
      receiptHash := ⟨""⟩, reconciliation := none, previousVersion, newVersion }
  .v1 { core with receiptHash := rt.hashReceipt core }

def failedHandlerReceipt (rt : HandlerRuntime) (request : HandlerRequest) (proposalId runnerId safeErrorCode : String)
    (now : Nat) : ExecutionReceipt :=
  buildHandlerReceipt rt request proposalId runnerId .failed 0 none none false (some safeErrorCode) now

def bodyProperties : Json → Properties
  | .object properties => properties
  | _ => []

/-- The status of a body, which throws where it has no text. -/
def bodyStatus (body : Json) : Option WritebackStatus :=
  match present (property (bodyProperties body) "status") with
  | none => some .failed
  | some value => (stringOf value).map handlerStatus

def bodyErrorCode (rt : HandlerRuntime) (body : Json) (status : WritebackStatus) : Option String :=
  match property (bodyProperties body) "safe_error_code" with
  | some (.string code) => some (rt.string code)
  | _ => if status = .failed then some "HANDLER_FAILED" else none

def reportedRows (body : Json) (status : WritebackStatus) (dryRun : Bool) : Nat :=
  (wholeRows (property (bodyProperties body) "rows_affected")).getD (if status = .applied ∧ dryRun = false then 1 else 0)

/-- `body.source_database_mutated !== false` -/
def notDenied : Option Json → Bool
  | some (.bool false) => false
  | _ => true

def reportedMutation (body : Json) (status : WritebackStatus) (dryRun : Bool) : Bool :=
  if dryRun = false ∧ (status = .applied ∨ status = .alreadyApplied) then
    notDenied (property (bodyProperties body) "source_database_mutated")
  else false

/-- `handlerReceiptFromBody`, unless it throws. -/
def handlerReceiptFromBody (rt : HandlerRuntime) (request : HandlerRequest) (proposalId runnerId : String) (body : Json)
    (dryRun : Bool) (now : Nat) : Option ExecutionReceipt := do
  let status ← bodyStatus body
  let previousVersion ← scalarOrUndefined rt (property (bodyProperties body) "previous_version")
  let newVersion ← scalarOrUndefined rt (property (bodyProperties body) "new_version")
  pure (buildHandlerReceipt rt request proposalId runnerId status (reportedRows body status dryRun) previousVersion
    newVersion (reportedMutation body status dryRun) (bodyErrorCode rt body status) now)

def failedBody (code : String) : Json :=
  .object [(ascii "status", .string (ascii "failed")), (ascii "safe_error_code", .string (ascii code))]

def parseOptionalJson (text : Text) : Json :=
  if text.all isSpace then .object []
  else match parseJson text with
    | some value => value
    | none => failedBody "HANDLER_INVALID_JSON"

/-- `alreadyAppliedReceipt`; only receipts of the first version are asked for. -/
def alreadyAppliedReceipt (rt : HandlerRuntime) (receipt : LegacyReceipt) (runnerId : String) (now : Nat) :
    ExecutionReceipt :=
  if receipt.status = .applied ∨ receipt.status = .alreadyApplied then
    let again : LegacyReceipt :=
      { receipt with
        runnerId, status := .alreadyApplied, rowsAffected := 0, sourceDatabaseMutated := false
        executedAt := rt.isoText now, safeErrorCode := none }
    .v1 { again with receiptHash := rt.hashReceipt again }
  else .v1 receipt

/-! Every receipt that is built is one that the schema accepts. -/

def Accepted (rt : HandlerRuntime) (receipt : ExecutionReceipt) : Prop :=
  parseExecutionReceipt rt.platform receipt = .ok receipt

theorem nonEmpty_append_left {s t : String} (some' : nonEmpty s = true) : nonEmpty (s ++ t) = true := by
  simp only [nonEmpty, bne_iff_ne, ne_eq] at some' ⊢
  intro empty
  exact some' (String.append_eq_empty_iff.mp empty).1

theorem accepted_legacy (rt : HandlerRuntime) {receipt : LegacyReceipt}
    (fields : receiptHeaderFields receipt.toReceiptHeader = true) (status : receipt.status ≠ .reconciliationRequired) :
    Accepted rt (.v1 receipt) := by
  refine accept_ok_iff.mpr ⟨fields, ?_, rfl⟩
  simp [reconciliationMetadataIssues, issueIf, status]

theorem nonEmpty_jobId (proposal : StoredProposal) (workerAttempt : Nat) :
    nonEmpty (handlerRequest proposal workerAttempt).writebackJobId = true :=
  nonEmpty_append_left (by decide)

theorem accepted_buildHandlerReceipt (rt : HandlerRuntime) {proposal : StoredProposal} {workerAttempt : Nat}
    {runnerId : String} {status : WritebackStatus} {rowsAffected : Nat} {previousVersion newVersion : Option Scalar}
    {mutated : Bool} {safeErrorCode : Option String} {now : Nat} (known : nonEmpty proposal.proposalId = true)
    (named : nonEmpty runnerId = true) (terminal : status ≠ .reconciliationRequired) :
    Accepted rt (buildHandlerReceipt rt (handlerRequest proposal workerAttempt) proposal.proposalId runnerId status
      rowsAffected previousVersion newVersion mutated safeErrorCode now) := by
  have key : nonEmpty (handlerRequest proposal workerAttempt).idempotencyKey = true := nonEmpty_append_left known
  refine accepted_legacy rt ?_ terminal
  simp [receiptHeaderFields, nonEmpty_jobId, known, named, key, rt.isoText_nonEmpty]

theorem handlerStatus_ne (rawStatus : Text) : handlerStatus rawStatus ≠ .reconciliationRequired := by
  unfold handlerStatus
  split_ifs <;> simp

theorem bodyStatus_ne {body : Json} {status : WritebackStatus} (is : bodyStatus body = some status) :
    status ≠ .reconciliationRequired := by
  unfold bodyStatus at is
  cases given : present (property (bodyProperties body) "status") with
  | none =>
    rw [given] at is
    cases is
    simp
  | some value =>
    rw [given] at is
    obtain ⟨t, -, rfl⟩ := Option.map_eq_some_iff.mp is
    exact handlerStatus_ne t

theorem accepted_alreadyApplied (rt : HandlerRuntime) {receipt : LegacyReceipt} {runnerId : String} {now : Nat}
    (stored : Accepted rt (.v1 receipt)) (named : nonEmpty runnerId = true) :
    Accepted rt (alreadyAppliedReceipt rt receipt runnerId now) := by
  unfold alreadyAppliedReceipt
  split_ifs
  · obtain ⟨fields, -, -⟩ := accept_ok_iff.mp stored
    simp only [receiptHeaderFields, Bool.and_eq_true] at fields
    obtain ⟨⟨⟨⟨⟨job, proposal⟩, -⟩, key⟩, -⟩, reconciliation⟩ := fields
    refine accepted_legacy rt ?_ (by simp)
    simp [receiptHeaderFields, job, proposal, key, named, rt.isoText_nonEmpty, reconciliation]
  · exact stored

/-! ### What comes back -/

inductive HttpExchange where
  | answered (statusCode : Nat) (text : Text)
  /-- The request is aborted or its connection breaks, after it reached the handler or before. -/
  | cutOff (timedOut reached : Bool)

inductive CommandExchange where
  | timedOut
  | broken (reached : Bool)
  | exited (code : Option Nat) (stdout : Text)

/-- `response.ok` -/
def okStatus (statusCode : Nat) : Bool := decide (200 ≤ statusCode ∧ statusCode ≤ 299)

/-- A body that reports an effect. -/
def bodyReports (body : Json) : Bool :=
  decide (bodyStatus body = some .applied ∨ bodyStatus body = some .alreadyApplied)

/-- The versions of a body can be read. -/
def readableVersions (body : Json) : Bool :=
  ((property (bodyProperties body) "previous_version").all fun value => (stringOf value).isSome) &&
    (property (bodyProperties body) "new_version").all fun value => (stringOf value).isSome

namespace HttpExchange

def reports : HttpExchange → Bool
  | answered statusCode text => okStatus statusCode && bodyReports (parseOptionalJson text)
  | cutOff _ _ => false

def lost : HttpExchange → Bool
  | answered _ _ => false
  | cutOff _ reached => reached

def readable : HttpExchange → Bool
  | answered _ text => readableVersions (parseOptionalJson text)
  | cutOff _ _ => true

def receipt (rt : HandlerRuntime) (request : HandlerRequest) (proposalId runnerId : String) (dryRun : Bool) (now : Nat) :
    HttpExchange → ExecutionReceipt
  | answered statusCode text =>
    if okStatus statusCode then
      (handlerReceiptFromBody rt request proposalId runnerId (parseOptionalJson text) dryRun now).getD
        (failedHandlerReceipt rt request proposalId runnerId "HANDLER_REQUEST_FAILED" now)
    else failedHandlerReceipt rt request proposalId runnerId ("HANDLER_HTTP_" ++ toString statusCode) now
  | cutOff timedOut _ =>
    failedHandlerReceipt rt request proposalId runnerId
      (if timedOut then "HANDLER_TIMEOUT" else "HANDLER_REQUEST_FAILED") now

end HttpExchange

namespace CommandExchange

/-- What `runCommandHandler` resolves to. -/
def body : CommandExchange → Json
  | timedOut => failedBody "HANDLER_TIMEOUT"
  | broken _ => failedBody "HANDLER_REQUEST_FAILED"
  | exited (some 0) stdout => parseOptionalJson stdout
  | exited (some code) _ => failedBody ("HANDLER_EXIT_" ++ toString code)
  | exited none _ => failedBody "HANDLER_EXIT_UNKNOWN"

def lost : CommandExchange → Bool
  | timedOut => true
  | broken reached => reached
  | exited _ _ => false

end CommandExchange

/-! ### Calls -/

inductive CallError where
  | store (error : StoreError)
  | plain (message : String)

structure HttpHandlerExecutor where
  urlEnv : String
  tokenEnv : Option String
  signingSecretEnv : Option String

structure CommandHandlerExecutor where
  commandEnv : String

structure Call where
  runnerId : String
  dryRun : Bool
  workerAttempt : Nat
  env : String → Option String
  now : Nat

/-- What a call did: whether it asked the handler, what it learnt, and the receipt it built. -/
structure CallRecord where
  dryRun : Bool
  invoked : Bool
  reported : Bool
  lost : Bool
  built : Option ExecutionReceipt

structure World where
  tables : Tables
  /-- The column `receipt_json` of `writeback_receipts`. -/
  receiptJson : List ExecutionReceipt
  calls : List CallRecord

def operate (rt : HandlerRuntime) (T : Tables) (operation : TableOperation) : Except StoreError Tables := do
  let t ← prepareTables rt.toStoreRuntime T operation
  commitTables rt.toStoreRuntime T t

/-- `INSERT OR IGNORE INTO writeback_receipts` -/
def insertJson (json : List ExecutionReceipt) (receipt : ExecutionReceipt) : List ExecutionReceipt :=
  if json.any fun r => decide (r.header.writebackJobId = receipt.header.writebackJobId ∧
      r.header.idempotencyKey = receipt.header.idempotencyKey) then json
  else json ++ [receipt]

def startsWithHwb (writebackJobId : String) : Bool := "hwb_".toList.isPrefixOf writebackJobId.toList

def isHandlerEffect (proposalId : String) (receipt : ExecutionReceipt) : Bool :=
  decide (receipt.header.proposalId = proposalId) && startsWithHwb receipt.header.writebackJobId &&
    decide (receipt.status = .applied ∨ receipt.status = .alreadyApplied)

def duplicateHandlerReceipt (json : List ExecutionReceipt) (proposalId : String) : Option LegacyReceipt :=
  match json.find? (isHandlerEffect proposalId) with
  | some (.v1 receipt) => some receipt
  | _ => none

/-- `prepareHandlerProposal`: the tables after it, and the proposal if it does not throw. -/
def prepareHandlerProposal (rt : HandlerRuntime) (T : Tables) (proposal : StoredProposal) (now : Nat) :
    Tables × Except CallError StoredProposal :=
  if proposal.state = .applied then
    (T, .error (.plain ("proposal " ++ proposal.proposalId ++ " is already applied")))
  else if proposal.state ≠ .approved ∧ proposal.state ≠ .pendingWorker then
    (T, .error (.plain ("proposal " ++ proposal.proposalId ++ " is " ++ proposal.state.text ++
      ", not approved for handler writeback")))
  else if proposal.state = .approved then
    match operate rt T (.store (.markPendingWorker proposal.proposalId proposal.proposalHash proposal.proposalVersion now)) with
    | .error e => (T, .error (.store e))
    | .ok marked => (marked, ((marked.store.requireProposal proposal.proposalId).map ProposalRow.toStoredProposal).mapError .store)
  else (T, .ok proposal)

def recordHandlerWritebackJob (rt : HandlerRuntime) (T : Tables) (proposal : StoredProposal) (request : HandlerRequest) :
    Except CallError Tables :=
  match operate rt T (.recordHandlerWritebackJob request.writebackJobId proposal.proposalId proposal.proposalHash) with
  | .error e => .error (.store e)
  | .ok recorded =>
    if rt.hasSecretMaterial proposal then .error (.plain "handler_writeback_job contains secret material") else .ok recorded

namespace World

def logged (w : World) (record : CallRecord) : World := { w with calls := w.calls ++ [record] }

/-- `recordExecutionReceipt`, which leaves the tables where it throws. -/
def recordReceipt (rt : HandlerRuntime) (w : World) (receipt : ExecutionReceipt) (now : Nat) : World :=
  match operate rt w.tables (.store (.recordExecutionReceipt receipt now)) with
  | .error _ => w
  | .ok recorded => { w with tables := recorded, receiptJson := insertJson w.receiptJson receipt }

/-- The handler is asked, and what comes back gives a receipt or throws. -/
def ask (rt : HandlerRuntime) (w : World) (call : Call) (reported lost : Bool) (built : Option ExecutionReceipt) : World :=
  match built with
  | none => w.logged ⟨call.dryRun, true, reported, lost, none⟩
  | some receipt => (w.recordReceipt rt receipt call.now).logged ⟨call.dryRun, true, reported, lost, some receipt⟩

/-- What the two kinds of calls share: how far they are configured, and what comes back of a
    request for a proposal. -/
def applyHandlerProposal (rt : HandlerRuntime) (w : World) (proposalId : String) (call : Call)
    (configured : Except CallError Unit) (reported lost : Bool)
    (built : StoredProposal → HandlerRequest → Option ExecutionReceipt) : World :=
  match w.tables.store.requireProposal proposalId with
  | .error _ => w
  | .ok row =>
    match duplicateHandlerReceipt w.receiptJson proposalId with
    | some receipt =>
      w.logged ⟨call.dryRun, false, false, false, some (alreadyAppliedReceipt rt receipt call.runnerId call.now)⟩
    | none =>
      match prepareHandlerProposal rt w.tables row.toStoredProposal call.now with
      | (T, .error _) => { w with tables := T }
      | (T, .ok proposal) =>
        let request := handlerRequest proposal call.workerAttempt
        match recordHandlerWritebackJob rt T proposal request, configured with
        | .error _, _ => { w with tables := T }
        | .ok recorded, .error _ => { w with tables := recorded }
        | .ok recorded, .ok () => ask rt { w with tables := recorded } call reported lost (built proposal request)

end World

def requireEnv (call : Call) (name : String) : Except CallError String :=
  match call.env name with
  | some value => .ok value
  | none => .error (.plain (name ++ " is not set"))

def optionalEnv (call : Call) : Option String → Except CallError Unit
  | none => .ok ()
  | some name => (requireEnv call name).map fun _ => ()

def httpConfigured (call : Call) (executor : HttpHandlerExecutor) : Except CallError Unit := do
  let _ ← requireEnv call executor.urlEnv
  optionalEnv call executor.tokenEnv
  optionalEnv call executor.signingSecretEnv

def commandConfigured (rt : HandlerRuntime) (call : Call) (executor : CommandHandlerExecutor) : Except CallError Unit := do
  let commandText ← requireEnv call executor.commandEnv
  if (rt.splitCommand commandText).head?.all fun command => decide (command = "") then
    .error (.plain (executor.commandEnv ++ " did not contain a command"))
  else .ok ()

def applyHttpHandlerProposal (rt : HandlerRuntime) (w : World) (proposalId : String) (call : Call)
    (executor : HttpHandlerExecutor) (exchange : HttpExchange) : World :=
  w.applyHandlerProposal rt proposalId call (httpConfigured call executor) exchange.reports exchange.lost
    fun proposal request => some (exchange.receipt rt request proposal.proposalId call.runnerId call.dryRun call.now)

def applyCommandHandlerProposal (rt : HandlerRuntime) (w : World) (proposalId : String) (call : Call)
    (executor : CommandHandlerExecutor) (exchange : CommandExchange) : World :=
  w.applyHandlerProposal rt proposalId call (commandConfigured rt call executor) (bodyReports exchange.body) exchange.lost
    fun proposal request =>
      handlerReceiptFromBody rt request proposal.proposalId call.runnerId exchange.body call.dryRun call.now

inductive Event where
  | http (call : Call) (executor : HttpHandlerExecutor) (exchange : HttpExchange)
  | command (call : Call) (executor : CommandHandlerExecutor) (exchange : CommandExchange)
  | queue (operation : StoreOperation)

/-- The work of the queue: enqueueing, claims, what a worker does with its lease, and the
    requeueing of a dead letter. -/
def isQueueWork : StoreOperation → Bool
  | .enqueueWorkerProposal _ | .enqueueApprovedForWorker .. | .claimWorkerItem _ | .onLease .. | .requeueDeadLetter .. => true
  | _ => false

def step (rt : HandlerRuntime) (proposalId : String) (w : World) : Event → World
  | .http call executor exchange => applyHttpHandlerProposal rt w proposalId call executor exchange
  | .command call executor exchange => applyCommandHandlerProposal rt w proposalId call executor exchange
  | .queue operation =>
    if isQueueWork operation then
      match operate rt w.tables (.store operation) with
      | .ok T => { w with tables := T }
      | .error _ => w
    else w

/-! ### What is asked of a run -/

/-- A call whose answer reported an effect of a request that was no dry run. -/
def CallRecord.effective (c : CallRecord) : Prop := c.dryRun = false ∧ c.reported = true

/-- No call of a run recorded a false outcome. -/
structure Truthful (rt : HandlerRuntime) (proposalId : String) (w : World) : Prop where
  accepted : ∀ c ∈ w.calls, ∀ receipt, c.built = some receipt → Accepted rt receipt
  applied : ∀ row, w.tables.store.getProposal proposalId = some row → row.state = .applied → ∃ c ∈ w.calls, c.effective
  lost : ∀ c ∈ w.calls, c.lost = true → ∀ receipt, c.built = some receipt →
    ¬ (receipt.status = .failed ∧ receipt.header.sourceDatabaseMutated = false)
  once : w.calls.Pairwise fun c d => c.effective → d.invoked = false

/-- What comes back of a call is none of the four kinds that go wrong. -/
def Clean (call : Call) (reported lost readable : Bool) : Prop :=
  nonEmpty call.runnerId = true ∧ lost = false ∧ (reported = true → call.dryRun = false ∧ readable = true)

def Safe : Event → Prop
  | .http call _ exchange => Clean call exchange.reports exchange.lost exchange.readable
  | .command call _ exchange => Clean call (bodyReports exchange.body) exchange.lost (readableVersions exchange.body)
  | .queue _ => True

/-- A proposal with an id, without an effect and without a receipt. -/
structure Unasked (rt : HandlerRuntime) (proposalId : String) (w : World) : Prop where
  row : ∃ row, w.tables.store.getProposal proposalId = some row ∧ row.proposalId = proposalId ∧ row.state ≠ .applied
  known : nonEmpty proposalId = true
  json : ∀ receipt ∈ w.receiptJson, Accepted rt receipt
  calls : w.calls = []

/-! ### What is built -/

/-- What comes back of a request, against what it reports. -/
structure Sound (rt : HandlerRuntime) (proposalId : String) (reported : Bool) (built : Option ExecutionReceipt) : Prop where
  accepted : ∀ r, built = some r → Accepted rt r ∧ r.header.proposalId = proposalId
  tells : reported = true → ∃ r, built = some r ∧ (r.status = .applied ∨ r.status = .alreadyApplied)
  quiet : reported = false → ∀ r, built = some r → r.status ≠ .applied ∧ r.status ≠ .alreadyApplied

theorem handlerReceiptFromBody_some {rt : HandlerRuntime} {request : HandlerRequest} {proposalId runnerId : String}
    {body : Json} {dryRun : Bool} {now : Nat} {receipt : ExecutionReceipt}
    (built : handlerReceiptFromBody rt request proposalId runnerId body dryRun now = some receipt) :
    ∃ status previousVersion newVersion, bodyStatus body = some status ∧
      receipt = buildHandlerReceipt rt request proposalId runnerId status (reportedRows body status dryRun)
        previousVersion newVersion (reportedMutation body status dryRun) (bodyErrorCode rt body status) now := by
  simp only [handlerReceiptFromBody, Option.bind_eq_bind, Option.bind_eq_some_iff, Option.pure_def,
    Option.some.injEq] at built
  obtain ⟨status, is, previousVersion, -, newVersion, -, same⟩ := built
  exact ⟨status, previousVersion, newVersion, is, same.symm⟩

theorem scalarOrUndefined_isSome (rt : HandlerRuntime) {value : Option Json}
    (readable : (value.all fun value => (stringOf value).isSome) = true) : (scalarOrUndefined rt value).isSome = true := by
  cases value with
  | none => rfl
  | some value =>
    cases value with
    | array items | object properties => simpa [scalarOrUndefined] using readable
    | null | bool _ | number _ | string _ => rfl

theorem handlerReceiptFromBody_isSome (rt : HandlerRuntime) (request : HandlerRequest) (proposalId runnerId : String)
    {body : Json} (dryRun : Bool) (now : Nat) {status : WritebackStatus} (is : bodyStatus body = some status)
    (readable : readableVersions body = true) :
    ∃ receipt, handlerReceiptFromBody rt request proposalId runnerId body dryRun now = some receipt := by
  obtain ⟨first, second⟩ := Bool.and_eq_true_iff.mp readable
  obtain ⟨previousVersion, one⟩ := Option.isSome_iff_exists.mp (scalarOrUndefined_isSome rt first)
  obtain ⟨newVersion, two⟩ := Option.isSome_iff_exists.mp (scalarOrUndefined_isSome rt second)
  exact ⟨_, by simp only [handlerReceiptFromBody, is, one, two, Option.bind_eq_bind, Option.bind_some]; rfl⟩

section Built
variable (rt : HandlerRuntime) {proposal : StoredProposal} {runnerId : String} (workerAttempt : Nat)
  (known : nonEmpty proposal.proposalId = true) (named : nonEmpty runnerId = true)

include known named

/-- A body that can be read as far as it reports an effect gives a receipt that says so. -/
theorem sound_body {body : Json} (dryRun : Bool) (now : Nat)
    (readable : bodyReports body = true → readableVersions body = true) :
    Sound rt proposal.proposalId (bodyReports body)
      (handlerReceiptFromBody rt (handlerRequest proposal workerAttempt) proposal.proposalId runnerId body dryRun now) := by
  refine ⟨fun r built => ?_, fun reported => ?_, fun silent r built => ?_⟩
  · obtain ⟨status, previousVersion, newVersion, is, rfl⟩ := handlerReceiptFromBody_some built
    exact ⟨accepted_buildHandlerReceipt rt known named (bodyStatus_ne is), rfl⟩
  · have status := of_decide_eq_true reported
    rcases status with is | is
    · obtain ⟨receipt, built⟩ := handlerReceiptFromBody_isSome rt (handlerRequest proposal workerAttempt)
        proposal.proposalId runnerId dryRun now is (readable reported)
      obtain ⟨status, _, _, same, rfl⟩ := handlerReceiptFromBody_some built
      rw [is] at same
      exact ⟨_, built, .inl (Option.some.inj same).symm⟩
    · obtain ⟨receipt, built⟩ := handlerReceiptFromBody_isSome rt (handlerRequest proposal workerAttempt)
        proposal.proposalId runnerId dryRun now is (readable reported)
      obtain ⟨status, _, _, same, rfl⟩ := handlerReceiptFromBody_some built
      rw [is] at same
      exact ⟨_, built, .inr (Option.some.inj same).symm⟩
  · obtain ⟨status, previousVersion, newVersion, is, rfl⟩ := handlerReceiptFromBody_some built
    have neither := of_decide_eq_false silent
    rw [is] at neither
    push Not at neither
    exact ⟨fun same => neither.1 (congrArg some same), fun same => neither.2 (congrArg some same)⟩

theorem sound_failed {code : String} {now : Nat} :
    Sound rt proposal.proposalId false
      (some (failedHandlerReceipt rt (handlerRequest proposal workerAttempt) proposal.proposalId runnerId code now)) := by
  refine ⟨fun r built => ?_, fun reported => (by cases reported), fun _ r built => ?_⟩
  · cases built
    exact ⟨accepted_buildHandlerReceipt rt known named (by simp), rfl⟩
  · cases built
    exact ⟨by simp [failedHandlerReceipt, buildHandlerReceipt, ExecutionReceipt.status, ExecutionReceipt.header],
      by simp [failedHandlerReceipt, buildHandlerReceipt, ExecutionReceipt.status, ExecutionReceipt.header]⟩

theorem sound_http {exchange : HttpExchange} {dryRun : Bool} {now : Nat}
    (readable : exchange.reports = true → exchange.readable = true) :
    Sound rt proposal.proposalId exchange.reports
      (some (exchange.receipt rt (handlerRequest proposal workerAttempt) proposal.proposalId runnerId dryRun now)) := by
  cases exchange with
  | cutOff timedOut reached => exact sound_failed rt workerAttempt known named
  | answered statusCode text =>
    simp only [HttpExchange.receipt, HttpExchange.reports, HttpExchange.readable] at readable ⊢
    cases ok : okStatus statusCode with
    | false =>
      simp only [Bool.false_and, Bool.false_eq_true, if_false]
      exact sound_failed rt workerAttempt known named
    | true =>
      simp only [ok, Bool.true_and, if_true] at readable ⊢
      have body := sound_body rt workerAttempt known named dryRun now readable
      cases built : handlerReceiptFromBody rt (handlerRequest proposal workerAttempt) proposal.proposalId runnerId
          (parseOptionalJson text) dryRun now with
      | some receipt =>
        rw [built] at body
        exact body
      | none =>
        have silent : bodyReports (parseOptionalJson text) = false := by
          by_contra reported
          obtain ⟨r, some', -⟩ := body.tells (by simpa using reported)
          rw [built] at some'
          cases some'
        rw [silent]
        exact sound_failed rt workerAttempt known named

end Built

/-! ### The proposal in the tables -/

/-- The row of a proposal under its id. -/
def Kept (T : Tables) (id : String) (row : ProposalRow) : Prop :=
  T.store.getProposal id = some row ∧ row.proposalId = id

theorem Tables.after_store (T : Tables) (t : Transaction) (store : Store) : (T.after t store).store = store := by
  unfold Tables.after
  cases t.records T.store <;> rfl

/-- An operation of the store is its reads and its transaction. -/
theorem operate_store {rt : HandlerRuntime} {T T' : Tables} {operation : StoreOperation}
    (noJob : ∀ id attempt now, operation ≠ .createWritebackJob id attempt now)
    (done : operate rt T (.store operation) = .ok T') :
    ∃ t, prepare rt.toStoreRuntime T.store operation = .ok t ∧ commit rt.toStoreRuntime T.store t = .ok T'.store := by
  obtain ⟨t, prepared, committed⟩ := bind_eq_ok done
  have reads : prepareTables rt.toStoreRuntime T (.store operation) =
      (prepare rt.toStoreRuntime T.store operation).map .store := by
    cases operation with
    | createWritebackJob id attempt now => exact absurd rfl (noJob id attempt now)
    | _ => rfl
  rw [reads] at prepared
  cases read : prepare rt.toStoreRuntime T.store operation with
  | error e =>
    rw [read] at prepared
    cases prepared
  | ok transaction =>
    rw [read] at prepared
    cases prepared
    refine ⟨transaction, rfl, ?_⟩
    simp only [commitTables] at committed
    cases stored : commit rt.toStoreRuntime T.store transaction with
    | error e =>
      rw [stored] at committed
      cases committed
    | ok store =>
      rw [stored] at committed
      cases committed
      rw [Tables.after_store]

/-- A transaction that applies nothing leaves the row of a proposal, which it does not apply. -/
theorem kept_of_commit {rt : HandlerRuntime} {s s' : Store} {t : Transaction} {id : String} {row : ProposalRow}
    (committed : commit rt.toStoreRuntime s t = .ok s') (none' : applications t = [])
    (found : s.getProposal id = some row) :
    ∃ row', s'.getProposal id = some row' ∧ row'.proposalId = row.proposalId ∧ (row'.state = .applied → row.state = .applied) := by
  obtain ⟨row', found', rewritten⟩ := (rowsStep committed).after found
  refine ⟨row', found', rewritten.content.1, fun applied => ?_⟩
  cases rewritten with
  | kept same => rw [← same]; exact applied
  | moved state mutated now at' is left effect =>
    have state : state = .applied := by simpa [is] using applied
    have member := effect state
    rw [none'] at member
    exact absurd member List.not_mem_nil

/-- The work of the queue applies nothing. -/
theorem applications_of_queueWork {rt : HandlerRuntime} {s : Store} {operation : StoreOperation} {t : Transaction}
    (work : isQueueWork operation = true) (prepared : prepare rt.toStoreRuntime s operation = .ok t) :
    applications t = [] := by
  cases operation with
  | enqueueWorkerProposal input =>
    obtain ⟨_, -, rest⟩ := bind_eq_ok prepared
    cases rest
    rfl
  | requeueDeadLetter input retryBudget =>
    obtain ⟨_, -, rest⟩ := bind_eq_ok prepared
    cases rest
    rfl
  | enqueueApprovedForWorker | claimWorkerItem | onLease =>
    cases prepared
    rfl
  | _ => cases work

/-- The work of the queue writes no state over an applied one: a dead letter is requeued by the
    state that was read. -/
theorem blindWrite_of_queueWork {rt : HandlerRuntime} {s : Store} {operation : StoreOperation} {t : Transaction}
    {id : String} {row : ProposalRow} (work : isQueueWork operation = true)
    (prepared : prepare rt.toStoreRuntime s operation = .ok t) (found : s.getProposal id = some row)
    (applied : row.state = .applied) : ∀ written state, t.blindWrite s = some (written, state) → written ≠ id := by
  cases operation with
  | enqueueWorkerProposal input =>
    obtain ⟨_, -, rest⟩ := bind_eq_ok prepared
    cases rest
    intro written state blind
    cases blind
  | requeueDeadLetter input retryBudget =>
    obtain ⟨read, reads, rest⟩ := bind_eq_ok prepared
    cases rest
    intro written state blind same
    obtain ⟨proposal, required, later⟩ := bind_eq_ok reads
    obtain ⟨_, -, last⟩ := bind_eq_ok later
    cases last
    rw [Transaction.blindWrite] at blind
    split_ifs at blind with goes
    obtain ⟨is, -⟩ := Prod.mk.inj (Option.some.inj blind)
    rw [← is] at same
    have stored := Store.requireProposal_ok_iff.mp required
    rw [same, found] at stored
    have is' : proposal.state = .applied := by rw [← Option.some.inj stored]; exact applied
    rw [is'] at goes
    cases goes.1
  | enqueueApprovedForWorker | claimWorkerItem | onLease =>
    cases prepared
    intro written state blind
    cases blind
  | _ => cases work

theorem queueWork_kept {rt : HandlerRuntime} {T T' : Tables} {operation : StoreOperation} {id : String}
    {row : ProposalRow}
    (work : isQueueWork operation = true) (done : operate rt T (.store operation) = .ok T') (kept : Kept T id row) :
    ∃ row', Kept T' id row' ∧ (row'.state = .applied ↔ row.state = .applied) := by
  obtain ⟨t, prepared, committed⟩ := operate_store (fun _ _ _ is => by rw [is] at work; cases work) done
  obtain ⟨row', found', own, only⟩ := kept_of_commit committed (applications_of_queueWork work prepared) kept.1
  refine ⟨row', ⟨found', own.trans kept.2⟩, only, fun applied => ?_⟩
  have before : T.store.reviewed id = some row.reviewed := by rw [Store.reviewed, kept.1, Option.map_some]
  have closed : terminal row.reviewed.state = true := by
    have is : row.reviewed.state = .applied := applied
    rw [is]
    rfl
  have after' := (commit_step committed).terminal_after before closed
  have stays : row.reviewed.afterBlind id (t.blindWrite T.store) = row.reviewed := by
    cases blind : t.blindWrite T.store with
    | none => rfl
    | some write =>
      have apart := blindWrite_of_queueWork work prepared kept.1 applied write.1 write.2 blind
      simp only [Reviewed.afterBlind, if_neg (fun same : id = write.1 => apart same.symm)]
  rw [stays, Store.reviewed, found', Option.map_some, Option.some.injEq] at after'
  have states : row'.reviewed.state = row.reviewed.state := by rw [after']
  exact states.trans applied

theorem markPendingWorker_kept {rt : HandlerRuntime} {T T' : Tables} {id hash : String} {version now : Nat}
    {row : ProposalRow} (done : operate rt T (.store (.markPendingWorker id hash version now)) = .ok T')
    (kept : Kept T id row) (open' : row.state ≠ .applied) : ∃ row', Kept T' id row' ∧ row'.state ≠ .applied := by
  obtain ⟨t, prepared, committed⟩ := operate_store (by simp) done
  obtain ⟨_, -, rest⟩ := bind_eq_ok prepared
  cases rest
  obtain ⟨row', found', own, only⟩ := kept_of_commit committed rfl kept.1
  exact ⟨row', ⟨found', own.trans kept.2⟩, fun applied => open' (only applied)⟩

/-- A recorded job leaves the store, and its proposal may be written back. -/
theorem recordHandlerWritebackJob_ok {rt : HandlerRuntime} {T T' : Tables} {proposal : StoredProposal}
    {request : HandlerRequest} {row : ProposalRow} (kept : Kept T proposal.proposalId row)
    (done : recordHandlerWritebackJob rt T proposal request = .ok T') :
    T'.store = T.store ∧ WritebackAllowed row.toStoredProposal := by
  unfold recordHandlerWritebackJob at done
  cases recorded : operate rt T (.recordHandlerWritebackJob request.writebackJobId proposal.proposalId
      proposal.proposalHash) with
  | error e =>
    rw [recorded] at done
    cases done
  | ok U =>
    rw [recorded] at done
    simp only at done
    split_ifs at done
    cases done
    obtain ⟨t, prepared, committed⟩ := bind_eq_ok recorded
    obtain ⟨stored, required, later⟩ := bind_eq_ok prepared
    obtain ⟨_, allowed, later⟩ := bind_eq_ok later
    obtain ⟨_, -, last⟩ := bind_eq_ok later
    cases last
    cases committed
    have same := Store.requireProposal_ok_iff.mp required
    rw [kept.1] at same
    refine ⟨rfl, ?_⟩
    rw [Option.some.inj same]
    exact (assertWritebackAllowed_ok_iff _).mp allowed

/-- An accepted receipt of a proposal that may be written back is recorded, and its status is
    the state of the proposal. -/
theorem recordExecutionReceipt_ok {rt : HandlerRuntime} {T : Tables} {receipt : ExecutionReceipt} (now : Nat)
    {id : String} {row : ProposalRow} (kept : Kept T id row) (allowed : WritebackAllowed row.toStoredProposal)
    (accepted : Accepted rt receipt) (own : receipt.header.proposalId = id) :
    ∃ T', operate rt T (.store (.recordExecutionReceipt receipt now)) = .ok T' ∧
      ∃ row', Kept T' id row' ∧ row'.state = stateFromReceipt receipt.status := by
  have required : T.store.requireProposal receipt.header.proposalId = .ok row := by
    rw [own]
    exact Store.requireProposal_ok_iff.mpr kept.1
  have open' : assertWritebackAllowed row.toStoredProposal "recorded with an execution receipt" = .ok () :=
    (assertWritebackAllowed_ok_iff _).mpr allowed
  have read : prepareReceipt rt.toStoreRuntime T.store receipt = .ok (receipt, row.sourceDatabaseMutated) := by
    simp only [prepareReceipt]
    rw [Accepted] at accepted
    simp only [accepted, required, open', Except.mapError, bind, Except.bind, pure, Except.pure]
  refine ⟨T.after (.receipt receipt.header row.sourceDatabaseMutated now)
    (recordExecutionReceiptRows T.store receipt.header row.sourceDatabaseMutated now), ?_, ?_⟩
  · simp only [operate, prepareTables, prepare, read, commitTables, commit, Except.map, bind, Except.bind, pure, Except.pure]
  · refine ⟨{ row with state := stateFromReceipt receipt.header.status
                       sourceDatabaseMutated := receipt.header.sourceDatabaseMutated || row.sourceDatabaseMutated
                       updatedAt := now }, ⟨?_, kept.2⟩, rfl⟩
    rw [Tables.after_store, recordExecutionReceiptRows, Store.getProposal_updateProposal, if_pos own.symm]
    have found := kept.1
    simp only [Store.getProposal, own] at found ⊢
    rw [found]
    rfl

/-! ### The invariant -/

structure Inv (rt : HandlerRuntime) (id : String) (w : World) : Prop where
  known : nonEmpty id = true
  kept : ∃ row, Kept w.tables id row ∧ (row.state = .applied ↔ ∃ c ∈ w.calls, c.effective)
  json : ∀ receipt ∈ w.receiptJson, Accepted rt receipt
  accepted : ∀ c ∈ w.calls, ∀ receipt, c.built = some receipt → Accepted rt receipt
  reached : ∀ c ∈ w.calls, c.lost = false
  once : w.calls.Pairwise fun c d => c.effective → d.invoked = false

theorem Inv.truthful {rt : HandlerRuntime} {id : String} {w : World} (inv : Inv rt id w) : Truthful rt id w where
  accepted := inv.accepted
  applied := fun row found applied => by
    obtain ⟨stored, kept, iff⟩ := inv.kept
    have same : row = stored := Option.some.inj (found.symm.trans kept.1)
    rw [same] at applied
    exact iff.mp applied
  lost := fun c member lost => by
    rw [inv.reached c member] at lost
    cases lost
  once := inv.once

theorem Inv.unasked {rt : HandlerRuntime} {id : String} {w : World} (start : Unasked rt id w) : Inv rt id w := by
  obtain ⟨row, found, own, open'⟩ := start.row
  have none' : ∀ c ∈ w.calls, False := fun c member => by rw [start.calls] at member; exact absurd member List.not_mem_nil
  refine ⟨start.known, ⟨row, ⟨found, own⟩, fun applied => absurd applied open', ?_⟩, start.json, ?_, ?_, ?_⟩
  · rintro ⟨c, member, -⟩
    exact absurd member (none' c)
  · exact fun c member => absurd member (none' c)
  · exact fun c member => absurd member (none' c)
  · rw [start.calls]
    exact List.Pairwise.nil

/-- Other tables with the proposal in them, applied or not as before. -/
theorem Inv.withTables {rt : HandlerRuntime} {id : String} {w : World} (inv : Inv rt id w) {T : Tables}
    {row : ProposalRow} (kept : Kept T id row) (same : row.state = .applied ↔ ∃ c ∈ w.calls, c.effective) :
    Inv rt id { w with tables := T } :=
  ⟨inv.known, ⟨row, kept, same⟩, inv.json, inv.accepted, inv.reached, inv.once⟩

theorem mem_insertJson {json : List ExecutionReceipt} {receipt r : ExecutionReceipt}
    (member : r ∈ insertJson json receipt) : r ∈ json ∨ r = receipt := by
  unfold insertJson at member
  split_ifs at member
  · exact .inl member
  · rcases List.mem_append.mp member with old | new
    · exact .inl old
    · exact .inr (List.mem_singleton.mp new)

/-- A call is logged behind calls after which it may stand. -/
theorem pairwise_logged {calls : List CallRecord} {record : CallRecord}
    (once : calls.Pairwise fun c d => c.effective → d.invoked = false)
    (last : (∃ c ∈ calls, c.effective) → record.invoked = false) :
    (calls ++ [record]).Pairwise fun c d => c.effective → d.invoked = false := by
  refine List.pairwise_append.mpr ⟨once, List.pairwise_singleton .., ?_⟩
  intro c member d final effective
  rw [List.mem_singleton.mp final]
  exact last ⟨c, member, effective⟩

theorem effective_logged {calls : List CallRecord} {record : CallRecord} :
    (∃ c ∈ calls ++ [record], c.effective) ↔ (∃ c ∈ calls, c.effective) ∨ record.effective := by
  simp [or_and_right, exists_or]

/-- A duplicate is answered from its receipt. -/
theorem Inv.duplicate {rt : HandlerRuntime} {id : String} {w : World} (inv : Inv rt id w) (dryRun : Bool)
    {receipt : ExecutionReceipt} (accepted : Accepted rt receipt) :
    Inv rt id (w.logged ⟨dryRun, false, false, false, some receipt⟩) := by
  obtain ⟨row, kept, iff⟩ := inv.kept
  refine ⟨inv.known, ⟨row, kept, ?_⟩, inv.json, ?_, ?_, pairwise_logged inv.once fun _ => rfl⟩
  · show row.state = .applied ↔ ∃ c ∈ w.calls ++ [_], c.effective
    rw [effective_logged, iff]
    simp [CallRecord.effective]
  · intro c member r built
    rcases List.mem_append.mp member with old | new
    · exact inv.accepted c old r built
    · rw [List.mem_singleton.mp new] at built
      cases built
      exact accepted
  · intro c member
    rcases List.mem_append.mp member with old | new
    · exact inv.reached c old
    · rw [List.mem_singleton.mp new]

theorem stateFromReceipt_applied {status : WritebackStatus} :
    stateFromReceipt status = .applied ↔ status = .applied ∨ status = .alreadyApplied := by
  cases status <;> simp [stateFromReceipt]

/-- The handler is asked of a proposal that is not applied, and what comes back is recorded. -/
theorem Inv.ask {rt : HandlerRuntime} {id : String} {w : World} (inv : Inv rt id w) {row : ProposalRow}
    (kept : Kept w.tables id row) (open' : row.state ≠ .applied) (allowed : WritebackAllowed row.toStoredProposal)
    {call : Call} {reported : Bool} {built : Option ExecutionReceipt} (sound : Sound rt id reported built)
    (dry : reported = true → call.dryRun = false) : Inv rt id (w.ask rt call reported false built) := by
  have noEffect : ¬ ∃ c ∈ w.calls, c.effective := by
    obtain ⟨stored, found, iff⟩ := inv.kept
    have same : stored = row := Option.some.inj (found.1.symm.trans kept.1)
    rw [same] at iff
    exact fun effect => open' (iff.mpr effect)
  have once := fun record : CallRecord => pairwise_logged inv.once fun effect => absurd effect noEffect (b := record.invoked = false)
  unfold World.ask
  cases built with
  | none =>
    have silent : reported = false := by
      by_contra reports
      obtain ⟨r, some', -⟩ := sound.tells (by simpa using reports)
      cases some'
    subst silent
    refine ⟨inv.known, ⟨row, kept, ?_⟩, inv.json, ?_, ?_, once _⟩
    · show row.state = .applied ↔ ∃ c ∈ w.calls ++ [_], c.effective
      rw [effective_logged]
      refine ⟨fun applied => absurd applied open', ?_⟩
      rintro (old | ⟨-, reports⟩)
      · exact absurd old noEffect
      · cases reports
    · intro c member r built
      rcases List.mem_append.mp member with old | new
      · exact inv.accepted c old r built
      · rw [List.mem_singleton.mp new] at built
        cases built
    · intro c member
      rcases List.mem_append.mp member with old | new
      · exact inv.reached c old
      · rw [List.mem_singleton.mp new]
  | some receipt =>
    obtain ⟨accepted, own⟩ := sound.accepted receipt rfl
    obtain ⟨T, recorded, row', kept', state⟩ := recordExecutionReceipt_ok call.now kept allowed accepted own
    have world : w.recordReceipt rt receipt call.now =
        { w with tables := T, receiptJson := insertJson w.receiptJson receipt } := by
      simp only [World.recordReceipt, recorded]
    simp only [world]
    refine ⟨inv.known, ⟨row', kept', ?_⟩, ?_, ?_, ?_, once _⟩
    · show row'.state = .applied ↔ ∃ c ∈ w.calls ++ [_], c.effective
      rw [effective_logged, state, stateFromReceipt_applied]
      cases reported with
      | false =>
        obtain ⟨notApplied, notAlready⟩ := sound.quiet rfl receipt rfl
        refine ⟨fun status => status.elim (absurd · notApplied) (absurd · notAlready), ?_⟩
        rintro (old | ⟨-, reports⟩)
        · exact absurd old noEffect
        · cases reports
      | true =>
        obtain ⟨r, same, status⟩ := sound.tells rfl
        cases same
        simp [CallRecord.effective, status, dry rfl]
    · intro r member
      rcases mem_insertJson member with old | rfl
      · exact inv.json r old
      · exact accepted
    · intro c member r built
      rcases List.mem_append.mp member with old | new
      · exact inv.accepted c old r built
      · rw [List.mem_singleton.mp new] at built
        cases built
        exact accepted
    · intro c member
      rcases List.mem_append.mp member with old | new
      · exact inv.reached c old
      · rw [List.mem_singleton.mp new]

/-- `prepareHandlerProposal` keeps the proposal, throws for an applied one, and gives one that
    is not applied. -/
theorem prepareHandlerProposal_spec (rt : HandlerRuntime) {T : Tables} {id : String} {row : ProposalRow} (now : Nat)
    (kept : Kept T id row) :
    ∃ row', Kept (prepareHandlerProposal rt T row.toStoredProposal now).1 id row' ∧
      (row'.state = .applied ↔ row.state = .applied) ∧
      ∀ proposal, (prepareHandlerProposal rt T row.toStoredProposal now).2 = .ok proposal →
        row'.state ≠ .applied ∧ proposal = row'.toStoredProposal := by
  unfold prepareHandlerProposal
  by_cases applied : row.state = .applied
  · rw [if_pos applied]
    exact ⟨row, kept, Iff.rfl, fun proposal ok => by cases ok⟩
  · rw [if_neg applied]
    by_cases closed : row.state ≠ .approved ∧ row.state ≠ .pendingWorker
    · rw [if_pos closed]
      exact ⟨row, kept, Iff.rfl, fun proposal ok => by cases ok⟩
    · rw [if_neg closed]
      by_cases approved : row.state = .approved
      · rw [if_pos approved]
        cases marked : operate rt T (.store (.markPendingWorker row.proposalId row.proposalHash row.proposalVersion now)) with
        | error e => exact ⟨row, kept, Iff.rfl, fun proposal ok => by cases ok⟩
        | ok U =>
          rw [kept.2] at marked
          obtain ⟨row', kept', open'⟩ := markPendingWorker_kept marked kept applied
          have required : U.store.requireProposal row.proposalId = .ok row' := by
            rw [kept.2]
            exact Store.requireProposal_ok_iff.mpr kept'.1
          refine ⟨row', kept', by simp [open', applied], fun proposal ok => ⟨open', ?_⟩⟩
          simp only [required, Except.map, Except.mapError] at ok
          cases ok
          rfl
      · rw [if_neg approved]
        refine ⟨row, kept, Iff.rfl, fun proposal ok => ⟨applied, ?_⟩⟩
        cases ok
        rfl

theorem Inv.applyHandlerProposal {rt : HandlerRuntime} {id : String} {w : World} (inv : Inv rt id w) {call : Call}
    (named : nonEmpty call.runnerId = true) (configured : Except CallError Unit) {reported : Bool}
    (dry : reported = true → call.dryRun = false) {built : StoredProposal → HandlerRequest → Option ExecutionReceipt}
    (sound : ∀ proposal : StoredProposal, nonEmpty proposal.proposalId = true →
      Sound rt proposal.proposalId reported (built proposal (handlerRequest proposal call.workerAttempt))) :
    Inv rt id (w.applyHandlerProposal rt id call configured reported false built) := by
  obtain ⟨row, kept, iff⟩ := inv.kept
  have required : w.tables.store.requireProposal id = .ok row := Store.requireProposal_ok_iff.mpr kept.1
  simp only [World.applyHandlerProposal, required]
  cases duplicate : duplicateHandlerReceipt w.receiptJson id with
  | some receipt =>
    refine inv.duplicate call.dryRun (accepted_alreadyApplied rt (inv.json (.v1 receipt) ?_) named)
    unfold duplicateHandlerReceipt at duplicate
    cases found : w.receiptJson.find? (isHandlerEffect id) with
    | none =>
      rw [found] at duplicate
      cases duplicate
    | some first =>
      rw [found] at duplicate
      cases first with
      | v1 r =>
        cases duplicate
        exact List.mem_of_find?_eq_some found
      | v2 _ | v3 _ | v4 _ => cases duplicate
  | none =>
    obtain ⟨row', kept', same, given⟩ := prepareHandlerProposal_spec rt call.now kept
    cases prepared : prepareHandlerProposal rt w.tables row.toStoredProposal call.now with
    | mk T result =>
      rw [prepared] at kept' given
      have moved := inv.withTables kept' (same.trans iff)
      cases result with
      | error e => exact moved
      | ok proposal =>
        obtain ⟨open', is⟩ := given proposal rfl
        have own : proposal.proposalId = id := by rw [is]; exact kept'.2
        simp only
        cases recorded : recordHandlerWritebackJob rt T proposal (handlerRequest proposal call.workerAttempt) with
        | error e => exact moved
        | ok U =>
          obtain ⟨store, allowed⟩ := recordHandlerWritebackJob_ok (own ▸ kept') recorded
          have kept'' : Kept U id row' := ⟨by rw [store]; exact kept'.1, kept'.2⟩
          have ready := inv.withTables kept'' (same.trans iff)
          cases configured with
          | error e => exact ready
          | ok u =>
            have answer := sound proposal (by rw [own]; exact inv.known)
            rw [own] at answer
            exact ready.ask kept'' open' allowed answer dry

theorem Inv.step {rt : HandlerRuntime} {id : String} {w : World} (e : Event) (inv : Inv rt id w) (safe : Safe e) :
    Inv rt id (HandlerCalls.step rt id w e) := by
  cases e with
  | http call executor exchange =>
    obtain ⟨named, reached, clean⟩ := safe
    simp only [HandlerCalls.step, applyHttpHandlerProposal, reached]
    exact inv.applyHandlerProposal named _ (fun reports => (clean reports).1)
      fun proposal known => sound_http rt _ known named fun reports => (clean reports).2
  | command call executor exchange =>
    obtain ⟨named, reached, clean⟩ := safe
    simp only [HandlerCalls.step, applyCommandHandlerProposal, reached]
    exact inv.applyHandlerProposal named _ (fun reports => (clean reports).1)
      fun proposal known => sound_body rt _ known named call.dryRun call.now fun reports => (clean reports).2
  | queue operation =>
    simp only [HandlerCalls.step]
    by_cases work : isQueueWork operation = true
    · rw [if_pos work]
      cases done : operate rt w.tables (.store operation) with
      | error e => exact inv
      | ok T =>
        obtain ⟨row, kept, iff⟩ := inv.kept
        obtain ⟨row', kept', same⟩ := queueWork_kept work done kept
        exact inv.withTables kept' (same.trans iff)
    · rw [if_neg work]
      exact inv

/-- No call records a false outcome in a run in which no dry run is answered as if it had an
    effect, no call that reached its handler is cut off, every answer that reports an effect can
    be read, and every runner has a name. -/
theorem outcomes_true (rt : HandlerRuntime) (id : String) (w : World) (events : List Event)
    (start : Unasked rt id w) (safe : Throughout (step rt id) (fun _ e => Safe e) w events) :
    Truthful rt id (run (step rt id) w events) :=
  (invariant_of_throughout (Inv rt id) (fun _ e inv meets => inv.step e meets) safe (Inv.unasked start)).truthful

/-! ### A proposal that is approved -/

def plainRuntime : HandlerRuntime where
  toStoreRuntime := constantStoreRuntime
  string := fun t => String.ofList (t.map fun u => Char.ofNat u.val)
  isoText := fun _ => "2026-07-12T00:00:00.000Z"
  isoText_nonEmpty := fun _ => by decide
  hashReceipt := fun _ => ⟨"00"⟩
  splitCommand := fun text => [text]
  hasSecretMaterial := fun _ => false

def approvedWorld : World where
  tables := ⟨{ Store.empty with proposals := KeyedMap.empty.set "prop_1" { closeTicketRow with state := .approved } },
    .empty, .empty, []⟩
  receiptJson := []
  calls := []

def anyCall (dryRun : Bool) : Call := ⟨"worker_1", dryRun, 1, fun name => some name, 3⟩

def closeHandler : HttpHandlerExecutor := ⟨"CLOSE_TICKET_URL", none, none⟩

def statusBody (status : String) : Text := (Json.object [(ascii "status", .string (ascii status))]).text

/-- A call that reports its effect, and another one after it. -/
def appliedRun : List Event :=
  [.http (anyCall false) closeHandler (.answered 200 (statusBody "applied")),
    .command (anyCall false) ⟨"CLOSE_TICKET"⟩ (.exited (some 0) (statusBody "applied"))]

theorem unasked_approvedWorld : Unasked plainRuntime "prop_1" approvedWorld where
  row := ⟨_, rfl, rfl, by decide⟩
  known := by decide
  json := fun receipt member => absurd member List.not_mem_nil
  calls := rfl

theorem outcomes_true_applied : Truthful plainRuntime "prop_1"
    (run (step plainRuntime "prop_1") approvedWorld appliedRun) := by
  refine outcomes_true plainRuntime "prop_1" approvedWorld appliedRun unasked_approvedWorld ⟨?_, ?_, trivial⟩
  · exact ⟨by decide, rfl, fun _ => ⟨rfl, by decide +kernel⟩⟩
  · exact ⟨by decide, rfl, fun _ => ⟨rfl, by decide +kernel⟩⟩

/-- The states of a proposal and of the calls for it, after a run. -/
def seen (events : List Event) : Option ProposalState × List (Bool × Bool) :=
  let w := run (step plainRuntime "prop_1") approvedWorld events
  ((w.tables.store.getProposal "prop_1").map fun row => row.state, w.calls.map fun c => (c.dryRun, c.invoked))

def dryRunApplied : List Event := [.http (anyCall true) closeHandler (.answered 200 (statusBody "applied"))]

/-- A dry run that is answered as applied makes its proposal applied. -/
theorem dry_run_applies :
    ¬ ∀ events, Truthful plainRuntime "prop_1" (run (step plainRuntime "prop_1") approvedWorld events) := by
  intro claim
  have outcome : seen dryRunApplied = (some .applied, [(true, true)]) := by decide +kernel
  obtain ⟨state, calls⟩ := Prod.mk.inj outcome
  obtain ⟨row, found, applied⟩ := Option.map_eq_some_iff.mp state
  obtain ⟨c, member, real, -⟩ := (claim dryRunApplied).applied row found applied
  have kind : (c.dryRun, c.invoked) ∈ [(true, true)] := calls ▸ List.mem_map_of_mem member
  rw [real] at kind
  simp at kind

/-- A call that is cut off after its handler has it is recorded as a failure that changed nothing. -/
example : ((run (step plainRuntime "prop_1") approvedWorld
    [.http (anyCall false) closeHandler (.cutOff true true)]).receiptJson.map fun r =>
      (r.status, r.header.sourceDatabaseMutated, r.header.safeErrorCode)) = [(.failed, false, some "HANDLER_TIMEOUT")] := by
  decide +kernel

end SynapsorRunner.HandlerCalls
