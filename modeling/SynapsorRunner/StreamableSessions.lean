import SynapsorRunner.Processes
import SynapsorRunner.Runs
import Mathlib.Data.Int.Basic

/-!
The sessions of the Streamable HTTP server. A request authenticates, prunes the sessions that
have been idle for too long, and is handed to its session or begins a new one. What it reads
and writes between two awaits is one step, so requests, closings and prunings interleave in
every order, and each await may fail.

In every run no more sessions are open than the server and the principal may have, the
counters of the sessions in preparation are exact, and a request reaches the session of its
own credential only (`sessions_isolated`).
-/
namespace SynapsorRunner.StreamableSessions
open SynapsorRunner.Runs SynapsorRunner.Processes

/-! ### The server -/

structure Context where
  tenantId : String
  principal : String
  deriving DecidableEq

structure Authentication where
  fingerprint : String
  context : Option Context

/-- A session, with the context that its runtime was made for. A session is closed once its
    closing has begun. -/
structure Session (Key : Type) where
  sessionId : Option String
  authFingerprint : String
  principalSessionKey : Option Key
  trustedContext : Option Context
  lastSeenAt : ℕ
  closed : Bool

structure SessionFactory where
  maxSessionsPerPrincipal : Option ℕ

structure ServerConfig where
  maxSessions : ℕ
  sessionIdleTimeoutMs : ℕ
  streamableSessionFactory : Option SessionFactory

/-- No limit and a limit of zero are none. -/
def ServerConfig.perPrincipalLimit (config : ServerConfig) : Option ℕ :=
  (config.streamableSessionFactory.bind (·.maxSessionsPerPrincipal)).filter fun limit => decide (limit ≠ 0)

/-- The sessions are objects, which the map of the session ids and the set of the open ones
    refer to. A session has the number of the request that began it. -/
structure Server (Key : Type) where
  objects : KeyedMap ℕ (Session Key)
  sessions : KeyedMap String ℕ
  openSessions : List ℕ
  initializing : ℤ
  byPrincipal : KeyedMap Key ℤ

inductive Reply where
  | unauthorized
  | sessionNotFound
  | initializeRequired
  | sessionCapacityExhausted
  | principalCapacityExhausted
  | initializeFirst
  | failed
  | handled
  | swept
  deriving DecidableEq

/-- Where a request is. A sweep of the timer prunes without a credential. -/
inductive Phase where
  | authenticating
  | pruning (authentication : Option Authentication) (expired : List ℕ)
  | handling (authentication : Authentication) (session : ℕ)
  | reading (authentication : Authentication)
  | creating (authentication : Authentication)
  | connecting (authentication : Authentication)
  | handshaking (authentication : Authentication)
  | disposing (authentication : Authentication)
  | answered (reply : Reply)

structure Request where
  sessionId : Option String
  isPost : Bool
  phase : Phase

inductive BodyResult where
  | failed
  | otherRequest
  | initializeRequest
  deriving DecidableEq

inductive Event where
  | authenticated (authentication : Option Authentication) (now : ℕ)
  | pruned
  | routed (now : ℕ)
  | body (result : BodyResult)
  | created (succeeds : Bool) (now : ℕ)
  | connected (succeeds : Bool)
  /-- The transport has chosen the id of the session. -/
  | sessionInitialized (newSessionId : String)
  | handshaken (succeeds : Bool)
  | disposed
  | handled

section
variable {Key : Type} [DecidableEq Key]

namespace Server

def empty : Server Key := ⟨.empty, .empty, [], 0, .empty⟩

def disposeStreamableSession (server : Server Key) (ref : ℕ) : Server Key :=
  match server.objects.get? ref with
  | none => server
  | some session =>
    if session.closed then server
    else
      { server with
        objects := server.objects.set ref { session with closed := true }
        sessions := match session.sessionId with
          | some sessionId => server.sessions.filterKeys fun key => key != sessionId
          | none => server.sessions
        openSessions := server.openSessions.filter fun other => decide (other ≠ ref) }

/-- The open sessions that have been idle for too long. -/
def expired (server : Server Key) (config : ServerConfig) (now : ℕ) : List ℕ :=
  server.openSessions.filter fun ref =>
    (server.objects.get? ref).any fun session => decide (session.lastSeenAt + config.sessionIdleTimeoutMs ≤ now)

def openForPrincipal (server : Server Key) (key : Key) : ℕ :=
  server.openSessions.countP fun ref =>
    (server.objects.get? ref).any fun session => decide (session.principalSessionKey = some key)

/-- The tenant and principal has as many sessions as it may have. -/
def principalFull (server : Server Key) (config : ServerConfig) (key : Option Key) : Bool :=
  match key, config.perPrincipalLimit with
  | some key, some limit => decide ((limit : ℤ) ≤ server.openForPrincipal key + (server.byPrincipal.get? key).getD 0)
  | _, _ => false

def beginInitializing (server : Server Key) (key : Option Key) : Server Key :=
  { server with
    initializing := server.initializing + 1
    byPrincipal := match key with
      | some key => server.byPrincipal.set key ((server.byPrincipal.get? key).getD 0 + 1)
      | none => server.byPrincipal }

/-- The `finally` of the initialisation. -/
def endInitializing (server : Server Key) (key : Option Key) : Server Key :=
  { server with
    initializing := server.initializing - 1
    byPrincipal := match key with
      | some key =>
        let remaining := (server.byPrincipal.get? key).getD 1 - 1
        if remaining > 0 then server.byPrincipal.set key remaining
        else server.byPrincipal.filterKeys fun other => decide (other ≠ key)
      | none => server.byPrincipal }

/-- `Set.add`. -/
def openSession (server : Server Key) (ref : ℕ) (session : Session Key) : Server Key :=
  { server with
    objects := server.objects.set ref session
    openSessions := if ref ∈ server.openSessions then server.openSessions else server.openSessions ++ [ref] }

/-- `onsessioninitialized`. -/
def nameSession (server : Server Key) (ref : ℕ) (newSessionId : String) : Server Key :=
  { server with
    objects := server.objects.modify ref fun session => { session with sessionId := some newSessionId }
    sessions := server.sessions.set newSessionId ref }

def touch (server : Server Key) (ref : ℕ) (now : ℕ) : Server Key :=
  { server with objects := server.objects.modify ref fun session => { session with lastSeenAt := now } }

end Server

/-! ### Requests -/

variable (config : ServerConfig) (principalKey : Context → Key)

/-- The key of the tenant and principal that a credential is for. -/
def Authentication.key (authentication : Authentication) : Option Key := authentication.context.map principalKey

/-- From the lookup of the session to the first await after it. -/
def route (server : Server Key) (request : Request) (authentication : Authentication) (now : ℕ) : Server Key × Phase :=
  match request.sessionId.filter fun sessionId => sessionId != "" with
  | some sessionId =>
    match server.sessions.get? sessionId with
    | none => (server, .answered .sessionNotFound)
    | some ref =>
      match server.objects.get? ref with
      | none => (server, .answered .sessionNotFound)
      | some existing =>
        if existing.authFingerprint ≠ authentication.fingerprint then (server, .answered .unauthorized)
        else (server.touch ref now, .handling authentication ref)
  | none =>
    if request.isPost = false then (server, .answered .initializeRequired)
    else if (config.maxSessions : ℤ) ≤ server.openSessions.length + server.initializing then
      (server, .answered .sessionCapacityExhausted)
    else if server.principalFull config (authentication.key principalKey) then
      (server, .answered .principalCapacityExhausted)
    else (server.beginInitializing (authentication.key principalKey), .reading authentication)

/-- The step of a request. -/
def Request.next (id : ℕ) (request : Request) (server : Server Key) (event : Event) : Option (Server Key × Phase) :=
  match request.phase with
  | .authenticating =>
    match event with
    | .authenticated none _ => some (server, .answered .unauthorized)
    | .authenticated (some authentication) now => some (server, .pruning (some authentication) (server.expired config now))
    | _ => none
  | .pruning authentication (ref :: rest) =>
    match event with
    | .pruned => some (server.disposeStreamableSession ref, .pruning authentication rest)
    | _ => none
  | .pruning none [] =>
    match event with
    | .pruned => some (server, .answered .swept)
    | _ => none
  | .pruning (some authentication) [] =>
    match event with
    | .routed now => some (route config principalKey server request authentication now)
    | _ => none
  | .handling _ _ =>
    match event with
    | .handled => some (server, .answered .handled)
    | _ => none
  | .reading authentication =>
    match event with
    | .body .initializeRequest =>
      if config.streamableSessionFactory.isSome && authentication.context.isNone then
        some (server.endInitializing (authentication.key principalKey), .answered .failed)
      else some (server, .creating authentication)
    | .body .otherRequest => some (server.endInitializing (authentication.key principalKey), .answered .initializeFirst)
    | .body .failed => some (server.endInitializing (authentication.key principalKey), .answered .failed)
    | _ => none
  | .creating authentication =>
    match event with
    | .created true now =>
      some (server.openSession id { sessionId := none, authFingerprint := authentication.fingerprint
                                    principalSessionKey := authentication.key principalKey
                                    trustedContext := authentication.context, lastSeenAt := now, closed := false },
        .connecting authentication)
    | .created false _ => some (server.endInitializing (authentication.key principalKey), .answered .failed)
    | _ => none
  | .connecting authentication =>
    match event with
    | .connected true => some (server, .handshaking authentication)
    | .connected false => some (server.disposeStreamableSession id, .disposing authentication)
    | _ => none
  | .handshaking authentication =>
    match event with
    | .sessionInitialized newSessionId => some (server.nameSession id newSessionId, .handshaking authentication)
    | .handshaken true => some (server.endInitializing (authentication.key principalKey), .answered .handled)
    | .handshaken false => some (server.disposeStreamableSession id, .disposing authentication)
    | _ => none
  | .disposing authentication =>
    match event with
    | .disposed => some (server.endInitializing (authentication.key principalKey), .answered .failed)
    | _ => none
  | .answered _ => none

/-- A request arrives, the timer begins to prune, a session is closed by its client, its
    transport or its runtime, or a request makes a step. -/
inductive Action where
  | arrive (sessionId : Option String) (isPost : Bool)
  | sweep (now : ℕ)
  | close
  | step (event : Event)

abbrev Sessions (Key : Type) := System (Server Key) Request

def start : Sessions Key := .empty .empty

def advance (s : Sessions Key) : ℕ × Action → Sessions Key
  | (id, .arrive sessionId isPost) =>
    match s.phases.get? id with
    | some _ => s
    | none => s.advance id s.shared ⟨sessionId, isPost, .authenticating⟩
  | (id, .sweep now) =>
    match s.phases.get? id with
    | some _ => s
    | none => s.advance id s.shared ⟨none, false, .pruning none (s.shared.expired config now)⟩
  | (id, .close) => { s with shared := s.shared.disposeStreamableSession id }
  | (id, .step event) =>
    match s.phases.get? id with
    | none => s
    | some request =>
      match request.next config principalKey id s.shared event with
      | none => s
      | some (server, phase) => s.advance id server { request with phase }
end

/-! ### What is claimed -/

/-- A session in preparation, which is open already or not. -/
abbrev Stage := Option (Bool × Authentication)

def Phase.stage : Phase → Stage
  | .reading authentication | .creating authentication => some (false, authentication)
  | .connecting authentication | .handshaking authentication | .disposing authentication => some (true, authentication)
  | _ => none

def Request.isInitializing (request : Request) : Bool := request.phase.stage.isSome

section
variable {Key : Type} [DecidableEq Key] (config : ServerConfig) (principalKey : Context → Key)

/-- The session is one of the principal. -/
def stageOf (key : Key) (stage : Stage) : Bool := stage.any fun stage => decide (stage.2.key principalKey = some key)

def Request.isInitializingFor (key : Key) (request : Request) : Bool := stageOf principalKey key request.phase.stage

/-- The open sessions of a tenant and principal. -/
def Server.openFor (server : Server Key) (context : Context) : List ℕ :=
  server.openSessions.filter fun ref =>
    (server.objects.get? ref).any fun session => decide (session.trustedContext = some context)

/-- The open sessions are those that are not closed and are within the limits, the counters
    are the sessions in preparation, and a request is with a session of its credential. -/
structure Isolated (s : Sessions Key) : Prop where
  open_iff : ∀ ref, ref ∈ s.shared.openSessions ↔
    ∃ session, s.shared.objects.get? ref = some session ∧ session.closed = false
  capacity : s.shared.openSessions.length ≤ config.maxSessions
  per_principal : ∀ limit, config.perPrincipalLimit = some limit →
    ∀ context, (s.shared.openFor context).length ≤ limit
  counted : s.shared.initializing = s.count Request.isInitializing
  counted_by_principal : ∀ key, s.shared.byPrincipal.get? key =
    if s.count (Request.isInitializingFor principalKey key) = 0 then none
    else some (s.count (Request.isInitializingFor principalKey key) : ℤ)
  own_credential : ∀ id request authentication ref, s.phases.get? id = some request →
    request.phase = .handling authentication ref →
      ∃ session, s.shared.objects.get? ref = some session ∧ session.authFingerprint = authentication.fingerprint
end

/-! ### What a step does to the sessions -/

section
variable {Key : Type} {server server' : Server Key}

/-- What never changes of a session. -/
def Session.identity (session : Session Key) : String × Option Key × Option Context :=
  (session.authFingerprint, session.principalSessionKey, session.trustedContext)

def Server.identity (server : Server Key) (ref : ℕ) : Option (String × Option Key × Option Context) :=
  (server.objects.get? ref).map Session.identity

/-- The open sessions are those that are not closed. -/
def Server.Tracked (server : Server Key) : Prop :=
  ∀ ref, ref ∈ server.openSessions ↔ ∃ session, server.objects.get? ref = some session ∧ session.closed = false

/-- No session is begun, and the counters stay. -/
structure Keeps (server server' : Server Key) : Prop where
  identity : ∀ ref, server'.identity ref = server.identity ref
  opens : server'.openSessions.Sublist server.openSessions
  tracked : server.Tracked → server'.Tracked
  initializing : server'.initializing = server.initializing
  byPrincipal : server'.byPrincipal = server.byPrincipal

theorem Keeps.refl (server : Server Key) : Keeps server server := ⟨fun _ => rfl, List.Sublist.refl _, id, rfl, rfl⟩

/-- An update of a session that neither closes it nor gives it to another. -/
theorem keeps_of_modify (f : Session Key → Session Key) (ref : ℕ)
    (objects : server'.objects = server.objects.modify ref f)
    (kept : ∀ session, (f session).identity = session.identity ∧ (f session).closed = session.closed)
    (opens : server'.openSessions = server.openSessions) (initializing : server'.initializing = server.initializing)
    (byPrincipal : server'.byPrincipal = server.byPrincipal) : Keeps server server' where
  identity other := by
    unfold Server.identity
    rw [objects, KeyedMap.get?_modify]
    by_cases own : other = ref
    · subst own
      rw [if_pos rfl, Option.map_map]
      exact congrArg (Option.map · _) (funext fun session => (kept session).1)
    · rw [if_neg own]
  opens := by rw [opens]
  tracked tracked other := by
    rw [opens, tracked, objects, KeyedMap.get?_modify]
    by_cases own : other = ref
    · subst own
      rw [if_pos rfl]
      cases server.objects.get? other <;> simp [kept]
    · rw [if_neg own]
  initializing := initializing
  byPrincipal := byPrincipal

theorem touch_keeps (ref now : ℕ) : Keeps server (server.touch ref now) :=
  keeps_of_modify (fun session => { session with lastSeenAt := now }) ref rfl (fun _ => ⟨rfl, rfl⟩) rfl rfl rfl

theorem nameSession_keeps (ref : ℕ) (newSessionId : String) : Keeps server (server.nameSession ref newSessionId) :=
  keeps_of_modify (fun session => { session with sessionId := some newSessionId }) ref rfl (fun _ => ⟨rfl, rfl⟩)
    rfl rfl rfl

theorem dispose_keeps (ref : ℕ) : Keeps server (server.disposeStreamableSession ref) := by
  unfold Server.disposeStreamableSession
  cases found : server.objects.get? ref with
  | none => exact .refl server
  | some session =>
    dsimp only
    by_cases closed : session.closed = true
    · rw [if_pos closed]
      exact .refl server
    rw [if_neg closed]
    refine ⟨fun other => ?_, List.filter_sublist, fun tracked other => ?_, rfl, rfl⟩
    · unfold Server.identity
      dsimp only
      rw [KeyedMap.get?_set]
      by_cases own : other = ref
      · rw [if_pos own, own, found]
        rfl
      · rw [if_neg own]
    · dsimp only
      rw [List.mem_filter, KeyedMap.get?_set]
      by_cases own : other = ref
      · simp [own]
      · rw [if_neg own]
        simpa [own] using tracked other

/-- The session of a request that is handled was begun with its credential. -/
def Phase.OwnCredential (phase : Phase) (server : Server Key) : Prop :=
  ∀ authentication ref, phase = .handling authentication ref →
    ∃ session, server.objects.get? ref = some session ∧ session.authFingerprint = authentication.fingerprint

theorem Keeps.session (keeps : Keeps server server') {ref : ℕ} {session : Session Key}
    (found : server'.objects.get? ref = some session) :
    ∃ before, server.objects.get? ref = some before ∧ before.identity = session.identity := by
  have same := keeps.identity ref
  unfold Server.identity at same
  rw [found, Option.map_some] at same
  obtain ⟨before, is, identity⟩ := Option.map_eq_some_iff.mp same.symm
  exact ⟨before, is, identity⟩

theorem Phase.OwnCredential.keeps {phase : Phase} (own : phase.OwnCredential server) (keeps : Keeps server server') :
    phase.OwnCredential server' := by
  intro authentication ref is
  obtain ⟨session, found, same⟩ := own authentication ref is
  have kept := keeps.identity ref
  unfold Server.identity at kept
  rw [found, Option.map_some] at kept
  obtain ⟨after, there, identity⟩ := Option.map_eq_some_iff.mp kept
  exact ⟨after, there, (congrArg Prod.fst identity).trans same⟩

variable {s : Sessions Key} {id : ℕ} {request : Request}

/-- The sessions in some stage, before and after a step. -/
theorem count_stage (found : s.phases.get? id = some request) (server' : Server Key) (phase : Phase) (p : Stage → Bool) :
    (s.advance id server' { request with phase }).count (fun request => p request.phase.stage) +
      (p request.phase.stage).toNat = s.count (fun request => p request.phase.stage) + (p phase.stage).toNat :=
  System.count_advance (fun request => p request.phase.stage) found server' { request with phase }

theorem phase_advance_own {phase : Phase} (own : ∀ id request, s.phases.get? id = some request →
    request.phase.OwnCredential server') (mine : phase.OwnCredential server') (id' : ℕ) (request' : Request)
    (found : (s.advance id server' { request with phase }).phases.get? id' = some request') :
    request'.phase.OwnCredential server' := by
  rw [System.phase_advance] at found
  split at found
  · cases found
    exact mine
  · exact own id' request' found

variable [DecidableEq Key]

theorem Keeps.openForPrincipal_le (keeps : Keeps server server') (key : Key) :
    server'.openForPrincipal key ≤ server.openForPrincipal key := by
  unfold Server.openForPrincipal
  have same (ref : ℕ) : ((server'.objects.get? ref).any fun session => decide (session.principalSessionKey = some key)) =
      (server.objects.get? ref).any fun session => decide (session.principalSessionKey = some key) := by
    have is := keeps.identity ref
    unfold Server.identity at is
    cases after : server'.objects.get? ref <;> cases before : server.objects.get? ref <;>
      simp [after, before, Session.identity] at is ⊢
    rw [is.2.1]
  rw [funext same]
  exact keeps.opens.countP_le

theorem get?_beginInitializing (authentication : Authentication) (principalKey : Context → Key) (key : Key) :
    ((server.beginInitializing (authentication.key principalKey)).byPrincipal.get? key) =
      if authentication.key principalKey = some key then some ((server.byPrincipal.get? key).getD 0 + 1)
      else server.byPrincipal.get? key := by
  unfold Server.beginInitializing
  cases own : authentication.key principalKey with
  | none => simp
  | some mine =>
    dsimp only
    rw [KeyedMap.get?_set]
    by_cases same : key = mine
    · simp [same]
    · simp [same, Ne.symm same]

theorem get?_filterKeys_ne (m : KeyedMap Key ℤ) (key other : Key) :
    (m.filterKeys fun k => decide (k ≠ key)).get? other = if other = key then none else m.get? other := by
  by_cases same : other = key
  · rw [if_pos same, KeyedMap.get?_eq_none, KeyedMap.mem_keys_filterKeys]
    simp [same]
  · rw [if_neg same]
    cases found : m.get? other with
    | none =>
      rw [KeyedMap.get?_eq_none] at found ⊢
      rw [KeyedMap.mem_keys_filterKeys]
      exact fun member => found member.1
    | some value =>
      rw [KeyedMap.get?_eq_some] at found ⊢
      exact List.mem_filter.mpr ⟨found, by simpa using same⟩

/-- The counter of a principal goes down by one, and is dropped at zero. -/
theorem get?_endInitializing (authentication : Authentication) (principalKey : Context → Key) (key : Key) {count : ℕ}
    (counted : server.byPrincipal.get? key = some ((count : ℤ) + 1)) (own : authentication.key principalKey = some key) :
    (server.endInitializing (authentication.key principalKey)).byPrincipal.get? key =
      if count = 0 then none else some (count : ℤ) := by
  unfold Server.endInitializing
  rw [own]
  dsimp only
  rw [counted, Option.getD_some, Int.add_sub_cancel]
  by_cases last : count = 0
  · rw [if_neg (by omega), if_pos last, get?_filterKeys_ne, if_pos rfl]
  · have more : (count : ℤ) > 0 := by omega
    rw [if_pos more, if_neg last, KeyedMap.get?_set_self]

theorem get?_endInitializing_of_ne (authentication : Authentication) (principalKey : Context → Key) {key : Key}
    (apart : authentication.key principalKey ≠ some key) :
    (server.endInitializing (authentication.key principalKey)).byPrincipal.get? key = server.byPrincipal.get? key := by
  unfold Server.endInitializing
  cases own : authentication.key principalKey with
  | none => rfl
  | some mine =>
    have other : key ≠ mine := fun same => apart (by rw [own, same])
    dsimp only
    split
    · rw [KeyedMap.get?_set_of_ne _ _ other]
    · rw [get?_filterKeys_ne, if_neg other]

/-! ### What a step does -/

variable (config : ServerConfig) (principalKey : Context → Key)

/-- The request has begun its session, or will not begin one. -/
def Phase.isPast : Phase → Bool
  | .connecting _ | .handshaking _ | .disposing _ | .answered _ => true
  | _ => false

/-- What the step of a request does to the sessions and to its own stage. -/
inductive Effect (id : ℕ) (server : Server Key) (old : Phase) : Server Key → Phase → Prop where
  | keeps {server' : Server Key} {phase : Phase} (keeps : Keeps server server') (same : phase.stage = old.stage)
      (past : old.isPast = true → phase.isPast = true) (own : phase.OwnCredential server') :
      Effect id server old server' phase
  | begins (authentication : Authentication) (idle : old.stage = none) (present : old.isPast = false)
      (free : (server.openSessions.length : ℤ) + server.initializing < config.maxSessions)
      (room : server.principalFull config (authentication.key principalKey) = false) :
      Effect id server old (server.beginInitializing (authentication.key principalKey)) (.reading authentication)
  | opens (authentication : Authentication) (now : ℕ) (unopened : old.stage = some (false, authentication))
      (present : old.isPast = false) :
      Effect id server old
        (server.openSession id { sessionId := none, authFingerprint := authentication.fingerprint
                                 principalSessionKey := authentication.key principalKey
                                 trustedContext := authentication.context, lastSeenAt := now, closed := false })
        (.connecting authentication)
  | ends (authentication : Authentication) (opened : Bool) (stage : old.stage = some (opened, authentication))
      (reply : Reply) : Effect id server old (server.endInitializing (authentication.key principalKey)) (.answered reply)

variable {config} {principalKey}

/-- A step that leaves the sessions as they are, to a phase that is not handled. -/
theorem Effect.same {id : ℕ} {old phase : Phase} (keeps : Keeps server server') (same : phase.stage = old.stage)
    (past : old.isPast = true → phase.isPast = true)
    (unhandled : ∀ authentication ref, phase ≠ .handling authentication ref) :
    Effect config principalKey id server old server' phase :=
  .keeps keeps same past fun authentication ref is => absurd is (unhandled authentication ref)

theorem route_effect {id : ℕ} {old : Phase} (idle : old.stage = none) (present : old.isPast = false) (request : Request)
    (authentication : Authentication) (now : ℕ) : Effect config principalKey id server old
      (route config principalKey server request authentication now).1
      (route config principalKey server request authentication now).2 := by
  have quiet {reply : Reply} : Effect config principalKey id server old server (.answered reply) :=
    .same (.refl server) idle.symm (fun _ => rfl) fun _ _ => Phase.noConfusion
  unfold route
  split
  · split
    · exact quiet
    · next ref _ =>
      cases found : server.objects.get? ref with
      | none => exact quiet
      | some existing =>
        dsimp only
        by_cases other : existing.authFingerprint ≠ authentication.fingerprint
        · rw [if_pos other]
          exact quiet
        · rw [if_neg other]
          refine .keeps (touch_keeps ref now) idle.symm (fun past => absurd past (by simp [present])) ?_
          rintro _ _ ⟨⟩
          refine ⟨{ existing with lastSeenAt := now }, ?_, not_not.mp other⟩
          simp [Server.touch, KeyedMap.get?_modify, found]
  · split
    · exact quiet
    split
    · exact quiet
    split
    · exact quiet
    · next free room => exact .begins authentication idle present (by omega) (by simpa using room)

theorem next_effect {id : ℕ} {request : Request} {event : Event} {phase : Phase}
    (stepped : request.next config principalKey id server event = some (server', phase)) :
    Effect config principalKey id server request.phase server' phase := by
  obtain ⟨sessionId, isPost, old⟩ := request
  cases old with
  | authenticating =>
    cases event with
    | authenticated authentication now =>
      cases authentication with
      | none =>
        cases stepped
        exact .same (.refl server) rfl (fun _ => rfl) fun _ _ => Phase.noConfusion
      | some authentication =>
        cases stepped
        exact .same (.refl server) rfl (fun past => past) fun _ _ => Phase.noConfusion
    | _ => cases stepped
  | pruning authentication expired =>
    cases expired with
    | cons ref rest =>
      cases event with
      | pruned =>
        obtain ⟨rfl, rfl⟩ := Prod.mk.inj (Option.some.inj stepped)
        exact .same (dispose_keeps ref) rfl (fun past => past) fun _ _ => Phase.noConfusion
      | _ => cases stepped
    | nil =>
      cases authentication with
      | none =>
        cases event with
        | pruned =>
          cases stepped
          exact .same (.refl server) rfl (fun _ => rfl) fun _ _ => Phase.noConfusion
        | _ => cases stepped
      | some authentication =>
        cases event with
        | routed now =>
          have is : route config principalKey server _ authentication now = (server', phase) := Option.some.inj stepped
          have idle : (Phase.pruning (some authentication) []).stage = none := rfl
          have effect : Effect config principalKey id server _ _ _ :=
            route_effect idle rfl ⟨sessionId, isPost, .pruning (some authentication) []⟩ authentication now
          rw [is] at effect
          exact effect
        | _ => cases stepped
  | handling authentication ref =>
    cases event with
    | handled =>
      cases stepped
      exact .same (.refl server) rfl (fun _ => rfl) fun _ _ => Phase.noConfusion
    | _ => cases stepped
  | reading authentication =>
    cases event with
    | body result =>
      cases result with
      | initializeRequest =>
        by_cases untrusted : (config.streamableSessionFactory.isSome && authentication.context.isNone) = true
        · simp only [Request.next, untrusted, if_true] at stepped
          cases stepped
          exact .ends authentication false rfl .failed
        · simp only [Request.next, untrusted, if_false] at stepped
          cases stepped
          exact .same (.refl server) rfl (fun past => past) fun _ _ => Phase.noConfusion
      | otherRequest =>
        cases stepped
        exact .ends authentication false rfl .initializeFirst
      | failed =>
        cases stepped
        exact .ends authentication false rfl .failed
    | _ => cases stepped
  | creating authentication =>
    cases event with
    | created succeeds now =>
      cases succeeds with
      | true =>
        cases stepped
        exact .opens authentication now rfl rfl
      | false =>
        cases stepped
        exact .ends authentication false rfl .failed
    | _ => cases stepped
  | connecting authentication =>
    cases event with
    | connected succeeds =>
      cases succeeds with
      | true =>
        cases stepped
        exact .same (.refl server) rfl (fun past => past) fun _ _ => Phase.noConfusion
      | false =>
        obtain ⟨rfl, rfl⟩ := Prod.mk.inj (Option.some.inj stepped)
        exact .same (dispose_keeps id) rfl (fun _ => rfl) fun _ _ => Phase.noConfusion
    | _ => cases stepped
  | handshaking authentication =>
    cases event with
    | sessionInitialized newSessionId =>
      cases stepped
      exact .same (nameSession_keeps id newSessionId) rfl (fun _ => rfl) fun _ _ => Phase.noConfusion
    | handshaken succeeds =>
      cases succeeds with
      | true =>
        cases stepped
        exact .ends authentication true rfl .handled
      | false =>
        obtain ⟨rfl, rfl⟩ := Prod.mk.inj (Option.some.inj stepped)
        exact .same (dispose_keeps id) rfl (fun _ => rfl) fun _ _ => Phase.noConfusion
    | _ => cases stepped
  | disposing authentication =>
    cases event with
    | disposed =>
      cases stepped
      exact .ends authentication true rfl .failed
    | _ => cases stepped
  | answered reply => cases stepped

/-! ### The invariant -/

/-- The request prepares a session that is not open yet. -/
def unopened (stage : Stage) : Bool := stage.any fun stage => !stage.1

def Request.isUnopened (request : Request) : Bool := unopened request.phase.stage

def Request.isUnopenedFor (principalKey : Context → Key) (key : Key) (request : Request) : Bool :=
  unopened request.phase.stage && stageOf principalKey key request.phase.stage

/-- The open sessions and those in preparation together are within the limits. -/
structure Inv (config : ServerConfig) (principalKey : Context → Key) (s : Sessions Key) : Prop where
  tracked : s.shared.Tracked
  counted : s.shared.initializing = s.count Request.isInitializing
  byPrincipal : ∀ key, s.shared.byPrincipal.get? key =
    if s.count (Request.isInitializingFor principalKey key) = 0 then none
    else some (s.count (Request.isInitializingFor principalKey key) : ℤ)
  capacity : s.shared.openSessions.length + s.count Request.isUnopened ≤ config.maxSessions
  principals : ∀ limit, config.perPrincipalLimit = some limit → ∀ key,
    s.shared.openForPrincipal key + s.count (Request.isUnopenedFor principalKey key) ≤ limit
  keyed : ∀ ref session, s.shared.objects.get? ref = some session →
    session.principalSessionKey = session.trustedContext.map principalKey
  past : ∀ id session, s.shared.objects.get? id = some session →
    ∃ request, s.phases.get? id = some request ∧ request.phase.isPast = true
  own : ∀ id request, s.phases.get? id = some request → request.phase.OwnCredential s.shared

theorem Inv.start : Inv config principalKey (start : Sessions Key) where
  tracked ref := by simp [StreamableSessions.start, System.empty, Server.empty]
  counted := rfl
  byPrincipal key := rfl
  capacity := Nat.zero_le _
  principals limit _ key := Nat.zero_le _
  keyed ref session found := by cases found
  past id session found := by cases found
  own id request found := by cases found

/-- What the steps that begin and open no session keep. -/
theorem Inv.of_keeps {s s' : Sessions Key} (inv : Inv config principalKey s) (keeps : Keeps s.shared s'.shared)
    (stages : ∀ p : Stage → Bool, p none = false →
      s'.count (fun request => p request.phase.stage) = s.count (fun request => p request.phase.stage))
    (past : ∀ id request, s.phases.get? id = some request → request.phase.isPast = true →
      ∃ request', s'.phases.get? id = some request' ∧ request'.phase.isPast = true)
    (own : ∀ id request, s'.phases.get? id = some request → request.phase.OwnCredential s'.shared) :
    Inv config principalKey s' where
  tracked := keeps.tracked inv.tracked
  counted := by
    have same : s'.count Request.isInitializing = s.count Request.isInitializing := stages Option.isSome rfl
    rw [keeps.initializing, same, inv.counted]
  byPrincipal key := by
    have same : s'.count (Request.isInitializingFor principalKey key) =
        s.count (Request.isInitializingFor principalKey key) := stages (stageOf principalKey key) rfl
    rw [keeps.byPrincipal, same, inv.byPrincipal]
  capacity := by
    have same : s'.count Request.isUnopened = s.count Request.isUnopened :=
      stages unopened rfl
    have fewer := keeps.opens.length_le
    have before := inv.capacity
    omega
  principals limit limited key := by
    have same : s'.count (Request.isUnopenedFor principalKey key) = s.count (Request.isUnopenedFor principalKey key) :=
      stages (fun stage => unopened stage && stageOf principalKey key stage) rfl
    have fewer := keeps.openForPrincipal_le key
    have before := inv.principals limit limited key
    omega
  keyed ref session found := by
    obtain ⟨before, there, identity⟩ := keeps.session found
    have keyed := inv.keyed ref before there
    simp only [Session.identity, Prod.mk.injEq] at identity
    rw [← identity.2.1, ← identity.2.2, keyed]
  past id session found := by
    obtain ⟨before, there, _⟩ := keeps.session found
    obtain ⟨request, is, isPast⟩ := inv.past id before there
    exact past id request is isPast
  own := own

/-! ### Steps -/

theorem Inv.keeps (inv : Inv config principalKey s) (found : s.phases.get? id = some request) {phase : Phase}
    (keeps : Keeps s.shared server') (same : phase.stage = request.phase.stage)
    (past : request.phase.isPast = true → phase.isPast = true) (mine : phase.OwnCredential server') :
    Inv config principalKey (s.advance id server' { request with phase }) := by
  refine inv.of_keeps keeps (fun p _ => ?_) (fun id' other there isPast => ?_)
    (phase_advance_own (fun id other there => (inv.own id other there).keeps keeps) mine)
  · have counts := count_stage found server' phase p
    rw [same] at counts
    omega
  · rw [System.phase_advance]
    by_cases own : id' = id
    · rw [own, found] at there
      cases there
      exact ⟨_, if_pos own, past isPast⟩
    · exact ⟨other, (if_neg own).trans there, isPast⟩

theorem principal_room {server : Server Key} {key : Key} {limit : ℕ} (limited : config.perPrincipalLimit = some limit)
    (room : server.principalFull config (some key) = false) :
    (server.openForPrincipal key : ℤ) + (server.byPrincipal.get? key).getD 0 < limit := by
  simpa [Server.principalFull, limited] using room

theorem Inv.initializing_getD (inv : Inv config principalKey s) (key : Key) :
    (s.shared.byPrincipal.get? key).getD 0 = s.count (Request.isInitializingFor principalKey key) := by
  rw [inv.byPrincipal]
  split
  · next none => rw [none]; rfl
  · rfl

theorem isInitializing_of_unopened {request : Request} (is : request.isUnopened = true) : request.isInitializing = true := by
  unfold Request.isUnopened unopened at is
  unfold Request.isInitializing
  cases stage : request.phase.stage with
  | none => simp [stage] at is
  | some _ => rfl

theorem isInitializingFor_of_unopened {key : Key} {request : Request} (is : request.isUnopenedFor principalKey key = true) :
    request.isInitializingFor principalKey key = true := by
  simp only [Request.isUnopenedFor, Bool.and_eq_true] at is
  exact is.2

/-- A request past its session does not begin another. -/
theorem Inv.past_advance (inv : Inv config principalKey s) (found : s.phases.get? id = some request)
    (present : request.phase.isPast = false) {id' : ℕ} {session : Session Key}
    (there : s.shared.objects.get? id' = some session) (shared : Server Key) (phase : Phase) :
    ∃ other, (s.advance id shared { request with phase }).phases.get? id' = some other ∧ other.phase.isPast = true := by
  obtain ⟨other, is, isPast⟩ := inv.past id' session there
  refine ⟨other, ?_, isPast⟩
  rw [System.phase_advance, if_neg, is]
  rintro rfl
  cases found.symm.trans is
  rw [present] at isPast
  cases isPast

theorem Inv.begins (inv : Inv config principalKey s) (found : s.phases.get? id = some request)
    (authentication : Authentication) (idle : request.phase.stage = none) (present : request.phase.isPast = false)
    (free : (s.shared.openSessions.length : ℤ) + s.shared.initializing < config.maxSessions)
    (room : s.shared.principalFull config (authentication.key principalKey) = false) :
    Inv config principalKey (s.advance id (s.shared.beginInitializing (authentication.key principalKey))
      { request with phase := .reading authentication }) := by
  have counts := count_stage found (s.shared.beginInitializing (authentication.key principalKey)) (.reading authentication)
  rw [idle] at counts
  have all : System.count _ Request.isInitializing = s.count Request.isInitializing + 1 := counts Option.isSome
  have waiting : System.count _ Request.isUnopened = s.count Request.isUnopened + 1 := counts unopened
  have mine (key : Key) : System.count _ (Request.isInitializingFor principalKey key) =
      s.count (Request.isInitializingFor principalKey key) + (decide (authentication.key principalKey = some key)).toNat :=
    counts (stageOf principalKey key)
  have mineWaiting (key : Key) : System.count _ (Request.isUnopenedFor principalKey key) =
      s.count (Request.isUnopenedFor principalKey key) + (decide (authentication.key principalKey = some key)).toNat :=
    counts fun stage => unopened stage && stageOf principalKey key stage
  have counted := inv.counted
  constructor
  · exact inv.tracked
  · rw [all]
    show s.shared.initializing + 1 = _
    omega
  · intro key
    rw [mine, System.advance_shared, get?_beginInitializing, inv.initializing_getD]
    by_cases own : authentication.key principalKey = some key
    · rw [if_pos own, if_neg (by simp [own])]
      simp [own]
    · rw [if_neg own, inv.byPrincipal]
      simp [own]
  · rw [waiting]
    have fewer : s.count Request.isUnopened ≤ s.count Request.isInitializing :=
      System.count_mono fun _ => isInitializing_of_unopened
    show s.shared.openSessions.length + _ ≤ _
    omega
  · intro limit limited key
    rw [mineWaiting]
    show s.shared.openForPrincipal key + _ ≤ _
    by_cases own : authentication.key principalKey = some key
    · rw [own] at room
      have left := principal_room limited room
      rw [inv.initializing_getD] at left
      have fewer : s.count (Request.isUnopenedFor principalKey key) ≤
          s.count (Request.isInitializingFor principalKey key) := System.count_mono fun _ => isInitializingFor_of_unopened
      simp only [own, decide_true, Bool.toNat_true]
      omega
    · simp only [own, decide_false, Bool.toNat_false, Nat.add_zero]
      exact inv.principals limit limited key
  · exact inv.keyed
  · exact fun id' session there => inv.past_advance found present there _ _
  · exact phase_advance_own (fun id other there => inv.own id other there) fun _ _ => Phase.noConfusion

theorem Inv.fresh (inv : Inv config principalKey s) (found : s.phases.get? id = some request)
    (present : request.phase.isPast = false) : s.shared.objects.get? id = none ∧ id ∉ s.shared.openSessions := by
  have none : s.shared.objects.get? id = none := by
    cases there : s.shared.objects.get? id with
    | none => rfl
    | some session =>
      obtain ⟨other, is, isPast⟩ := inv.past id session there
      cases found.symm.trans is
      rw [present] at isPast
      cases isPast
  refine ⟨none, fun member => ?_⟩
  obtain ⟨session, there, _⟩ := (inv.tracked id).mp member
  cases none.symm.trans there

/-- A new session counts for its own principal. -/
theorem openForPrincipal_openSession {server : Server Key} {ref : ℕ} (new : ref ∉ server.openSessions)
    (session : Session Key) (key : Key) : (server.openSession ref session).openForPrincipal key =
      server.openForPrincipal key + (decide (session.principalSessionKey = some key)).toNat := by
  unfold Server.openSession Server.openForPrincipal
  dsimp only
  rw [if_neg new, List.countP_append, List.countP_singleton, KeyedMap.get?_set_self]
  have others : (server.openSessions.countP fun other => ((server.objects.set ref session).get? other).any fun session =>
      decide (session.principalSessionKey = some key)) = server.openSessions.countP fun other =>
      (server.objects.get? other).any fun session => decide (session.principalSessionKey = some key) := by
    refine List.countP_congr fun other member => ?_
    have apart : other ≠ ref := fun same => new (same ▸ member)
    rw [KeyedMap.get?_set_of_ne _ _ apart]
  rw [others]
  by_cases own : session.principalSessionKey = some key <;> simp [own]

theorem Inv.opens (inv : Inv config principalKey s) (found : s.phases.get? id = some request)
    (authentication : Authentication) (stage : request.phase.stage = some (false, authentication))
    (present : request.phase.isPast = false) {session : Session Key} (isOpen : session.closed = false)
    (keyed : session.principalSessionKey = authentication.key principalKey)
    (context : session.trustedContext = authentication.context) :
    Inv config principalKey
      (s.advance id (s.shared.openSession id session) { request with phase := .connecting authentication }) := by
  obtain ⟨missing, new⟩ := inv.fresh found present
  have counts := count_stage found (s.shared.openSession id session) (.connecting authentication)
  rw [stage] at counts
  have all : System.count _ Request.isInitializing + 1 = s.count Request.isInitializing + 1 := counts Option.isSome
  have waiting : System.count _ Request.isUnopened + 1 = s.count Request.isUnopened := counts unopened
  have mine (key : Key) : System.count _ (Request.isInitializingFor principalKey key) +
      (decide (authentication.key principalKey = some key)).toNat =
      s.count (Request.isInitializingFor principalKey key) + (decide (authentication.key principalKey = some key)).toNat :=
    counts (stageOf principalKey key)
  have mineWaiting (key : Key) : System.count _ (Request.isUnopenedFor principalKey key) +
      (decide (authentication.key principalKey = some key)).toNat = s.count (Request.isUnopenedFor principalKey key) :=
    counts fun stage => unopened stage && stageOf principalKey key stage
  have openings : (s.shared.openSession id session).openSessions = s.shared.openSessions ++ [id] := if_neg new
  constructor
  · intro ref
    rw [System.advance_shared, openings, List.mem_append, List.mem_singleton]
    show _ ↔ ∃ other, (s.shared.objects.set id session).get? ref = some other ∧ _
    rw [KeyedMap.get?_set, inv.tracked]
    by_cases own : ref = id
    · simp [own, isOpen]
    · simp [own]
  · rw [Nat.add_right_cancel all]
    exact inv.counted
  · intro key
    rw [Nat.add_right_cancel (mine key)]
    exact inv.byPrincipal key
  · rw [System.advance_shared, openings, List.length_append, List.length_singleton]
    have capacity := inv.capacity
    omega
  · intro limit limited key
    rw [System.advance_shared, openForPrincipal_openSession new, keyed]
    have most := inv.principals limit limited key
    have moved := mineWaiting key
    omega
  · intro ref other there
    rw [System.advance_shared] at there
    have is : (s.shared.objects.set id session).get? ref = some other := there
    rw [KeyedMap.get?_set] at is
    split at is
    · cases is
      rw [keyed, context]
      rfl
    · exact inv.keyed ref other is
  · intro id' other there
    have is : (s.shared.objects.set id session).get? id' = some other := there
    rw [KeyedMap.get?_set] at is
    split at is
    · next own => exact ⟨_, by rw [System.phase_advance, if_pos own], rfl⟩
    · exact inv.past_advance found present is _ _
  · refine phase_advance_own (fun id' other there authentication ref is => ?_) fun _ _ => Phase.noConfusion
    obtain ⟨session', known, same⟩ := inv.own id' other there authentication ref is
    refine ⟨session', ?_, same⟩
    show (s.shared.objects.set id session).get? ref = _
    rw [KeyedMap.get?_set_of_ne, known]
    rintro rfl
    cases missing.symm.trans known

theorem Inv.ends (inv : Inv config principalKey s) (found : s.phases.get? id = some request)
    (authentication : Authentication) {opened : Bool} (stage : request.phase.stage = some (opened, authentication))
    (reply : Reply) : Inv config principalKey (s.advance id (s.shared.endInitializing (authentication.key principalKey))
      { request with phase := .answered reply }) := by
  have counts := count_stage found (s.shared.endInitializing (authentication.key principalKey)) (.answered reply)
  rw [stage] at counts
  have all : System.count _ Request.isInitializing + 1 = s.count Request.isInitializing := counts Option.isSome
  have waiting : System.count _ Request.isUnopened + (!opened).toNat = s.count Request.isUnopened := counts unopened
  have mine (key : Key) : System.count _ (Request.isInitializingFor principalKey key) +
      (decide (authentication.key principalKey = some key)).toNat = s.count (Request.isInitializingFor principalKey key) :=
    counts (stageOf principalKey key)
  have mineWaiting (key : Key) : System.count _ (Request.isUnopenedFor principalKey key) +
      (!opened && decide (authentication.key principalKey = some key)).toNat =
      s.count (Request.isUnopenedFor principalKey key) :=
    counts fun stage => unopened stage && stageOf principalKey key stage
  constructor
  · exact inv.tracked
  · have counted := inv.counted
    show s.shared.initializing - 1 = _
    omega
  · intro key
    have moved := mine key
    have before := inv.byPrincipal key
    rw [System.advance_shared]
    by_cases own : authentication.key principalKey = some key
    · simp only [own, decide_true, Bool.toNat_true] at moved
      rw [← moved, if_neg (Nat.succ_ne_zero _), Int.natCast_succ] at before
      exact get?_endInitializing authentication principalKey key before own
    · simp only [own, decide_false, Bool.toNat_false, Nat.add_zero] at moved
      rw [get?_endInitializing_of_ne authentication principalKey own, moved]
      exact before
  · have capacity := inv.capacity
    show s.shared.openSessions.length + _ ≤ _
    omega
  · intro limit limited key
    have most := inv.principals limit limited key
    have moved := mineWaiting key
    show s.shared.openForPrincipal key + _ ≤ _
    omega
  · exact inv.keyed
  · intro id' session there
    obtain ⟨other, is, isPast⟩ := inv.past id' session there
    rw [System.phase_advance]
    by_cases own : id' = id
    · exact ⟨_, if_pos own, rfl⟩
    · exact ⟨other, (if_neg own).trans is, isPast⟩
  · exact phase_advance_own (fun id other there => inv.own id other there) fun _ _ => Phase.noConfusion

theorem Inv.effect (inv : Inv config principalKey s) (found : s.phases.get? id = some request) {phase : Phase}
    (effect : Effect config principalKey id s.shared request.phase server' phase) :
    Inv config principalKey (s.advance id server' { request with phase }) := by
  cases effect with
  | keeps keeps same past own => exact inv.keeps found keeps same past own
  | begins authentication idle present free room => exact inv.begins found authentication idle present free room
  | opens authentication now unopened present => exact inv.opens found authentication unopened present rfl rfl rfl
  | ends authentication opened stage reply => exact inv.ends found authentication stage reply

/-- A new request, or a new sweep. -/
theorem Inv.arrives (inv : Inv config principalKey s) (absent : s.phases.get? id = none) {request : Request}
    (idle : request.phase.stage = none)
    (unhandled : ∀ authentication ref, request.phase ≠ .handling authentication ref) :
    Inv config principalKey (s.advance id s.shared request) := by
  refine inv.of_keeps (.refl s.shared) (fun p none => ?_) (fun id' other there isPast => ⟨other, ?_, isPast⟩)
    fun id' other there => ?_
  · have counts := System.count_begin (fun request : Request => p request.phase.stage) absent s.shared request
    rw [idle, none] at counts
    exact counts
  · rw [System.phase_advance, if_neg, there]
    rintro rfl
    cases absent.symm.trans there
  · rw [System.phase_advance] at there
    split at there
    · cases there
      exact fun authentication ref is => absurd is (unhandled authentication ref)
    · exact inv.own id' other there

theorem Inv.advance (inv : Inv config principalKey s) (action : ℕ × Action) :
    Inv config principalKey (advance config principalKey s action) := by
  obtain ⟨id, action⟩ := action
  unfold StreamableSessions.advance
  cases action with
  | arrive sessionId isPost =>
    dsimp only
    cases found : s.phases.get? id with
    | some request => exact inv
    | none => exact inv.arrives found rfl fun _ _ => Phase.noConfusion
  | sweep now =>
    dsimp only
    cases found : s.phases.get? id with
    | some request => exact inv
    | none => exact inv.arrives found rfl fun _ _ => Phase.noConfusion
  | close =>
    exact inv.of_keeps (dispose_keeps id) (fun _ _ => rfl) (fun _ request there isPast => ⟨request, there, isPast⟩)
      fun id' request there => (inv.own id' request there).keeps (dispose_keeps id)
  | step event =>
    dsimp only
    cases found : s.phases.get? id with
    | none => exact inv
    | some request =>
      dsimp only
      cases stepped : request.next config principalKey id s.shared event with
      | none => exact inv
      | some after => exact inv.effect found (next_effect stepped)

theorem Inv.isolated (inv : Inv config principalKey s) : Isolated config principalKey s where
  open_iff := inv.tracked
  capacity := Nat.le_of_add_right_le inv.capacity
  per_principal limit limited context := by
    refine Nat.le_trans ?_ (Nat.le_of_add_right_le (inv.principals limit limited (principalKey context)))
    unfold Server.openFor Server.openForPrincipal
    rw [← List.countP_eq_length_filter]
    refine List.countP_mono_left fun ref member own => ?_
    cases there : s.shared.objects.get? ref with
    | none => simp [there] at own
    | some session =>
      have keyed := inv.keyed ref session there
      simp only [there, Option.any_some, decide_eq_true_eq] at own ⊢
      rw [keyed, own]
      rfl
  counted := inv.counted
  counted_by_principal := inv.byPrincipal
  own_credential id request authentication ref found is := inv.own id request found authentication ref is

/-- In every run of requests, closings and prunings the sessions are within their limits, the
    counters are exact, and a request is with a session of its own credential. -/
theorem sessions_isolated (config : ServerConfig) (principalKey : Context → Key) (actions : List (ℕ × Action)) :
    Isolated config principalKey (run (advance config principalKey) start actions) :=
  (invariant (Inv config principalKey) (fun _ action inv => inv.advance action) .start actions).isolated
end

end SynapsorRunner.StreamableSessions
