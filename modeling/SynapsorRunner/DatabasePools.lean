import SynapsorRunner.Processes
import SynapsorRunner.Runs
import Mathlib.Data.Int.Basic

/-!
Reads from one source through its connection pools. A read waits for a connection, holds it
for the statements of a transaction, and gives it back; the source counts the reads that
wait and those that hold one, and refuses a read when the queue is full.

The handler around a read takes it out of the queue when it fails, also where it has left
the queue before. `read_accounts` says what is exact in the runs in which no read fails with
a connection while others wait, and none restores the time zone of a connection that it no
longer counts.
-/
namespace SynapsorRunner.DatabasePools
open SynapsorRunner.Runs SynapsorRunner.Processes

/-! ### Sources and reads -/

inductive SourceEngine where
  | postgres
  | mysql
  deriving DecidableEq

structure PoolSource where
  engine : SourceEngine
  maxConnections : Option ℕ
  queueLimit : Option ℕ

/-- `queue_limit ?? Math.max(10, max * 4)`. -/
def PoolSource.limit (source : PoolSource) : ℕ := source.queueLimit.getD (max 10 (source.maxConnections.getD 10 * 4))

/-- What decides the statements of a read: whether its transaction is read only, whether it
    reports in UTC, whether it has a timeout, the targets whose row security is checked, and
    whether the trusted scope is bound. -/
structure ReadInput where
  readOnly : Bool
  utc : Bool
  timed : Bool
  rlsTargets : ℕ
  scopes : Bool

/-- What a read does with its connection, in order. Planning is no statement, but it can
    throw. -/
inductive Statement where
  | plan
  | start
  | selectTimeZone
  | setTimeZone
  | setTimeout
  | assertRlsTarget
  | bindScope
  | query
  | commit
  deriving DecidableEq

def statements (engine : SourceEngine) (input : ReadInput) : List Statement :=
  match engine with
  | .postgres => [.plan, .start] ++ (if input.utc then [.setTimeZone] else []) ++
      (if input.timed then [.setTimeout] else []) ++ List.replicate input.rlsTargets .assertRlsTarget ++
      (if input.scopes then [.bindScope] else []) ++ [.query, .commit]
  | .mysql => (if input.utc then [.selectTimeZone, .setTimeZone] else []) ++ (if input.timed then [.setTimeout] else []) ++
      [.plan] ++ (if input.readOnly then [.start] else []) ++ [.query] ++ (if input.readOnly then [.commit] else [])

/-- The statement is in the inner handler, which rolls back. -/
def rollsBack (engine : SourceEngine) (input : ReadInput) (statement : Statement) : Bool :=
  match engine with
  | .postgres => true
  | .mysql => input.readOnly && (decide (statement = .query) || decide (statement = .commit))

/-- A failure of the statement is ignored. -/
def isOptional (engine : SourceEngine) (statement : Statement) : Bool :=
  decide (engine = .mysql) && decide (statement = .setTimeout)

/-- Where a read is. `restores` says that a time zone was read that is to be set again. -/
inductive Phase where
  | resolving
  | retiring (expiresAt : Option ℕ) (poolKey connectionDigest : String)
  | acquiring
  | holding (remaining : List Statement) (restores : Bool)
  | rollingBack (restores : Bool)
  | restoring (failed : Bool)
  | returned
  | refused
  | failed
  deriving DecidableEq

/-- The read has joined the queue and has no connection yet. -/
def Phase.isWaiting : Phase → Bool
  | .retiring .. | .acquiring => true
  | _ => false

/-- The read has a connection. -/
def Phase.isHolding : Phase → Bool
  | .holding .. | .rollingBack _ | .restoring _ => true
  | _ => false

structure Read where
  input : ReadInput
  phase : Phase

def Read.isWaiting (read : Read) : Bool := read.phase.isWaiting
def Read.isHolding (read : Read) : Bool := read.phase.isHolding

/-! ### The counters -/

structure Counter where
  active : ℤ
  waiting : ℤ

structure PoolEntry where
  expiresAt : Option ℕ
  connectionDigest : String

structure Pools where
  counter : Counter
  entries : KeyedMap String PoolEntry

structure Credential where
  poolKey : String
  connectionDigest : String
  expiresAt : Option ℕ

namespace Pools

def join (pools : Pools) : Pools := { pools with counter := { pools.counter with waiting := pools.counter.waiting + 1 } }

def acquire (pools : Pools) : Pools :=
  { pools with counter := { active := pools.counter.active + 1, waiting := pools.counter.waiting - 1 } }

def release (pools : Pools) : Pools := { pools with counter := { pools.counter with active := pools.counter.active - 1 } }

/-- The outer handler, which every failure after the queue was joined goes through. -/
def caught (pools : Pools) : Pools :=
  { pools with counter := { pools.counter with
      waiting := if pools.counter.waiting > 0 then pools.counter.waiting - 1 else pools.counter.waiting } }

/-- The end of a read, with the handler around it. -/
def leave (pools : Pools) (failed : Bool) : Pools × Phase := if failed then (pools.caught, .failed) else (pools, .returned)

/-- The inner `finally`. -/
def finish (pools : Pools) (restores failed : Bool) : Pools × Phase :=
  if restores then (pools.release, .restoring failed) else pools.release.leave failed

/-- A pool of the credential is made, and a connection is asked for. -/
def create (pools : Pools) (poolKey connectionDigest : String) (expiresAt : Option ℕ) (creates : Bool) : Pools × Phase :=
  if creates then ({ pools with entries := pools.entries.set poolKey ⟨expiresAt, connectionDigest⟩ }, .acquiring)
  else pools.leave true

end Pools

def PoolEntry.isStale (entry : PoolEntry) (credential : Credential) (now : ℕ) : Bool :=
  (entry.expiresAt.any fun expires => decide (expires ≤ now)) ||
    decide (entry.connectionDigest ≠ credential.connectionDigest)

/-! ### Steps -/

inductive Event where
  /-- The credential arrives or fails. -/
  | credential (credential : Option Credential) (now : ℕ) (creates : Bool)
  /-- The pool of an old credential has ended or failed to. -/
  | retired (ended creates : Bool)
  /-- The connection arrives, or the wait for it fails or times out. -/
  | connection (acquired : Bool)
  /-- The next statement succeeds or fails. A time zone that is a text is kept. -/
  | statement (succeeds isText : Bool)
  | rolledBack
  | restored

section
variable (source : PoolSource)

/-- The read joins the queue, unless it is full, and asks the pool of its credential for a
    connection. -/
def Pools.admission (pools : Pools) (credential : Credential) (now : ℕ) (creates : Bool) : Pools × Phase :=
  if pools.counter.waiting ≥ source.limit then (pools, .refused)
  else
    match pools.entries.get? credential.poolKey with
    | some entry =>
      if entry.isStale credential now then
        ({ pools.join with entries := pools.entries.filterKeys fun key => key != credential.poolKey },
          .retiring credential.expiresAt credential.poolKey credential.connectionDigest)
      else (pools.join, .acquiring)
    | none => pools.join.create credential.poolKey credential.connectionDigest credential.expiresAt creates

/-- The next statement of a transaction, and what is done when it fails. -/
def Read.execute (read : Read) (pools : Pools) (statement : Statement) (remaining : List Statement)
    (restores succeeds isText : Bool) : Pools × Phase :=
  if succeeds || isOptional source.engine statement then
    (pools, .holding remaining (restores || (decide (statement = .selectTimeZone) && isText)))
  else if rollsBack source.engine read.input statement then (pools, .rollingBack restores)
  else pools.finish restores true

/-- The step of a read. -/
def Read.next (read : Read) (pools : Pools) (event : Event) : Option (Pools × Phase) :=
  match read.phase with
  | .resolving =>
    match event with
    | .credential none _ _ => some (pools, .failed)
    | .credential (some credential) now creates => some (pools.admission source credential now creates)
    | _ => none
  | .retiring expiresAt poolKey connectionDigest =>
    match event with
    | .retired ended creates => some (pools.create poolKey connectionDigest expiresAt (ended && creates))
    | _ => none
  | .acquiring =>
    match event with
    | .connection true => some (pools.acquire, .holding (statements source.engine read.input) false)
    | .connection false => some (pools.leave true)
    | _ => none
  | .holding remaining restores =>
    match event with
    | .statement succeeds isText =>
      match remaining with
      | [] => some (pools.finish restores false)
      | statement :: remaining => some (read.execute source pools statement remaining restores succeeds isText)
    | _ => none
  | .rollingBack restores =>
    match event with
    | .rolledBack => some (pools.finish restores true)
    | _ => none
  | .restoring failed =>
    match event with
    | .restored => some (pools.leave failed)
    | _ => none
  | _ => none

/-- A read is called, or one that is there makes a step. -/
inductive Action where
  | call (input : ReadInput)
  | step (event : Event)

abbrev Reads := System Pools Read

def start : Reads := .empty ⟨⟨0, 0⟩, .empty⟩

def advance (s : Reads) : ℕ × Action → Reads
  | (id, .call input) =>
    match s.phases.get? id with
    | some _ => s
    | none => s.advance id s.shared ⟨input, .resolving⟩
  | (id, .step event) =>
    match s.phases.get? id with
    | none => s
    | some read =>
      match read.next source s.shared event with
      | none => s
      | some (pools, phase) => s.advance id pools { read with phase }

/-! ### What is claimed of the counters -/

/-- The counters are the reads that wait and those that hold a connection. -/
structure Exact (s : Reads) : Prop where
  waiting : s.shared.counter.waiting = s.count Read.isWaiting
  active : s.shared.counter.active = s.count Read.isHolding

/-- A read whose credential arrives is refused exactly when the queue is full. -/
def RefusedWhenFull (s : Reads) (action : ℕ × Action) : Prop :=
  ∀ id credential now creates read, action = (id, .step (.credential (some credential) now creates)) →
    s.phases.get? id = some read → read.phase = .resolving →
      ((((advance source s action).phases.get? id).map Read.phase = some .refused ↔
        s.count Read.isWaiting = source.limit))

/-- The step gives back the connection of a read that has failed. -/
def failsWithConnection (read : Read) : Event → Bool
  | .statement succeeds _ =>
    match read.phase with
    | .holding (statement :: _) restores =>
      !succeeds && !isOptional source.engine statement && !rollsBack source.engine read.input statement && !restores
    | _ => false
  | .rolledBack => decide (read.phase = .rollingBack false)
  | .restored => decide (read.phase = .restoring true)
  | _ => false

/-- The step no longer counts a connection whose time zone is still to be restored. -/
def restoresTimeZone (read : Read) : Event → Bool
  | .statement succeeds _ =>
    match read.phase with
    | .holding [] restores => restores
    | .holding (statement :: _) restores =>
      !succeeds && !isOptional source.engine statement && !rollsBack source.engine read.input statement && restores
    | _ => false
  | .rolledBack => decide (read.phase = .rollingBack true)
  | _ => false

/-- No read fails with a connection while others wait, and none restores a time zone. -/
def Undisturbed (s : Reads) : ℕ × Action → Prop
  | (_, .call _) => True
  | (id, .step event) => ∀ read, s.phases.get? id = some read →
      (failsWithConnection source read event = true → s.count Read.isWaiting = 0) ∧
        restoresTimeZone source read event = false
end

/-! ### What a step does to the counters -/

/-- The counters move with the phase, and no time zone is restored. -/
structure Moves (pools pools' : Pools) (old new : Phase) : Prop where
  waiting : pools'.counter.waiting + old.isWaiting.toNat = pools.counter.waiting + new.isWaiting.toNat
  active : pools'.counter.active + old.isHolding.toNat = pools.counter.active + new.isHolding.toNat
  settled : ∀ failed, new ≠ .restoring failed

section
variable {source : PoolSource} {pools pools' : Pools} {old phase : Phase}

/-- A read that waits takes itself out of the queue when it fails. -/
theorem leave_waiting (positive : 0 < pools.counter.waiting) (waits : old.isWaiting = true)
    (unheld : old.isHolding = false) : Moves pools (pools.leave true).1 old (pools.leave true).2 := by
  refine ⟨?_, ?_, fun failed => by simp [Pools.leave]⟩
  · simp [Pools.leave, Pools.caught, positive, waits, Phase.isWaiting.eq_def .failed]
  · simp [Pools.leave, Pools.caught, unheld, Phase.isHolding.eq_def .failed]

theorem create_moves (poolKey connectionDigest : String) (expiresAt : Option ℕ) (creates : Bool)
    (positive : 0 < pools.counter.waiting) (waits : old.isWaiting = true) (unheld : old.isHolding = false) :
    Moves pools (pools.create poolKey connectionDigest expiresAt creates).1 old
      (pools.create poolKey connectionDigest expiresAt creates).2 := by
  cases creates with
  | true => exact ⟨by rw [waits]; rfl, by rw [unheld]; rfl, fun _ => Phase.noConfusion⟩
  | false => exact leave_waiting positive waits unheld

/-- A read that joins the queue. -/
theorem admit_moves (credential : Credential) (now : ℕ) (creates : Bool) (counted : 0 ≤ pools.counter.waiting) :
    Moves pools (pools.admission source credential now creates).1 .resolving (pools.admission source credential now creates).2 := by
  have joined {phase : Phase} {after : Pools} (moves : Moves pools.join after .acquiring phase) :
      Moves pools after .resolving phase := by
    obtain ⟨waiting, active, settled⟩ := moves
    refine ⟨?_, active, settled⟩
    simp [Pools.join, Phase.isWaiting.eq_def .acquiring, Phase.isWaiting.eq_def .resolving] at waiting ⊢
    omega
  unfold Pools.admission
  split
  · exact ⟨rfl, rfl, fun _ => Phase.noConfusion⟩
  · split
    · split
      · exact joined ⟨rfl, rfl, fun _ => Phase.noConfusion⟩
      · exact joined ⟨rfl, rfl, fun _ => Phase.noConfusion⟩
    · refine joined (create_moves _ _ _ _ ?_ rfl rfl)
      show 0 < pools.counter.waiting + 1
      omega

/-- A read that gives back its connection, and fails only when none waits. -/
theorem finish_moves {restores failed : Bool} (held : old.isHolding = true) (left : old.isWaiting = false)
    (settled : restores = false) (quiet : failed = true → pools.counter.waiting ≤ 0) :
    Moves pools (pools.finish restores failed).1 old (pools.finish restores failed).2 := by
  subst settled
  cases failed with
  | false =>
    refine ⟨by rw [left]; rfl, ?_, fun _ => Phase.noConfusion⟩
    rw [held]
    simp [Pools.finish, Pools.leave, Pools.release, Phase.isHolding.eq_def .returned]
  | true =>
    have empty : ¬ pools.counter.waiting > 0 := by
      have := quiet rfl
      omega
    refine ⟨?_, ?_, fun _ => Phase.noConfusion⟩
    · simp [Pools.finish, Pools.leave, Pools.release, Pools.caught, left, empty, Phase.isWaiting.eq_def .failed]
    · simp [Pools.finish, Pools.leave, Pools.release, Pools.caught, held, Phase.isHolding.eq_def .failed]

theorem execute_moves {input : ReadInput} {statement : Statement} {remaining : List Statement}
    {restores succeeds isText : Bool} {read : Read} (is : read = ⟨input, .holding (statement :: remaining) restores⟩)
    (quiet : failsWithConnection source read (.statement succeeds isText) = true → pools.counter.waiting ≤ 0)
    (settled : restoresTimeZone source read (.statement succeeds isText) = false) :
    Moves pools (read.execute source pools statement remaining restores succeeds isText).1 read.phase
      (read.execute source pools statement remaining restores succeeds isText).2 := by
  subst is
  unfold Read.execute
  by_cases goes : (succeeds || isOptional source.engine statement) = true
  · rw [if_pos goes]
    exact ⟨rfl, rfl, fun _ => Phase.noConfusion⟩
  rw [if_neg goes]
  by_cases inner : rollsBack source.engine input statement = true
  · rw [if_pos inner]
    exact ⟨rfl, rfl, fun _ => Phase.noConfusion⟩
  · rw [if_neg inner]
    simp only [Bool.or_eq_true, not_or, Bool.not_eq_true] at goes inner
    have kept : restores = false := by simpa [restoresTimeZone, goes, inner] using settled
    refine finish_moves rfl rfl kept fun _ => quiet ?_
    simp [failsWithConnection, goes, inner, kept]

/-- Every step moves the counters with the phase, when no read fails with a connection while
    others wait and none restores a time zone. -/
theorem next_moves {read : Read} {event : Event} (stepped : read.next source pools event = some (pools', phase))
    (counted : 0 ≤ pools.counter.waiting) (waits : read.isWaiting = true → 0 < pools.counter.waiting)
    (unrestored : ∀ failed, read.phase ≠ .restoring failed)
    (quiet : failsWithConnection source read event = true → pools.counter.waiting ≤ 0)
    (settled : restoresTimeZone source read event = false) : Moves pools pools' read.phase phase := by
  obtain ⟨input, old⟩ := read
  cases old with
  | resolving =>
    cases event with
    | credential credential now creates =>
      cases credential with
      | none =>
        cases stepped
        exact ⟨rfl, rfl, fun _ => Phase.noConfusion⟩
      | some credential =>
        obtain ⟨rfl, rfl⟩ := Prod.mk.inj (Option.some.inj stepped)
        exact admit_moves credential now creates counted
    | _ => cases stepped
  | retiring expiresAt poolKey connectionDigest =>
    cases event with
    | retired ended creates =>
      obtain ⟨rfl, rfl⟩ := Prod.mk.inj (Option.some.inj stepped)
      exact create_moves _ _ _ _ (waits rfl) rfl rfl
    | _ => cases stepped
  | acquiring =>
    cases event with
    | connection acquired =>
      cases acquired with
      | true =>
        cases stepped
        exact ⟨by simp [Pools.acquire, Phase.isWaiting], by simp [Pools.acquire, Phase.isHolding],
          fun _ => Phase.noConfusion⟩
      | false =>
        obtain ⟨rfl, rfl⟩ := Prod.mk.inj (Option.some.inj stepped)
        exact leave_waiting (waits rfl) rfl rfl
    | _ => cases stepped
  | holding remaining restores =>
    cases event with
    | statement succeeds isText =>
      cases remaining with
      | nil =>
        obtain ⟨rfl, rfl⟩ := Prod.mk.inj (Option.some.inj stepped)
        exact finish_moves rfl rfl settled fun failed => by cases failed
      | cons statement remaining =>
        obtain ⟨rfl, rfl⟩ := Prod.mk.inj (Option.some.inj stepped)
        exact execute_moves rfl quiet settled
    | _ => cases stepped
  | rollingBack restores =>
    cases event with
    | rolledBack =>
      obtain ⟨rfl, rfl⟩ := Prod.mk.inj (Option.some.inj stepped)
      have kept : restores = false := by simpa [restoresTimeZone] using settled
      exact finish_moves rfl rfl kept fun _ => quiet (by simp [failsWithConnection, kept])
    | _ => cases stepped
  | restoring failed => exact absurd rfl (unrestored failed)
  | returned => cases event <;> cases stepped
  | refused => cases event <;> cases stepped
  | failed => cases event <;> cases stepped

/-- A read that finds the queue full is refused, and no other. -/
theorem admit_refused_iff (credential : Credential) (now : ℕ) (creates : Bool) :
    (pools.admission source credential now creates).2 = .refused ↔ source.limit ≤ pools.counter.waiting := by
  unfold Pools.admission
  split
  · next full => simpa using full
  · next free =>
    refine iff_of_false ?_ (by omega)
    split
    · split <;> exact Phase.noConfusion
    · cases creates <;> exact Phase.noConfusion
/-- The end of a read is no place in the queue. -/
theorem finish_left {restores failed : Bool} (finished : pools.finish restores failed = (pools', phase)) :
    phase.isWaiting = false := by
  cases restores <;> cases failed <;> cases finished <;> rfl

/-- A read joins the queue when it is not full. -/
theorem next_joins {read : Read} {event : Event} (stepped : read.next source pools event = some (pools', phase))
    (waits : phase.isWaiting = true) : read.isWaiting = true ∨ pools.counter.waiting < source.limit := by
  obtain ⟨input, old⟩ := read
  cases old with
  | resolving =>
    cases event with
    | credential credential now creates =>
      cases credential with
      | none =>
        cases stepped
        cases waits
      | some credential =>
        by_cases full : pools.counter.waiting ≥ source.limit
        · have is : pools.admission source credential now creates = (pools', phase) := Option.some.inj stepped
          rw [Pools.admission, if_pos full] at is
          cases is
          cases waits
        · exact .inr (by omega)
    | _ => cases stepped
  | retiring expiresAt poolKey connectionDigest => exact .inl rfl
  | acquiring => exact .inl rfl
  | holding remaining restores =>
    cases event with
    | statement succeeds isText =>
      cases remaining with
      | nil =>
        have is : pools.finish restores false = (pools', phase) := Option.some.inj stepped
        exact absurd waits (by simp [finish_left is])
      | cons statement remaining =>
        have is : (Read.mk input (.holding (statement :: remaining) restores)).execute source pools statement remaining
            restores succeeds isText = (pools', phase) := Option.some.inj stepped
        unfold Read.execute at is
        split at is
        · cases is
          cases waits
        split at is
        · cases is
          cases waits
        · exact absurd waits (by simp [finish_left is])
    | _ => cases stepped
  | rollingBack restores =>
    cases event with
    | rolledBack =>
      have is : pools.finish restores true = (pools', phase) := Option.some.inj stepped
      exact absurd waits (by simp [finish_left is])
    | _ => cases stepped
  | restoring failed =>
    cases event with
    | restored =>
      obtain ⟨rfl, rfl⟩ := Prod.mk.inj (Option.some.inj stepped)
      cases failed <;> cases waits
    | _ => cases stepped
  | returned => cases event <;> cases stepped
  | refused => cases event <;> cases stepped
  | failed => cases event <;> cases stepped
end

/-! ### Runs -/

section
variable {source : PoolSource} {s : Reads}

/-- The counters are exact, no time zone is being restored, and the queue keeps to its limit. -/
structure Inv (source : PoolSource) (s : Reads) : Prop where
  exact : Exact s
  unrestored : ∀ id read, s.phases.get? id = some read → ∀ failed, read.phase ≠ .restoring failed
  bounded : s.count Read.isWaiting ≤ source.limit

theorem Inv.start (source : PoolSource) : Inv source start where
  exact := ⟨rfl, rfl⟩
  unrestored id read found := by cases found
  bounded := Nat.zero_le _

theorem Inv.call (inv : Inv source s) {id : ℕ} (absent : s.phases.get? id = none) (input : ReadInput) :
    Inv source (s.advance id s.shared ⟨input, .resolving⟩) := by
  have waiting := System.count_begin Read.isWaiting absent s.shared ⟨input, .resolving⟩
  have holding := System.count_begin Read.isHolding absent s.shared ⟨input, .resolving⟩
  have zero : (Read.mk input .resolving).isWaiting.toNat = 0 ∧
      (Read.mk input .resolving).isHolding.toNat = 0 := ⟨rfl, rfl⟩
  rw [zero.1, Nat.add_zero] at waiting
  rw [zero.2, Nat.add_zero] at holding
  constructor
  · exact ⟨by rw [waiting]; exact inv.exact.waiting, by rw [holding]; exact inv.exact.active⟩
  · intro id' read found failed
    rw [System.phase_advance] at found
    split at found
    · cases found
      exact Phase.noConfusion
    · exact inv.unrestored id' read found failed
  · rw [waiting]
    exact inv.bounded

theorem Inv.next (inv : Inv source s) {id : ℕ} {read : Read} (found : s.phases.get? id = some read) {event : Event}
    {pools : Pools} {phase : Phase} (stepped : read.next source s.shared event = some (pools, phase))
    (undisturbed : Undisturbed source s (id, .step event)) : Inv source (s.advance id pools { read with phase }) := by
  obtain ⟨waitingExact, activeExact⟩ := inv.exact
  obtain ⟨quiet, settled⟩ := undisturbed read found
  have moves : Moves s.shared pools read.phase phase := by
    refine next_moves stepped (by omega) (fun waits => ?_) (inv.unrestored id read found) (fun fails => ?_) settled
    · have counted := System.count_pos found waits
      omega
    · have none := quiet fails
      omega
  have waiting := System.count_advance Read.isWaiting found pools { read with phase }
  have holding := System.count_advance Read.isHolding found pools { read with phase }
  have moved := moves.waiting
  have held := moves.active
  simp only [Read.isWaiting, Read.isHolding] at waiting holding
  refine ⟨⟨?_, ?_⟩, fun id' read' found' => ?_, ?_⟩
  · rw [System.advance_shared]
    omega
  · rw [System.advance_shared]
    omega
  · rw [System.phase_advance] at found'
    split at found'
    · cases found'
      exact moves.settled
    · exact inv.unrestored id' read' found'
  · have bounded := inv.bounded
    cases waits : phase.isWaiting with
    | false =>
      rw [waits] at waiting
      simp only [Bool.toNat_false] at waiting
      omega
    | true =>
      rw [waits] at waiting
      rcases next_joins stepped waits with before | free
      · rw [show read.phase.isWaiting = true from before] at waiting
        omega
      · have more := Bool.toNat_le read.phase.isWaiting
        simp only [Bool.toNat_true] at waiting
        omega

theorem Inv.advance (inv : Inv source s) {action : ℕ × Action} (undisturbed : Undisturbed source s action) :
    Inv source (advance source s action) := by
  obtain ⟨id, action⟩ := action
  cases action with
  | call input =>
    unfold DatabasePools.advance
    dsimp only
    cases found : s.phases.get? id with
    | some read => exact inv
    | none => exact inv.call found input
  | step event =>
    unfold DatabasePools.advance
    dsimp only
    cases found : s.phases.get? id with
    | none => exact inv
    | some read =>
      dsimp only
      cases stepped : read.next source s.shared event with
      | none => exact inv
      | some after => exact inv.next found stepped undisturbed

theorem Inv.refusedWhenFull (inv : Inv source s) (action : ℕ × Action) : RefusedWhenFull source s action := by
  rintro id credential now creates ⟨input, phase⟩ rfl found resolving
  obtain rfl : phase = .resolving := resolving
  have after : (((DatabasePools.advance source s (id, .step (.credential (some credential) now creates))).phases.get? id).map
      Read.phase) = some (s.shared.admission source credential now creates).2 := by
    simp [DatabasePools.advance, found, Read.next, System.phase_advance]
  rw [after, Option.some.injEq, admit_refused_iff]
  have counted := inv.exact.waiting
  have bounded := inv.bounded
  omega

/-- In the runs in which no read fails with a connection while others wait and none restores a
    time zone, the counters are exact and a read is refused exactly when the queue is full. -/
theorem read_accounts (source : PoolSource) (actions : List (ℕ × Action))
    (undisturbed : Throughout (advance source) (Undisturbed source) start actions) :
    Exact (run (advance source) start actions) ∧
      Throughout (advance source) (RefusedWhenFull source) start actions :=
  ⟨(invariant_of_throughout (Inv source) (fun _ _ inv meets => inv.advance meets) undisturbed (.start source)).exact,
    throughout_of_invariant (Inv source) (fun _ _ inv meets => inv.advance meets)
      (fun _ action inv _ => inv.refusedWhenFull action) undisturbed (.start source)⟩
end

/-- A source with room for one read that waits. -/
def smallSource : PoolSource := { engine := .postgres, maxConnections := some 1, queueLimit := some 1 }

def plainRead : ReadInput := { readOnly := true, utc := false, timed := false, rlsTargets := 0, scopes := false }

def join (id : ℕ) : List (ℕ × Action) :=
  [(id, .call plainRead), (id, .step (.credential (some ⟨"k", "d", none⟩) 0 true))]

/-- The first read gets its connection and fails, and then another one waits. -/
theorem lone_failure_counted : Exact (run (advance smallSource) start
    (join 1 ++ [(1, .step (.connection true)), (1, .step (.statement false false)), (1, .step .rolledBack)] ++ join 2)) := by
  have undisturbed : Throughout (advance smallSource) (Undisturbed smallSource) start (join 1 ++
      [(1, .step (.connection true)), (1, .step (.statement false false)), (1, .step .rolledBack)] ++ join 2) := by
    refine ⟨trivial, ?_, ?_, ?_, ?_, trivial, ?_, trivial⟩
    · exact fun read _ => ⟨fun fails => (by cases fails), rfl⟩
    · exact fun read _ => ⟨fun fails => (by cases fails), rfl⟩
    · intro read found
      cases found
      exact ⟨fun fails => (by cases fails), rfl⟩
    · intro read found
      cases found
      exact ⟨fun _ => rfl, rfl⟩
    · exact fun read _ => ⟨fun fails => (by cases fails), rfl⟩
  exact (read_accounts smallSource _ undisturbed).1

/-- A query fails while another read waits, which the counter no longer shows. -/
theorem failed_query_leaves_queue : ¬ ∀ (source : PoolSource) (actions : List (ℕ × Action)),
    Exact (run (advance source) start actions) := by
  intro claimed
  have waiting := (claimed smallSource (join 1 ++ [(1, .step (.connection true))] ++ join 2 ++
    [(1, .step (.statement false false)), (1, .step .rolledBack)])).waiting
  revert waiting
  decide

end SynapsorRunner.DatabasePools
