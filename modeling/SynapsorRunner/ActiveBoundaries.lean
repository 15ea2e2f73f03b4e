import Mathlib.Data.List.Dedup
import Mathlib.Data.List.Nodup
import Mathlib.Data.List.Permutation
import Mathlib.Logic.Function.Basic
import SynapsorRunner.Runs

/-!
The registry of active exploration boundaries, and the calls that change it. The registry
is a file with the active boundaries, up to eight of different names; where it is missing
the older file with one boundary counts. A call takes a lock file, reads, writes the older
file and then the registry, and removes the lock file.

A call that waits removes a lock file by its age, and a call removes whatever lock file is
there at its end. So two calls are never inside the lock, and no update is lost, in the runs
where a lock file is removed by age only after the end of the call that made it, and where no
call stops between its two writes while there is no registry (`updates_serialised`).
-/
namespace SynapsorRunner.ActiveBoundaries
open SynapsorRunner.Runs

/-! ### Boundaries -/

/-- What the registry reads of an activated boundary. -/
structure Boundary where
  name : String
  digest : String
  source : String
  deploymentProfile : String
  trustedContext : String
  organizationScope : Option String
  deriving DecidableEq

/-- `MAX_ACTIVE_EXPLORATION_BOUNDARIES`. -/
def maxActive : ℕ := 8

/-- Boundaries that can be active together: of different names, and not too many. -/
structure ActiveList where
  boundaries : List Boundary
  unique : (boundaries.map Boundary.name).Nodup
  bounded : boundaries.length ≤ maxActive
  deriving DecidableEq

def ActiveList.one (b : Boundary) : ActiveList := ⟨[b], List.nodup_singleton _, by simp [maxActive]⟩

theorem nodup_others {l : List Boundary} (unique : (l.map Boundary.name).Nodup) (keep : Boundary → Bool) :
    ((l.filter keep).map Boundary.name).Nodup := unique.sublist (List.filter_sublist.map _)

theorem nodup_added {l : List Boundary} (unique : (l.map Boundary.name).Nodup) (b : Boundary) :
    ((l.filter (fun c => c.name ≠ b.name) ++ [b]).map Boundary.name).Nodup := by
  rw [List.map_append, List.nodup_append]
  refine ⟨nodup_others unique _, List.nodup_singleton _, ?_⟩
  intro name old other new same
  obtain ⟨c, member, rfl⟩ := List.mem_map.mp old
  have differ := (List.mem_filter.mp member).2
  rw [List.map_singleton, List.mem_singleton] at new
  simp [same, new] at differ

/-- The boundaries but for one name. -/
def ActiveList.without (active : ActiveList) (name : String) : ActiveList where
  boundaries := active.boundaries.filter fun b => b.name ≠ name
  unique := nodup_others active.unique _
  bounded := Nat.le_trans (List.length_filter_le _ _) active.bounded

/-- Active boundaries with the one of them that the older file shows. -/
structure Selection where
  boundaries : ActiveList
  selected : Boundary
  active : selected ∈ boundaries.boundaries
  deriving DecidableEq

/-- All elements have the same value. -/
def uniform {α β : Type} [DecidableEq β] (f : α → β) (l : List α) : Bool := decide ((l.map f).dedup.length = 1)

/-- The boundaries with one more, which takes the place of the one of its name:
    `writeActivatedExplorationBoundarySetUnlocked` up to its writes. -/
def ActiveList.adding (active : Option ActiveList) (b : Boundary) : Except String Selection :=
  let before : List Boundary := (active.map ActiveList.boundaries).getD []
  let boundaries := before.filter (fun c => c.name ≠ b.name) ++ [b]
  have unique : (before.map Boundary.name).Nodup := by
    cases active with
    | none => exact List.nodup_nil
    | some active => exact active.unique
  if small : boundaries.length ≤ maxActive then
    if !uniform Boundary.source boundaries || !uniform Boundary.deploymentProfile boundaries then
      .error "Active Explore boundaries must use the same reviewed source and deployment profile."
    else if !uniform Boundary.trustedContext boundaries then
      .error "Active Explore boundaries must use the same reviewed trusted-context bindings."
    else if !uniform Boundary.organizationScope boundaries then
      .error "Active Explore boundaries must use the same reviewed organization-scope posture."
    else .ok ⟨⟨boundaries, nodup_added unique b, small⟩, b, by simp [boundaries]⟩
  else .error "Scoped Explore supports at most 8 simultaneously active reviewed boundaries."

/-! ### Files -/

/-- `ActiveExplorationBoundarySet`. -/
structure ActiveExplorationBoundarySet extends Selection where
  updatedAt : Int
  deriving DecidableEq

/-- `exploration-boundary.active.json` and the registry. -/
structure Files where
  legacy : Option Boundary
  registry : Option ActiveExplorationBoundarySet
  deriving DecidableEq

/-- `loadActivatedExplorationBoundaries`: the older file counts where the registry is
    missing. -/
def load (files : Files) : Option ActiveList :=
  match files.registry with
  | some set => some set.boundaries
  | none => files.legacy.map ActiveList.one

theorem load_of_registry {files : Files} {set : ActiveExplorationBoundarySet} (present : files.registry = some set) :
    load files = some set.boundaries := by
  rw [load, present]

/-- Only the registry counts where there is one. -/
theorem load_registry_only {files : Files} (present : files.registry.isSome) (legacy : Option Boundary) :
    load ⟨legacy, files.registry⟩ = load files := by
  obtain ⟨set, found⟩ := Option.isSome_iff_exists.mp present
  have first : load files = some set.boundaries := load_of_registry found
  have second : load ⟨legacy, files.registry⟩ = some set.boundaries := load_of_registry found
  rw [first, second]

/-- `activateExplorationBoundary` in its two modes, and `deactivateExplorationBoundary`. -/
inductive Update where
  | add (b : Boundary)
  | replace (b : Boundary)
  | deactivate (name : Option String)
  deriving DecidableEq

/-- What an update writes. -/
inductive Writes where
  | nothing
  | activate (selection : Selection)
  | remove
  deriving DecidableEq

/-- `deactivateExplorationBoundaryUnlocked` up to its writes. No name, or an empty one, is
    every boundary. -/
def deactivation (active : ActiveList) (name : Option String) : Except String Writes :=
  if name.getD "" = "" then .ok .remove
  else if active.boundaries.all fun b => b.name ≠ name.getD "" then
    .error ("Boundary " ++ name.getD "" ++ " is not active.")
  else match last : (active.without (name.getD "")).boundaries.getLast? with
    | none => .ok .remove
    | some selected => .ok (.activate ⟨active.without (name.getD ""), selected, List.mem_of_getLast? last⟩)

/-- An update up to its writes. -/
def plan (active : Option ActiveList) : Update → Except String Writes
  | .add b => (ActiveList.adding active b).map .activate
  | .replace b => (ActiveList.adding none b).map .activate
  | .deactivate name => match active with
    | none => .ok .nothing
    | some active => deactivation active name

/-- What is active after the writes of an update. -/
def Writes.after (active : Option ActiveList) : Writes → Option ActiveList
  | nothing => active
  | activate selection => some selection.boundaries
  | remove => none

/-- An update as one step. -/
def apply (active : Option ActiveList) (u : Update) : Option ActiveList :=
  match plan active u with
  | .error _ => active
  | .ok writes => writes.after active

/-- Updates one after the other. -/
def replay (active : Option ActiveList) (updates : List Update) : Option ActiveList := updates.foldl apply active

theorem replay_append (active : Option ActiveList) (updates : List Update) (u : Update) :
    replay active (updates ++ [u]) = apply (replay active updates) u := by
  simp [replay]

theorem apply_of_plan {active : Option ActiveList} {u : Update} {writes : Writes} (planned : plan active u = .ok writes) :
    apply active u = writes.after active := by
  rw [apply, planned]

/-! ### Calls -/

/-- A call, in a process of its own or not. -/
abbrev Call := ℕ

/-- The lock file: the call that created it, and its time. -/
structure LockFile where
  owner : Call
  mtime : Int
  deriving DecidableEq

/-- The next file operation of a call. -/
inductive Phase where
  | idle
  | opening (u : Update) (deadline : Int)
  | creating (u : Update)
  | abandoning
  | statting (u : Update) (deadline : Int)
  | removing (u : Update) (deadline : Int)
  | loading (u : Update)
  | loadingLegacy (u : Update)
  | capturing (u : Update) (writes : Writes)
  | writingLegacy (u : Update) (writes : Writes) (snapshot : Option Boundary)
  | guardingLegacy (u : Update) (writes : Writes) (snapshot : Option Boundary)
  | persisting (u : Update) (writes : Writes) (snapshot : Option Boundary)
  | guardingRegistry (u : Update) (snapshot : Option Boundary)
  | restoring (u : Update) (snapshot : Option Boundary)
  | releasing (outcome : Except String Unit)
  | ended (outcome : Except String Unit)
  | crashed

/-- Inside the operation under the lock. -/
def Phase.Inside : Phase → Prop
  | loading _ | loadingLegacy _ | capturing .. | writingLegacy .. | guardingLegacy .. | persisting .. |
    guardingRegistry .. | restoring .. => True
  | _ => False

/-- Between the creation of the lock file and its removal. -/
def Phase.Holds : Phase → Prop
  | creating _ | abandoning | releasing _ => True
  | phase => phase.Inside

/-- The older file is written and the registry is not. -/
def Phase.Between : Phase → Prop
  | guardingLegacy .. | persisting .. | restoring .. => True
  | _ => False

/-- The call has come to an end. -/
def Phase.Over : Phase → Prop
  | ended _ | crashed => True
  | _ => False

/-- The files, the calls, and the updates that took place, in their order. -/
structure State where
  files : Files
  lock : Option LockFile
  phase : Call → Phase
  completed : List Update

def State.start (files : Files) : State := ⟨files, none, fun _ => .idle, []⟩

def State.moved (s : State) (c : Call) (phase : Phase) : State := { s with phase := Function.update s.phase c phase }

/-- `ACTIVE_EXPLORATION_BOUNDARY_LOCK_TIMEOUT_MS` and
    `ACTIVE_EXPLORATION_BOUNDARY_STALE_LOCK_MS`. -/
def lockTimeout : Int := 5000
def staleLock : Int := 30000

def updating : String := "Another boundary activation is still updating the active authority. Retry the operation."

/-- A lock file is there that is not stale. -/
def waiting (u : Update) (deadline now : Int) : Phase :=
  if deadline ≤ now then .ended (.error updating) else .opening u deadline

/-- The older file as an update writes it. -/
def Writes.legacy (before : Option Boundary) : Writes → Option Boundary
  | nothing => before
  | activate selection => some selection.selected
  | remove => none

/-- The registry as an update writes it. -/
def Writes.registry (before : Option ActiveExplorationBoundarySet) (now : Int) :
    Writes → Option ActiveExplorationBoundarySet
  | nothing => before
  | activate selection => some ⟨selection, now⟩
  | remove => none

/-- After the older file is written or removed; a written file gets its mode. -/
def Writes.legacyDone (u : Update) (snapshot : Option Boundary) : Writes → Phase
  | remove => .persisting u .remove snapshot
  | writes => .guardingLegacy u writes snapshot

/-- After the registry is written or removed. -/
def Writes.registryDone (u : Update) (snapshot : Option Boundary) : Writes → Phase
  | remove => .releasing (.ok ())
  | _ => .guardingRegistry u snapshot

/-- The update after its reads. -/
def planned (s : State) (c : Call) (u : Update) (active : Option ActiveList) : State :=
  match plan active u with
  | .error message => s.moved c (.releasing (.error message))
  | .ok .nothing => { s with completed := s.completed ++ [u] }.moved c (.releasing (.ok ()))
  | .ok writes => s.moved c (.capturing u writes)

/-- A call does its next file operation: `withActiveExplorationBoundaryLock` around an update. -/
def act (s : State) (c : Call) (now : Int) : State :=
  match s.phase c with
  | .opening u deadline => match s.lock with
    | none => { s with lock := some ⟨c, now⟩ }.moved c (.creating u)
    | some _ => s.moved c (.statting u deadline)
  | .creating u =>
    { s with lock := s.lock.map fun (file : LockFile) => if file.owner = c then { file with mtime := now } else file
      }.moved c (.loading u)
  | .abandoning => { s with lock := none }.moved c (.ended (.error "lock file"))
  | .statting u deadline => match s.lock with
    | none => s.moved c (waiting u deadline now)
    | some file =>
      if staleLock < now - file.mtime then s.moved c (.removing u deadline) else s.moved c (waiting u deadline now)
  | .removing u deadline => { s with lock := none }.moved c (.opening u deadline)
  | .loading u => match s.files.registry with
    | none => s.moved c (.loadingLegacy u)
    | some set => planned s c u (some set.boundaries)
  | .loadingLegacy u => planned s c u (s.files.legacy.map ActiveList.one)
  | .capturing u writes => s.moved c (.writingLegacy u writes s.files.legacy)
  | .writingLegacy u writes snapshot =>
    { s with files := { s.files with legacy := writes.legacy s.files.legacy } }.moved c (writes.legacyDone u snapshot)
  | .guardingLegacy u writes snapshot => s.moved c (.persisting u writes snapshot)
  | .persisting u writes snapshot =>
    { s with files := { s.files with registry := writes.registry s.files.registry now }
             completed := s.completed ++ [u] }.moved c (writes.registryDone u snapshot)
  | .guardingRegistry _ _ => s.moved c (.releasing (.ok ()))
  | .restoring _ snapshot =>
    { s with files := { s.files with legacy := snapshot } }.moved c (.releasing (.error "registry"))
  | .releasing outcome => { s with lock := none }.moved c (.ended outcome)
  | .idle | .ended _ | .crashed => s

/-- The next file operation of a call throws. The mode of a file is set after the file took
    its place, so the file stays then. -/
def fail (s : State) (c : Call) (now : Int) : State :=
  match s.phase c with
  | .opening _ _ => s.moved c (.ended (.error "lock file"))
  | .creating _ => s.moved c .abandoning
  | .abandoning => s.moved c (.ended (.error "lock file"))
  | .statting u deadline => s.moved c (waiting u deadline now)
  | .removing u deadline => s.moved c (.opening u deadline)
  | .loading _ | .loadingLegacy _ | .capturing _ _ | .writingLegacy _ _ _ | .guardingLegacy _ _ _ =>
    s.moved c (.releasing (.error "files"))
  | .persisting u _ snapshot | .guardingRegistry u snapshot => s.moved c (.restoring u snapshot)
  | .restoring _ _ => s.moved c (.releasing (.error "files"))
  | .releasing outcome => s.moved c (.ended outcome)
  | .idle | .ended _ | .crashed => s

inductive Event where
  | start (c : Call) (u : Update) (now : Int)
  | act (c : Call) (now : Int)
  | fail (c : Call) (now : Int)
  | crash (c : Call)

def step (s : State) : Event → State
  | .start c u now => match s.phase c with
    | .idle => s.moved c (.opening u (now + lockTimeout))
    | _ => s
  | .act c now => act s c now
  | .fail c now => fail s c now
  | .crash c => s.moved c .crashed

/-! ### Serialised updates -/

/-- The active boundaries are those of the updates that took place, in some order. -/
def Serial (files : Files) (s : State) : Prop :=
  ∃ order : List Update, order.Perm s.completed ∧ load s.files = replay (load files) order

/-- One call at a time is inside the lock, and the files are the result of the updates
    when none is. -/
def Serialised (files : Files) (s : State) : Prop :=
  (∀ c d, (s.phase c).Inside → (s.phase d).Inside → c = d) ∧ ((∀ c, ¬ (s.phase c).Inside) → Serial files s)

/-- A lock file is removed by age only if the call that made it has come to an end. -/
def Unowned (s : State) : Phase → Prop
  | .removing .. => ∀ file, s.lock = some file → (s.phase file.owner).Over
  | _ => True

/-- Where the next operation of a call throws, the call does not leave the older file
    written without a registry. -/
def Recovers (s : State) : Phase → Prop
  | .guardingLegacy .. | .restoring .. => s.files.registry.isSome
  | _ => True

/-- What keeps the updates serialised. -/
def Safe (s : State) : Event → Prop
  | .start .. => True
  | .act c _ => Unowned s (s.phase c)
  | .fail c _ => Recovers s (s.phase c)
  | .crash c => (s.phase c).Between → s.files.registry.isSome

theorem holds_of_inside {phase : Phase} (inside : phase.Inside) : phase.Holds := by
  cases phase <;> first | exact inside | trivial

theorem not_holds_of_over {phase : Phase} (finished : phase.Over) : ¬ phase.Holds := by
  cases phase <;> simp_all [Phase.Over, Phase.Holds, Phase.Inside]

theorem inside_of_between {phase : Phase} (between : phase.Between) : phase.Inside := by
  cases phase <;> first | exact between | trivial

/-- What a call knows of the files, for the boundaries that the updates so far give. -/
def Phase.Knows (files : Files) (active : Option ActiveList) : Phase → Prop
  | loadingLegacy _ => files.registry = none
  | capturing u writes => plan active u = .ok writes ∧ writes ≠ .nothing
  | writingLegacy u writes snapshot => plan active u = .ok writes ∧ writes ≠ .nothing ∧ snapshot = files.legacy
  | guardingLegacy u writes snapshot | persisting u writes snapshot =>
    plan active u = .ok writes ∧ writes ≠ .nothing ∧ load ⟨snapshot, files.registry⟩ = active ∧
      files.legacy = writes.legacy snapshot
  | guardingRegistry _ _ => files.registry.isSome
  | restoring _ snapshot => load ⟨snapshot, files.registry⟩ = active
  | _ => True

theorem knows_of_not_holds {phase : Phase} (free : ¬ phase.Holds) (files : Files) (active : Option ActiveList) :
    phase.Knows files active := by
  cases phase <;> first | trivial | exact absurd trivial free

/-- What the runs that meet the condition keep. -/
structure Invariant (files : Files) (s : State) : Prop where
  owner : ∀ c, (s.phase c).Holds → ∃ file, s.lock = some file ∧ file.owner = c
  calm : (∀ c, ¬ (s.phase c).Between) → load s.files = replay (load files) s.completed
  knows : ∀ c, (s.phase c).Knows s.files (replay (load files) s.completed)

section Steps
variable {files : Files} {s : State} {c : Call} {p : Phase}

@[simp] theorem moved_files : (s.moved c p).files = s.files := rfl
@[simp] theorem moved_lock : (s.moved c p).lock = s.lock := rfl
@[simp] theorem moved_completed : (s.moved c p).completed = s.completed := rfl
@[simp] theorem moved_self : (s.moved c p).phase c = p := by simp [State.moved]
theorem moved_other {d : Call} (other : d ≠ c) : (s.moved c p).phase d = s.phase d := by
  simp [State.moved, Function.update_of_ne other]

theorem invariant_start : Invariant files (State.start files) :=
  ⟨fun _ holds => absurd holds (by simp [State.start, Phase.Holds, Phase.Inside]), fun _ => rfl, fun _ => trivial⟩

/-- One call at a time has the lock. -/
theorem Invariant.alone (inv : Invariant files s) {d : Call} (holds : (s.phase c).Holds) (other : d ≠ c) :
    ¬ (s.phase d).Holds := by
  intro too
  obtain ⟨file, found, mine⟩ := inv.owner c holds
  obtain ⟨file', found', yours⟩ := inv.owner d too
  rw [found, Option.some.injEq] at found'
  exact other (by rw [← yours, ← found', mine])

theorem Invariant.loaded (inv : Invariant files s) (holds : (s.phase c).Holds) (still : ¬ (s.phase c).Between) :
    load s.files = replay (load files) s.completed := by
  refine inv.calm fun d => ?_
  by_cases same : d = c
  · rw [same]
    exact still
  · exact fun between => inv.alone holds same (holds_of_inside (inside_of_between between))

/-- A step of a call that writes nothing. -/
theorem Invariant.moved (inv : Invariant files s) (lock : Option LockFile)
    (others : ∀ d, d ≠ c → (s.phase d).Holds → ∃ file, lock = some file ∧ file.owner = d)
    (self : p.Holds → ∃ file, lock = some file ∧ file.owner = c)
    (knows : p.Knows s.files (replay (load files) s.completed))
    (calm : (s.phase c).Between → p.Between ∨ load s.files = replay (load files) s.completed) :
    Invariant files ({ s with lock := lock }.moved c p) := by
  refine ⟨?_, ?_, ?_⟩
  · intro d holds
    by_cases same : d = c
    · subst same
      rw [moved_self] at holds
      exact self holds
    · rw [moved_other same] at holds
      exact others d same holds
  · intro still
    have mine := still c
    rw [moved_self] at mine
    by_cases between : (s.phase c).Between
    · rcases calm between with next | loaded
      · exact absurd next mine
      · exact loaded
    · refine inv.calm fun d => ?_
      by_cases same : d = c
      · rw [same]
        exact between
      · have other := still d
        rwa [moved_other same] at other
  · intro d
    by_cases same : d = c
    · subst same
      rw [moved_self]
      exact knows
    · rw [moved_other same]
      exact inv.knows d

/-- A step of a call that keeps the lock file. -/
theorem Invariant.kept (inv : Invariant files s) (self : p.Holds → (s.phase c).Holds)
    (knows : p.Knows s.files (replay (load files) s.completed))
    (calm : (s.phase c).Between → p.Between ∨ load s.files = replay (load files) s.completed) :
    Invariant files (s.moved c p) :=
  inv.moved s.lock (fun d _ holds => inv.owner d holds) (fun holds => inv.owner c (self holds)) knows calm

/-- A step of the call with the lock that removes the lock file. -/
theorem Invariant.released (inv : Invariant files s) (holds : (s.phase c).Holds) (still : ¬ (s.phase c).Between)
    (free : ¬ p.Holds) : Invariant files ({ s with lock := none }.moved c p) :=
  inv.moved none (fun _ other too => absurd too (inv.alone holds other)) (fun too => absurd too free)
    (knows_of_not_holds free _ _) (fun between => absurd between still)

/-- A step of the call with the lock that writes. -/
theorem Invariant.written (inv : Invariant files s) (holds : (s.phase c).Holds) {after : Files} {completed : List Update}
    (knows : p.Knows after (replay (load files) completed))
    (calm : ¬ p.Between → load after = replay (load files) completed) :
    Invariant files ({ s with files := after, completed := completed }.moved c p) := by
  refine ⟨?_, ?_, ?_⟩
  · intro d too
    by_cases same : d = c
    · rw [same]
      exact inv.owner c holds
    · rw [moved_other same] at too
      exact absurd too (inv.alone holds same)
  · intro still
    have mine := still c
    rw [moved_self] at mine
    exact calm mine
  · intro d
    by_cases same : d = c
    · subst same
      rw [moved_self]
      exact knows
    · rw [moved_other same]
      exact knows_of_not_holds (inv.alone holds same) _ _

theorem waiting_free (u : Update) (deadline now : Int) : ¬ (waiting u deadline now).Holds := by
  rw [waiting]
  by_cases late : deadline ≤ now
  · rw [if_pos late]
    exact id
  · rw [if_neg late]
    exact id

/-- A step of a call that neither had the lock nor has it then. -/
theorem Invariant.outside (inv : Invariant files s) (still : ¬ (s.phase c).Between) (free : ¬ p.Holds) :
    Invariant files (s.moved c p) :=
  inv.kept (fun holds => absurd holds free) (knows_of_not_holds free _ _) (fun between => absurd between still)

theorem Invariant.planned (inv : Invariant files s) (holds : (s.phase c).Holds) (still : ¬ (s.phase c).Between)
    (u : Update) : Invariant files (planned s c u (load s.files)) := by
  have loaded := inv.loaded holds still
  rw [ActiveBoundaries.planned]
  cases result : plan (load s.files) u with
  | error message => exact inv.kept (fun _ => holds) trivial (fun between => absurd between still)
  | ok writes =>
    cases writes with
    | nothing =>
      refine inv.written holds trivial fun _ => ?_
      rw [replay_append, ← loaded, apply_of_plan result]
      rfl
    | activate selection =>
      refine inv.kept (fun _ => holds) ?_ (fun between => absurd between still)
      exact ⟨by rw [← loaded, result], by simp⟩
    | remove =>
      refine inv.kept (fun _ => holds) ?_ (fun between => absurd between still)
      exact ⟨by rw [← loaded, result], by simp⟩

end Steps

/-- What is active once both files are written. -/
theorem load_written {writes : Writes} (real : writes ≠ .nothing) (active : Option ActiveList) (files : Files)
    (now : Int) {snapshot : Option Boundary} (legacy : files.legacy = writes.legacy snapshot) :
    load { files with registry := writes.registry files.registry now } = writes.after active := by
  cases writes with
  | nothing => exact absurd rfl real
  | activate selection => rfl
  | remove =>
    rw [load]
    simp [Writes.registry, Writes.after, legacy, Writes.legacy]

/-- The next file operation of a call keeps the invariant, if it removes no lock file of a
    call that has not come to an end. -/
theorem Invariant.act {files : Files} {s : State} (inv : Invariant files s) (c : Call) (now : Int)
    (safe : Unowned s (s.phase c)) : Invariant files (act s c now) := by
  have mine := inv.knows c
  have alone := @Invariant.alone files s c inv
  rw [ActiveBoundaries.act]
  cases phase : s.phase c with
  | idle | ended _ | crashed => exact inv
  | opening u deadline =>
    cases found : s.lock with
    | none =>
      refine inv.moved _ (fun d _ holds => ?_) (fun _ => ⟨_, rfl, rfl⟩) trivial (by simp [phase, Phase.Between])
      obtain ⟨file, there, -⟩ := inv.owner d holds
      rw [found] at there
      cases there
    | some file => exact inv.outside (by simp [phase, Phase.Between]) id
  | creating u =>
    refine inv.moved _ (fun d other holds => ?_) (fun _ => ?_) trivial (by simp [phase, Phase.Between])
    · exact absurd holds (inv.alone (by simp [phase, Phase.Holds]) other)
    · obtain ⟨file, there, owned⟩ := inv.owner c (by simp [phase, Phase.Holds])
      exact ⟨{ file with mtime := now }, by simp [there, owned], owned⟩
  | abandoning =>
    exact inv.released (by simp [phase, Phase.Holds]) (by simp [phase, Phase.Between]) (by simp [Phase.Holds, Phase.Inside])
  | statting u deadline =>
    have still : ¬ (s.phase c).Between := by simp [phase, Phase.Between]
    cases found : s.lock with
    | none => exact inv.outside still (waiting_free u deadline now)
    | some file =>
      dsimp only
      by_cases stale : staleLock < now - file.mtime
      · rw [if_pos stale]
        exact inv.outside still id
      · rw [if_neg stale]
        exact inv.outside still (waiting_free u deadline now)
  | removing u deadline =>
    -- whoever had the lock is over, so nobody loses it
    rw [phase] at safe
    refine inv.moved _ (fun d _ holds => ?_) (fun holds => absurd holds id) trivial (by simp [phase, Phase.Between])
    obtain ⟨file, there, owned⟩ := inv.owner d holds
    exact absurd holds (not_holds_of_over (by simpa [owned] using safe file there))
  | loading u =>
    have holds : (s.phase c).Holds := by simp [phase, Phase.Holds, Phase.Inside]
    have still : ¬ (s.phase c).Between := by simp [phase, Phase.Between]
    cases found : s.files.registry with
    | none => exact inv.kept (fun _ => holds) found (fun between => absurd between still)
    | some set =>
      have next := inv.planned holds still u
      rwa [load_of_registry found] at next
  | loadingLegacy u =>
    have next := inv.planned (c := c) (by simp [phase, Phase.Holds, Phase.Inside]) (by simp [phase, Phase.Between]) u
    rw [phase] at mine
    have missing : s.files.registry = none := mine
    rwa [load, missing] at next
  | capturing u writes =>
    rw [phase] at mine
    exact inv.kept (fun _ => by simp [phase, Phase.Holds, Phase.Inside]) ⟨mine.1, mine.2, rfl⟩
      (by simp [phase, Phase.Between])
  | writingLegacy u writes snapshot =>
    have holds : (s.phase c).Holds := by simp [phase, Phase.Holds, Phase.Inside]
    have loaded := inv.loaded holds (by simp [phase, Phase.Between])
    rw [phase] at mine
    obtain ⟨result, real, rfl⟩ := mine
    refine inv.written holds ?_ ?_
    · cases writes with
      | nothing => exact absurd rfl real
      | activate selection => exact ⟨result, real, loaded, rfl⟩
      | remove => exact ⟨result, real, loaded, rfl⟩
    · intro still
      cases writes <;> exact absurd trivial still
  | guardingLegacy u writes snapshot =>
    rw [phase] at mine
    exact inv.kept (fun _ => by simp [phase, Phase.Holds, Phase.Inside]) mine (fun _ => .inl trivial)
  | persisting u writes snapshot =>
    rw [phase] at mine
    obtain ⟨result, real, -, legacy⟩ := mine
    refine inv.written (by simp [phase, Phase.Holds, Phase.Inside]) ?_ fun _ => ?_
    · cases writes with
      | nothing => exact absurd rfl real
      | activate selection => exact rfl
      | remove => trivial
    · rw [replay_append, apply_of_plan result]
      exact load_written real _ _ now legacy
  | guardingRegistry u snapshot =>
    exact inv.kept (fun _ => by simp [phase, Phase.Holds, Phase.Inside]) trivial (by simp [phase, Phase.Between])
  | restoring u snapshot =>
    rw [phase] at mine
    exact inv.written (by simp [phase, Phase.Holds, Phase.Inside]) trivial (fun _ => mine)
  | releasing outcome =>
    exact inv.released (by simp [phase, Phase.Holds]) (by simp [phase, Phase.Between]) (by simp [Phase.Holds, Phase.Inside])

/-- A file operation that throws keeps the invariant, if it does not leave the older file
    written without a registry. -/
theorem Invariant.fail {files : Files} {s : State} (inv : Invariant files s) (c : Call) (now : Int)
    (safe : Recovers s (s.phase c)) : Invariant files (fail s c now) := by
  have mine := inv.knows c
  rw [ActiveBoundaries.fail]
  cases phase : s.phase c with
  | idle | ended _ | crashed => exact inv
  | opening u deadline => exact inv.outside (by simp [phase, Phase.Between]) id
  | creating u =>
    exact inv.kept (fun _ => by simp [phase, Phase.Holds]) trivial (by simp [phase, Phase.Between])
  | abandoning => exact inv.outside (by simp [phase, Phase.Between]) id
  | statting u deadline => exact inv.outside (by simp [phase, Phase.Between]) (waiting_free u deadline now)
  | removing u deadline => exact inv.outside (by simp [phase, Phase.Between]) id
  | loading _ | loadingLegacy _ | capturing _ _ | writingLegacy _ _ _ =>
    exact inv.kept (fun _ => by simp [phase, Phase.Holds, Phase.Inside]) trivial (by simp [phase, Phase.Between])
  | guardingLegacy u writes snapshot =>
    rw [phase] at safe mine
    refine inv.kept (fun _ => by simp [phase, Phase.Holds, Phase.Inside]) trivial (fun _ => .inr ?_)
    have kept : load ⟨snapshot, s.files.registry⟩ = load s.files := load_registry_only safe snapshot
    rw [← kept]
    exact mine.2.2.1
  | persisting u writes snapshot =>
    rw [phase] at mine
    exact inv.kept (fun _ => by simp [phase, Phase.Holds, Phase.Inside]) mine.2.2.1 (fun _ => .inl trivial)
  | guardingRegistry u snapshot =>
    have holds : (s.phase c).Holds := by simp [phase, Phase.Holds, Phase.Inside]
    have loaded := inv.loaded holds (by simp [phase, Phase.Between])
    rw [phase] at mine
    refine inv.kept (fun _ => holds) ?_ (fun _ => .inl trivial)
    exact (load_registry_only mine snapshot).trans loaded
  | restoring u snapshot =>
    rw [phase] at safe mine
    refine inv.kept (fun _ => by simp [phase, Phase.Holds, Phase.Inside]) trivial (fun _ => .inr ?_)
    rw [← load_registry_only safe snapshot]
    exact mine
  | releasing outcome => exact inv.outside (by simp [phase, Phase.Between]) id

theorem Invariant.crash {files : Files} {s : State} (inv : Invariant files s) (c : Call)
    (safe : (s.phase c).Between → s.files.registry.isSome) : Invariant files (s.moved c .crashed) := by
  refine inv.kept (fun holds => absurd holds id) trivial fun between => .inr ?_
  have present := safe between
  have mine := inv.knows c
  cases phase : s.phase c with
  | guardingLegacy u writes snapshot | persisting u writes snapshot =>
    rw [phase] at mine
    rw [← load_registry_only present snapshot]
    exact mine.2.2.1
  | restoring u snapshot =>
    rw [phase] at mine
    rw [← load_registry_only present snapshot]
    exact mine
  | _ =>
    rw [phase] at between
    exact absurd between id

theorem Invariant.step {files : Files} {s : State} {e : Event} (inv : Invariant files s) (safe : Safe s e) :
    Invariant files (step s e) := by
  cases e with
  | act c now => exact inv.act c now safe
  | fail c now => exact inv.fail c now safe
  | crash c => exact inv.crash c safe
  | start c u now =>
    rw [ActiveBoundaries.step]
    cases phase : s.phase c with
    | idle => exact inv.outside (by simp [phase, Phase.Between]) id
    | _ => exact inv

theorem Invariant.serialised {files : Files} {s : State} (inv : Invariant files s) : Serialised files s := by
  refine ⟨?_, ?_⟩
  · intro c d one other
    by_contra differ
    exact inv.alone (holds_of_inside one) (fun same => differ same.symm) (holds_of_inside other)
  · intro free
    exact ⟨s.completed, List.Perm.refl _, inv.calm fun c between => free c (inside_of_between between)⟩

/-- Calls that change the active boundaries are never inside the lock together and lose no
    update, where a lock file is removed by age only after the end of the call that made it,
    and no call stops between its two writes while there is no registry. -/
theorem updates_serialised (files : Files) (events : List Event)
    (safe : Throughout step Safe (State.start files) events) :
    Serialised files (run step (State.start files) events) :=
  (invariant_of_throughout (Invariant files) (fun _ _ inv => inv.step) safe invariant_start).serialised

/-! ### Runs of two calls -/

/-- A boundary of one project with a name. -/
def Boundary.named (name : String) : Boundary := ⟨name, "sha256:" ++ name, "postgres", "local", "{}", none⟩

/-- The next file operations of a call. -/
def operations (c : Call) (now : Int) (n : ℕ) : List Event := List.replicate n (.act c now)

/-- A call crashes with the lock, and a later one finds the lock file stale. -/
def crashRun : List Event :=
  .start 0 (.add (.named "sales")) 0 :: operations 0 0 3 ++ [.crash 0, .start 1 (.add (.named "support")) 40000] ++
    operations 1 40000 13

theorem updates_serialised_after_a_crash :
    Serialised ⟨none, none⟩ (run step (State.start ⟨none, none⟩) crashRun) := by
  refine updates_serialised ⟨none, none⟩ crashRun ?_
  simp only [crashRun, operations, List.replicate, List.cons_append, List.nil_append, Throughout]
  repeat' constructor
  · intro between
    exact absurd between id
  · -- the owner of the lock file has crashed
    intro file found
    cases found
    trivial

example : (run step (State.start ⟨none, none⟩) crashRun).completed = [.add (.named "support")] := by rfl

/-- Two calls are inside the lock: the first one is slow, and the second one removes its
    lock file after 30 seconds. -/
def slowRun : List Event :=
  .start 0 (.add (.named "sales")) 0 :: operations 0 0 4 ++ [.start 1 (.add (.named "support")) 31000] ++
    operations 1 31000 6

/-- Both calls come to their ends. -/
def overtakenRun : List Event := slowRun ++ operations 1 31100 7 ++ operations 0 31200 6

/-- The boundary of the second call is lost, though both calls report that all went well. -/
theorem updates_overlap :
    ((run step (State.start ⟨none, none⟩) slowRun).phase 0).Inside ∧
      ((run step (State.start ⟨none, none⟩) slowRun).phase 1).Inside ∧
      ¬ Serialised ⟨none, none⟩ (run step (State.start ⟨none, none⟩) slowRun) ∧
      (run step (State.start ⟨none, none⟩) overtakenRun).phase 0 = .ended (.ok ()) ∧
      (run step (State.start ⟨none, none⟩) overtakenRun).phase 1 = .ended (.ok ()) ∧
      load (run step (State.start ⟨none, none⟩) overtakenRun).files = some (.one (.named "sales")) ∧
      ¬ Serial ⟨none, none⟩ (run step (State.start ⟨none, none⟩) overtakenRun) := by
  have one : ((run step (State.start ⟨none, none⟩) slowRun).phase 0).Inside := trivial
  have two : ((run step (State.start ⟨none, none⟩) slowRun).phase 1).Inside := trivial
  refine ⟨one, two, fun serialised => ?_, rfl, rfl, rfl, ?_⟩
  · have same : (0 : ℕ) = 1 := serialised.1 0 1 one two
    omega
  · rintro ⟨order, permuted, same⟩
    have updates : order.Perm [.add (.named "support"), .add (.named "sales")] := permuted
    rcases List.perm_pair.mp updates with rfl | rfl
    · exact absurd same (by decide)
    · exact absurd same (by decide)

end SynapsorRunner.ActiveBoundaries
