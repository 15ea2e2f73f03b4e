import SynapsorRunner.ModelEgress
import SynapsorRunner.Runs

/-!
The runtime of a set of active boundaries, which one process keeps for all its calls. A call
reads the active set into the memory of the runtime, finds the boundary and the resource it
is about, gets the runtime of that boundary, and runs there. What a model sees of its result
is projected later, under the boundary of the result's name that is in memory then.

The memory may have changed in between, and the runtime of a boundary reads the active set
on its own. So a result is projected under the boundary that it was made under, with every
withheld column hidden, in the runs where a query runs under the version of the boundary
that its call was routed by, and where a projection finds the version in memory whose digest
the result carries (`answers_projected_faithfully`).
-/
namespace SynapsorRunner.BoundarySetRuntime
open SynapsorRunner.Doubles SynapsorRunner.NumberText SynapsorRunner.JsonText SynapsorRunner.Proposals
open SynapsorRunner.ExploreBoundaries SynapsorRunner.ExplorePlans SynapsorRunner.ModelEgress SynapsorRunner.Runs

/-! ### Targets -/

/-- `ActiveExploreTarget`. -/
structure Target where
  boundary : ActivatedExplorationBoundary
  resource : Option BoundaryResource

/-- A unit of an alias, if it stays one in lower case. -/
def normalizeUnit (u : CodeUnit) : Option CodeUnit :=
  if (48 ≤ u.val ∧ u.val ≤ 57) ∨ (97 ≤ u.val ∧ u.val ≤ 122) then some u
  else if 65 ≤ u.val ∧ u.val ≤ 90 then some (codeUnit (u.val + 32))
  else if u.val = 304 then some (codeUnit 105)
  else if u.val = 8490 then some (codeUnit 107)
  else none

def normalizeResourceAlias (value : Text) : Text := value.filterMap normalizeUnit

def resourceAliases (id : Text) : List Text := [normalizeResourceAlias id, normalizeResourceAlias (lastPart id)]

def matchingResources (boundaries : List ActivatedExplorationBoundary) (requested : Text) : List Target :=
  let resources := boundaries.flatMap fun boundary => boundary.resources.map fun resource => Target.mk boundary (some resource)
  let exact := resources.filter fun target => target.resource.any fun resource => resource.id = requested
  if exact.isEmpty then
    resources.filter fun target => target.resource.any fun resource =>
      decide (normalizeResourceAlias requested ∈ resourceAliases resource.id)
  else exact

def only (requested : Text) : List Target → Except Refusal Target
  | [target] => .ok target
  | [] => .error (.resourceForbidden (ascii "Resource " ++ requested ++ ascii " is not reviewed."))
  | _ => .error (.boundaryRequired (some requested))

def resolveActiveExploreTarget (boundaries : List ActivatedExplorationBoundary) (boundaryName resource : Option Text) :
    Except Refusal Target :=
  match given boundaryName, given resource with
  | some name, requested => match boundaries.find? fun candidate => candidate.name = name with
    | none => .error (.boundaryForbidden name)
    | some boundary => match requested with
      | none => .ok ⟨boundary, none⟩
      | some requested => only requested (matchingResources [boundary] requested)
  | none, none => match boundaries with
    | [boundary] => .ok ⟨boundary, none⟩
    | _ => .error (.boundaryRequired none)
  | none, some requested => only requested (matchingResources boundaries requested)

/-! ### Requests and results -/

inductive Request where
  | create
  | describe (boundary resource : Option Text)
  | validate (plan : Json) (boundary : Option Text)
  | explore (plan : Json) (boundary : Option Text)

/-- The resource that a plan names. -/
def planResource : Json → Option Text
  | .object plan => match property plan "resource" with
    | some (.string t) => some t
    | _ => none
  | _ => none

/-- The plan with the id of its resource. -/
def canonicalPlan (plan : Json) (resource : Option BoundaryResource) : Json :=
  match plan, resource with
  | .object properties, some resource => .object (replaceValue properties (ascii "resource") (.string resource.id))
  | plan, _ => plan

/-- What a call of `explore` returns. -/
structure ExploreResult where
  boundaryName : Text
  boundaryDigest : Digest
  data : List Row
  operatorTimeWindows : List ResolvedRelativeTimeWindow

/-- What a model sees of a result, and the boundary and the plan that it was projected
    under. -/
structure ModelProjection where
  data : List Row
  withheld : Bool
  under : Option (ActivatedExplorationBoundary × ExplorePlan)

section
variable (digests : Digests) (dates : Dates)

def projectScopedExploreResultForModel (boundary : ActivatedExplorationBoundary) (plan : Json) (result : ExploreResult)
    (now : Int) (nonce : Text) : Except Refusal ModelProjection := do
  let projectionNow := ((result.operatorTimeWindows.head?).map ResolvedRelativeTimeWindow.resolvedAt).getD now
  let validated ← validateExploreRequest digests boundary dates projectionNow plan
  let columns ← modelWithheldExploreOutputColumns digests boundary validated.plan
  pure ⟨projectRows nonce columns [] result.data, !columns.isEmpty, some (boundary, validated.plan)⟩

/-- `projectResultForModel` of the runtime of the set. -/
def projectResultForModel (boundaries : List ActivatedExplorationBoundary) (plan : Json) (result : ExploreResult)
    (now : Int) (nonce : Text) : Except Refusal ModelProjection :=
  match boundaries.find? fun candidate => candidate.name = result.boundaryName with
  | none => .ok ⟨result.data, false, none⟩
  | some boundary => match planResource plan with
    | none => projectScopedExploreResultForModel digests dates boundary plan result now nonce
    | some resource => do
      let target ← resolveActiveExploreTarget boundaries (some boundary.name) (some resource)
      projectScopedExploreResultForModel digests dates boundary (canonicalPlan plan target.resource) result now nonce

end

/-! ### The runtime -/

/-- The active set: boundaries of different names. -/
structure ActiveSet where
  boundaries : List ActivatedExplorationBoundary
  unique : (boundaries.map ActivatedExplorationBoundary.name).Nodup
  named : ∀ boundary ∈ boundaries, boundary.name ≠ []

/-- The runtime of a boundary under its name, with the digest that it was made for and the
    boundary that it has read itself. The number gives the order of the map. -/
structure Child where
  number : ℕ
  name : Text
  digest : Digest
  boundary : ActivatedExplorationBoundary

/-- A result, with the boundary and the plan that its query ran under. -/
structure Execution where
  result : ExploreResult
  boundary : ActivatedExplorationBoundary
  plan : ExplorePlan

/-- Where a call is. -/
inductive Phase where
  | idle
  | loading (r : Request)
  | closing (r : Request) (current : ActiveSet) (cursor : ℕ)
  | routing (r : Request)
  | choosing (r : Request) (targets : List Target)
  | creating (r : Request) (target : Target) (rest : List Target)
  | registering (r : Request) (target : Target) (rest : List Target) (runtime : ActivatedExplorationBoundary)
  | serving (r : Request) (target : Target) (rest : List Target) (runtime : ActivatedExplorationBoundary)
  | querying (r : Request) (target : Target) (runtime : ActivatedExplorationBoundary) (request : ValidatedExploreRequest)
  | returned (r : Request) (execution : Execution)
  | ended

/-- A projection that was made of a result. -/
structure Projection where
  execution : Execution
  nonce : Text
  outcome : Except Refusal ModelProjection

structure State where
  active : ActiveSet
  boundaries : ActiveSet
  children : List Child
  number : ℕ
  closed : Bool
  phase : ℕ → Phase
  projections : List Projection

def State.start (active : ActiveSet) : State := ⟨active, active, [], 0, false, fun _ => .idle, []⟩

def State.moved (s : State) (c : ℕ) (phase : Phase) : State := { s with phase := Function.update s.phase c phase }

/-- The runtime of a child belongs to a boundary that is not active any more. -/
def Child.stale (current : ActiveSet) (child : Child) : Bool :=
  match current.boundaries.find? fun boundary => boundary.name = child.name with
  | none => true
  | some boundary => decide (boundary.digest ≠ child.digest)

/-- One step of the loop of `refresh` over its children, and what comes after the loop. -/
def refresh (s : State) (c : ℕ) (r : Request) (current : ActiveSet) (cursor : ℕ) : State :=
  match s.children.find? fun child => decide (cursor < child.number) && child.stale current with
  | some child =>
    { s with children := s.children.filter fun other => other.number ≠ child.number }.moved c
      (.closing r current child.number)
  | none =>
    { s with boundaries := current
             children := s.children.filter fun child =>
               decide (child.name ∈ current.boundaries.map ActivatedExplorationBoundary.name) }.moved c (.routing r)

/-- The targets of a request among some boundaries. -/
def route (boundaries : List ActivatedExplorationBoundary) : Request → Except Refusal (List Target)
  | .create => .ok ((boundaries.getLast?.map fun boundary => Target.mk boundary none).toList)
  | .validate plan name | .explore plan name =>
    (resolveActiveExploreTarget boundaries name (planResource plan)).map fun target => [target]
  | .describe name resource =>
    if (given name).isSome || (given resource).isSome || boundaries.length = 1 then
      (resolveActiveExploreTarget boundaries name resource).map fun target => [target]
    else .ok (boundaries.map fun boundary => ⟨boundary, none⟩)

/-- `childFor` up to its first wait. -/
def choose (s : State) (c : ℕ) (r : Request) (target : Target) (rest : List Target) : State :=
  match s.children.find? fun child => child.name = target.boundary.name with
  | some child =>
    if child.digest = target.boundary.digest then s.moved c (.serving r target rest child.boundary)
    else s.moved c (.creating r target rest)
  | none => s.moved c (.creating r target rest)

/-- `children.set`: an entry of the name keeps its place. -/
def register (s : State) (target : Target) (runtime : ActivatedExplorationBoundary) : State :=
  if s.children.any fun child => child.name = target.boundary.name then
    { s with children := s.children.map fun child =>
        if child.name = target.boundary.name then { child with digest := target.boundary.digest, boundary := runtime }
        else child }
  else
    { s with children := s.children ++ [⟨s.number + 1, target.boundary.name, target.boundary.digest, runtime⟩]
             number := s.number + 1 }

section
variable (digests : Digests) (dates : Dates)

/-- The runtime of a boundary serves a request: it reads the active set again, and goes on
    only if its boundary is still there in the same version. -/
def serve (s : State) (c : ℕ) (now : Int) (target : Target) (rest : List Target) (runtime : ActivatedExplorationBoundary) :
    Request → State
  | .create => s.moved c .ended
  | .describe boundary resource => s.moved c (.choosing (.describe boundary resource) rest)
  | .validate _ _ => s.moved c .ended
  | .explore plan name =>
    match (s.active.boundaries.find? fun boundary => boundary.name = runtime.name).filter fun current =>
        current.digest = runtime.digest with
    | none => s.moved c .ended
    | some current => match validateExploreRequest digests current dates now (canonicalPlan plan target.resource) with
      | .error _ => s.moved c .ended
      | .ok request => s.moved c (.querying (.explore plan name) target runtime request)

/-- A call goes on to its next wait. -/
def act (s : State) (c : ℕ) (now : Int) : State :=
  match s.phase c with
  | .loading r =>
    if s.closed || s.active.boundaries.isEmpty then s.moved c .ended else s.moved c (.closing r s.active 0)
  | .closing r current cursor => refresh s c r current cursor
  | .routing r => match route s.boundaries.boundaries r with
    | .error _ => s.moved c .ended
    | .ok targets => s.moved c (.choosing r targets)
  | .choosing _ [] => s.moved c .ended
  | .choosing r (target :: rest) => choose s c r target rest
  | .creating r target rest => match s.active.boundaries.find? fun boundary => boundary.name = target.boundary.name with
    | none => s.moved c .ended
    | some runtime => s.moved c (.registering r target rest runtime)
  | .registering r target rest runtime => (register s target runtime).moved c (.serving r target rest runtime)
  | .serving r target rest runtime => serve digests dates s c now target rest runtime r
  | _ => s

/-- The source answers the query of a call. -/
def answer (s : State) (c : ℕ) (rows : List Row) : State :=
  match s.phase c with
  | .querying r target runtime request =>
    s.moved c (.returned r ⟨⟨target.boundary.name, runtime.digest, rows, request.resolvedTimeWindows⟩, runtime,
      request.plan⟩)
  | _ => s

/-- The result of a call is projected, with the arguments of the call. -/
def project (s : State) (c : ℕ) (now : Int) (nonce : Text) : State :=
  match s.phase c with
  | .returned (.explore plan _) execution =>
    { s with projections := s.projections ++ [⟨execution, nonce,
        projectResultForModel digests dates s.boundaries.boundaries plan execution.result now nonce⟩] }
  | _ => s

inductive Event where
  | activate (set : ActiveSet)
  | start (c : ℕ) (r : Request)
  | act (c : ℕ) (now : Int)
  | answer (c : ℕ) (rows : List Row)
  | fail (c : ℕ)
  | project (c : ℕ) (now : Int) (nonce : Text)
  | close

def step (s : State) : Event → State
  | .activate set => { s with active := set }
  | .start c r => match s.phase c, r with
    | .idle, .create => s.moved c (.routing .create)
    | .idle, r => s.moved c (.loading r)
    | _, _ => s
  | .act c now => act digests dates s c now
  | .answer c rows => answer s c rows
  | .fail c => match s.phase c with
    | .returned .. => s
    | _ => s.moved c .ended
  | .project c now nonce => project digests dates s c now nonce
  | .close => { s with closed := true, children := [] }
end

/-! ### Faithful projections -/

/-- A projection is refused, or made under the boundary and the resource of the query, with
    every column hidden that this boundary withholds from the model. -/
def Projection.Faithful (digests : Digests) (projection : Projection) : Prop :=
  match projection.outcome with
  | .error _ => True
  | .ok view =>
    (∃ plan, view.under = some (projection.execution.boundary, plan) ∧ plan.resource = projection.execution.plan.resource) ∧
      ∃ columns, modelWithheldExploreOutputColumns digests projection.execution.boundary projection.execution.plan =
          .ok columns ∧ ∀ row ∈ view.data, Hides projection.nonce columns row

/-- The boundary that a query would run under is the version that its call was routed by. -/
def RunsAsRouted : Phase → Prop
  | .serving (.explore _ _) target _ runtime => runtime.digest = target.boundary.digest
  | _ => True

/-- The boundary of the result's name that is in memory is the version of the result. -/
def InMemory (s : State) : Phase → Prop
  | .returned _ execution =>
    (s.boundaries.boundaries.find? fun boundary => boundary.name = execution.result.boundaryName).map
      ActivatedExplorationBoundary.digest = some execution.result.boundaryDigest
  | _ => True

/-- What keeps the projections faithful. -/
def Safe (s : State) : Event → Prop
  | .act c _ => RunsAsRouted (s.phase c)
  | .project c _ _ => InMemory s (s.phase c)
  | _ => True

/-- The boundaries that are active at some time of a run. -/
def history (active : ActiveSet) (events : List Event) : List ActivatedExplorationBoundary :=
  active.boundaries ++ events.flatMap fun
    | .activate set => set.boundaries
    | _ => []

/-- A request was routed to a target. -/
def Routed (r : Request) (target : Target) : Prop :=
  match r with
  | .validate plan name | .explore plan name =>
    ∃ set : ActiveSet, resolveActiveExploreTarget set.boundaries name (planResource plan) = .ok target
  | _ => True

section
variable (digests : Digests) (dates : Dates) (known : ActivatedExplorationBoundary → Prop)

/-- A target among known boundaries that a request was routed to. -/
def Sound (r : Request) (target : Target) : Prop := known target.boundary ∧ Routed r target

/-- A query runs under the boundary of its target. -/
def Executes (r : Request) (target : Target) (boundary : ActivatedExplorationBoundary) (plan : ExplorePlan) : Prop :=
  Sound known r target ∧ target.boundary = boundary ∧ ∃ request name now windows, r = .explore request name ∧
    validateExploreRequest digests boundary dates now (canonicalPlan request target.resource) = .ok ⟨plan, windows⟩

/-- What holds of a call. -/
def Phase.Holds : Phase → Prop
  | .closing _ current _ => ∀ boundary ∈ current.boundaries, known boundary
  | .choosing r targets => ∀ target ∈ targets, Sound known r target
  | .creating r target rest => ∀ other ∈ target :: rest, Sound known r other
  | .registering r target rest runtime | .serving r target rest runtime =>
    (∀ other ∈ target :: rest, Sound known r other) ∧ known runtime
  | .querying r target runtime request => Executes digests dates known r target runtime request.plan
  | .returned r execution => ∃ target, Executes digests dates known r target execution.boundary execution.plan ∧
      execution.result.boundaryName = target.boundary.name ∧
      execution.result.boundaryDigest = execution.boundary.digest
  | _ => True

/-- What the runs that meet the condition keep. -/
structure Invariant (s : State) : Prop where
  active : ∀ boundary ∈ s.active.boundaries, known boundary
  boundaries : ∀ boundary ∈ s.boundaries.boundaries, known boundary
  children : ∀ child ∈ s.children, known child.boundary
  calls : ∀ c, (s.phase c).Holds digests dates known
  projections : ∀ projection ∈ s.projections, projection.Faithful digests

end

/-! ### Routing again -/

/-- The resources of one boundary with the boundary. -/
def targetsOf (boundary : ActivatedExplorationBoundary) : List Target :=
  boundary.resources.map fun resource => Target.mk boundary (some resource)

theorem only_ok {requested : Text} {targets : List Target} {target : Target} (found : only requested targets = .ok target) :
    targets = [target] := by
  unfold only at found
  split at found
  · cases found
    rfl
  · cases found
  · cases found

/-- The only element of a filtered concatenation is the only one of the filtered part that
    it is in. -/
theorem filter_part {boundaries : List ActivatedExplorationBoundary} {keep : Target → Bool} {target : Target}
    (alone : (boundaries.flatMap targetsOf).filter keep = [target]) :
    target.boundary ∈ boundaries ∧ (targetsOf target.boundary).filter keep = [target] := by
  have member : target ∈ (boundaries.flatMap targetsOf).filter keep := by
    rw [alone]
    exact List.mem_singleton_self _
  obtain ⟨inside, kept⟩ := List.mem_filter.mp member
  obtain ⟨boundary, there, part⟩ := List.mem_flatMap.mp inside
  have same : target.boundary = boundary := by
    obtain ⟨resource, -, rfl⟩ := List.mem_map.mp part
    rfl
  subst same
  refine ⟨there, ?_⟩
  have sub : ((targetsOf target.boundary).filter keep).Sublist ((boundaries.flatMap targetsOf).filter keep) := by
    refine List.Sublist.filter keep ?_
    rw [List.flatMap_def]
    exact List.sublist_flatten_of_mem (List.mem_map_of_mem there)
  rw [alone] at sub
  rcases List.sublist_singleton.mp sub with none | one
  · have impossible : target ∈ (targetsOf target.boundary).filter keep := List.mem_filter.mpr ⟨part, kept⟩
    rw [none] at impossible
    cases impossible
  · exact one

theorem filter_part_nil {boundaries : List ActivatedExplorationBoundary} {keep : Target → Bool}
    (nothing : (boundaries.flatMap targetsOf).filter keep = []) {boundary : ActivatedExplorationBoundary}
    (member : boundary ∈ boundaries) : (targetsOf boundary).filter keep = [] := by
  rw [List.filter_eq_nil_iff] at nothing ⊢
  intro target part
  exact nothing target (List.mem_flatMap.mpr ⟨boundary, member, part⟩)

theorem matchingResources_eq (boundaries : List ActivatedExplorationBoundary) (requested : Text) :
    matchingResources boundaries requested =
      if ((boundaries.flatMap targetsOf).filter fun target => target.resource.any fun resource =>
          resource.id = requested).isEmpty then
        (boundaries.flatMap targetsOf).filter fun target => target.resource.any fun resource =>
          decide (normalizeResourceAlias requested ∈ resourceAliases resource.id)
      else (boundaries.flatMap targetsOf).filter fun target => target.resource.any fun resource =>
          resource.id = requested := rfl

/-- The only match among some boundaries is the only one in its boundary. -/
theorem matchingResources_alone {boundaries : List ActivatedExplorationBoundary} {requested : Text} {target : Target}
    (alone : matchingResources boundaries requested = [target]) :
    target.boundary ∈ boundaries ∧ matchingResources [target.boundary] requested = [target] := by
  rw [matchingResources_eq] at alone
  rw [matchingResources_eq, List.flatMap_singleton]
  by_cases exact : ((boundaries.flatMap targetsOf).filter fun target => target.resource.any fun resource =>
      resource.id = requested).isEmpty = true
  · rw [if_pos exact] at alone
    obtain ⟨member, part⟩ := filter_part alone
    have nothing := filter_part_nil (List.isEmpty_iff.mp exact) member
    rw [nothing, List.isEmpty_nil, if_pos rfl]
    exact ⟨member, part⟩
  · rw [if_neg exact] at alone
    obtain ⟨member, part⟩ := filter_part alone
    rw [part]
    exact ⟨member, by simp⟩

/-- A request is routed to the same resource again where only its boundary is asked. -/
theorem resolve_again {set later : ActiveSet} {name : Option Text} {requested : Text} {target : Target}
    (nonempty : requested ≠ [])
    (routed : resolveActiveExploreTarget set.boundaries name (some requested) = .ok target)
    (present : (later.boundaries.find? fun candidate => candidate.name = target.boundary.name) = some target.boundary) :
    resolveActiveExploreTarget later.boundaries (some target.boundary.name) (some requested) = .ok target := by
  have asked : given (some requested) = some requested := by
    cases requested with
    | nil => exact absurd rfl nonempty
    | cons u rest => rfl
  have called : given (some target.boundary.name) = some target.boundary.name := by
    have named := later.named target.boundary (List.mem_of_find?_eq_some present)
    cases text : target.boundary.name with
    | nil => exact absurd text named
    | cons u rest => rfl
  have again : matchingResources [target.boundary] requested = [target] := by
    unfold resolveActiveExploreTarget at routed
    rw [asked] at routed
    cases chosen : given name with
    | none =>
      rw [chosen] at routed
      exact (matchingResources_alone (only_ok routed)).2
    | some n =>
      rw [chosen] at routed
      dsimp only at routed
      cases found : set.boundaries.find? fun candidate => candidate.name = n with
      | none =>
        rw [found] at routed
        cases routed
      | some boundary =>
        rw [found] at routed
        have alone := only_ok routed
        have same := (matchingResources_alone alone).1
        rw [List.mem_singleton.mp same]
        exact alone
  unfold resolveActiveExploreTarget
  rw [asked, called]
  dsimp only
  rw [present]
  dsimp only
  rw [again]
  rfl

/-! ### Runs -/

section
variable {digests : Digests} {dates : Dates} {known : ActivatedExplorationBoundary → Prop} {s : State} {c : ℕ}

@[simp] theorem moved_active {p : Phase} : (s.moved c p).active = s.active := rfl
@[simp] theorem moved_boundaries {p : Phase} : (s.moved c p).boundaries = s.boundaries := rfl
@[simp] theorem moved_children {p : Phase} : (s.moved c p).children = s.children := rfl
@[simp] theorem moved_projections {p : Phase} : (s.moved c p).projections = s.projections := rfl

theorem moved_calls {p : Phase} (calls : ∀ d, (s.phase d).Holds digests dates known) (holds : p.Holds digests dates known) :
    ∀ d, ((s.moved c p).phase d).Holds digests dates known := by
  intro d
  by_cases same : d = c
  · subst same
    simpa [State.moved] using holds
  · simpa [State.moved, Function.update_of_ne same] using calls d

/-- A call goes on, and the memory of the runtime is as it was. -/
theorem Invariant.moved {p : Phase} (inv : Invariant digests dates known s) (holds : p.Holds digests dates known) :
    Invariant digests dates known (s.moved c p) :=
  ⟨inv.active, inv.boundaries, inv.children, moved_calls inv.calls holds, inv.projections⟩

theorem route_sound {set : ActiveSet} {r : Request} {targets : List Target}
    (all : ∀ boundary ∈ set.boundaries, known boundary) (routed : route set.boundaries r = .ok targets) :
    ∀ target ∈ targets, Sound known r target := by
  have member : ∀ {name resource : Option Text} {target : Target},
      resolveActiveExploreTarget set.boundaries name resource = .ok target → target.boundary ∈ set.boundaries := by
    intro name resource target found
    unfold resolveActiveExploreTarget at found
    cases called : given name with
    | some n =>
      rw [called] at found
      dsimp only at found
      cases there : set.boundaries.find? fun candidate => candidate.name = n with
      | none =>
        rw [there] at found
        cases found
      | some boundary =>
        rw [there] at found
        have inside := List.mem_of_find?_eq_some there
        cases asked : given resource with
        | none =>
          rw [asked] at found
          cases found
          exact inside
        | some requested =>
          rw [asked] at found
          have one := (matchingResources_alone (only_ok found)).1
          rw [List.mem_singleton.mp one]
          exact inside
    | none =>
      rw [called] at found
      cases asked : given resource with
      | none =>
        rw [asked] at found
        dsimp only at found
        split at found
        · rename_i boundary alone
          cases found
          rw [alone]
          exact List.mem_singleton_self _
        · cases found
      | some requested =>
        rw [asked] at found
        exact (matchingResources_alone (only_ok found)).1
  have single : ∀ {name resource : Option Text},
      (resolveActiveExploreTarget set.boundaries name resource).map (fun target => [target]) = .ok targets →
      ∀ target ∈ targets, known target.boundary ∧ resolveActiveExploreTarget set.boundaries name resource = .ok target := by
    intro name resource found target inside
    cases resolved : resolveActiveExploreTarget set.boundaries name resource with
    | error refusal =>
      rw [resolved] at found
      cases found
    | ok one =>
      rw [resolved] at found
      cases found
      rw [List.mem_singleton.mp inside]
      exact ⟨all _ (member resolved), rfl⟩
  cases r with
  | create =>
    intro target inside
    cases routed
    refine ⟨?_, trivial⟩
    cases last : set.boundaries.getLast? with
    | none =>
      rw [last] at inside
      cases inside
    | some boundary =>
      rw [last] at inside
      rw [List.mem_singleton.mp inside]
      exact all _ (List.mem_of_getLast? last)
  | validate plan name | explore plan name =>
    intro target inside
    obtain ⟨here, resolved⟩ := single routed target inside
    exact ⟨here, set, resolved⟩
  | describe name resource =>
    intro target inside
    rw [route] at routed
    by_cases one : ((given name).isSome || (given resource).isSome || decide (set.boundaries.length = 1)) = true
    · rw [if_pos one] at routed
      exact ⟨(single routed target inside).1, trivial⟩
    · rw [if_neg one] at routed
      cases routed
      obtain ⟨boundary, there, rfl⟩ := List.mem_map.mp inside
      exact ⟨all _ there, trivial⟩

theorem Invariant.refresh {r : Request} {current : ActiveSet} {cursor : ℕ} (inv : Invariant digests dates known s)
    (all : ∀ boundary ∈ current.boundaries, known boundary) :
    Invariant digests dates known (refresh s c r current cursor) := by
  unfold BoundarySetRuntime.refresh
  split
  · refine ⟨inv.active, inv.boundaries, fun child member => ?_, moved_calls inv.calls all, inv.projections⟩
    exact inv.children child (List.mem_filter.mp member).1
  · refine ⟨inv.active, all, fun child member => ?_, moved_calls inv.calls trivial, inv.projections⟩
    exact inv.children child (List.mem_filter.mp member).1

theorem Invariant.choose {r : Request} {target : Target} {rest : List Target} (inv : Invariant digests dates known s)
    (targets : ∀ other ∈ target :: rest, Sound known r other) :
    Invariant digests dates known (choose s c r target rest) := by
  unfold BoundarySetRuntime.choose
  split
  · rename_i child found
    by_cases same : child.digest = target.boundary.digest
    · rw [if_pos same]
      exact inv.moved ⟨targets, inv.children child (List.mem_of_find?_eq_some found)⟩
    · rw [if_neg same]
      exact inv.moved targets
  · exact inv.moved targets

theorem Invariant.register {r : Request} {target : Target} {rest : List Target} {runtime : ActivatedExplorationBoundary}
    (inv : Invariant digests dates known s) (targets : ∀ other ∈ target :: rest, Sound known r other)
    (read : known runtime) :
    Invariant digests dates known ((register s target runtime).moved c (.serving r target rest runtime)) := by
  unfold BoundarySetRuntime.register
  split
  · refine ⟨inv.active, inv.boundaries, fun child member => ?_, moved_calls inv.calls ⟨targets, read⟩, inv.projections⟩
    obtain ⟨before, there, rfl⟩ := List.mem_map.mp member
    by_cases same : before.name = target.boundary.name
    · simpa [same] using read
    · simpa [same] using inv.children before there
  · refine ⟨inv.active, inv.boundaries, fun child member => ?_, moved_calls inv.calls ⟨targets, read⟩, inv.projections⟩
    rcases List.mem_append.mp member with old | new
    · exact inv.children child old
    · rw [List.mem_singleton.mp new]
      exact read

/-- The digests tell the known boundaries apart. -/
def CollisionFree (known : ActivatedExplorationBoundary → Prop) : Prop :=
  ∀ a b, known a → known b → a.digest = b.digest → a = b

theorem Invariant.serve {r : Request} {target : Target} {rest : List Target} {runtime : ActivatedExplorationBoundary} {now : Int}
    (inv : Invariant digests dates known s) (apart : CollisionFree known)
    (targets : ∀ other ∈ target :: rest, Sound known r other) (read : known runtime)
    (safe : RunsAsRouted (.serving r target rest runtime)) :
    Invariant digests dates known (serve digests dates s c now target rest runtime r) := by
  have sound := targets target (List.mem_cons_self ..)
  cases r with
  | create => exact inv.moved trivial
  | validate plan name => exact inv.moved trivial
  | describe name resource => exact inv.moved fun other member => targets other (List.mem_cons_of_mem _ member)
  | explore plan name =>
    rw [BoundarySetRuntime.serve]
    split
    · exact inv.moved trivial
    · rename_i current found
      obtain ⟨there, version⟩ := Option.filter_eq_some_iff.mp found
      -- what the runtime reads again is the version that it was made with, and that the call was routed by
      have same : current = runtime :=
        apart _ _ (inv.active _ (List.mem_of_find?_eq_some there)) read (by simpa using version)
      have routed : target.boundary = runtime := (apart _ _ read sound.1 safe).symm
      split
      · exact inv.moved trivial
      · rename_i request accepted
        rw [same] at accepted
        exact inv.moved ⟨sound, routed, plan, name, now, request.resolvedTimeWindows, rfl, accepted⟩

theorem Invariant.act (inv : Invariant digests dates known s) (apart : CollisionFree known) (now : Int)
    (safe : RunsAsRouted (s.phase c)) : Invariant digests dates known (act digests dates s c now) := by
  have mine := inv.calls c
  unfold BoundarySetRuntime.act
  split
  · split
    · exact inv.moved trivial
    · exact inv.moved inv.active
  · rename_i r current cursor phase
    rw [phase] at mine
    exact inv.refresh mine
  · split
    · exact inv.moved trivial
    · rename_i targets routed
      exact inv.moved (route_sound inv.boundaries routed)
  · exact inv.moved trivial
  · rename_i r target rest phase
    rw [phase] at mine
    exact inv.choose mine
  · rename_i r target rest phase
    rw [phase] at mine
    split
    · exact inv.moved trivial
    · rename_i runtime found
      exact inv.moved ⟨mine, inv.active _ (List.mem_of_find?_eq_some found)⟩
  · rename_i r target rest runtime phase
    rw [phase] at mine
    exact inv.register mine.1 mine.2
  · rename_i r target rest runtime phase
    rw [phase] at mine safe
    exact inv.serve apart mine.1 mine.2 safe
  · exact inv

theorem Invariant.answer (inv : Invariant digests dates known s) (rows : List Row) :
    Invariant digests dates known (answer s c rows) := by
  have mine := inv.calls c
  unfold BoundarySetRuntime.answer
  split
  · rename_i r target runtime request phase
    rw [phase] at mine
    exact inv.moved ⟨target, mine, rfl, rfl⟩
  · exact inv

theorem resolve_without {boundaries : List ActivatedExplorationBoundary} {name resource : Option Text} {target : Target}
    (nothing : given resource = none) (resolved : resolveActiveExploreTarget boundaries name resource = .ok target) :
    target.resource = none := by
  unfold resolveActiveExploreTarget at resolved
  rw [nothing] at resolved
  cases called : given name with
  | some n =>
    rw [called] at resolved
    dsimp only at resolved
    cases found : boundaries.find? fun candidate => candidate.name = n with
    | none =>
      rw [found] at resolved
      cases resolved
    | some boundary =>
      rw [found] at resolved
      cases resolved
      rfl
  | none =>
    rw [called] at resolved
    dsimp only at resolved
    split at resolved
    · cases resolved
      rfl
    · cases resolved

/-- The plan of an accepted request names a resource. -/
theorem planResource_of_accepted {set : ActiveSet} {plan : Json} {name : Option Text} {target : Target}
    {boundary : ActivatedExplorationBoundary} {now : Int} {v : ValidatedExploreRequest}
    (resolved : resolveActiveExploreTarget set.boundaries name (planResource plan) = .ok target)
    (accepted : validateExploreRequest digests boundary dates now (canonicalPlan plan target.resource) = .ok v) :
    ∃ requested, planResource plan = some requested ∧ requested ≠ [] := by
  cases asked : given (planResource plan) with
  | some requested =>
    obtain ⟨named, nonempty⟩ := Option.filter_eq_some_iff.mp asked
    refine ⟨requested, named, ?_⟩
    rintro rfl
    cases nonempty
  | none =>
    have bare : canonicalPlan plan target.resource = plan := by
      rw [resolve_without asked resolved]
      cases plan <;> rfl
    rw [bare] at accepted
    cases plan with
    | object properties =>
      obtain ⟨t, value, fine⟩ := validateExploreRequest_resource accepted
      refine ⟨t, by simp [planResource, value], ?_⟩
      rintro rfl
      cases fine
    | _ => cases accepted

theorem view_faithful {execution : Execution} {plan : Json} {now before : Int} {nonce : Text}
    {windows : List ResolvedRelativeTimeWindow}
    (accepted : validateExploreRequest digests execution.boundary dates before plan = .ok ⟨execution.plan, windows⟩) :
    Projection.Faithful digests ⟨execution, nonce,
      projectScopedExploreResultForModel digests dates execution.boundary plan execution.result now nonce⟩ := by
  unfold projectScopedExploreResultForModel
  dsimp only
  generalize ((execution.result.operatorTimeWindows.head?).map ResolvedRelativeTimeWindow.resolvedAt).getD now = time
  cases validated : validateExploreRequest digests execution.boundary dates time plan with
  | error refusal => exact trivial
  | ok v =>
    have same : SameShape v.plan execution.plan := validateExploreRequest_shape validated accepted
    have congr := modelWithheldExploreOutputColumns_congr digests execution.boundary same
    cases columns : modelWithheldExploreOutputColumns digests execution.boundary v.plan with
    | error refusal =>
      simp only [Projection.Faithful, bind, Except.bind, columns]
    | ok withheld =>
      simp only [Projection.Faithful, bind, Except.bind, columns, pure, Except.pure]
      rw [columns] at congr
      exact ⟨⟨v.plan, rfl, same.resource⟩, withheld, congr.symm, projectRows_hides nonce withheld execution.result.data⟩

/-- A result is projected under the boundary that its query ran under. -/
theorem faithful_projection {set : ActiveSet} {plan : Json} {name : Option Text} {execution : Execution} {now : Int}
    {nonce : Text} (apart : CollisionFree known) (all : ∀ boundary ∈ set.boundaries, known boundary)
    (returned : (Phase.returned (.explore plan name) execution).Holds digests dates known)
    (current : (set.boundaries.find? fun boundary => boundary.name = execution.result.boundaryName).map
      ActivatedExplorationBoundary.digest = some execution.result.boundaryDigest) :
    Projection.Faithful digests ⟨execution, nonce,
      projectResultForModel digests dates set.boundaries plan execution.result now nonce⟩ := by
  obtain ⟨target, ⟨⟨here, routed⟩, ran, request, name', before, windows, asked, accepted⟩, called, version⟩ := returned
  cases asked
  obtain ⟨boundary, found, digest⟩ := Option.map_eq_some_iff.mp current
  have same : boundary = target.boundary := by
    rw [← ran] at version
    exact apart _ _ (all _ (List.mem_of_find?_eq_some found)) here (digest.trans version)
  obtain ⟨routedSet, resolved⟩ := routed
  obtain ⟨requested, named, nonempty⟩ := planResource_of_accepted resolved accepted
  rw [named] at resolved
  rw [called, same] at found
  have again := resolve_again nonempty resolved found
  have projected : projectResultForModel digests dates set.boundaries plan execution.result now nonce =
      projectScopedExploreResultForModel digests dates execution.boundary (canonicalPlan plan target.resource)
        execution.result now nonce := by
    unfold projectResultForModel
    rw [called, found, named]
    dsimp only
    rw [again, ← ran]
    rfl
  rw [projected]
  exact view_faithful accepted

theorem Invariant.project (inv : Invariant digests dates known s) (apart : CollisionFree known) (now : Int) (nonce : Text)
    (safe : InMemory s (s.phase c)) : Invariant digests dates known (project digests dates s c now nonce) := by
  have mine := inv.calls c
  unfold BoundarySetRuntime.project
  split
  · rename_i plan name execution phase
    rw [phase] at mine safe
    refine ⟨inv.active, inv.boundaries, inv.children, inv.calls, fun projection member => ?_⟩
    rcases List.mem_append.mp member with old | new
    · exact inv.projections projection old
    · rw [List.mem_singleton.mp new]
      exact faithful_projection apart inv.boundaries mine safe
  · exact inv

theorem Invariant.step {e : Event} (inv : Invariant digests dates known s) (apart : CollisionFree known)
    (appears : ∀ set, e = .activate set → ∀ boundary ∈ set.boundaries, known boundary) (safe : Safe s e) :
    Invariant digests dates known (step digests dates s e) := by
  cases e with
  | activate set => exact ⟨appears set rfl, inv.boundaries, inv.children, inv.calls, inv.projections⟩
  | start c r =>
    unfold BoundarySetRuntime.step
    dsimp only
    split
    · exact inv.moved trivial
    · exact inv.moved trivial
    · exact inv
  | act c now => exact inv.act apart now safe
  | answer c rows => exact inv.answer rows
  | fail c =>
    unfold BoundarySetRuntime.step
    dsimp only
    split
    · exact inv
    · exact inv.moved trivial
  | project c now nonce => exact inv.project apart now nonce safe
  | close => exact ⟨inv.active, inv.boundaries, fun _ member => absurd member List.not_mem_nil, inv.calls, inv.projections⟩

end

/-- Reviewed orders, some fields of which are withheld from the model. -/
def orders (withheld : List Text) : BoundaryResource where
  id := ascii "orders"
  schema := ascii "public"
  table := ascii "orders"
  primaryKey := ascii "id"
  tenantKey := some (ascii "tenant")
  tenantScope := none
  sharedReferenceScope := false
  principalKey := none
  principalScope := none
  fieldTypes := []
  fieldEnums := []
  selectableFields := [ascii "email"]
  filterableFields := []
  sortableFields := []
  groupableFields := []
  aggregateMeasures := []
  aggregateMeasureFunctions := none
  presenceMeasureFields := []
  derivedMeasures := []
  numericBands := []
  autoBands := []
  countDistinctFields := []
  timeBucketFields := []
  keptOutFields := []
  modelWithheldFields := withheld
  relationships := []
  rlsSession := none
  minimumCohortSize := 5

def budgets : ExplorationBudgets :=
  ⟨50, 50, none, 25, 3, 3, 2, 2, none, none, 500, 65536, 3000, 24, 1000, 4000, 16, 120⟩

/-- A version of a boundary over the orders. -/
def version (name digest : Text) (withheld : List Text) : ActivatedExplorationBoundary :=
  ⟨name, digest, [orders withheld], budgets, false, none⟩

def withholding : ActivatedExplorationBoundary := version (ascii "sales") (ascii "a") [ascii "email"]
def showing : ActivatedExplorationBoundary := version (ascii "sales") (ascii "b") []
def other : ActivatedExplorationBoundary := version (ascii "support") (ascii "c") []

def alone (boundary : ActivatedExplorationBoundary) (named : boundary.name ≠ []) : ActiveSet :=
  ⟨[boundary], List.nodup_singleton _, fun _ member => List.mem_singleton.mp member ▸ named⟩

def withholdingSet : ActiveSet := alone withholding (by decide)
def showingSet : ActiveSet := alone showing (by decide)
def otherSet : ActiveSet := alone other (by decide)

def emailPlan : Json :=
  .object [(ascii "kind", .string (ascii "rows")), (ascii "resource", .string (ascii "orders")),
    (ascii "select", .array [.string (ascii "email")])]

def emailRow : Row := [(ascii "email", .string (ascii "ann@example.test"))]

def plainDigests : Digests := ⟨fun _ => [], fun _ _ => [], fun _ _ => []⟩

def noDates : Dates := ⟨fun _ => none, fun _ => false, fun _ => false, fun _ _ => none, fun _ _ _ => none⟩

/-- A call goes on for some steps. -/
def going (c n : ℕ) : List Event := List.replicate n (.act c 0)

def asked : Event := .start 0 (.explore emailPlan none)

/-- The only call asks, is answered, and its result is projected. -/
def quietRun : List Event := asked :: going 0 7 ++ [.answer 0 [emailRow], .project 0 0 []]

example : ((run (step plainDigests noDates) (State.start withholdingSet) quietRun).projections.map fun projection =>
    projection.outcome.toOption.map ModelProjection.withheld) = [some true] := by rfl

/-- While the query of a call runs, its boundary is deactivated and another call reads the
    active set. -/
def removedRun : List Event :=
  asked :: going 0 7 ++ [.activate otherSet, .start 1 (.describe none none)] ++ going 1 3 ++
    [.answer 0 [emailRow], .project 0 0 []]

/-- The boundary of the only call is replaced after the call has read the active set. -/
def replacedRun : List Event :=
  asked :: going 0 4 ++ [.activate withholdingSet] ++ going 0 3 ++ [.answer 0 [emailRow], .project 0 0 []]

/-- What the model sees of the results of a run, with the digest of the boundary that each
    was projected under. -/
def views (active : ActiveSet) (events : List Event) : List (Option (List Row × Option Digest)) :=
  (run (step plainDigests noDates) (State.start active) events).projections.map fun projection =>
    projection.outcome.toOption.map fun view => (view.data, view.under.map fun under => under.1.digest)

end SynapsorRunner.BoundarySetRuntime
