import SynapsorRunner.AuthorityCommits

/-!
The activation of a protected query: the text of five tracked files is captured, three of them
are written and the exploration boundary is deactivated. When a step fails, every tracked file
is written again as a private file with the text that was captured, or removed.

So a failed activation leaves a file as it was only where its bytes are the encoding of their
text and it was private (`activate_allOrNothing_iff`).
-/
namespace SynapsorRunner.ProtectedActivation
open SynapsorRunner.Faults
open SynapsorRunner.AuthorityCommits (Node privateMode)

inductive TrackedFile where
  | contract
  | activation
  | config
  | boundary
  | boundarySet
  deriving DecidableEq

def trackedFiles : List TrackedFile := [.contract, .activation, .config, .boundary, .boundarySet]

inductive Path where
  | tracked (file : TrackedFile)
  | temporary (file : TrackedFile)
  | lock
  deriving DecidableEq

inductive Operation where
  | mkdir (path : Path)
  | read (path : Path)
  | write (path : Path)
  | rename (source destination : Path)
  | chmod (path : Path)
  | remove (path : Path)
  | failpoint (name : String)
  deriving DecidableEq

section Code
variable {Bytes Tree Text : Type}

/-- UTF-8, where a path leads that is no regular file, and what a lock file says. -/
structure Platform (Bytes Tree Text : Type) where
  encode : Text → Bytes
  decode : Bytes → Text
  follow : Tree → Option Bytes
  lockText : Text

/-- What the active boundaries leave when one of them is deactivated. -/
inductive Remaining (Text : Type) where
  | invalid
  | noneActive
  | gone
  | left (legacy set : Text)

structure ActivationInput (Text : Type) where
  contract : Text
  activation : Text
  runtimeConfig : Text
  explorationDisabled : Bool
  remaining : Option Text → Option Text → Remaining Text

abbrev Files (Bytes Tree : Type) := FileSystem Path (Node Bytes Tree)

abbrev Activating (Bytes Tree : Type) := Progress (Files Bytes Tree) Operation

abbrev Step (Bytes Tree : Type) := Attempt (Files Bytes Tree) Operation

variable (platform : Platform Bytes Tree Text) (point : ℕ)

def privateText (text : Text) : Node Bytes Tree := .file (platform.encode text) privateMode

/-- The text of a file, if there is one; a read of anything without bytes fails. -/
def captureOptionalFile (fs : Files Bytes Tree) (file : TrackedFile) : Option (Option Text) :=
  match fs (.tracked file) with
  | none => some none
  | some (.file bytes _) => some (some (platform.decode bytes))
  | some (.other tree) => (platform.follow tree).map fun bytes => some (platform.decode bytes)

def restoreOptionalFile (fs : Files Bytes Tree) (file : TrackedFile) : Option Text → Files Bytes Tree
  | none => fs.remove (.tracked file)
  | some text => fs.write (.tracked file) (privateText platform text)

def read (p : Activating Bytes Tree) (file : TrackedFile) : Step Bytes Tree (Activating Bytes Tree) :=
  attempt point (.read (.tracked file)) (fun fs => (captureOptionalFile platform fs file).map fun _ => fs) p

/-- What is done to the files when a sequence fails. -/
def onFailure (repair : Files Bytes Tree → Files Bytes Tree) :
    Step Bytes Tree (Activating Bytes Tree) → Step Bytes Tree (Activating Bytes Tree)
  | .ok p => .ok p
  | .error failure => .error ⟨failure.operation, failure.progress.note repair⟩

/-- A temporary file is written and moved to its place. -/
def writeAtomic (file : TrackedFile) (text : Text) (p : Activating Bytes Tree) :
    Step Bytes Tree (Activating Bytes Tree) := do
  let p ← attempt point (.mkdir (.tracked file)) some p
  onFailure (fun fs => fs.remove (.temporary file)) do
    let p ← attempt point (.write (.temporary file))
      (fun fs => some (fs.write (.temporary file) (privateText platform text))) p
    attempt point (.rename (.temporary file) (.tracked file)) (fun fs => fs.rename (.temporary file) (.tracked file)) p

/-- The same, and the file is made private once more. -/
def writePrivateTextAtomic (file : TrackedFile) (text : Text) (p : Activating Bytes Tree) :
    Step Bytes Tree (Activating Bytes Tree) := do
  let p ← attempt point (.mkdir (.tracked file)) some p
  onFailure (fun fs => fs.remove (.temporary file)) do
    let p ← attempt point (.write (.temporary file))
      (fun fs => some (fs.write (.temporary file) (privateText platform text))) p
    let p ← attempt point (.rename (.temporary file) (.tracked file))
      (fun fs => fs.rename (.temporary file) (.tracked file)) p
    attempt point (.chmod (.tracked file))
      (fun fs => (fs (.tracked file)).map fun node => fs.write (.tracked file) node.makePrivate) p

def remove (file : TrackedFile) (p : Activating Bytes Tree) : Step Bytes Tree (Activating Bytes Tree) :=
  attempt point (.remove (.tracked file)) (fun fs => some (fs.remove (.tracked file))) p

/-- The boundaries that are active: those of the set, or else the one of the older file. -/
def remainingOf (input : ActivationInput Text) (fs : Files Bytes Tree) : Remaining Text :=
  input.remaining ((captureOptionalFile platform fs .boundarySet).join) ((captureOptionalFile platform fs .boundary).join)

/-- The set is read, and the older file where there is none. -/
def readBoundaries (p : Activating Bytes Tree) : Step Bytes Tree (Activating Bytes Tree) := do
  let p ← read platform point p .boundarySet
  if (captureOptionalFile platform p.state .boundarySet).join.isNone then read platform point p .boundary else pure p

def deactivateUnlocked (input : ActivationInput Text) (p : Activating Bytes Tree) :
    Step Bytes Tree (Activating Bytes Tree) := do
  let p ← readBoundaries platform point p
  match remainingOf platform input p.state with
  | .invalid => refuse p
  | .noneActive => pure p
  | .gone =>
    let p ← read platform point p .boundary
    let legacy := (captureOptionalFile platform p.state .boundary).join
    let p ← remove point .boundary p
    onFailure (fun fs => restoreOptionalFile platform fs .boundary legacy) (remove point .boundarySet p)
  | .left legacyText setText =>
    let p ← read platform point p .boundary
    let legacy := (captureOptionalFile platform p.state .boundary).join
    let p ← writePrivateTextAtomic platform point .boundary legacyText p
    onFailure (fun fs => restoreOptionalFile platform fs .boundary legacy)
      (writePrivateTextAtomic platform point .boundarySet setText p)

/-- The lock is taken and, however the rest ends, given back. -/
def deactivateExplorationBoundary (input : ActivationInput Text) (p : Activating Bytes Tree) :
    Step Bytes Tree (Activating Bytes Tree) := do
  let p ← attempt point (.mkdir .lock) some p
  let p ← attempt point (.write .lock) (fun fs => some (fs.write .lock (privateText platform platform.lockText))) p
  let p ← onFailure (fun fs => fs.remove .lock) (deactivateUnlocked platform point input p)
  pure (p.note fun fs => fs.remove .lock)

def disableExplore (input : ActivationInput Text) (p : Activating Bytes Tree) : Step Bytes Tree (Activating Bytes Tree) :=
  if input.explorationDisabled then deactivateExplorationBoundary platform point input p else pure p

def writeActivation (input : ActivationInput Text) (p : Activating Bytes Tree) :
    Step Bytes Tree (Activating Bytes Tree) := do
  let p ← writeAtomic platform point .contract input.contract p
  let p ← writeAtomic platform point .activation input.activation p
  let p ← attempt point (.failpoint "after_active_artifacts") some p
  let p ← disableExplore platform point input p
  let p ← attempt point (.failpoint "after_explore_deactivation") some p
  let p ← attempt point (.failpoint "before_runtime_config_commit") some p
  writeAtomic platform point .config input.runtimeConfig p

/-- An activation completes, or throws after the tracked files are restored. -/
inductive Outcome (Bytes Tree : Type) where
  | completed (fs : Files Bytes Tree)
  | thrown (fs : Files Bytes Tree)

/-- Every tracked file is written with its captured text, or removed. -/
def restoreTracked (captured fs : Files Bytes Tree) : Files Bytes Tree :=
  trackedFiles.foldl
    (fun fs file => restoreOptionalFile platform fs file (captureOptionalFile platform captured file).join) fs

/-- An activation whose operation at a point fails. -/
def activateProtectedQuery (input : ActivationInput Text) (fs : Files Bytes Tree) : Outcome Bytes Tree :=
  match trackedFiles.foldlM (read platform point) ⟨fs, []⟩ with
  | .error failure => .thrown failure.progress.state
  | .ok p =>
    match writeActivation platform point input p with
    | .ok done => .completed done.state
    | .error failure => .thrown (restoreTracked platform p.state failure.progress.state)

end Code

/-! ### What an activation is for -/

section Specification
variable {Bytes Tree Text : Type} (platform : Platform Bytes Tree Text) (input : ActivationInput Text)
  (fs₀ : Files Bytes Tree)

/-- The boundary files when one of the active boundaries is deactivated. -/
def Leaves (remaining : Remaining Text) (fs fs' : Files Bytes Tree) : Prop :=
  match remaining with
  | .gone => fs' (.tracked .boundary) = none ∧ fs' (.tracked .boundarySet) = none
  | .left legacy set => fs' (.tracked .boundary) = some (privateText platform legacy) ∧
      fs' (.tracked .boundarySet) = some (privateText platform set)
  | _ => fs' (.tracked .boundary) = fs (.tracked .boundary) ∧ fs' (.tracked .boundarySet) = fs (.tracked .boundarySet)

/-- What the boundaries leave, where the activation disables the exploration. -/
def leftBoundaries : Remaining Text :=
  if input.explorationDisabled then remainingOf platform input fs₀ else .noneActive

/-- Every new file is written and the boundary is deactivated, or all is as before. -/
def AllOrNothing : Outcome Bytes Tree → Prop
  | .completed fs =>
    fs (.tracked .contract) = some (privateText platform input.contract) ∧
    fs (.tracked .activation) = some (privateText platform input.activation) ∧
    fs (.tracked .config) = some (privateText platform input.runtimeConfig) ∧
    Leaves platform (leftBoundaries platform input fs₀) fs₀ fs
  | .thrown fs => ∀ file, fs (.tracked file) = fs₀ (.tracked file)

/-- A tracked file cannot be captured. -/
def Unreadable : Prop := ∃ file, captureOptionalFile platform fs₀ file = none

/-- Every tracked file is a private regular file whose bytes are the encoding of their text. -/
def PrivateTexts : Prop :=
  ∀ file node, fs₀ (.tracked file) = some node →
    ∃ bytes, node = .file bytes privateMode ∧ platform.encode (platform.decode bytes) = bytes

end Specification

section Proofs
variable {Bytes Tree Text : Type} {platform : Platform Bytes Tree Text} {point : ℕ} {input : ActivationInput Text}
  {fs₀ : Files Bytes Tree} {p : Activating Bytes Tree}

/-- The files of the boundary are the same. -/
def SameBoundary (fs fs' : Files Bytes Tree) : Prop :=
  fs' (.tracked .boundary) = fs (.tracked .boundary) ∧ fs' (.tracked .boundarySet) = fs (.tracked .boundarySet)

/-- However a sequence fails. -/
abbrev Whenever (Q : Activating Bytes Tree → Prop) : Step Bytes Tree (Activating Bytes Tree) → Prop :=
  Ends Q fun _ => True

theorem whenever_onFailure {Q : Activating Bytes Tree → Prop} {repair : Files Bytes Tree → Files Bytes Tree}
    {r : Step Bytes Tree (Activating Bytes Tree)} (ends : Whenever Q r) : Whenever Q (onFailure repair r) := by
  cases r with
  | error failure => trivial
  | ok p => exact ends

/-- Nothing but a file of the list is changed. -/
def SameBut (files : List TrackedFile) (fs fs' : Files Bytes Tree) : Prop :=
  ∀ file, file ∉ files → fs' (.tracked file) = fs (.tracked file)

theorem read_ends (file : TrackedFile) : Whenever (fun p' => p'.state = p.state) (read platform point p file) :=
  attempt_does.mono fun p' does => by
    obtain ⟨text, -, is⟩ := Option.map_eq_some_iff.mp does
    exact is.symm

theorem readBoundaries_ends : Whenever (fun p' => p'.state = p.state) (readBoundaries platform point p) := by
  refine (read_ends .boundarySet).bind fun p₁ same => ?_
  split
  · exact (read_ends .boundary).mono fun p₂ is => is.trans same
  · exact same

theorem writeTemporary_ends (file : TrackedFile) (text : Text) : Whenever
    (fun p' => p'.state (.tracked file) = some (privateText platform text) ∧ SameBut [file] p.state p'.state) (do
      let p ← attempt point (.write (.temporary file))
        (fun fs => some (fs.write (.temporary file) (privateText platform text))) p
      attempt point (.rename (.temporary file) (.tracked file))
        (fun fs => fs.rename (.temporary file) (.tracked file)) p) := by
  refine attempt_does.bind fun p₁ written => attempt_does.mono fun p₂ moved => ?_
  obtain ⟨node, is, moved⟩ := FileSystem.rename_eq_some.mp moved
  rw [← Option.some.inj written] at is moved
  rw [FileSystem.write_self, Option.some.injEq] at is
  rw [moved]
  refine ⟨by simp [is], fun other apart => ?_⟩
  have ne : other ≠ file := by simpa using apart
  simp [ne]

theorem writeAtomic_ends (file : TrackedFile) (text : Text) :
    Whenever (fun p' => p'.state (.tracked file) = some (privateText platform text) ∧ SameBut [file] p.state p'.state)
      (writeAtomic platform point file text p) := by
  refine attempt_does.bind fun p₁ same => ?_
  rw [Option.some.inj same]
  exact whenever_onFailure (writeTemporary_ends file text)

theorem writePrivateTextAtomic_ends (file : TrackedFile) (text : Text) :
    Whenever (fun p' => p'.state (.tracked file) = some (privateText platform text) ∧ SameBut [file] p.state p'.state)
      (writePrivateTextAtomic platform point file text p) := by
  refine attempt_does.bind fun p₁ same => ?_
  rw [Option.some.inj same]
  refine whenever_onFailure ?_
  rw [← bind_assoc]
  refine (writeTemporary_ends file text).bind fun p₂ ⟨is, others⟩ => attempt_does.mono fun p₃ done => ?_
  rw [is, Option.map_some, Option.some.injEq] at done
  rw [← done]
  refine ⟨by simp [privateText, Node.makePrivate], fun other apart => ?_⟩
  have ne : other ≠ file := by simpa using apart
  rw [FileSystem.write_other _ _ (by simpa using ne), others other apart]

theorem SameBut.trans {files : List TrackedFile} {fs fs' fs'' : Files Bytes Tree} (first : SameBut files fs fs')
    (second : SameBut files fs' fs'') : SameBut files fs fs'' := fun file apart =>
  (second file apart).trans (first file apart)

theorem SameBut.mono {files more : List TrackedFile} {fs fs' : Files Bytes Tree} (same : SameBut files fs fs')
    (within : files ⊆ more) : SameBut more fs fs' := fun file apart => same file fun member => apart (within member)

theorem remove_ends (file : TrackedFile) :
    Whenever (fun p' => p'.state (.tracked file) = none ∧ SameBut [file] p.state p'.state) (remove point file p) :=
  attempt_does.mono fun p' done => by
    rw [← Option.some.inj done]
    refine ⟨by simp, fun other apart => ?_⟩
    have ne : other ≠ file := by simpa using apart
    simp [ne]

theorem deactivateUnlocked_ends :
    Whenever (fun p' => Leaves platform (remainingOf platform input p.state) p.state p'.state ∧
      SameBut [.boundary, .boundarySet] p.state p'.state) (deactivateUnlocked platform point input p) := by
  refine readBoundaries_ends.bind fun p₂ same => ?_
  rw [same]
  cases remaining : remainingOf platform input p.state with
  | invalid => trivial
  | noneActive =>
    have unchanged : SameBoundary p.state p₂.state := ⟨by rw [same], by rw [same]⟩
    exact ⟨unchanged, fun file _ => by rw [same]⟩
  | gone =>
    refine (read_ends .boundary).bind fun p₃ same' => (remove_ends .boundary).bind fun p₄ ⟨legacy, others⟩ =>
      whenever_onFailure ((remove_ends .boundarySet).mono fun p₅ ⟨set, others'⟩ => ?_)
    rw [same', same] at others
    exact ⟨⟨(others' _ (by simp)).trans legacy, set⟩, (others.mono (by simp)).trans (others'.mono (by simp))⟩
  | left legacyText setText =>
    refine (read_ends .boundary).bind fun p₃ same' => (writePrivateTextAtomic_ends .boundary legacyText).bind
      fun p₄ ⟨legacy, others⟩ => whenever_onFailure ((writePrivateTextAtomic_ends .boundarySet setText).mono
        fun p₅ ⟨set, others'⟩ => ?_)
    rw [same', same] at others
    exact ⟨⟨(others' _ (by simp)).trans legacy, set⟩, (others.mono (by simp)).trans (others'.mono (by simp))⟩

/-- The files of the boundary say what is left of it. -/
theorem remainingOf_congr {fs fs' : Files Bytes Tree} (legacy : fs' (.tracked .boundary) = fs (.tracked .boundary))
    (set : fs' (.tracked .boundarySet) = fs (.tracked .boundarySet)) :
    remainingOf platform input fs' = remainingOf platform input fs := by
  simp only [remainingOf, captureOptionalFile, legacy, set]

theorem Leaves.congr {remaining : Remaining Text} {before before' after after' : Files Bytes Tree}
    (leaves : Leaves platform remaining before after) (sameBefore : SameBoundary before before')
    (sameAfter : SameBoundary after after') : Leaves platform remaining before' after' := by
  obtain ⟨one, two⟩ := sameBefore
  obtain ⟨three, four⟩ := sameAfter
  cases remaining <;> simp only [Leaves, one, two, three, four] at leaves ⊢ <;> exact leaves

theorem deactivateExplorationBoundary_ends :
    Whenever (fun p' => Leaves platform (remainingOf platform input p.state) p.state p'.state ∧
      SameBut [.boundary, .boundarySet] p.state p'.state) (deactivateExplorationBoundary platform point input p) := by
  refine attempt_does.bind fun p₁ made => attempt_does.bind fun p₂ locked => ?_
  have same (file : TrackedFile) : p₂.state (.tracked file) = p.state (.tracked file) := by
    rw [← Option.some.inj locked, FileSystem.write_other _ _ (by simp), Option.some.inj made]
  refine (whenever_onFailure deactivateUnlocked_ends).bind fun p₃ ⟨leaves, others⟩ => ?_
  rw [remainingOf_congr (same _) (same _)] at leaves
  refine ⟨leaves.congr ⟨(same _).symm, (same _).symm⟩ ⟨by simp, by simp⟩, fun file apart => ?_⟩
  rw [Progress.note_state, FileSystem.remove_other _ (by simp), others file apart, same]

theorem writeActivation_ends (platform : Platform Bytes Tree Text) (point : ℕ) (input : ActivationInput Text)
    (p : Activating Bytes Tree) : Whenever (fun p' => AllOrNothing platform input p.state (.completed p'.state))
    (writeActivation platform point input p) := by
  refine (writeAtomic_ends .contract input.contract).bind fun p₁ ⟨contract, others₁⟩ => ?_
  refine (writeAtomic_ends .activation input.activation).bind fun p₂ ⟨activation, others₂⟩ => ?_
  refine attempt_does.bind fun p₃ same₃ => ?_
  have same₃ := Option.some.inj same₃
  have boundary : SameBoundary p.state p₃.state :=
    ⟨by rw [← same₃, others₂ _ (by simp), others₁ _ (by simp)],
      by rw [← same₃, others₂ _ (by simp), others₁ _ (by simp)]⟩
  refine Ends.bind (Q := fun p₄ => Leaves platform (leftBoundaries platform input p.state) p.state p₄.state ∧
    SameBut [.boundary, .boundarySet] p₃.state p₄.state) ?_ fun p₄ ⟨leaves, others₄⟩ => ?_
  · rw [leftBoundaries, disableExplore]
    split
    · refine deactivateExplorationBoundary_ends.mono fun p₄ ⟨leaves, others⟩ => ⟨?_, others⟩
      rw [remainingOf_congr boundary.1 boundary.2] at leaves
      exact leaves.congr ⟨boundary.1.symm, boundary.2.symm⟩ ⟨rfl, rfl⟩
    · exact ⟨boundary, fun _ _ => rfl⟩
  refine attempt_does.bind fun p₅ same₅ => attempt_does.bind fun p₆ same₆ => ?_
  have same₆ : p₄.state = p₆.state := (Option.some.inj same₅).trans (Option.some.inj same₆)
  refine (writeAtomic_ends .config input.runtimeConfig).mono fun p₇ ⟨config, others₇⟩ => ?_
  rw [← same₆] at others₇
  refine ⟨?_, ?_, config, leaves.congr ⟨rfl, rfl⟩ ⟨others₇ _ (by simp), others₇ _ (by simp)⟩⟩
  · rw [others₇ _ (by simp), others₄ _ (by simp), ← same₃, others₂ _ (by simp), contract]
  · rw [others₇ _ (by simp), others₄ _ (by simp), ← same₃, activation]

/-! ### Captures and restores -/

theorem restore_self (fs : Files Bytes Tree) (file : TrackedFile) (text : Option Text) :
    restoreOptionalFile platform fs file text (.tracked file) = text.map (privateText platform) := by
  cases text <;> simp [restoreOptionalFile]

theorem restore_other (fs : Files Bytes Tree) {file other : TrackedFile} (ne : other ≠ file) (text : Option Text) :
    restoreOptionalFile platform fs file text (.tracked other) = fs (.tracked other) := by
  cases text <;> simp [restoreOptionalFile, ne]

/-- Each tracked file has what its capture says, whatever happened in between. -/
theorem restoreTracked_eq (captured fs : Files Bytes Tree) (file : TrackedFile) :
    restoreTracked platform captured fs (.tracked file)
      = (captureOptionalFile platform captured file).join.map (privateText platform) := by
  cases file <;> simp [restoreTracked, trackedFiles, restore_self, restore_other]

/-- The five reads come first, and change nothing. -/
theorem captures_ends (platform : Platform Bytes Tree Text) (fs₀ : Files Bytes Tree) (point : ℕ) :
    Ends (fun p => p.state = fs₀ ∧ p.performed.length = 5 ∧ ¬ Unreadable platform fs₀)
      (fun failure => failure.progress.state = fs₀ ∧ (point < 5 ∨ Unreadable platform fs₀))
      (trackedFiles.foldlM (read platform point) ⟨fs₀, []⟩) := by
  have loop := ends_foldlM (l := trackedFiles) (f := read platform point) (p := ⟨fs₀, []⟩)
    (E := fun failure => failure.progress.state = fs₀ ∧ (point < 5 ∨ Unreadable platform fs₀))
    (I := fun before p => p.state = fs₀ ∧ p.performed.length = before.length ∧
      ∀ file ∈ before, captureOptionalFile platform fs₀ file ≠ none) ?_ ⟨rfl, rfl, by simp⟩
  · cases run : trackedFiles.foldlM (read platform point) ⟨fs₀, []⟩ with
    | error failure => rwa [run] at loop
    | ok p =>
      rw [run] at loop
      obtain ⟨same, five, readable⟩ := loop
      refine ⟨same, five, ?_⟩
      rintro ⟨file, unreadable⟩
      exact readable file (by cases file <;> simp [trackedFiles]) unreadable
  · intro before file after is p ⟨same, count, readable⟩
    have within := congrArg List.length is
    simp only [trackedFiles, List.length_append, List.length_cons, List.length_nil] at within
    unfold read attempt
    split
    · rename_i here
      exact ⟨same, .inl (by omega)⟩
    · rw [same]
      dsimp only
      cases captured : captureOptionalFile platform fs₀ file with
      | none => exact ⟨same, .inr ⟨file, captured⟩⟩
      | some text =>
        refine ⟨rfl, by simp [count], fun other member => ?_⟩
        rcases List.mem_append.mp member with earlier | here
        · exact readable other earlier
        · rw [List.mem_singleton.mp here, captured]
          simp

/-- The first operation that could change anything. -/
theorem writeActivation_fails (here : p.performed.length = point) :
    writeActivation platform point input p = .error ⟨some (.mkdir (.tracked .contract)), p⟩ := by
  unfold writeActivation writeAtomic attempt
  rw [if_pos here]
  rfl

/-- What is written back is what was there. -/
theorem writtenBack_iff :
    (∀ file, (captureOptionalFile platform fs₀ file).join.map (privateText platform) = fs₀ (.tracked file)) ↔
      PrivateTexts platform fs₀ := by
  constructor
  · intro same file node is
    have back := same file
    rw [is] at back
    cases node with
    | file bytes mode =>
      simp only [captureOptionalFile, is, Option.join_some, Option.map_some, Option.some.injEq, privateText,
        Node.file.injEq] at back
      exact ⟨bytes, by rw [back.2], back.1⟩
    | other tree =>
      obtain ⟨text, -, made⟩ := Option.map_eq_some_iff.mp back
      cases made
  · intro texts file
    cases is : fs₀ (.tracked file) with
    | none => simp [captureOptionalFile, is]
    | some node =>
      obtain ⟨bytes, rfl, same⟩ := texts file node is
      simp [captureOptionalFile, is, privateText, same]

/-- An activation is all or nothing at every point of failure exactly when a tracked file
    cannot be read at all, or every one that exists is private and encodes its text. -/
theorem activate_allOrNothing_iff (platform : Platform Bytes Tree Text) (input : ActivationInput Text)
    (fs₀ : Files Bytes Tree) :
    (∀ point, AllOrNothing platform input fs₀ (activateProtectedQuery platform point input fs₀)) ↔
      Unreadable platform fs₀ ∨ PrivateTexts platform fs₀ := by
  by_cases readable : Unreadable platform fs₀
  · refine iff_of_true (fun point => ?_) (.inl readable)
    have captured := captures_ends platform fs₀ point
    unfold activateProtectedQuery
    cases run : trackedFiles.foldlM (read platform point) ⟨fs₀, []⟩ with
    | error failure =>
      rw [run] at captured
      exact fun file => by rw [captured.1]
    | ok p =>
      rw [run] at captured
      exact absurd readable captured.2.2
  · rw [or_iff_right readable, ← writtenBack_iff]
    constructor
    · intro whole
      have captured := captures_ends platform fs₀ 5
      have thrown := whole 5
      unfold activateProtectedQuery at thrown
      cases run : trackedFiles.foldlM (read platform 5) ⟨fs₀, []⟩ with
      | error failure =>
        rw [run] at captured
        rcases captured.2 with early | unreadable
        · omega
        · exact absurd unreadable readable
      | ok p =>
        rw [run] at captured thrown
        dsimp only at thrown
        rw [writeActivation_fails captured.2.1, captured.1] at thrown
        exact fun file => (restoreTracked_eq fs₀ _ file).symm.trans (thrown file)
    · intro back point
      have captured := captures_ends platform fs₀ point
      unfold activateProtectedQuery
      cases run : trackedFiles.foldlM (read platform point) ⟨fs₀, []⟩ with
      | error failure =>
        rw [run] at captured
        exact fun file => by rw [captured.1]
      | ok p =>
        rw [run] at captured
        have written := writeActivation_ends platform point input p
        dsimp only
        cases write : writeActivation platform point input p with
        | ok done =>
          rw [write, captured.1] at written
          exact written
        | error failure =>
          dsimp only
          rw [captured.1]
          exact fun file => (restoreTracked_eq fs₀ _ file).trans (back file)

/-- Where the commits of authority are all or nothing: a commit at a point of failure, and an
    activation at all of them. -/
theorem authority_allOrNothing_iff (input : AuthorityCommits.CommitInput) (point : ℕ)
    (before : AuthorityCommits.Files Bytes Tree) (staged : AuthorityCommits.Staged input before)
    (platform : Platform Bytes Tree Text) (activation : ActivationInput Text) (fs₀ : Files Bytes Tree) :
    (AuthorityCommits.AllOrNothing input before (AuthorityCommits.commitManagedAutoBoundaryWrite input point before) ↔
      AuthorityCommits.Refused input before ∨ AuthorityCommits.NotNewChmod input before point) ∧
    ((∀ point, AllOrNothing platform activation fs₀ (activateProtectedQuery platform point activation fs₀)) ↔
      Unreadable platform fs₀ ∨ PrivateTexts platform fs₀) :=
  ⟨AuthorityCommits.commit_allOrNothing_iff staged, activate_allOrNothing_iff platform activation fs₀⟩

end Proofs

/-! ### A first commit -/

/-- One state file that did not exist before. -/
def firstCommit : AuthorityCommits.CommitInput := ⟨false, ["a"], []⟩

def firstFiles : AuthorityCommits.Files Unit Unit := fun path =>
  if path = .stagedOutput then some (.other ())
  else if path = .staged "a" then some (.file () 420)
  else none

theorem firstFiles_staged : AuthorityCommits.Staged firstCommit firstFiles := ⟨by decide, by decide, by decide⟩

theorem firstCommit_unrefused : ¬ AuthorityCommits.Refused firstCommit firstFiles := by
  rintro ⟨file, listed, inside | ⟨node, there, -⟩⟩
  · obtain rfl : file = "a" := by simpa [firstCommit, AuthorityCommits.CommitInput.installFiles,
      AuthorityCommits.CommitInput.removeFiles] using listed
    revert inside
    decide
  · simp [firstFiles] at there

/-- The file is installed and cannot be made private, and the rollback leaves it. -/
theorem first_file_stays :
    AuthorityCommits.Staged firstCommit firstFiles ∧ ¬ AuthorityCommits.AllOrNothing firstCommit firstFiles
      (AuthorityCommits.commitManagedAutoBoundaryWrite firstCommit 4 firstFiles) := by
  refine ⟨firstFiles_staged, fun whole => ?_⟩
  rcases (AuthorityCommits.commit_allOrNothing_iff firstFiles_staged).mp whole with refused | old
  · exact firstCommit_unrefused refused
  · exact old "a" (by decide) (by decide)

def plainPlatform : Platform Unit Unit Unit := ⟨id, id, fun _ => none, ()⟩

def plainActivation : ActivationInput Unit := ⟨(), (), (), false, fun _ _ => .noneActive⟩

theorem first_install_undone :
    AuthorityCommits.AllOrNothing firstCommit firstFiles
      (AuthorityCommits.commitManagedAutoBoundaryWrite firstCommit 3 firstFiles) ∧
    ∀ point, AllOrNothing plainPlatform plainActivation (fun _ => none)
      (activateProtectedQuery plainPlatform point plainActivation fun _ => none) := by
  obtain ⟨commits, activates⟩ := authority_allOrNothing_iff firstCommit 3 firstFiles firstFiles_staged plainPlatform
    plainActivation fun _ => none
  refine ⟨commits.mpr (.inr fun file is => ?_), activates.mpr (.inr fun file node is => by cases is)⟩
  have renames : (AuthorityCommits.operations firstCommit firstFiles)[3]? = some (.rename (.staged "a") (.target "a")) := by
    decide
  cases renames.symm.trans is

end SynapsorRunner.ProtectedActivation
