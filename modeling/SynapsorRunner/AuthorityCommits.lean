import Mathlib.Data.List.Nodup
import SynapsorRunner.Faults

/-!
The commit of generated authority. The output folder and the state files that are replaced or
removed are moved to a backup, the staged ones are moved to their places, and each installed
state file is made private. When an operation fails, what was noted so far is undone.

A state file is noted as installed after it is made private. When that fails for a file that
had no backup, because none existed, the file stays (`restored_iff`).
-/
namespace SynapsorRunner.AuthorityCommits
open SynapsorRunner.Faults
set_option linter.unusedSimpArgs false

/-- The places of a commit. The staged and the backup files are in a fresh directory, and the
    output folder is apart from the state files. -/
inductive Path where
  | output
  | stagedOutput
  | outputBackup
  | backupRoot
  | target (file : String)
  | staged (file : String)
  | backup (file : String)
  deriving DecidableEq

/-- A regular file, or anything else. -/
inductive Node (Bytes Tree : Type) where
  | file (bytes : Bytes) (mode : ℕ)
  | other (tree : Tree)
  deriving DecidableEq

inductive Operation where
  | mkdir (path : Path)
  | lstat (path : Path)
  | rename (source destination : Path)
  | chmod (path : Path)
  deriving DecidableEq

section Code
variable {Bytes Tree : Type}

def Node.isFile : Node Bytes Tree → Bool
  | file _ _ => true
  | other _ => false

/-- `0o600`. -/
def privateMode : ℕ := 384

def Node.makePrivate : Node Bytes Tree → Node Bytes Tree
  | file bytes _ => file bytes privateMode
  | other tree => other tree

abbrev Files (Bytes Tree : Type) := FileSystem Path (Node Bytes Tree)

def chmodPrivate (fs : Files Bytes Tree) (path : Path) : Option (Files Bytes Tree) :=
  (fs path).map fun node => fs.write path node.makePrivate

structure CommitInput where
  existingOutput : Bool
  installStateFiles : List String
  removeStateFiles : List String

def CommitInput.installFiles (input : CommitInput) : List String := input.installStateFiles.eraseDups

def CommitInput.removeFiles (input : CommitInput) : List String :=
  input.removeStateFiles.eraseDups.filter fun file => !(input.installFiles.contains file)

/-- The files, and what was noted about them. -/
structure CommitState (Bytes Tree : Type) where
  fs : Files Bytes Tree
  outputBackedUp : Bool
  outputInstalled : Bool
  stateBackedUp : List String
  stateInstalled : List String

def CommitState.start (fs : Files Bytes Tree) : CommitState Bytes Tree := ⟨fs, false, false, [], []⟩

abbrev Committing (Bytes Tree : Type) := Progress (CommitState Bytes Tree) Operation

abbrev Step (Bytes Tree : Type) := Attempt (CommitState Bytes Tree) Operation

def onFiles (effect : Files Bytes Tree → Option (Files Bytes Tree)) (s : CommitState Bytes Tree) :
    Option (CommitState Bytes Tree) := (effect s.fs).map fun fs => { s with fs }

/-- An operation that changes nothing. -/
def look (point : ℕ) (op : Operation) (p : Committing Bytes Tree) :
    Step Bytes Tree (Committing Bytes Tree) := attempt point op some p

def rename (point : ℕ) (source destination : Path) (p : Committing Bytes Tree) :
    Step Bytes Tree (Committing Bytes Tree) :=
  attempt point (.rename source destination) (onFiles fun fs => fs.rename source destination) p

def chmod (point : ℕ) (path : Path) (p : Committing Bytes Tree) : Step Bytes Tree (Committing Bytes Tree) :=
  attempt point (.chmod path) (onFiles fun fs => chmodPrivate fs path) p

/-- The checks of one state file, before anything is changed. -/
def checkFile (input : CommitInput) (point : ℕ) (p : Committing Bytes Tree) (file : String) :
    Step Bytes Tree (Committing Bytes Tree) := do
  if '/' ∈ file.toList then refuse p
  else
    let p ← look point (.lstat (.target file)) p
    match p.state.fs (.target file) with
    | none => pure p
    | some node =>
      let p ← look point (.lstat (.target file)) p
      if node.isFile = false then refuse p
      else if input.existingOutput = false ∧ file ∈ input.installFiles then refuse p
      else pure p

def prepare (input : CommitInput) (point : ℕ) (p : Committing Bytes Tree) : Step Bytes Tree (Committing Bytes Tree) := do
  let p ← look point (.mkdir .backupRoot) p
  (input.installFiles ++ input.removeFiles).foldlM (checkFile input point) p

def installFile (existed : String → Bool) (point : ℕ) (p : Committing Bytes Tree) (file : String) :
    Step Bytes Tree (Committing Bytes Tree) := do
  let p ← if existed file then do
      let p ← rename point (.target file) (.backup file) p
      pure (p.note fun s => { s with stateBackedUp := s.stateBackedUp ++ [file] })
    else pure p
  let p ← rename point (.staged file) (.target file) p
  let p ← chmod point (.target file) p
  pure (p.note fun s => { s with stateInstalled := s.stateInstalled ++ [file] })

def removeFile (existed : String → Bool) (point : ℕ) (p : Committing Bytes Tree) (file : String) :
    Step Bytes Tree (Committing Bytes Tree) :=
  if existed file then do
    let p ← rename point (.target file) (.backup file) p
    pure (p.note fun s => { s with stateBackedUp := s.stateBackedUp ++ [file] })
  else pure p

def installOutput (input : CommitInput) (point : ℕ) (p : Committing Bytes Tree) :
    Step Bytes Tree (Committing Bytes Tree) := do
  let p ← if input.existingOutput then do
      let p ← rename point .output .outputBackup p
      pure (p.note fun s => { s with outputBackedUp := true })
    else pure p
  let p ← rename point .stagedOutput .output p
  pure (p.note fun s => { s with outputInstalled := true })

def commitFiles (input : CommitInput) (existed : String → Bool) (point : ℕ) (p : Committing Bytes Tree) :
    Step Bytes Tree (Committing Bytes Tree) := do
  let p ← installOutput input point p
  let p ← input.installFiles.foldlM (installFile existed point) p
  input.removeFiles.foldlM (removeFile existed point) p

def restoreFile (fs : Files Bytes Tree) (file : String) : Option (Files Bytes Tree) :=
  (fs.remove (.target file)).rename (.backup file) (.target file)

/-- Undoes what was noted, the last file first. -/
def rollback (s : CommitState Bytes Tree) : Option (Files Bytes Tree) := do
  let fs := s.stateInstalled.reverse.foldl (fun fs file => fs.remove (.target file)) s.fs
  let fs ← s.stateBackedUp.reverse.foldlM restoreFile fs
  let fs := if s.outputInstalled then fs.remove .output else fs
  if s.outputBackedUp then fs.rename .outputBackup .output else pure fs

/-- A commit completes, throws after its rollback, or throws because that failed. -/
inductive Outcome (Bytes Tree : Type) where
  | completed (fs : Files Bytes Tree)
  | thrown (fs : Files Bytes Tree)
  | stuck

/-- A commit whose operation at a point fails. -/
def commitManagedAutoBoundaryWrite (input : CommitInput) (point : ℕ) (fs : Files Bytes Tree) : Outcome Bytes Tree :=
  match prepare input point ⟨.start fs, []⟩ with
  | .error failure => .thrown failure.progress.state.fs
  | .ok p =>
    -- `existed` is read off while the files are checked
    match commitFiles input (fun file => (p.state.fs (.target file)).isSome) point p with
    | .ok p => .completed p.state.fs
    | .error failure =>
      match rollback failure.progress.state with
      | some fs => .thrown fs
      | none => .stuck

/-! ### What a commit is for -/

variable (input : CommitInput) (fs₀ : Files Bytes Tree)

/-- Every new file is installed and every file to be removed is gone, or all is as before. -/
def AllOrNothing : Outcome Bytes Tree → Prop
  | .completed fs =>
    fs .output = fs₀ .stagedOutput ∧
    (∀ file ∈ input.installFiles, fs (.target file) = (fs₀ (.staged file)).map Node.makePrivate) ∧
    ∀ file ∈ input.removeFiles, fs (.target file) = none
  | .thrown fs => fs .output = fs₀ .output ∧ ∀ file, fs (.target file) = fs₀ (.target file)
  | .stuck => False

/-- What the caller has made sure of: the output is there when it says so, and everything is staged. -/
structure Staged : Prop where
  existing : input.existingOutput = (fs₀ .output).isSome
  output : fs₀ .stagedOutput ≠ none
  files : ∀ file ∈ input.installFiles, fs₀ (.staged file) ≠ none

/-- The checks refuse a state file. -/
def FileRefused (file : String) : Prop :=
  '/' ∈ file.toList ∨ ∃ node, fs₀ (.target file) = some node ∧
    (node.isFile = false ∨ input.existingOutput = false ∧ file ∈ input.installFiles)

/-- The checks refuse a file before anything is changed. -/
def Refused : Prop := ∃ file ∈ input.installFiles ++ input.removeFiles, FileRefused input fs₀ file

def checkOperations (file : String) : List Operation :=
  .lstat (.target file) :: if (fs₀ (.target file)).isSome then [.lstat (.target file)] else []

def backupOperations (file : String) : List Operation :=
  if (fs₀ (.target file)).isSome then [.rename (.target file) (.backup file)] else []

def installOperations (file : String) : List Operation :=
  backupOperations fs₀ file ++ [.rename (.staged file) (.target file), .chmod (.target file)]

def prepareOperations : List Operation :=
  .mkdir .backupRoot :: (input.installFiles ++ input.removeFiles).flatMap (checkOperations fs₀)

def outputOperations : List Operation :=
  (if input.existingOutput then [.rename .output .outputBackup] else []) ++ [.rename .stagedOutput .output]

/-- The operations of a commit, in their order. -/
def operations : List Operation :=
  prepareOperations input fs₀ ++ (outputOperations input ++
    (input.installFiles.flatMap (installOperations fs₀) ++ input.removeFiles.flatMap (backupOperations fs₀)))

end Code

/-! ### Undoing -/

section Undoing
variable {Bytes Tree : Type} {fs₀ : Files Bytes Tree} {s : CommitState Bytes Tree}

/-- What was noted is enough to undo what it says. -/
structure Undo (fs₀ : Files Bytes Tree) (s : CommitState Bytes Tree) : Prop where
  backups : ∀ file ∈ s.stateBackedUp, s.fs (.backup file) = fs₀ (.target file) ∧ fs₀ (.target file) ≠ none
  once : s.stateBackedUp.Nodup
  fresh : ∀ file ∈ s.stateInstalled, file ∉ s.stateBackedUp → fs₀ (.target file) = none
  outputBackup : s.outputBackedUp = true → s.fs .outputBackup = fs₀ .output ∧ fs₀ .output ≠ none
  outputFresh : s.outputBackedUp = false → s.outputInstalled = true → fs₀ .output = none
  outputKept : s.outputBackedUp = false → s.outputInstalled = false → s.fs .output = fs₀ .output

/-- A file of which nothing is noted is as it was. -/
def Kept (fs₀ : Files Bytes Tree) (s : CommitState Bytes Tree) : Prop :=
  ∀ file, file ∉ s.stateBackedUp → file ∉ s.stateInstalled → s.fs (.target file) = fs₀ (.target file)

theorem removeAll (files : List String) (fs : Files Bytes Tree) (path : Path) :
    files.foldl (fun fs file => fs.remove (.target file)) fs path
      = if ∃ file ∈ files, path = .target file then none else fs path := by
  induction files generalizing fs with
  | nil => simp
  | cons file files ih =>
    rw [List.foldl_cons, ih]
    by_cases later : ∃ file' ∈ files, path = .target file'
    · obtain ⟨file', member, is⟩ := later
      rw [if_pos ⟨file', member, is⟩, if_pos ⟨file', List.mem_cons_of_mem _ member, is⟩]
    · rw [if_neg later]
      by_cases here : path = .target file
      · rw [if_pos ⟨file, List.mem_cons_self .., here⟩, here, FileSystem.remove_self]
      · rw [FileSystem.remove_other _ here, if_neg]
        rintro ⟨file', member, is⟩
        rcases List.mem_cons.mp member with rfl | member
        · exact here is
        · exact later ⟨file', member, is⟩

theorem restoreAll {files : List String} (once : files.Nodup) {fs : Files Bytes Tree}
    (backups : ∀ file ∈ files, fs (.backup file) ≠ none) :
    ∃ fs', files.foldlM restoreFile fs = some fs' ∧
      (∀ file ∈ files, fs' (.target file) = fs (.backup file)) ∧
      ∀ path, (∀ file ∈ files, path ≠ .target file ∧ path ≠ .backup file) → fs' path = fs path := by
  induction files generalizing fs with
  | nil => exact ⟨fs, rfl, by simp, fun _ _ => rfl⟩
  | cons file files ih =>
    obtain ⟨new, once⟩ := List.nodup_cons.mp once
    obtain ⟨node, is⟩ := Option.ne_none_iff_exists'.mp (backups file (List.mem_cons_self ..))
    have moved : restoreFile fs file = some (((fs.remove (.target file)).remove (.backup file)).write (.target file) node) :=
      FileSystem.rename_eq_some.mpr ⟨node, by simpa using is, rfl⟩
    have other {file' : String} (member : file' ∈ files) : file' ≠ file := fun same => new (same ▸ member)
    have others : ∀ file' ∈ files,
        ((fs.remove (.target file)).remove (.backup file)).write (.target file) node (.backup file') ≠ none := by
      intro file' member
      simpa [other member] using backups file' (List.mem_cons_of_mem _ member)
    obtain ⟨fs', run, restored, rest⟩ := ih once others
    refine ⟨fs', by rw [List.foldlM_cons, moved]; exact run, fun file' member => ?_, fun path apart => ?_⟩
    · rcases List.mem_cons.mp member with rfl | member
      · rw [rest _ fun file' member => ⟨by simpa using (other member).symm, by simp⟩]
        simp [is]
      · rw [restored file' member]
        simp [other member]
    · obtain ⟨target, backup⟩ := apart file (List.mem_cons_self ..)
      rw [rest path fun file' member => apart file' (List.mem_cons_of_mem _ member)]
      simp [target, backup]

/-- The rollback succeeds, and brings back the output and every file that was noted. -/
theorem rollback_spec (undo : Undo fs₀ s) :
    ∃ fs, rollback s = some fs ∧ fs .output = fs₀ .output ∧ ∀ file, fs (.target file) =
      if file ∈ s.stateBackedUp ∨ file ∈ s.stateInstalled then fs₀ (.target file) else s.fs (.target file) := by
  obtain ⟨fs₁, cleared⟩ : ∃ fs₁,
      fs₁ = s.stateInstalled.reverse.foldl (fun fs file => fs.remove (.target file)) s.fs := ⟨_, rfl⟩
  have at_path (path : Path) :
      fs₁ path = if ∃ file ∈ s.stateInstalled.reverse, path = .target file then none else s.fs path := by
    rw [cleared, removeAll]
  have backup (file : String) : fs₁ (.backup file) = s.fs (.backup file) := by simp [at_path]
  have backups : ∀ file ∈ s.stateBackedUp.reverse, fs₁ (.backup file) ≠ none := by
    intro file member
    obtain ⟨same, there⟩ := undo.backups file (List.mem_reverse.mp member)
    rwa [backup, same]
  obtain ⟨fs₂, run, restored, rest⟩ := restoreAll (List.nodup_reverse.mpr undo.once) backups
  have targets (file : String) : fs₂ (.target file) =
      if file ∈ s.stateBackedUp ∨ file ∈ s.stateInstalled then fs₀ (.target file) else s.fs (.target file) := by
    by_cases backed : file ∈ s.stateBackedUp
    · rw [restored file (List.mem_reverse.mpr backed), backup, (undo.backups file backed).1, if_pos (.inl backed)]
    · have apart : ∀ file' ∈ s.stateBackedUp.reverse,
          Path.target file ≠ .target file' ∧ Path.target file ≠ .backup file' := by
        intro file' member
        refine ⟨fun same => backed ?_, by simp⟩
        rw [Path.target.injEq] at same
        exact same ▸ List.mem_reverse.mp member
      rw [rest _ apart, at_path]
      by_cases noted : file ∈ s.stateInstalled
      · rw [if_pos ⟨file, List.mem_reverse.mpr noted, rfl⟩, if_pos (.inr noted), undo.fresh file noted backed]
      · rw [if_neg (by simp [noted]), if_neg (by simp [backed, noted])]
  have output : fs₂ .output = s.fs .output := by
    rw [rest _ (by simp), at_path, if_neg (by simp)]
  have outputBackup : fs₂ .outputBackup = s.fs .outputBackup := by
    rw [rest _ (by simp), at_path, if_neg (by simp)]
  obtain ⟨fs₃, removed⟩ : ∃ fs₃, fs₃ = if s.outputInstalled then fs₂.remove .output else fs₂ := ⟨_, rfl⟩
  have others {path : Path} (other : path ≠ .output) : fs₃ path = fs₂ path := by
    rw [removed]
    split
    · exact FileSystem.remove_other _ other
    · rfl
  have is : rollback s = if s.outputBackedUp then fs₃.rename .outputBackup .output else some fs₃ := by
    rw [rollback, ← cleared, run, removed]
    rfl
  rw [is]
  by_cases backed : s.outputBackedUp = true
  · obtain ⟨same, there⟩ := undo.outputBackup backed
    obtain ⟨node, there⟩ := Option.ne_none_iff_exists'.mp there
    have node_is : fs₃ .outputBackup = some node := by rw [others (by simp), outputBackup, same, there]
    refine ⟨(fs₃.remove .outputBackup).write .output node, ?_, by simp [there], fun file => ?_⟩
    · rw [if_pos backed]
      exact FileSystem.rename_eq_some.mpr ⟨node, node_is, rfl⟩
    · rw [FileSystem.write_other _ _ (by simp), FileSystem.remove_other _ (by simp), others (by simp), targets]
  · have unbacked : s.outputBackedUp = false := by simpa using backed
    refine ⟨fs₃, if_neg backed, ?_, fun file => by rw [others (by simp), targets]⟩
    by_cases noted : s.outputInstalled = true
    · rw [removed, if_pos noted, FileSystem.remove_self, undo.outputFresh unbacked noted]
    · rw [removed, if_neg noted, output, undo.outputKept unbacked (by simpa using noted)]

end Undoing

/-! ### Runs -/

section Runs
variable {Bytes Tree : Type} {input : CommitInput} {fs₀ : Files Bytes Tree} {point : ℕ} {p : Committing Bytes Tree}

theorem look_ends {Q : Committing Bytes Tree → Prop} {E : Failure (CommitState Bytes Tree) Operation → Prop}
    {op : Operation} {planned rest : List Operation} (next : Planned point planned p (op :: rest))
    (done : Planned point planned ⟨p.state, p.performed ++ [op]⟩ rest → Q ⟨p.state, p.performed ++ [op]⟩)
    (failed : FailsWithin point planned ⟨some op, p⟩ → E ⟨some op, p⟩) : Ends Q E (look point op p) :=
  attempt_ends rfl next done failed

/-- A checked file leaves everything as it is. -/
theorem checkFile_ends {planned rest : List Operation} {file : String}
    (listed : file ∈ input.installFiles ++ input.removeFiles) (same : p.state = .start fs₀)
    (next : Planned point planned p (checkOperations fs₀ file ++ rest)) :
    Ends (fun p' => p'.state = .start fs₀ ∧ Planned point planned p' rest ∧ ¬ FileRefused input fs₀ file)
      (fun failure => failure.progress.state = .start fs₀ ∧ (Refused input fs₀ ∨ FailsWithin point planned failure))
      (checkFile input point p file) := by
  unfold checkFile
  split
  · rename_i inside
    exact ⟨same, .inl ⟨file, listed, .inl inside⟩⟩
  · rename_i plain
    rw [checkOperations, List.cons_append] at next
    refine Ends.bind (look_ends next (Q := fun p' => p'.state = .start fs₀ ∧
      Planned point planned p' ((if (fs₀ (.target file)).isSome then [.lstat (.target file)] else []) ++ rest))
      (fun done => ⟨same, done⟩) fun failed => ⟨same, .inr failed⟩) fun p ⟨same, next⟩ => ?_
    have files : p.state.fs (.target file) = fs₀ (.target file) := by rw [same]; rfl
    rw [files]
    cases there : fs₀ (.target file) with
    | none => exact ⟨same, by simpa [there] using next, by simp [FileRefused, plain, there]⟩
    | some node =>
      rw [there] at next
      refine Ends.bind (look_ends next (Q := fun p' => p'.state = .start fs₀ ∧
        Planned point planned p' rest) (fun done => ⟨same, done⟩) fun failed => ⟨same, .inr failed⟩)
        fun p ⟨same, next⟩ => ?_
      have refused (why : node.isFile = false ∨ input.existingOutput = false ∧ file ∈ input.installFiles) :
          Refused input fs₀ := ⟨file, listed, .inr ⟨node, there, why⟩⟩
      split
      · rename_i why
        exact ⟨same, .inl (refused (.inl why))⟩
      · rename_i regular
        split
        · rename_i why
          exact ⟨same, .inl (refused (.inr why))⟩
        · rename_i managed
          refine ⟨same, next, ?_⟩
          rintro (inside | ⟨node', is, irregular | unmanaged⟩)
          · exact plain inside
          · cases there.symm.trans is
            exact regular irregular
          · exact managed unmanaged

/-- Before anything is changed: the checks refuse, an operation that only looks fails, or
    everything is as it was and no file is refused. -/
theorem prepare_ends (input : CommitInput) (fs₀ : Files Bytes Tree) (point : ℕ) :
    Ends (fun p => p.state = .start fs₀ ∧ Planned point (prepareOperations input fs₀) p [] ∧ ¬ Refused input fs₀)
      (fun failure => failure.progress.state = .start fs₀ ∧
        (Refused input fs₀ ∨ FailsWithin point (prepareOperations input fs₀) failure))
      (prepare input point ⟨.start fs₀, []⟩) := by
  have start : Planned point (prepareOperations input fs₀) ⟨CommitState.start fs₀, []⟩ (.mkdir .backupRoot ::
      (input.installFiles ++ input.removeFiles).flatMap (checkOperations fs₀)) := ⟨rfl, Nat.zero_le _⟩
  refine Ends.bind (look_ends start (Q := fun p => p.state = .start fs₀ ∧ Planned point
      (prepareOperations input fs₀) p ((input.installFiles ++ input.removeFiles).flatMap (checkOperations fs₀)))
    (fun done => ⟨rfl, done⟩) fun failed => ⟨rfl, .inr failed⟩) fun p ⟨same, next⟩ => ?_
  have loop := ends_foldlM (l := input.installFiles ++ input.removeFiles) (f := checkFile input point) (p := p)
    (E := fun failure => failure.progress.state = .start fs₀ ∧
      (Refused input fs₀ ∨ FailsWithin point (prepareOperations input fs₀) failure))
    (I := fun before p => p.state = .start fs₀ ∧
      (∀ after, input.installFiles ++ input.removeFiles = before ++ after →
        Planned point (prepareOperations input fs₀) p (after.flatMap (checkOperations fs₀))) ∧
      ∀ file ∈ before, ¬ FileRefused input fs₀ file) ?_
    ⟨same, fun after is => by rw [is] at next; exact next, by simp⟩
  · cases run : (input.installFiles ++ input.removeFiles).foldlM (checkFile input point) p with
    | error failure => rwa [run] at loop
    | ok p' =>
      rw [run] at loop
      obtain ⟨same, next, unrefused⟩ := loop
      refine ⟨same, next [] (by simp), ?_⟩
      rintro ⟨file, member, why⟩
      exact unrefused file member why
  · intro before file after is p ⟨same, next, unrefused⟩
    have here := next (file :: after) is
    rw [List.flatMap_cons] at here
    have listed : file ∈ input.installFiles ++ input.removeFiles := by simp [is]
    have checked := checkFile_ends listed same here
    cases run : checkFile input point p file with
    | error failure => rwa [run] at checked
    | ok p' =>
      rw [run] at checked
      obtain ⟨same, next, passed⟩ := checked
      refine ⟨same, fun after' is' => ?_, fun file' member => ?_⟩
      · obtain rfl : after = after' := by simpa [is] using is'
        exact next
      · rcases List.mem_append.mp member with earlier | here
        · exact unrefused file' earlier
        · rw [List.mem_singleton.mp here]
          exact passed

/-- What a failed operation leaves behind: enough to undo everything, or a new file that is
    not noted. -/
structure Left (fs₀ : Files Bytes Tree) (point : ℕ) (planned : List Operation)
    (failure : Failure (CommitState Bytes Tree) Operation) : Prop where
  fails : FailsWithin point planned failure
  undo : Undo fs₀ failure.progress.state
  files : (Kept fs₀ failure.progress.state ∧ ∀ file, failure.operation = some (.chmod (.target file)) →
      fs₀ (.target file) ≠ none) ∨
    ∃ file, failure.operation = some (.chmod (.target file)) ∧ fs₀ (.target file) = none ∧
      file ∉ failure.progress.state.stateBackedUp ∧ file ∉ failure.progress.state.stateInstalled ∧
      failure.progress.state.fs (.target file) ≠ none

/-- The state files of a list are settled as wanted, and nothing is noted of the others. -/
structure Halfway (fs₀ : Files Bytes Tree) (wanted : String → Option (Node Bytes Tree)) (settled : List String)
    (s : CommitState Bytes Tree) : Prop where
  undo : Undo fs₀ s
  kept : Kept fs₀ s
  output : s.fs .output = fs₀ .stagedOutput
  installed : s.outputInstalled = true
  pending : ∀ file, file ∉ settled →
    file ∉ s.stateBackedUp ∧ file ∉ s.stateInstalled ∧ s.fs (.staged file) = fs₀ (.staged file)
  settled : ∀ file ∈ settled, s.fs (.target file) = wanted file

/-- A rename that cannot be the one that makes a file private. -/
theorem Left.of_rename {planned : List Operation} {a b : Path} {p : Committing Bytes Tree}
    (fails : FailsWithin point planned ⟨some (.rename a b), p⟩) (undo : Undo fs₀ p.state) (kept : Kept fs₀ p.state) :
    Left fs₀ point planned ⟨some (.rename a b), p⟩ := ⟨fails, undo, .inl ⟨kept, fun file is => by cases is⟩⟩

theorem onFiles_rename {s : CommitState Bytes Tree} {a b : Path} {node : Node Bytes Tree} (there : s.fs a = some node) :
    onFiles (fun fs => fs.rename a b) s = some { s with fs := (s.fs.remove a).write b node } := by
  rw [onFiles, FileSystem.rename_eq_some.mpr ⟨node, there, rfl⟩]
  rfl

/-- A state file is about to be installed or removed: what was there is backed up, if anything was. -/
structure Ready (fs₀ : Files Bytes Tree) (wanted : String → Option (Node Bytes Tree)) (settled : List String)
    (file : String) (s : CommitState Bytes Tree) : Prop where
  undo : Undo fs₀ s
  kept : Kept fs₀ s
  output : s.fs .output = fs₀ .stagedOutput
  installed : s.outputInstalled = true
  staged : s.fs (.staged file) = fs₀ (.staged file)
  gone : s.fs (.target file) = none
  unnoted : file ∉ s.stateInstalled
  backed : file ∉ s.stateBackedUp → fs₀ (.target file) = none
  pending : ∀ file', file' ∉ settled → file' ≠ file →
    file' ∉ s.stateBackedUp ∧ file' ∉ s.stateInstalled ∧ s.fs (.staged file') = fs₀ (.staged file')
  settled : ∀ file' ∈ settled, file' ≠ file ∧ s.fs (.target file') = wanted file'

variable {wanted : String → Option (Node Bytes Tree)} {settled : List String} {s : CommitState Bytes Tree} {file : String}

/-- A file that did not exist needs no backup. -/
theorem Halfway.ready (halfway : Halfway fs₀ wanted settled s) (unsettled : file ∉ settled)
    (absent : fs₀ (.target file) = none) : Ready fs₀ wanted settled file s := by
  obtain ⟨unbacked, unnoted, staged⟩ := halfway.pending file unsettled
  exact ⟨halfway.undo, halfway.kept, halfway.output, halfway.installed, staged,
    (halfway.kept file unbacked unnoted).trans absent, unnoted, fun _ => absent,
    fun file' other _ => halfway.pending file' other,
    fun file' member => ⟨fun same => unsettled (same ▸ member), halfway.settled file' member⟩⟩

/-- The state when a file has been moved to its backup, and this is noted. -/
def backedUp (s : CommitState Bytes Tree) (file : String) (node : Node Bytes Tree) : CommitState Bytes Tree :=
  { s with fs := (s.fs.remove (.target file)).write (.backup file) node, stateBackedUp := s.stateBackedUp ++ [file] }

theorem Halfway.backUp (halfway : Halfway fs₀ wanted settled s) (unsettled : file ∉ settled) {node : Node Bytes Tree}
    (there : fs₀ (.target file) = some node) :
    s.fs (.target file) = some node ∧ Ready fs₀ wanted settled file (backedUp s file node) := by
  obtain ⟨unbacked, unnoted, staged⟩ := halfway.pending file unsettled
  have undo := halfway.undo
  refine ⟨(halfway.kept file unbacked unnoted).trans there, ?undo, fun file' one two => ?kept, ?_, halfway.installed,
    ?_, ?_, unnoted, fun absent => absurd (List.mem_append_right _ (List.mem_singleton_self file)) absent,
    fun file' other ne => ?pending, fun file' member => ?settled⟩
  case undo =>
    refine ⟨fun file' member => ?_, ?_, fun file' noted absent => undo.fresh file' noted fun member => absent ?_,
      fun backed => ?_, undo.outputFresh, fun _ missing => absurd (halfway.installed.symm.trans missing) (by simp)⟩
    · rcases List.mem_append.mp member with earlier | here
      · have ne : file' ≠ file := fun same => unbacked (same ▸ earlier)
        obtain ⟨is, some⟩ := undo.backups file' earlier
        exact ⟨by simp [backedUp, ne, is], some⟩
      · rw [List.mem_singleton.mp here]
        exact ⟨by simp [backedUp, there], by simp [there]⟩
    · exact List.nodup_append.mpr ⟨undo.once, by simp, fun a member b is => by
        rw [List.mem_singleton.mp is]
        exact fun same => unbacked (same ▸ member)⟩
    · exact List.mem_append_left _ member
    · obtain ⟨is, some⟩ := undo.outputBackup backed
      exact ⟨by simp [backedUp, is], some⟩
  case kept =>
    have ne : file' ≠ file := fun same => one (by simp [backedUp, same])
    have absent : file' ∉ s.stateBackedUp := fun member => one (List.mem_append_left _ member)
    simpa [backedUp, ne] using halfway.kept file' absent two
  case pending =>
    obtain ⟨absent, unnoted', staged'⟩ := halfway.pending file' other
    exact ⟨by simp [backedUp, absent, ne], unnoted', by simpa [backedUp] using staged'⟩
  case settled =>
    have ne : file' ≠ file := fun same => unsettled (same ▸ member)
    exact ⟨ne, by simpa [backedUp, ne] using halfway.settled file' member⟩
  · simpa [backedUp] using halfway.output
  · simpa [backedUp] using staged
  · simp [backedUp]

/-- Where a file is only moved away, it is settled. -/
theorem Ready.removed (ready : Ready fs₀ wanted settled file s) (is_wanted : wanted file = none) :
    Halfway fs₀ wanted (settled ++ [file]) s := by
  refine ⟨ready.undo, ready.kept, ready.output, ready.installed, fun file' other => ?_, fun file' member => ?_⟩
  · simp only [List.mem_append, List.mem_singleton, not_or] at other
    exact ready.pending file' other.1 other.2
  · rcases List.mem_append.mp member with earlier | here
    · exact (ready.settled file' earlier).2
    · rw [List.mem_singleton.mp here, ready.gone, is_wanted]

/-- The state when a node is at the place of a state file, and its staged file is gone. -/
def placed (s : CommitState Bytes Tree) (file : String) (node : Node Bytes Tree) : CommitState Bytes Tree :=
  { s with fs := (s.fs.remove (.staged file)).write (.target file) node }

theorem Ready.undo_placed (ready : Ready fs₀ wanted settled file s) (node : Node Bytes Tree) :
    Undo fs₀ (placed s file node) := by
  have undo := ready.undo
  refine ⟨fun file' member => ?_, undo.once, undo.fresh, fun backed => ?_, undo.outputFresh,
    fun _ missing => absurd (ready.installed.symm.trans missing) (by simp)⟩
  · simpa [placed] using undo.backups file' member
  · simpa [placed] using undo.outputBackup backed

/-- The staged file is in its place, private and noted. -/
theorem Ready.installs (ready : Ready fs₀ wanted settled file s) {node : Node Bytes Tree}
    (is_wanted : wanted file = some node) : Halfway fs₀ wanted (settled ++ [file])
      { placed s file node with stateInstalled := s.stateInstalled ++ [file] } := by
  have undo := ready.undo_placed node
  refine ⟨⟨undo.backups, undo.once, fun file' noted absent => ?_, undo.outputBackup, undo.outputFresh,
    fun _ missing => absurd (ready.installed.symm.trans missing) (by simp)⟩, fun file' one two => ?_, ?_, ready.installed,
    fun file' other => ?_, fun file' member => ?_⟩
  · rcases List.mem_append.mp noted with earlier | here
    · exact ready.undo.fresh file' earlier absent
    · rw [List.mem_singleton.mp here] at absent ⊢
      exact ready.backed absent
  · simp only [List.mem_append, List.mem_singleton, not_or] at two
    simpa [placed, two.2] using ready.kept file' one two.1
  · simpa [placed] using ready.output
  · simp only [List.mem_append, List.mem_singleton, not_or] at other
    obtain ⟨absent, unnoted, staged⟩ := ready.pending file' other.1 other.2
    exact ⟨absent, by simp [unnoted, other.2], by simpa [placed, other.2] using staged⟩
  · rcases List.mem_append.mp member with earlier | here
    · obtain ⟨ne, is⟩ := ready.settled file' earlier
      simpa [placed, ne] using is
    · rw [List.mem_singleton.mp here]
      simp [placed, is_wanted]

variable {existed : String → Bool} {planned rest : List Operation}

/-- A file that exists is backed up first, whether it is replaced or removed. -/
theorem backUp_ends (halfway : Halfway fs₀ wanted settled p.state) (unsettled : file ∉ settled)
    (known : existed file = (fs₀ (.target file)).isSome)
    (next : Planned point planned p (backupOperations fs₀ file ++ rest)) :
    Ends (fun p' => Ready fs₀ wanted settled file p'.state ∧ Planned point planned p' rest) (Left fs₀ point planned)
      (removeFile existed point p file) := by
  rw [backupOperations] at next
  rw [removeFile, known]
  cases there : fs₀ (.target file) with
  | none =>
    simp only [there, Option.isSome_none, Bool.false_eq_true, if_false, List.nil_append] at next ⊢
    exact ⟨halfway.ready unsettled there, next⟩
  | some node =>
    simp only [there, Option.isSome_some, if_true] at next ⊢
    obtain ⟨here, ready⟩ := halfway.backUp unsettled there
    refine Ends.bind (attempt_ends (onFiles_rename here) next (Q := fun p' => p'.state =
      { p.state with fs := (p.state.fs.remove (.target file)).write (.backup file) node } ∧ Planned point planned p' rest)
      (fun done => ⟨rfl, done⟩) fun failed => Left.of_rename failed halfway.undo halfway.kept)
      fun p' ⟨is, next⟩ => ⟨?_, next⟩
    rw [Progress.note_state, is]
    exact ready

theorem installFile_eq (existed : String → Bool) (point : ℕ) (p : Committing Bytes Tree) (file : String) :
    installFile existed point p file = (do
      let p ← removeFile existed point p file
      let p ← rename point (.staged file) (.target file) p
      let p ← chmod point (.target file) p
      pure (p.note fun s => { s with stateInstalled := s.stateInstalled ++ [file] })) := by
  unfold installFile removeFile
  by_cases there : existed file = true
  · simp only [there, if_true, bind_assoc]
  · simp only [there, if_false, Bool.false_eq_true, bind_assoc]

/-- A staged file is installed, or what is left of it can be undone, unless it is new and could
    not be made private. -/
theorem installFile_ends (halfway : Halfway fs₀ wanted settled p.state) (unsettled : file ∉ settled)
    (known : existed file = (fs₀ (.target file)).isSome) {node : Node Bytes Tree}
    (staged : fs₀ (.staged file) = some node) (is_wanted : wanted file = some node.makePrivate)
    (next : Planned point planned p (installOperations fs₀ file ++ rest)) :
    Ends (fun p' => Halfway fs₀ wanted (settled ++ [file]) p'.state ∧ Planned point planned p' rest)
      (Left fs₀ point planned) (installFile existed point p file) := by
  rw [installOperations, List.append_assoc] at next
  rw [installFile_eq]
  refine (backUp_ends halfway unsettled known next).bind fun p reached => ?_
  obtain ⟨ready, next⟩ := reached
  have here : p.state.fs (.staged file) = some node := ready.staged.trans staged
  refine Ends.bind (attempt_ends (onFiles_rename here) next
    (Q := fun p' => p'.state = placed p.state file node ∧ Planned point planned p' (.chmod (.target file) :: rest))
    (fun done => ⟨rfl, done⟩) fun failed => Left.of_rename failed ready.undo ready.kept) fun p' reached => ?_
  obtain ⟨is, next⟩ := reached
  have works : onFiles (fun fs => chmodPrivate fs (.target file)) p'.state
      = some (placed p.state file node.makePrivate) := by
    rw [is]
    simp [onFiles, chmodPrivate, placed, FileSystem.write]
  refine Ends.bind (attempt_ends works next (Q := fun p'' => p''.state = placed p.state file node.makePrivate ∧
    Planned point planned p'' rest) (fun done => ⟨rfl, done⟩) fun failed => ⟨failed, ?_, ?_⟩)
    fun p'' reached => ?_
  · dsimp only
    rw [is]
    exact ready.undo_placed node
  · dsimp only
    rw [is]
    by_cases backed : file ∈ p.state.stateBackedUp
    · left
      refine ⟨fun file' one two => ?_, fun file' same => ?_⟩
      · have ne : file' ≠ file := fun same => one (same ▸ backed)
        simpa [placed, ne] using ready.kept file' one two
      · cases same
        exact (ready.undo.backups file backed).2
    · exact .inr ⟨file, rfl, ready.backed backed, backed, ready.unnoted, by simp [placed]⟩
  · obtain ⟨is, next⟩ := reached
    refine ⟨?_, next⟩
    rw [Progress.note_state, is]
    exact ready.installs is_wanted

/-! ### The whole commit -/

theorem nodup_eraseDups (files : List String) : files.eraseDups.Nodup := by
  induction size : files.length using Nat.strongRecOn generalizing files with
  | ind n ih =>
    cases files with
    | nil => simp
    | cons file files =>
      have shorter : (files.filter fun other => !other == file).length < n := by
        have := List.length_filter_le (fun other => !other == file) files
        simp only [List.length_cons] at size
        omega
      rw [List.eraseDups_cons, List.nodup_cons]
      exact ⟨by simp [List.mem_eraseDups], ih _ shorter _ rfl⟩

theorem CommitInput.nodup_files (input : CommitInput) : (input.installFiles ++ input.removeFiles).Nodup := by
  refine List.nodup_append.mpr
    ⟨nodup_eraseDups _, (nodup_eraseDups _).filter _, fun file installed other removed same => ?_⟩
  subst same
  have apart := (List.mem_filter.mp removed).2
  simp [installed] at apart

/-- What the place of a state file is to hold. -/
def wantedFile (input : CommitInput) (fs₀ : Files Bytes Tree) (file : String) : Option (Node Bytes Tree) :=
  if file ∈ input.installFiles then (fs₀ (.staged file)).map Node.makePrivate else none

theorem undo_start (fs₀ : Files Bytes Tree) : Undo fs₀ (.start fs₀) := by
  constructor <;> simp [CommitState.start]

/-- The output is installed over what was there, which is backed up. -/
theorem installOutput_ends (staged : Staged input fs₀) (same : p.state = .start fs₀)
    (next : Planned point planned p (outputOperations input ++ rest)) :
    Ends (fun p' => Halfway fs₀ wanted [] p'.state ∧ Planned point planned p' rest) (Left fs₀ point planned)
      (installOutput input point p) := by
  obtain ⟨new, staged_is⟩ := Option.ne_none_iff_exists'.mp staged.output
  rw [outputOperations, List.append_assoc] at next
  unfold installOutput
  by_cases existing : input.existingOutput = true
  · obtain ⟨old, old_is⟩ := Option.isSome_iff_exists.mp (staged.existing.symm.trans existing)
    rw [if_pos existing] at next ⊢
    have here : p.state.fs .output = some old := by rw [same]; exact old_is
    refine Ends.bind (attempt_ends (onFiles_rename here) next (Q := fun p' => p'.state =
      { p.state with fs := (p.state.fs.remove .output).write .outputBackup old } ∧
        Planned point planned p' ([.rename .stagedOutput .output] ++ rest)) (fun done => ⟨rfl, done⟩)
      fun failed => Left.of_rename failed (by rw [same]; exact undo_start fs₀) (by rw [same]; exact fun _ _ _ => rfl))
      fun p' reached => ?_
    obtain ⟨is, next⟩ := reached
    rw [same] at is
    rw [pure_bind]
    have there : (p'.note fun s => { s with outputBackedUp := true }).state.fs .stagedOutput = some new := by
      rw [Progress.note_state, is]
      simp [CommitState.start, staged_is]
    refine Ends.bind (attempt_ends (onFiles_rename there) next (Q := fun p'' => p''.state = CommitState.mk
        ((((fs₀.remove .output).write .outputBackup old).remove .stagedOutput).write .output new) true false [] [] ∧
        Planned point planned p'' rest) (fun done => ⟨by rw [Progress.note_state, is]; rfl, done⟩)
      fun failed => Left.of_rename failed ?_ ?_) fun p'' reached => ?_
    · rw [Progress.note_state, is]
      constructor <;> simp [CommitState.start, old_is]
    · rw [Progress.note_state, is]
      exact fun file _ _ => by simp [CommitState.start]
    · obtain ⟨is, next⟩ := reached
      refine ⟨?_, next⟩
      rw [Progress.note_state, is]
      refine ⟨?_, fun file _ _ => by simp, by simp [staged_is], rfl, fun file _ => by simp, by simp⟩
      constructor <;> simp [old_is]
  · have absent : fs₀ .output = none := by simpa [existing] using staged.existing
    rw [if_neg existing] at next
    rw [if_neg existing, pure_bind]
    have here : p.state.fs .stagedOutput = some new := by rw [same]; exact staged_is
    refine Ends.bind (attempt_ends (onFiles_rename here) next (Q := fun p' => p'.state = CommitState.mk
        ((fs₀.remove .stagedOutput).write .output new) false false [] [] ∧ Planned point planned p' rest)
      (fun done => ⟨by rw [same]; rfl, done⟩) fun failed => Left.of_rename failed (by rw [same]; exact undo_start fs₀)
        (by rw [same]; exact fun _ _ _ => rfl)) fun p' reached => ?_
    obtain ⟨is, next⟩ := reached
    refine ⟨?_, next⟩
    rw [Progress.note_state, is]
    refine ⟨?_, fun file _ _ => by simp, by simp [staged_is], rfl, fun file _ => by simp, by simp⟩
    constructor <;> simp [absent]

theorem commitFiles_ends (staged : Staged input fs₀) (same : p.state = .start fs₀)
    (known : ∀ file, existed file = (fs₀ (.target file)).isSome)
    (next : Planned point planned p (outputOperations input ++ (input.installFiles.flatMap (installOperations fs₀)
      ++ input.removeFiles.flatMap (backupOperations fs₀)))) :
    Ends (fun p' => Halfway fs₀ (wantedFile input fs₀) (input.installFiles ++ input.removeFiles) p'.state ∧
      Planned point planned p' []) (Left fs₀ point planned) (commitFiles input existed point p) := by
  have once := input.nodup_files
  refine Ends.bind (Q := fun p => Halfway fs₀ (wantedFile input fs₀) [] p.state ∧ Planned point planned p
    (input.installFiles.flatMap (installOperations fs₀) ++ input.removeFiles.flatMap (backupOperations fs₀)))
    (installOutput_ends staged same next) fun p ⟨halfway, next⟩ => ?_
  refine Ends.bind (Q := fun p => Halfway fs₀ (wantedFile input fs₀) input.installFiles p.state ∧
    Planned point planned p (input.removeFiles.flatMap (backupOperations fs₀))) ?_ fun p ⟨halfway, next⟩ => ?_
  · have loop := ends_foldlM (l := input.installFiles) (f := installFile existed point) (p := p)
      (E := Left fs₀ point planned)
      (I := fun before p => Halfway fs₀ (wantedFile input fs₀) before p.state ∧
        ∀ after, input.installFiles = before ++ after → Planned point planned p
          (after.flatMap (installOperations fs₀) ++ input.removeFiles.flatMap (backupOperations fs₀))) ?_
      ⟨halfway, fun after is => by rw [is] at next; exact next⟩
    · cases run : input.installFiles.foldlM (installFile existed point) p with
      | error failure => rwa [run] at loop
      | ok p' =>
        rw [run] at loop
        exact ⟨loop.1, loop.2 [] (by simp)⟩
    · intro before file after is p ⟨halfway, next⟩
      have listed : file ∈ input.installFiles := by rw [is]; simp
      have new : file ∉ before := fun member => by
        rw [is] at once
        exact (List.nodup_append.mp (List.nodup_append.mp once).1).2.2 file member file (List.mem_cons_self ..) rfl
      obtain ⟨node, there⟩ := Option.ne_none_iff_exists'.mp (staged.files file listed)
      have here := next (file :: after) is
      rw [List.flatMap_cons, List.append_assoc] at here
      have is_wanted : wantedFile input fs₀ file = some node.makePrivate := by
        rw [wantedFile, if_pos listed, there]
        rfl
      have installs := installFile_ends halfway new (known file) there is_wanted here
      cases run : installFile existed point p file with
      | error failure => rwa [run] at installs
      | ok p' =>
        rw [run] at installs
        refine ⟨installs.1, fun after' is' => ?_⟩
        obtain rfl : after = after' := by simpa [is] using is'
        exact installs.2
  · have loop := ends_foldlM (l := input.removeFiles) (f := removeFile existed point) (p := p)
      (E := Left fs₀ point planned)
      (I := fun before p => Halfway fs₀ (wantedFile input fs₀) (input.installFiles ++ before) p.state ∧
        ∀ after, input.removeFiles = before ++ after →
          Planned point planned p (after.flatMap (backupOperations fs₀))) ?_
      ⟨by simpa using halfway, fun after is => by rw [is] at next; exact next⟩
    · cases run : input.removeFiles.foldlM (removeFile existed point) p with
      | error failure => rwa [run] at loop
      | ok p' =>
        rw [run] at loop
        exact ⟨loop.1, loop.2 [] (by simp)⟩
    · intro before file after is p ⟨halfway, next⟩
      have new : file ∉ input.installFiles ++ before := fun member => by
        rw [is, ← List.append_assoc] at once
        exact (List.nodup_append.mp once).2.2 file member file (List.mem_cons_self ..) rfl
      have here := next (file :: after) is
      rw [List.flatMap_cons] at here
      have removes := backUp_ends halfway new (known file) here
      cases run : removeFile existed point p file with
      | error failure => rwa [run] at removes
      | ok p' =>
        rw [run] at removes
        refine ⟨?_, fun after' is' => ?_⟩
        · rw [← List.append_assoc]
          exact removes.1.removed (if_neg fun listed => new (List.mem_append_left _ listed))
        · obtain rfl : after = after' := by simpa [is] using is'
          exact removes.2

/-- The operation that fails is not the one that makes a new state file private. -/
def NotNewChmod (input : CommitInput) (fs₀ : Files Bytes Tree) (point : ℕ) : Prop :=
  ∀ file, (operations input fs₀)[point]? = some (.chmod (.target file)) → fs₀ (.target file) ≠ none

theorem prepareOperations_look (input : CommitInput) (fs₀ : Files Bytes Tree) (path : Path) :
    .chmod path ∉ prepareOperations input fs₀ := by
  intro listed
  rcases List.mem_cons.mp listed with is | later
  · cases is
  · obtain ⟨file, -, inside⟩ := List.mem_flatMap.mp later
    rcases List.mem_cons.mp inside with is | again
    · cases is
    · split at again
      · cases List.mem_singleton.mp again
      · cases again

/-- A commit is all or nothing, unless it goes on to its operations and the one that fails
    makes a state file private that did not exist before. -/
theorem commit_allOrNothing_iff (staged : Staged input fs₀) :
    AllOrNothing input fs₀ (commitManagedAutoBoundaryWrite input point fs₀) ↔
      Refused input fs₀ ∨ NotNewChmod input fs₀ point := by
  have prepared := prepare_ends input fs₀ point
  unfold commitManagedAutoBoundaryWrite
  cases run : prepare input point ⟨.start fs₀, []⟩ with
  | error failure =>
    rw [run] at prepared
    obtain ⟨same, refused | fails⟩ := prepared
    · exact iff_of_true (by simp [AllOrNothing, same, CommitState.start]) (.inl refused)
    · refine iff_of_true (by simp [AllOrNothing, same, CommitState.start]) (.inr fun file is => ?_)
      obtain ⟨op, rest, op_is, planned, here⟩ := fails
      rw [operations, planned, List.append_assoc, List.getElem?_append_right (by omega), ← here] at is
      simp only [Nat.sub_self, List.cons_append, List.getElem?_cons_zero, Option.some.injEq] at is
      refine absurd ?_ (prepareOperations_look input fs₀ (.target file))
      rw [planned, is]
      simp
  | ok p =>
    rw [run] at prepared
    obtain ⟨same, performed, unrefused⟩ := prepared
    have known : ∀ file, (p.state.fs (.target file)).isSome = (fs₀ (.target file)).isSome := by
      rw [same]
      exact fun _ => rfl
    have next : Planned point (operations input fs₀) p (outputOperations input ++
        (input.installFiles.flatMap (installOperations fs₀) ++ input.removeFiles.flatMap (backupOperations fs₀))) :=
      ⟨by rw [operations, performed.1, List.append_nil], performed.2⟩
    have committed := commitFiles_ends staged same known next
    dsimp only
    cases commit : commitFiles input (fun file => (p.state.fs (.target file)).isSome) point p with
    | ok p' =>
      rw [commit] at committed
      obtain ⟨halfway, next⟩ := committed
      refine iff_of_true ⟨halfway.output, fun file listed => ?_, fun file listed => ?_⟩ (.inr fun file is => ?_)
      · rw [halfway.settled file (List.mem_append_left _ listed), wantedFile, if_pos listed]
      · rw [halfway.settled file (List.mem_append_right _ listed), wantedFile, if_neg]
        have apart := (List.mem_filter.mp listed).2
        simpa using apart
      · cases next.done.symm.trans is
    | error failure =>
      rw [commit] at committed
      obtain ⟨fs, back, output, files⟩ := rollback_spec committed.undo
      dsimp only
      rw [back]
      rcases committed.files with ⟨kept, old⟩ | ⟨file, op, new, unbacked, unnoted, left⟩
      · refine iff_of_true ⟨output, fun file => ?_⟩
          (.inr fun file is => old file (committed.fails.getElem?.symm.trans is))
        rw [files]
        split
        · rfl
        · rename_i noted
          exact kept file (fun member => noted (.inl member)) fun member => noted (.inr member)
      · refine iff_of_false (fun restored => left ?_) ?_
        · rw [← new, ← restored.2 file, files, if_neg (by simp [unbacked, unnoted])]
        · rintro (refused | old)
          · exact unrefused refused
          · exact old file (committed.fails.getElem?.trans op) new

end Runs

end SynapsorRunner.AuthorityCommits
