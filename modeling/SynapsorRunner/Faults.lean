import Mathlib.Logic.Function.Basic
import Mathlib.Data.List.Basic

/-!
Operations made one after the other on a state, one of which may fail. A failed operation
leaves the state as it is and ends the sequence; what was done before it is recorded
(`Progress`). Where the operations of a sequence are a list, the failed one is the next on it
(`FailsWithin`).

File systems are partial functions on any type of paths.
-/
namespace SynapsorRunner.Faults

universe u v w

/-! ### Sequences of operations -/

section Sequences
variable {σ : Type u} {Op : Type v}

structure Progress (σ : Type u) (Op : Type v) where
  state : σ
  performed : List Op

/-- What failed, if it was an operation, and what was done before. -/
structure Failure (σ : Type u) (Op : Type v) where
  operation : Option Op
  progress : Progress σ Op

abbrev Attempt (σ : Type u) (Op : Type v) := Except (Failure σ Op)

/-- An operation that fails at a point of the sequence, or by itself. -/
def attempt (point : ℕ) (op : Op) (effect : σ → Option σ) (p : Progress σ Op) : Attempt σ Op (Progress σ Op) :=
  if p.performed.length = point then .error ⟨some op, p⟩
  else match effect p.state with
    | none => .error ⟨some op, p⟩
    | some s => .ok ⟨s, p.performed ++ [op]⟩

/-- A check that refuses to go on. -/
def refuse (p : Progress σ Op) : Attempt σ Op (Progress σ Op) := .error ⟨none, p⟩

/-- Bookkeeping between the operations. -/
def Progress.note (p : Progress σ Op) (update : σ → σ) : Progress σ Op := ⟨update p.state, p.performed⟩

@[simp] theorem Progress.note_state (p : Progress σ Op) (update : σ → σ) : (p.note update).state = update p.state := rfl

@[simp] theorem Progress.note_performed (p : Progress σ Op) (update : σ → σ) :
    (p.note update).performed = p.performed := rfl

/-- The operation that fails is on the list after the ones that are done, and they are as
    many as the point says. -/
def FailsWithin (point : ℕ) (planned : List Op) (failure : Failure σ Op) : Prop :=
  ∃ op rest, failure.operation = some op ∧ planned = failure.progress.performed ++ op :: rest ∧
    failure.progress.performed.length = point

/-- What is still to do of a list, where the point is not passed. -/
def Planned (point : ℕ) (planned : List Op) (p : Progress σ Op) (rest : List Op) : Prop :=
  planned = p.performed ++ rest ∧ p.performed.length ≤ point

/-- How a sequence may end, and how it may fail. -/
def Ends (Q : Progress σ Op → Prop) (E : Failure σ Op → Prop) : Attempt σ Op (Progress σ Op) → Prop
  | .ok p => Q p
  | .error failure => E failure

variable {Q R : Progress σ Op → Prop} {E : Failure σ Op → Prop} {r : Attempt σ Op (Progress σ Op)}

theorem ends_ok {p : Progress σ Op} (holds : Q p) : Ends Q E (.ok p) := holds

/-- An operation that does not fail by itself, next on the list. -/
theorem attempt_ends {point : ℕ} {op : Op} {effect : σ → Option σ} {p : Progress σ Op} {s : σ} {planned rest : List Op}
    (works : effect p.state = some s) (next : Planned point planned p (op :: rest))
    (done : Planned point planned ⟨s, p.performed ++ [op]⟩ rest → Q ⟨s, p.performed ++ [op]⟩)
    (failed : FailsWithin point planned ⟨some op, p⟩ → E ⟨some op, p⟩) : Ends Q E (attempt point op effect p) := by
  unfold attempt
  split
  · rename_i here
    exact failed ⟨op, rest, rfl, next.1, here⟩
  · rename_i before
    rw [works]
    refine done ⟨by rw [next.1]; simp, ?_⟩
    have reached := next.2
    simp only [List.length_append, List.length_singleton]
    omega

/-- What an operation does where it does not fail. -/
theorem attempt_does {point : ℕ} {op : Op} {effect : σ → Option σ} {p : Progress σ Op} :
    Ends (fun p' => effect p.state = some p'.state) (fun _ => True) (attempt point op effect p) := by
  unfold attempt
  split
  · trivial
  · cases made : effect p.state with
    | none => trivial
    | some s => exact ends_ok rfl

/-- An operation that does not fail by itself, and what comes after it. -/
theorem attempt_bind (point : ℕ) (op : Op) (f : σ → σ) (p : Progress σ Op)
    (next : Progress σ Op → Attempt σ Op (Progress σ Op)) :
    (attempt point op (fun s => some (f s)) p >>= next) =
      if p.performed.length = point then .error ⟨some op, p⟩ else next ⟨f p.state, p.performed ++ [op]⟩ := by
  unfold attempt
  split <;> rfl

theorem Ends.mono (ends : Ends Q E r) (weaker : ∀ p, Q p → R p) : Ends R E r := by
  cases r with
  | error failure => exact ends
  | ok p => exact weaker p ends

/-- One sequence after another. -/
theorem Ends.bind {first : Attempt σ Op (Progress σ Op)} {next : Progress σ Op → Attempt σ Op (Progress σ Op)}
    (front : Ends Q E first) (back : ∀ p, Q p → Ends R E (next p)) : Ends R E (first >>= next) := by
  cases first with
  | error failure => exact front
  | ok p => exact back p front

/-- A sequence for each member of a list. -/
theorem ends_foldlM {α : Type w} {f : Progress σ Op → α → Attempt σ Op (Progress σ Op)} {I : List α → Progress σ Op → Prop}
    {l : List α} (steps : ∀ before x after, l = before ++ x :: after → ∀ p, I before p → Ends (I (before ++ [x])) E (f p x))
    {p : Progress σ Op} (start : I [] p) : Ends (I l) E (l.foldlM f p) := by
  suffices from_here : ∀ after before p, l = before ++ after → I before p → Ends (I l) E (after.foldlM f p) from
    from_here l [] p rfl start
  intro after
  induction after with
  | nil =>
    intro before p is holds
    obtain rfl : l = before := by simpa using is
    exact ends_ok holds
  | cons x after ih =>
    intro before p is holds
    rw [List.foldlM_cons]
    exact (steps before x after is p holds).bind fun p' holds' => ih (before ++ [x]) p' (by simp [is]) holds'

/-- The operation at the point of a list is the one that fails there. -/
theorem FailsWithin.getElem? {point : ℕ} {planned : List Op} {failure : Failure σ Op}
    (fails : FailsWithin point planned failure) : planned[point]? = failure.operation := by
  obtain ⟨op, rest, is, rfl, rfl⟩ := fails
  rw [is, List.getElem?_append_right (Nat.le_refl _)]
  simp

/-- The point of a list that was done is past its end. -/
theorem Planned.done {point : ℕ} {planned : List Op} {p : Progress σ Op} (next : Planned point planned p []) :
    planned[point]? = none := by
  obtain ⟨is, reached⟩ := next
  rw [List.append_nil] at is
  exact List.getElem?_eq_none (by rwa [is])

end Sequences

/-! ### File systems -/

section FileSystems
variable {P : Type u} {N : Type v} [DecidableEq P]

abbrev FileSystem (P : Type u) (N : Type v) := P → Option N

def FileSystem.remove (fs : FileSystem P N) (p : P) : FileSystem P N := Function.update fs p none

def FileSystem.write (fs : FileSystem P N) (p : P) (node : N) : FileSystem P N := Function.update fs p (some node)

/-- What is at the first path moves to the second. -/
def FileSystem.rename (fs : FileSystem P N) (a b : P) : Option (FileSystem P N) :=
  (fs a).map fun node => (fs.remove a).write b node

@[simp] theorem FileSystem.remove_self (fs : FileSystem P N) (p : P) : fs.remove p p = none := by
  simp [FileSystem.remove]

@[simp] theorem FileSystem.remove_other (fs : FileSystem P N) {p q : P} (other : q ≠ p) : fs.remove p q = fs q := by
  simp [FileSystem.remove, other]

@[simp] theorem FileSystem.write_self (fs : FileSystem P N) (p : P) (node : N) : fs.write p node p = some node := by
  simp [FileSystem.write]

@[simp] theorem FileSystem.write_other (fs : FileSystem P N) {p q : P} (node : N) (other : q ≠ p) :
    fs.write p node q = fs q := by simp [FileSystem.write, other]

theorem FileSystem.rename_eq_some {fs fs' : FileSystem P N} {a b : P} :
    fs.rename a b = some fs' ↔ ∃ node, fs a = some node ∧ fs' = (fs.remove a).write b node := by
  simp [FileSystem.rename, eq_comm (a := fs')]

end FileSystems

end SynapsorRunner.Faults
