import SynapsorRunner.KeyedMap

/-!
Processes that share a state. Each is in a phase of its own, and a step of one moves its
phase and the shared state. The number of processes in the phases that pass a test changes
by what the step does to the one that moves (`count_advance`), so a counter in the shared
state is exact when every step moves it by the same.
-/
namespace SynapsorRunner.Processes

universe u v

structure System (σ : Type u) (φ : Type v) where
  shared : σ
  phases : KeyedMap ℕ φ

namespace System
variable {σ : Type u} {φ : Type v} (s : System σ φ)

def empty (shared : σ) : System σ φ := ⟨shared, .empty⟩

/-- The processes in the phases that pass a test. -/
def count (p : φ → Bool) : ℕ := s.phases.values.countP p

/-- One process moves. -/
def advance (id : ℕ) (shared : σ) (phase : φ) : System σ φ := ⟨shared, s.phases.set id phase⟩

@[simp] theorem count_empty (shared : σ) (p : φ → Bool) : (empty shared : System σ φ).count p = 0 := rfl
@[simp] theorem advance_shared (id : ℕ) (shared : σ) (phase : φ) : (s.advance id shared phase).shared = shared := rfl

variable {s} {id : ℕ} {old : φ}

theorem phase_advance (id' : ℕ) (shared : σ) (phase : φ) :
    (s.advance id shared phase).phases.get? id' = if id' = id then some phase else s.phases.get? id' :=
  KeyedMap.get?_set ..

theorem count_advance (p : φ → Bool) (found : s.phases.get? id = some old) (shared : σ) (phase : φ) :
    (s.advance id shared phase).count p + (p old).toNat = s.count p + (p phase).toNat :=
  KeyedMap.countP_values_set p found

/-- A new process. -/
theorem count_begin (p : φ → Bool) (absent : s.phases.get? id = none) (shared : σ) (phase : φ) :
    (s.advance id shared phase).count p = s.count p + (p phase).toNat := by
  unfold count advance
  rw [KeyedMap.values_set_of_absent absent, List.countP_append, List.countP_singleton]
  cases p phase <;> rfl

theorem count_mono {p q : φ → Bool} (weaker : ∀ phase, p phase = true → q phase = true) : s.count p ≤ s.count q :=
  List.countP_mono_left fun phase _ => weaker phase

/-- A process that passes the test is counted. -/
theorem count_pos {p : φ → Bool} (found : s.phases.get? id = some old) (passes : p old = true) : 0 < s.count p :=
  List.countP_pos_iff.mpr ⟨old, KeyedMap.mem_values_of_get? found, passes⟩

end System
end SynapsorRunner.Processes
