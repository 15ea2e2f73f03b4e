import Mathlib.Data.List.Basic

/-!
Runs of a state machine given by a step function on states and events. A step
that an event does not enable leaves the state as it is, so every list of events
is a run and every interleaving of several parties is such a list. What every
step keeps, every run keeps; what a step keeps under a condition, a run keeps
whose steps all meet it.
-/
namespace SynapsorRunner

universe u v

namespace Runs
variable {σ : Type u} {ε : Type v} (step : σ → ε → σ)

/-- The state after the events of a run. -/
def run (s : σ) (events : List ε) : σ := events.foldl step s

@[simp] theorem run_nil (s : σ) : run step s [] = s := rfl
@[simp] theorem run_cons (s : σ) (e : ε) (events : List ε) : run step s (e :: events) = run step (step s e) events := rfl

theorem run_append (s : σ) (before after : List ε) :
    run step s (before ++ after) = run step (run step s before) after := List.foldl_append

/-- Every step of a run meets a condition on the state it starts in and its
    event. -/
def Throughout (C : σ → ε → Prop) (s : σ) : List ε → Prop
  | [] => True
  | e :: events => C s e ∧ Throughout C (step s e) events

variable {step}

theorem throughout_append {C : σ → ε → Prop} {s : σ} {before after : List ε} :
    Throughout step C s (before ++ after) ↔ Throughout step C s before ∧ Throughout step C (run step s before) after := by
  induction before generalizing s with
  | nil => simp [Throughout]
  | cons e rest ih => simp [Throughout, ih, and_assoc]

theorem throughout_of_forall {C : σ → ε → Prop} (always : ∀ s e, C s e) (s : σ) (events : List ε) :
    Throughout step C s events := by
  induction events generalizing s with
  | nil => trivial
  | cons e rest ih => exact ⟨always s e, ih _⟩

/-- A condition of every step of a run, with an invariant that the steps keep,
    at the step of any split of the run. -/
theorem throughout_at {C : σ → ε → Prop} {s : σ} {before after : List ε} {e : ε}
    (meets : Throughout step C s (before ++ e :: after)) : C (run step s before) e :=
  (throughout_append.mp meets).2.1

/-- A condition meets every step of a run when it meets the step of every split. -/
theorem throughout_iff_splits {C : σ → ε → Prop} {s : σ} {events : List ε} :
    Throughout step C s events ↔
      ∀ before e after, events = before ++ e :: after → C (run step s before) e := by
  constructor
  · rintro meets before e after rfl
    exact throughout_at meets
  · intro splits
    induction events generalizing s with
    | nil => trivial
    | cons e rest ih =>
      refine ⟨splits [] e rest rfl, ih fun before e' after parts => ?_⟩
      exact splits (e :: before) e' after (by rw [parts, List.cons_append])

/-- A condition that the steps of a run meet, with their events as events of the run. -/
theorem throughout_mem {C : σ → ε → Prop} {s : σ} {events : List ε} (meets : Throughout step C s events) :
    Throughout step (fun s e => C s e ∧ e ∈ events) s events := by
  refine throughout_iff_splits.mpr fun before e after parts => ?_
  subst parts
  exact ⟨throughout_at meets, List.mem_append_right _ (List.mem_cons_self ..)⟩

/-- What every step keeps under a condition holds after a run whose steps all
    meet it. -/
theorem invariant_of_throughout {C : σ → ε → Prop} (Inv : σ → Prop)
    (keeps : ∀ s e, Inv s → C s e → Inv (step s e)) {s : σ} {events : List ε}
    (meets : Throughout step C s events) (start : Inv s) : Inv (run step s events) := by
  induction events generalizing s with
  | nil => exact start
  | cons e rest ih => exact ih meets.2 (keeps s e start meets.1)

/-- What follows from an invariant and a condition holds of every step of a run whose steps
    all meet the condition. -/
theorem throughout_of_invariant {C P : σ → ε → Prop} (Inv : σ → Prop) (keeps : ∀ s e, Inv s → C s e → Inv (step s e))
    (follows : ∀ s e, Inv s → C s e → P s e) {s : σ} {events : List ε} (meets : Throughout step C s events) (start : Inv s) :
    Throughout step P s events := by
  induction events generalizing s with
  | nil => trivial
  | cons e rest ih => exact ⟨follows s e start meets.1, ih meets.2 (keeps s e start meets.1)⟩

/-- What every step keeps holds after every run. -/
theorem invariant (Inv : σ → Prop) (keeps : ∀ s e, Inv s → Inv (step s e)) {s : σ} (start : Inv s)
    (events : List ε) : Inv (run step s events) := by
  induction events generalizing s with
  | nil => exact start
  | cons e rest ih => exact ih (keeps s e start)

/-- A preorder that every step follows under a condition and an invariant
    relates the ends of a run whose steps all meet the condition. -/
theorem related_of_throughout {C : σ → ε → Prop} {Inv : σ → Prop} {R : σ → σ → Prop} (refl : ∀ s, R s s)
    (trans : ∀ a b c, R a b → R b c → R a c) (keeps : ∀ s e, Inv s → C s e → Inv (step s e))
    (follows : ∀ s e, Inv s → C s e → R s (step s e)) {s : σ} {events : List ε}
    (meets : Throughout step C s events) (start : Inv s) : R s (run step s events) := by
  induction events generalizing s with
  | nil => exact refl s
  | cons e rest ih =>
    exact trans _ _ _ (follows s e start meets.1) (ih meets.2 (keeps s e start meets.1))

/-- A preorder that every step follows relates the ends of every run. -/
theorem related {R : σ → σ → Prop} (refl : ∀ s, R s s) (trans : ∀ a b c, R a b → R b c → R a c)
    (follows : ∀ s e, R s (step s e)) (s : σ) (events : List ε) : R s (run step s events) := by
  induction events generalizing s with
  | nil => exact refl s
  | cons e rest ih => exact trans _ _ _ (follows s e) (ih (step s e))

/-- A property that a run starts without and ends with begins at one of its steps. -/
theorem begins_at (P : σ → Prop) {s : σ} {events : List ε} (start : ¬ P s) (finish : P (run step s events)) :
    ∃ before e after, events = before ++ e :: after ∧ ¬ P (run step s before) ∧ P (run step s (before ++ [e])) := by
  induction events generalizing s with
  | nil => exact absurd finish start
  | cons e rest ih =>
    by_cases now : P (step s e)
    · exact ⟨[], e, rest, rfl, start, now⟩
    · obtain ⟨before, e', after, parts, without, with'⟩ := ih now finish
      exact ⟨e :: before, e', after, by rw [parts, List.cons_append], without, with'⟩

end Runs
end SynapsorRunner
