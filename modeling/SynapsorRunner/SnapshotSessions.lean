import Mathlib.Logic.Function.Basic
import Mathlib.Data.List.Induction
import SynapsorRunner.Runs

/-!
Sessions on a shared table. A session takes a lock and a copy of the table,
works on the copy and at the end writes every row of it back by key, over
whatever stands there. Other operations change the table directly, in one
transaction. A lock is held by one session at a time, but holders of different
locks run side by side.

No write-back loses what was committed since the copy exactly when each one is
valid: every row that the session holds is in the table what it was in the copy,
or is there already (`noCommitLost_iff_validated`). Sessions of one lock alone write
back nothing else (`validated_of_one_lock`). What the direct operations and the
work on a copy do to the rows, a run of valid write-backs does
(`related_of_validated`).
-/
namespace SynapsorRunner.Sessions
open SynapsorRunner.Runs

universe u

/-- A table `τ` of rows `α` by keys `κ` under locks `ℓ`, the local stores `σ` of
    sessions that are opened by requests `ο` and work by edits `ε`, and the
    direct operations `δ`. -/
structure Shared (τ κ α σ ℓ ο ε δ : Type u) where
  row? : τ → κ → Option α
  upsert : τ → τ → τ
  row?_upsert : ∀ table written k, row? (upsert table written) k = (row? written k).or (row? table k)
  lock : ο → ℓ
  restore : ο → τ → Option σ
  edit : σ → ε → σ
  entries : σ → τ
  directLock : δ → ℓ
  direct : τ → δ → τ

structure Session (τ σ : Type u) where
  snapshot : τ
  store : σ

/-- The table and the sessions that hold the locks. -/
structure World (τ σ ℓ : Type u) where
  table : τ
  sessions : ℓ → Option (Session τ σ)

/-- A process opens a session, works in it, writes it back or gives it up; or it
    runs a direct operation. -/
inductive Event (ℓ ο ε δ : Type u) where
  | direct (operation : δ)
  | opens (request : ο)
  | edit (l : ℓ) (change : ε)
  | writeBack (l : ℓ)
  | abort (l : ℓ)

variable {τ κ α σ ℓ ο ε δ : Type u}

/-- The session of a lock ends. -/
def Event.Closes (l : ℓ) : Event ℓ ο ε δ → Prop
  | .writeBack l' | .abort l' => l' = l
  | _ => False

section
variable [DecidableEq ℓ]

namespace World

def hold (w : World τ σ ℓ) (l : ℓ) (session : Option (Session τ σ)) : World τ σ ℓ :=
  { w with sessions := Function.update w.sessions l session }

@[simp] theorem hold_table (w : World τ σ ℓ) (l : ℓ) (session : Option (Session τ σ)) :
    (w.hold l session).table = w.table := rfl

@[simp] theorem hold_self (w : World τ σ ℓ) (l : ℓ) (session : Option (Session τ σ)) :
    (w.hold l session).sessions l = session := by
  simp [hold]

theorem hold_of_ne (w : World τ σ ℓ) {l l' : ℓ} (session : Option (Session τ σ)) (apart : l' ≠ l) :
    (w.hold l session).sessions l' = w.sessions l' := by
  simp [hold, apart]

/-- No session is open. -/
def Quiet (w : World τ σ ℓ) : Prop := ∀ l, w.sessions l = none

end World

namespace Shared
variable (S : Shared τ κ α σ ℓ ο ε δ)

/-- What an event makes of the world. Nothing happens to a process that asks for
    a lock that is held, or whose copy cannot be restored. -/
def step (w : World τ σ ℓ) : Event ℓ ο ε δ → World τ σ ℓ
  | .direct operation =>
    if (w.sessions (S.directLock operation)).isSome then w else { w with table := S.direct w.table operation }
  | .opens request =>
    if (w.sessions (S.lock request)).isSome then w
    else match S.restore request w.table with
      | none => w
      | some store => w.hold (S.lock request) (some ⟨w.table, store⟩)
  | .edit l change =>
    match w.sessions l with
    | none => w
    | some session => w.hold l (some { session with store := S.edit session.store change })
  | .writeBack l =>
    match w.sessions l with
    | none => w
    | some session => { w with table := S.upsert w.table (S.entries session.store) }.hold l none
  | .abort l => w.hold l none

/-- A request opens a session: its lock is free and the copy can be restored. -/
def Opens (w : World τ σ ℓ) (request : ο) : Prop :=
  w.sessions (S.lock request) = none ∧ ∃ store, S.restore request w.table = some store

/-- What was committed between the copy of a session and its write-back is still
    there after the write-back. -/
def NoCommitLost (w : World τ σ ℓ) (events : List (Event ℓ ο ε δ)) : Prop :=
  ∀ before request between after,
    events = before ++ .opens request :: (between ++ .writeBack (S.lock request) :: after) →
    S.Opens (run S.step w before) request → (∀ e ∈ between, ¬ e.Closes (S.lock request)) →
    let copied := run S.step w before
    let current := run S.step w (before ++ .opens request :: between)
    ∀ k, S.row? current.table k ≠ S.row? copied.table k →
      S.row? (S.step current (.writeBack (S.lock request))).table k = S.row? current.table k

/-- A write-back is valid: every row that the session holds is in the table what
    it was in the copy, or is there already. -/
def Validated (w : World τ σ ℓ) : Event ℓ ο ε δ → Prop
  | .writeBack l => ∀ session, w.sessions l = some session → ∀ k row,
      S.row? (S.entries session.store) k = some row →
      S.row? w.table k = S.row? session.snapshot k ∨ S.row? w.table k = some row
  | _ => True

variable {S}

/-! ### Where a session comes from -/

theorem step_opens {w : World τ σ ℓ} {request : ο} {store : σ} (free : w.sessions (S.lock request) = none)
    (restored : S.restore request w.table = some store) :
    S.step w (.opens request) = w.hold (S.lock request) (some ⟨w.table, store⟩) := by
  simp [step, free, restored]

theorem step_writeBack {w : World τ σ ℓ} {l : ℓ} {session : Session τ σ} (held : w.sessions l = some session) :
    S.step w (.writeBack l) = { w with table := S.upsert w.table (S.entries session.store) }.hold l none := by
  simp [step, held]

/-- A session after one event is the session before it, or has just been opened. -/
theorem session_step {w : World τ σ ℓ} {e : Event ℓ ο ε δ} {l : ℓ} {session : Session τ σ}
    (held : (S.step w e).sessions l = some session) :
    (¬ e.Closes l ∧ ∃ earlier, w.sessions l = some earlier ∧ earlier.snapshot = session.snapshot) ∨
      ∃ request, e = .opens request ∧ S.lock request = l ∧ S.Opens w request ∧ session.snapshot = w.table := by
  cases e with
  | direct operation =>
    refine .inl ⟨id, session, ?_, rfl⟩
    simp only [step] at held
    split at held <;> exact held
  | opens request =>
    simp only [step] at held
    split at held
    · exact .inl ⟨id, session, held, rfl⟩
    · rename_i free
      cases restored : S.restore request w.table with
      | none => exact .inl ⟨id, session, by simpa [restored] using held, rfl⟩
      | some store =>
        rw [restored] at held
        by_cases same : l = S.lock request
        · subst same
          obtain rfl := Option.some.inj ((World.hold_self w _ _).symm.trans held)
          have open' : w.sessions (S.lock request) = none := by simpa using free
          exact .inr ⟨request, rfl, rfl, ⟨open', store, restored⟩, rfl⟩
        · rw [World.hold_of_ne w _ same] at held
          exact .inl ⟨id, session, held, rfl⟩
  | edit l' change =>
    refine .inl ⟨id, ?_⟩
    simp only [step] at held
    cases found : w.sessions l' with
    | none => rw [found] at held; exact ⟨session, held, rfl⟩
    | some earlier =>
      rw [found] at held
      by_cases same : l = l'
      · subst same
        obtain rfl := Option.some.inj ((World.hold_self w _ _).symm.trans held)
        exact ⟨earlier, found, rfl⟩
      · rw [World.hold_of_ne w _ same] at held
        exact ⟨session, held, rfl⟩
  | writeBack l' =>
    simp only [step] at held
    cases found : w.sessions l' with
    | none =>
      rw [found] at held
      refine .inl ⟨?_, session, held, rfl⟩
      rintro rfl
      rw [held] at found
      cases found
    | some earlier =>
      rw [found] at held
      by_cases same : l = l'
      · subst same
        rw [World.hold_self] at held
        cases held
      · rw [World.hold_of_ne _ _ same] at held
        exact .inl ⟨Ne.symm same, session, held, rfl⟩
  | abort l' =>
    simp only [step] at held
    by_cases same : l = l'
    · subst same
      rw [World.hold_self] at held
      cases held
    · rw [World.hold_of_ne w _ same] at held
      exact .inl ⟨Ne.symm same, session, held, rfl⟩

/-- A session stays open through an event that does not close it, with its copy. -/
theorem session_kept {w : World τ σ ℓ} {e : Event ℓ ο ε δ} {l : ℓ} {session : Session τ σ}
    (held : w.sessions l = some session) (stays : ¬ e.Closes l) :
    ∃ later, (S.step w e).sessions l = some later ∧ later.snapshot = session.snapshot := by
  cases e with
  | direct operation =>
    refine ⟨session, ?_, rfl⟩
    simp only [step]
    split <;> exact held
  | opens request =>
    refine ⟨session, ?_, rfl⟩
    simp only [step]
    split
    · exact held
    · rename_i free
      cases S.restore request w.table with
      | none => exact held
      | some store =>
        have apart : l ≠ S.lock request := by
          rintro rfl
          simp [held] at free
        exact (World.hold_of_ne w _ apart).trans held
  | edit l' change =>
    simp only [step]
    cases found : w.sessions l' with
    | none => exact ⟨session, held, rfl⟩
    | some earlier =>
      by_cases same : l = l'
      · subst same
        rw [held] at found
        cases found
        exact ⟨_, World.hold_self w _ _, rfl⟩
      · exact ⟨session, (World.hold_of_ne w _ same).trans held, rfl⟩
  | writeBack l' =>
    have apart : l ≠ l' := by
      rintro rfl
      exact stays rfl
    simp only [step]
    cases w.sessions l' with
    | none => exact ⟨session, held, rfl⟩
    | some earlier => exact ⟨session, (World.hold_of_ne _ _ apart).trans held, rfl⟩
  | abort l' =>
    have apart : l ≠ l' := by
      rintro rfl
      exact stays rfl
    exact ⟨session, (World.hold_of_ne w _ apart).trans held, rfl⟩

theorem session_kept_run {w : World τ σ ℓ} {l : ℓ} {session : Session τ σ} {events : List (Event ℓ ο ε δ)}
    (held : w.sessions l = some session) (stays : ∀ e ∈ events, ¬ e.Closes l) :
    ∃ later, (run S.step w events).sessions l = some later ∧ later.snapshot = session.snapshot := by
  induction events generalizing w session with
  | nil => exact ⟨session, held, rfl⟩
  | cons e rest ih =>
    obtain ⟨later, still, copy⟩ := session_kept held (stays e (List.mem_cons_self ..))
    obtain ⟨last, found, copy'⟩ := ih still fun e' member => stays e' (List.mem_cons_of_mem _ member)
    exact ⟨last, found, copy'.trans copy⟩

/-- An open session was opened in the run, by a request whose copy it holds. -/
theorem session_origin {w : World τ σ ℓ} (quiet : w.Quiet) {l : ℓ} {session : Session τ σ}
    {events : List (Event ℓ ο ε δ)} (held : (run S.step w events).sessions l = some session) :
    ∃ before request between, events = before ++ .opens request :: between ∧ S.lock request = l ∧
      S.Opens (run S.step w before) request ∧ (∀ e ∈ between, ¬ e.Closes l) ∧
      session.snapshot = (run S.step w before).table := by
  induction events using List.reverseRecOn generalizing session with
  | nil =>
    rw [run_nil, quiet l] at held
    cases held
  | append_singleton rest e ih =>
    rw [run_append, run_cons, run_nil] at held
    rcases session_step held with ⟨stays, earlier, found, copy⟩ | ⟨request, rfl, locks, opens, copy⟩
    · obtain ⟨before, request, between, parts, locks, opens, inside, copied⟩ := ih found
      refine ⟨before, request, between ++ [e], by rw [parts]; simp, locks, opens, ?_, copy.symm.trans copied⟩
      intro e' member
      rcases List.mem_append.mp member with earlier | last
      · exact inside e' earlier
      · rw [List.mem_singleton] at last
        exact last ▸ stays
    · exact ⟨rest, request, [], rfl, locks, opens, by simp, copy⟩

/-- The copy of a session that a request opened and nobody closed. -/
theorem session_opened {w : World τ σ ℓ} {before between : List (Event ℓ ο ε δ)} {request : ο}
    (opens : S.Opens (run S.step w before) request) (inside : ∀ e ∈ between, ¬ e.Closes (S.lock request)) :
    ∃ session, (run S.step w (before ++ .opens request :: between)).sessions (S.lock request) = some session ∧
      session.snapshot = (run S.step w before).table := by
  obtain ⟨free, store, restored⟩ := opens
  rw [run_append, run_cons, step_opens free restored]
  exact session_kept_run (World.hold_self _ _ _) inside

/-! ### Valid write-backs -/

theorem row?_writeBack {w : World τ σ ℓ} {l : ℓ} {session : Session τ σ} (held : w.sessions l = some session) (k : κ) :
    S.row? (S.step w (.writeBack l)).table k = (S.row? (S.entries session.store) k).or (S.row? w.table k) := by
  rw [step_writeBack held]
  exact S.row?_upsert _ _ _

/-- A run loses no commit exactly when its write-backs are valid. -/
theorem noCommitLost_iff_validated {w : World τ σ ℓ} (quiet : w.Quiet) (events : List (Event ℓ ο ε δ)) :
    S.NoCommitLost w events ↔ Throughout S.step S.Validated w events := by
  rw [throughout_iff_splits]
  constructor
  · intro kept before e after parts
    cases e with
    | writeBack l =>
      intro session held k row holds
      obtain ⟨earlier, request, between, split, rfl, opens, inside, copy⟩ := session_origin quiet held
      subst split
      by_cases same : S.row? (run S.step w (earlier ++ .opens request :: between)).table k = S.row? session.snapshot k
      · exact .inl same
      · refine .inr ?_
        rw [copy] at same
        have still := kept earlier request between after (by rw [parts]; simp) opens inside k same
        rw [row?_writeBack held, holds, Option.some_or] at still
        exact still.symm
    | direct operation => trivial
    | opens request => trivial
    | edit l change => trivial
    | abort l => trivial
  · rintro valid before request between after parts opens inside copied current k changed
    obtain ⟨session, held, copy⟩ := session_opened opens inside
    have here := valid (before ++ .opens request :: between) (.writeBack (S.lock request)) after
      (by rw [parts]; simp) session held k
    rw [row?_writeBack held]
    cases holds : S.row? (S.entries session.store) k with
    | none => rfl
    | some row =>
      rcases here row holds with same | written
      · rw [copy] at same
        exact absurd same changed
      · exact written.symm

/-! ### One lock -/

/-- An event of a process that works under a lock, and only by sessions. -/
def UnderLock (S : Shared τ κ α σ ℓ ο ε δ) (l : ℓ) : Event ℓ ο ε δ → Prop
  | .direct _ => False
  | .opens request => S.lock request = l
  | _ => True

/-- The sessions that are open hold the lock, and their copy is the table. -/
def Current (l : ℓ) (w : World τ σ ℓ) : Prop :=
  ∀ l' session, w.sessions l' = some session → l' = l ∧ session.snapshot = w.table

theorem Current.step {l : ℓ} {w : World τ σ ℓ} (current : Current l w) {e : Event ℓ ο ε δ} (under : S.UnderLock l e) :
    Current l (S.step w e) := by
  intro l' session held
  rcases session_step held with ⟨stays, earlier, found, copy⟩ | ⟨request, rfl, locks, opens, copy⟩
  · obtain ⟨rfl, same⟩ := current l' earlier found
    refine ⟨rfl, copy.symm.trans (same.trans ?_)⟩
    cases e with
    | direct operation => cases under
    | opens request =>
      simp only [Shared.step]
      split
      · rfl
      · cases S.restore request w.table <;> rfl
    | edit l change =>
      simp only [Shared.step]
      cases w.sessions l <;> rfl
    | writeBack l =>
      simp only [Shared.step]
      cases other : w.sessions l with
      | none => rfl
      | some session' => exact absurd (current l session' other).1 stays
    | abort l => rfl
  · refine ⟨locks.symm.trans under, copy.trans ?_⟩
    obtain ⟨free, store, restored⟩ := opens
    rw [step_opens free restored]
    rfl

/-- Sessions under one lock, with no direct operations, only write back what is
    valid. -/
theorem validated_of_one_lock {w : World τ σ ℓ} (quiet : w.Quiet) {l : ℓ} {events : List (Event ℓ ο ε δ)}
    (under : ∀ e ∈ events, S.UnderLock l e) : Throughout S.step S.Validated w events := by
  have current : Current l w := by
    intro l' session held
    rw [quiet l'] at held
    cases held
  clear quiet
  induction events generalizing w with
  | nil => trivial
  | cons e rest ih =>
    refine ⟨?_, ih (fun e' member => under e' (List.mem_cons_of_mem _ member))
      (current.step (under e (List.mem_cons_self ..)))⟩
    cases e with
    | writeBack l' =>
      intro session held k row holds
      rw [(current l' session held).2]
      exact .inl rfl
    | direct operation => trivial
    | opens request => trivial
    | edit l' change => trivial
    | abort l' => trivial

/-! ### What holds of every row -/

/-- A preorder on rows that direct operations follow, and sessions from their
    copy to what they hold. `Held` is the invariant of the open sessions. -/
structure Follows (S : Shared τ κ α σ ℓ ο ε δ) (R : Option α → Option α → Prop) (Held : τ → σ → Prop) : Prop where
  refl : ∀ row, R row row
  trans : ∀ a b c, R a b → R b c → R a c
  direct : ∀ table operation k, R (S.row? table k) (S.row? (S.direct table operation) k)
  restored : ∀ request table store, S.restore request table = some store → Held table store
  edited : ∀ snapshot store change, Held snapshot store → Held snapshot (S.edit store change)
  holds : ∀ snapshot store, Held snapshot store → ∀ k row, S.row? (S.entries store) k = some row →
    R (S.row? snapshot k) (some row)

/-- Every open session meets an invariant. -/
def AllHeld (Held : τ → σ → Prop) (w : World τ σ ℓ) : Prop :=
  ∀ l session, w.sessions l = some session → Held session.snapshot session.store

omit [DecidableEq ℓ] in
theorem allHeld_of_quiet {Held : τ → σ → Prop} {w : World τ σ ℓ} (quiet : w.Quiet) : AllHeld Held w := by
  intro l session held
  rw [quiet l] at held
  cases held

theorem AllHeld.hold {Held : τ → σ → Prop} {w : World τ σ ℓ} (all : AllHeld Held w) {l : ℓ} {new : Option (Session τ σ)}
    (fresh : ∀ session, new = some session → Held session.snapshot session.store) : AllHeld Held (w.hold l new) := by
  intro l' session held
  by_cases same : l' = l
  · subst same
    rw [World.hold_self] at held
    exact fresh session held
  · rw [World.hold_of_ne w _ same] at held
    exact all l' session held

omit [DecidableEq ℓ] in
theorem AllHeld.table {Held : τ → σ → Prop} {w : World τ σ ℓ} (all : AllHeld Held w) (table : τ) :
    AllHeld Held { w with table } := all

variable {R : Option α → Option α → Prop} {Held : τ → σ → Prop}

theorem Follows.allHeld_step (follows : S.Follows R Held) {w : World τ σ ℓ} (all : AllHeld Held w)
    (e : Event ℓ ο ε δ) : AllHeld Held (S.step w e) := by
  cases e with
  | direct operation =>
    simp only [step]
    split
    · exact all
    · exact all.table _
  | opens request =>
    simp only [step]
    split
    · exact all
    · cases restored : S.restore request w.table with
      | none => exact all
      | some store =>
        refine all.hold fun session is => ?_
        cases is
        exact follows.restored _ _ _ restored
  | edit l change =>
    simp only [step]
    cases found : w.sessions l with
    | none => exact all
    | some earlier =>
      refine all.hold fun session is => ?_
      cases is
      exact follows.edited _ _ _ (all l earlier found)
  | writeBack l =>
    simp only [step]
    cases found : w.sessions l with
    | none => exact all
    | some earlier => exact (all.table _).hold fun session is => by cases is
  | abort l => exact all.hold fun session is => by cases is

/-- The rows of the table follow the preorder through an event whose write-back
    is valid. -/
theorem Follows.row_step (follows : S.Follows R Held) {w : World τ σ ℓ} (all : AllHeld Held w) {e : Event ℓ ο ε δ}
    (valid : S.Validated w e) (k : κ) : R (S.row? w.table k) (S.row? (S.step w e).table k) := by
  cases e with
  | direct operation =>
    simp only [step]
    split
    · exact follows.refl _
    · exact follows.direct _ _ _
  | opens request =>
    simp only [step]
    split
    · exact follows.refl _
    · cases S.restore request w.table <;> exact follows.refl _
  | edit l change =>
    simp only [step]
    cases w.sessions l <;> exact follows.refl _
  | writeBack l =>
    cases held : w.sessions l with
    | none =>
      simp only [step, held]
      exact follows.refl _
    | some session =>
      rw [row?_writeBack held]
      cases holds : S.row? (S.entries session.store) k with
      | none => exact follows.refl _
      | some row =>
        rcases valid session held k row holds with same | written
        · rw [same]
          exact follows.holds _ _ (all l session held) k row holds
        · rw [written]
          exact follows.refl _
  | abort l => exact follows.refl _

/-- A run of valid write-backs follows the preorder from any of its points to any
    later one. -/
theorem Follows.related_of_validated (follows : S.Follows R Held) {w : World τ σ ℓ} (quiet : w.Quiet)
    {before middle : List (Event ℓ ο ε δ)} (valid : Throughout S.step S.Validated w (before ++ middle)) (k : κ) :
    R (S.row? (run S.step w before).table k) (S.row? (run S.step w (before ++ middle)).table k) := by
  obtain ⟨_, later⟩ := throughout_append.mp valid
  have held : AllHeld Held (run S.step w before) :=
    invariant (AllHeld Held) (fun _ e all => follows.allHeld_step all e) (allHeld_of_quiet quiet) before
  rw [run_append]
  exact related_of_throughout (R := fun v v' => R (S.row? v.table k) (S.row? v'.table k)) (fun _ => follows.refl _)
    (fun _ _ _ => follows.trans _ _ _) (fun _ e all _ => follows.allHeld_step all e)
    (fun _ _ all valid => follows.row_step all valid k) later held

end Shared
end
end SynapsorRunner.Sessions
