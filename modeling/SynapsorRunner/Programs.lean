import Mathlib.Data.List.Forall2

/-!
Programs that call their environment. A call is answered or throws, and nothing
is known of the answer: the runs of a program are all that its code makes of all
answers. A monitor folds over the calls of a run; `wp` is the condition on the
monitor under which every run ends as required, and its rules follow the
constructs of a program: sequence, `throw`, `try`, a call, a loop over a list.
-/
namespace SynapsorRunner.Programs

universe u

/-- A program with calls `q : Q`, answers `A q`, errors `ε` and results `α`. -/
inductive Program (Q : Type u) (A : Q → Type u) (ε α : Type u) : Type u where
  | done (a : α)
  | fail (e : ε)
  | call (q : Q) (next : Except ε (A q) → Program Q A ε α)

/-- A call with its answer, or with what it threw. -/
structure Answered (Q : Type u) (A : Q → Type u) (ε : Type u) where
  query : Q
  answer : Except ε (A query)

variable {Q : Type u} {A : Q → Type u} {ε α β γ : Type u}

namespace Program

def bind : Program Q A ε α → (α → Program Q A ε β) → Program Q A ε β
  | done a, f => f a
  | fail e, _ => fail e
  | call q next, f => call q fun answer => (next answer).bind f

def handle : Program Q A ε α → (ε → Program Q A ε α) → Program Q A ε α
  | done a, _ => done a
  | fail e, h => h e
  | call q next, h => call q fun answer => (next answer).handle h

instance : Monad (Program Q A ε) where
  pure := done
  bind := bind

instance : MonadExceptOf ε (Program Q A ε) where
  throw := fail
  tryCatch := handle

/-- A computation without calls. -/
def lift : Except ε α → Program Q A ε α
  | .ok a => done a
  | .error e => fail e

/-- A call whose error is thrown on. -/
def ask (q : Q) : Program Q A ε (A q) := call q lift

/-- A program for every element of a list, in order. -/
def each (f : β → Program Q A ε γ) : List β → Program Q A ε (List γ)
  | [] => pure []
  | b :: rest => do
    let c ← f b
    let cs ← each f rest
    pure (c :: cs)

/-- The first value that a program finds for the elements of a list. -/
def findSome (f : β → Program Q A ε (Option γ)) : List β → Program Q A ε (Option γ)
  | [] => pure none
  | b :: rest => do
    let found ← f b
    if found.isSome then pure found else findSome f rest

/-! ### Runs -/

/-- The program runs with these calls to this end. -/
def Run : Program Q A ε α → List (Answered Q A ε) → Except ε α → Prop
  | done a, trace, result => trace = [] ∧ result = .ok a
  | fail e, trace, result => trace = [] ∧ result = .error e
  | call q next, trace, result => ∃ answer rest, trace = ⟨q, answer⟩ :: rest ∧ (next answer).Run rest result

/-- The run of a program in an environment that answers every call by itself. -/
def against (env : (q : Q) → Except ε (A q)) : Program Q A ε α → List (Answered Q A ε) × Except ε α
  | done a => ([], .ok a)
  | fail e => ([], .error e)
  | call q next => (⟨q, env q⟩ :: ((next (env q)).against env).1, ((next (env q)).against env).2)

theorem run_against (env : (q : Q) → Except ε (A q)) (p : Program Q A ε α) :
    p.Run (p.against env).1 (p.against env).2 := by
  induction p with
  | done a => exact ⟨rfl, rfl⟩
  | fail e => exact ⟨rfl, rfl⟩
  | call q next ih => exact ⟨env q, _, rfl, ih (env q)⟩

section
variable {σ : Type u} (observe : σ → Answered Q A ε → σ)

/-- Every run from a monitor state ends in a result with `R`, or in an error with
    `E`. -/
def wp : Program Q A ε α → (α → σ → Prop) → (ε → σ → Prop) → σ → Prop
  | done a, R, _, s => R a s
  | fail e, _, E, s => E e s
  | call q next, R, E, s => ∀ answer, (next answer).wp R E (observe s ⟨q, answer⟩)

variable {observe} {R R' : α → σ → Prop} {E E' : ε → σ → Prop} {s : σ}

/-- `wp` speaks of the runs. -/
theorem wp_iff_run {p : Program Q A ε α} :
    p.wp observe R E s ↔
      (∀ a trace, p.Run trace (.ok a) → R a (trace.foldl observe s)) ∧
        ∀ e trace, p.Run trace (.error e) → E e (trace.foldl observe s) := by
  induction p generalizing s with
  | done a =>
    constructor
    · intro holds
      refine ⟨?_, ?_⟩
      · rintro b trace ⟨rfl, same⟩
        cases same
        exact holds
      · rintro e trace ⟨_, other⟩
        cases other
    · rintro ⟨ends, _⟩
      exact ends a [] ⟨rfl, rfl⟩
  | fail e =>
    constructor
    · intro holds
      refine ⟨?_, ?_⟩
      · rintro b trace ⟨_, other⟩
        cases other
      · rintro e trace ⟨rfl, same⟩
        cases same
        exact holds
    · rintro ⟨_, ends⟩
      exact ends e [] ⟨rfl, rfl⟩
  | call q next ih =>
    constructor
    · intro holds
      refine ⟨?_, ?_⟩
      · rintro a trace ⟨answer, rest, rfl, runs⟩
        exact ((ih answer).mp (holds answer)).1 a rest runs
      · rintro e trace ⟨answer, rest, rfl, runs⟩
        exact ((ih answer).mp (holds answer)).2 e rest runs
    · rintro ⟨returns, throws⟩ answer
      exact (ih answer).mpr ⟨fun a trace runs => returns a (_ :: trace) ⟨answer, trace, rfl, runs⟩,
        fun e trace runs => throws e (_ :: trace) ⟨answer, trace, rfl, runs⟩⟩

theorem wp_mono {p : Program Q A ε α} (returns : ∀ a s, R a s → R' a s) (throws : ∀ e s, E e s → E' e s)
    (holds : p.wp observe R E s) : p.wp observe R' E' s := by
  induction p generalizing s with
  | done a => exact returns a s holds
  | fail e => exact throws e s holds
  | call q next ih => exact fun answer => ih answer (holds answer)

theorem wp_and {p : Program Q A ε α} (first : p.wp observe R E s) (second : p.wp observe R' E' s) :
    p.wp observe (fun a s => R a s ∧ R' a s) (fun e s => E e s ∧ E' e s) s := by
  induction p generalizing s with
  | done a => exact ⟨first, second⟩
  | fail e => exact ⟨first, second⟩
  | call q next ih => exact fun answer => ih answer (first answer) (second answer)

/-! ### Rules -/

@[simp] theorem wp_pure (a : α) : (pure a : Program Q A ε α).wp observe R E s ↔ R a s := Iff.rfl

@[simp] theorem wp_throw (e : ε) : (throw e : Program Q A ε α).wp observe R E s ↔ E e s := Iff.rfl

@[simp] theorem wp_bind (p : Program Q A ε β) (f : β → Program Q A ε α) :
    (p >>= f).wp observe R E s ↔ p.wp observe (fun b s => (f b).wp observe R E s) E s := by
  induction p generalizing s with
  | done b => exact Iff.rfl
  | fail e => exact Iff.rfl
  | call q next ih => exact forall_congr' fun answer => ih answer

@[simp] theorem wp_tryCatch (p : Program Q A ε α) (h : ε → Program Q A ε α) :
    (tryCatch p h).wp observe R E s ↔ p.wp observe R (fun e s => (h e).wp observe R E s) s := by
  induction p generalizing s with
  | done a => exact Iff.rfl
  | fail e => exact Iff.rfl
  | call q next ih => exact forall_congr' fun answer => ih answer

@[simp] theorem wp_ask (q : Q) {R : A q → σ → Prop} :
    (ask q : Program Q A ε (A q)).wp observe R E s ↔
      (∀ a, R a (observe s ⟨q, .ok a⟩)) ∧ ∀ e, E e (observe s ⟨q, .error e⟩) := by
  constructor
  · intro holds
    exact ⟨fun a => holds (.ok a), fun e => holds (.error e)⟩
  · rintro ⟨returns, throws⟩ answer
    cases answer with
    | error e => exact throws e
    | ok a => exact returns a

@[simp] theorem wp_lift (x : Except ε α) :
    (lift x : Program Q A ε α).wp observe R E s ↔ (∀ a, x = .ok a → R a s) ∧ ∀ e, x = .error e → E e s := by
  cases x with
  | error e => simp [lift, wp]
  | ok a => simp [lift, wp]

/-- A loop keeps what each of its turns keeps, and returns what they return. -/
theorem wp_each {f : β → Program Q A ε γ} {Inv : σ → Prop} {Turn : β → γ → Prop} {l : List β}
    (turn : ∀ b ∈ l, ∀ s, Inv s → (f b).wp observe (fun c s => Inv s ∧ Turn b c) E s) (start : Inv s) :
    (each f l).wp observe (fun cs s => Inv s ∧ List.Forall₂ Turn l cs) E s := by
  induction l generalizing s with
  | nil => exact ⟨start, .nil⟩
  | cons b rest ih =>
    simp only [each, wp_bind, wp_pure]
    refine wp_mono ?_ (fun _ _ thrown => thrown) (turn b (List.mem_cons_self ..) s start)
    rintro c s' ⟨kept, here⟩
    refine wp_mono ?_ (fun _ _ thrown => thrown) (ih (fun b' member => turn b' (List.mem_cons_of_mem _ member)) kept)
    rintro cs s'' ⟨kept', there⟩
    exact ⟨kept', .cons here there⟩

/-- A search keeps what each of its turns keeps, and finds what one of them finds. -/
theorem wp_findSome {f : β → Program Q A ε (Option γ)} {Inv : σ → Prop} {Found : γ → Prop} {l : List β}
    (turn : ∀ b ∈ l, ∀ s, Inv s → (f b).wp observe (fun found s => Inv s ∧ ∀ c ∈ found, Found c) E s) (start : Inv s) :
    (findSome f l).wp observe (fun found s => Inv s ∧ ∀ c ∈ found, Found c) E s := by
  induction l generalizing s with
  | nil => exact ⟨start, by simp⟩
  | cons b rest ih =>
    simp only [findSome, wp_bind]
    refine wp_mono ?_ (fun _ _ thrown => thrown) (turn b (List.mem_cons_self ..) s start)
    rintro found s' ⟨kept, good⟩
    by_cases here : found.isSome = true
    · rw [if_pos here]
      exact ⟨kept, good⟩
    · rw [if_neg here]
      exact ih (fun b' member => turn b' (List.mem_cons_of_mem _ member)) kept

end

/-! ### Programs that make some calls only -/

/-- Every call that a program may make is one of `P`. -/
def Calls (P : Q → Prop) : Program Q A ε α → Prop
  | done _ => True
  | fail _ => True
  | call q next => P q ∧ ∀ answer, (next answer).Calls P

variable {P P' : Q → Prop}

@[simp] theorem calls_pure (a : α) : (pure a : Program Q A ε α).Calls P := trivial
@[simp] theorem calls_throw (e : ε) : (throw e : Program Q A ε α).Calls P := trivial

theorem calls_ask {q : Q} (member : P q) : (ask q : Program Q A ε (A q)).Calls P := by
  refine ⟨member, fun answer => ?_⟩
  cases answer <;> trivial

@[simp] theorem calls_lift (x : Except ε α) : (lift x : Program Q A ε α).Calls P := by
  cases x <;> trivial

theorem Calls.bind {p : Program Q A ε β} {f : β → Program Q A ε α} (first : p.Calls P) (rest : ∀ b, (f b).Calls P) :
    (p >>= f).Calls P := by
  induction p with
  | done b => exact rest b
  | fail e => trivial
  | call q next ih => exact ⟨first.1, fun answer => ih answer (first.2 answer)⟩

theorem Calls.tryCatch {p : Program Q A ε α} {h : ε → Program Q A ε α} (first : p.Calls P)
    (rest : ∀ e, (h e).Calls P) :
    (tryCatch p h : Program Q A ε α).Calls P := by
  induction p with
  | done a => trivial
  | fail e => exact rest e
  | call q next ih => exact ⟨first.1, fun answer => ih answer (first.2 answer)⟩

theorem Calls.each {f : β → Program Q A ε γ} {l : List β} (turn : ∀ b ∈ l, (f b).Calls P) :
    (each f l : Program Q A ε (List γ)).Calls P := by
  induction l with
  | nil => trivial
  | cons b rest ih =>
    refine (turn b (List.mem_cons_self ..)).bind fun c => ?_
    exact (ih fun b' member => turn b' (List.mem_cons_of_mem _ member)).bind fun cs => calls_pure _

theorem Calls.findSome {f : β → Program Q A ε (Option γ)} {l : List β} (turn : ∀ b ∈ l, (f b).Calls P) :
    (findSome f l : Program Q A ε (Option γ)).Calls P := by
  induction l with
  | nil => trivial
  | cons b rest ih =>
    refine (turn b (List.mem_cons_self ..)).bind fun found => ?_
    by_cases here : found.isSome = true
    · rw [if_pos here]
      exact calls_pure _
    · rw [if_neg here]
      exact ih fun b' member => turn b' (List.mem_cons_of_mem _ member)

theorem Calls.mono {p : Program Q A ε α} (weaker : ∀ q, P q → P' q) (calls : p.Calls P) : p.Calls P' := by
  induction p with
  | done a => trivial
  | fail e => trivial
  | call q next ih => exact ⟨weaker q calls.1, fun answer => ih answer (calls.2 answer)⟩

/-- The calls of a run are among those that the program may make. -/
theorem Calls.of_run {p : Program Q A ε α} (calls : p.Calls P) {trace : List (Answered Q A ε)} {result : Except ε α}
    (runs : p.Run trace result) : ∀ c ∈ trace, P c.query := by
  induction p generalizing trace with
  | done a =>
    obtain ⟨rfl, _⟩ := runs
    simp
  | fail e =>
    obtain ⟨rfl, _⟩ := runs
    simp
  | call q next ih =>
    obtain ⟨answer, rest, rfl, runs⟩ := runs
    intro c member
    rcases List.mem_cons.mp member with rfl | later
    · exact calls.1
    · exact ih answer (calls.2 answer) runs c later

/-- What every call keeps, the program keeps. -/
theorem Calls.wp_keeps {σ : Type u} {observe : σ → Answered Q A ε → σ} {Inv : σ → Prop} {s : σ} {p : Program Q A ε α}
    (calls : p.Calls P) (keeps : ∀ s c, P c.query → Inv s → Inv (observe s c)) (start : Inv s) :
    p.wp observe (fun _ s' => Inv s') (fun _ s' => Inv s') s := by
  induction p generalizing s with
  | done a => exact start
  | fail e => exact start
  | call q next ih => exact fun answer => ih answer (calls.2 answer) (keeps s ⟨q, answer⟩ calls.1 start)

/-- Calls that a monitor does not notice leave it as it is. -/
theorem Calls.wp_unnoticed {σ : Type u} {observe : σ → Answered Q A ε → σ} {p : Program Q A ε α} (calls : p.Calls P)
    (unnoticed : ∀ s c, P c.query → observe s c = s) (s : σ) :
    p.wp observe (fun _ s' => s' = s) (fun _ s' => s' = s) s :=
  calls.wp_keeps (fun s' c member same => (unnoticed s' c member).trans same) rfl

/-! ### What a program returns -/

/-- Every value that a program returns satisfies `R`, whatever its calls answer. -/
def Returns (p : Program Q A ε α) (R : α → Prop) : Prop :=
  p.wp (fun s _ => s) (fun a _ => R a) (fun _ _ => True) PUnit.unit

variable {R R' : α → Prop}

@[simp] theorem returns_pure (a : α) : (pure a : Program Q A ε α).Returns R ↔ R a := Iff.rfl

@[simp] theorem returns_throw (e : ε) : (throw e : Program Q A ε α).Returns R ↔ True := Iff.rfl

@[simp] theorem returns_bind (p : Program Q A ε β) (f : β → Program Q A ε α) :
    (p >>= f).Returns R ↔ p.Returns fun b => (f b).Returns R := wp_bind p f

@[simp] theorem returns_ask (q : Q) {R : A q → Prop} : (ask q : Program Q A ε (A q)).Returns R ↔ ∀ a, R a := by
  simp [Returns]

@[simp] theorem returns_lift (x : Except ε α) : (lift x : Program Q A ε α).Returns R ↔ ∀ a, x = .ok a → R a := by
  simp [Returns]

theorem Returns.mono {p : Program Q A ε α} (returns : p.Returns R) (weaker : ∀ a, R a → R' a) : p.Returns R' :=
  wp_mono (fun a _ => weaker a) (fun _ _ => id) returns

theorem returns_of_forall {p : Program Q A ε α} (all : ∀ a, R a) : p.Returns R := by
  induction p with
  | done a => exact all a
  | fail e => trivial
  | call q next ih => exact fun answer => ih answer

/-- Whatever the first program returns, the rest returns what it does. -/
theorem returns_after {p : Program Q A ε β} {f : β → Program Q A ε α} (rest : ∀ b, (f b).Returns R) :
    (p >>= f).Returns R := (returns_bind p f).mpr (returns_of_forall rest)

theorem returns_each {f : β → Program Q A ε γ} {Turn : β → γ → Prop} {l : List β}
    (turn : ∀ b ∈ l, (f b).Returns (Turn b)) : (each f l : Program Q A ε (List γ)).Returns (List.Forall₂ Turn l) := by
  have walked : (each f l : Program Q A ε (List γ)).wp (fun s _ => s) (fun cs _ => True ∧ List.Forall₂ Turn l cs)
      (fun _ _ => True) PUnit.unit := by
    refine wp_each (fun b member s _ => ?_) trivial
    exact wp_mono (fun c _ good => ⟨trivial, good⟩) (fun _ _ => id) (turn b member)
  exact wp_mono (fun cs _ both => both.2) (fun _ _ => id) walked

theorem returns_findSome {f : β → Program Q A ε (Option γ)} {Found : γ → Prop} {l : List β}
    (turn : ∀ b ∈ l, (f b).Returns fun found => ∀ c ∈ found, Found c) :
    (findSome f l : Program Q A ε (Option γ)).Returns fun found => ∀ c ∈ found, Found c := by
  have walked : (findSome f l : Program Q A ε (Option γ)).wp (fun s _ => s)
      (fun found _ => True ∧ ∀ c ∈ found, Found c) (fun _ _ => True) PUnit.unit := by
    refine wp_findSome (fun b member s _ => ?_) trivial
    exact wp_mono (fun found _ good => ⟨trivial, good⟩) (fun _ _ => id) (turn b member)
  exact wp_mono (fun found _ both => both.2) (fun _ _ => id) walked

/-- A program of calls that keep an invariant of a monitor keeps it, and returns
    what it returns. -/
theorem Calls.wp_returns {σ : Type u} {observe : σ → Answered Q A ε → σ} {Inv : σ → Prop} {s : σ}
    {p : Program Q A ε α} (calls : p.Calls P) (keeps : ∀ s c, P c.query → Inv s → Inv (observe s c)) (start : Inv s)
    (returns : p.Returns R) : p.wp observe (fun a s' => R a ∧ Inv s') (fun _ s' => Inv s') s := by
  have anywhere : p.wp observe (fun a _ => R a) (fun _ _ => True) s := by
    clear calls start
    induction p generalizing s with
    | done a => exact returns
    | fail e => trivial
    | call q next ih => exact fun answer => ih answer (returns answer)
  exact wp_mono (fun a s' both => both) (fun e s' both => both.2) (wp_and anywhere (calls.wp_keeps keeps start))

/-! ### What a program returns to lawful answers -/

/-- Every value that a program returns satisfies `R`, as long as `G` holds of the
    answers to its calls. -/
def ReturnsGiven (G : Answered Q A ε → Prop) : Program Q A ε α → (α → Prop) → Prop
  | done a, R => R a
  | fail _, _ => True
  | call q next, R => ∀ answer, G ⟨q, answer⟩ → (next answer).ReturnsGiven G R

variable {G : Answered Q A ε → Prop}

/-- `ReturnsGiven` speaks of the runs with such answers. -/
theorem returnsGiven_iff_run {p : Program Q A ε α} :
    p.ReturnsGiven G R ↔ ∀ trace a, p.Run trace (.ok a) → (∀ c ∈ trace, G c) → R a := by
  induction p with
  | done a =>
    constructor
    · rintro holds trace b ⟨rfl, same⟩ _
      cases same
      exact holds
    · intro runs
      exact runs [] a ⟨rfl, rfl⟩ (by simp)
  | fail e =>
    constructor
    · rintro _ trace b ⟨_, other⟩
      cases other
    · intro _
      trivial
  | call q next ih =>
    constructor
    · rintro holds trace a ⟨answer, rest, rfl, runs⟩ lawful
      exact (ih answer).mp (holds answer (lawful _ (List.mem_cons_self ..))) rest a runs
        fun c member => lawful c (List.mem_cons_of_mem _ member)
    · intro runs answer lawful
      refine (ih answer).mpr fun trace a here others => ?_
      refine runs (⟨q, answer⟩ :: trace) a ⟨answer, trace, rfl, here⟩ ?_
      simpa using ⟨lawful, others⟩

@[simp] theorem returnsGiven_pure (a : α) : (pure a : Program Q A ε α).ReturnsGiven G R ↔ R a := Iff.rfl

theorem ReturnsGiven.mono {R' : α → Prop} {p : Program Q A ε α} (given : p.ReturnsGiven G R)
    (weaker : ∀ a, R a → R' a) :
    p.ReturnsGiven G R' := by
  induction p with
  | done a => exact weaker a given
  | fail e => trivial
  | call q next ih => exact fun answer lawful => ih answer (given answer lawful)

theorem ReturnsGiven.bind {S : β → Prop} {p : Program Q A ε β} {f : β → Program Q A ε α} (first : p.ReturnsGiven G S)
    (rest : ∀ b, S b → (f b).ReturnsGiven G R) : (p >>= f).ReturnsGiven G R := by
  induction p with
  | done b => exact rest b first
  | fail e => trivial
  | call q next ih => exact fun answer lawful => ih answer (first answer lawful)

theorem ReturnsGiven.tryCatch {p : Program Q A ε α} {h : ε → Program Q A ε α} (first : p.ReturnsGiven G R)
    (rest : ∀ e, (h e).ReturnsGiven G R) : (tryCatch p h : Program Q A ε α).ReturnsGiven G R := by
  induction p with
  | done a => exact first
  | fail e => exact rest e
  | call q next ih => exact fun answer lawful => ih answer (first answer lawful)

theorem returnsGiven_ask {q : Q} {R : A q → Prop} (answers : ∀ a, G ⟨q, .ok a⟩ → R a) :
    (ask q : Program Q A ε (A q)).ReturnsGiven G R := by
  intro answer lawful
  cases answer with
  | error e => trivial
  | ok a => exact answers a lawful

/-- What a program returns to all answers it returns to lawful ones. -/
theorem Returns.given {p : Program Q A ε α} (returns : p.Returns R) : p.ReturnsGiven G R := by
  induction p with
  | done a => exact returns
  | fail e => trivial
  | call q next ih => exact fun answer _ => ih answer (returns answer)

end Program
end SynapsorRunner.Programs
