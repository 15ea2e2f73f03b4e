import SynapsorRunner.Programs

/-!
Programs whose calls change a state. A step relation says which answers a call may
have in a state, and which states it may leave behind: `RunsIn` are the runs under
it. `ReturnsIn` is the condition on the first state under which every run that
returns does so as required, `EndsIn` the one under which the runs that throw or stop
do so too, and their rules follow the constructs of a program. A loop keeps an invariant
that knows which of its elements are done (`returnsIn_each`). What a program returns
in a part of a state, it returns in the whole of it (`Calls.endsIn_part`).
-/
namespace SynapsorRunner.Programs.Program

universe u
variable {Q : Type u} {A : Q → Type u} {ε α β γ σ : Type u} (step : σ → Answered Q A ε → σ → Prop)

/-- The program runs from a state with these calls to this end, and leaves a state. -/
def RunsIn : Program Q A ε α → σ → List (Answered Q A ε) → Except ε α → σ → Prop
  | done a, s, trace, result, s' => trace = [] ∧ result = .ok a ∧ s' = s
  | fail e, s, trace, result, s' => trace = [] ∧ result = .error e ∧ s' = s
  | call q next, s, trace, result, s' => ∃ answer between rest,
      step s ⟨q, answer⟩ between ∧ trace = ⟨q, answer⟩ :: rest ∧ (next answer).RunsIn between rest result s'

/-- Calls in sequence, with their answers, take a state to another. -/
def Follows : σ → List (Answered Q A ε) → σ → Prop
  | s, [], s' => s' = s
  | s, c :: rest, s' => ∃ between, step s c between ∧ Follows between rest s'

/-- Every run that returns ends in a value and a state with `R`. -/
def ReturnsIn : Program Q A ε α → (α → σ → Prop) → σ → Prop
  | done a, R, s => R a s
  | fail _, _, _ => True
  | call q next, R, s => ∀ answer s', step s ⟨q, answer⟩ s' → (next answer).ReturnsIn R s'

variable {step} {R R' : α → σ → Prop} {s : σ}

theorem runsIn_iff {p : Program Q A ε α} {s' : σ} {trace : List (Answered Q A ε)} {result : Except ε α} :
    p.RunsIn step s trace result s' ↔ p.Run trace result ∧ Follows step s trace s' := by
  induction p generalizing s trace with
  | done a =>
    constructor
    · rintro ⟨rfl, rfl, rfl⟩
      exact ⟨⟨rfl, rfl⟩, rfl⟩
    · rintro ⟨⟨rfl, rfl⟩, rfl⟩
      exact ⟨rfl, rfl, rfl⟩
  | fail e =>
    constructor
    · rintro ⟨rfl, rfl, rfl⟩
      exact ⟨⟨rfl, rfl⟩, rfl⟩
    · rintro ⟨⟨rfl, rfl⟩, rfl⟩
      exact ⟨rfl, rfl, rfl⟩
  | call q next ih =>
    constructor
    · rintro ⟨answer, between, rest, stepped, rfl, later⟩
      obtain ⟨runs, follows⟩ := (ih answer).mp later
      exact ⟨⟨answer, rest, rfl, runs⟩, between, stepped, follows⟩
    · rintro ⟨⟨answer, rest, rfl, runs⟩, between, stepped, follows⟩
      exact ⟨answer, between, rest, stepped, rfl, (ih answer).mpr ⟨runs, follows⟩⟩

theorem ReturnsIn.of_run {p : Program Q A ε α} (returns : p.ReturnsIn step R s) {trace : List (Answered Q A ε)} {a : α}
    {s' : σ} (runs : p.RunsIn step s trace (.ok a) s') : R a s' := by
  induction p generalizing s trace with
  | done b =>
    obtain ⟨_, same, rfl⟩ := runs
    cases same
    exact returns
  | fail e =>
    obtain ⟨_, other, _⟩ := runs
    cases other
  | call q next ih =>
    obtain ⟨answer, between, rest, stepped, _, later⟩ := runs
    exact ih answer (returns answer between stepped) later

theorem ReturnsIn.mono {p : Program Q A ε α} (returns : p.ReturnsIn step R s) (weaker : ∀ a s, R a s → R' a s) :
    p.ReturnsIn step R' s := by
  induction p generalizing s with
  | done a => exact weaker a s returns
  | fail e => trivial
  | call q next ih => exact fun answer s' stepped => ih answer (returns answer s' stepped)

@[simp] theorem returnsIn_pure (a : α) : (pure a : Program Q A ε α).ReturnsIn step R s ↔ R a s := Iff.rfl

@[simp] theorem returnsIn_throw (e : ε) : (throw e : Program Q A ε α).ReturnsIn step R s ↔ True := Iff.rfl

@[simp] theorem returnsIn_bind (p : Program Q A ε β) (f : β → Program Q A ε α) :
    (p >>= f).ReturnsIn step R s ↔ p.ReturnsIn step (fun b s => (f b).ReturnsIn step R s) s := by
  induction p generalizing s with
  | done b => exact Iff.rfl
  | fail e => exact Iff.rfl
  | call q next ih => exact forall_congr' fun answer => forall_congr' fun s' => imp_congr_right fun _ => ih answer

@[simp] theorem returnsIn_lift (x : Except ε α) :
    (lift x : Program Q A ε α).ReturnsIn step R s ↔ ∀ a, x = .ok a → R a s := by
  cases x with
  | error e => simp [lift, ReturnsIn]
  | ok a => simp [lift, ReturnsIn]

@[simp] theorem returnsIn_ask (q : Q) {R : A q → σ → Prop} :
    (ask q : Program Q A ε (A q)).ReturnsIn step R s ↔ ∀ a s', step s ⟨q, .ok a⟩ s' → R a s' := by
  constructor
  · intro returns a s' stepped
    exact returns (.ok a) s' stepped
  · intro returns answer s' stepped
    cases answer with
    | error e => trivial
    | ok a => exact returns a s' stepped

/-- Calls that keep the state return in it. -/
theorem Calls.returnsIn_keeps {P : Q → Prop} {p : Program Q A ε α} (calls : p.Calls P)
    (keeps : ∀ s c s', P c.query → step s c s' → s' = s) (s : σ) : p.ReturnsIn step (fun _ s' => s' = s) s := by
  induction p with
  | done a => exact rfl
  | fail e => trivial
  | call q next ih =>
    intro answer s' stepped
    obtain rfl := keeps s ⟨q, answer⟩ s' calls.1 stepped
    exact ih answer (calls.2 answer)

/-- What a program returns whatever its calls answer, it returns in any state. -/
theorem Returns.returnsIn {P : α → Prop} {p : Program Q A ε α} (returns : p.Returns P) (s : σ) :
    p.ReturnsIn step (fun a _ => P a) s := by
  induction p generalizing s with
  | done a => exact returns
  | fail e => trivial
  | call q next ih => exact fun answer s' _ => ih answer (returns answer) s'

theorem ReturnsIn.and {p : Program Q A ε α} (first : p.ReturnsIn step R s) (second : p.ReturnsIn step R' s) :
    p.ReturnsIn step (fun a s => R a s ∧ R' a s) s := by
  induction p generalizing s with
  | done a => exact ⟨first, second⟩
  | fail e => trivial
  | call q next ih => exact fun answer s' stepped => ih answer (first answer s' stepped) (second answer s' stepped)

/-- The invariant of a loop speaks of the elements that are done. -/
theorem returnsIn_each {f : β → Program Q A ε γ} {I : List β → σ → Prop} {l : List β}
    (turn : ∀ first b rest, l = first ++ b :: rest → ∀ s, I first s →
      (f b).ReturnsIn step (fun _ s' => I (first ++ [b]) s') s) (start : I [] s) :
    (each f l).ReturnsIn step (fun _ s' => I l s') s := by
  have walk : ∀ rest first, l = first ++ rest → ∀ s, I first s →
      (each f rest).ReturnsIn step (fun _ s' => I l s') s := by
    intro rest
    induction rest with
    | nil =>
      intro first whole s inv
      rw [List.append_nil] at whole
      subst whole
      exact inv
    | cons b rest ih =>
      intro first whole s inv
      simp only [each, returnsIn_bind, returnsIn_pure]
      refine (turn first b rest whole s inv).mono fun _ s' inv' => ?_
      exact ih (first ++ [b]) (by rw [whole, List.append_assoc, List.singleton_append]) s' inv'
  exact walk l [] rfl s start

/-! ### Errors and stops -/

/-- A run that stops after some of its calls leaves a state. -/
def StopsIn (step : σ → Answered Q A ε → σ → Prop) : Program Q A ε α → σ → σ → Prop
  | done _, s, s' => s' = s
  | fail _, s, s' => s' = s
  | call q next, s, s' => s' = s ∨ ∃ answer between, step s ⟨q, answer⟩ between ∧ (next answer).StopsIn step between s'

/-- Every run ends in a value and a state with `R`, or in an error and a state with
    `E`, and the state has `J` after every call. -/
def EndsIn (step : σ → Answered Q A ε → σ → Prop) (J : σ → Prop) :
    Program Q A ε α → (α → σ → Prop) → (ε → σ → Prop) → σ → Prop
  | done a, R, _, s => R a s
  | fail e, _, E, s => E e s
  | call q next, R, E, s => ∀ answer s', step s ⟨q, answer⟩ s' → J s' ∧ (next answer).EndsIn step J R E s'

section
variable {J : σ → Prop} {E E' : ε → σ → Prop}

theorem EndsIn.of_run {p : Program Q A ε α} (ends : p.EndsIn step J R E s) {trace : List (Answered Q A ε)}
    {result : Except ε α} {s' : σ} (runs : p.RunsIn step s trace result s') :
    (∀ a, result = .ok a → R a s') ∧ ∀ e, result = .error e → E e s' := by
  induction p generalizing s trace with
  | done b =>
    obtain ⟨_, rfl, rfl⟩ := runs
    refine ⟨?_, fun _ other => nomatch other⟩
    rintro a ⟨⟩
    exact ends
  | fail e =>
    obtain ⟨_, rfl, rfl⟩ := runs
    refine ⟨fun _ other => (nomatch other), ?_⟩
    rintro a ⟨⟩
    exact ends
  | call q next ih =>
    obtain ⟨answer, between, rest, stepped, _, later⟩ := runs
    exact ih answer (ends answer between stepped).2 later

theorem EndsIn.of_stop {p : Program Q A ε α} (ends : p.EndsIn step J R E s) (start : J s) {s' : σ}
    (stops : p.StopsIn step s s') : J s' := by
  induction p generalizing s with
  | done a => exact stops ▸ start
  | fail e => exact stops ▸ start
  | call q next ih =>
    rcases stops with rfl | ⟨answer, between, stepped, later⟩
    · exact start
    · obtain ⟨held, ends'⟩ := ends answer between stepped
      exact ih answer ends' held later

theorem EndsIn.mono {p : Program Q A ε α} (ends : p.EndsIn step J R E s) (returns : ∀ a s, R a s → R' a s)
    (throws : ∀ e s, E e s → E' e s) : p.EndsIn step J R' E' s := by
  induction p generalizing s with
  | done a => exact returns a s ends
  | fail e => exact throws e s ends
  | call q next ih =>
    intro answer s' stepped
    obtain ⟨held, ends'⟩ := ends answer s' stepped
    exact ⟨held, ih answer ends'⟩

@[simp] theorem endsIn_pure (a : α) : (pure a : Program Q A ε α).EndsIn step J R E s ↔ R a s := Iff.rfl

@[simp] theorem endsIn_throw (e : ε) : (throw e : Program Q A ε α).EndsIn step J R E s ↔ E e s := Iff.rfl

@[simp] theorem endsIn_bind (p : Program Q A ε β) (f : β → Program Q A ε α) :
    (p >>= f).EndsIn step J R E s ↔ p.EndsIn step J (fun b s => (f b).EndsIn step J R E s) E s := by
  induction p generalizing s with
  | done b => exact Iff.rfl
  | fail e => exact Iff.rfl
  | call q next ih =>
    exact forall_congr' fun answer => forall_congr' fun s' => imp_congr_right fun _ => and_congr_right fun _ => ih answer

@[simp] theorem endsIn_tryCatch (p : Program Q A ε α) (h : ε → Program Q A ε α) :
    (tryCatch p h).EndsIn step J R E s ↔ p.EndsIn step J R (fun e s => (h e).EndsIn step J R E s) s := by
  show (p.handle h).EndsIn step J R E s ↔ _
  induction p generalizing s with
  | done a => exact Iff.rfl
  | fail e => exact Iff.rfl
  | call q next ih =>
    exact forall_congr' fun answer => forall_congr' fun s' => imp_congr_right fun _ => and_congr_right fun _ => ih answer

theorem endsIn_lift {x : Except ε α} (returns : ∀ a, x = .ok a → R a s) (throws : ∀ e, x = .error e → E e s) :
    (lift x : Program Q A ε α).EndsIn step J R E s := by
  cases x with
  | error e => exact throws e rfl
  | ok a => exact returns a rfl

theorem endsIn_ask (q : Q) {R : A q → σ → Prop} :
    (ask q : Program Q A ε (A q)).EndsIn step J R E s ↔
      (∀ a s', step s ⟨q, .ok a⟩ s' → J s' ∧ R a s') ∧ ∀ e s', step s ⟨q, .error e⟩ s' → J s' ∧ E e s' := by
  constructor
  · intro ends
    exact ⟨fun a s' => ends (.ok a) s', fun e s' => ends (.error e) s'⟩
  · rintro ⟨returns, throws⟩ answer s' stepped
    cases answer with
    | error e => exact throws e s' stepped
    | ok a => exact returns a s' stepped

/-- Calls that keep the state end in it. -/
theorem Calls.endsIn_keeps {P : Q → Prop} {p : Program Q A ε α} (calls : p.Calls P)
    (keeps : ∀ s c s', P c.query → step s c s' → s' = s) (here : J s) (returns : ∀ a, R a s) (throws : ∀ e, E e s) :
    p.EndsIn step J R E s := by
  induction p with
  | done a => exact returns a
  | fail e => exact throws e
  | call q next ih =>
    intro answer s' stepped
    obtain rfl := keeps s ⟨q, answer⟩ s' calls.1 stepped
    exact ⟨here, ih answer (calls.2 answer)⟩

/-- What a program returns in a part of a state, when its calls leave the rest. -/
theorem Calls.endsIn_part {τ ρ : Type u} {step' : τ → Answered Q A ε → τ → Prop} {P : Q → Prop} {p : Program Q A ε α}
    (calls : p.Calls P) (part : σ → τ) (rest : σ → ρ)
    (refines : ∀ s c s', P c.query → step s c s' → step' (part s) c (part s') ∧ rest s' = rest s)
    (held : ∀ s', rest s' = rest s → J s') {R : α → τ → Prop} (returns : p.ReturnsIn step' R (part s)) :
    p.EndsIn step J (fun a s' => R a (part s') ∧ rest s' = rest s) (fun _ s' => rest s' = rest s) s := by
  induction p generalizing s with
  | done a => exact ⟨returns, rfl⟩
  | fail e => exact rfl
  | call q next ih =>
    intro answer s' stepped
    obtain ⟨stepped', same⟩ := refines s ⟨q, answer⟩ s' calls.1 stepped
    have later := ih answer (calls.2 answer) (by rwa [same]) (returns answer (part s') stepped')
    rw [same] at later
    exact ⟨held s' same, later⟩

/-- What every call keeps, a run keeps wherever it stops. -/
theorem StopsIn.keeps {p : Program Q A ε α} {s' : σ} (stops : p.StopsIn step s s')
    (kept : ∀ s c s', step s c s' → J s → J s') (start : J s) : J s' := by
  induction p generalizing s with
  | done a => exact stops ▸ start
  | fail e => exact stops ▸ start
  | call q next ih =>
    rcases stops with rfl | ⟨answer, between, stepped, later⟩
    · exact start
    · exact ih answer later (kept s _ between stepped start)

/-- A run that ends has stopped. -/
theorem RunsIn.stops {p : Program Q A ε α} {trace : List (Answered Q A ε)} {result : Except ε α} {s' : σ}
    (runs : p.RunsIn step s trace result s') : p.StopsIn step s s' := by
  induction p generalizing s trace with
  | done a => exact runs.2.2
  | fail e => exact runs.2.2
  | call q next ih =>
    obtain ⟨answer, between, rest, stepped, _, later⟩ := runs
    exact .inr ⟨answer, between, stepped, ih answer later⟩

end

end SynapsorRunner.Programs.Program
