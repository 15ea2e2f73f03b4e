import SynapsorRunner.DoubleRounding

/-!
Arithmetic on numbers of double precision: the exact result, rounded to the nearest
number, of two to the even one. A sum of numbers that are not negative is one of them
(`Counts.add`), so it can be compared. Which numbers are larger when one is added is
`lt_add_one_iff`.
-/
namespace SynapsorRunner.DoubleArithmetic
open SynapsorRunner.Doubles SynapsorRunner.DoubleRounding

def signed (negative : Bool) (m : Magnitude) : ℚ := if negative then -m.value else m.value

/-- The number nearest to a rational. -/
def toNumber (q : ℚ) : Number :=
  match roundToDouble |q| with
  | some m => .finite (decide (q < 0)) m
  | none => .infinite (decide (q < 0))

/-- `a + b`. -/
def add : Number → Number → Number
  | .finite s m, .finite t n =>
    if signed s m + signed t n = 0 then .finite (s && t) Magnitude.zero else toNumber (signed s m + signed t n)
  | .infinite s, .infinite t => if s = t then .infinite s else .nan
  | .infinite s, .finite _ _ => .infinite s
  | .finite _ _, .infinite t => .infinite t
  | .nan, _ => .nan
  | _, .nan => .nan

def negate : Number → Number
  | .finite s m => .finite (!s) m
  | .infinite s => .infinite (!s)
  | .nan => .nan

/-- `a - b`. -/
def sub (a b : Number) : Number := add a (negate b)

/-- `Math.abs`. -/
def abs : Number → Number
  | .finite _ m => .finite false m
  | .infinite _ => .infinite false
  | .nan => .nan

/-- `a < b`. -/
def lt : Number → Number → Bool
  | .finite s m, .finite t n => decide (signed s m < signed t n)
  | .infinite s, .infinite t => s && !t
  | .infinite s, .finite _ _ => s
  | .finite _ _, .infinite t => !t
  | .nan, _ => false
  | _, .nan => false

/-- `a <= b`. -/
def le (a b : Number) : Bool := decide (a ≠ .nan) && decide (b ≠ .nan) && !lt b a

/-- The number of a natural number that is small enough to be one. -/
def one : Number := toNumber 1

def zero : Number := .finite false Magnitude.zero

/-! ### Sums of numbers that are not negative -/

/-- Neither negative nor `NaN`. -/
def Counts : Number → Prop
  | .finite negative _ => negative = false
  | .infinite negative => negative = false
  | .nan => False

theorem counts_zero : Counts zero := rfl

theorem counts_toNumber {q : ℚ} (nonneg : 0 ≤ q) : Counts (toNumber q) := by
  have sign : decide (q < 0) = false := decide_eq_false (not_lt.mpr nonneg)
  unfold toNumber
  cases roundToDouble |q| with
  | none => exact sign
  | some m => exact sign

theorem Counts.add {a b : Number} (first : Counts a) (second : Counts b) : Counts (add a b) := by
  cases a with
  | nan => exact first.elim
  | infinite s =>
    cases b with
    | nan => exact second.elim
    | infinite t =>
      rw [DoubleArithmetic.add, if_pos (first.trans second.symm)]
      exact first
    | finite t n => exact first
  | finite s m =>
    cases b with
    | nan => exact second.elim
    | infinite t => exact second
    | finite t n =>
      rw [DoubleArithmetic.add]
      split
      · rw [show s = false from first]
        rfl
      · refine counts_toNumber ?_
        rw [show s = false from first, show t = false from second]
        exact add_nonneg m.isMagnitude.1 n.isMagnitude.1

theorem add_finite (a b : Number) (first : a.isFinite = true) (second : b.isFinite = true) : add a b ≠ .nan := by
  cases a with
  | finite s m =>
    cases b with
    | finite t n =>
      rw [add]
      split
      · exact Number.noConfusion
      · unfold toNumber
        cases roundToDouble |signed s m + signed t n| <;> exact Number.noConfusion
    | _ => cases second
  | _ => cases first

theorem negate_finite {a : Number} (finite : a.isFinite = true) : (negate a).isFinite = true := by
  cases a <;> first | rfl | cases finite

theorem counts_abs {a : Number} (number : a ≠ .nan) : Counts (abs a) := by
  cases a with
  | nan => exact number rfl
  | infinite s => rfl
  | finite s m => rfl

theorem Counts.ne_nan {a : Number} (counts : Counts a) : a ≠ .nan := by
  rintro rfl
  exact counts

theorem isFinite_ne_nan {a : Number} (finite : a.isFinite = true) : a ≠ .nan := by
  rintro rfl
  cases finite

/-! ### Adding one -/

theorem toNumber_magnitude {q : ℚ} (number : IsMagnitude |q|) : toNumber q = .finite (decide (q < 0)) ⟨|q|, number⟩ := by
  have exact := roundToDouble_value ⟨|q|, number⟩
  rw [toNumber, exact]

theorem one_eq : ∃ m : Magnitude, m.value = 1 ∧ one = .finite false m := by
  have number : IsMagnitude |(1 : ℚ)| := by
    have whole := isMagnitude_intCast (show (1 : ℤ).natAbs ≤ 2 ^ 53 by decide)
    rwa [Int.cast_one] at whole
  refine ⟨⟨|1|, number⟩, abs_one, ?_⟩
  rw [one, toNumber_magnitude number, show decide ((1 : ℚ) < 0) = false from rfl]

theorem signed_abs_value (negative : Bool) (m : Magnitude) : |signed negative m| = m.value := by
  cases negative
  · exact abs_of_nonneg m.isMagnitude.1
  · exact (abs_neg _).trans (abs_of_nonneg m.isMagnitude.1)

/-- Numbers that are larger when one is added: those below `2 ^ 53`, and twice the odd ones
    below `2 ^ 54`, which are rounded to twice an even one. -/
def Grows : Number → Prop
  | .finite negative m => -(2 ^ 53) ≤ signed negative m ∧ signed negative m < 2 ^ 53 ∨
      m.value < 2 ^ 54 ∧ ∃ k : ℕ, m.value = 2 * (2 * k + 1)
  | _ => False

theorem lt_add_one_iff_rounded {negative : Bool} {m : Magnitude} (small : rounded |signed negative m + 1| < 2 ^ 1024) :
    lt (.finite negative m) (add (.finite negative m) one) = true ↔
      signed negative m < if signed negative m + 1 < 0 then -rounded |signed negative m + 1|
        else rounded |signed negative m + 1| := by
  obtain ⟨unit, unitValue, is⟩ := one_eq
  have oneSigned : signed false unit = 1 := unitValue
  rw [is, add, oneSigned]
  by_cases absent : signed negative m + 1 = 0
  · rw [if_pos absent, absent, abs_zero, rounded_zero, lt]
    simp [signed, Magnitude.zero]
  · rw [if_neg absent, toNumber, roundToDouble_some (abs_nonneg _) small, lt, decide_eq_true_iff]
    have sides : signed (decide (signed negative m + 1 < 0))
          ⟨rounded |signed negative m + 1|, rounded_isMagnitude (abs_nonneg _) small⟩ =
        if signed negative m + 1 < 0 then -rounded |signed negative m + 1| else rounded |signed negative m + 1| := by
      by_cases below : signed negative m + 1 < 0
      · rw [decide_eq_true below, if_pos below]
        rfl
      · rw [decide_eq_false below, if_neg below]
        rfl
    rw [sides]

theorem lt_add_one_iff {v : Number} (finite : v.isFinite = true) : lt v (add v one) = true ↔ Grows v := by
  cases v with
  | infinite => cases finite
  | nan => cases finite
  | finite negative m =>
    have size := signed_abs_value negative m
    rw [Grows]
    by_cases low : signed negative m < -(2 ^ 53)
    · have sign : signed negative m = -m.value := by
        rw [← size, abs_of_neg (by linarith), neg_neg]
      have large : 2 ^ 53 < m.value := by linarith
      obtain ⟨small, rounds⟩ := rounds_below large
      rw [lt_add_one_iff_rounded (by rw [sign]; exact small), sign, if_pos (by linarith), rounds]
      exact (or_iff_right fun between => absurd between.1 (by linarith)).symm
    · by_cases high : 2 ^ 53 ≤ signed negative m
      · have sign : signed negative m = m.value := by
          rw [← size, abs_of_nonneg (by linarith)]
        have large : 2 ^ 53 ≤ m.value := by linarith
        obtain ⟨small, rounds⟩ := rounds_above large
        rw [lt_add_one_iff_rounded (by rw [sign]; exact small), sign, if_neg (by linarith), rounds]
        exact (or_iff_right fun between => absurd between.2 (by linarith)).symm
      · obtain ⟨small, grows⟩ := rounds_up (not_lt.mp low) (not_le.mp high)
        rw [lt_add_one_iff_rounded small]
        exact iff_of_true grows (.inl ⟨not_lt.mp low, not_le.mp high⟩)

end SynapsorRunner.DoubleArithmetic
