import Mathlib.Data.Int.Log
import Mathlib.Data.Rat.Floor
import Mathlib.Data.Nat.Find
import Mathlib.Tactic.FieldSimp
import Mathlib.Tactic.Linarith
import Mathlib.Tactic.Positivity

/-!
Numbers of double precision and their shortest decimals. The magnitude of a finite
number is a rational that is a multiple of its unit in the last place; a rational
rounds to the nearest one, of two to the even one. Every positive magnitude has
decimals that round to it, and `shortest` is one with as few digits as possible
(`shortest_rounds`).
-/
namespace SynapsorRunner.Doubles

/-! ### Magnitudes -/

/-- The exponent of the unit in the last place. -/
def ulpExponent (q : ℚ) : ℤ := max (Int.log 2 q - 52) (-1074)

def ulp (q : ℚ) : ℚ := 2 ^ ulpExponent q

theorem ulp_pos (q : ℚ) : 0 < ulp q := zpow_pos (by norm_num) _

/-- The rationals that are magnitudes of finite numbers. -/
def IsMagnitude (q : ℚ) : Prop := 0 ≤ q ∧ q < 2 ^ 1024 ∧ (q / ulp q).den = 1

instance (q : ℚ) : Decidable (IsMagnitude q) := inferInstanceAs (Decidable (_ ∧ _ ∧ _))

structure Magnitude where
  value : ℚ
  isMagnitude : IsMagnitude value
  deriving DecidableEq

def Magnitude.zero : Magnitude := ⟨0, by decide +kernel⟩

/-- A number, of which a zero has a sign too. -/
inductive Number where
  | finite (negative : Bool) (magnitude : Magnitude)
  | infinite (negative : Bool)
  | nan
  deriving DecidableEq

def Number.isFinite : Number → Bool
  | .finite _ _ => true
  | _ => false

/-! ### Rounding -/

/-- The nearest integer, of two the even one. -/
def roundHalfEven (r : ℚ) : ℤ :=
  let below := ⌊r⌋
  if r - below < 1 / 2 then below
  else if 1 / 2 < r - below then below + 1
  else if below % 2 = 0 then below
  else below + 1

theorem roundHalfEven_intCast (n : ℤ) : roundHalfEven n = n := by
  unfold roundHalfEven
  simp

/-- The magnitude nearest to a rational that is not negative, unless it overflows. -/
def roundToDouble (q : ℚ) : Option Magnitude :=
  let rounded := roundHalfEven (q / ulp q) * ulp q
  if double : IsMagnitude rounded then some ⟨rounded, double⟩ else none

/-- A magnitude is a whole number of units in the last place. -/
theorem Magnitude.whole (m : Magnitude) : ∃ n : ℤ, m.value = n * ulp m.value := by
  have units : ((m.value / ulp m.value).num : ℚ) = m.value / ulp m.value := Rat.coe_int_num_of_den_eq_one m.isMagnitude.2.2
  refine ⟨(m.value / ulp m.value).num, ?_⟩
  rw [units, div_mul_cancel₀ _ (ulp_pos _).ne']

theorem roundToDouble_value (m : Magnitude) : roundToDouble m.value = some m := by
  obtain ⟨n, whole⟩ := m.whole
  have units : m.value / ulp m.value = n := by
    rw [div_eq_iff (ulp_pos _).ne']
    exact whole
  have rounded : (roundHalfEven (m.value / ulp m.value) : ℚ) * ulp m.value = m.value := by
    rw [units, roundHalfEven_intCast, whole.symm]
  unfold roundToDouble
  simp only [rounded, dif_pos m.isMagnitude]

/-! ### Sums -/

/-- The number nearest to a rational. A sum of safe integers does not overflow. -/
def nearest (q : ℚ) : ℚ :=
  let rounded := roundHalfEven (|q| / ulp |q|) * ulp |q|
  if q < 0 then -rounded else rounded

theorem nearest_eq_self {q : ℚ} (number : IsMagnitude |q|) : nearest q = q := by
  obtain ⟨n, whole⟩ := (⟨|q|, number⟩ : Magnitude).whole
  have units : |q| / ulp |q| = n := by
    rw [div_eq_iff (ulp_pos _).ne']
    exact whole
  have rounded : (roundHalfEven (|q| / ulp |q|) : ℚ) * ulp |q| = |q| := by
    rw [units, roundHalfEven_intCast]
    exact whole.symm
  simp only [nearest, rounded]
  by_cases negative : q < 0
  · rw [if_pos negative, abs_of_neg negative, neg_neg]
  · rw [if_neg negative, abs_of_nonneg (not_lt.mp negative)]

def addNumbers (a b : ℚ) : ℚ := nearest (a + b)

def sumNumbers (start : ℚ) (values : List ℤ) : ℚ := values.foldl (fun sum v => addNumbers sum v) start

/-- Every partial sum is a number. -/
def NumberSums : ℚ → List ℤ → Prop
  | _, [] => True
  | start, v :: rest => IsMagnitude |start + v| ∧ NumberSums (start + v) rest

theorem sumNumbers_eq {start : ℚ} {values : List ℤ} (numbers : NumberSums start values) :
    sumNumbers start values = start + (values.sum : ℤ) := by
  induction values generalizing start with
  | nil => simp [sumNumbers]
  | cons v rest ih =>
    obtain ⟨here, there⟩ := numbers
    have first : addNumbers start v = start + v := nearest_eq_self here
    show sumNumbers (addNumbers start v) rest = _
    rw [first, ih there, List.sum_cons, Int.cast_add, add_assoc]

/-! ### Decimals -/

/-- The decimal `significand × 10 ^ (point - length)`, whose significand has
    `length` digits. -/
structure Decimal where
  significand : ℕ
  length : ℕ
  point : ℤ
  deriving DecidableEq, Repr

def Decimal.value (d : Decimal) : ℚ := d.significand * 10 ^ (d.point - d.length)

structure Decimal.WellFormed (d : Decimal) : Prop where
  positive : 0 < d.length
  lower : 10 ^ (d.length - 1) ≤ d.significand
  upper : d.significand < 10 ^ d.length

/-- The place of the point in the decimals of a rational. -/
def point (q : ℚ) : ℤ := Int.log 10 q + 1

/-- A rational by its leading digits, the rest behind the point. -/
def scaled (q : ℚ) (length : ℕ) : ℚ := q * 10 ^ (length - point q)

/-- The decimals of a length next to a rational from below and from above. -/
def below (q : ℚ) (length : ℕ) : Decimal := ⟨⌊scaled q length⌋.toNat, length, point q⟩

def above (q : ℚ) (length : ℕ) : Decimal :=
  let significand := ⌊scaled q length⌋.toNat + 1
  if significand = 10 ^ length then ⟨10 ^ (length - 1), length, point q + 1⟩ else ⟨significand, length, point q⟩

/-- The two decimals, the nearer one first and of two equally near ones the even
    one. -/
def candidates (q : ℚ) (length : ℕ) : List Decimal :=
  if roundHalfEven (scaled q length) = ⌊scaled q length⌋ then [below q length, above q length]
  else [above q length, below q length]

/-- A decimal of `length + 1` digits rounds to a magnitude. -/
def Suffices (m : Magnitude) (length : ℕ) : Prop :=
  ∃ d ∈ candidates m.value (length + 1), roundToDouble d.value = some m

instance (m : Magnitude) (length : ℕ) : Decidable (Suffices m length) :=
  inferInstanceAs (Decidable (∃ d ∈ candidates m.value (length + 1), roundToDouble d.value = some m))

theorem below_mem (q : ℚ) (length : ℕ) : below q length ∈ candidates q length := by
  unfold candidates
  split <;> simp

theorem scaled_bounds {q : ℚ} (positive : 0 < q) (length : ℕ) :
    (10 : ℚ) ^ length ≤ scaled q (length + 1) ∧ scaled q (length + 1) < 10 ^ (length + 1) := by
  have lower : (10 : ℚ) ^ Int.log 10 q ≤ q := by
    have bound := Int.zpow_log_le_self (b := 10) (by decide) positive
    exact_mod_cast bound
  have upper : q < (10 : ℚ) ^ (Int.log 10 q + 1) := by
    have bound := Int.lt_zpow_succ_log_self (b := 10) (by decide) q
    exact_mod_cast bound
  have shift : (0 : ℚ) < 10 ^ (((length + 1 : ℕ) : ℤ) - point q) := zpow_pos (by norm_num) _
  have ten : (10 : ℚ) ≠ 0 := by norm_num
  unfold scaled
  constructor
  · calc (10 : ℚ) ^ length = 10 ^ Int.log 10 q * 10 ^ (((length + 1 : ℕ) : ℤ) - point q) := by
          rw [← zpow_add₀ ten, ← zpow_natCast]
          congr 1
          unfold point
          push_cast
          ring
      _ ≤ q * 10 ^ (((length + 1 : ℕ) : ℤ) - point q) := mul_le_mul_of_nonneg_right lower shift.le
  · calc q * 10 ^ (((length + 1 : ℕ) : ℤ) - point q)
        < 10 ^ (Int.log 10 q + 1) * 10 ^ (((length + 1 : ℕ) : ℤ) - point q) := mul_lt_mul_of_pos_right upper shift
      _ = 10 ^ (length + 1) := by
          rw [← zpow_add₀ ten, ← zpow_natCast]
          congr 1
          unfold point
          push_cast
          ring

theorem toNat_floor_bounds {r : ℚ} {low high : ℕ} (lower : (low : ℚ) ≤ r) (upper : r < high) :
    low ≤ ⌊r⌋.toNat ∧ ⌊r⌋.toNat < high := by
  have floorLower : (low : ℤ) ≤ ⌊r⌋ := Int.le_floor.mpr (by exact_mod_cast lower)
  have floorUpper : ⌊r⌋ < (high : ℤ) := Int.floor_lt.mpr (by exact_mod_cast upper)
  omega

theorem wellFormed_of_mem {q : ℚ} (positive : 0 < q) {length : ℕ} {d : Decimal} (member : d ∈ candidates q (length + 1)) :
    d.WellFormed := by
  obtain ⟨lower, upper⟩ := scaled_bounds positive length
  have bounds : 10 ^ length ≤ ⌊scaled q (length + 1)⌋.toNat ∧ ⌊scaled q (length + 1)⌋.toNat < 10 ^ (length + 1) :=
    toNat_floor_bounds (by exact_mod_cast lower) (by exact_mod_cast upper)
  have either : d = below q (length + 1) ∨ d = above q (length + 1) := by
    unfold candidates at member
    split at member <;> simp at member <;> tauto
  have grows : 10 ^ length < 10 ^ (length + 1) := Nat.pow_lt_pow_right (by decide) (Nat.lt_succ_self _)
  rcases either with rfl | rfl
  · exact ⟨Nat.succ_pos _, bounds.1, bounds.2⟩
  · unfold above
    dsimp only
    split
    · exact ⟨Nat.succ_pos _, le_refl _, grows⟩
    · rename_i short
      refine ⟨Nat.succ_pos _, ?_, ?_⟩
      · exact Nat.le_succ_of_le bounds.1
      · dsimp only
        omega

/-- A magnitude with enough decimal places is whole. -/
theorem scaled_whole (m : Magnitude) {length : ℕ} (enough : point m.value + 1074 ≤ length) :
    ∃ n : ℤ, scaled m.value length = n := by
  obtain ⟨units, whole⟩ := m.whole
  obtain ⟨places, shift⟩ := Int.eq_ofNat_of_zero_le (show 0 ≤ (length : ℤ) - point m.value - 1074 by omega)
  have exponent : -1074 ≤ ulpExponent m.value := le_max_right _ _
  obtain ⟨twos, rest⟩ := Int.eq_ofNat_of_zero_le (show 0 ≤ ulpExponent m.value + 1074 by omega)
  have two : (2 : ℚ) ≠ 0 := by norm_num
  have ten : (10 : ℚ) ≠ 0 := by norm_num
  have tens : (10 : ℚ) ^ 1074 = 2 ^ 1074 * 5 ^ 1074 := by
    rw [← mul_pow]
    congr 1
    norm_num
  have power : (10 : ℚ) ^ ((length : ℤ) - point m.value) = 10 ^ places * (2 ^ 1074 * 5 ^ 1074) := by
    rw [show (length : ℤ) - point m.value = places + (1074 : ℕ) by push_cast; omega, zpow_add₀ ten, zpow_natCast,
      zpow_natCast, tens]
  have unit : ulp m.value * 2 ^ 1074 = 2 ^ twos := by
    unfold ulp
    rw [← zpow_natCast, ← zpow_add₀ two, show ulpExponent m.value + (1074 : ℕ) = (twos : ℤ) by push_cast; omega, zpow_natCast]
  refine ⟨units * (10 ^ places * (2 ^ twos * 5 ^ 1074)), ?_⟩
  calc scaled m.value length = units * ulp m.value * (10 ^ places * (2 ^ 1074 * 5 ^ 1074)) := by
        rw [scaled, power, ← whole]
    _ = units * (10 ^ places * (ulp m.value * 2 ^ 1074 * 5 ^ 1074)) := by ring
    _ = ((units * (10 ^ places * (2 ^ twos * 5 ^ 1074)) : ℤ) : ℚ) := by
        rw [unit]
        push_cast
        rfl

theorem below_value_of_whole {q : ℚ} (positive : 0 < q) {length : ℕ} {n : ℤ} (whole : scaled q (length + 1) = n) :
    (below q (length + 1)).value = q := by
  have natural : 0 ≤ n := by
    have bound := (scaled_bounds positive length).1
    rw [whole] at bound
    have low : (0 : ℚ) ≤ n := le_trans (by positivity) bound
    exact_mod_cast low
  have significand : ((⌊scaled q (length + 1)⌋.toNat : ℕ) : ℚ) = scaled q (length + 1) := by
    rw [whole, Int.floor_intCast]
    exact_mod_cast congrArg (Int.cast (R := ℚ)) (Int.toNat_of_nonneg natural)
  unfold Decimal.value below
  dsimp only
  rw [significand, scaled, mul_assoc, ← zpow_add₀ (by norm_num : (10 : ℚ) ≠ 0)]
  simp

/-- Some number of digits suffices for a positive magnitude. -/
theorem exists_suffices (m : Magnitude) (positive : 0 < m.value) : ∃ length, Suffices m length := by
  have enough : point m.value + 1074 ≤ (((point m.value + 1074).toNat + 1 : ℕ) : ℤ) := by omega
  obtain ⟨n, whole⟩ := scaled_whole m enough
  refine ⟨(point m.value + 1074).toNat, below _ _, below_mem _ _, ?_⟩
  rw [below_value_of_whole positive whole, roundToDouble_value]

/-- A decimal of a positive magnitude with as few digits as possible. -/
def shortest (m : Magnitude) (positive : 0 < m.value) : Decimal :=
  let length := Nat.find (exists_suffices m positive)
  ((candidates m.value (length + 1)).find? fun d => decide (roundToDouble d.value = some m)).getD
    (below m.value (length + 1))

theorem shortest_spec (m : Magnitude) (positive : 0 < m.value) :
    (shortest m positive).WellFormed ∧ roundToDouble (shortest m positive).value = some m := by
  have suffices' := Nat.find_spec (exists_suffices m positive)
  unfold shortest
  dsimp only
  cases found : (candidates m.value (Nat.find (exists_suffices m positive) + 1)).find?
      fun d => decide (roundToDouble d.value = some m) with
  | none =>
    obtain ⟨d, member, rounds⟩ := suffices'
    exact absurd (decide_eq_true rounds) (List.find?_eq_none.mp found d member)
  | some d =>
    have rounds := List.find?_some found
    exact ⟨wellFormed_of_mem positive (List.mem_of_find?_eq_some found), of_decide_eq_true rounds⟩

/-- The shortest decimal of a positive magnitude rounds to it. -/
theorem shortest_rounds (m : Magnitude) (positive : 0 < m.value) :
    roundToDouble (shortest m positive).value = some m := (shortest_spec m positive).2

theorem shortest_wellFormed (m : Magnitude) (positive : 0 < m.value) : (shortest m positive).WellFormed :=
  (shortest_spec m positive).1

end SynapsorRunner.Doubles
