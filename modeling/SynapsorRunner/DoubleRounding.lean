import SynapsorRunner.Doubles

/-!
Rounding to numbers of double precision. Rounding does not pass a number (`le_rounded`,
`rounded_le`), and what is rounded is a number unless it overflows. The size of a number
plus or minus one is rounded to a size beyond it below `2 ^ 53`; from there on one is
absorbed, but for the odd numbers of twos (`rounds_up`, `rounds_above`, `rounds_below`).
-/
namespace SynapsorRunner.DoubleRounding
open SynapsorRunner.Doubles

/-! ### To the nearest integer -/

theorem le_roundHalfEven {n : ℤ} {r : ℚ} (below : n ≤ r) : n ≤ roundHalfEven r := by
  have floor : n ≤ ⌊r⌋ := Int.le_floor.mpr below
  unfold roundHalfEven
  dsimp only
  split_ifs <;> omega

theorem roundHalfEven_le {n : ℤ} {r : ℚ} (upper : r ≤ n) : roundHalfEven r ≤ n := by
  have floor : ⌊r⌋ ≤ n := by
    have bound := Int.floor_le r
    exact_mod_cast bound.trans upper
  rcases lt_or_eq_of_le floor with less | equal
  · unfold roundHalfEven
    dsimp only
    split_ifs <;> omega
  · have whole : r = n := le_antisymm upper (equal ▸ Int.floor_le r)
    rw [whole, roundHalfEven_intCast]

theorem roundHalfEven_near {n : ℤ} {r : ℚ} (near : |r - n| < 1 / 2 ∨ |r - n| = 1 / 2 ∧ n % 2 = 0) : roundHalfEven r = n := by
  have close : |r - n| ≤ 1 / 2 := near.elim le_of_lt fun half => half.1.le
  have floored := Int.floor_le r
  have after := Int.lt_floor_add_one r
  rw [abs_le] at close
  by_cases above : (n : ℚ) ≤ r
  · have is : ⌊r⌋ = n := by
      rw [Int.floor_eq_iff]
      exact ⟨above, by linarith⟩
    have size : |r - n| = r - n := abs_of_nonneg (sub_nonneg.mpr above)
    unfold roundHalfEven
    dsimp only
    rw [is]
    rw [size] at near
    rcases near with less | ⟨half, even⟩
    · rw [if_pos less]
    · rw [if_neg (by rw [half]; exact lt_irrefl _), if_neg (by rw [half]; exact lt_irrefl _), if_pos even]
  · have is : ⌊r⌋ = n - 1 := by
      rw [Int.floor_eq_iff]
      push_cast
      exact ⟨by linarith, by linarith⟩
    have size : |r - n| = n - r := by
      rw [abs_of_neg (by linarith)]
      ring
    unfold roundHalfEven
    dsimp only
    rw [is]
    rw [size] at near
    push_cast
    rcases near with less | ⟨half, even⟩
    · rw [if_neg (by linarith), if_pos (by linarith)]
      ring
    · rw [if_neg (by linarith), if_neg (by linarith), if_neg (by omega)]
      ring

/-! ### Numbers of few units -/

theorem log_eq {q : ℚ} {k : ℤ} (low : (2 : ℚ) ^ k ≤ q) (high : q < 2 ^ (k + 1)) : Int.log 2 q = k := by
  have positive : 0 < q := lt_of_lt_of_le (zpow_pos (by norm_num) _) low
  have lower := (Int.zpow_le_iff_le_log (b := 2) (by decide) positive).mp (by exact_mod_cast low)
  have upper := (Int.lt_zpow_iff_log_lt (b := 2) (by decide) positive).mp (by exact_mod_cast high)
  omega

theorem log_bounds {q : ℚ} (positive : 0 < q) : (2 : ℚ) ^ Int.log 2 q ≤ q ∧ q < 2 ^ (Int.log 2 q + 1) := by
  have lower := Int.zpow_log_le_self (b := 2) (by decide) positive
  have upper := Int.lt_zpow_succ_log_self (b := 2) (by decide) q
  exact ⟨by exact_mod_cast lower, by exact_mod_cast upper⟩

/-- Up to `2 ^ 53` units of a power of two. -/
theorem isMagnitude_units {n : ℕ} {e : ℤ} (few : n ≤ 2 ^ 53) (least : -1074 ≤ e) (small : (n : ℚ) * 2 ^ e < 2 ^ 1024) :
    IsMagnitude ((n : ℚ) * 2 ^ e) := by
  have unit : (0 : ℚ) < 2 ^ e := zpow_pos (by norm_num) _
  refine ⟨mul_nonneg (Nat.cast_nonneg n) unit.le, small, ?_⟩
  rcases Nat.eq_zero_or_pos n with rfl | positive
  · simp
  · have pos : (0 : ℚ) < n * 2 ^ e := mul_pos (by exact_mod_cast positive) unit
    obtain ⟨low, high⟩ := log_bounds pos
    rcases lt_or_eq_of_le few with less | equal
    · have log : Int.log 2 ((n : ℚ) * 2 ^ e) < 53 + e := by
        have below : (n : ℚ) * 2 ^ e < 2 ^ (53 + e) := by
          rw [zpow_add₀ (by norm_num)]
          exact mul_lt_mul_of_pos_right (by exact_mod_cast less) unit
        exact (Int.lt_zpow_iff_log_lt (b := 2) (by decide) pos).mp (by exact_mod_cast below)
      obtain ⟨places, is⟩ : ∃ places : ℕ, ulpExponent ((n : ℚ) * 2 ^ e) = e - places := by
        refine ⟨(e - ulpExponent ((n : ℚ) * 2 ^ e)).toNat, ?_⟩
        unfold ulpExponent
        omega
      have quotient : (n : ℚ) * 2 ^ e / ulp (n * 2 ^ e) = ((n * 2 ^ places : ℕ) : ℚ) := by
        rw [ulp, is, zpow_sub₀ (by norm_num), zpow_natCast]
        push_cast
        field_simp
      rw [quotient]
      exact Rat.den_natCast _
    · subst equal
      have log : Int.log 2 (((2 ^ 53 : ℕ) : ℚ) * 2 ^ e) = 53 + e := by
        have is : ((2 ^ 53 : ℕ) : ℚ) * 2 ^ e = 2 ^ (53 + e) := by
          rw [zpow_add₀ (by norm_num)]
          norm_num
        refine log_eq (by rw [is]) ?_
        rw [is]
        exact zpow_lt_zpow_right₀ (by norm_num) (by omega)
      have quotient : ((2 ^ 53 : ℕ) : ℚ) * 2 ^ e / ulp (((2 ^ 53 : ℕ) : ℚ) * 2 ^ e) = ((2 ^ 52 : ℕ) : ℚ) := by
        rw [ulp, ulpExponent, log, max_eq_left (by omega), show 53 + e - 52 = e + 1 from by ring, zpow_add₀ (by norm_num)]
        push_cast
        field_simp
        norm_num
      rw [quotient]
      exact Rat.den_natCast _

theorem isMagnitude_natCast {n : ℕ} (small : n ≤ 2 ^ 53) : IsMagnitude n := by
  have bound : (n : ℚ) * 2 ^ (0 : ℤ) < 2 ^ 1024 := by
    rw [zpow_zero, mul_one]
    exact (show (n : ℚ) ≤ 2 ^ 53 by exact_mod_cast small).trans_lt (pow_lt_pow_right₀ (by norm_num) (by norm_num))
  have number := isMagnitude_units small (by norm_num) bound
  rwa [zpow_zero, mul_one] at number

theorem isMagnitude_intCast {z : ℤ} (small : z.natAbs ≤ 2 ^ 53) : IsMagnitude |(z : ℚ)| := by
  have same : |(z : ℚ)| = (z.natAbs : ℚ) := by
    rw [← Int.cast_abs, Int.abs_eq_natAbs]
    rfl
  rw [same]
  exact isMagnitude_natCast small

/-! ### Rounding is monotone -/

/-- A rational in units of its last place, rounded. -/
def rounded (q : ℚ) : ℚ := (roundHalfEven (q / ulp q) : ℚ) * ulp q

theorem units_lt {q : ℚ} (nonneg : 0 ≤ q) : q / ulp q < 2 ^ 53 := by
  rcases nonneg.lt_or_eq with positive | rfl
  · have fits : (2 : ℚ) ^ (Int.log 2 q + 1) ≤ 2 ^ 53 * ulp q := by
      rw [ulp, ← zpow_natCast, ← zpow_add₀ (by norm_num)]
      refine zpow_le_zpow_right₀ (by norm_num) ?_
      unfold ulpExponent
      push_cast
      omega
    rw [div_lt_iff₀ (ulp_pos q)]
    exact (log_bounds positive).2.trans_le fits
  · simp

theorem rounded_isMagnitude {q : ℚ} (nonneg : 0 ≤ q) (small : rounded q < 2 ^ 1024) : IsMagnitude (rounded q) := by
  have units : 0 ≤ roundHalfEven (q / ulp q) := by
    refine le_roundHalfEven ?_
    rw [Int.cast_zero]
    exact div_nonneg nonneg (ulp_pos q).le
  have few : roundHalfEven (q / ulp q) ≤ 2 ^ 53 := by
    refine roundHalfEven_le ?_
    push_cast
    exact (units_lt nonneg).le
  obtain ⟨n, is⟩ := Int.eq_ofNat_of_zero_le units
  rw [rounded, is, Int.cast_natCast] at small ⊢
  rw [is] at few
  exact isMagnitude_units (by exact_mod_cast few) (by unfold ulpExponent; omega) small

theorem roundToDouble_some {q : ℚ} (nonneg : 0 ≤ q) (small : rounded q < 2 ^ 1024) :
    roundToDouble q = some ⟨rounded q, rounded_isMagnitude nonneg small⟩ := dif_pos (rounded_isMagnitude nonneg small)

theorem ulpExponent_mono {p q : ℚ} (positive : 0 < p) (le : p ≤ q) : ulpExponent p ≤ ulpExponent q := by
  have logs : Int.log 2 p ≤ Int.log 2 q := Int.log_mono_right positive le
  unfold ulpExponent
  omega

theorem units_of_same (m : Magnitude) {q : ℚ} (same : ulpExponent m.value = ulpExponent q) : ∃ n : ℤ, m.value / ulp q =
    n := by
  obtain ⟨n, whole⟩ := m.whole
  refine ⟨n, ?_⟩
  rw [ulp, ← same, div_eq_iff (zpow_pos (by norm_num) _).ne']
  exact whole

/-- Rounding does not go below a number. -/
theorem le_rounded {q : ℚ} (m : Magnitude) (below : m.value ≤ q) : m.value ≤ rounded q := by
  rcases m.isMagnitude.1.lt_or_eq with positive | zero
  · rw [rounded, ← div_le_iff₀ (ulp_pos q)]
    rcases (ulpExponent_mono positive below).lt_or_eq with less | equal
    · have exponent : ulpExponent q = Int.log 2 q - 52 := by
        unfold ulpExponent at less ⊢
        omega
      have logs : Int.log 2 m.value < Int.log 2 q := by
        unfold ulpExponent at less exponent
        omega
      have qPositive := positive.trans_le below
      have power : (2 : ℚ) ^ Int.log 2 q / ulp q = ((2 ^ 52 : ℤ) : ℚ) := by
        rw [ulp, exponent, ← zpow_sub₀ (by norm_num), sub_sub_cancel]
        norm_num
      have units : ((2 ^ 52 : ℤ) : ℚ) ≤ q / ulp q := by
        rw [← power]
        exact div_le_div_of_nonneg_right (log_bounds qPositive).1 (ulp_pos q).le
      have smaller : m.value ≤ (2 : ℚ) ^ Int.log 2 q :=
        (log_bounds positive).2.le.trans (zpow_le_zpow_right₀ (by norm_num) (by omega))
      calc m.value / ulp q ≤ 2 ^ Int.log 2 q / ulp q := div_le_div_of_nonneg_right smaller (ulp_pos q).le
        _ = ((2 ^ 52 : ℤ) : ℚ) := power
        _ ≤ roundHalfEven (q / ulp q) := by exact_mod_cast le_roundHalfEven units
    · obtain ⟨n, units⟩ := units_of_same m equal
      rw [units]
      refine Int.cast_le.mpr (le_roundHalfEven ?_)
      rw [← units]
      exact div_le_div_of_nonneg_right below (ulp_pos q).le
  · rw [← zero, rounded]
    refine mul_nonneg (Int.cast_nonneg (le_roundHalfEven ?_)) (ulp_pos q).le
    rw [Int.cast_zero]
    exact div_nonneg (m.isMagnitude.1.trans below) (ulp_pos q).le

/-- Rounding does not go above a number. -/
theorem rounded_le {q : ℚ} (m : Magnitude) (nonneg : 0 ≤ q) (above : q ≤ m.value) : rounded q ≤ m.value := by
  rcases nonneg.lt_or_eq with positive | rfl
  · rw [rounded, ← le_div_iff₀ (ulp_pos q)]
    have mPositive := positive.trans_le above
    rcases (ulpExponent_mono positive above).lt_or_eq with less | equal
    · have exponent : ulpExponent m.value = Int.log 2 m.value - 52 := by
        unfold ulpExponent at less ⊢
        omega
      have logs : Int.log 2 q < Int.log 2 m.value := by
        unfold ulpExponent at less exponent
        omega
      obtain ⟨places, gap⟩ : ∃ places : ℕ, Int.log 2 m.value - ulpExponent q = places :=
        ⟨(Int.log 2 m.value - ulpExponent q).toNat, by omega⟩
      have power : (2 : ℚ) ^ Int.log 2 m.value / ulp q = ((2 ^ places : ℤ) : ℚ) := by
        rw [ulp, ← zpow_sub₀ (by norm_num), gap, zpow_natCast]
        push_cast
        rfl
      have units : q / ulp q ≤ ((2 ^ places : ℤ) : ℚ) := by
        rw [← power]
        refine div_le_div_of_nonneg_right ?_ (ulp_pos q).le
        exact (log_bounds positive).2.le.trans (zpow_le_zpow_right₀ (by norm_num) (by omega))
      calc (roundHalfEven (q / ulp q) : ℚ) ≤ ((2 ^ places : ℤ) : ℚ) := by exact_mod_cast roundHalfEven_le units
        _ = 2 ^ Int.log 2 m.value / ulp q := power.symm
        _ ≤ m.value / ulp q := div_le_div_of_nonneg_right (log_bounds mPositive).1 (ulp_pos q).le
    · obtain ⟨n, units⟩ := units_of_same m equal.symm
      rw [units]
      refine Int.cast_le.mpr (roundHalfEven_le ?_)
      rw [← units]
      exact div_le_div_of_nonneg_right above (ulp_pos q).le
  · rw [rounded, zero_div]
    have zero : roundHalfEven (0 : ℚ) = 0 := by
      have whole := roundHalfEven_intCast 0
      rwa [Int.cast_zero] at whole
    rw [zero, Int.cast_zero, zero_mul]
    exact m.isMagnitude.1

/-! ### One more -/

/-- One is lost in the rounding of a number whose last place is larger. -/
theorem rounded_absorbs {n s : ℤ} {e : ℕ} {q : ℚ} (one : |s| = 1) (is : q = n * 2 ^ e + s) (last : ulp q = 2 ^ e)
    (coarse : 2 ≤ e ∨ e = 1 ∧ n % 2 = 0) : rounded q = n * 2 ^ e := by
  have unit : (0 : ℚ) < 2 ^ e := by positivity
  have rounds : roundHalfEven (q / ulp q) = n := by
    refine roundHalfEven_near ?_
    have gap : q / ulp q - n = s / 2 ^ e := by
      rw [last, is, add_div, mul_div_cancel_right₀ _ unit.ne']
      ring
    have size : |(s : ℚ) / 2 ^ e| = 1 / 2 ^ e := by
      rw [abs_div, abs_of_pos unit, ← Int.cast_abs, one, Int.cast_one]
    rw [gap, size]
    rcases coarse with four | ⟨rfl, even⟩
    · left
      refine one_div_lt_one_div_of_lt (by norm_num) ?_
      calc (2 : ℚ) < 2 ^ 2 := by norm_num
        _ ≤ 2 ^ e := pow_le_pow_right₀ (by norm_num) four
    · exact .inr ⟨by norm_num, even⟩
  rw [rounded, rounds, last]

/-- Of an odd number of twos, one more or less is rounded to the next number of them. -/
theorem rounded_steps {n s : ℤ} {q : ℚ} (one : |s| = 1) (is : q = n * 2 + s) (last : ulp q = 2) (odd : n % 2 = 1) :
    rounded q = (n + s) * 2 := by
  have rounds : roundHalfEven (q / ulp q) = n + s := by
    refine roundHalfEven_near (.inr ⟨?_, ?_⟩)
    · have gap : q / ulp q - (n + s : ℤ) = -s / 2 := by
        rw [last, is]
        push_cast
        ring
      rw [gap, abs_div, abs_neg, ← Int.cast_abs, one]
      norm_num
    · rcases (abs_eq (by norm_num)).mp one with rfl | rfl <;> omega
  rw [rounded, rounds, last]
  push_cast
  rfl

theorem rounded_zero : rounded 0 = 0 := by
  have zero : roundHalfEven (0 : ℚ) = 0 := by
    have whole := roundHalfEven_intCast 0
    rwa [Int.cast_zero] at whole
  rw [rounded, zero_div, zero, Int.cast_zero, zero_mul]

/-- Below `2 ^ 53` a next whole number is there. -/
theorem rounds_up {v : ℚ} (low : -(2 ^ 53) ≤ v) (high : v < 2 ^ 53) :
    rounded |v + 1| < 2 ^ 1024 ∧ v < if v + 1 < 0 then -rounded |v + 1| else rounded |v + 1| := by
  have after : v < (⌊v⌋ + 1 : ℤ) := by
    push_cast
    exact Int.lt_floor_add_one v
  have upTo : ((⌊v⌋ + 1 : ℤ) : ℚ) ≤ v + 1 := by
    push_cast
    linarith [Int.floor_le v]
  have lowInt : -(2 ^ 53 : ℤ) ≤ ⌊v⌋ := Int.le_floor.mpr (by push_cast; exact low)
  have highInt : ⌊v⌋ < 2 ^ 53 := Int.floor_lt.mpr (by push_cast; exact high)
  have number : IsMagnitude |((⌊v⌋ + 1 : ℤ) : ℚ)| := isMagnitude_intCast (by omega)
  have small : ((1 : ℕ) : ℚ) * 2 ^ (54 : ℤ) < 2 ^ 1024 := by
    have power : (2 : ℚ) ^ (54 : ℤ) = 2 ^ 54 := zpow_natCast 2 54
    rw [Nat.cast_one, one_mul, power]
    exact pow_lt_pow_right₀ (by norm_num) (by norm_num)
  have most : IsMagnitude (((1 : ℕ) : ℚ) * 2 ^ (54 : ℤ)) := isMagnitude_units (by norm_num) (by norm_num) small
  constructor
  · have bound : |v + 1| ≤ ((1 : ℕ) : ℚ) * 2 ^ (54 : ℤ) := by
      rw [abs_le]
      constructor <;> norm_num <;> linarith
    exact (rounded_le ⟨_, most⟩ (abs_nonneg _) bound).trans_lt most.2.1
  · by_cases below : v + 1 < 0
    · rw [if_pos below]
      have smaller : |v + 1| ≤ |((⌊v⌋ + 1 : ℤ) : ℚ)| := by
        rw [abs_of_neg below, abs_of_neg (upTo.trans_lt below)]
        linarith
      have bound : rounded |v + 1| ≤ |((⌊v⌋ + 1 : ℤ) : ℚ)| := rounded_le ⟨_, number⟩ (abs_nonneg _) smaller
      rw [abs_of_neg (upTo.trans_lt below)] at bound
      linarith
    · rw [if_neg below]
      have nonneg : (0 : ℚ) ≤ ((⌊v⌋ + 1 : ℤ) : ℚ) := by
        have floor : -1 ≤ ⌊v⌋ := Int.le_floor.mpr (by push_cast; linarith [not_lt.mp below])
        exact_mod_cast (show 0 ≤ ⌊v⌋ + 1 by omega)
      have larger : |((⌊v⌋ + 1 : ℤ) : ℚ)| ≤ |v + 1| := by
        rw [abs_of_nonneg nonneg, abs_of_nonneg (not_lt.mp below)]
        exact upTo
      have bound : |((⌊v⌋ + 1 : ℤ) : ℚ)| ≤ rounded |v + 1| := le_rounded ⟨_, number⟩ larger
      rw [abs_of_nonneg nonneg] at bound
      exact after.trans_le bound

/-- The units of a number from `2 ^ 53` on. -/
theorem coarse_units {m : Magnitude} (large : 2 ^ 53 ≤ m.value) :
    ∃ (n : ℤ) (e : ℕ), 1 ≤ e ∧ m.value = n * 2 ^ e ∧ 2 ^ 52 ≤ n ∧ n < 2 ^ 53 := by
  have positive : 0 < m.value := lt_of_lt_of_le (by norm_num) large
  have log : 53 ≤ Int.log 2 m.value :=
    (Int.zpow_le_iff_le_log (b := 2) (by decide) positive).mp (by exact_mod_cast large)
  obtain ⟨e, exponent⟩ : ∃ e : ℕ, Int.log 2 m.value = e + 52 := ⟨(Int.log 2 m.value - 52).toNat, by omega⟩
  obtain ⟨n, whole⟩ := m.whole
  have last : ulp m.value = 2 ^ e := by
    rw [ulp, ulpExponent, exponent, add_sub_cancel_right, max_eq_left (by omega), zpow_natCast]
  have unit : (0 : ℚ) < 2 ^ e := by positivity
  obtain ⟨low, high⟩ := log_bounds positive
  rw [last] at whole
  rw [exponent, whole] at low high
  refine ⟨n, e, by omega, whole, ?_, ?_⟩
  · rw [zpow_add₀ (by norm_num), zpow_natCast, mul_comm] at low
    exact_mod_cast le_of_mul_le_mul_right low unit
  · rw [add_assoc, zpow_add₀ (by norm_num), zpow_natCast, mul_comm ((2 : ℚ) ^ e)] at high
    exact_mod_cast lt_of_mul_lt_mul_right high unit.le

theorem ulp_of_range {q : ℚ} {e : ℕ} (low : 2 ^ 52 * 2 ^ e ≤ q) (high : q < 2 ^ 53 * 2 ^ e) : ulp q = 2 ^ e := by
  have log : Int.log 2 q = 52 + e := by
    refine log_eq ?_ ?_
    · rw [zpow_add₀ (by norm_num), zpow_natCast]
      exact_mod_cast low
    · rw [show (52 : ℤ) + e + 1 = 53 + e from by ring, zpow_add₀ (by norm_num), zpow_natCast]
      exact_mod_cast high
  rw [ulp, ulpExponent, log, add_sub_cancel_left, max_eq_left (by omega), zpow_natCast]

theorem twice_odd_iff {m : Magnitude} {n : ℤ} {e : ℕ} (some' : 1 ≤ e) (is : m.value = n * 2 ^ e) (low : 2 ^ 52 ≤ n)
    (high : n < 2 ^ 53) :
    (m.value < 2 ^ 54 ∧ ∃ k : ℕ, m.value = 2 * (2 * k + 1)) ↔ e = 1 ∧ n % 2 = 1 := by
  constructor
  · rintro ⟨small, k, twice⟩
    have one : e = 1 := by
      by_contra more
      have power : (2 : ℚ) ^ 2 ≤ 2 ^ e := pow_le_pow_right₀ (by norm_num) (by omega)
      have lowCast : (2 : ℚ) ^ 52 ≤ n := by exact_mod_cast low
      have large : (2 : ℚ) ^ 54 ≤ m.value := by
        calc (2 : ℚ) ^ 54 = 2 ^ 52 * 2 ^ 2 := by norm_num
          _ ≤ (n : ℚ) * 2 ^ e := mul_le_mul lowCast power (by norm_num) (by linarith)
          _ = m.value := is.symm
      linarith
    subst one
    refine ⟨rfl, ?_⟩
    have halves : (n : ℚ) = ((2 * k + 1 : ℤ) : ℚ) := by
      push_cast
      linarith
    have equal : n = 2 * k + 1 := by exact_mod_cast halves
    omega
  · rintro ⟨rfl, odd⟩
    have highCast : (n : ℚ) < 2 ^ 53 := by exact_mod_cast high
    refine ⟨by rw [is]; linarith, (n / 2).toNat, ?_⟩
    have halves : n = 2 * ((n / 2).toNat : ℤ) + 1 := by omega
    have cast : (n : ℚ) = 2 * ((n / 2).toNat : ℚ) + 1 := by exact_mod_cast halves
    rw [is, ← cast]
    ring

/-- From `2 ^ 53` on, one more is another number only of twice an odd one. -/
theorem rounded_beside {m : Magnitude} {n s : ℤ} {e : ℕ} (one : |s| = 1) (some' : 1 ≤ e) (is : m.value = n * 2 ^ e)
    (last : ulp (m.value + s) = 2 ^ e) :
    rounded (m.value + s) = if e = 1 ∧ n % 2 = 1 then m.value + 2 * s else m.value := by
  split
  next steps =>
    obtain ⟨rfl, odd⟩ := steps
    rw [rounded_steps one (by rw [is, pow_one]) (by rw [last, pow_one]) odd, is]
    ring
  next stays => rw [rounded_absorbs one (by rw [is]) last (by omega), is]

theorem lt_two_pow_1024 {q : ℚ} (small : q ≤ 2 ^ 55) : q < 2 ^ 1024 :=
  small.trans_lt (pow_lt_pow_right₀ (by norm_num) (by norm_num))

theorem rounds_above {m : Magnitude} (large : 2 ^ 53 ≤ m.value) :
    rounded |m.value + 1| < 2 ^ 1024 ∧
      (m.value < rounded |m.value + 1| ↔ m.value < 2 ^ 54 ∧ ∃ k : ℕ, m.value = 2 * (2 * k + 1)) := by
  obtain ⟨n, e, some', is, low, high⟩ := coarse_units large
  have unit : (2 : ℚ) ≤ 2 ^ e := by
    calc (2 : ℚ) = 2 ^ 1 := (pow_one 2).symm
      _ ≤ 2 ^ e := pow_le_pow_right₀ (by norm_num) some'
  have lowCast : (2 : ℚ) ^ 52 * 2 ^ e ≤ m.value := by
    rw [is]
    exact mul_le_mul_of_nonneg_right (by exact_mod_cast low) (by linarith)
  have highCast : m.value ≤ (2 ^ 53 - 1) * 2 ^ e := by
    rw [is]
    exact mul_le_mul_of_nonneg_right (by exact_mod_cast Int.le_sub_one_of_lt high) (by linarith)
  have last : ulp (m.value + (1 : ℤ)) = 2 ^ e := by
    push_cast
    exact ulp_of_range (by linarith) (by linarith)
  have beside := rounded_beside (by decide) some' is last
  push_cast at beside
  rw [abs_of_nonneg (by linarith), twice_odd_iff some' is low high]
  by_cases odd : e = 1 ∧ n % 2 = 1
  · rw [if_pos odd] at beside
    rw [beside]
    refine ⟨lt_two_pow_1024 ?_, iff_of_true (by linarith) odd⟩
    have two : (2 : ℚ) ^ e = 2 := by rw [odd.1, pow_one]
    rw [two] at highCast
    linarith
  · rw [if_neg odd] at beside
    rw [beside]
    exact ⟨m.isMagnitude.2.1, iff_of_false (lt_irrefl _) odd⟩

theorem rounds_below {m : Magnitude} (large : 2 ^ 53 < m.value) :
    rounded |-m.value + 1| < 2 ^ 1024 ∧
      (-m.value < -rounded |-m.value + 1| ↔ m.value < 2 ^ 54 ∧ ∃ k : ℕ, m.value = 2 * (2 * k + 1)) := by
  obtain ⟨n, e, some', is, low, high⟩ := coarse_units large.le
  have unit : (2 : ℚ) ≤ 2 ^ e := by
    calc (2 : ℚ) = 2 ^ 1 := (pow_one 2).symm
      _ ≤ 2 ^ e := pow_le_pow_right₀ (by norm_num) some'
  have highCast : m.value ≤ (2 ^ 53 - 1) * 2 ^ e := by
    rw [is]
    exact mul_le_mul_of_nonneg_right (by exact_mod_cast Int.le_sub_one_of_lt high) (by linarith)
  have size : |-m.value + 1| = m.value + (-1 : ℤ) := by
    rw [abs_of_neg (by linarith)]
    push_cast
    ring
  rw [size, twice_odd_iff some' is low high, neg_lt_neg_iff]
  rcases low.lt_or_eq with more | equal
  · have lowCast : ((2 : ℚ) ^ 52 + 1) * 2 ^ e ≤ m.value := by
      rw [is]
      exact mul_le_mul_of_nonneg_right (by exact_mod_cast Int.add_one_le_of_lt more) (by linarith)
    have last : ulp (m.value + (-1 : ℤ)) = 2 ^ e := by
      push_cast
      exact ulp_of_range (by linarith) (by linarith)
    have beside := rounded_beside (by decide) some' is last
    by_cases odd : e = 1 ∧ n % 2 = 1
    · rw [if_pos odd] at beside
      push_cast at beside ⊢
      rw [beside]
      refine ⟨lt_two_pow_1024 ?_, iff_of_true (by linarith) odd⟩
      have two : (2 : ℚ) ^ e = 2 := by rw [odd.1, pow_one]
      rw [two] at highCast
      linarith
    · rw [if_neg odd] at beside
      push_cast at beside ⊢
      rw [beside]
      exact ⟨m.isMagnitude.2.1, iff_of_false (lt_irrefl _) odd⟩
  · subst equal
    have coarser : 2 ≤ e := by
      by_contra one
      have : e = 1 := by omega
      subst this
      rw [is] at large
      norm_num at large
    obtain ⟨d, rfl⟩ : ∃ d, e = d + 1 := ⟨e - 1, by omega⟩
    have halves : m.value = ((2 ^ 53 : ℤ) : ℚ) * 2 ^ d := by
      rw [is, pow_succ]
      push_cast
      ring
    have half : (2 : ℚ) ≤ 2 ^ d := by
      calc (2 : ℚ) = 2 ^ 1 := (pow_one 2).symm
        _ ≤ 2 ^ d := pow_le_pow_right₀ (by norm_num) (by omega)
    have last : ulp (m.value + (-1 : ℤ)) = 2 ^ d := by
      rw [halves]
      push_cast
      exact ulp_of_range (by linarith) (by linarith)
    have absorbed := rounded_absorbs (s := -1) (by decide) (by rw [halves]) last (by omega)
    rw [← halves] at absorbed
    rw [absorbed]
    exact ⟨m.isMagnitude.2.1, iff_of_false (lt_irrefl _) (by omega)⟩

end SynapsorRunner.DoubleRounding
