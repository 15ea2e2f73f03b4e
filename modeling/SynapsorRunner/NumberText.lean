import Mathlib.Data.Nat.Digits.Lemmas
import Mathlib.Data.List.Basic
import SynapsorRunner.Doubles

/-!
Numbers as text, in 16-bit code units: the decimal text of a number, with an
exponent when the point is far from the digits, and the numerals that a reader
takes. A numeral is read back from its text (`parseNumeral_text`), so a finite
number is read back from its own (`parseNumber_text`), the sign of a zero apart.
-/
namespace SynapsorRunner.NumberText
open SynapsorRunner.Doubles

abbrev CodeUnit := Fin 65536

abbrev Text := List CodeUnit

instance decidableMemText (t : Text) (texts : List Text) : Decidable (t ∈ texts) :=
  List.instDecidableMemOfLawfulBEq t texts

def codeUnit (n : ℕ) : CodeUnit := Fin.ofNat 65536 n

def unit (c : Char) : CodeUnit := codeUnit c.toNat

def ascii (s : String) : Text := s.toList.map unit

/-! ### Digits -/

def digitUnit (digit : ℕ) : CodeUnit := codeUnit (48 + digit)

def isDigit (u : CodeUnit) : Bool := decide (48 ≤ u.val ∧ u.val ≤ 57)

theorem digitUnit_val {digit : ℕ} (small : digit < 10) : (digitUnit digit).val = 48 + digit := by
  simp [digitUnit, codeUnit, Fin.ofNat]
  omega

theorem isDigit_digitUnit {digit : ℕ} (small : digit < 10) : isDigit (digitUnit digit) = true := by
  simp only [isDigit, digitUnit_val small, decide_eq_true_eq]
  omega

/-- The number that digits denote. -/
def natOfDigits (digits : List ℕ) : ℕ := digits.foldl (fun n digit => 10 * n + digit) 0

theorem foldl_digits (digits : List ℕ) (n : ℕ) :
    digits.foldl (fun n digit => 10 * n + digit) n = n * 10 ^ digits.length + natOfDigits digits := by
  induction digits generalizing n with
  | nil => simp [natOfDigits]
  | cons digit rest ih =>
    unfold natOfDigits
    rw [List.foldl_cons, List.foldl_cons, ih, ih (10 * 0 + digit), List.length_cons, pow_succ]
    ring

theorem natOfDigits_append (digits more : List ℕ) :
    natOfDigits (digits ++ more) = natOfDigits digits * 10 ^ more.length + natOfDigits more := by
  rw [natOfDigits, List.foldl_append, foldl_digits]
  rfl

theorem natOfDigits_zeros (count : ℕ) : natOfDigits (List.replicate count 0) = 0 := by
  induction count with
  | zero => rfl
  | succ count ih =>
    rw [List.replicate_succ', natOfDigits_append, ih]
    rfl

/-- The digits of a number, from the first on. -/
def digitsOf (n : ℕ) : List ℕ := if n = 0 then [0] else (Nat.digits 10 n).reverse

theorem digitsOf_lt {n digit : ℕ} (member : digit ∈ digitsOf n) : digit < 10 := by
  unfold digitsOf at member
  split at member
  · rw [List.mem_singleton.mp member]
    omega
  · exact Nat.digits_lt_base (by decide) (List.mem_reverse.mp member)

theorem digitsOf_ne_nil (n : ℕ) : digitsOf n ≠ [] := by
  unfold digitsOf
  split
  · simp
  · rename_i positive
    simpa [Nat.digits_ne_nil_iff_ne_zero] using positive

theorem natOfDigits_digitsOf (n : ℕ) : natOfDigits (digitsOf n) = n := by
  unfold digitsOf
  split
  · rename_i zero
    rw [zero]
    rfl
  · rw [natOfDigits, List.foldl_reverse]
    have folded := Nat.ofDigits_eq_foldr 10 (Nat.digits 10 n)
    rw [Nat.ofDigits_digits] at folded
    conv_rhs => rw [folded]
    congr 1
    funext digit rest
    simp
    omega

/-- No leading zero, except for zero itself. -/
theorem digitsOf_head {n : ℕ} (positive : 0 < n) : ∃ first rest, digitsOf n = first :: rest ∧ first ≠ 0 := by
  have nonzero : n ≠ 0 := by omega
  have nonempty : Nat.digits 10 n ≠ [] := Nat.digits_ne_nil_iff_ne_zero.mpr nonzero
  have last := Nat.getLast_digit_ne_zero 10 nonzero
  rw [digitsOf, if_neg nonzero]
  refine ⟨(Nat.digits 10 n).getLast nonempty, (Nat.digits 10 n).dropLast.reverse, ?_, last⟩
  conv_lhs => rw [← List.dropLast_append_getLast nonempty]
  simp

theorem digitsOf_length {n length : ℕ} (positive : 0 < length) (lower : 10 ^ (length - 1) ≤ n) (upper : n < 10 ^ length) :
    (digitsOf n).length = length := by
  have nonzero : n ≠ 0 := by
    have low : 0 < 10 ^ (length - 1) := Nat.pos_of_ne_zero (by simp)
    omega
  rw [digitsOf, if_neg nonzero, List.length_reverse, Nat.length_digits 10 n (by decide) nonzero]
  have log : Nat.log 10 n = length - 1 :=
    (Nat.log_eq_iff (Or.inr ⟨by decide, nonzero⟩)).mpr ⟨lower, by rwa [Nat.sub_add_cancel positive]⟩
  omega

/-- The leading digits of a text, and the rest. -/
def spanDigits : Text → List ℕ × Text
  | [] => ([], [])
  | u :: rest =>
    if isDigit u then ((u.val - 48) :: (spanDigits rest).1, (spanDigits rest).2) else ([], u :: rest)

def digitsText (digits : List ℕ) : Text := digits.map digitUnit

/-- A text does not go on with a digit. -/
def NoDigit (rest : Text) : Prop := ∀ u ∈ rest.head?, isDigit u = false

theorem spanDigits_digitsText {digits : List ℕ} (small : ∀ digit ∈ digits, digit < 10) {rest : Text} (ends : NoDigit rest) :
    spanDigits (digitsText digits ++ rest) = (digits, rest) := by
  induction digits with
  | nil =>
    cases rest with
    | nil => rfl
    | cons u rest =>
      have other : isDigit u = false := ends u (by simp)
      simp [digitsText, spanDigits, other]
  | cons digit more ih =>
    have first : digit < 10 := small digit (by simp)
    have others := ih fun d member => small d (List.mem_cons_of_mem _ member)
    unfold digitsText at others ⊢
    rw [List.map_cons, List.cons_append, spanDigits, if_pos (isDigit_digitUnit first), others, digitUnit_val first]
    simp

/-! ### Numerals -/

/-- A decimal numeral, with digits behind the point and an exponent if it has any. -/
structure Numeral where
  whole : List ℕ
  fraction : List ℕ
  exponent : Option ℤ
  deriving DecidableEq

def Numeral.value (numeral : Numeral) : ℚ :=
  natOfDigits (numeral.whole ++ numeral.fraction) * 10 ^ (numeral.exponent.getD 0 - numeral.fraction.length)

def exponentText (exponent : ℤ) : Text :=
  unit 'e' :: unit (if exponent < 0 then '-' else '+') :: digitsText (digitsOf exponent.natAbs)

def Numeral.text (numeral : Numeral) : Text :=
  digitsText numeral.whole ++
    ((if numeral.fraction = [] then [] else unit '.' :: digitsText numeral.fraction) ++
      (numeral.exponent.map exponentText).getD [])

structure Numeral.WellFormed (numeral : Numeral) : Prop where
  whole : ∀ digit ∈ numeral.whole, digit < 10
  fraction : ∀ digit ∈ numeral.fraction, digit < 10
  first : numeral.whole = [0] ∨ ∃ first rest, numeral.whole = first :: rest ∧ first ≠ 0

/-- The digits before the point have no leading zero. -/
def wholeDigits : List ℕ → Bool
  | [] => false
  | first :: rest => first != 0 || rest.isEmpty

/-- The digits behind a point, at least one, and the rest. -/
def parseFraction : Text → Option (List ℕ × Text)
  | u :: rest =>
    if u = unit '.' then
      let (digits, rest) := spanDigits rest
      if digits = [] then none else some (digits, rest)
    else some ([], u :: rest)
  | [] => some ([], [])

/-- The digits of an exponent, at least one, and the rest. -/
def exponentDigits (negative : Bool) (text : Text) : Option (Option ℤ × Text) :=
  let (digits, rest) := spanDigits text
  if digits = [] then none
  else some (some (if negative then -(natOfDigits digits : ℤ) else natOfDigits digits), rest)

def parseExponent : Text → Option (Option ℤ × Text)
  | [] => some (none, [])
  | u :: rest =>
    if u = unit 'e' ∨ u = unit 'E' then
      match rest with
      | [] => none
      | sign :: digits =>
        if sign = unit '-' then exponentDigits true digits
        else if sign = unit '+' then exponentDigits false digits
        else exponentDigits false (sign :: digits)
    else some (none, u :: rest)

def parseNumeral (text : Text) : Option (Numeral × Text) :=
  let (whole, rest) := spanDigits text
  if wholeDigits whole then
    (parseFraction rest).bind fun (fraction, rest) =>
      (parseExponent rest).map fun (exponent, rest) => (⟨whole, fraction, exponent⟩, rest)
  else none

/-- A text that does not go on with a part of a numeral. -/
def EndsNumeral (rest : Text) : Prop :=
  ∀ u ∈ rest.head?, isDigit u = false ∧ u ≠ unit '.' ∧ u ≠ unit 'e' ∧ u ≠ unit 'E'

theorem EndsNumeral.noDigit {rest : Text} (ends : EndsNumeral rest) : NoDigit rest :=
  fun u member => (ends u member).1

theorem noDigit_cons {u : CodeUnit} (other : isDigit u = false) (rest : Text) : NoDigit (u :: rest) := by
  intro v member
  simp at member
  rw [← member]
  exact other

theorem exponentDigits_text (negative : Bool) (n : ℕ) {rest : Text} (ends : NoDigit rest) :
    exponentDigits negative (digitsText (digitsOf n) ++ rest) = some (some (if negative then -(n : ℤ) else n), rest) := by
  unfold exponentDigits
  rw [spanDigits_digitsText (fun _ member => digitsOf_lt member) ends]
  dsimp only
  rw [if_neg (digitsOf_ne_nil n), natOfDigits_digitsOf]

theorem parseExponent_text (exponent : Option ℤ) {rest : Text} (ends : EndsNumeral rest) :
    parseExponent ((exponent.map exponentText).getD [] ++ rest) = some (exponent, rest) := by
  cases exponent with
  | none =>
    cases rest with
    | nil => rfl
    | cons u rest =>
      obtain ⟨-, -, lower, upper⟩ := ends u (by simp)
      simp [parseExponent, lower, upper]
  | some exponent =>
    have signs : unit '+' ≠ unit '-' := by decide
    by_cases negative : exponent < 0
    · have magnitude : -(exponent.natAbs : ℤ) = exponent := by omega
      simp only [Option.map_some, Option.getD_some, exponentText, if_pos negative, List.cons_append, parseExponent, true_or,
        if_true, exponentDigits_text true _ ends.noDigit, magnitude]
    · have magnitude : (exponent.natAbs : ℤ) = exponent := by omega
      simp only [Option.map_some, Option.getD_some, exponentText, if_neg negative, List.cons_append, parseExponent, true_or,
        if_true, if_neg signs, exponentDigits_text false _ ends.noDigit, magnitude]
      simp

theorem exponent_noDigit (exponent : Option ℤ) {rest : Text} (ends : EndsNumeral rest) :
    NoDigit ((exponent.map exponentText).getD [] ++ rest) := by
  cases exponent with
  | none => exact ends.noDigit
  | some exponent => exact noDigit_cons (by decide) _

theorem parseFraction_text {fraction : List ℕ} (small : ∀ digit ∈ fraction, digit < 10) {rest : Text} (ends : NoDigit rest)
    (noPoint : ∀ u ∈ rest.head?, u ≠ unit '.') :
    parseFraction ((if fraction = [] then [] else unit '.' :: digitsText fraction) ++ rest) = some (fraction, rest) := by
  by_cases empty : fraction = []
  · rw [if_pos empty, List.nil_append, empty]
    cases rest with
    | nil => rfl
    | cons u rest =>
      have other : u ≠ unit '.' := noPoint u (by simp)
      rw [parseFraction, if_neg other]
  · rw [if_neg empty, List.cons_append, parseFraction, if_pos rfl, spanDigits_digitsText small ends]
    dsimp only
    rw [if_neg empty]

theorem wholeDigits_of_first {whole : List ℕ} (first : whole = [0] ∨ ∃ first rest, whole = first :: rest ∧ first ≠ 0) :
    wholeDigits whole = true := by
  rcases first with rfl | ⟨first, rest, rfl, nonzero⟩
  · rfl
  · simp [wholeDigits, nonzero]

/-- A numeral is read back from its text. -/
theorem parseNumeral_text {numeral : Numeral} (formed : numeral.WellFormed) {rest : Text} (ends : EndsNumeral rest) :
    parseNumeral (numeral.text ++ rest) = some (numeral, rest) := by
  have noDigit := exponent_noDigit numeral.exponent ends
  have noPoint : ∀ u ∈ ((numeral.exponent.map exponentText).getD [] ++ rest).head?, u ≠ unit '.' := by
    cases numeral.exponent with
    | none => exact fun u member => (ends u member).2.1
    | some exponent =>
      intro u member
      simp [exponentText] at member
      rw [← member]
      decide
  have whole : NoDigit ((if numeral.fraction = [] then [] else unit '.' :: digitsText numeral.fraction) ++
      ((numeral.exponent.map exponentText).getD [] ++ rest)) := by
    by_cases empty : numeral.fraction = []
    · rw [if_pos empty]
      exact noDigit
    · rw [if_neg empty]
      exact noDigit_cons (by decide) _
  unfold parseNumeral Numeral.text
  rw [List.append_assoc, List.append_assoc, spanDigits_digitsText formed.whole whole]
  dsimp only
  rw [if_pos (wholeDigits_of_first formed.first), parseFraction_text formed.fraction noDigit noPoint, Option.bind_some]
  dsimp only
  rw [parseExponent_text numeral.exponent ends]
  rfl

/-! ### The numeral of a decimal -/

/-- The point among the digits or near them, or an exponent. -/
def decimalNumeral (d : Decimal) : Numeral :=
  let digits := digitsOf d.significand
  if d.length ≤ d.point ∧ d.point ≤ 21 then ⟨digits ++ List.replicate (d.point - d.length).toNat 0, [], none⟩
  else if 0 < d.point ∧ d.point ≤ 21 then ⟨digits.take d.point.toNat, digits.drop d.point.toNat, none⟩
  else if -6 < d.point ∧ d.point ≤ 0 then ⟨[0], List.replicate (-d.point).toNat 0 ++ digits, none⟩
  else ⟨digits.take 1, digits.drop 1, some (d.point - 1)⟩

theorem first_take {digits : List ℕ} (head : ∃ first rest, digits = first :: rest ∧ first ≠ 0) {count : ℕ} (positive : 0 < count) :
    ∃ first rest, digits.take count = first :: rest ∧ first ≠ 0 := by
  obtain ⟨first, rest, rfl, nonzero⟩ := head
  obtain ⟨count, rfl⟩ : ∃ n, count = n + 1 := ⟨count - 1, by omega⟩
  exact ⟨first, rest.take count, rfl, nonzero⟩

theorem significand_pos {d : Decimal} (formed : d.WellFormed) : 0 < d.significand :=
  lt_of_lt_of_le (Nat.pow_pos (by decide)) formed.lower

theorem decimalNumeral_wellFormed {d : Decimal} (formed : d.WellFormed) : (decimalNumeral d).WellFormed := by
  have head := digitsOf_head (significand_pos formed)
  have small : ∀ digit ∈ digitsOf d.significand, digit < 10 := fun _ member => digitsOf_lt member
  unfold decimalNumeral
  dsimp only
  split
  · refine ⟨?_, by simp, ?_⟩
    · intro digit member
      rcases List.mem_append.mp member with inside | zero
      · exact small digit inside
      · rw [List.eq_of_mem_replicate zero]
        omega
    · obtain ⟨first, rest, digits, nonzero⟩ := head
      refine Or.inr ⟨first, rest ++ List.replicate (d.point - d.length).toNat 0, ?_, nonzero⟩
      dsimp only
      rw [digits, List.cons_append]
  · split
    · rename_i inside
      have positive : 0 < d.point.toNat := by omega
      exact ⟨fun digit member => small digit (List.mem_of_mem_take member),
        fun digit member => small digit (List.mem_of_mem_drop member), Or.inr (first_take head positive)⟩
    · split
      · refine ⟨by simp, ?_, Or.inl rfl⟩
        intro digit member
        rcases List.mem_append.mp member with zero | inside
        · rw [List.eq_of_mem_replicate zero]
          omega
        · exact small digit inside
      · exact ⟨fun digit member => small digit (List.mem_of_mem_take member),
          fun digit member => small digit (List.mem_of_mem_drop member), Or.inr (first_take head (by decide))⟩

theorem decimalNumeral_value {d : Decimal} (formed : d.WellFormed) : (decimalNumeral d).value = d.value := by
  have length := digitsOf_length formed.positive formed.lower formed.upper
  have digits := natOfDigits_digitsOf d.significand
  have ten : (10 : ℚ) ≠ 0 := by norm_num
  unfold decimalNumeral Decimal.value
  dsimp only
  split
  · rename_i near
    have zeros : ((d.point - d.length).toNat : ℤ) = d.point - d.length := by omega
    unfold Numeral.value
    dsimp only
    rw [List.append_nil, natOfDigits_append, natOfDigits_zeros, digits, List.length_replicate, List.length_nil, Option.getD_none,
      ← zeros, zpow_natCast]
    push_cast
    simp
  · split
    · rename_i inside
      have behind : ((digitsOf d.significand).drop d.point.toNat).length = (d.length - d.point : ℤ) := by
        rw [List.length_drop, length]
        omega
      unfold Numeral.value
      dsimp only
      rw [List.take_append_drop, digits, Option.getD_none, behind]
      congr 2
      ring
    · split
      · rename_i before
        have zeros : ((-d.point).toNat : ℤ) = -d.point := by omega
        unfold Numeral.value
        dsimp only
        rw [← List.append_assoc, natOfDigits_append, digits, Option.getD_none, List.length_append, List.length_replicate, length]
        rw [show [0] ++ List.replicate (-d.point).toNat 0 = List.replicate ((-d.point).toNat + 1) 0 from rfl, natOfDigits_zeros,
          Nat.zero_mul, Nat.zero_add, Nat.cast_add, zeros]
        congr 2
        ring
      · have behind : ((digitsOf d.significand).drop 1).length = (d.length - 1 : ℤ) := by
          rw [List.length_drop, length]
          have positive := formed.positive
          omega
        unfold Numeral.value
        dsimp only
        rw [List.take_append_drop, digits, Option.getD_some, behind]
        congr 2
        ring

/-! ### Numbers -/

/-- The text of a number that is not negative. -/
def magnitudeText (m : Magnitude) : Text :=
  if positive : 0 < m.value then (decimalNumeral (shortest m positive)).text else ascii "0"

def numberText : Number → Text
  | .finite negative m => if negative ∧ 0 < m.value then unit '-' :: magnitudeText m else magnitudeText m
  | .infinite _ => ascii "null"
  | .nan => ascii "null"

/-- The number nearest to the value of a numeral. -/
def numeralNumber (negative : Bool) (numeral : Numeral) : Number :=
  match roundToDouble numeral.value with
  | some m => .finite negative m
  | none => .infinite negative

def parseNumber : Text → Option (Number × Text)
  | [] => none
  | u :: rest =>
    if u = unit '-' then (parseNumeral rest).map fun (numeral, rest) => (numeralNumber true numeral, rest)
    else (parseNumeral (u :: rest)).map fun (numeral, rest) => (numeralNumber false numeral, rest)

/-- A number without the sign of a zero. -/
def unsignZero : Number → Number
  | .finite negative m => .finite (negative && decide (0 < m.value)) m
  | n => n

theorem magnitude_zero {m : Magnitude} (notPositive : ¬ 0 < m.value) : m = Magnitude.zero := by
  have zero : m.value = 0 := le_antisymm (not_lt.mp notPositive) m.isMagnitude.1
  cases m
  simp only [Magnitude.zero, Magnitude.mk.injEq]
  exact zero

theorem digitsText_head {digits : List ℕ} (first : digits = [0] ∨ ∃ first rest, digits = first :: rest ∧ first ≠ 0) (rest : Text) :
    ∃ digit more, digitsText digits ++ rest = digitUnit digit :: more ∧ digit ∈ digits := by
  rcases first with rfl | ⟨digit, others, rfl, -⟩
  · exact ⟨0, rest, rfl, by simp⟩
  · exact ⟨digit, digitsText others ++ rest, rfl, by simp⟩

theorem zero_wellFormed : Numeral.WellFormed ⟨[0], [], none⟩ := ⟨by simp, by simp, Or.inl rfl⟩

/-- The text of a magnitude is that of a numeral with its value. -/
theorem magnitudeText_numeral (m : Magnitude) :
    ∃ numeral : Numeral, numeral.WellFormed ∧ magnitudeText m = numeral.text ∧ roundToDouble numeral.value = some m := by
  unfold magnitudeText
  by_cases positive : 0 < m.value
  · rw [dif_pos positive]
    refine ⟨_, decimalNumeral_wellFormed (shortest_wellFormed m positive), rfl, ?_⟩
    rw [decimalNumeral_value (shortest_wellFormed m positive), shortest_rounds]
  · rw [dif_neg positive, magnitude_zero positive]
    refine ⟨⟨[0], [], none⟩, zero_wellFormed, rfl, ?_⟩
    have zero : Numeral.value ⟨[0], [], none⟩ = Magnitude.zero.value := by
      simp [Numeral.value, natOfDigits, Magnitude.zero]
    rw [zero, roundToDouble_value]

theorem digitUnit_ne_minus {digit : ℕ} (small : digit < 10) : digitUnit digit ≠ unit '-' := by
  intro same
  have digits := isDigit_digitUnit small
  rw [same] at digits
  exact absurd digits (by decide)

/-- A finite number is read back from its text, without the sign of a zero. -/
theorem parseNumber_text {n : Number} (finite : n.isFinite = true) {rest : Text} (ends : EndsNumeral rest) :
    parseNumber (numberText n ++ rest) = some (unsignZero n, rest) := by
  cases n with
  | infinite negative => simp [Number.isFinite] at finite
  | nan => simp [Number.isFinite] at finite
  | finite negative m =>
    obtain ⟨numeral, formed, text, rounds⟩ := magnitudeText_numeral m
    have number (sign : Bool) : numeralNumber sign numeral = .finite sign m := by
      rw [numeralNumber, rounds]
    by_cases signed : negative ∧ 0 < m.value
    · rw [numberText, if_pos signed, List.cons_append, parseNumber, if_pos rfl, text, parseNumeral_text formed ends]
      simp [unsignZero, number, signed.1, signed.2]
    · have unsigned : unsignZero (.finite negative m) = .finite false m := by
        simp only [unsignZero, Number.finite.injEq, Bool.and_eq_false_iff, decide_eq_false_iff_not, and_true]
        cases negative with
        | false => exact Or.inl rfl
        | true => exact Or.inr fun positive => signed ⟨rfl, positive⟩
      obtain ⟨digit, more, head, member⟩ := digitsText_head formed.first
        ((if numeral.fraction = [] then [] else unit '.' :: digitsText numeral.fraction) ++
          (numeral.exponent.map exponentText).getD [] ++ rest)
      have starts : numeral.text ++ rest = digitUnit digit :: more := by
        rw [← head, Numeral.text, List.append_assoc]
      rw [numberText, if_neg signed, text, starts, parseNumber, if_neg (digitUnit_ne_minus (formed.whole digit member)), ← starts,
        parseNumeral_text formed ends, unsigned]
      simp [number]

/-- Text that starts with a digit or a minus sign, as numbers do. -/
def startsNumber (u : CodeUnit) : Bool := isDigit u || decide (u = unit '-')

theorem numberText_head {n : Number} (finite : n.isFinite = true) :
    ∃ u more, numberText n = u :: more ∧ startsNumber u = true := by
  cases n with
  | infinite negative => simp [Number.isFinite] at finite
  | nan => simp [Number.isFinite] at finite
  | finite negative m =>
    obtain ⟨numeral, formed, text, -⟩ := magnitudeText_numeral m
    by_cases signed : negative ∧ 0 < m.value
    · refine ⟨unit '-', magnitudeText m, ?_, by decide⟩
      rw [numberText, if_pos signed]
    · obtain ⟨digit, more, head, member⟩ := digitsText_head formed.first
        ((if numeral.fraction = [] then [] else unit '.' :: digitsText numeral.fraction) ++
          (numeral.exponent.map exponentText).getD [])
      refine ⟨digitUnit digit, more, ?_, ?_⟩
      · rw [numberText, if_neg signed, text, Numeral.text, head]
      · rw [startsNumber, isDigit_digitUnit (formed.whole digit member)]
        rfl

end SynapsorRunner.NumberText
