import Mathlib.Tactic.Linarith
import Mathlib.Tactic.NormNum
import Mathlib.Tactic.Positivity
import Mathlib.Tactic.Ring
import Composer.Proofs.Json.Numbers

/-!
Which numbers are too large, by their size. Dropping digits that a word does not hold and rounding to
double precision change a number by a small factor. A number below the largest double is read, and one
above it is not, unless its first fifteen digits are those of the largest double.
-/

namespace Composer.Json

/-! ### Numbers near each other -/

/-- Each number is at most the other one times the factor. -/
def Within (factor first second : ℚ) : Prop := first ≤ factor * second ∧ second ≤ factor * first

namespace Within

variable {factor other first second third : ℚ}

theorem refl (least : 1 ≤ factor) (positive : 0 ≤ first) : Within factor first first :=
  ⟨le_mul_of_one_le_left positive least, le_mul_of_one_le_left positive least⟩

theorem trans (near : Within factor first second) (nearToo : Within other second third)
    (positive : 0 ≤ factor) (positiveToo : 0 ≤ other) : Within (factor * other) first third := by
  constructor
  · calc first ≤ factor * second := near.1
      _ ≤ factor * (other * third) := mul_le_mul_of_nonneg_left nearToo.1 positive
      _ = factor * other * third := (mul_assoc _ _ _).symm
  · calc third ≤ other * second := nearToo.2
      _ ≤ other * (factor * first) := mul_le_mul_of_nonneg_left near.2 positiveToo
      _ = factor * other * first := by rw [mul_left_comm, mul_assoc]

theorem mul_right (near : Within factor first second) {unit : ℚ} (positive : 0 ≤ unit) :
    Within factor (first * unit) (second * unit) := by
  rw [Within, ← mul_assoc, ← mul_assoc]
  exact ⟨mul_le_mul_of_nonneg_right near.1 positive, mul_le_mul_of_nonneg_right near.2 positive⟩

theorem mul_left (near : Within factor first second) {unit : ℚ} (positive : 0 ≤ unit) :
    Within factor (unit * first) (unit * second) := by
  rw [mul_comm unit, mul_comm unit]
  exact near.mul_right positive

end Within

/-! ### Rounding -/

/-- Rounding moves a number by half of its last unit at most, which is small against the number. -/
theorem round_to_double_error (value : Nat) : ∃ unit, unit * 2 ^ 52 ≤ value ∧
    2 * roundToDouble value ≤ 2 * value + unit ∧ 2 * value ≤ 2 * roundToDouble value + unit := by
  by_cases short : value.log2 + 1 ≤ 53
  · have one : Nat.pow 2 (value.log2 + 1 - 53) = 1 := by rw [Nat.sub_eq_zero_of_le short]
    have same : roundToDouble value = value := by
      rw [roundToDouble, one, Nat.mod_one, Nat.div_one]
      simp
    exact ⟨0, by omega, by omega, by omega⟩
  · have some : value ≠ 0 := by
      rintro rfl
      exact short (by decide)
    have unit : Nat.pow 2 (value.log2 + 1 - 53) * 2 ^ 52 ≤ value := by
      have power : 2 ^ (value.log2 + 1 - 53) * 2 ^ 52 = 2 ^ value.log2 := by
        rw [← Nat.pow_add]
        congr 1
        omega
      exact Nat.le_trans (Nat.le_of_eq power) (Nat.log2_self_le some)
    have split := Nat.div_add_mod' value (Nat.pow 2 (value.log2 + 1 - 53))
    have remainder := Nat.mod_lt value (Nat.pow_pos (Nat.two_pos) : 0 < 2 ^ (value.log2 + 1 - 53))
    change value % Nat.pow 2 (value.log2 + 1 - 53) < Nat.pow 2 (value.log2 + 1 - 53) at remainder
    refine ⟨_, unit, ?_⟩
    rw [roundToDouble]
    split
    · rw [Nat.add_mul, Nat.one_mul]
      omega
    · omega

/-- The factor by which rounding may change a number. -/
def roundingFactor : ℚ := 1 + 1 / 2 ^ 52

theorem rounding_factor_pos : 0 < roundingFactor := by
  rw [roundingFactor]
  positivity

theorem round_to_double_within (value : Nat) :
    Within roundingFactor (roundToDouble value) value := by
  obtain ⟨unit, small, above, below⟩ := round_to_double_error value
  have small : (unit : ℚ) * 2 ^ 52 ≤ value := by exact_mod_cast small
  have above : 2 * (roundToDouble value : ℚ) ≤ 2 * value + unit := by exact_mod_cast above
  have below : 2 * (value : ℚ) ≤ 2 * roundToDouble value + unit := by exact_mod_cast below
  have positive : (0 : ℚ) ≤ unit := Nat.cast_nonneg unit
  rw [Within, roundingFactor]
  constructor
  · linarith
  · linarith

/-- Where both factors of a product are rounded, and then the product, each rounding counts. -/
theorem rounded_product_within (first second : Nat) :
    Within (roundingFactor ^ 3)
      (roundToDouble (roundToDouble first * roundToDouble second) : ℕ) (first * second : ℚ) := by
  have positive := rounding_factor_pos.le
  have whole := round_to_double_within (roundToDouble first * roundToDouble second)
  have left := (round_to_double_within first).mul_right (Nat.cast_nonneg (roundToDouble second))
  have right := (round_to_double_within second).mul_left (Nat.cast_nonneg first)
  rw [Nat.cast_mul] at whole
  have near := (whole.trans left positive positive).trans right (by positivity) positive
  rwa [show roundingFactor ^ 3 = roundingFactor * roundingFactor * roundingFactor by ring]

/-! ### Leading digits -/

def withDigits (value : Nat) (digits : List UInt8) : Nat :=
  digits.foldl (fun value digit => value * 10 + digitValue digit) value

theorem with_digits_append (value : Nat) (front back : List UInt8) :
    withDigits value (front ++ back) = withDigits (withDigits value front) back :=
  List.foldl_append

theorem digit_value_lt {byte : UInt8} (digit : isDigit byte = true) : digitValue byte < 10 := by
  rw [isDigit, Bool.and_eq_true, decide_eq_true_eq, decide_eq_true_eq, UInt8.le_iff_toNat_le,
    UInt8.le_iff_toNat_le] at digit
  have least : (0x30 : UInt8).toNat = 48 := rfl
  have most : (0x39 : UInt8).toNat = 57 := rfl
  rw [digitValue]
  omega

/-- Digits behind a number place it between the number and the next one. -/
theorem with_digits_between (value : Nat) {digits : List UInt8}
    (all : ∀ byte ∈ digits, isDigit byte = true) :
    value * 10 ^ digits.length ≤ withDigits value digits ∧
      withDigits value digits < (value + 1) * 10 ^ digits.length := by
  induction digits generalizing value with
  | nil => simp [withDigits]
  | cons digit rest ih =>
      rw [List.forall_mem_cons] at all
      obtain ⟨least, most⟩ := ih (value * 10 + digitValue digit) all.2
      have small : digitValue digit < 10 := digit_value_lt all.1
      have split : withDigits value (digit :: rest) =
          withDigits (value * 10 + digitValue digit) rest := rfl
      have power : 10 ^ (digit :: rest).length = 10 * 10 ^ rest.length := by
        rw [List.length_cons, Nat.pow_succ, Nat.mul_comm]
      rw [split, power]
      constructor
      · calc value * (10 * 10 ^ rest.length)
          _ = value * 10 * 10 ^ rest.length := (Nat.mul_assoc _ _ _).symm
          _ ≤ (value * 10 + digitValue digit) * 10 ^ rest.length :=
            Nat.mul_le_mul_right _ (Nat.le_add_right _ _)
          _ ≤ _ := least
      · calc withDigits (value * 10 + digitValue digit) rest
          _ < (value * 10 + digitValue digit + 1) * 10 ^ rest.length := most
          _ ≤ (value + 1) * 10 * 10 ^ rest.length := Nat.mul_le_mul_right _ (by omega)
          _ = _ := Nat.mul_assoc _ _ _

/-- Digits are put behind a word up to one that it does not hold any more. -/
theorem take_into_word_split {word : Nat} (small : word < wordBound) (digits : List UInt8) :
    ∃ taken left, digits = taken ++ left ∧
      takeIntoWord word digits = (withDigits word taken, taken.length) ∧
      withDigits word taken < wordBound ∧
      ∀ digit ∈ left.head?, wordBound ≤ withDigits word taken * 10 + digitValue digit := by
  induction digits generalizing word with
  | nil => exact ⟨[], [], rfl, rfl, small, nofun⟩
  | cons digit rest ih =>
      rw [takeIntoWord]
      dsimp only
      split
      · next full =>
          refine ⟨[], digit :: rest, rfl, rfl, small, fun next head => ?_⟩
          cases head
          exact full
      · next room =>
          obtain ⟨taken, left, rfl, run, later, full⟩ := ih (Nat.lt_of_not_le room)
          refine ⟨digit :: taken, left, rfl, ?_, later, full⟩
          rw [run]
          rfl

/-- The factor by which dropping digits behind a full word may change a number. -/
def droppingFactor : ℚ := 1 + 1 / 10 ^ 18

theorem dropping_factor_pos : 0 < droppingFactor := by
  rw [droppingFactor]
  positivity

theorem between_within {front power first second : Nat} (enough : 10 ^ 18 ≤ front)
    (between : front * power ≤ first ∧ first ≤ (front + 1) * power)
    (betweenToo : front * power ≤ second ∧ second ≤ (front + 1) * power) :
    Within droppingFactor first second := by
  have gap : 10 ^ 18 * power ≤ front * power := Nat.mul_le_mul_right power enough
  have gap : 10 ^ 18 * (power : ℚ) ≤ front * power := by exact_mod_cast gap
  have below : (front : ℚ) * power ≤ first := by exact_mod_cast between.1
  have above : (first : ℚ) ≤ (front + 1) * power := by exact_mod_cast between.2
  have belowToo : (front : ℚ) * power ≤ second := by exact_mod_cast betweenToo.1
  have aboveToo : (second : ℚ) ≤ (front + 1) * power := by exact_mod_cast betweenToo.2
  rw [Within, droppingFactor]
  constructor
  · linarith
  · linarith

/-- A word that takes no further digit has more than eighteen of them. -/
theorem long_of_full {word : Nat} {digits : List UInt8} (some : digits ≠ [])
    (all : ∀ byte ∈ digits, isDigit byte = true)
    (full : ∀ digit ∈ digits.head?, wordBound ≤ word * 10 + digitValue digit) : 10 ^ 18 ≤ word := by
  obtain ⟨digit, rest, rfl⟩ := List.exists_cons_of_ne_nil some
  have small := digit_value_lt (all digit List.mem_cons_self)
  have full := full digit rfl
  have bound : wordBound = 2 ^ 64 := rfl
  omega

/-- Where only digits behind the point are left, the word holds all the leading ones. -/
theorem dropped_behind_within {front : Nat} {taken left : List UInt8}
    (all : ∀ byte ∈ left, isDigit byte = true)
    (full : ∀ digit ∈ left.head?, wordBound ≤ withDigits front taken * 10 + digitValue digit) :
    Within droppingFactor (withDigits front taken * 10 ^ left.length : ℕ)
      (withDigits front (taken ++ left) : ℕ) := by
  rw [with_digits_append]
  generalize withDigits front taken = word at full
  by_cases last : left = []
  · subst last
    rw [List.length_nil, Nat.pow_zero, Nat.mul_one]
    exact .refl (by rw [droppingFactor]; norm_num) (Nat.cast_nonneg _)
  · obtain ⟨least, most⟩ := with_digits_between word all
    exact between_within (long_of_full last all full)
      ⟨Nat.le_refl _, Nat.mul_le_mul_right _ (Nat.le_succ word)⟩ ⟨least, Nat.le_of_lt most⟩

/-- Where digits before the point are left, the word is long already without those behind it. -/
theorem dropped_around_within {front : Nat} {left takenBehind leftBehind : List UInt8}
    (some : left ≠ []) (all : ∀ byte ∈ left ++ (takenBehind ++ leftBehind), isDigit byte = true)
    (full : ∀ digit ∈ left.head?, wordBound ≤ front * 10 + digitValue digit) :
    Within droppingFactor
      (withDigits front takenBehind * 10 ^ (left.length + leftBehind.length) : ℕ)
      (withDigits front (left ++ (takenBehind ++ leftBehind)) : ℕ) := by
  have digits : ∀ byte ∈ left, isDigit byte = true :=
    fun byte among => all byte (List.mem_append_left _ among)
  have digitsBehind : ∀ byte ∈ takenBehind, isDigit byte = true := fun byte among =>
    all byte (List.mem_append_right _ (List.mem_append_left _ among))
  have length : 10 ^ (left ++ (takenBehind ++ leftBehind)).length =
      10 ^ takenBehind.length * 10 ^ (left.length + leftBehind.length) := by
    rw [← Nat.pow_add]
    congr 1
    simp only [List.length_append]
    omega
  obtain ⟨least, most⟩ := with_digits_between front all
  obtain ⟨leastBehind, mostBehind⟩ := with_digits_between front digitsBehind
  rw [length] at least most
  have word : front * (10 ^ takenBehind.length * 10 ^ (left.length + leftBehind.length)) ≤
        withDigits front takenBehind * 10 ^ (left.length + leftBehind.length) ∧
      withDigits front takenBehind * 10 ^ (left.length + leftBehind.length) ≤
        (front + 1) * (10 ^ takenBehind.length * 10 ^ (left.length + leftBehind.length)) := by
    rw [← Nat.mul_assoc, ← Nat.mul_assoc]
    exact ⟨Nat.mul_le_mul_right _ leastBehind, Nat.mul_le_mul_right _ (Nat.le_of_lt mostBehind)⟩
  exact between_within (long_of_full some digits full) word ⟨least, Nat.le_of_lt most⟩

/-- Digits are taken into a word before the point and behind it. Those that are left on either side
hardly matter. -/
theorem dropped_within {taken left takenBehind leftBehind : List UInt8}
    (all : ∀ byte ∈ left ++ (takenBehind ++ leftBehind), isDigit byte = true)
    (full : ∀ digit ∈ left.head?, wordBound ≤ withDigits 0 taken * 10 + digitValue digit)
    (fullBehind : ∀ digit ∈ leftBehind.head?,
      wordBound ≤ withDigits (withDigits 0 taken) takenBehind * 10 + digitValue digit) :
    Within droppingFactor
      (withDigits (withDigits 0 taken) takenBehind * 10 ^ (left.length + leftBehind.length) : ℕ)
      (digitsValue (taken ++ left ++ (takenBehind ++ leftBehind)) : ℕ) := by
  have value : digitsValue (taken ++ left ++ (takenBehind ++ leftBehind)) =
      withDigits (withDigits 0 taken) (left ++ (takenBehind ++ leftBehind)) := by
    rw [List.append_assoc]
    exact with_digits_append 0 taken _
  rw [value]
  by_cases whole : left = []
  · subst whole
    rw [List.nil_append, List.forall_mem_append] at all
    rw [List.nil_append, List.length_nil, Nat.zero_add]
    exact dropped_behind_within all.2 fullBehind
  · exact dropped_around_within whole all full

/-! ### Overflow -/

/-- The bound, in powers that are small enough to be worked out. -/
theorem double_bound_eq : (doubleBound : ℚ) = (2 ^ 256) ^ 4 := by
  have natural : doubleBound = (2 ^ 256) ^ 4 := by decide +kernel
  rw [natural]
  norm_num

theorem double_bound_lt : (doubleBound : ℚ) < 10 ^ (309 : ℤ) := by
  have power : (10 : ℚ) ^ (309 : ℤ) = (10 ^ 103) ^ 3 := by
    rw [← pow_mul]
    rfl
  rw [power, double_bound_eq]
  norm_num

theorem word_bound_le : (wordBound : ℚ) ≤ roundingFactor ^ 3 * doubleBound := by
  have word : (wordBound : ℚ) = 2 ^ 64 := by
    have natural : wordBound = 2 ^ 64 := rfl
    rw [natural]
    norm_num
  rw [word, double_bound_eq, roundingFactor]
  norm_num

namespace Scaled

variable {number : Scaled}

def value (number : Scaled) : ℚ := number.significand * 10 ^ number.exponent

theorem rounded_within (significand exponent : Nat) :
    Within (roundingFactor ^ 3)
      (roundToDouble (roundToDouble significand * roundToDouble (Nat.pow 10 exponent)) : ℕ)
      (value ⟨significand, exponent⟩) := by
  have near := rounded_product_within significand (Nat.pow 10 exponent)
  rw [value, zpow_natCast]
  rwa [Nat.pow_eq, Nat.cast_pow] at near

theorem le_value (overflows : number.overflows = true) :
    doubleBound ≤ roundingFactor ^ 3 * number.value := by
  obtain ⟨significand, exponent⟩ := number
  rw [Scaled.overflows] at overflows
  split at overflows
  · cases overflows
  · next some =>
      simp only [not_or, not_lt] at some
      obtain ⟨positive, least⟩ := some
      obtain ⟨exponent, rfl⟩ := Int.eq_ofNat_of_zero_le least
      split at overflows
      · next large =>
          change 308 < (exponent : Int) at large
          have one : (1 : ℚ) ≤ significand := by exact_mod_cast Nat.one_le_iff_ne_zero.mpr positive
          have power : (10 : ℚ) ^ (309 : ℤ) ≤ 10 ^ (exponent : ℤ) :=
            zpow_le_zpow_right₀ (by norm_num) (by omega)
          have factor : (1 : ℚ) ≤ roundingFactor ^ 3 :=
            one_le_pow₀ (by rw [roundingFactor]; norm_num)
          calc (doubleBound : ℚ) ≤ 10 ^ (309 : ℤ) := double_bound_lt.le
            _ ≤ 10 ^ (exponent : ℤ) := power
            _ ≤ significand * 10 ^ (exponent : ℤ) :=
              le_mul_of_one_le_left (zpow_nonneg (by norm_num) _) one
            _ ≤ roundingFactor ^ 3 * (significand * 10 ^ (exponent : ℤ)) :=
              le_mul_of_one_le_left
                (mul_nonneg significand.cast_nonneg (zpow_nonneg (by norm_num) _)) factor
      · have rounded := of_decide_eq_true overflows
        have rounded : (doubleBound : ℚ) ≤ _ := Nat.cast_le.mpr rounded
        exact rounded.trans (rounded_within significand exponent).1

theorem value_lt (word : number.significand < wordBound) (fits : number.overflows = false) :
    number.value < roundingFactor ^ 3 * doubleBound := by
  obtain ⟨significand, exponent⟩ := number
  have factor : 0 < roundingFactor ^ 3 := pow_pos rounding_factor_pos 3
  by_cases small : exponent < 0
  · have power : (10 : ℚ) ^ exponent ≤ 1 := zpow_le_one_of_nonpos₀ (by norm_num) small.le
    have bound : (significand : ℚ) < wordBound := Nat.cast_lt.mpr word
    calc (significand : ℚ) * 10 ^ exponent
      _ ≤ significand := mul_le_of_le_one_right significand.cast_nonneg power
      _ < wordBound := bound
      _ ≤ roundingFactor ^ 3 * doubleBound := word_bound_le
  · obtain ⟨exponent, rfl⟩ := Int.eq_ofNat_of_zero_le (Int.not_lt.mp small)
    rw [overflows] at fits
    split at fits
    · next zero =>
        have none : significand = 0 := zero.resolve_right small
        rw [none, value, Nat.cast_zero, zero_mul]
        exact mul_pos factor (by rw [double_bound_eq]; norm_num)
    · split at fits
      · cases fits
      · have rounded := lt_of_not_ge (of_decide_eq_false fits)
        have rounded : _ < (doubleBound : ℚ) := Nat.cast_lt.mpr rounded
        exact (rounded_within significand exponent).2.trans_lt (mul_lt_mul_of_pos_left rounded factor)

end Scaled

/-! ### Numbers as written -/

/-- Below it no number is too large. Its first fifteen digits are those of the largest double. -/
def finiteBound : ℚ := 179769313486231 * 10 ^ 294

/-- From it on all numbers are too large. -/
def infiniteBound : ℚ := 179769313486232 * 10 ^ 294

theorem bound_power : (10 : ℚ) ^ 294 = (10 ^ 147) ^ 2 := by rw [← pow_mul]

theorem finite_bound_lt : roundingFactor ^ 3 * (droppingFactor * finiteBound) < doubleBound := by
  rw [finiteBound, bound_power, double_bound_eq]
  norm_num [roundingFactor, droppingFactor]

theorem lt_infinite_bound : droppingFactor * (roundingFactor ^ 3 * doubleBound) < infiniteBound := by
  rw [infiniteBound, bound_power, double_bound_eq]
  norm_num [roundingFactor, droppingFactor]

namespace NumberText

/-- The number that a text stands for, without its sign. -/
def magnitude (number : NumberText) : ℚ :=
  digitsValue (number.whole ++ number.decimals.getD []) *
    10 ^ ((number.exponent.map ExponentText.value).getD 0 - (number.decimals.getD []).length : ℤ)

variable {number : NumberText} (written : number.WellFormed)
include written

theorem scaled_within : number.numeral.scaled.significand < wordBound ∧
    Within droppingFactor number.numeral.scaled.value number.magnitude := by
  obtain ⟨taken, left, whole, run, word, full⟩ :=
    take_into_word_split (by decide : 0 < wordBound) number.whole
  obtain ⟨takenBehind, leftBehind, decimals, runBehind, wordBehind, fullBehind⟩ :=
    take_into_word_split word (number.decimals.getD [])
  have digits : ∀ byte ∈ number.whole, isDigit byte = true := written.whole.all
  have digitsBehind : ∀ byte ∈ number.decimals.getD [], isDigit byte = true := by
    cases stated : number.decimals with
    | none => exact List.forall_mem_nil _
    | some own => exact (written.decimals own stated).all
  have scaled : number.numeral.scaled = ⟨withDigits (withDigits 0 taken) takenBehind,
      (number.whole.length - taken.length : Int) - takenBehind.length +
        (number.exponent.map ExponentText.value).getD 0⟩ := by
    simp only [Numeral.scaled, numeral, run, runBehind]
  rw [scaled, Scaled.value, magnitude]
  refine ⟨wordBehind, ?_⟩
  generalize (number.exponent.map ExponentText.value).getD 0 = exponent
  rw [whole] at digits ⊢
  rw [decimals] at digitsBehind ⊢
  have all : ∀ byte ∈ left ++ (takenBehind ++ leftBehind), isDigit byte = true :=
    List.forall_mem_append.mpr ⟨(List.forall_mem_append.mp digits).2, digitsBehind⟩
  have unit : (10 : ℚ) ^ (((taken ++ left).length - taken.length : Int) - takenBehind.length +
        exponent) =
      (10 ^ (left.length + leftBehind.length) : ℕ) *
        10 ^ (exponent - (takenBehind ++ leftBehind).length) := by
    rw [Nat.cast_pow, Nat.cast_ofNat, ← zpow_natCast, ← zpow_add₀ (by norm_num)]
    congr 1
    simp only [List.length_append]
    omega
  rw [unit, ← mul_assoc, ← Nat.cast_mul]
  exact (dropped_within all full fullBehind).mul_right (zpow_nonneg (by norm_num) _)

theorem fits_of_small (small : number.magnitude < finiteBound) :
    number.numeral.overflows = false := by
  apply eq_false_of_ne_true
  intro overflows
  have factor : 0 < roundingFactor ^ 3 := pow_pos rounding_factor_pos 3
  have beyond : (doubleBound : ℚ) < doubleBound := calc
    (doubleBound : ℚ) ≤ roundingFactor ^ 3 * number.numeral.scaled.value :=
      Scaled.le_value overflows
    _ ≤ roundingFactor ^ 3 * (droppingFactor * number.magnitude) :=
      mul_le_mul_of_nonneg_left (scaled_within written).2.1 factor.le
    _ < roundingFactor ^ 3 * (droppingFactor * finiteBound) :=
      mul_lt_mul_of_pos_left (mul_lt_mul_of_pos_left small dropping_factor_pos) factor
    _ < doubleBound := finite_bound_lt
  exact lt_irrefl _ beyond

theorem overflows_of_large (large : infiniteBound ≤ number.magnitude) :
    number.numeral.overflows = true := by
  apply eq_true_of_ne_false
  intro fits
  obtain ⟨word, near⟩ := scaled_within written
  have within : infiniteBound < infiniteBound := calc
    infiniteBound ≤ number.magnitude := large
    _ ≤ droppingFactor * number.numeral.scaled.value := near.2
    _ < droppingFactor * (roundingFactor ^ 3 * doubleBound) :=
      mul_lt_mul_of_pos_left (Scaled.value_lt word fits) dropping_factor_pos
    _ < infiniteBound := lt_infinite_bound
  exact lt_irrefl _ within

end NumberText

/-! ### Natural numbers -/

theorem natural_fits {value : Nat} (word : value < UInt64.size) :
    (NumberText.natural value).numeral.overflows = false := by
  apply NumberText.fits_of_small (natural_well_formed value)
  have magnitude : (NumberText.natural value).magnitude = value := by
    simp [NumberText.magnitude, NumberText.natural, natural_value]
  have size : UInt64.size = 2 ^ 64 := rfl
  have below : (value : ℚ) < 2 ^ 64 := by
    rw [size] at word
    exact_mod_cast word
  rw [magnitude]
  apply below.trans
  rw [finiteBound, bound_power]
  norm_num

/-- A word is read back from its digits. -/
theorem read_natural {value : Nat} (word : value < UInt64.size) {text : List UInt8}
    (stops : NoNumber text) :
    readNumber (textBytes (toString value) ++ text) =
      .ok ((NumberText.natural value).numeral, text) ∧
      (NumberText.natural value).numeral.natural? = some value := by
  constructor
  · have read := read_numeral (natural_well_formed value) stops
    have bytes : (NumberText.natural value).bytes = textBytes (toString value) := by
      rw [NumberText.bytes]
      exact List.append_nil _
    rw [bytes] at read
    rw [readNumber, read]
    change (if (NumberText.natural value).numeral.overflows = true then _ else _) = _
    rw [natural_fits word]
    rfl
  · rw [Numeral.natural?]
    exact congrArg some (natural_value value)

end Composer.Json
