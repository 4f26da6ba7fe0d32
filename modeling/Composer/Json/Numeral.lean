/-!
Numbers as JSON writes them, and which of them are too large. A number with a point, with an exponent
or with more digits than a word holds is taken in double precision: the leading digits that make up a
word are rounded, and so is their product with a rounded power of ten. A number is too large where
that product leaves the finite doubles. Each of the two roundings may err, so a number just below the
largest double can count as too large, and one just above it as finite. All of it is exact arithmetic
on natural numbers: a double is the natural number that it stands for.
-/

namespace Composer.Json

def digitValue (digit : UInt8) : Nat := digit.toNat - 0x30

def digitsValue (digits : List UInt8) : Nat :=
  digits.foldl (fun value digit => value * 10 + digitValue digit) 0

/-! ### Double precision -/

/-- A natural number rounded to 53 binary digits. Of two equally near candidates the one with an even
last digit is taken. -/
def roundToDouble (value : Nat) : Nat :=
  let unit := Nat.pow 2 (value.log2 + 1 - 53)
  let quotient := value / unit
  let remainder := value % unit
  if unit < 2 * remainder ∨ unit = 2 * remainder ∧ quotient % 2 = 1 then (quotient + 1) * unit
  else quotient * unit

/-- The least power of two beyond the finite doubles. A number that rounds to it or more is infinite. -/
def doubleBound : Nat := Nat.pow 2 1024

/-! ### Leading digits -/

def wordBound : Nat := UInt64.size

/-- Puts digits behind a word for as long as it stays a word. The result is the word and how many
digits it took up. -/
def takeIntoWord (word : Nat) : List UInt8 → Nat × Nat
  | [] => (word, 0)
  | digit :: rest =>
      let next := word * 10 + digitValue digit
      if wordBound ≤ next then (word, 0)
      else
        let (full, taken) := takeIntoWord next rest
        (full, taken + 1)

structure Scaled where
  significand : Nat
  exponent : Int
deriving DecidableEq, Repr

def Scaled.overflows (number : Scaled) : Bool :=
  if number.significand = 0 ∨ number.exponent < 0 then false
  else if 308 < number.exponent then true
  else
    doubleBound ≤ roundToDouble
      (roundToDouble number.significand * roundToDouble (Nat.pow 10 number.exponent.toNat))

/-! ### Numbers as written -/

structure Numeral where
  negative : Bool
  whole : List UInt8
  decimals : List UInt8
  exponent : Int
  /-- Whether a point or an exponent was written. -/
  fractional : Bool
deriving DecidableEq, Repr

namespace Numeral

/-- The leading digits as a word, scaled. Digits before the point that the word does not hold count
by their number alone, and those behind the point not at all. -/
def scaled (number : Numeral) : Scaled :=
  let (leading, taken) := takeIntoWord 0 number.whole
  let (word, takenBehind) := takeIntoWord leading number.decimals
  { significand := word
    exponent := (number.whole.length - taken : Int) - takenBehind + number.exponent }

def overflows (number : Numeral) : Bool := number.scaled.overflows

/-- The number as a natural one: no sign, no point, no exponent. -/
def natural? (number : Numeral) : Option Nat :=
  if number.negative || number.fractional then none else some (digitsValue number.whole)

end Numeral

end Composer.Json
