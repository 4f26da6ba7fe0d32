import Composer.Json.Reader
import Composer.Proofs.Source.Bytes
import Mathlib.Data.List.Basic

/-!
Numbers, as they are written and read. A number is read up to the first byte that does not go on
with it. Natural numbers are written in decimal digits.
-/

namespace Composer.Json

/-! ### Digits -/

structure Digits (digits : List UInt8) : Prop where
  some : digits ≠ []
  all : ∀ byte ∈ digits, isDigit byte = true

def NoDigit (text : List UInt8) : Prop := ∀ byte, text.head? = some byte → isDigit byte = false

theorem digits_split {digits text : List UInt8} (all : ∀ byte ∈ digits, isDigit byte = true)
    (stops : NoDigit text) :
    (digits ++ text).takeWhile isDigit = digits ∧ (digits ++ text).dropWhile isDigit = text := by
  rw [List.takeWhile_append_of_pos all, List.dropWhile_append_of_pos all]
  cases text with
  | nil => exact ⟨List.append_nil _, rfl⟩
  | cons byte rest =>
      have other : isDigit byte = false := stops byte rfl
      rw [List.takeWhile_cons_of_neg (by simp [other]),
        List.dropWhile_cons_of_neg (by simp [other])]
      exact ⟨List.append_nil _, rfl⟩

theorem read_digits {digits text : List UInt8} (written : Digits digits) (stops : NoDigit text) :
    readDigits (digits ++ text) = .ok (digits, text) := by
  obtain ⟨some, all⟩ := written
  obtain ⟨first, rest, rfl⟩ := List.exists_cons_of_ne_nil some
  rw [List.forall_mem_cons] at all
  obtain ⟨taken, left⟩ := digits_split all.2 stops
  rw [List.cons_append, readDigits, if_pos all.1, taken, left]

/-! ### Numbers -/

structure ExponentText where
  capital : Bool
  /-- Whether the sign is a minus, where one is written. -/
  minus : Option Bool
  digits : List UInt8

structure NumberText where
  negative : Bool
  whole : List UInt8
  decimals : Option (List UInt8)
  exponent : Option ExponentText

namespace ExponentText

def bytes (exponent : ExponentText) : List UInt8 :=
  (if exponent.capital then 0x45 else 0x65) :: ((match exponent.minus with
    | none => []
    | some minus => [if minus then 0x2d else 0x2b]) ++ exponent.digits)

def value (exponent : ExponentText) : Int :=
  if exponent.minus = some true then -(digitsValue exponent.digits : Int)
  else digitsValue exponent.digits

end ExponentText

namespace NumberText

def decimalBytes (decimals : Option (List UInt8)) : List UInt8 :=
  match decimals with
  | none => []
  | some digits => 0x2e :: digits

def exponentBytes (exponent : Option ExponentText) : List UInt8 :=
  match exponent with
  | none => []
  | some exponent => exponent.bytes

def bytes (number : NumberText) : List UInt8 :=
  (if number.negative then [0x2d] else []) ++
    (number.whole ++ (decimalBytes number.decimals ++ exponentBytes number.exponent))

def numeral (number : NumberText) : Numeral :=
  { negative := number.negative
    whole := number.whole
    decimals := number.decimals.getD []
    exponent := (number.exponent.map ExponentText.value).getD 0
    fractional := number.decimals.isSome || number.exponent.isSome }

structure WellFormed (number : NumberText) : Prop where
  whole : Digits number.whole
  no_zero : number.whole.head? = some 0x30 → number.whole = [0x30]
  decimals : ∀ digits, number.decimals = some digits → Digits digits
  exponent : ∀ exponent, number.exponent = some exponent → Digits exponent.digits

end NumberText

def NoNumber (text : List UInt8) : Prop :=
  ∀ byte, text.head? = some byte → isDigit byte = false ∧ byte ∉ [0x2e, 0x65, 0x45]

theorem NoNumber.no_digit {text : List UInt8} (stops : NoNumber text) : NoDigit text :=
  fun byte head => (stops byte head).1

theorem read_integer_part {whole text : List UInt8} (written : Digits whole)
    (noZero : whole.head? = some 0x30 → whole = [0x30]) (stops : NoDigit text) :
    readIntegerPart (whole ++ text) = .ok (whole, text) := by
  obtain ⟨first, rest, rfl⟩ := List.exists_cons_of_ne_nil written.some
  by_cases zero : first = 0x30
  · rw [zero] at noZero ⊢
    cases noZero rfl
    cases text with
    | nil => rfl
    | cons byte others =>
        have other : isDigit byte = false := stops byte rfl
        change (if isDigit byte = true then _ else _) = _
        rw [other]
        rfl
  · rw [List.cons_append, readIntegerPart.eq_def]
    dsimp only
    rw [if_neg zero, ← List.cons_append]
    exact read_digits written stops

theorem read_decimals {decimals : Option (List UInt8)} {text : List UInt8}
    (written : ∀ digits, decimals = some digits → Digits digits) (stops : NoDigit text)
    (noPoint : text.head? ≠ some 0x2e) :
    readDecimals (NumberText.decimalBytes decimals ++ text) = .ok (decimals, text) := by
  cases decimals with
  | none =>
      cases text with
      | nil => rfl
      | cons byte rest =>
          have other : byte ≠ 0x2e := fun same => noPoint (by rw [same]; rfl)
          exact if_neg other
  | some digits =>
      change readDecimals (0x2e :: (digits ++ text)) = _
      rw [readDecimals, if_pos rfl, read_digits (written digits rfl) stops]
      rfl

theorem read_signed_digits {exponent : ExponentText} {text : List UInt8}
    (written : Digits exponent.digits) (stops : NoDigit text) :
    readSignedDigits (exponent.bytes.tail ++ text) = .ok (exponent.value, text) := by
  obtain ⟨capital, minus, digits⟩ := exponent
  have read := read_digits written stops
  match minus with
  | none =>
      obtain ⟨first, rest, rfl⟩ := List.exists_cons_of_ne_nil written.some
      have digit : isDigit first = true := written.all first List.mem_cons_self
      have noMinus : first ≠ 0x2d := by
        rintro rfl
        cases digit
      have noPlus : first ≠ 0x2b := by
        rintro rfl
        cases digit
      change readSignedDigits (first :: (rest ++ text)) = _
      rw [readSignedDigits, if_neg noMinus, if_neg noPlus, ← List.cons_append, read]
      rfl
  | some true =>
      change readSignedDigits (0x2d :: (digits ++ text)) = _
      rw [readSignedDigits, if_pos rfl, read]
      rfl
  | some false =>
      change readSignedDigits (0x2b :: (digits ++ text)) = _
      rw [readSignedDigits, if_neg (by decide), if_pos rfl, read]
      rfl

theorem read_exponent {exponent : Option ExponentText} {text : List UInt8}
    (written : ∀ own, exponent = some own → Digits own.digits) (stops : NoNumber text) :
    readExponent (NumberText.exponentBytes exponent ++ text) =
      .ok (exponent.map ExponentText.value, text) := by
  cases exponent with
  | none =>
      cases text with
      | nil => rfl
      | cons byte rest =>
          have other := (stops byte rfl).2
          have noLetter : ¬(byte = 0x65 ∨ byte = 0x45) := by
            simp only [List.mem_cons, not_or] at other ⊢
            exact ⟨other.2.1, other.2.2.1⟩
          exact if_neg noLetter
  | some exponent =>
      have letter : (if exponent.capital then 0x45 else 0x65 : UInt8) = 0x65 ∨
          (if exponent.capital then 0x45 else 0x65 : UInt8) = 0x45 := by
        cases exponent.capital <;> decide
      have read := read_signed_digits (written exponent rfl) stops.no_digit
      change readExponent (_ :: (exponent.bytes.tail ++ text)) = _
      rw [readExponent, if_pos letter, read]
      rfl

theorem no_digit_of_exponent (exponent : Option ExponentText) {text : List UInt8}
    (stops : NoNumber text) : NoDigit (NumberText.exponentBytes exponent ++ text) ∧
      (NumberText.exponentBytes exponent ++ text).head? ≠ some 0x2e := by
  cases exponent with
  | none =>
      refine ⟨stops.no_digit, fun point => ?_⟩
      exact (stops 0x2e point).2 List.mem_cons_self
  | some exponent =>
      obtain ⟨capital, minus, digits⟩ := exponent
      cases capital with
      | false => exact ⟨fun byte head => by cases head; rfl, by simp [NumberText.exponentBytes,
          ExponentText.bytes]⟩
      | true => exact ⟨fun byte head => by cases head; rfl, by simp [NumberText.exponentBytes,
          ExponentText.bytes]⟩

/-- A number is read in whole where nothing behind it goes on with it. -/
theorem read_numeral {number : NumberText} (written : number.WellFormed) {text : List UInt8}
    (stops : NoNumber text) : readNumeral (number.bytes ++ text) = .ok (number.numeral, text) := by
  obtain ⟨noDigit, noPoint⟩ := no_digit_of_exponent number.exponent stops
  have behindWhole : NoDigit (NumberText.decimalBytes number.decimals ++
      (NumberText.exponentBytes number.exponent ++ text)) := by
    cases number.decimals with
    | none => exact noDigit
    | some digits => exact fun byte head => by cases head; rfl
  have whole := read_integer_part written.whole written.no_zero behindWhole
  have decimals := read_decimals written.decimals noDigit noPoint
  have exponent := read_exponent written.exponent stops
  have step {First Second : Type} {result : First} {next : First → Except ReadError Second} :
      (Except.ok result >>= next : Except ReadError Second) = next result := rfl
  rw [NumberText.bytes, List.append_assoc, List.append_assoc, List.append_assoc, NumberText.numeral]
  cases number.negative with
  | true =>
      change readNumeral (0x2d :: (number.whole ++ _)) = _
      simp only [readNumeral, if_true, whole, step, decimals, exponent, Option.isSome_map]
      rfl
  | false =>
      obtain ⟨first, rest, shape⟩ := List.exists_cons_of_ne_nil written.whole.some
      have digit : isDigit first = true := written.whole.all first (shape ▸ List.mem_cons_self)
      have noMinus : first ≠ 0x2d := by
        rintro rfl
        cases digit
      rw [shape] at whole ⊢
      change readNumeral (first :: (rest ++ _)) = _
      rw [List.cons_append] at whole
      simp only [readNumeral, if_neg noMinus, whole, step, decimals, exponent, Option.isSome_map]
      rfl

/-! ### Natural numbers -/

def naturalDigits (value : Nat) : List UInt8 := textBytes (toString value)

def NumberText.natural (value : Nat) : NumberText :=
  { negative := false, whole := naturalDigits value, decimals := none, exponent := none }

def digitByte (char : Char) : UInt8 := .ofNat char.toNat

theorem digit_range {char : Char} (digit : char.isDigit = true) :
    48 ≤ char.toNat ∧ char.toNat ≤ 57 := by
  simp only [Char.isDigit, Bool.and_eq_true, decide_eq_true_eq, ge_iff_le,
    UInt32.le_iff_toNat_le] at digit
  exact digit

theorem digit_byte {char : Char} (digit : char.isDigit = true) :
    isDigit (digitByte char) = true ∧ digitValue (digitByte char) = char.toNat - '0'.toNat := by
  have range := digit_range digit
  have number : (digitByte char).toNat = char.toNat := by
    rw [digitByte, UInt8.toNat_ofNat', Nat.mod_eq_of_lt (by omega)]
  constructor
  · rw [isDigit, Bool.and_eq_true, decide_eq_true_eq, decide_eq_true_eq, UInt8.le_iff_toNat_le,
      UInt8.le_iff_toNat_le, number]
    exact range
  · rw [digitValue, number]
    rfl

theorem natural_digits_eq (value : Nat) :
    naturalDigits value = (Nat.toDigits 10 value).map digitByte := by
  rw [naturalDigits, Nat.toString_eq_ofList_toDigits, text_bytes_of_list, List.map_eq_flatMap]
  apply List.flatMap_congr
  intro char member
  have range := digit_range (Nat.isDigit_of_mem_toDigits (by decide) (by decide) member)
  exact encode_ascii (by omega)

theorem natural_digits (value : Nat) : Digits (naturalDigits value) := by
  rw [natural_digits_eq]
  constructor
  · rw [ne_eq, List.map_eq_nil_iff]
    exact Nat.toDigits_ne_nil
  · rw [List.forall_mem_map]
    intro char member
    exact (digit_byte (Nat.isDigit_of_mem_toDigits (by decide) (by decide) member)).1

theorem head_of_positive {value : Nat} (positive : 0 < value) :
    ∃ first rest, Nat.toDigits 10 value = first :: rest ∧ first ≠ '0' ∧ first.isDigit = true := by
  induction value using Nat.base_induction 10 (by decide) with
  | single digit small =>
      have all : ∀ digit : Fin 10, 0 < digit.val →
          Nat.digitChar digit ≠ '0' ∧ (Nat.digitChar digit).isDigit = true := by
        decide
      exact ⟨_, [], Nat.toDigits_of_lt_base small, all ⟨digit, small⟩ positive⟩
  | digit front last small some ih =>
      obtain ⟨first, rest, shape, other⟩ := ih some
      refine ⟨first, rest ++ Nat.toDigits 10 last, ?_, other⟩
      rw [← Nat.toDigits_append_toDigits (by decide) some small, shape, List.cons_append]

/-- Only zero starts with the digit zero. -/
theorem natural_no_zero (value : Nat) :
    (naturalDigits value).head? = some 0x30 → naturalDigits value = [0x30] := by
  rcases Nat.eq_zero_or_pos value with rfl | positive
  · exact fun _ => rfl
  · obtain ⟨first, rest, shape, other, digit⟩ := head_of_positive positive
    intro zero
    rw [natural_digits_eq, shape, List.map_cons] at zero
    have same := congrArg digitValue (Option.some.inj zero)
    rw [(digit_byte digit).2] at same
    have range := digit_range digit
    have number : '0'.toNat = 48 := rfl
    have value : digitValue 0x30 = 0 := rfl
    rw [number, value] at same
    have code : first.toNat = '0'.toNat := by omega
    exact absurd (Char.toNat_inj.mp code) other

theorem natural_value (value : Nat) : digitsValue (naturalDigits value) = value := by
  have folded (chars : List Char) (digits : ∀ char ∈ chars, char.isDigit = true) (start : Nat) :
      (chars.map digitByte).foldl (fun value digit => value * 10 + digitValue digit) start =
        Nat.ofDigitChars 10 chars start := by
    induction chars generalizing start with
    | nil => rfl
    | cons char rest ih =>
        rw [List.forall_mem_cons] at digits
        rw [List.map_cons, List.foldl_cons, ih digits.2, Nat.ofDigitChars_cons,
          (digit_byte digits.1).2, Nat.mul_comm]
  rw [natural_digits_eq, digitsValue, folded, Nat.ofDigitChars_ten_toDigits]
  exact fun char member => Nat.isDigit_of_mem_toDigits (by decide) (by decide) member

theorem natural_well_formed (value : Nat) : (NumberText.natural value).WellFormed where
  whole := natural_digits value
  no_zero := natural_no_zero value
  decimals := nofun
  exponent := nofun

end Composer.Json
