import Composer.Proofs.Json.Magnitude
import Composer.Proofs.Json.Objects

/-!
Values, as they are written and read. A reader of one kind takes a value of this kind, and refuses
any other value. Of an array or an object only the bracket in front is read for that; a number or a
string is read in whole, and one that cannot be read is refused as malformed.
-/

namespace Composer.Json

/-- A value as it is written. Inside the brackets of an array or an object anything may stand. -/
inductive ValueText
  | null
  | true
  | false
  | number (number : NumberText) (written : number.WellFormed)
  | string (pieces : List Piece)
  | array (inside : String)
  | object (inside : String)

namespace ValueText

def text : ValueText → String
  | null => "null"
  | true => "true"
  | false => "false"
  | number own _ => asciiText own.bytes
  | string pieces => "\"" ++ piecesText pieces ++ "\""
  | array inside => "[" ++ inside
  | object inside => "\x7b" ++ inside

/-- The value can be held: a number is below the largest double, and a string has no half of a
character. -/
def Representable : ValueText → Prop
  | number own _ => own.magnitude < finiteBound
  | string pieces => decode? pieces ≠ none
  | _ => True

/-- The value cannot be held: a number is beyond the largest double, or a string has half of a
character. -/
def Unrepresentable : ValueText → Prop
  | number own _ => infiniteBound ≤ own.magnitude
  | string pieces => decode? pieces = none
  | _ => False

def refusal : ValueText → ReadError
  | number own _ => if own.numeral.overflows then .malformed else .mismatched
  | string pieces => if decode? pieces = none then .malformed else .mismatched
  | _ => .mismatched

variable {value : ValueText}

theorem refusal_cases (value : ValueText) :
    value.refusal = .mismatched ∨ value.refusal = .malformed := by
  cases value with
  | number own _ =>
      rw [refusal]
      split
      · exact .inr rfl
      · exact .inl rfl
  | string pieces =>
      rw [refusal]
      split
      · exact .inr rfl
      · exact .inl rfl
  | _ => exact .inl rfl

theorem refusal_of_representable (held : value.Representable) : value.refusal = .mismatched := by
  cases value with
  | number number written =>
      have fits := NumberText.fits_of_small written held
      exact if_neg (ne_true_of_eq_false fits)
  | string pieces => exact if_neg held
  | _ => rfl

theorem refusal_of_unrepresentable (beyond : value.Unrepresentable) :
    value.refusal = .malformed := by
  cases value with
  | number number written => exact if_pos (NumberText.overflows_of_large written beyond)
  | string pieces => exact if_pos beyond
  | _ => exact beyond.elim

end ValueText

/-! ### Ends of values -/

/-- Neither a blank nor what follows a value goes on with a number. -/
theorem no_number_of_ends (gap : Gap) {text : List UInt8} (ends : EndsValue text) :
    NoNumber (gap.bytes ++ text) := by
  intro byte head
  obtain ⟨blanks, blank⟩ := gap
  rw [Gap.bytes, text_bytes_eq] at head
  dsimp only at head
  cases chars : blanks.toList with
  | nil =>
      rw [chars] at head
      rcases ends with comma | brace
      · rw [List.flatMap_nil, List.nil_append, comma] at head
        cases head
        decide
      · rw [List.flatMap_nil, List.nil_append, brace] at head
        cases head
        decide
  | cons char rest =>
      rw [chars, List.all_cons, Bool.and_eq_true] at blank
      rw [chars] at head
      have own := blank.1
      simp only [isBlank, Bool.or_eq_true, decide_eq_true_eq] at own
      rcases own with ((rfl | rfl) | rfl) | rfl <;> (cases head; decide)

/-! ### Values of another kind -/

theorem Digits.ascii {digits : List UInt8} (written : Digits digits) :
    ∀ byte ∈ digits, byte.toNat < 128 := by
  intro byte member
  have digit := written.all byte member
  rw [isDigit, Bool.and_eq_true, decide_eq_true_eq, decide_eq_true_eq, UInt8.le_iff_toNat_le,
    UInt8.le_iff_toNat_le] at digit
  exact Nat.lt_of_le_of_lt digit.2 (by decide)

theorem number_bytes_ascii {number : NumberText} (written : number.WellFormed) :
    textBytes (asciiText number.bytes) = number.bytes := by
  have decimals : ∀ byte ∈ NumberText.decimalBytes number.decimals, byte.toNat < 128 := by
    cases stated : number.decimals with
    | none => exact List.forall_mem_nil _
    | some own =>
        exact List.forall_mem_cons.mpr ⟨by decide, (written.decimals own stated).ascii⟩
  have exponent : ∀ byte ∈ NumberText.exponentBytes number.exponent, byte.toNat < 128 := by
    cases stated : number.exponent with
    | none => exact List.forall_mem_nil _
    | some own =>
        have marks : (if own.capital then 0x45 else 0x65 : UInt8).toNat < 128 := by
          cases own.capital <;> decide
        refine List.forall_mem_cons.mpr ⟨marks, List.forall_mem_append.mpr ⟨?_,
          (written.exponent own stated).ascii⟩⟩
        rcases own.minus with none | minus
        · exact List.forall_mem_nil _
        · cases minus with
          | true => exact List.forall_mem_singleton.mpr (by decide)
          | false => exact List.forall_mem_singleton.mpr (by decide)
  have sign : ∀ byte ∈ (if number.negative then [0x2d] else [] : List UInt8), byte.toNat < 128 := by
    cases number.negative with
    | true => exact List.forall_mem_singleton.mpr (by decide)
    | false => exact List.forall_mem_nil _
  apply ascii_text_bytes
  rw [NumberText.bytes, List.forall_mem_append, List.forall_mem_append, List.forall_mem_append]
  exact ⟨sign, written.whole.ascii, decimals, exponent⟩

/-- A number starts with a minus or a digit. -/
theorem number_front {number : NumberText} (written : number.WellFormed) :
    ∃ first rest, number.bytes = first :: rest ∧ (first = 0x2d ∨ isDigit first = true) := by
  obtain ⟨first, rest, shape⟩ := List.exists_cons_of_ne_nil written.whole.some
  rw [NumberText.bytes, shape]
  cases number.negative with
  | true => exact ⟨_, _, rfl, .inl rfl⟩
  | false =>
      exact ⟨first, _, rfl, .inr (written.whole.all first (shape ▸ List.mem_cons_self))⟩

/-- A number in front of what is no part of it is read, unless it is too large. -/
theorem read_number {number : NumberText} (written : number.WellFormed) {text : List UInt8}
    (stops : NoNumber text) : readNumber (number.bytes ++ text) =
      if number.numeral.overflows then .error .malformed else .ok (number.numeral, text) := by
  rw [readNumber, read_numeral written stops]
  rfl

theorem string_bytes (inside : String) (text : List UInt8) :
    textBytes ("\"" ++ inside ++ "\"") ++ text = 0x22 :: (textBytes inside ++ 0x22 :: text) := by
  have mark : textBytes "\"" = [0x22] := rfl
  rw [text_bytes_append, text_bytes_append, mark, List.append_assoc, List.append_assoc]
  rfl

theorem number_front_ne {first : UInt8} (front : first = 0x2d ∨ isDigit first = true)
    {byte : UInt8} (other : byte ≠ 0x2d ∧ isDigit byte = false) : first ≠ byte := by
  rintro rfl
  rcases front with minus | digit
  · exact other.1 minus
  · rw [other.2] at digit
    cases digit

theorem skip_number {first : UInt8} (front : first = 0x2d ∨ isDigit first = true)
    (rest : List UInt8) : skipBlanks (first :: rest) = first :: rest := by
  have noSpace : first ≠ 0x20 := number_front_ne front (by decide)
  have noLine : first ≠ 0x0a := number_front_ne front (by decide)
  have noTab : first ≠ 0x09 := number_front_ne front (by decide)
  have noReturn : first ≠ 0x0d := number_front_ne front (by decide)
  rw [skipBlanks, List.dropWhile_cons_of_neg]
  simp [noSpace, noLine, noTab, noReturn]

theorem mismatch_number {first : UInt8} (front : first = 0x2d ∨ isDigit first = true)
    (rest : List UInt8) : mismatch (first :: rest) =
      match readNumber (first :: rest) with
      | .ok _ => .mismatched
      | .error problem => problem := by
  have noNull : first ≠ 0x6e := number_front_ne front (by decide)
  have noTrue : first ≠ 0x74 := number_front_ne front (by decide)
  have noFalse : first ≠ 0x66 := number_front_ne front (by decide)
  rw [mismatch, if_neg noNull, if_neg noTrue, if_neg noFalse, if_pos front]
  cases readNumber (first :: rest) <;> rfl

theorem mismatch_quoted (rest : List UInt8) : mismatch (0x22 :: rest) =
    match readQuoted rest with
    | .ok _ => .mismatched
    | .error problem => problem := by
  have noNumber : ¬((0x22 : UInt8) = 0x2d ∨ isDigit 0x22 = true) := by decide
  rw [mismatch, if_neg (by decide), if_neg (by decide), if_neg (by decide), if_neg noNumber,
    if_pos rfl]
  cases readQuoted rest <;> rfl

/-- A value is refused where one of another kind is wanted. -/
theorem mismatch_of_value (value : ValueText) {text : List UInt8} (stops : NoNumber text) :
    mismatch (textBytes value.text ++ text) = value.refusal := by
  cases value with
  | null => rfl
  | true => rfl
  | false => rfl
  | number number written =>
      have read := read_number written stops
      obtain ⟨first, rest, shape, front⟩ := number_front written
      rw [shape, List.cons_append] at read
      rw [ValueText.text, number_bytes_ascii written, shape, List.cons_append, mismatch_number front,
        read, ValueText.refusal]
      cases number.numeral.overflows <;> rfl
  | string pieces =>
      rw [ValueText.text, string_bytes, mismatch_quoted, read_pieces, ValueText.refusal]
      cases decode? pieces <;> rfl
  | array inside =>
      rw [ValueText.text, text_bytes_append, List.append_assoc]
      rfl
  | object inside =>
      rw [ValueText.text, text_bytes_append, List.append_assoc]
      rfl

/-- A value starts with no blank. -/
theorem skip_no_value (value : ValueText) (text : List UInt8) :
    skipBlanks (textBytes value.text ++ text) = textBytes value.text ++ text := by
  cases value with
  | null => rfl
  | true => rfl
  | false => rfl
  | number number written =>
      obtain ⟨first, rest, shape, front⟩ := number_front written
      rw [ValueText.text, number_bytes_ascii written, shape]
      exact skip_number front _
  | string =>
      rw [ValueText.text, string_bytes]
      rfl
  | array inside =>
      rw [ValueText.text, text_bytes_append, List.append_assoc]
      rfl
  | object inside =>
      rw [ValueText.text, text_bytes_append, List.append_assoc]
      rfl

/-! ### Readers of one kind -/

section Readers

variable (gap : Gap)

theorem read_string (string : String) (text : List UInt8) :
    readString (gap.bytes ++ (textBytes (quote string) ++ text)) = .ok (string, text) := by
  rw [readString, skip_gap, quote_bytes, List.cons_append, List.append_assoc]
  exact read_quoted string text

/-- A reader of strings takes a value or refuses it, whatever stands behind it. It takes only a value
that could also be refused as mismatched. -/
theorem read_string_of_value (value : ValueText) :
    (value.refusal = .mismatched ∧ ∃ string, ∀ text, NoNumber text →
      readString (gap.bytes ++ (textBytes value.text ++ text)) = .ok (string, text)) ∨
    ∀ text, NoNumber text →
      readString (gap.bytes ++ (textBytes value.text ++ text)) = .error value.refusal := by
  have other {first : UInt8} {rest : List UInt8} (shape : textBytes value.text = first :: rest)
      (noQuote : first ≠ 0x22) : ∀ text, NoNumber text →
      readString (gap.bytes ++ (textBytes value.text ++ text)) = .error value.refusal := by
    intro text stops
    have refused := mismatch_of_value value stops
    rw [readString, skip_gap, skip_no_value]
    rw [shape, List.cons_append] at refused ⊢
    split
    · next same => exact absurd (List.cons.inj same).1 noQuote
    · rw [refused]
  cases value with
  | null => exact .inr (other rfl (by decide))
  | true => exact .inr (other rfl (by decide))
  | false => exact .inr (other rfl (by decide))
  | number number written =>
      obtain ⟨first, rest, shape, front⟩ := number_front written
      rw [← number_bytes_ascii written] at shape
      exact .inr (other shape (number_front_ne front (by decide)))
  | string pieces =>
      have read (text : List UInt8) := read_pieces pieces text
      rw [ValueText.refusal]
      cases decoded : decode? pieces with
      | none =>
          refine .inr fun text _ => ?_
          rw [readString, skip_gap, ValueText.text, string_bytes]
          exact (read text).trans (by rw [decoded]; rfl)
      | some chars =>
          refine .inl ⟨if_neg nofun, String.ofList chars, fun text _ => ?_⟩
          rw [readString, skip_gap, ValueText.text, string_bytes]
          exact (read text).trans (by rw [decoded])
  | array inside => exact .inr (other (text_bytes_append _ _) (by decide))
  | object inside => exact .inr (other (text_bytes_append _ _) (by decide))

theorem read_natural_number (bound : Nat) {first : UInt8} {rest text : List UInt8}
    {numeral : Numeral} (front : first = 0x2d ∨ isDigit first = true)
    (read : readNumber (first :: rest) = .ok (numeral, text)) :
    readNatural bound (gap.bytes ++ first :: rest) =
      match numeral.natural? with
      | some value => if value ≤ bound then .ok (value, text) else .error .mismatched
      | none => .error .mismatched := by
  rw [readNatural, skip_gap, skip_number front]
  dsimp only
  rw [if_pos front, read]
  rfl

theorem read_natural_in_word {number : Nat} (word : number < UInt64.size) {text : List UInt8}
    (stops : NoNumber text) :
    readNatural (UInt64.size - 1) (gap.bytes ++ (textBytes (toString number) ++ text)) =
      .ok (number, text) := by
  obtain ⟨first, rest, shape⟩ := List.exists_cons_of_ne_nil (natural_digits number).some
  have digit := (natural_digits number).all first (shape ▸ List.mem_cons_self)
  obtain ⟨read, natural⟩ := read_natural word stops
  rw [naturalDigits] at shape
  rw [shape, List.cons_append] at read ⊢
  have fits : number ≤ UInt64.size - 1 := by omega
  rw [read_natural_number gap _ (.inr digit) read, natural]
  exact if_pos fits

theorem read_natural_of_number (bound : Nat) {number : NumberText} (written : number.WellFormed) :
    ((ValueText.number number written).refusal = .mismatched ∧ ∃ natural, ∀ text, NoNumber text →
      readNatural bound (gap.bytes ++ (textBytes (ValueText.number number written).text ++ text)) =
        .ok (natural, text)) ∨
    ∀ text, NoNumber text →
      readNatural bound (gap.bytes ++ (textBytes (ValueText.number number written).text ++ text)) =
        .error (ValueText.number number written).refusal := by
  have read {text : List UInt8} (stops : NoNumber text) := read_number written stops
  obtain ⟨first, rest, shape, front⟩ := number_front written
  rw [ValueText.text, number_bytes_ascii written, ValueText.refusal]
  simp only [shape, List.cons_append] at read ⊢
  cases overflows : number.numeral.overflows with
  | true =>
      simp only [overflows, if_true] at read ⊢
      refine .inr fun text stops => ?_
      rw [readNatural, skip_gap, skip_number front]
      dsimp only
      rw [if_pos front, read stops]
      rfl
  | false =>
      simp only [overflows, Bool.false_eq_true, if_false] at read ⊢
      have outcome (text : List UInt8) (stops : NoNumber text) :=
        read_natural_number gap bound front (read stops)
      cases natural : number.numeral.natural? with
      | none =>
          rw [natural] at outcome
          exact .inr outcome
      | some value =>
          rw [natural] at outcome
          by_cases fits : value ≤ bound
          · exact .inl ⟨trivial, value, fun text stops => (outcome text stops).trans (if_pos fits)⟩
          · exact .inr fun text stops => (outcome text stops).trans (if_neg fits)

/-- A reader of natural numbers takes a value or refuses it as well. -/
theorem read_natural_of_value (bound : Nat) (value : ValueText) :
    (value.refusal = .mismatched ∧ ∃ number, ∀ text, NoNumber text →
      readNatural bound (gap.bytes ++ (textBytes value.text ++ text)) = .ok (number, text)) ∨
    ∀ text, NoNumber text →
      readNatural bound (gap.bytes ++ (textBytes value.text ++ text)) = .error value.refusal := by
  have other {first : UInt8} {rest : List UInt8} (shape : textBytes value.text = first :: rest)
      (noNumber : ¬(first = 0x2d ∨ isDigit first = true)) : ∀ text, NoNumber text →
      readNatural bound (gap.bytes ++ (textBytes value.text ++ text)) = .error value.refusal := by
    intro text stops
    have refused := mismatch_of_value value stops
    rw [readNatural, skip_gap, skip_no_value]
    rw [shape, List.cons_append] at refused ⊢
    dsimp only
    rw [if_neg noNumber, refused]
  cases value with
  | null => exact .inr (other rfl (by decide))
  | true => exact .inr (other rfl (by decide))
  | false => exact .inr (other rfl (by decide))
  | number number written => exact read_natural_of_number gap bound written
  | string pieces =>
      have front := string_bytes (piecesText pieces) []
      rw [List.append_nil] at front
      exact .inr (other front (by decide))
  | array inside => exact .inr (other (text_bytes_append _ _) (by decide))
  | object inside => exact .inr (other (text_bytes_append _ _) (by decide))

end Readers

/-! ### Fields of one kind -/

section Fields

variable {State Value : Type} {fields : List (RecordField State)} {state : State}
  {field : RecordField State} (member : Member) (read : Reader Value)
  (assign : State → Value → State)

/-- A field that assigns what it reads takes what its reader takes. -/
theorem handed_read (found : fields.find? (·.name = member.key) = some field)
    (unset : field.isSet state = false)
    (reads : ∀ text, field.read state text =
      read text >>= fun (value, rest) => pure (assign state value, rest))
    (outcome : Except ReadError Value)
    (own : ∀ text, NoNumber text →
      read (member.gaps.beforeValue.bytes ++ (textBytes member.value ++ text)) =
        outcome.map fun value => (value, text)) :
    Handed fields state member (outcome.map (assign state)) := by
  refine handed_value found unset fun text ends => ?_
  rw [reads, own _ (no_number_of_ends _ ends)]
  cases outcome <;> rfl

/-- So it takes a value or refuses it, if its reader does. -/
theorem handed_read_value (found : fields.find? (·.name = member.key) = some field)
    (unset : field.isSet state = false)
    (reads : ∀ text, field.read state text =
      read text >>= fun (value, rest) => pure (assign state value, rest)) {problem : ReadError}
    (own : (problem = .mismatched ∧ ∃ value, ∀ text, NoNumber text →
        read (member.gaps.beforeValue.bytes ++ (textBytes member.value ++ text)) =
          .ok (value, text)) ∨
      ∀ text, NoNumber text →
        read (member.gaps.beforeValue.bytes ++ (textBytes member.value ++ text)) =
          .error problem) :
    Handed fields state member (.error problem) ∨
      problem = .mismatched ∧ ∃ value, Handed fields state member (.ok (assign state value)) := by
  rcases own with ⟨mismatched, value, taken⟩ | refused
  · exact .inr ⟨mismatched, value,
      handed_read member read assign found unset reads (.ok value) taken⟩
  · exact .inl (handed_read member read assign found unset reads (.error problem) refused)

end Fields

end Composer.Json
