import Composer.Json.Reader
import Composer.Json.Value
import Composer.Proofs.Source.Bytes

/-!
Blanks and strings, as they are written and read. Blanks are skipped as one stretch, up to the first
byte that is none. A string is written in pieces, each a character or an escape, and read as the
characters that its pieces stand for; where a piece is half of a character without the other half, it
is not read at all. A string that was quoted is read back.
-/

namespace Composer.Json

/-! ### Blanks -/

def isBlank (char : Char) : Bool := char = ' ' || char = '\n' || char = '\t' || char = '\r'

structure Gap where
  text : String
  blank : text.toList.all isBlank = true

def Gap.none : Gap := ⟨"", rfl⟩

def Gap.bytes (gap : Gap) : List UInt8 := textBytes gap.text

theorem skip_blank {char : Char} (blank : isBlank char = true) (text : List UInt8) :
    skipBlanks (String.utf8EncodeChar char ++ text) = skipBlanks text := by
  simp only [isBlank, Bool.or_eq_true, decide_eq_true_eq] at blank
  rcases blank with ((rfl | rfl) | rfl) | rfl <;> rfl

theorem skip_gap (gap : Gap) (text : List UInt8) :
    skipBlanks (gap.bytes ++ text) = skipBlanks text := by
  obtain ⟨blanks, blank⟩ := gap
  rw [Gap.bytes, text_bytes_eq]
  dsimp only
  generalize blanks.toList = chars at blank ⊢
  induction chars with
  | nil => rfl
  | cons char rest ih =>
      rw [List.all_cons, Bool.and_eq_true] at blank
      rw [List.flatMap_cons, List.append_assoc, skip_blank blank.1]
      exact ih blank.2

/-! ### Pieces of strings -/

structure HexDigit where
  value : Fin 16
  capital : Bool

def HexDigit.char (digit : HexDigit) : Char :=
  if digit.capital then (Nat.digitChar digit.value).toUpper else Nat.digitChar digit.value

/-- The letters of the short escapes, and the characters that they stand for. -/
def escapeLetters : List (Char × Char) :=
  [('"', '"'), ('\\', '\\'), ('/', '/'), ('b', '\x08'), ('f', '\x0c'), ('n', '\n'), ('r', '\r'),
    ('t', '\t')]

/-- A character of a string as it is written, or half of one. -/
inductive Piece
  | plain (char : Char) (free : char ≠ '"' ∧ char ≠ '\\' ∧ 0x20 ≤ char.toNat)
  | short (letter stands : Char) (known : (letter, stands) ∈ escapeLetters)
  | unicode (first second third fourth : HexDigit)

namespace Piece

def chars : Piece → List Char
  | plain char _ => [char]
  | short letter _ _ => ['\\', letter]
  | unicode first second third fourth =>
      ['\\', 'u', first.char, second.char, third.char, fourth.char]

def code : Piece → Nat
  | plain char _ => char.toNat
  | short _ stands _ => stands.toNat
  | unicode first second third fourth =>
      ((first.value * 16 + second.value) * 16 + third.value) * 16 + fourth.value

def IsHigh (piece : Piece) : Prop := 0xd800 ≤ piece.code ∧ piece.code ≤ 0xdbff

def IsLow (piece : Piece) : Prop := 0xdc00 ≤ piece.code ∧ piece.code ≤ 0xdfff

instance (piece : Piece) : Decidable piece.IsHigh := inferInstanceAs (Decidable (_ ∧ _))

instance (piece : Piece) : Decidable piece.IsLow := inferInstanceAs (Decidable (_ ∧ _))

def pairCode (high low : Piece) : Nat := (high.code - 0xd800) * 0x400 + (low.code - 0xdc00) + 0x10000

end Piece

/-- The characters that pieces stand for. There are none if a piece is half of a character and the
other half is not next to it. -/
def decode? : List Piece → Option (List Char)
  | [] => some []
  | [piece] => if piece.IsHigh ∨ piece.IsLow then none else some [Char.ofNat piece.code]
  | piece :: next :: rest =>
      if piece.IsHigh ∧ next.IsLow then
        (decode? rest).map (Char.ofNat (piece.pairCode next) :: ·)
      else if piece.IsHigh ∨ piece.IsLow then none
      else (decode? (next :: rest)).map (Char.ofNat piece.code :: ·)

theorem decode_whole {piece : Piece} (whole : ¬(piece.IsHigh ∨ piece.IsLow)) (rest : List Piece) :
    decode? (piece :: rest) = (decode? rest).map (Char.ofNat piece.code :: ·) := by
  cases rest with
  | nil => exact if_neg whole
  | cons next others =>
      have noPair : ¬(piece.IsHigh ∧ next.IsLow) := fun pair => whole (.inl pair.1)
      rw [decode?, if_neg noPair, if_neg whole]

def piecesText (pieces : List Piece) : String := String.ofList (pieces.flatMap Piece.chars)

/-! ### What pieces are read as -/

/-- What is left of a string is read with this outcome, whatever fuel is left. -/
def Reads (text : List UInt8) (outcome : Except ReadError (List UInt8 × List UInt8)) : Prop :=
  ∀ fuel, text.length < fuel → readStringBytes readUnicode fuel text = outcome

def behindBytes (bytes : List UInt8) (outcome : Except ReadError (List UInt8 × List UInt8)) :
    Except ReadError (List UInt8 × List UInt8) :=
  outcome.map fun (later, rest) => (bytes ++ later, rest)

section Rounds

variable {tail : List UInt8} {outcome : Except ReadError (List UInt8 × List UInt8)}

theorem reads_close (rest : List UInt8) : Reads (0x22 :: rest) (.ok ([], rest)) := by
  intro fuel enough
  obtain ⟨fuel, rfl⟩ := Nat.exists_eq_succ_of_ne_zero (Nat.ne_zero_of_lt enough)
  rw [readStringBytes.eq_def]
  exact if_pos rfl

theorem Reads.byte (behind : Reads tail outcome) {byte : UInt8}
    (free : byte ≠ 0x22 ∧ byte ≠ 0x5c ∧ ¬byte < 0x20) :
    Reads (byte :: tail) (behindBytes [byte] outcome) := by
  intro fuel enough
  obtain ⟨fuel, rfl⟩ := Nat.exists_eq_succ_of_ne_zero (Nat.ne_zero_of_lt enough)
  rw [readStringBytes.eq_def]
  dsimp only
  rw [if_neg free.1, if_neg free.2.1, if_neg free.2.2, behind fuel (Nat.lt_of_succ_lt_succ enough)]
  cases outcome <;> rfl

/-- Bytes that end nothing and escape nothing stand for themselves. -/
theorem Reads.plain (behind : Reads tail outcome) {bytes : List UInt8}
    (free : ∀ byte ∈ bytes, byte ≠ 0x22 ∧ byte ≠ 0x5c ∧ ¬byte < 0x20) :
    Reads (bytes ++ tail) (behindBytes bytes outcome) := by
  induction bytes with
  | nil => cases outcome <;> exact behind
  | cons byte others ih =>
      rw [List.forall_mem_cons] at free
      have own := (ih free.2).byte free.1
      cases outcome <;> exact own

theorem Reads.letter (behind : Reads tail outcome) {letter byte : UInt8} (other : letter ≠ 0x75)
    (escaped : escapedByte? letter = some byte) :
    Reads (0x5c :: letter :: tail) (behindBytes [byte] outcome) := by
  have noQuote : (0x5c : UInt8) ≠ 0x22 := by decide
  intro fuel enough
  obtain ⟨fuel, rfl⟩ := Nat.exists_eq_succ_of_ne_zero (Nat.ne_zero_of_lt enough)
  rw [readStringBytes.eq_def]
  dsimp only
  rw [if_neg noQuote, if_pos rfl, if_neg other, escaped]
  rw [List.length_cons, List.length_cons] at enough
  dsimp only
  rw [behind fuel (by omega)]
  cases outcome <;> rfl

theorem Reads.unicode (behind : Reads tail outcome) {text bytes : List UInt8}
    (read : readUnicode text = .ok (bytes, tail)) (shorter : tail.length ≤ text.length) :
    Reads (0x5c :: 0x75 :: text) (behindBytes bytes outcome) := by
  have noQuote : (0x5c : UInt8) ≠ 0x22 := by decide
  intro fuel enough
  obtain ⟨fuel, rfl⟩ := Nat.exists_eq_succ_of_ne_zero (Nat.ne_zero_of_lt enough)
  rw [List.length_cons, List.length_cons] at enough
  rw [readStringBytes.eq_def]
  dsimp only
  rw [if_neg noQuote, if_pos rfl, if_pos rfl, read]
  change (readStringBytes readUnicode fuel tail >>= _) = _
  rw [behind fuel (by omega)]
  cases outcome <;> rfl

theorem reads_refused {text : List UInt8} {problem : ReadError}
    (read : readUnicode text = .error problem) : Reads (0x5c :: 0x75 :: text) (.error problem) := by
  have noQuote : (0x5c : UInt8) ≠ 0x22 := by decide
  intro fuel enough
  obtain ⟨fuel, rfl⟩ := Nat.exists_eq_succ_of_ne_zero (Nat.ne_zero_of_lt enough)
  rw [readStringBytes.eq_def]
  dsimp only
  rw [if_neg noQuote, if_pos rfl, if_pos rfl, read]
  rfl

end Rounds

/-! ### Single pieces -/

def HexDigit.byte (digit : HexDigit) : UInt8 := .ofNat digit.char.toNat

theorem hex_digit_read (digit : HexDigit) :
    hexValue? digit.byte = some digit.value.val ∧ digit.char.toNat < 128 := by
  have all : ∀ value : Fin 16, ∀ capital : Bool, hexValue? (HexDigit.byte ⟨value, capital⟩) =
      some value.val ∧ (HexDigit.char ⟨value, capital⟩).toNat < 128 := by
    decide
  exact all digit.value digit.capital

theorem escape_letter_read {letter stands : Char} (known : (letter, stands) ∈ escapeLetters) :
    letter.toNat < 128 ∧ stands.toNat < 128 ∧ UInt8.ofNat letter.toNat ≠ 0x75 ∧
      escapedByte? (.ofNat letter.toNat) = some (.ofNat stands.toNat) := by
  have all : ∀ pair ∈ escapeLetters, pair.1.toNat < 128 ∧ pair.2.toNat < 128 ∧
      UInt8.ofNat pair.1.toNat ≠ 0x75 ∧
      escapedByte? (.ofNat pair.1.toNat) = some (.ofNat pair.2.toNat) := by
    decide
  exact all _ known

theorem encode_plain {char : Char} (free : char ≠ '"' ∧ char ≠ '\\' ∧ 0x20 ≤ char.toNat) :
    ∀ byte ∈ String.utf8EncodeChar char, byte ≠ 0x22 ∧ byte ≠ 0x5c ∧ ¬byte < 0x20 := by
  intro byte member
  refine ⟨?_, ?_, ?_⟩
  · rintro rfl
    exact @ascii_not_mem_encode '"' char (by decide) free.1 member
  · rintro rfl
    exact @ascii_not_mem_encode '\\' char (by decide) free.2.1 member
  · intro small
    rw [UInt8.lt_iff_toNat_lt] at small
    change byte.toNat < 0x20 at small
    rw [ascii_mem_encode (by omega)] at member
    omega

theorem character_bytes_of_nat (code : Nat) :
    characterBytes code = String.utf8EncodeChar (Char.ofNat code) := by
  change textBytes (String.singleton (Char.ofNat code)) = _
  rw [text_bytes_eq, String.toList_singleton, List.flatMap_singleton]

namespace Piece

def bytes (piece : Piece) : List UInt8 := piece.chars.flatMap String.utf8EncodeChar

variable {tail : List UInt8}

theorem bytes_plain {char : Char} (free : char ≠ '"' ∧ char ≠ '\\' ∧ 0x20 ≤ char.toNat) :
    (plain char free).bytes = String.utf8EncodeChar char :=
  List.flatMap_singleton _ _

theorem bytes_short {letter stands : Char} (known : (letter, stands) ∈ escapeLetters) :
    (short letter stands known).bytes ++ tail = 0x5c :: .ofNat letter.toNat :: tail := by
  have ascii := (escape_letter_read known).1
  simp only [bytes, chars, List.flatMap_cons, List.flatMap_nil, encode_ascii ascii]
  rfl

theorem bytes_unicode (first second third fourth : HexDigit) :
    (unicode first second third fourth).bytes ++ tail =
      0x5c :: 0x75 :: first.byte :: second.byte :: third.byte :: fourth.byte :: tail := by
  simp only [bytes, chars, List.flatMap_cons, List.flatMap_nil, encode_ascii (hex_digit_read _).2]
  rfl

theorem read_hex (first second third fourth : HexDigit) (text : List UInt8) :
    readHex (first.byte :: second.byte :: third.byte :: fourth.byte :: text) =
      .ok ((unicode first second third fourth).code, text) := by
  rw [readHex, (hex_digit_read first).1, (hex_digit_read second).1, (hex_digit_read third).1,
    (hex_digit_read fourth).1]
  rfl

/-- No character is half of one. -/
theorem char_no_surrogate (char : Char) :
    ¬(0xd800 ≤ char.toNat ∧ char.toNat ≤ 0xdbff) ∧ ¬(0xdc00 ≤ char.toNat ∧ char.toNat ≤ 0xdfff) := by
  have valid : char.toNat < 0xd800 ∨ 0xdfff < char.toNat ∧ char.toNat < 0x110000 := char.valid
  omega

/-- A piece that is a character of its own is read as this character. -/
theorem reads_whole {piece : Piece} (whole : ¬(piece.IsHigh ∨ piece.IsLow))
    {outcome : Except ReadError (List UInt8 × List UInt8)} (behind : Reads tail outcome) :
    Reads (piece.bytes ++ tail)
      (behindBytes (String.utf8EncodeChar (Char.ofNat piece.code)) outcome) := by
  cases piece with
  | plain char free =>
      rw [bytes_plain, code, Char.ofNat_toNat]
      exact behind.plain (encode_plain free)
  | short letter stands known =>
      obtain ⟨_, ascii, other, escaped⟩ := escape_letter_read known
      rw [bytes_short, code, Char.ofNat_toNat, encode_ascii ascii]
      exact behind.letter other escaped
  | unicode first second third fourth =>
      rw [bytes_unicode]
      refine behind.unicode ?_ (by simp only [List.length_cons]; omega)
      rw [not_or] at whole
      rw [readUnicode, read_hex, ← character_bytes_of_nat]
      change (if Piece.IsLow _ then _ else if Piece.IsHigh _ then _ else _) = _
      rw [if_neg whole.2, if_neg whole.1]
      rfl

/-- Only an escape of four digits can be half of a character. -/
theorem unicode_of_half {piece : Piece} (half : piece.IsHigh ∨ piece.IsLow) :
    ∃ first second third fourth, piece = unicode first second third fourth := by
  cases piece with
  | plain char free =>
      have none := char_no_surrogate char
      exact absurd half (not_or.mpr none)
  | short letter stands known =>
      have none := char_no_surrogate stands
      exact absurd half (not_or.mpr none)
  | unicode first second third fourth => exact ⟨first, second, third, fourth, rfl⟩

/-- A second half is not read without the first one. -/
theorem reads_low {piece : Piece} (low : piece.IsLow) :
    Reads (piece.bytes ++ tail) (.error .malformed) := by
  obtain ⟨first, second, third, fourth, rfl⟩ := unicode_of_half (.inr low)
  rw [bytes_unicode]
  apply reads_refused
  rw [readUnicode, read_hex]
  exact if_pos low

theorem high_not_low {piece : Piece} (high : piece.IsHigh) : ¬piece.IsLow := by
  rw [IsHigh] at high
  rw [IsLow]
  omega

/-- A first half is read with what follows it. -/
theorem read_unicode_high {first second third fourth : HexDigit}
    (high : (unicode first second third fourth).IsHigh) :
    readUnicode (first.byte :: second.byte :: third.byte :: fourth.byte :: tail) =
      (readLowSurrogate (unicode first second third fourth).code tail).map
        fun (code, rest) => (characterBytes code, rest) := by
  rw [readUnicode, read_hex]
  change (if Piece.IsLow _ then _ else if Piece.IsHigh _ then _ else _) = _
  rw [if_neg (high_not_low high), if_pos high]
  cases readLowSurrogate (unicode first second third fourth).code tail <;> rfl

theorem reads_pair {piece next : Piece} (high : piece.IsHigh) (low : next.IsLow)
    {outcome : Except ReadError (List UInt8 × List UInt8)} (behind : Reads tail outcome) :
    Reads (piece.bytes ++ (next.bytes ++ tail))
      (behindBytes (String.utf8EncodeChar (Char.ofNat (piece.pairCode next))) outcome) := by
  obtain ⟨first, second, third, fourth, rfl⟩ := unicode_of_half (.inl high)
  obtain ⟨fifth, sixth, seventh, eighth, rfl⟩ := unicode_of_half (.inr low)
  rw [bytes_unicode, bytes_unicode]
  refine behind.unicode ?_ (by simp only [List.length_cons]; omega)
  have half (high : Nat) : readLowSurrogate high (0x5c :: 0x75 :: fifth.byte :: sixth.byte ::
      seventh.byte :: eighth.byte :: tail) =
        .ok ((high - 0xd800) * 0x400 + ((unicode fifth sixth seventh eighth).code - 0xdc00) + 0x10000,
          tail) := by
    simp only [readLowSurrogate, read_hex]
    exact if_pos low
  rw [read_unicode_high high, half, ← character_bytes_of_nat]
  rfl

/-- Behind a first half nothing else than the second one is read. -/
theorem reads_high {piece : Piece} (high : piece.IsHigh)
    (alone : ∀ code, readLowSurrogate code tail = .error .malformed) :
    Reads (piece.bytes ++ tail) (.error .malformed) := by
  obtain ⟨first, second, third, fourth, rfl⟩ := unicode_of_half (.inl high)
  rw [bytes_unicode]
  apply reads_refused
  rw [read_unicode_high high, alone]
  rfl

theorem no_low_surrogate {next : Piece} (other : ¬next.IsLow) (code : Nat) :
    readLowSurrogate code (next.bytes ++ tail) = .error .malformed := by
  cases next with
  | plain char free =>
      have plain := encode_plain free
      obtain ⟨first, rest, shape⟩ := List.exists_cons_of_ne_nil (@String.utf8EncodeChar_ne_nil char)
      rw [shape, List.forall_mem_cons] at plain
      rw [bytes_plain, shape]
      exact if_pos plain.1.2.1
  | short letter stands known =>
      have noUnicode := (escape_letter_read known).2.2.1
      rw [bytes_short]
      simp only [readLowSurrogate]
      exact if_pos noUnicode
  | unicode first second third fourth =>
      rw [bytes_unicode]
      simp only [readLowSurrogate, read_hex]
      exact if_neg other

end Piece

/-! ### Strings -/

theorem pieces_bytes_cons (piece : Piece) (rest : List Piece) :
    textBytes (piecesText (piece :: rest)) = piece.bytes ++ textBytes (piecesText rest) := by
  rw [piecesText, List.flatMap_cons, text_bytes_of_list, List.flatMap_append]
  rw [piecesText, text_bytes_of_list]
  rfl

def decodedBytes (rest : List UInt8) : Option (List Char) → Except ReadError (List UInt8 × List UInt8)
  | some chars => .ok (chars.flatMap String.utf8EncodeChar, rest)
  | none => .error .malformed

theorem behind_decoded (char : Char) (rest : List UInt8) (decoded : Option (List Char)) :
    behindBytes (String.utf8EncodeChar char) (decodedBytes rest decoded) =
      decodedBytes rest (decoded.map (char :: ·)) := by
  cases decoded <;> rfl

theorem reads_pieces (pieces : List Piece) (rest : List UInt8) :
    Reads (textBytes (piecesText pieces) ++ 0x22 :: rest) (decodedBytes rest (decode? pieces)) := by
  have whole {piece : Piece} {others : List Piece} (whole : ¬(piece.IsHigh ∨ piece.IsLow))
      (behind : Reads (textBytes (piecesText others) ++ 0x22 :: rest)
        (decodedBytes rest (decode? others))) :
      Reads (textBytes (piecesText (piece :: others)) ++ 0x22 :: rest)
        (decodedBytes rest (decode? (piece :: others))) := by
    rw [pieces_bytes_cons, List.append_assoc, decode_whole whole, ← behind_decoded]
    exact Piece.reads_whole whole behind
  induction pieces using decode?.induct with
  | case1 => exact reads_close rest
  | case2 piece half =>
      rw [pieces_bytes_cons, List.append_assoc, decode?, if_pos half]
      rcases half with high | low
      · exact Piece.reads_high high fun _ => rfl
      · exact Piece.reads_low low
  | case3 piece own => exact whole own (reads_close rest)
  | case4 piece next others pair ih =>
      rw [pieces_bytes_cons, pieces_bytes_cons, List.append_assoc, List.append_assoc, decode?,
        if_pos pair, ← behind_decoded]
      exact Piece.reads_pair pair.1 pair.2 ih
  | case5 piece next others noPair half =>
      rw [pieces_bytes_cons, pieces_bytes_cons, List.append_assoc, List.append_assoc, decode?,
        if_neg noPair, if_pos half]
      rcases half with high | low
      · exact Piece.reads_high high fun _ => Piece.no_low_surrogate (fun low => noPair ⟨high, low⟩) _
      · exact Piece.reads_low low
  | case6 piece next others _ own ih => exact whole own ih

/-- A string is read as what its pieces stand for, whatever stands behind it. -/
theorem read_pieces (pieces : List Piece) (rest : List UInt8) :
    readQuoted (textBytes (piecesText pieces) ++ 0x22 :: rest) = match decode? pieces with
      | some chars => .ok (String.ofList chars, rest)
      | none => .error .malformed := by
  have run := reads_pieces pieces rest _ (Nat.lt_succ_self _)
  rw [readQuoted, run]
  cases decode? pieces with
  | none => rfl
  | some chars =>
      dsimp only [decodedBytes, bind, Except.bind]
      rw [← text_bytes_of_list, decode_text_bytes]
      rfl

/-! ### Quoted strings -/

def lettered : List Char := ['"', '\\', '\x08', '\x0c', '\n', '\r', '\t']

/-- What is written for a character is a piece that stands for it. -/
theorem escape_piece (char : Char) :
    ∃ piece : Piece, piece.chars = escape char ∧ piece.code = char.toNat := by
  by_cases letter : char ∈ lettered
  · simp only [lettered, List.mem_cons, List.not_mem_nil, or_false] at letter
    rcases letter with rfl | rfl | rfl | rfl | rfl | rfl | rfl
    · exact ⟨.short '"' '"' (by decide), rfl, rfl⟩
    · exact ⟨.short '\\' '\\' (by decide), rfl, rfl⟩
    · exact ⟨.short 'b' '\x08' (by decide), rfl, rfl⟩
    · exact ⟨.short 'f' '\x0c' (by decide), rfl, rfl⟩
    · exact ⟨.short 'n' '\n' (by decide), rfl, rfl⟩
    · exact ⟨.short 'r' '\r' (by decide), rfl, rfl⟩
    · exact ⟨.short 't' '\t' (by decide), rfl, rfl⟩
  · simp only [lettered, List.mem_cons, List.not_mem_nil, or_false, not_or] at letter
    by_cases control : char.toNat < 0x20
    · refine ⟨.unicode ⟨0, false⟩ ⟨0, false⟩ ⟨⟨char.toNat / 16, by omega⟩, false⟩
        ⟨⟨char.toNat % 16, by omega⟩, false⟩, ?_, ?_⟩
      · simp only [escape, letter, if_false, control, if_true]
        rfl
      · change ((0 * 16 + 0) * 16 + char.toNat / 16) * 16 + char.toNat % 16 = char.toNat
        omega
    · refine ⟨.plain char ⟨letter.1, letter.2.1, Nat.le_of_not_lt control⟩, ?_, rfl⟩
      simp only [escape, letter, control, if_false]
      rfl

def escapedBytes (chars : List Char) : List UInt8 :=
  (chars.flatMap escape).flatMap String.utf8EncodeChar

theorem escape_pieces (chars : List Char) :
    ∃ pieces, piecesText pieces = String.ofList (chars.flatMap escape) ∧
      decode? pieces = some chars := by
  induction chars with
  | nil => exact ⟨[], rfl, rfl⟩
  | cons char rest ih =>
      obtain ⟨piece, written, code⟩ := escape_piece char
      obtain ⟨pieces, others, decoded⟩ := ih
      refine ⟨piece :: pieces, ?_, ?_⟩
      · rw [piecesText, List.flatMap_cons, List.flatMap_cons, written, String.ofList_append,
          String.ofList_append, ← others]
        rfl
      · have whole : ¬(piece.IsHigh ∨ piece.IsLow) := by
          rw [Piece.IsHigh, Piece.IsLow, code]
          exact not_or.mpr (Piece.char_no_surrogate char)
        rw [decode_whole whole, decoded, code, Char.ofNat_toNat]
        rfl

theorem quote_bytes (text : String) :
    textBytes (quote text) = 0x22 :: (escapedBytes text.toList ++ [0x22]) := by
  have mark : textBytes "\"" = [0x22] := rfl
  rw [quote, text_bytes_append, text_bytes_append, mark, text_bytes_of_list]
  rfl

/-- A string that was quoted is read back, whatever stands behind it. -/
theorem read_quoted (text : String) (rest : List UInt8) :
    readQuoted (escapedBytes text.toList ++ 0x22 :: rest) = .ok (text, rest) := by
  obtain ⟨pieces, written, decoded⟩ := escape_pieces text.toList
  have read := read_pieces pieces rest
  rw [decoded, written, text_bytes_of_list] at read
  dsimp only at read
  rw [String.ofList_toList] at read
  exact read

end Composer.Json
