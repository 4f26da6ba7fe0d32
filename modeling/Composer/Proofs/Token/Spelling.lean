import Composer.Proofs.Source.Bytes
import Composer.Proofs.Token.Lexing

/-!
Tokens and their spelling, both ways. What the scanner reads is spelled as the bytes that it takes.
A kind that is spelled out is read back, unless the bytes behind it go on with the same word or make
two colons of one.
-/

namespace Composer

/-! ### Words -/

/-- A letter or an underscore, then letters, digits and underscores. -/
def IsWord (text : String) : Prop :=
  ∃ first rest, text.toList = first :: rest ∧ (first.isAlpha || first = '_') = true ∧
    (rest.all fun char => char.isAlphanum || char = '_') = true

def IsIdentifier (text : String) : Prop := IsWord text ∧ ∀ keyword : Keyword, keyword.text ≠ text

instance (text : String) : Decidable (IsWord text) :=
  match chars : text.toList with
  | [] => .isFalse fun word => by
      rcases word with ⟨_, _, own, _⟩
      rw [chars] at own
      cases own
  | first :: rest =>
      decidable_of_iff ((first.isAlpha || first = '_') = true ∧
        (rest.all fun char => char.isAlphanum || char = '_') = true) <| by
          simp only [IsWord, chars, List.cons.injEq, and_assoc, exists_and_left, exists_eq_left']

instance (text : String) : Decidable (IsIdentifier text) :=
  decidable_of_iff (IsWord text ∧ ∀ keyword ∈ Keyword.all, keyword.text ≠ text) <| by
    have all : ∀ keyword : Keyword, keyword ∈ Keyword.all := by
      intro keyword
      cases keyword <;> decide
    simp [IsIdentifier, all]

theorem word_start_byte {char : Char} (start : (char.isAlpha || char = '_') = true) :
    char.toNat < 128 ∧ isWordStart (UInt8.ofNat char.toNat) = true := by
  rw [Bool.or_eq_true, decide_eq_true_eq] at start
  rcases start with letter | rfl
  · have range : (decide (char.val ≥ 'A'.val ∧ char.val ≤ 'Z'.val) ||
        char.val ≥ 'a'.val && char.val ≤ 'z'.val) = true := letter
    simp only [Bool.or_eq_true, Bool.and_eq_true, decide_eq_true_eq, ge_iff_le,
      UInt32.le_iff_toNat_le] at range
    simp only [isWordStart, Bool.or_eq_true, Bool.and_eq_true, decide_eq_true_eq,
      UInt8.le_iff_toNat_le, UInt8.toNat_ofNat', ← UInt8.toNat_inj]
    simp only [Char.toNat]
    simp at range ⊢
    omega
  · decide

theorem word_byte {char : Char} (part : (char.isAlphanum || char = '_') = true) :
    char.toNat < 128 ∧ isWordByte (UInt8.ofNat char.toNat) = true := by
  cases start : (char.isAlpha || char = '_') with
  | true =>
    rcases word_start_byte start with ⟨ascii, word⟩
    exact ⟨ascii, by rw [isWordByte, word, Bool.true_or]⟩
  | false =>
    have digit : char.isDigit = true := by
      rw [Bool.or_eq_false_iff] at start
      rw [Char.isAlphanum, start.1, start.2, Bool.false_or, Bool.or_false] at part
      exact part
    simp only [Char.isDigit, Bool.and_eq_true, decide_eq_true_eq, ge_iff_le,
      UInt32.le_iff_toNat_le] at digit
    simp only [isWordByte, Bool.or_eq_true, Bool.and_eq_true, decide_eq_true_eq,
      UInt8.le_iff_toNat_le, UInt8.toNat_ofNat']
    simp only [Char.toNat]
    simp at digit ⊢
    omega

theorem word_bytes {text : String} (word : IsWord text) :
    ∃ byte rest, textBytes text = byte :: rest ∧ isWordStart byte = true ∧
      ∀ other ∈ rest, isWordByte other = true := by
  rcases word with ⟨first, rest, chars, start, parts⟩
  rcases word_start_byte start with ⟨ascii, allowed⟩
  refine ⟨UInt8.ofNat first.toNat, rest.flatMap String.utf8EncodeChar, ?_, allowed, ?_⟩
  · rw [text_bytes_eq, chars, List.flatMap_cons, encode_ascii ascii, List.singleton_append]
  · intro byte member
    rcases List.mem_flatMap.mp member with ⟨char, among, own⟩
    rcases word_byte (List.all_eq_true.mp parts char among) with ⟨ascii, allowed⟩
    rw [encode_ascii ascii, List.mem_singleton] at own
    rw [own]
    exact allowed

theorem keyword_is_word (keyword : Keyword) : IsWord keyword.text := by
  cases keyword <;> exact ⟨_, _, rfl, by decide, by decide⟩

/-- No byte of a word is a blank or starts a comment. -/
theorem solid_of_word_byte {byte : UInt8} (word : isWordByte byte = true) :
    isBlankByte byte = false ∧ byte ≠ 0x2f := by
  constructor
  · cases blank : isBlankByte byte with
    | false => rfl
    | true =>
        simp only [isBlankByte, Bool.or_eq_true, decide_eq_true_eq] at blank
        rcases blank with ((rfl | rfl) | rfl) | rfl <;> exact absurd word (by decide)
  · intro slash
    subst slash
    exact absurd word (by decide)

theorem word_byte_of_start {byte : UInt8} (start : isWordStart byte = true) :
    isWordByte byte = true := by
  rw [isWordByte, start, Bool.true_or]

/-! ### Reading -/

namespace Lexeme

def bytes : Lexeme → List UInt8
  | token kind => textBytes kind.text
  | unexpected byte => [byte]

theorem width_eq (lexeme : Lexeme) : lexeme.width = lexeme.bytes.length := by
  cases lexeme <;> rfl

/-- A lexeme takes the bytes in front, at least one; none of them is a blank, and only the first can
be a slash. -/
structure Reads (lexeme : Lexeme) (input : List UInt8) : Prop where
  front : lexeme.bytes <+: input
  nonempty : lexeme.bytes ≠ []
  solid : ∀ byte ∈ lexeme.bytes, isBlankByte byte = false
  no_comment : ∀ byte ∈ lexeme.bytes.tail, byte ≠ 0x2f

theorem reads_word {byte : UInt8} (rest : List UInt8) (start : isWordStart byte = true) :
    (token (.ofWord (asciiText (byte :: rest.takeWhile isWordByte)))).Reads (byte :: rest) := by
  have word : ∀ other ∈ byte :: rest.takeWhile isWordByte, isWordByte other = true := by
    rw [List.forall_mem_cons]
    exact ⟨word_byte_of_start start, List.all_eq_true.mp List.all_takeWhile⟩
  have taken : (token (.ofWord (asciiText (byte :: rest.takeWhile isWordByte)))).bytes =
      byte :: rest.takeWhile isWordByte := by
    rw [bytes, text_of_word, ascii_text_bytes]
    intro other member
    exact toNat_lt_of_isWordByte (word other member)
  constructor
  · rw [taken]
    exact List.cons_prefix_cons.mpr ⟨rfl, List.takeWhile_prefix isWordByte⟩
  · rw [taken]
    exact List.cons_ne_nil _ _
  · rw [taken]
    intro other member
    exact (solid_of_word_byte (word other member)).1
  · rw [taken]
    intro other member
    exact (solid_of_word_byte (word other (List.mem_of_mem_tail member))).2

theorem reads_mark {mark : Mark} {input : List UInt8}
    (front : textBytes mark.text <+: input) : (token (.mark mark)).Reads input := by
  have solid : (textBytes mark.text).all (fun byte => !isBlankByte byte && byte ≠ 0x2f) = true := by
    cases mark <;> decide
  simp only [List.all_eq_true, Bool.and_eq_true, Bool.not_eq_true', decide_eq_true_eq] at solid
  constructor
  · exact front
  · cases mark <;> exact List.cons_ne_nil _ _
  · exact fun byte member => (solid byte member).1
  · exact fun byte member => (solid byte (List.mem_of_mem_tail member)).2

/-- The scanner reads what stands in front. -/
theorem scan_reads {byte : UInt8} {rest : List UInt8} (solid : isBlankByte byte = false) :
    (scan byte rest).Reads (byte :: rest) := by
  rcases scan_cases byte rest with ⟨start, same⟩ | ⟨mark, front, same⟩ | same
  · rw [same]
    exact reads_word rest start
  · rw [same]
    exact reads_mark front
  · rw [same]
    exact ⟨List.prefix_append [byte] rest, List.cons_ne_nil _ _,
      List.forall_mem_singleton.mpr solid, fun _ member => absurd member List.not_mem_nil⟩

end Lexeme

/-! ### Writing -/

namespace TokenKind

def Spelled : TokenKind → Prop
  | identifier name => IsIdentifier name
  | endOfFile => False
  | _ => True

def isWord : TokenKind → Bool
  | identifier _ => true
  | keyword _ => true
  | _ => false

structure EndsBefore (kind : TokenKind) (more : List UInt8) : Prop where
  word : kind.isWord = true → ∀ byte, more.head? = some byte → isWordByte byte = false
  colon : kind = .mark .colon → more.head? ≠ some 0x3a

theorem of_word_identifier {name : String} (free : ∀ keyword : Keyword, keyword.text ≠ name) :
    ofWord name = identifier name := by
  have none : Keyword.ofText? name = none := by
    rw [Keyword.ofText?, List.find?_eq_none]
    intro keyword _
    simpa using free keyword
  rw [ofWord, none]

theorem of_word_keyword (word : Keyword) : ofWord word.text = keyword word := by
  cases word <;> rfl

end TokenKind

theorem scan_word {text : String} (word : IsWord text) {more : List UInt8}
    (ends : ∀ byte, more.head? = some byte → isWordByte byte = false) :
    ∃ byte rest, textBytes text ++ more = byte :: rest ∧ isBlankByte byte = false ∧ byte ≠ 0x2f ∧
      Lexeme.scan byte rest = .token (.ofWord text) := by
  rcases word_bytes word with ⟨byte, rest, spelling, start, parts⟩
  have stops : more.takeWhile isWordByte = [] := by
    cases more with
    | nil => rfl
    | cons next others => rw [List.takeWhile_cons, ends next rfl]; rfl
  have taken : (rest ++ more).takeWhile isWordByte = rest := by
    rw [List.takeWhile_append_of_pos parts, stops, List.append_nil]
  have ascii : ∀ other ∈ byte :: rest, other.toNat < 128 := by
    rw [List.forall_mem_cons]
    exact ⟨toNat_lt_of_isWordByte (word_byte_of_start start),
      fun other member => toNat_lt_of_isWordByte (parts other member)⟩
  have same : asciiText (byte :: rest) = text := by
    apply text_bytes_inj
    rw [ascii_text_bytes _ ascii, spelling]
  rcases solid_of_word_byte (word_byte_of_start start) with ⟨solid, noSlash⟩
  refine ⟨byte, rest ++ more, ?_, solid, noSlash, ?_⟩
  · rw [spelling, List.cons_append]
  · rw [Lexeme.scan, if_pos start, taken, same]

/-- A kind that is spelled out is read back, where the bytes behind it do not go on with it. -/
theorem scan_spelled {kind : TokenKind} (spelled : kind.Spelled) {more : List UInt8}
    (ends : kind.EndsBefore more) :
    ∃ byte rest, textBytes kind.text ++ more = byte :: rest ∧ isBlankByte byte = false ∧
      byte ≠ 0x2f ∧ Lexeme.scan byte rest = .token kind := by
  cases kind with
  | identifier name =>
      rcases spelled with ⟨word, free⟩
      rw [← TokenKind.of_word_identifier free, text_of_word]
      exact scan_word word (ends.word rfl)
  | keyword word =>
      rw [← TokenKind.of_word_keyword, text_of_word]
      exact scan_word (keyword_is_word word) (ends.word rfl)
  | mark sign =>
      cases sign with
      | colon =>
          refine ⟨0x3a, more, rfl, rfl, by decide, ?_⟩
          have single : ¬more.head? = some 0x3a := ends.colon rfl
          change Lexeme.token (.mark (if more.head? = some 0x3a then .doubleColon else .colon)) = _
          rw [if_neg single]
      | doubleColon => exact ⟨0x3a, 0x3a :: more, rfl, rfl, by decide, rfl⟩
      | arrow => exact ⟨0x2d, 0x3e :: more, rfl, rfl, by decide, rfl⟩
      | _ => exact ⟨_, more, rfl, rfl, by decide, rfl⟩
  | endOfFile => exact absurd spelled id

/-- A token that is spelled out is lexed, in front of bytes that do not go on with it. -/
theorem Lexes.spelled (kind : TokenKind) (spelled : kind.Spelled) {more : List UInt8}
    {kinds : List TokenKind} (ends : kind.EndsBefore more) (later : Lexes more kinds) :
    Lexes (textBytes kind.text ++ more) (kind :: kinds) := by
  rcases scan_spelled spelled ends with ⟨byte, rest, front, solid, noSlash, scanned⟩
  have left : (byte :: rest).drop kind.text.utf8ByteSize = more := by
    rw [← front]
    exact List.drop_left' rfl
  rw [front]
  apply Lexes.token (behind_trivia_solid solid noSlash rest) scanned
  rw [left]
  exact later

/-! ### What is read -/

/-- The bytes that make up words are those of letters, digits and underscores. -/
theorem word_start_char {byte : UInt8} (start : isWordStart byte = true) :
    ((Char.ofNat byte.toNat).isAlpha || Char.ofNat byte.toNat = '_') = true := by
  have all : ∀ number : Fin 256, isWordStart (.ofNat number) = true →
      ((Char.ofNat number).isAlpha || Char.ofNat number = '_') = true := by
    decide +kernel
  have own := all ⟨byte.toNat, byte.toNat_lt⟩
  rw [UInt8.ofNat_toNat] at own
  exact own start

theorem word_char {byte : UInt8} (part : isWordByte byte = true) :
    ((Char.ofNat byte.toNat).isAlphanum || Char.ofNat byte.toNat = '_') = true := by
  have all : ∀ number : Fin 256, isWordByte (.ofNat number) = true →
      ((Char.ofNat number).isAlphanum || Char.ofNat number = '_') = true := by
    decide +kernel
  have own := all ⟨byte.toNat, byte.toNat_lt⟩
  rw [UInt8.ofNat_toNat] at own
  exact own part

theorem ascii_text_word {byte : UInt8} {rest : List UInt8} (start : isWordStart byte = true)
    (parts : ∀ other ∈ rest, isWordByte other = true) : IsWord (asciiText (byte :: rest)) := by
  refine ⟨Char.ofNat byte.toNat, rest.map fun other => Char.ofNat other.toNat, ?_,
    word_start_char start, ?_⟩
  · rw [asciiText, String.toList_ofList, List.map_cons]
  · rw [List.all_map, List.all_eq_true]
    exact fun other member => word_char (parts other member)

/-- Whatever the scanner reads as a token can be spelled out. -/
theorem Lexeme.scan_token_spelled {byte : UInt8} {rest : List UInt8} {kind : TokenKind}
    (scanned : Lexeme.scan byte rest = .token kind) : kind.Spelled := by
  rcases scan_cases byte rest with ⟨start, same⟩ | ⟨mark, _, same⟩ | same
  · rw [same] at scanned
    injection scanned with word
    rw [← word, TokenKind.ofWord]
    split
    · trivial
    · next free =>
        refine ⟨ascii_text_word start (List.all_eq_true.mp List.all_takeWhile), ?_⟩
        intro keyword same
        rw [Keyword.ofText?, List.find?_eq_none] at free
        exact free keyword (by cases keyword <;> decide) (decide_eq_true same)
  · rw [same] at scanned
    cases scanned
    trivial
  · rw [same] at scanned
    cases scanned

end Composer
