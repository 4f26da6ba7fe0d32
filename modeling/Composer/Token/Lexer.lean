import Composer.Source.File
import Composer.Report.Log
import Composer.Token.Basic

/-!
From source text to tokens. The text is read as bytes. Blanks and `//` comments separate tokens;
at any other byte `Lexeme.scan` decides by the first one or two bytes, and by the longest run of
word bytes where the first starts a word. A byte that starts no token is reported and skipped, until
the log of reports is full; then the input counts as ended.
-/

namespace Composer

/-- Space, tab, carriage return and line feed. -/
def isBlankByte (byte : UInt8) : Bool :=
  byte = 0x20 || byte = 0x09 || byte = 0x0d || byte = 0x0a

/-- Letters of the alphabet and the underscore. -/
def isWordStart (byte : UInt8) : Bool :=
  (0x61 ≤ byte && byte ≤ 0x7a) || (0x41 ≤ byte && byte ≤ 0x5a) || byte = 0x5f

def isWordByte (byte : UInt8) : Bool :=
  isWordStart byte || (0x30 ≤ byte && byte ≤ 0x39)

def asciiText (bytes : List UInt8) : String :=
  String.ofList (bytes.map fun byte => Char.ofNat byte.toNat)

/-- Skips blanks and comments. The flag tells whether the bytes start inside a comment, which ends
before the next line feed. -/
def dropTrivia : Bool → Position → List UInt8 → Position × List UInt8
  | _, position, [] => (position, [])
  | true, position, byte :: rest =>
      dropTrivia (byte ≠ 0x0a) (position.after byte) rest
  | false, position, byte :: rest =>
      if isBlankByte byte then dropTrivia false (position.after byte) rest
      else if byte = 0x2f ∧ rest.head? = some 0x2f then
        dropTrivia true (position.after byte) rest
      else (position, byte :: rest)

/-- The bytes that are a mark on their own, whatever follows. -/
def singleMarks : List (UInt8 × Mark) :=
  [(0x7b, .leftBrace), (0x7d, .rightBrace), (0x28, .leftParen), (0x29, .rightParen),
    (0x5b, .leftBracket), (0x5d, .rightBracket), (0x3c, .less), (0x3e, .greater), (0x2c, .comma),
    (0x3b, .semicolon), (0x23, .hash), (0x21, .bang), (0x40, .atSign), (0x3d, .equal)]

/-- What stands at a byte that is no trivia. -/
inductive Lexeme
  | token (kind : TokenKind)
  | unexpected (byte : UInt8)
deriving DecidableEq, Repr

namespace Lexeme

/-- Reads the lexeme that starts with `byte` and may go on into `rest`. -/
def scan (byte : UInt8) (rest : List UInt8) : Lexeme :=
  if isWordStart byte then
    .token (.ofWord (asciiText (byte :: rest.takeWhile isWordByte)))
  else if byte = 0x3a then
    .token (.mark (if rest.head? = some 0x3a then .doubleColon else .colon))
  else if byte = 0x2d ∧ rest.head? = some 0x3e then .token (.mark .arrow)
  else match singleMarks.lookup byte with
    | some mark => .token (.mark mark)
    | none => .unexpected byte

def width : Lexeme → Nat
  | token kind => kind.text.utf8ByteSize
  | unexpected _ => 1

end Lexeme

def hexByte (byte : UInt8) : String :=
  String.ofList [Nat.digitChar (byte.toNat / 16), Nat.digitChar (byte.toNat % 16)]

/-- A byte as the report on it shows it: visible characters in quotes, others by number. -/
def shownByte (byte : UInt8) : String :=
  if 0x21 ≤ byte ∧ byte ≤ 0x7e then "'" ++ asciiText [byte] ++ "'"
  else "byte 0x" ++ hexByte byte

/-- The report on a byte that starts no token. -/
def unexpectedByte (file : SourceFile) (byte : UInt8) (span : Span) : Report :=
  .ofError file.name .unexpectedCharacter ("Unexpected character " ++ shownByte byte) span
    (file.sourceLine span)

structure Lexed where
  tokens : List Token
  log : ReportLog
deriving DecidableEq, Repr

def endToken (position : Position) : Token := ⟨.endOfFile, ⟨position, position⟩⟩

/-- Reads tokens from `position` on. Every round but the last takes at least one byte, so the
number of bytes and one more is fuel enough. -/
def SourceFile.lexFrom (file : SourceFile) : Nat → Position → List UInt8 → ReportLog → Lexed
  | 0, position, _, log => ⟨[endToken position], log⟩
  | fuel + 1, position, bytes, log =>
      match dropTrivia false position bytes with
      | (position, []) => ⟨[endToken position], log⟩
      | (position, byte :: rest) =>
          let lexeme := Lexeme.scan byte rest
          let behind : Position := ⟨position.line, position.column + lexeme.width⟩
          let span : Span := ⟨position, ⟨position.line, position.column + lexeme.width - 1⟩⟩
          let rest := (byte :: rest).drop lexeme.width
          match lexeme with
          | .token kind =>
              let lexed := file.lexFrom fuel behind rest log
              ⟨⟨kind, span⟩ :: lexed.tokens, lexed.log⟩
          | .unexpected byte =>
              let log := log.addError (unexpectedByte file byte span)
              if log.isFull then ⟨[endToken behind], log⟩
              else file.lexFrom fuel behind rest log

/-- The tokens of a source text, closed by one end-of-file token, and the reports. -/
def SourceFile.lex (file : SourceFile) : Lexed :=
  file.lexFrom (file.bytes.length + 1) ⟨1, 1⟩ file.bytes .empty

end Composer
