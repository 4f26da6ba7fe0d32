import Composer.Source.Span

/-!
Tokens of declaration files: identifiers, ten keywords, punctuation marks and the end of the input.
`TokenKind.text` is the spelling that source texts and messages use.
-/

namespace Composer

/-- The reserved words. The word `path` is not among them: it has a meaning only inside an
inclusion. -/
inductive Keyword
  | component
  | contract
  | storage
  | event
  | interface
  | impl
  | of
  | fn
  | ref
  | self
deriving DecidableEq, Repr

namespace Keyword

def all : List Keyword :=
  [component, contract, storage, event, interface, impl, of, fn, ref, self]

def text : Keyword → String
  | component => "component"
  | contract => "contract"
  | storage => "storage"
  | event => "event"
  | interface => "interface"
  | impl => "impl"
  | of => "of"
  | fn => "fn"
  | ref => "ref"
  | self => "self"

def ofText? (word : String) : Option Keyword := all.find? (·.text = word)

end Keyword

inductive Mark
  | leftBrace
  | rightBrace
  | leftParen
  | rightParen
  | leftBracket
  | rightBracket
  | less
  | greater
  | comma
  | colon
  | doubleColon
  | semicolon
  | hash
  | bang
  | atSign
  | equal
  | arrow
deriving DecidableEq, Repr

def Mark.text : Mark → String
  | leftBrace => "\x7b"
  | rightBrace => "\x7d"
  | leftParen => "("
  | rightParen => ")"
  | leftBracket => "["
  | rightBracket => "]"
  | less => "<"
  | greater => ">"
  | comma => ","
  | colon => ":"
  | doubleColon => "::"
  | semicolon => ";"
  | hash => "#"
  | bang => "!"
  | atSign => "@"
  | equal => "="
  | arrow => "->"

inductive TokenKind
  | identifier (name : String)
  | keyword (word : Keyword)
  | mark (sign : Mark)
  | endOfFile
deriving DecidableEq, Repr

namespace TokenKind

def text : TokenKind → String
  | identifier name => name
  | keyword word => word.text
  | mark sign => sign.text
  | endOfFile => "end of file"

def isKeyword : TokenKind → Bool
  | keyword _ => true
  | _ => false

/-- The kind of a word: a keyword where there is one of that spelling, else an identifier. -/
def ofWord (word : String) : TokenKind :=
  match Keyword.ofText? word with
  | some reserved => .keyword reserved
  | none => .identifier word

end TokenKind

structure Token where
  kind : TokenKind
  span : Span
deriving DecidableEq, Repr

end Composer
