import Composer.Source.File
import Composer.Report.Log
import Composer.Token.Basic
import Composer.Declaration.Tree

/-!
The cursor over a list of tokens, and the parsing actions on it. The last token ends the file, and
others before it may end it as well: a cursor sees the tokens up to the next one that does, but can be
moved over it. An action that fails leaves the cursor where it stopped, with the reports made so far;
recovery goes on from there.
-/

namespace Composer

/-- A place in a list of tokens, together with the reports made on the way to it. -/
structure Cursor where
  file : SourceFile
  /-- The span of the token taken last; the first position of the text before there is one. -/
  previous : Span
  /-- The tokens ahead, up to the next end-of-file token. -/
  ahead : List Token
  /-- The span of that end-of-file token. -/
  finish : Span
  /-- The tokens behind it. -/
  beyond : List Token
  log : ReportLog

namespace Cursor

/-- Puts the cursor before tokens of which the last one ends the file. -/
def facing (cursor : Cursor) (tokens : List Token) : Cursor :=
  { cursor with
    ahead := tokens.takeWhile (·.kind ≠ .endOfFile)
    finish := match tokens.find? (·.kind = .endOfFile) with
      | some token => token.span
      | none => cursor.finish
    beyond := (tokens.dropWhile (·.kind ≠ .endOfFile)).tail }

/-- The tokens as they are given, behind them an end-of-file token if the last one is none. -/
def closed (tokens : List Token) : List Token :=
  match tokens.getLast? with
  | none => [⟨.endOfFile, .point 1 1⟩]
  | some last =>
      if last.kind = .endOfFile then tokens else tokens ++ [⟨.endOfFile, last.span⟩]

def ofTokens (file : SourceFile) (tokens : List Token) : Cursor :=
  facing ⟨file, .point 1 1, [], .point 1 1, [], .empty⟩ (closed tokens)

def atEnd (cursor : Cursor) : Bool := cursor.ahead.isEmpty

def kind (cursor : Cursor) : TokenKind :=
  match cursor.ahead with
  | [] => .endOfFile
  | token :: _ => token.kind

def span (cursor : Cursor) : Span :=
  match cursor.ahead with
  | [] => cursor.finish
  | token :: _ => token.span

def check (cursor : Cursor) (kind : TokenKind) : Bool := cursor.kind = kind

/-- Steps over an end-of-file token, unless it is the last one. -/
def stepOver (cursor : Cursor) : Cursor :=
  match cursor.beyond with
  | [] => cursor
  | tokens => { cursor with previous := cursor.finish }.facing tokens

/-- Takes the next token, of whatever kind it is; the last one is left. -/
def advance (cursor : Cursor) : Cursor :=
  match cursor.ahead with
  | [] => cursor.stepOver
  | token :: rest => { cursor with previous := token.span, ahead := rest }

def report (cursor : Cursor) (code : ErrorCode) (message : String) (span : Span) : Cursor :=
  { cursor with
    log := cursor.log.addError
      (.ofError cursor.file.name code message span (cursor.file.sourceLine span)) }

/-- Skips what is left of a broken member: up to and with the next `;` or `,` outside of brackets,
or up to the `}` that closes the block around it, or with the `}` of a block inside it. One depth
counts braces, parentheses and brackets alike. The result holds the span of the last token skipped. -/
def skipMember : Nat → Span → List Token → Span × List Token
  | _, previous, [] => (previous, [])
  | depth, previous, token :: rest =>
      match token.kind with
      | .mark .leftBrace => skipMember (depth + 1) token.span rest
      | .mark .leftParen => skipMember (depth + 1) token.span rest
      | .mark .leftBracket => skipMember (depth + 1) token.span rest
      | .mark .rightParen => skipMember (depth - 1) token.span rest
      | .mark .rightBracket => skipMember (depth - 1) token.span rest
      | .mark .rightBrace =>
          if depth = 0 then (previous, token :: rest)
          else if depth = 1 then (token.span, rest)
          else skipMember (depth - 1) token.span rest
      | .mark .semicolon =>
          if depth = 0 then (token.span, rest) else skipMember depth token.span rest
      | .mark .comma =>
          if depth = 0 then (token.span, rest) else skipMember depth token.span rest
      | _ => skipMember depth token.span rest

/-- Skips to the next item: a `component` or `contract` that no `!` follows. -/
def skipItem : Span → List Token → Span × List Token
  | previous, [] => (previous, [])
  | previous, token :: rest =>
      if (token.kind = .keyword .component ∨ token.kind = .keyword .contract) ∧
          (rest.head?.map (·.kind)) ≠ some (.mark .bang) then
        (previous, token :: rest)
      else skipItem token.span rest

def recoverMember (cursor : Cursor) : Cursor :=
  let (previous, ahead) := skipMember 0 cursor.previous cursor.ahead
  { cursor with previous, ahead }

def recoverItem (cursor : Cursor) : Cursor :=
  let (previous, ahead) := skipItem cursor.previous cursor.ahead
  { cursor with previous, ahead }

end Cursor

/-- A parsing action: what it read, or `none` where it failed, and where it stopped. -/
def Parse (Result : Type) : Type := Cursor → Option Result × Cursor

namespace Parse

instance : Monad Parse where
  pure result := fun cursor => (some result, cursor)
  bind action next := fun cursor =>
    match action cursor with
    | (some result, cursor) => next result cursor
    | (none, cursor) => (none, cursor)

variable {Result State : Type}

def fail : Parse Result := fun cursor => (none, cursor)

def look (view : Cursor → Result) : Parse Result := fun cursor => (some (view cursor), cursor)

def move (step : Cursor → Cursor) : Parse Unit := fun cursor => (some (), step cursor)

def kind : Parse TokenKind := look Cursor.kind

def currentSpan : Parse Span := look Cursor.span

def previousSpan : Parse Span := look Cursor.previous

def check (kind : TokenKind) : Parse Bool := look (·.check kind)

def spanFrom (start : Span) : Parse Span := look fun cursor => start.cover cursor.previous

def report (code : ErrorCode) (message : String) (span : Span) : Parse Unit :=
  move fun cursor => cursor.report code message span

def unexpected (message : String) : Parse Result := do
  report .unexpectedToken message (← currentSpan)
  fail

def eat (kind : TokenKind) : Parse Bool := fun cursor =>
  if cursor.check kind then (some true, cursor.advance) else (some false, cursor)

def expect (kind : TokenKind) : Parse Span := do
  if ← eat kind then previousSpan
  else unexpected ("expected '" ++ kind.text ++ "', got '" ++ (← Parse.kind).text ++ "'")

def identifier : Parse Ident := do
  match ← kind with
  | .identifier name =>
      move Cursor.advance
      return ⟨name, ← previousSpan⟩
  | other => unexpected ("expected identifier, got '" ++ other.text ++ "'")

def word (word : String) : Parse Span := do
  if ← eat (.identifier word) then previousSpan
  else unexpected ("expected '" ++ word ++ "', got '" ++ (← kind).text ++ "'")

/-- Elements that each follow a `lead` token. A `lead` where `stop` holds behind it belongs to the
list and ends it. -/
def led (lead : TokenKind) (stop : Cursor → Bool) (element : Parse Result) :
    Nat → Parse (List Result)
  | 0 => fail
  | fuel + 1 => do
      if ← eat lead then
        if ← look stop then return []
        let first ← element
        return first :: (← led lead stop element fuel)
      else return []

/-- Elements up to a `close` token, with commas between them and maybe behind the last. -/
def upTo (close : TokenKind) (element : Parse Result) : Nat → Parse (List Result)
  | 0 => fail
  | fuel + 1 => do
      if ← look (fun cursor => cursor.check close || cursor.atEnd) then return []
      let first ← element
      if ← eat (.mark .comma) then return first :: (← upTo close element fuel)
      else return [first]

/-- Gives an action one round more than there are tokens ahead; each of its rounds takes a token. -/
def withFuel (action : Nat → Parse Result) : Parse Result :=
  fun cursor => action (cursor.ahead.length + 1) cursor

/-- Reads the members of a block with `step`, which adds a member to the state. A broken member is
skipped and leaves the state as it was; a full log ends the block. -/
def members (step : State → Parse State) : Nat → State → Parse State
  | 0, _ => fail
  | fuel + 1, state => fun cursor =>
      if cursor.check (.mark .rightBrace) || cursor.atEnd then (some state, cursor)
      else if cursor.log.isFull then (none, cursor)
      else match step state cursor with
        | (some state, cursor) => members step fuel state cursor
        | (none, cursor) => members step fuel state cursor.recoverMember

/-- Takes the `}` of a block; its absence is reported at the `{` that opened it. -/
def closing (opened : Span) : Parse Unit := do
  if ← eat (.mark .rightBrace) then return ()
  report .unclosedBrace ("unclosed '\x7b' opened at " ++ opened.text) opened
  fail

def block (step : State → Parse State) (initial : State) : Parse State := do
  let opened ← expect (.mark .leftBrace)
  let state ← withFuel fun fuel => members step fuel initial
  closing opened
  return state

def listBlock (member : Parse Result) : Parse (List Result) :=
  block (fun collected => do return collected ++ [← member]) []

end Parse

end Composer
