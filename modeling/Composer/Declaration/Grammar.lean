import Composer.Declaration.Tree
import Composer.Declaration.Cursor
import Composer.Token.Lexer

/-!
The grammar of declaration files, one action per construct. A construct that cannot be read is
reported once and skipped: inside a block up to the next member, outside up to the next item. Reading
never stops before the end of the input unless the log of reports is full.
-/

namespace Composer

namespace Parse

/-! ### Types -/

/-- `a::b::C<T, U>`, with types read by `argument`. -/
def pathWith (argument : Parse TypeExpr) : Parse TypePath := do
  let start ← currentSpan
  let first ← identifier
  let others ← withFuel (led (.mark .doubleColon) (fun _ => false) identifier)
  let generics ← do
    if ← eat (.mark .less) then
      let first ← argument
      let others ← withFuel (led (.mark .comma) (·.check (.mark .greater)) argument)
      let _ ← expect (.mark .greater)
      pure (first :: others)
    else pure []
  return ⟨first :: others, generics, ← spanFrom start⟩

/-- `@T`, `(A, B)` or a path, nested less than `depth` deep. -/
def typeWithin : Nat → Parse TypeExpr
  | 0 => fail
  | depth + 1 => do
      let start ← currentSpan
      match ← kind with
      | .mark .atSign =>
          move Cursor.advance
          let inner ← typeWithin depth
          return .snapshot inner (← spanFrom start)
      | .mark .leftParen =>
          move Cursor.advance
          let items ← withFuel (upTo (.mark .rightParen) (typeWithin depth))
          let _ ← expect (.mark .rightParen)
          return .tuple items (← spanFrom start)
      | _ => return (← pathWith (typeWithin depth)).toType

/-- A type. Each level of nesting takes a token, so the tokens ahead bound its depth. -/
def type : Parse TypeExpr := withFuel typeWithin

def path : Parse TypePath := pathWith type

/-! ### Attributes and methods -/

def attributeBody : Parse Attribute := do
  let start ← previousSpan
  let _ ← expect (.mark .leftBracket)
  let name ← identifier
  let args ← do
    if ← eat (.mark .leftParen) then
      let args ← withFuel (upTo (.mark .rightParen) identifier)
      let _ ← expect (.mark .rightParen)
      pure args
    else pure []
  let _ ← expect (.mark .rightBracket)
  return ⟨name, args, ← spanFrom start⟩

def attributes : Parse (List Attribute) :=
  withFuel (led (.mark .hash) (fun _ => false) attributeBody)

/-- `self: @T` or `ref self: T`. -/
def receiver : Parse Receiver := do
  let start ← currentSpan
  let isReference ← eat (.keyword .ref)
  unless ← eat (.keyword .self) do
    unexpected ("methods take 'self: @State' or 'ref self: State' first, got '" ++
      (← kind).text ++ "'")
  let _ ← expect (.mark .colon)
  let type ← type
  match isReference, type with
  | true, .snapshot _ span =>
      report .unexpectedToken "'ref self' cannot take a snapshot type" span
      fail
  | true, type => return ⟨.reference, type, ← spanFrom start⟩
  | false, .snapshot inner _ => return ⟨.snapshot, inner, ← spanFrom start⟩
  | false, type =>
      report .unexpectedToken ("by-value receiver 'self: " ++ type.text ++
        "' is not supported; use '@" ++ type.text ++ "' or 'ref self'") type.span
      fail

/-- `name: Type` -/
def param : Parse Param := do
  let start ← currentSpan
  let name ← identifier
  let _ ← expect (.mark .colon)
  let type ← type
  return ⟨name, type, ← spanFrom start⟩

/-- `fn name(receiver, params ..) -> Ret;` -/
def method : Parse MethodDecl := do
  let start ← currentSpan
  let _ ← expect (.keyword .fn)
  let name ← identifier
  let _ ← expect (.mark .leftParen)
  let receiver ← receiver
  let params ← withFuel (led (.mark .comma) (·.check (.mark .rightParen)) param)
  let _ ← expect (.mark .rightParen)
  let ret ← do
    if ← eat (.mark .arrow) then pure (some (← type)) else pure none
  let _ ← expect (.mark .semicolon)
  return ⟨name, receiver, params, ret, ← spanFrom start⟩

/-! ### Storage and events -/

/-- The comma behind a member; the last member of a block may omit it. -/
def endOfMember : Parse Unit := do
  if ← eat (.mark .comma) then return ()
  if ← check (.mark .rightBrace) then return ()
  let _ ← expect (.mark .comma)

def storageMember : Parse MemberDecl := do
  let start ← currentSpan
  let attributes ← attributes
  let name ← identifier
  let _ ← expect (.mark .colon)
  let type ← type
  let span ← spanFrom start
  endOfMember
  return ⟨attributes, name, type, span⟩

def storageBlock : Parse StorageBlock := do
  let start ← currentSpan
  let _ ← expect (.keyword .storage)
  let members ← listBlock storageMember
  return ⟨members, ← spanFrom start⟩

def eventVariant : Parse VariantDecl := do
  let start ← currentSpan
  let attributes ← attributes
  let name ← identifier
  let payload ← do
    if ← eat (.mark .colon) then pure (some (← type)) else pure none
  let span ← spanFrom start
  endOfMember
  return ⟨attributes, name, payload, span⟩

def eventBlock : Parse EventBlock := do
  let start ← currentSpan
  let _ ← expect (.keyword .event)
  let variants ← listBlock eventVariant
  return ⟨variants, ← spanFrom start⟩

/-- Keeps the block found first; a second one is reported where it stands and dropped. -/
def keepFirst {Block : Type} (present : Option Block) (block : Block) (word owner : String)
    (span : Span) : Parse (Option Block) :=
  match present with
  | some first => do
      report .duplicateBlock ("'" ++ owner ++ "' declares more than one " ++ word ++ " block") span
      return some first
  | none => return some block

/-! ### Components -/

def interface : Parse InterfaceDecl := do
  let start ← currentSpan
  let _ ← expect (.keyword .interface)
  let name ← identifier
  let methods ← listBlock method
  return ⟨name, methods, ← spanFrom start⟩

def startBehind (attributes : List Attribute) : Parse Span :=
  match attributes.head? with
  | some first => return first.span
  | none => currentSpan

/-- `impl Name of I;`, `impl Name of I { .. }` or `impl Name { .. }`, behind its attributes. -/
def implementation (attributes : List Attribute) : Parse ImplDecl := do
  let start ← startBehind attributes
  let _ ← expect (.keyword .impl)
  let name ← identifier
  if ← eat (.keyword .of) then
    let interface ← identifier
    let methods ← do
      if ← eat (.mark .semicolon) then pure [] else listBlock method
    return ⟨attributes, name, some interface, methods, ← spanFrom start⟩
  else
    let methods ← listBlock method
    return ⟨attributes, name, none, methods, ← spanFrom start⟩

def unexpectedMember {Result : Type} (attributes : List Attribute) (expected : String)
    (found : TokenKind) : Parse Result :=
  match attributes with
  | [] => unexpected ("expected " ++ expected ++ ", got '" ++ found.text ++ "'")
  | _ => unexpected ("attributes may only precede 'impl' here, got '" ++ found.text ++ "'")

def componentMember (decl : ComponentDecl) : Parse ComponentDecl := do
  let attributes ← attributes
  match ← kind, attributes with
  | .keyword .storage, [] =>
      let block ← storageBlock
      return { decl with storage := ← keepFirst decl.storage block "storage" decl.name.name block.span }
  | .keyword .event, [] =>
      let block ← eventBlock
      return { decl with event := ← keepFirst decl.event block "event" decl.name.name block.span }
  | .keyword .interface, [] =>
      return { decl with interfaces := decl.interfaces ++ [← interface] }
  | .keyword .impl, _ =>
      return { decl with impls := decl.impls ++ [← implementation attributes] }
  | found, _ =>
      unexpectedMember attributes "'storage', 'event', 'interface' or 'impl'" found

/-- `component name { members }` -/
def component : Parse ComponentDecl := do
  let start ← currentSpan
  let _ ← expect (.keyword .component)
  let name ← identifier
  let decl ← block componentMember
    { name, storage := none, event := none, interfaces := [], impls := [], span := start }
  return { decl with span := ← spanFrom start }

/-! ### Contracts -/

/-- `component!(path: p, storage: s, event: E);` -/
def inclusion : Parse InclusionDecl := do
  let start ← currentSpan
  let _ ← expect (.keyword .component)
  let _ ← expect (.mark .bang)
  let _ ← expect (.mark .leftParen)
  let _ ← word "path"
  let _ ← expect (.mark .colon)
  let path ← identifier
  let _ ← expect (.mark .comma)
  let _ ← expect (.keyword .storage)
  let _ ← expect (.mark .colon)
  let storage ← identifier
  let _ ← expect (.mark .comma)
  let _ ← expect (.keyword .event)
  let _ ← expect (.mark .colon)
  let event ← identifier
  let _ ← eat (.mark .comma)
  let _ ← expect (.mark .rightParen)
  let span ← spanFrom start
  let _ ← expect (.mark .semicolon)
  return ⟨path, storage, event, span⟩

/-- `impl Local = path::Alias<State>;`, behind its attributes. -/
def exposure (attributes : List Attribute) : Parse ExposureDecl := do
  let start ← startBehind attributes
  let _ ← expect (.keyword .impl)
  let localName ← identifier
  let _ ← expect (.mark .equal)
  let target ← path
  let _ ← expect (.mark .semicolon)
  return ⟨attributes, localName, target, ← spanFrom start⟩

def contractMember (decl : ContractDecl) : Parse ContractDecl := do
  let attributes ← attributes
  match ← kind, attributes with
  | .keyword .component, [] =>
      return { decl with inclusions := decl.inclusions ++ [← inclusion] }
  | .keyword .impl, _ =>
      return { decl with exposures := decl.exposures ++ [← exposure attributes] }
  | .keyword .storage, [] =>
      let block ← storageBlock
      return { decl with storage := ← keepFirst decl.storage block "storage" decl.name.name block.span }
  | .keyword .event, [] =>
      let block ← eventBlock
      return { decl with event := ← keepFirst decl.event block "event" decl.name.name block.span }
  | found, _ =>
      unexpectedMember attributes "'component!', 'impl', 'storage' or 'event'" found

/-- `contract Name { members }` -/
def contract : Parse ContractDecl := do
  let start ← currentSpan
  let _ ← expect (.keyword .contract)
  let name ← identifier
  let decl ← block contractMember
    { name, inclusions := [], exposures := [], storage := none, event := none, span := start }
  return { decl with span := ← spanFrom start }

/-! ### Files -/

/-- A component or a contract. Any other token is reported and taken. -/
def item : Parse Item := do
  match ← kind with
  | .keyword .component => return .component (← component)
  | .keyword .contract => return .contract (← contract)
  | other =>
      report .unexpectedToken
        ("expected 'component' or 'contract', got '" ++ other.text ++ "'") (← currentSpan)
      move Cursor.advance
      fail

/-- Items up to the end of the input or until the log is full; a broken item is skipped. -/
def items : Nat → Cursor → List Item × Cursor
  | 0, cursor => ([], cursor)
  | fuel + 1, cursor =>
      if cursor.atEnd || cursor.log.isFull then ([], cursor)
      else match item cursor with
        | (some item, cursor) =>
            let (rest, cursor) := items fuel cursor
            (item :: rest, cursor)
        | (none, cursor) => items fuel cursor.recoverItem

end Parse

structure Parsed where
  tree : DeclarationFile
  log : ReportLog

/-- Reads tokens as a file. The text of `file` only supplies source lines for reports. -/
def SourceFile.parseTokens (file : SourceFile) (tokens : List Token) : Parsed :=
  let start := Cursor.ofTokens file tokens
  let (items, stop) := Parse.items (start.ahead.length + 1) start
  { tree := ⟨items, start.span.cover stop.previous⟩, log := stop.log }

/-- Reads a source text; reports on its bytes come before reports on its tokens. -/
def SourceFile.parse (file : SourceFile) : Parsed :=
  let lexed := file.lex
  let parsed := file.parseTokens lexed.tokens
  { parsed with log := lexed.log.merge parsed.log }

end Composer
