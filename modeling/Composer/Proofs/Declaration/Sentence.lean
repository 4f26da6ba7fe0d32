import Composer.Declaration.Tree
import Composer.Token.Basic

/-!
The sentences of declaration files. Each construct is written by certain lists of token kinds, given
here by rules that know nothing of cursors, reports or spans. The comment at a construct is its rule
with marks and words quoted, `x*` for repetition and `[x]` for what may be missing.
-/

namespace Composer

/-! ### Lists of constructs -/

section Lists

variable {Node : Type}

/-- `node*` -/
inductive Sequence (written : Node → List TokenKind → Prop) : List Node → List TokenKind → Prop
  | nil : Sequence written [] []
  | cons {first : Node} {rest : List Node} {here later : List TokenKind} :
      written first here → Sequence written rest later →
        Sequence written (first :: rest) (here ++ later)

/-- `(lead node)*`, and one more `lead` behind it where that is allowed -/
inductive Led (lead : TokenKind) (mayTrail : Prop) (written : Node → List TokenKind → Prop) :
    List Node → List TokenKind → Prop
  | nil : Led lead mayTrail written [] []
  | trailing : mayTrail → Led lead mayTrail written [] [lead]
  | cons {first : Node} {rest : List Node} {here later : List TokenKind} :
      written first here → Led lead mayTrail written rest later →
        Led lead mayTrail written (first :: rest) (lead :: (here ++ later))

/-- `[node (',' node)* [',']]` -/
inductive CommaList (written : Node → List TokenKind → Prop) : List Node → List TokenKind → Prop
  | nil : CommaList written [] []
  | last {node : Node} {kinds : List TokenKind} :
      written node kinds → CommaList written [node] kinds
  | cons {first : Node} {rest : List Node} {here later : List TokenKind} :
      written first here → CommaList written rest later →
        CommaList written (first :: rest) (here ++ .mark .comma :: later)

/-- `[lead node]` -/
inductive Optional (lead : TokenKind) (written : Node → List TokenKind → Prop) :
    Option Node → List TokenKind → Prop
  | none : Optional lead written none []
  | some {node : Node} {kinds : List TokenKind} :
      written node kinds → Optional lead written (some node) (lead :: kinds)

/-- `'{' node '}'` -/
def Braced (written : Node → List TokenKind → Prop) (node : Node) (kinds : List TokenKind) : Prop :=
  ∃ body, written node body ∧ kinds = .mark .leftBrace :: (body ++ [.mark .rightBrace])

end Lists

/-! ### Types, attributes and methods -/

def Ident.Written (ident : Ident) (kinds : List TokenKind) : Prop :=
  kinds = [.identifier ident.name]

/-- `['<' type (',' type)* [','] '>']` -/
inductive Arguments (written : TypeExpr → List TokenKind → Prop) :
    List TypeExpr → List TokenKind → Prop
  | none : Arguments written [] []
  | some {first : TypeExpr} {rest : List TypeExpr} {here later : List TokenKind} :
      written first here → Led (.mark .comma) True written rest later →
        Arguments written (first :: rest)
          (.mark .less :: (here ++ (later ++ [.mark .greater])))

/-- `'@' type | '(' [type (',' type)* [',']] ')' | ID ('::' ID)* arguments` -/
inductive TypeExpr.Written : TypeExpr → List TokenKind → Prop
  | path {first : Ident} {others : List Ident} {generics : List TypeExpr} {span : Span}
      {names arguments : List TokenKind} :
      Led (.mark .doubleColon) False Ident.Written others names →
      Arguments TypeExpr.Written generics arguments →
        TypeExpr.Written (.path (first :: others) generics span)
          (.identifier first.name :: (names ++ arguments))
  | snapshot {inner : TypeExpr} {span : Span} {kinds : List TokenKind} :
      TypeExpr.Written inner kinds →
        TypeExpr.Written (.snapshot inner span) (.mark .atSign :: kinds)
  | tuple {items : List TypeExpr} {span : Span} {kinds : List TokenKind} :
      CommaList TypeExpr.Written items kinds →
        TypeExpr.Written (.tuple items span) (.mark .leftParen :: (kinds ++ [.mark .rightParen]))

def TypePath.Written (path : TypePath) (kinds : List TokenKind) : Prop := path.toType.Written kinds

/-- `'[' ID ['(' [ID (',' ID)* [',']] ')'] ']'`, behind the `'#'` of an attribute -/
inductive Attribute.Written : Attribute → List TokenKind → Prop
  | plain {name : Ident} {span : Span} :
      Attribute.Written ⟨name, [], span⟩
        [.mark .leftBracket, .identifier name.name, .mark .rightBracket]
  | applied {name : Ident} {args : List Ident} {span : Span} {kinds : List TokenKind} :
      CommaList Ident.Written args kinds →
        Attribute.Written ⟨name, args, span⟩
          (.mark .leftBracket :: .identifier name.name :: .mark .leftParen ::
            (kinds ++ [.mark .rightParen, .mark .rightBracket]))

/-- `attribute*` -/
def AttributesWritten : List Attribute → List TokenKind → Prop :=
  Led (.mark .hash) False Attribute.Written

/-- `'self' ':' '@' type | 'ref' 'self' ':' type`, where the second type starts with no `'@'` -/
inductive Receiver.Written : Receiver → List TokenKind → Prop
  | snapshot {type : TypeExpr} {span : Span} {kinds : List TokenKind} :
      type.Written kinds →
        Receiver.Written ⟨.snapshot, type, span⟩
          (.keyword .self :: .mark .colon :: .mark .atSign :: kinds)
  | reference {type : TypeExpr} {span : Span} {kinds : List TokenKind} :
      type.Written kinds → kinds.head? ≠ some (.mark .atSign) →
        Receiver.Written ⟨.reference, type, span⟩
          (.keyword .ref :: .keyword .self :: .mark .colon :: kinds)

/-- `ID ':' type` -/
def Param.Written (param : Param) (kinds : List TokenKind) : Prop :=
  ∃ type, param.type.Written type ∧ kinds = .identifier param.name.name :: .mark .colon :: type

/-- `'fn' ID '(' receiver (',' param)* [','] ')' ['->' type] ';'` -/
def MethodDecl.Written (method : MethodDecl) (kinds : List TokenKind) : Prop :=
  ∃ receiver params ret, method.receiver.Written receiver ∧
    Led (.mark .comma) True Param.Written method.params params ∧
    Optional (.mark .arrow) TypeExpr.Written method.ret ret ∧
    kinds = .keyword .fn :: .identifier method.name.name :: .mark .leftParen ::
      (receiver ++ (params ++ .mark .rightParen :: (ret ++ [.mark .semicolon])))

/-- `'{' method* '}'` -/
def MethodsWritten : List MethodDecl → List TokenKind → Prop :=
  Braced (Sequence MethodDecl.Written)

/-! ### Members -/

/-- `attribute* ID ':' type` -/
def MemberDecl.Written (member : MemberDecl) (kinds : List TokenKind) : Prop :=
  ∃ attributes type, AttributesWritten member.attributes attributes ∧ member.type.Written type ∧
    kinds = attributes ++ .identifier member.name.name :: .mark .colon :: type

/-- A member ends with a comma that it takes, or before a closing brace. -/
def EndsMember (input rest : List TokenKind) : Prop :=
  input = .mark .comma :: rest ∨ rest = input ∧ rest.headD .endOfFile = .mark .rightBrace

/-- `'storage' '{' [member (',' member)* [',']] '}'` -/
def StorageBlock.Written (block : StorageBlock) (kinds : List TokenKind) : Prop :=
  ∃ members, Braced (CommaList MemberDecl.Written) block.members members ∧
    kinds = .keyword .storage :: members

/-- `attribute* ID [':' type]` -/
def VariantDecl.Written (variant : VariantDecl) (kinds : List TokenKind) : Prop :=
  ∃ attributes payload, AttributesWritten variant.attributes attributes ∧
    Optional (.mark .colon) TypeExpr.Written variant.payload payload ∧
    kinds = attributes ++ .identifier variant.name.name :: payload

/-- `'event' '{' [variant (',' variant)* [',']] '}'` -/
def EventBlock.Written (block : EventBlock) (kinds : List TokenKind) : Prop :=
  ∃ variants, Braced (CommaList VariantDecl.Written) block.variants variants ∧
    kinds = .keyword .event :: variants

/-- `'interface' ID '{' method* '}'` -/
def InterfaceDecl.Written (interface : InterfaceDecl) (kinds : List TokenKind) : Prop :=
  ∃ methods, MethodsWritten interface.methods methods ∧
    kinds = .keyword .interface :: .identifier interface.name.name :: methods

/-- `'of' ID ';' | 'of' ID '{' method* '}' | '{' method* '}'`, behind the name of an implementation -/
inductive Implements : Option Ident → List MethodDecl → List TokenKind → Prop
  | bare {interface : Ident} :
      Implements (some interface) [] [.keyword .of, .identifier interface.name, .mark .semicolon]
  | restated {interface : Ident} {methods : List MethodDecl} {kinds : List TokenKind} :
      MethodsWritten methods kinds →
        Implements (some interface) methods
          (.keyword .of :: .identifier interface.name :: kinds)
  | inherent {methods : List MethodDecl} {kinds : List TokenKind} :
      MethodsWritten methods kinds → Implements none methods kinds

/-- `attribute* 'impl' ID implements` -/
def ImplDecl.Written (impl : ImplDecl) (kinds : List TokenKind) : Prop :=
  ∃ attributes body, AttributesWritten impl.attributes attributes ∧
    Implements impl.interface impl.methods body ∧
    kinds = attributes ++ .keyword .impl :: .identifier impl.name.name :: body

/-- `'component' '!' '(' 'path' ':' ID ',' 'storage' ':' ID ',' 'event' ':' ID [','] ')' ';'` -/
def InclusionDecl.Written (inclusion : InclusionDecl) (kinds : List TokenKind) : Prop :=
  ∃ trail, (trail = [] ∨ trail = [.mark .comma]) ∧
    kinds = .keyword .component :: .mark .bang :: .mark .leftParen ::
      .identifier "path" :: .mark .colon :: .identifier inclusion.path.name :: .mark .comma ::
      .keyword .storage :: .mark .colon :: .identifier inclusion.storage.name :: .mark .comma ::
      .keyword .event :: .mark .colon :: .identifier inclusion.event.name ::
      (trail ++ [.mark .rightParen, .mark .semicolon])

/-- `attribute* 'impl' ID '=' path ';'` -/
def ExposureDecl.Written (exposure : ExposureDecl) (kinds : List TokenKind) : Prop :=
  ∃ attributes target, AttributesWritten exposure.attributes attributes ∧
    exposure.target.Written target ∧
    kinds = attributes ++ .keyword .impl :: .identifier exposure.localName.name ::
      .mark .equal :: (target ++ [.mark .semicolon])

/-! ### Items -/

inductive ComponentPart
  | storage (block : StorageBlock)
  | event (block : EventBlock)
  | interface (decl : InterfaceDecl)
  | impl (decl : ImplDecl)

namespace ComponentPart

@[simp]
def storage? : ComponentPart → Option StorageBlock
  | storage block => some block
  | _ => none

@[simp]
def event? : ComponentPart → Option EventBlock
  | event block => some block
  | _ => none

@[simp]
def interface? : ComponentPart → Option InterfaceDecl
  | interface decl => some decl
  | _ => none

@[simp]
def impl? : ComponentPart → Option ImplDecl
  | impl decl => some decl
  | _ => none

def Written : ComponentPart → List TokenKind → Prop
  | storage block => block.Written
  | event block => block.Written
  | interface decl => decl.Written
  | impl decl => decl.Written

end ComponentPart

/-- A component has its parts by kind, each kind in order; there is room for one storage block and
one event block. -/
structure ComponentDecl.Gathers (decl : ComponentDecl) (parts : List ComponentPart) : Prop where
  storage : decl.storage.toList = parts.filterMap (·.storage?)
  event : decl.event.toList = parts.filterMap (·.event?)
  interfaces : decl.interfaces = parts.filterMap (·.interface?)
  impls : decl.impls = parts.filterMap (·.impl?)

/-- One more part goes to what there is of its kind. -/
theorem ComponentDecl.Gathers.behind {decl more : ComponentDecl} {parts : List ComponentPart}
    {part : ComponentPart} (gathers : decl.Gathers parts)
    (storage : more.storage.toList = decl.storage.toList ++ part.storage?.toList)
    (event : more.event.toList = decl.event.toList ++ part.event?.toList)
    (interfaces : more.interfaces = decl.interfaces ++ part.interface?.toList)
    (impls : more.impls = decl.impls ++ part.impl?.toList) :
    more.Gathers (parts ++ [part]) := by
  constructor
  · rw [storage, gathers.storage, List.filterMap_append]
    rfl
  · rw [event, gathers.event, List.filterMap_append]
    rfl
  · rw [interfaces, gathers.interfaces, List.filterMap_append]
    rfl
  · rw [impls, gathers.impls, List.filterMap_append]
    rfl

/-- `'component' ID '{' part* '}'` -/
def ComponentDecl.Written (decl : ComponentDecl) (kinds : List TokenKind) : Prop :=
  ∃ parts body, Braced (Sequence ComponentPart.Written) parts body ∧ decl.Gathers parts ∧
    kinds = .keyword .component :: .identifier decl.name.name :: body

inductive ContractPart
  | storage (block : StorageBlock)
  | event (block : EventBlock)
  | inclusion (decl : InclusionDecl)
  | exposure (decl : ExposureDecl)

namespace ContractPart

@[simp]
def storage? : ContractPart → Option StorageBlock
  | storage block => some block
  | _ => none

@[simp]
def event? : ContractPart → Option EventBlock
  | event block => some block
  | _ => none

@[simp]
def inclusion? : ContractPart → Option InclusionDecl
  | inclusion decl => some decl
  | _ => none

@[simp]
def exposure? : ContractPart → Option ExposureDecl
  | exposure decl => some decl
  | _ => none

def Written : ContractPart → List TokenKind → Prop
  | storage block => block.Written
  | event block => block.Written
  | inclusion decl => decl.Written
  | exposure decl => decl.Written

end ContractPart

structure ContractDecl.Gathers (decl : ContractDecl) (parts : List ContractPart) : Prop where
  storage : decl.storage.toList = parts.filterMap (·.storage?)
  event : decl.event.toList = parts.filterMap (·.event?)
  inclusions : decl.inclusions = parts.filterMap (·.inclusion?)
  exposures : decl.exposures = parts.filterMap (·.exposure?)

/-- One more part goes to what there is of its kind. -/
theorem ContractDecl.Gathers.behind {decl more : ContractDecl} {parts : List ContractPart}
    {part : ContractPart} (gathers : decl.Gathers parts)
    (storage : more.storage.toList = decl.storage.toList ++ part.storage?.toList)
    (event : more.event.toList = decl.event.toList ++ part.event?.toList)
    (inclusions : more.inclusions = decl.inclusions ++ part.inclusion?.toList)
    (exposures : more.exposures = decl.exposures ++ part.exposure?.toList) :
    more.Gathers (parts ++ [part]) := by
  constructor
  · rw [storage, gathers.storage, List.filterMap_append]
    rfl
  · rw [event, gathers.event, List.filterMap_append]
    rfl
  · rw [inclusions, gathers.inclusions, List.filterMap_append]
    rfl
  · rw [exposures, gathers.exposures, List.filterMap_append]
    rfl

/-- `'contract' ID '{' part* '}'` -/
def ContractDecl.Written (decl : ContractDecl) (kinds : List TokenKind) : Prop :=
  ∃ parts body, Braced (Sequence ContractPart.Written) parts body ∧ decl.Gathers parts ∧
    kinds = .keyword .contract :: .identifier decl.name.name :: body

def Item.Written : Item → List TokenKind → Prop
  | component decl => decl.Written
  | contract decl => decl.Written

theorem Item.Written.length_pos {item : Item} {kinds : List TokenKind}
    (written : item.Written kinds) : 0 < kinds.length := by
  cases item with
  | component decl => obtain ⟨_, _, _, _, rfl⟩ := written; exact Nat.succ_pos _
  | contract decl => obtain ⟨_, _, _, _, rfl⟩ := written; exact Nat.succ_pos _

/-- `item*` -/
def ItemsWritten : List Item → List TokenKind → Prop := Sequence Item.Written

end Composer
