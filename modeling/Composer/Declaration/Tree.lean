import Composer.Source.Span

/-!
The tree of a declaration file. Components bring storage, events, interfaces and implementations;
contracts include components and expose their implementations. Every node has the span of source
text it was read from, and all lists are in source order.
-/

namespace Composer

structure Ident where
  name : String
  span : Span
deriving DecidableEq, Repr

/-- An attribute `#[name]` or `#[name(arg, ..)]`. -/
structure Attribute where
  name : Ident
  args : List Ident
  span : Span
deriving DecidableEq, Repr

/-- A type: a path `a::b::C<T, U>`, a snapshot `@T` or a tuple `(A, B)`; the empty tuple is the unit
type. -/
inductive TypeExpr
  | path (segments : List Ident) (generics : List TypeExpr) (span : Span)
  | snapshot (inner : TypeExpr) (span : Span)
  | tuple (items : List TypeExpr) (span : Span)
deriving Repr, Inhabited

namespace TypeExpr

def span : TypeExpr → Span
  | path _ _ span => span
  | snapshot _ span => span
  | tuple _ span => span

def pathText (segments : List Ident) : String :=
  String.intercalate "::" (segments.map (·.name))

mutual

/-- The spelling of a type, with one space behind each comma and no other. -/
def text : TypeExpr → String
  | path segments generics _ =>
      match texts generics with
      | [] => pathText segments
      | arguments => pathText segments ++ "<" ++ String.intercalate ", " arguments ++ ">"
  | snapshot inner _ => "@" ++ inner.text
  | tuple items _ => "(" ++ String.intercalate ", " (texts items) ++ ")"

def texts : List TypeExpr → List String
  | [] => []
  | type :: rest => type.text :: texts rest

end

end TypeExpr

structure TypePath where
  segments : List Ident
  generics : List TypeExpr
  span : Span
deriving Repr

def TypePath.toType (path : TypePath) : TypeExpr := .path path.segments path.generics path.span

/-- How a method takes the state: `self: @T` looks at it, `ref self: T` may change it. -/
inductive ReceiverKind
  | snapshot
  | reference
deriving DecidableEq, Repr

structure Receiver where
  kind : ReceiverKind
  type : TypeExpr
  span : Span
deriving Repr

structure Param where
  name : Ident
  type : TypeExpr
  span : Span
deriving Repr

/-- `fn name(receiver, param: Type, ..) -> Ret;` -/
structure MethodDecl where
  name : Ident
  receiver : Receiver
  params : List Param
  ret : Option TypeExpr
  span : Span
deriving Repr

structure MemberDecl where
  attributes : List Attribute
  name : Ident
  type : TypeExpr
  span : Span
deriving Repr

/-- `storage { name: Type, .. }` -/
structure StorageBlock where
  members : List MemberDecl
  span : Span
deriving Repr

structure VariantDecl where
  attributes : List Attribute
  name : Ident
  payload : Option TypeExpr
  span : Span
deriving Repr

/-- `event { Variant: Payload, Unit, .. }` -/
structure EventBlock where
  variants : List VariantDecl
  span : Span
deriving Repr

/-- `interface Name { fn ..; }` -/
structure InterfaceDecl where
  name : Ident
  methods : List MethodDecl
  span : Span
deriving Repr

/-- `impl Name of Interface;`, `impl Name of Interface { .. }` or `impl Name { .. }` -/
structure ImplDecl where
  attributes : List Attribute
  name : Ident
  interface : Option Ident
  methods : List MethodDecl
  span : Span
deriving Repr

structure ComponentDecl where
  name : Ident
  storage : Option StorageBlock
  event : Option EventBlock
  interfaces : List InterfaceDecl
  impls : List ImplDecl
  span : Span
deriving Repr

/-- `component!(path: p, storage: s, event: E);` -/
structure InclusionDecl where
  path : Ident
  storage : Ident
  event : Ident
  span : Span
deriving DecidableEq, Repr

/-- `#[abi(embed_v0)] impl Local = path::Alias<State>;` -/
structure ExposureDecl where
  attributes : List Attribute
  localName : Ident
  target : TypePath
  span : Span
deriving Repr

structure ContractDecl where
  name : Ident
  inclusions : List InclusionDecl
  exposures : List ExposureDecl
  storage : Option StorageBlock
  event : Option EventBlock
  span : Span
deriving Repr

inductive Item
  | component (decl : ComponentDecl)
  | contract (decl : ContractDecl)
deriving Repr

structure DeclarationFile where
  items : List Item
  span : Span
deriving Repr

namespace DeclarationFile

def components (file : DeclarationFile) : List ComponentDecl :=
  file.items.filterMap fun
    | .component decl => some decl
    | .contract _ => none

def contracts (file : DeclarationFile) : List ContractDecl :=
  file.items.filterMap fun
    | .contract decl => some decl
    | .component _ => none

end DeclarationFile

end Composer
