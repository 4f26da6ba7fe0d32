import Composer.Model.Component

/-!
A host is what a contract declares, in order of declaration and without any judgement: its storage
members and event variants, the components it includes and the implementations it exposes.
-/

namespace Composer

/-- Where the fields of an included component live. -/
inductive Layout
  /-- Among the members of the host itself. -/
  | flat
  /-- In the name space of the member that holds them. -/
  | nested
deriving DecidableEq, Repr

namespace Layout

def version : Layout → String
  | flat => "v0"
  | nested => "v1"

def ofVersion? (version : String) : Option Layout :=
  if version = "v0" then some flat else if version = "v1" then some nested else none

def text : Layout → String
  | flat => "flat"
  | nested => "nested"

end Layout

inductive Substorage
  | native
  | layout (layout : Layout)
  | unknownVersion (version : String)
deriving DecidableEq, Repr

namespace Substorage

def ofVersion (version : String) : Substorage :=
  match Layout.ofVersion? version with
  | some known => layout known
  | none => unknownVersion version

def layout? : Substorage → Option Layout
  | layout known => some known
  | _ => none

end Substorage

structure HostMember where
  name : String
  type : String
  substorage : Substorage
  span : Span
deriving DecidableEq, Repr

namespace HostMember

def layout? (member : HostMember) : Option Layout := member.substorage.layout?

def isNative (member : HostMember) : Bool := member.substorage = .native

end HostMember

/-- One inclusion of a component: its storage goes to a member, its events under a variant. -/
structure Inclusion where
  component : String
  storageField : String
  eventVariant : String
  span : Span
deriving DecidableEq, Repr

def accessorNameOf (storageField : String) : String := "HasComponentImpl_" ++ storageField

def Inclusion.accessorName (inclusion : Inclusion) : String :=
  accessorNameOf inclusion.storageField

structure Exposure where
  localName : String
  path : List String
  generics : List String
  embedded : Bool
  span : Span
deriving DecidableEq, Repr

def Exposure.pathText (exposure : Exposure) : String := String.intercalate "::" exposure.path

structure Host where
  name : String
  file : String
  span : Span
  storage : List HostMember
  events : List EventVariant
  exposures : List Exposure
  inclusions : List Inclusion
deriving DecidableEq, Repr

namespace Host

def member? (host : Host) (name : String) : Option HostMember :=
  host.storage.find? (·.name = name)

def variant? (host : Host) (name : String) : Option EventVariant :=
  host.events.find? (·.name = name)

def inclusionsOf (host : Host) (component : String) : List Inclusion :=
  host.inclusions.filter (·.component = component)

end Host

/-! ### Hosts of contract declarations -/

def VariantDecl.variant (decl : VariantDecl) : EventVariant :=
  { name := decl.name.name, payload := decl.payload.map TypeExpr.text, span := decl.span }

def attributesNamed (name : String) (attributes : List Attribute) : List Attribute :=
  attributes.filter (·.name.name = name)

/-- The first `substorage` attribute decides; without argument its version is empty. -/
def substorageOf (attributes : List Attribute) : Substorage :=
  match attributesNamed "substorage" attributes with
  | [] => .native
  | first :: _ => .ofVersion ((first.args.head?.map (·.name)).getD "")

def MemberDecl.hostMember (decl : MemberDecl) : HostMember :=
  { name := decl.name.name, type := decl.type.text, substorage := substorageOf decl.attributes,
    span := decl.span }

def InclusionDecl.inclusion (decl : InclusionDecl) : Inclusion :=
  { component := decl.path.name, storageField := decl.storage.name,
    eventVariant := decl.event.name, span := decl.span }

/-- An exposure is embedded when an `abi` attribute lists `embed_v0`. -/
def ExposureDecl.exposure (decl : ExposureDecl) : Exposure :=
  { localName := decl.localName.name
    path := decl.target.segments.map (·.name)
    generics := decl.target.generics.map TypeExpr.text
    embedded := (attributesNamed "abi" decl.attributes).any fun abi =>
      abi.args.any (·.name = "embed_v0")
    span := decl.span }

def storageMembers (block : Option StorageBlock) : List MemberDecl :=
  match block with
  | some block => block.members
  | none => []

def eventVariants (block : Option EventBlock) : List VariantDecl :=
  match block with
  | some block => block.variants
  | none => []

def ContractDecl.host (decl : ContractDecl) (file : String) : Host :=
  { name := decl.name.name
    file := file
    span := decl.span
    storage := (storageMembers decl.storage).map MemberDecl.hostMember
    events := (eventVariants decl.event).map VariantDecl.variant
    exposures := decl.exposures.map ExposureDecl.exposure
    inclusions := decl.inclusions.map InclusionDecl.inclusion }

inductive InclusionState
  | declared
  | validating
  | invalid
  | valid
  | accessorSynthesized
  | wrapperSynthesized
deriving DecidableEq, Repr

namespace InclusionState

def all : List InclusionState :=
  [declared, validating, invalid, valid, accessorSynthesized, wrapperSynthesized]

def text : InclusionState → String
  | declared => "declared"
  | validating => "validating"
  | invalid => "invalid"
  | valid => "valid"
  | accessorSynthesized => "accessor_synthesized"
  | wrapperSynthesized => "wrapper_synthesized"

def ofText? (word : String) : Option InclusionState := all.find? (·.text = word)

def hasAccessor : InclusionState → Bool
  | accessorSynthesized | wrapperSynthesized => true
  | _ => false

def isTerminal (state : InclusionState) : Bool := state = invalid || state.hasAccessor

end InclusionState

end Composer
