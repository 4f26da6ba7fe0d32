import Composer.Occurrence
import Composer.Diagnostic
import Composer.Model.Host

/-!
From component declarations to components. `ComponentDecl.definition` says what a declaration is as
a component: the first declaration of a name counts, and an implementation of a declared interface
has the methods of that interface. `ComponentDecl.faults` lists everything wrong with a declaration;
where the list is empty the definition is consistent.
-/

namespace Composer

structure Fault where
  defect : Defect
  span : Span
deriving DecidableEq, Repr

/-! ### Methods and interfaces -/

def MethodDecl.signature (decl : MethodDecl) : Signature :=
  { name := decl.name.name
    receiver := decl.receiver.kind
    params := decl.params.map fun param => { name := param.name.name, type := param.type.text }
    ret := decl.ret.map TypeExpr.text }

def signatures (methods : List MethodDecl) : List Signature :=
  (firstsBy (·.name.name) methods).map MethodDecl.signature

def methodFaults (owner : String) (methods : List MethodDecl) : List Fault :=
  (repeatsBy (·.name.name) methods).map fun method =>
    ⟨.duplicateMethod owner method.name.name, method.name.span⟩

def InterfaceDecl.interface (decl : InterfaceDecl) : Interface :=
  { name := decl.name.name, methods := signatures decl.methods, span := decl.span }

def InterfaceDecl.faults (decl : InterfaceDecl) : List Fault :=
  methodFaults decl.name.name decl.methods

/-! ### Implementations -/

namespace ImplDecl

def embeddableAttributes (decl : ImplDecl) : List Attribute :=
  attributesNamed "embeddable_as" decl.attributes

/-- The alias is the first argument of the first `embeddable_as` attribute. -/
def aliasName? (decl : ImplDecl) : Option String :=
  match decl.embeddableAttributes with
  | [] => none
  | first :: _ => first.args.head?.map (·.name)

/-- An alias must be given by one attribute with one argument. -/
def aliasFaults (decl : ImplDecl) : List Fault :=
  match decl.embeddableAttributes with
  | [] => []
  | first :: others =>
      if others ≠ [] ∨ 1 < first.args.length then
        [⟨.multipleAliases decl.name.name, first.span⟩]
      else if first.args = [] then [⟨.missingAlias decl.name.name, first.span⟩]
      else []

def declaredInterface? (decl : ImplDecl) (interfaces : List Interface) : Option Interface :=
  decl.interface.bind fun interface => interfaces.find? (·.name = interface.name)

/-- What an implementation is registered as. The methods of a declared interface take the place of
those that the implementation states again. -/
def implementation (decl : ImplDecl) (interfaces : List Interface) : Implementation :=
  { name := decl.name.name
    interface := decl.interface.map (·.name)
    aliasName := decl.aliasName?
    methods := match decl.declaredInterface? interfaces with
      | some interface => interface.methods
      | none => signatures decl.methods
    span := decl.span }

/-- An implementation of a declared interface states only methods of it again. One with an alias
must be of a declared interface; one without may be of an interface declared elsewhere. -/
def interfaceFaults (decl : ImplDecl) (interfaces : List Interface) : List Fault :=
  match decl.interface with
  | none =>
      if decl.aliasName?.isSome then [⟨.embeddableNotInterface decl.name.name, decl.span⟩] else []
  | some name =>
      match interfaces.find? (·.name = name.name) with
      | some interface =>
          ((signatures decl.methods).filter fun method =>
            !interface.methods.any (·.name = method.name)).map fun method =>
              ⟨.methodNotInInterface decl.name.name interface.name method.name, decl.span⟩
      | none =>
          if decl.aliasName?.isSome then [⟨.unknownInterface decl.name.name name.name, name.span⟩]
          else []

def faults (decl : ImplDecl) (interfaces : List Interface) : List Fault :=
  decl.aliasFaults ++ methodFaults decl.name.name decl.methods ++
    decl.interfaceFaults interfaces

end ImplDecl

/-- The faults of implementations in order; `taken` holds the aliases of earlier ones. -/
def implFaults (interfaces : List Interface) (taken : List String) :
    List ImplDecl → List Fault
  | [] => []
  | decl :: rest =>
      match decl.aliasName? with
      | none => decl.faults interfaces ++ implFaults interfaces taken rest
      | some aliasName =>
          decl.faults interfaces ++
            (if aliasName ∈ taken then [⟨.duplicateAlias aliasName, decl.span⟩] else []) ++
            implFaults interfaces (aliasName :: taken) rest

/-! ### Components -/

def MemberDecl.field (decl : MemberDecl) : StorageField :=
  { name := decl.name.name, type := decl.type.text, span := decl.span }

namespace ComponentDecl

def declaredInterfaces (decl : ComponentDecl) : List Interface :=
  decl.interfaces.map InterfaceDecl.interface

def definition (decl : ComponentDecl) (file : String) : Component :=
  { name := decl.name.name
    file := file
    storage :=
      (firstsBy (·.name.name) (storageMembers decl.storage)).map MemberDecl.field
    events := (firstsBy (·.name.name) (eventVariants decl.event)).map VariantDecl.variant
    interfaces := decl.declaredInterfaces
    impls := decl.impls.map (·.implementation decl.declaredInterfaces)
    span := decl.span }

def faults (decl : ComponentDecl) : List Fault :=
  ((repeatsBy (·.name.name) (storageMembers decl.storage)).map fun member =>
      ⟨.duplicateStorageField member.name.name, member.name.span⟩) ++
    ((repeatsBy (·.name.name) (eventVariants decl.event)).map fun variant =>
      ⟨.duplicateEventVariant variant.name.name, variant.name.span⟩) ++
    decl.interfaces.flatMap InterfaceDecl.faults ++
    implFaults decl.declaredInterfaces [] decl.impls

end ComponentDecl

end Composer
