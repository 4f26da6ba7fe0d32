import Composer.Declaration.Tree

/-!
Components as the rest of the compiler sees them: names and spelled-out types instead of tree nodes.
-/

namespace Composer

structure StorageField where
  name : String
  type : String
  span : Span
deriving DecidableEq, Repr

structure EventVariant where
  name : String
  payload : Option String
  span : Span
deriving DecidableEq, Repr

structure MethodParam where
  name : String
  type : String
deriving DecidableEq, Repr

/-- A method without its body; the receiver is reduced to what it may do. -/
structure Signature where
  name : String
  receiver : ReceiverKind
  params : List MethodParam
  ret : Option String
deriving DecidableEq, Repr

structure Interface where
  name : String
  methods : List Signature
  span : Span
deriving DecidableEq, Repr

structure Implementation where
  name : String
  /-- The interface it implements; an inherent implementation has none. -/
  interface : Option String
  /-- The public name of its wrappers, present just where it may be embedded. -/
  aliasName : Option String
  /-- The methods, in the order of the interface where it is declared in the component. -/
  methods : List Signature
  span : Span
deriving DecidableEq, Repr

def Implementation.isEmbeddable (impl : Implementation) : Bool := impl.aliasName.isSome

structure Component where
  name : String
  file : String
  storage : List StorageField
  events : List EventVariant
  interfaces : List Interface
  impls : List Implementation
  span : Span
deriving DecidableEq, Repr

namespace Component

def storageTypeOf (name : String) : String := name ++ "::Storage"

def eventTypeOf (name : String) : String := name ++ "::Event"

def storageType (component : Component) : String := storageTypeOf component.name

def eventType (component : Component) : String := eventTypeOf component.name

def field? (component : Component) (name : String) : Option StorageField :=
  component.storage.find? (·.name = name)

def variant? (component : Component) (name : String) : Option EventVariant :=
  component.events.find? (·.name = name)

def interface? (component : Component) (name : String) : Option Interface :=
  component.interfaces.find? (·.name = name)

def embeddable (component : Component) : List Implementation :=
  component.impls.filter (·.isEmbeddable)

/-- The implementation that wrappers bring under a public name. -/
def embeddableAs? (component : Component) (aliasName : String) : Option Implementation :=
  component.impls.find? (·.aliasName = some aliasName)

def aliases (component : Component) : List String := component.impls.filterMap (·.aliasName)

end Component

end Composer
