import Composer.Model.Definition

/-!
The registry of components. A declaration without faults is registered; one with faults is refused
and its name remembered. The first declaration of a name decides for that name: later ones are
refused as duplicates, whether the first was registered or not.
-/

namespace Composer

structure Registry where
  components : List Component
  rejected : List String
deriving DecidableEq, Repr

namespace Registry

def empty : Registry := ⟨[], []⟩

def get? (registry : Registry) (name : String) : Option Component :=
  registry.components.find? (·.name = name)

def isRejected (registry : Registry) (name : String) : Bool := registry.rejected.contains name

/-- Registers a declaration, or gives the diagnostics against it. -/
def register (registry : Registry) (decl : ComponentDecl) (file : String) :
    Except (List Diagnostic) Component × Registry :=
  let name := decl.name.name
  if (registry.get? name).isSome || registry.isRejected name then
    (.error [.malformedComponent name .duplicateComponent decl.name.span], registry)
  else match decl.faults with
    | [] =>
        let component := decl.definition file
        (.ok component, { registry with components := registry.components ++ [component] })
    | faults =>
        (.error (faults.map fun fault => .malformedComponent name fault.defect fault.span),
          { registry with rejected := name :: registry.rejected })

def add (registry : Registry) (decl : ComponentDecl) (file : String) : Registry :=
  (registry.register decl file).2

def refusals (registry : Registry) (decl : ComponentDecl) (file : String) : List Diagnostic :=
  match (registry.register decl file).1 with
  | .ok _ => []
  | .error diagnostics => diagnostics

end Registry

end Composer
