import Composer.Registry
import Composer.Synthesis.Output

/-!
The surface of a host: what its exposures take from the included components. An exposure
`impl Local = component::Alias<State>;` picks a wrapper of the host; `Host.select` says which one, by
itself. `Host.surface` goes through all exposures in order and collects the entry points of those that
are embedded. A name is an entry point once: the first to bring it keeps it.
-/

namespace Composer

structure Exposed where
  localName : String
  component : String
  aliasName : String
  accessor : String
  embedded : Bool
  span : Span
deriving DecidableEq, Repr

inductive Selection
  | wrapper (wrapper : Wrapper)
  | refused (diagnostic : Diagnostic)
  /-- Nothing, for a reason that was reported before. -/
  | silent
deriving DecidableEq, Repr

structure Surface where
  exposed : List Exposed
  entryPoints : List EntryPoint
  diagnostics : List Diagnostic
deriving DecidableEq, Repr

namespace Exposure

/-- The component and the alias that a path names: its first and its last segment, of at least two. -/
def target? (exposure : Exposure) : Option (String × String) :=
  match exposure.path with
  | first :: second :: rest => some (first, (second :: rest).getLastD second)
  | _ => none

/-- The report that nothing of this path can be taken, with the aliases that could be. -/
def unresolved (exposure : Exposure) (host : String) (available : List String) : Selection :=
  .refused (.unresolvedAlias host exposure.pathText available exposure.span)

def take (exposure : Exposure) (wrapper : Wrapper) : Exposed :=
  { localName := exposure.localName, component := wrapper.component,
    aliasName := wrapper.aliasName, accessor := wrapper.accessor,
    embedded := exposure.embedded, span := exposure.span }

def offers (exposure : Exposure) (wrapper : Wrapper) : List EntryPoint :=
  if exposure.embedded then wrapper.entryPoints exposure.localName else []

end Exposure

/-- The wrapper of an alias among what was generated for the inclusion of the given index. -/
def wrapperAt? (generated : List (Option Generated)) (index : Nat) (aliasName : String) :
    Option Wrapper := do
  let produced ← generated[index]?
  (← produced).wrappers.find? (·.aliasName = aliasName)

/-- The wrapper at an index; where there is none, that was reported with the inclusion. -/
def Selection.ofIndex (generated : List (Option Generated)) (aliasName : String) (index : Nat) :
    Selection :=
  match wrapperAt? generated index aliasName with
  | some found => .wrapper found
  | none => .silent

namespace Host

/-- Picks one of the inclusions of a component, each with its index: the one that a second generic
argument names by its accessor, or else the only one. -/
def selectInclusion (host : Host) (generated : List (Option Generated)) (exposure : Exposure)
    (component : Component) (aliasName : String) (bound : List (Inclusion × Nat)) : Selection :=
  match exposure.generics[1]?, bound with
  | some accessor, _ =>
      match bound.find? (·.1.accessorName = accessor) with
      | some (_, index) => .ofIndex generated aliasName index
      | none => exposure.unresolved host.name []
  | none, [(_, index)] => .ofIndex generated aliasName index
  | none, _ =>
      .refused (.ambiguousExposure host.name component.name (bound.map (·.1.accessorName))
        exposure.span)

/-- What an exposure picks. The path must name a component that the host includes and an alias of it,
and the first generic argument must be the state of the contract. -/
def select (host : Host) (registry : Registry) (generated : List (Option Generated))
    (contractState : String) (exposure : Exposure) : Selection :=
  match exposure.target? with
  | none => exposure.unresolved host.name []
  | some (name, aliasName) =>
      let bound := host.inclusions.zipIdx.filter (·.1.component = name)
      match registry.get? name with
      | none => if bound = [] then exposure.unresolved host.name [] else .silent
      | some component =>
          if bound = [] ∨ component.embeddableAs? aliasName = none then
            exposure.unresolved host.name component.aliases
          else if exposure.generics.head? ≠ some contractState then
            .refused (.hostTypeMismatch host.name contractState
              (exposure.generics.head?.getD "()") exposure.span)
          else host.selectInclusion generated exposure component aliasName bound

/-- Goes through exposures in order; `taken` holds the names of the entry points so far. -/
def surfaceAfter (host : Host) (registry : Registry) (generated : List (Option Generated))
    (contractState : String) : List String → List Exposure → Surface
  | _, [] => ⟨[], [], []⟩
  | taken, exposure :: rest =>
      match host.select registry generated contractState exposure with
      | .silent => host.surfaceAfter registry generated contractState taken rest
      | .refused diagnostic =>
          let later := host.surfaceAfter registry generated contractState taken rest
          { later with diagnostics := diagnostic :: later.diagnostics }
      | .wrapper wrapper =>
          let offered := exposure.offers wrapper
          let entries := firstsAfter (·.name) taken offered
          let later := host.surfaceAfter registry generated contractState
            (entries.map (·.name) ++ taken) rest
          { exposed := exposure.take wrapper :: later.exposed
            entryPoints := entries ++ later.entryPoints
            diagnostics :=
              ((repeatsAfter (·.name) taken offered).map fun entry =>
                .duplicateEntryPoint host.name entry.name exposure.span) ++ later.diagnostics }

def surface (host : Host) (registry : Registry) (generated : List (Option Generated))
    (contractState : String) : Surface :=
  host.surfaceAfter registry generated contractState [] host.exposures

end Host

end Composer
