import Composer.Model.Host
import Composer.Synthesis.Code
import Composer.Synthesis.Error

/-!
Accessors: one for each sound inclusion. An accessor leads from the state of the host to the view of
a component and back, and hands the events of the component to the host under the variant of the
inclusion.
-/

namespace Composer

structure Accessor where
  name : String
  component : String
  host : String
  hostState : String
  storageField : String
  eventVariant : String
  layout : Layout
  span : Span
deriving DecidableEq, Repr

namespace Accessor

def viewType (accessor : Accessor) : String :=
  accessor.component ++ "::ComponentState<" ++ accessor.hostState ++ ">"

def location (accessor : Accessor) : String :=
  match accessor.layout with
  | .flat => "flat"
  | .nested => "nested(" ++ accessor.storageField ++ ")"

def code (accessor : Accessor) : Code :=
  let component := accessor.component
  let host := accessor.hostState
  let view := accessor.viewType
  .block ("impl " ++ accessor.name ++ " of " ++ component ++ "::HasComponent<" ++ host ++ ">")
    [.block ("fn get_component(self: @" ++ host ++ ") -> @" ++ view)
      [.line ("@" ++ component ++ "::ComponentState::at(self, " ++ accessor.location ++ ")")],
    .block ("fn get_component_mut(ref self: " ++ host ++ ") -> " ++ view)
      [.line (component ++ "::ComponentState::at_mut(ref self, " ++ accessor.location ++ ")")],
    .block ("fn get_contract(self: @" ++ view ++ ") -> @" ++ host) [.line "self.contract"],
    .block ("fn get_contract_mut(ref self: " ++ view ++ ") -> " ++ host) [.line "self.contract"],
    .block ("fn emit<S, +Into<S, " ++ component ++ "::Event>>(ref self: " ++ view ++ ", event: S)")
      [.line ("let event: " ++ component ++ "::Event = Into::into(event);"),
      .line ("let mut contract = " ++ accessor.name ++ "::get_contract_mut(ref self);"),
      .line ("contract.emit(Event::" ++ accessor.eventVariant ++ "(event));")]]

def render (accessor : Accessor) : String := accessor.code.render

end Accessor

/-- The accessor of an inclusion, under the layout of the member that holds the component. -/
def Inclusion.accessor (inclusion : Inclusion) (component : Component) (host : Host)
    (hostState : String) : Except SynthesisError Accessor :=
  if inclusion.component ≠ component.name then
    .error (.componentMismatch component.name inclusion.component)
  else match (host.member? inclusion.storageField).bind (·.layout?) with
    | none => .error (.missingSubstorage host.name inclusion.storageField)
    | some layout =>
        .ok { name := inclusion.accessorName, component := component.name, host := host.name,
              hostState, storageField := inclusion.storageField,
              eventVariant := inclusion.eventVariant, layout, span := inclusion.span }

end Composer
