import Composer.Model.Component
import Composer.Synthesis.Code

/-!
The prelude of a component: the view of its storage inside any contract, and the trait through which
an accessor reaches that view.
-/

namespace Composer

structure Prelude where
  component : String
  /-- Names and types of the storage fields, in order. -/
  fields : List (String × String)
deriving DecidableEq, Repr

def Component.prelude (component : Component) : Prelude :=
  { component := component.name
    fields := component.storage.map fun field => (field.name, field.type) }

namespace Prelude

def code (prelude : Prelude) : Code :=
  .block ("mod " ++ prelude.component)
    [.block "pub struct ComponentState<TContractState>"
      (.line "pub contract: TContractState," ::
        prelude.fields.map fun (name, type) =>
          .line ("pub " ++ name ++ ": StorageSlot<" ++ type ++ ">,")),
    .line "",
    .block "pub trait HasComponent<TContractState>"
      [.line "fn get_component(self: @TContractState) -> @ComponentState<TContractState>;",
      .line ("fn get_component_mut(ref self: TContractState) -> " ++
        "ComponentState<TContractState>;"),
      .line "fn get_contract(self: @ComponentState<TContractState>) -> @TContractState;",
      .line ("fn get_contract_mut(ref self: ComponentState<TContractState>) -> " ++
        "TContractState;"),
      .line ("fn emit<S, +Into<S, Event>>(ref self: ComponentState<TContractState>, " ++
        "event: S);")]]

def render (prelude : Prelude) : String := prelude.code.render

end Prelude

end Composer
