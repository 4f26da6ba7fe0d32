import Composer.Synthesis.Accessor

/-!
Wrappers: one for each sound inclusion and embeddable implementation. A wrapper implements the
interface for the state of the host. Each method gets the view of the component through the accessor
of the inclusion, for reading or for writing as its receiver asks, and hands its arguments on to the
implementation; the call is the last statement, so its result is the result of the method.
-/

namespace Composer

structure WrapperMethod where
  signature : Signature
  /-- Statements; the last one is the call. -/
  body : List String
deriving DecidableEq, Repr

namespace WrapperMethod

def forward (signature : Signature) (component implName accessor : String) : WrapperMethod :=
  let (view, receiver) := match signature.receiver with
    | .snapshot => ("let component = " ++ accessor ++ "::get_component(self);", "component")
    | .reference =>
        ("let mut component = " ++ accessor ++ "::get_component_mut(ref self);", "ref component")
  let arguments := receiver :: signature.params.map (·.name)
  { signature
    body := [view, component ++ "::" ++ implName ++ "::" ++ signature.name ++ "(" ++
      String.intercalate ", " arguments ++ ")"] }

def header (method : WrapperMethod) (hostState : String) : String :=
  let signature := method.signature
  let receiver := match signature.receiver with
    | .snapshot => "self: @" ++ hostState
    | .reference => "ref self: " ++ hostState
  let params := receiver :: signature.params.map fun param => param.name ++ ": " ++ param.type
  let head := "fn " ++ signature.name ++ "(" ++ String.intercalate ", " params ++ ")"
  match signature.ret with
  | some ret => head ++ " -> " ++ ret
  | none => head

end WrapperMethod

structure Wrapper where
  aliasName : String
  component : String
  implName : String
  interface : String
  accessor : String
  hostState : String
  methods : List WrapperMethod
  span : Span
deriving DecidableEq, Repr

namespace Wrapper

def code (wrapper : Wrapper) : Code :=
  .block ("impl " ++ wrapper.aliasName ++ "<" ++ wrapper.hostState ++ ", " ++ wrapper.accessor ++
      "> of " ++ wrapper.component ++ "::" ++ wrapper.interface ++ "<" ++ wrapper.hostState ++ ">")
    (wrapper.methods.map fun method =>
      .block (method.header wrapper.hostState) (method.body.map .line))

def render (wrapper : Wrapper) : String := wrapper.code.render

end Wrapper

def Implementation.wrapper (impl : Implementation) (component : Component) (accessor : Accessor) :
    Except SynthesisError Wrapper :=
  if accessor.component ≠ component.name then
    .error (.componentMismatch component.name accessor.component)
  else match impl.aliasName, impl.interface with
    | some aliasName, some name =>
        match component.interface? name with
        | none => .error (.unknownInterface component.name name)
        | some interface =>
            .ok { aliasName, component := component.name, implName := impl.name,
                  interface := interface.name, accessor := accessor.name,
                  hostState := accessor.hostState,
                  methods := interface.methods.map fun signature =>
                    .forward signature component.name impl.name accessor.name,
                  span := impl.span }
    | _, _ => .error (.notEmbeddable component.name impl.name)

structure Generated where
  accessor : Accessor
  /-- One wrapper for each embeddable implementation, in order. -/
  wrappers : List Wrapper
deriving DecidableEq, Repr

def Inclusion.generate (inclusion : Inclusion) (component : Component) (host : Host)
    (hostState : String) : Except SynthesisError Generated := do
  let accessor ← inclusion.accessor component host hostState
  let wrappers ← component.embeddable.mapM (·.wrapper component accessor)
  return { accessor, wrappers }

end Composer
