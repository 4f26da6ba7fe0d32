import Composer.Synthesis.Wrapper

/-!
What is generated for a host: accessors and wrappers, which are rendered, and the entry points, which
are listed.
-/

namespace Composer

inductive Access
  | view
  | external
deriving DecidableEq, Repr

def Access.text : Access → String
  | view => "view"
  | external => "external"

def Access.ofReceiver : ReceiverKind → Access
  | .snapshot => view
  | .reference => external

structure EntryPoint where
  name : String
  access : Access
  params : List MethodParam
  ret : Option String
  component : String
  aliasName : String
  /-- The local name of the exposure that brought it. -/
  exposure : String
deriving DecidableEq, Repr

def Wrapper.entryPoints (wrapper : Wrapper) (exposure : String) : List EntryPoint :=
  wrapper.methods.map fun method =>
    { name := method.signature.name
      access := .ofReceiver method.signature.receiver
      params := method.signature.params
      ret := method.signature.ret
      component := wrapper.component
      aliasName := wrapper.aliasName
      exposure }

structure GeneratedCode where
  host : String
  accessors : List Accessor
  wrappers : List Wrapper
  entryPoints : List EntryPoint
deriving DecidableEq, Repr

/-- The accessors and then the wrappers, with an empty line before each. -/
def GeneratedCode.render (output : GeneratedCode) : String :=
  "// contract " ++ output.host ++ "\n" ++
    String.join (output.accessors.map fun accessor => "\n" ++ accessor.render) ++
    String.join (output.wrappers.map fun wrapper => "\n" ++ wrapper.render)

end Composer
