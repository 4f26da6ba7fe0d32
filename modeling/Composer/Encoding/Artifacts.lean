import Composer.Compilation
import Composer.Encoding.Model
import Composer.Encoding.SourceMap

/-!
The JSON forms of generated code and of the result of a compilation.
-/

namespace Composer

def Prelude.toJson (prelude : Prelude) : Json :=
  .object [("component", .string prelude.component),
    ("fields", .ofList (fun (name, type) => .array [.string name, .string type]) prelude.fields)]

def Accessor.toJson (accessor : Accessor) : Json :=
  .object [("name", .string accessor.name),
    ("component", .string accessor.component),
    ("host", .string accessor.host),
    ("host_state", .string accessor.hostState),
    ("storage_field", .string accessor.storageField),
    ("event_variant", .string accessor.eventVariant),
    ("layout", .string accessor.layout.text),
    ("span", accessor.span.toJson)]

def WrapperMethod.toJson (method : WrapperMethod) : Json :=
  .object [("signature", method.signature.toJson), ("body", .ofList .string method.body)]

def Wrapper.toJson (wrapper : Wrapper) : Json :=
  .object [("alias", .string wrapper.aliasName),
    ("component", .string wrapper.component),
    ("impl_name", .string wrapper.implName),
    ("interface", .string wrapper.interface),
    ("accessor", .string wrapper.accessor),
    ("host_state", .string wrapper.hostState),
    ("methods", .ofList WrapperMethod.toJson wrapper.methods),
    ("span", wrapper.span.toJson)]

def EntryPoint.toJson (entry : EntryPoint) : Json :=
  .object [("name", .string entry.name),
    ("kind", .string entry.access.text),
    ("params", .ofList MethodParam.toJson entry.params),
    ("ret", .ofOption .string entry.ret),
    ("component", .string entry.component),
    ("alias", .string entry.aliasName),
    ("exposure", .string entry.exposure)]

def GeneratedCode.toJson (output : GeneratedCode) : Json :=
  .object [("host", .string output.host),
    ("accessors", .ofList Accessor.toJson output.accessors),
    ("wrappers", .ofList Wrapper.toJson output.wrappers),
    ("entry_points", .ofList EntryPoint.toJson output.entryPoints)]

def InclusionReport.toJson (report : InclusionReport) : Json :=
  .object [("component", .string report.component),
    ("storage_field", .string report.storageField),
    ("event_variant", .string report.eventVariant),
    ("state", .string report.state.text)]

def Exposed.toJson (exposed : Exposed) : Json :=
  .object [("local_name", .string exposed.localName),
    ("component", .string exposed.component),
    ("alias", .string exposed.aliasName),
    ("accessor", .string exposed.accessor),
    ("embedded", .bool exposed.embedded),
    ("span", exposed.span.toJson)]

def CompiledHost.toJson (artifacts : CompiledHost) : Json :=
  .object [("name", .string artifacts.name),
    ("file", .string artifacts.file),
    ("bindings", .ofList InclusionReport.toJson artifacts.inclusions),
    ("exposed", .ofList Exposed.toJson artifacts.exposed),
    ("output", artifacts.output.toJson),
    ("source_map", artifacts.sourceMap.toJson),
    ("rendered", .string artifacts.rendered),
    ("fingerprint", .string artifacts.fingerprint)]

def Compilation.toJson (compilation : Compilation) : Json :=
  .object [("success", .bool compilation.success),
    ("preludes", .ofList Prelude.toJson compilation.preludes),
    ("hosts", .ofList CompiledHost.toJson compilation.hosts),
    ("errors", compilation.log.toJson)]

end Composer
