import Composer.Model.Host
import Composer.Encoding.Report

/-!
The JSON forms of components and hosts.
-/

namespace Composer

def ReceiverKind.text : ReceiverKind → String
  | snapshot => "snapshot"
  | reference => "ref"

def MethodParam.toJson (param : MethodParam) : Json :=
  .object [("name", .string param.name), ("ty", .string param.type)]

def Signature.toJson (signature : Signature) : Json :=
  .object [("name", .string signature.name),
    ("receiver", .string signature.receiver.text),
    ("params", .ofList MethodParam.toJson signature.params),
    ("ret", .ofOption .string signature.ret)]

def StorageField.toJson (field : StorageField) : Json :=
  .object [("name", .string field.name), ("ty", .string field.type), ("span", field.span.toJson)]

def EventVariant.toJson (variant : EventVariant) : Json :=
  .object [("name", .string variant.name), ("payload", .ofOption .string variant.payload),
    ("span", variant.span.toJson)]

def Interface.toJson (interface : Interface) : Json :=
  .object [("name", .string interface.name),
    ("methods", .ofList Signature.toJson interface.methods), ("span", interface.span.toJson)]

def Implementation.toJson (impl : Implementation) : Json :=
  .object [("name", .string impl.name), ("interface", .ofOption .string impl.interface),
    ("alias", .ofOption .string impl.aliasName), ("methods", .ofList Signature.toJson impl.methods),
    ("span", impl.span.toJson)]

def Component.toJson (component : Component) : Json :=
  .object [("name", .string component.name),
    ("file", .string component.file),
    ("storage", .object [("fields", .ofList StorageField.toJson component.storage)]),
    ("events", .object [("variants", .ofList EventVariant.toJson component.events)]),
    ("interfaces", .ofList Interface.toJson component.interfaces),
    ("impls", .ofList Implementation.toJson component.impls),
    ("span", component.span.toJson)]

/-- Nothing for a member of the host itself, else the layout or the version that names none. -/
def Substorage.toJson : Substorage → Json
  | native => .null
  | layout known => .object [("Ok", .string known.text)]
  | unknownVersion version => .object [("Err", .string version)]

def HostMember.toJson (member : HostMember) : Json :=
  .object [("name", .string member.name), ("ty", .string member.type),
    ("substorage", member.substorage.toJson), ("span", member.span.toJson)]

def Inclusion.toJson (inclusion : Inclusion) : Json :=
  .object [("component", .string inclusion.component),
    ("storage_field", .string inclusion.storageField),
    ("event_variant", .string inclusion.eventVariant), ("span", inclusion.span.toJson)]

def Exposure.toJson (exposure : Exposure) : Json :=
  .object [("local_name", .string exposure.localName),
    ("path", .ofList .string exposure.path),
    ("generics", .ofList .string exposure.generics),
    ("embedded", .bool exposure.embedded), ("span", exposure.span.toJson)]

def Host.toJson (host : Host) : Json :=
  .object [("name", .string host.name),
    ("file", .string host.file),
    ("span", host.span.toJson),
    ("storage", .ofList HostMember.toJson host.storage),
    ("events", .ofList EventVariant.toJson host.events),
    ("exposures", .ofList Exposure.toJson host.exposures),
    ("bindings", .ofList Inclusion.toJson host.inclusions)]

end Composer
