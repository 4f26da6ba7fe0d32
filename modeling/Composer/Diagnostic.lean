import Composer.Report.Log

/-!
Diagnostics: the causes for which a component is refused, an inclusion is unsound or an exposure
cannot be resolved. Everything before the final report works on these values; their wording and the
fix that a report suggests are given here and nowhere else.
-/

namespace Composer

inductive Defect
  | duplicateStorageField (field : String)
  | duplicateEventVariant (variant : String)
  | embeddableNotInterface (implName : String)
  | unknownInterface (implName interface : String)
  | multipleAliases (implName : String)
  | missingAlias (implName : String)
  | duplicateAlias (aliasName : String)
  | duplicateMethod (owner method : String)
  | methodNotInInterface (implName interface method : String)
  | duplicateComponent
deriving DecidableEq, Repr

namespace Defect

def code : Defect → ErrorCode
  | duplicateStorageField _ => .duplicateStorageField
  | duplicateEventVariant _ => .duplicateEventVariant
  | embeddableNotInterface _ => .embeddableNotInterface
  | unknownInterface _ _ => .unknownInterface
  | multipleAliases _ => .multipleAliases
  | missingAlias _ => .missingAlias
  | duplicateAlias _ => .duplicateAlias
  | duplicateMethod _ _ => .duplicateMethod
  | methodNotInInterface _ _ _ => .methodNotInInterface
  | duplicateComponent => .duplicateComponent

def describe : Defect → String
  | duplicateStorageField field =>
      "storage field '" ++ field ++ "' is declared more than once"
  | duplicateEventVariant variant =>
      "event variant '" ++ variant ++ "' is declared more than once"
  | embeddableNotInterface implName =>
      "#[embeddable_as] on impl '" ++ implName ++ "', which does not implement an interface"
  | unknownInterface implName interface =>
      "#[embeddable_as] on impl '" ++ implName ++ "' of '" ++ interface ++
        "', which is not an interface declared in this component"
  | multipleAliases implName =>
      "impl '" ++ implName ++ "' carries more than one #[embeddable_as] alias"
  | missingAlias implName => "#[embeddable_as] on impl '" ++ implName ++ "' names no alias"
  | duplicateAlias aliasName => "embeddable alias '" ++ aliasName ++ "' is used by more than one impl"
  | duplicateMethod owner method =>
      "method '" ++ method ++ "' is declared more than once in '" ++ owner ++ "'"
  | methodNotInInterface implName interface method =>
      "impl '" ++ implName ++ "' declares method '" ++ method ++ "', which interface '" ++
        interface ++ "' does not have"
  | duplicateComponent => "a component with this name is already registered"

end Defect

inductive Diagnostic
  | malformedComponent (component : String) (defect : Defect) (span : Span)
  | unknownComponent (host component : String) (span : Span)
  /-- The declaration is what the host's storage lacks. -/
  | missingSubstorageMember (host component member declaration : String) (span : Span)
  /-- The declaration is what the host's event block lacks. -/
  | missingNestedEvent (host component variant declaration : String) (span : Span)
  | aliasedSubstorage (host component member : String) (span : Span)
  | duplicateEventBinding (host component variant : String) (span : Span)
  /-- The owner is described as the message shows it. -/
  | storageCollision (host component field owner : String) (span : Span)
  /-- Lists the aliases that the named component does export, if it is bound. -/
  | unresolvedAlias (host path : String) (available : List String) (span : Span)
  | ambiguousExposure (host component : String) (accessors : List String) (span : Span)
  | hostTypeMismatch (host expected found : String) (span : Span)
  | duplicateEntryPoint (host entryPoint : String) (span : Span)
  | duplicateHostMember (host member : String) (span : Span)
  | duplicateHostVariant (host variant : String) (span : Span)
  | duplicateContract (host : String) (span : Span)
deriving DecidableEq, Repr

namespace Diagnostic

def code : Diagnostic → ErrorCode
  | malformedComponent _ defect _ => defect.code
  | unknownComponent .. => .unknownComponent
  | missingSubstorageMember .. => .missingSubstorageMember
  | missingNestedEvent .. => .missingNestedEvent
  | aliasedSubstorage .. => .aliasedSubstorage
  | duplicateEventBinding .. => .duplicateEventBinding
  | storageCollision .. => .storageCollision
  | unresolvedAlias .. => .unresolvedAlias
  | ambiguousExposure .. => .ambiguousExposure
  | hostTypeMismatch .. => .hostTypeMismatch
  | duplicateEntryPoint .. => .duplicateEntryPoint
  | duplicateHostMember .. => .duplicateHostMember
  | duplicateHostVariant .. => .duplicateHostVariant
  | duplicateContract .. => .duplicateContract

def span : Diagnostic → Span
  | malformedComponent _ _ span => span
  | unknownComponent _ _ span => span
  | missingSubstorageMember _ _ _ _ span => span
  | missingNestedEvent _ _ _ _ span => span
  | aliasedSubstorage _ _ _ span => span
  | duplicateEventBinding _ _ _ span => span
  | storageCollision _ _ _ _ span => span
  | unresolvedAlias _ _ _ span => span
  | ambiguousExposure _ _ _ span => span
  | hostTypeMismatch _ _ _ span => span
  | duplicateEntryPoint _ _ span => span
  | duplicateHostMember _ _ span => span
  | duplicateHostVariant _ _ span => span
  | duplicateContract _ span => span

def message : Diagnostic → String
  | malformedComponent component defect _ =>
      "malformed component '" ++ component ++ "': " ++ defect.describe
  | unknownComponent host component _ =>
      "component '" ++ component ++ "' included by '" ++ host ++ "' was not found"
  | missingSubstorageMember _ _ member declaration _ =>
      member ++ " is not a substorage member in the contract's Storage. " ++
        "Consider adding to Storage: " ++ declaration
  | missingNestedEvent _ _ variant declaration _ =>
      variant ++ " is not a nested event in the contract's Event enum. " ++
        "Consider adding to the Event enum: " ++ declaration
  | aliasedSubstorage _ component member _ =>
      "storage member '" ++ member ++ "' already holds another inclusion; component '" ++
        component ++ "' needs its own member"
  | duplicateEventBinding _ component variant _ =>
      "event variant '" ++ variant ++ "' already nests another inclusion's events; component '" ++
        component ++ "' needs its own variant"
  | storageCollision _ component field owner _ =>
      "storage field '" ++ field ++ "' of component '" ++ component ++
        "' collides with a member of " ++ owner ++ " under the flat substorage layout"
  | unresolvedAlias .. => "Trait not found. Not a trait."
  | ambiguousExposure _ component accessors _ =>
      "component '" ++ component ++ "' is included " ++ toString accessors.length ++
        " times; name the accessor to expose (" ++ String.intercalate ", " accessors ++ ")"
  | hostTypeMismatch _ expected found _ =>
      "wrapper instantiated for '" ++ found ++ "', expected '" ++ expected ++ "'"
  | duplicateEntryPoint _ entryPoint _ =>
      "entry point '" ++ entryPoint ++ "' is exposed more than once"
  | duplicateHostMember host member _ =>
      "storage member '" ++ member ++ "' is declared more than once in '" ++ host ++ "'"
  | duplicateHostVariant host variant _ =>
      "event variant '" ++ variant ++ "' is declared more than once in '" ++ host ++ "'"
  | duplicateContract host _ => "contract '" ++ host ++ "' is declared more than once"

def suggestion : Diagnostic → Option String
  | missingSubstorageMember _ _ _ declaration _ => some declaration
  | missingNestedEvent _ _ _ declaration _ => some declaration
  | unresolvedAlias _ _ (first :: rest) _ =>
      some ("embeddable aliases available: " ++ String.intercalate ", " (first :: rest))
  | ambiguousExposure _ _ (first :: _) _ =>
      some ("add the accessor as a second generic argument, e.g. <ContractState, " ++ first ++ ">")
  | storageCollision .. => some "use the nested layout: #[substorage(v1)]"
  | _ => none

def report (diagnostic : Diagnostic) (file sourceLine : String) : Report :=
  { Report.ofError file diagnostic.code diagnostic.message diagnostic.span sourceLine with
    suggestion := diagnostic.suggestion }

end Diagnostic

end Composer
