import Composer.Diagnostic
import Composer.Json.Value

/-!
The JSON forms of spans, reports, logs and diagnostics, as tools read them. A report without a
suggestion has no such field, and the limit of a log is not written.
-/

namespace Composer

def Position.toJson (position : Position) : Json :=
  .object [("line", .number position.line), ("column", .number position.column)]

def Span.toJson (span : Span) : Json :=
  .object [("start", span.start.toJson), ("end", span.stop.toJson)]

def Report.toJson (report : Report) : Json :=
  .object ([("file", .string report.file),
    ("code", .number report.code.number),
    ("severity", .string report.severity.text),
    ("category", .string report.category.text),
    ("message", .string report.message),
    ("span", report.span.toJson),
    ("source_line", .string report.sourceLine)] ++
    match report.suggestion with
    | some suggestion => [("suggestion", .string suggestion)]
    | none => [])

def ReportLog.toJson (log : ReportLog) : Json :=
  .object [("errors", .ofList Report.toJson log.errors),
    ("warnings", .ofList Report.toJson log.warnings),
    ("total_errors", .number log.totalErrors),
    ("total_warnings", .number log.totalWarnings)]

/-- The log as it is after being written and read again: the limit is the default one. -/
def ReportLog.reload (log : ReportLog) : ReportLog := { log with limit := defaultLimit }

def Defect.toJson (defect : Defect) : Json :=
  let tagged (name : String) (fields : List (String × String)) : Json :=
    .object (("reason", .string name) :: fields.map fun (key, value) => (key, .string value))
  match defect with
  | .duplicateStorageField field => tagged "duplicate_storage_field" [("field", field)]
  | .duplicateEventVariant variant => tagged "duplicate_event_variant" [("variant", variant)]
  | .embeddableNotInterface implName =>
      tagged "embeddable_not_interface" [("impl_name", implName)]
  | .unknownInterface implName interface =>
      tagged "unknown_interface" [("impl_name", implName), ("interface", interface)]
  | .multipleAliases implName => tagged "multiple_aliases" [("impl_name", implName)]
  | .missingAlias implName => tagged "missing_alias" [("impl_name", implName)]
  | .duplicateAlias aliasName => tagged "duplicate_alias" [("alias", aliasName)]
  | .duplicateMethod owner method =>
      tagged "duplicate_method" [("owner", owner), ("method", method)]
  | .methodNotInInterface implName interface method =>
      tagged "method_not_in_interface"
        [("impl_name", implName), ("interface", interface), ("method", method)]
  | .duplicateComponent => tagged "duplicate_component" []

def Diagnostic.toJson (diagnostic : Diagnostic) : Json :=
  let tagged (name : String) (fields : List (String × Json)) : Json :=
    .object (("kind", .string name) :: fields ++ [("span", diagnostic.span.toJson)])
  match diagnostic with
  | malformedComponent component defect _ =>
      tagged "malformed_component" [("component", .string component), ("reason", defect.toJson)]
  | unknownComponent host component _ =>
      tagged "unknown_component" [("host", .string host), ("component", .string component)]
  | missingSubstorageMember host component member declaration _ =>
      tagged "missing_substorage_member" [("host", .string host),
        ("component", .string component), ("member", .string member),
        ("declaration", .string declaration)]
  | missingNestedEvent host component variant declaration _ =>
      tagged "missing_nested_event" [("host", .string host), ("component", .string component),
        ("variant", .string variant), ("declaration", .string declaration)]
  | aliasedSubstorage host component member _ =>
      tagged "aliased_substorage" [("host", .string host), ("component", .string component),
        ("member", .string member)]
  | duplicateEventBinding host component variant _ =>
      tagged "duplicate_event_binding" [("host", .string host), ("component", .string component),
        ("variant", .string variant)]
  | storageCollision host component field owner _ =>
      tagged "storage_collision" [("host", .string host), ("component", .string component),
        ("field", .string field), ("owner", .string owner)]
  | unresolvedAlias host path available _ =>
      tagged "unresolved_alias" [("host", .string host), ("path", .string path),
        ("available", .ofList .string available)]
  | ambiguousExposure host component accessors _ =>
      tagged "ambiguous_exposure" [("host", .string host), ("component", .string component),
        ("accessors", .ofList .string accessors)]
  | hostTypeMismatch host expected found _ =>
      tagged "host_type_mismatch" [("host", .string host), ("expected", .string expected),
        ("found", .string found)]
  | duplicateEntryPoint host entryPoint _ =>
      tagged "duplicate_entry_point" [("host", .string host),
        ("entry_point", .string entryPoint)]
  | duplicateHostMember host member _ =>
      tagged "duplicate_host_member" [("host", .string host), ("member", .string member)]
  | duplicateHostVariant host variant _ =>
      tagged "duplicate_host_variant" [("host", .string host), ("variant", .string variant)]
  | duplicateContract host _ => tagged "duplicate_contract" [("host", .string host)]

end Composer
