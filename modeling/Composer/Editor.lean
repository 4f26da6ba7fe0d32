import Composer.Encoding.Artifacts

/-!
The compiler for editors: one source text in, compact JSON out. Options that cannot be read give a
result of the usual shape whose only error is a message.
-/

namespace Composer.Editor

def compile (source fileName : String) : String :=
  (Compilation.ofFile ⟨fileName, source⟩).toJson.compact

/-- The result of a compilation that did not start, with its keys in alphabetical order. -/
def failure (message : String) : Json :=
  .object
    [("errors", .object
      [("errors", .array [.object [("message", .string message)]]),
      ("total_errors", .number 1), ("total_warnings", .number 0), ("warnings", .array [])]),
    ("hosts", .array []), ("preludes", .array []), ("success", .bool false)]

def compileWithOptions (source fileName options : String) : String :=
  match Options.ofJson options with
  | .ok options => (Compilation.ofFiles [⟨fileName, source⟩] options).toJson.compact
  | .error problem => (failure ("Invalid options: " ++ problem.message)).compact

def check (source fileName : String) : String :=
  (Compilation.ofFile ⟨fileName, source⟩).log.toJson.compact

def version : String := "0.1.0"

end Composer.Editor
