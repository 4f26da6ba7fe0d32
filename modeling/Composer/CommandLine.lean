import Composer.Encoding.Artifacts

/-!
The command line as a function: from the arguments and the files to an exit code and two texts. The
options are read before the source files, and the first file that cannot be read ends the run. Reports
go to the error output and generated code to the standard output.
-/

namespace Composer.CommandLine

structure Invocation where
  files : List String
  /-- A JSON file with options. -/
  optionsFile : Option String
  json : Bool
  /-- Whether to leave out generated code. -/
  check : Bool
deriving DecidableEq, Repr

inductive ReadFailure
  | missing
  | other (reason : String)
deriving DecidableEq, Repr

def ReadFailure.message : ReadFailure → String
  | missing => "No such file or directory (os error 2)"
  | other reason => reason

inductive SetupFailure
  | unreadable (path : String) (reason : ReadFailure)
  | options (path : String) (problem : OptionsError)
deriving DecidableEq, Repr

def SetupFailure.message : SetupFailure → String
  | unreadable path reason => "cannot read " ++ path ++ ": " ++ reason.message
  | options path problem => path ++ ": " ++ problem.message

structure Outcome where
  exitCode : Nat
  standardOutput : String
  errorOutput : String
deriving DecidableEq, Repr

abbrev FileReader := String → Except ReadFailure String

def lines (texts : List String) : String := String.join (texts.map (· ++ "\n"))

def reportLines (report : Report) : List String :=
  report.text ::
    (if report.sourceLine = "" then [] else ["    | " ++ report.sourceLine]) ++
    match report.suggestion with
    | some suggestion => ["    = help: " ++ suggestion]
    | none => []

def errorLines (log : ReportLog) : List String :=
  log.errors.flatMap reportLines ++
    if log.hidden = 0 then [] else ["... and " ++ toString log.hidden ++ " more errors"]

/-- The preludes, and each host with its digest. -/
def codeLines (compilation : Compilation) : List String :=
  compilation.preludes.map Prelude.render ++
    compilation.hosts.flatMap fun host => [host.rendered, "// sha256 " ++ host.fingerprint]

def readFile (read : FileReader) (path : String) : Except SetupFailure String :=
  match read path with
  | .ok text => .ok text
  | .error reason => .error (.unreadable path reason)

def readOptions (read : FileReader) : Option String → Except SetupFailure Options
  | none => .ok .standard
  | some path => do
      let text ← readFile read path
      match Options.ofJson text with
      | .ok options => .ok options
      | .error problem => .error (.options path problem)

def readSources (read : FileReader) (paths : List String) : Except SetupFailure (List SourceFile) :=
  paths.mapM fun path => do return ⟨path, ← readFile read path⟩

/-- What is printed for a result: exit code 0 stands for success and 1 for errors in the sources. -/
def outcomeOf (invocation : Invocation) (compilation : Compilation) : Outcome :=
  let exitCode := if compilation.success then 0 else 1
  if invocation.json then
    let value := if invocation.check then compilation.log.toJson else compilation.toJson
    { exitCode, standardOutput := value.spread ++ "\n", errorOutput := "" }
  else
    { exitCode
      standardOutput := if invocation.check then "" else lines (codeLines compilation)
      errorOutput := lines (errorLines compilation.log) }

/-- Runs the compiler; exit code 2 stands for a run that could not start. -/
def run (read : FileReader) (invocation : Invocation) : Outcome :=
  let setup := do
    let options ← readOptions read invocation.optionsFile
    let sources ← readSources read invocation.files
    return (sources, options)
  match setup with
  | .error failure =>
      { exitCode := 2, standardOutput := "",
        errorOutput := lines ["graftc: " ++ failure.message] }
  | .ok (sources, options) => outcomeOf invocation (Compilation.ofFiles sources options)

/-! ### Arguments -/

def usage : String := "Usage: graftc [--options <OPTIONS>] [--json] [--check] <FILES>..."

/-- Reads the arguments behind the name of the program; `none` asks for the usage line. -/
def parseArguments : List String → Invocation → Option Invocation
  | [], invocation => if invocation.files = [] then none else some invocation
  | "--json" :: rest, invocation => parseArguments rest { invocation with json := true }
  | "--check" :: rest, invocation => parseArguments rest { invocation with check := true }
  | "--options" :: path :: rest, invocation =>
      parseArguments rest { invocation with optionsFile := some path }
  | "-o" :: path :: rest, invocation =>
      parseArguments rest { invocation with optionsFile := some path }
  | argument :: rest, invocation =>
      if argument.startsWith "-" then none
      else parseArguments rest { invocation with files := invocation.files ++ [argument] }

end Composer.CommandLine
