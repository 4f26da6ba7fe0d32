import Composer.Declaration.Grammar
import Composer.Validation
import Composer.Surface
import Composer.Synthesis.Prelude
import Composer.Synthesis.SourceMap
import Composer.Digest.Sha256
import Composer.Options

/-!
A compilation takes files as one unit: contracts of any file may include components of any file. If
a file cannot be parsed the compilation stops there. Otherwise all components are registered, then
each contract is validated, its accessors and wrappers are generated and its exposures resolved. A
failure costs only what it is about, but the compilation succeeds only without any error.
-/

namespace Composer

structure InclusionReport where
  component : String
  storageField : String
  eventVariant : String
  state : InclusionState
deriving DecidableEq, Repr

structure CompiledHost where
  name : String
  file : String
  inclusions : List InclusionReport
  exposed : List Exposed
  output : GeneratedCode
  sourceMap : SourceMap
  rendered : String
  fingerprint : String
deriving DecidableEq, Repr

structure Compilation where
  success : Bool
  /-- One prelude for each registered component. -/
  preludes : List Prelude
  hosts : List CompiledHost
  log : ReportLog
deriving DecidableEq, Repr

/-! ### One contract -/

namespace Host

/-- What a verdict lets be generated for an inclusion. That generating fails is ruled out by the
validation; if it did there would be nothing. -/
def generated (host : Host) (registry : Registry) (contractState : String)
    (inclusion : Inclusion) (verdict : Verdict) : Option Generated :=
  match registry.get? inclusion.component, verdict with
  | some component, .valid => (inclusion.generate component host contractState).toOption
  | some component, .accessorOnly =>
      (inclusion.accessor component host contractState).toOption.map
        fun accessor => { accessor, wrappers := [] }
  | _, _ => none

/-- The links for what was generated for an inclusion. A wrapper comes from the implementation, in
the file of its component. -/
def inclusionLinks (host : Host) (registry : Registry) (inclusion : Inclusion) :
    Option Generated → List SourceLink
  | none => []
  | some generated =>
      let file := ((registry.get? inclusion.component).map (·.file)).getD host.file
      { item := generated.accessor.name, kind := .accessor, file := host.file,
        span := inclusion.span } ::
        generated.wrappers.map fun wrapper =>
          { item := wrapper.aliasName, kind := .wrapper, file, span := wrapper.span }

/-- For each exposed wrapper in order, links for the entry points under its local name. -/
def entryPointLinks (host : Host) (surface : Surface) : List SourceLink :=
  surface.exposed.flatMap fun exposed =>
    (surface.entryPoints.filter (·.exposure = exposed.localName)).map fun entry =>
      { item := entry.name, kind := .entryPoint, file := host.file, span := exposed.span }

end Host

def InclusionState.ofGenerated : Option Generated → InclusionState
  | none => .invalid
  | some generated =>
      if generated.wrappers = [] then .accessorSynthesized else .wrapperSynthesized

def Inclusion.report (inclusion : Inclusion) (generated : Option Generated) : InclusionReport :=
  { component := inclusion.component
    storageField := inclusion.storageField
    eventVariant := inclusion.eventVariant
    state := .ofGenerated generated }

def Host.compile (host : Host) (registry : Registry) (contractState : String)
    (defaultLayout : Layout) : CompiledHost × List Diagnostic :=
  let validation := host.validate registry defaultLayout
  let generated := List.zipWith (host.generated registry contractState) host.inclusions
    validation.verdicts
  let surface := host.surface registry generated contractState
  let output : GeneratedCode :=
    { host := host.name
      accessors := (generated.filterMap id).map (·.accessor)
      wrappers := (generated.filterMap id).flatMap (·.wrappers)
      entryPoints := surface.entryPoints }
  let rendered := output.render
  ({ name := host.name
     file := host.file
     inclusions := List.zipWith Inclusion.report host.inclusions generated
     exposed := surface.exposed
     output
     sourceMap :=
       ⟨(List.zipWith (host.inclusionLinks registry) host.inclusions generated).flatten ++
         host.entryPointLinks surface⟩
     rendered
     fingerprint := Sha256.hexDigest rendered },
   validation.diagnostics ++ surface.diagnostics)

/-! ### All files -/

structure Located (Content : Type) where
  file : String
  content : Content

def parseAll (files : List SourceFile) : List (Located Parsed) :=
  files.map fun file => ⟨file.name, file.parse⟩

def mergeAll (log : ReportLog) (parsed : List (Located Parsed)) : ReportLog :=
  parsed.foldl (fun (log : ReportLog) file => log.merge file.content.log) log

def declarations {Decl : Type} (declsOf : DeclarationFile → List Decl)
    (parsed : List (Located Parsed)) : List (Located Decl) :=
  parsed.flatMap fun file => (declsOf file.content.tree).map fun decl => ⟨file.file, decl⟩

def registerAll : Registry → List (Located ComponentDecl) → Registry × List (Located Diagnostic)
  | registry, [] => (registry, [])
  | registry, ⟨file, decl⟩ :: rest =>
      let (final, findings) := registerAll (registry.add decl file) rest
      (final, (registry.refusals decl file).map (⟨file, ·⟩) ++ findings)

/-- Compiles contracts in order. The first of a name is compiled and each further one reported;
`seen` holds the names of earlier ones. -/
def compileContracts (registry : Registry) (contractState : String) (defaultLayout : Layout) :
    List String → List (Located ContractDecl) → List CompiledHost × List (Located Diagnostic)
  | _, [] => ([], [])
  | seen, ⟨file, decl⟩ :: rest =>
      let name := decl.name.name
      if name ∈ seen then
        let (hosts, findings) := compileContracts registry contractState defaultLayout seen rest
        (hosts, ⟨file, .duplicateContract name decl.name.span⟩ :: findings)
      else
        let (compiled, diagnostics) :=
          (decl.host file).compile registry contractState defaultLayout
        let (hosts, findings) :=
          compileContracts registry contractState defaultLayout (name :: seen) rest
        (compiled :: hosts, diagnostics.map (⟨file, ·⟩) ++ findings)

/-- The report on a diagnostic. Of several files with one name the first supplies the source line. -/
def reportOf (files : List SourceFile) (finding : Located Diagnostic) : Report :=
  let sourceLine := match files.find? (·.name = finding.file) with
    | some file => file.sourceLine finding.content.span
    | none => ""
  finding.content.report finding.file sourceLine

namespace Compilation

/-- Compiles files as one unit. An unknown substorage version counts as the flat layout. -/
def ofFiles (files : List SourceFile) (options : Options) : Compilation :=
  let parsed := parseAll files
  let log := mergeAll (.ofLimit options.maxErrors) parsed
  if log.hasErrors then { success := false, preludes := [], hosts := [], log }
  else
    let (registry, refusals) := registerAll .empty (declarations DeclarationFile.components parsed)
    let (hosts, findings) := compileContracts registry options.contractState
      (options.layout.toOption.getD .flat) [] (declarations DeclarationFile.contracts parsed)
    let log := log.addErrors ((refusals ++ findings).map (reportOf files))
    { success := !log.hasErrors
      preludes := registry.components.map Component.prelude
      hosts
      log }

/-- Compiles one file under the standard options. -/
def ofFile (file : SourceFile) : Compilation := ofFiles [file] .standard

def outcome (compilation : Compilation) : Except ReportLog (List CompiledHost) :=
  if compilation.success then .ok compilation.hosts else .error compilation.log

end Compilation

end Composer
