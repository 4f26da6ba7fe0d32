import Composer.Proofs.Compilation.Bare
import Composer.Proofs.Compilation.Completeness
import Composer.Proofs.Compilation.Joining
import Composer.Proofs.Compilation.Success

/-!
How a program is split into files. Files that can be read are compiled by their items alone: two
lists of files with the same items in the same order give the same compilation except for places.
Joining the texts of files to one file leaves the items as they are.
-/

namespace Composer

/-! ### The log -/

def Report.finding (report : Report) : ErrorCode × String := (report.code, report.message)

namespace ReportLog

theorem add_errors_alike (log : ReportLog) {reports others : List Report}
    (same : reports.map Report.finding = others.map Report.finding) :
    (log.addErrors reports).totalErrors = (log.addErrors others).totalErrors ∧
      (log.addErrors reports).errors.map Report.finding =
        (log.addErrors others).errors.map Report.finding := by
  have lengths : reports.length = others.length := by
    simpa using congrArg List.length same
  constructor
  · rw [add_errors_total, add_errors_total, lengths]
  · rw [add_errors_stored, add_errors_stored, List.map_append, List.map_append, List.map_take,
      List.map_take, same]

end ReportLog

theorem merge_all_empty (log : ReportLog) {parsed : List (Located Parsed)}
    (silent : ∀ file ∈ parsed, file.content.log = .empty) : mergeAll log parsed = log := by
  induction parsed with
  | nil => rfl
  | cons file rest ih =>
      rw [List.forall_mem_cons] at silent
      rcases silent with ⟨here, later⟩
      change mergeAll (log.merge file.content.log) rest = log
      rw [here]
      exact ih later

/-- Reports say what their diagnostics say, and places have no part in that. -/
theorem findings_of_bare (files otherFiles : List SourceFile)
    {findings others : List (Located Diagnostic)}
    (same : findings.map (Located.bare Diagnostic.bare) =
      others.map (Located.bare Diagnostic.bare)) :
    (findings.map (reportOf files)).map Report.finding =
      (others.map (reportOf otherFiles)).map Report.finding := by
  have said : ∀ (files : List SourceFile) (findings : List (Located Diagnostic)),
      (findings.map (reportOf files)).map Report.finding =
        (findings.map (Located.bare Diagnostic.bare)).map fun finding =>
          (finding.content.code, finding.content.message) := by
    intro files findings
    rw [List.map_map, List.map_map]
    apply List.map_congr_left
    intro finding _
    simp only [Function.comp_apply, Located.bare, Diagnostic.code_bare, Diagnostic.message_bare]
    rfl
  rw [said, said, same]

/-! ### Items -/

def Item.component? : Item → Option ComponentDecl
  | component decl => some decl
  | contract _ => none

def Item.contract? : Item → Option ContractDecl
  | contract decl => some decl
  | component _ => none

def itemsOf (files : List SourceFile) : List Item :=
  files.flatMap fun file => file.parse.tree.items

theorem declarations_bare {Decl : Type} {declsOf : DeclarationFile → List Decl}
    {pick : Item → Option Decl} {bareOf : Decl → Decl}
    (picks : ∀ tree, declsOf tree = tree.items.filterMap pick)
    (natural : ∀ item, pick item.bare = (pick item).map bareOf) (files : List SourceFile) :
    (declarations declsOf (parseAll files)).map (Located.bare bareOf) =
      (((itemsOf files).map Item.bare).filterMap pick).map (⟨"", ·⟩) := by
  simp only [declarations, parseAll, itemsOf, picks, natural, List.flatMap_map, List.map_flatMap,
    List.filterMap_flatMap, List.filterMap_map, List.map_filterMap, Function.comp_def, Located.bare,
    Option.map_map]

theorem components_bare (files : List SourceFile) :
    (Compilation.components files).map (Located.bare ComponentDecl.bare) =
      (((itemsOf files).map Item.bare).filterMap Item.component?).map (⟨"", ·⟩) :=
  declarations_bare (fun _ => rfl) (fun item => by cases item <;> rfl) files

theorem contracts_bare (files : List SourceFile) :
    (Compilation.contracts files).map (Located.bare ContractDecl.bare) =
      (((itemsOf files).map Item.bare).filterMap Item.contract?).map (⟨"", ·⟩) :=
  declarations_bare (fun _ => rfl) (fun item => by cases item <;> rfl) files

/-! ### Compilations -/

/-- Hosts that differ in places at most. -/
structure CompiledHost.Alike (host other : CompiledHost) : Prop where
  name : host.name = other.name
  inclusions : host.inclusions = other.inclusions
  exposed : host.exposed.map Exposed.bare = other.exposed.map Exposed.bare
  output : host.output.bare = other.output.bare
  rendered : host.rendered = other.rendered
  fingerprint : host.fingerprint = other.fingerprint

theorem CompiledHost.alike_of_bare {host other : CompiledHost} (same : host.bare = other.bare) :
    host.Alike other := by
  simp only [bare, CompiledHost.mk.injEq] at same
  obtain ⟨name, _, inclusions, exposed, output, _, rendered, fingerprint⟩ := same
  exact ⟨name, inclusions, exposed, output, rendered, fingerprint⟩

structure Compilation.Alike (compilation other : Compilation) : Prop where
  success : compilation.success = other.success
  totalErrors : compilation.log.totalErrors = other.log.totalErrors
  findings : compilation.log.errors.map Report.finding = other.log.errors.map Report.finding
  preludes : compilation.preludes = other.preludes
  hosts : List.Forall₂ CompiledHost.Alike compilation.hosts other.hosts

theorem preludes_of_bare {registry other : Registry} (same : registry.bare = other.bare) :
    registry.components.map Component.prelude = other.components.map Component.prelude := by
  have preludes : ∀ registry : Registry, registry.components.map Component.prelude =
      registry.bare.components.map Component.prelude := by
    intro registry
    rw [Registry.bare, List.map_map]
    exact List.map_congr_left fun component _ => component.prelude_bare.symm
  rw [preludes registry, same, ← preludes other]

namespace Compilation

theorem of_files_silent {files : List SourceFile} (silent : ∀ file ∈ files, file.parse.log = .empty)
    (options : Options) :
    Compilation.ofFiles files options =
      let refused := registerAll .empty (components files)
      let hosts := compileContracts refused.1 options.contractState
        (options.layout.toOption.getD .flat) [] (contracts files)
      let log := (ReportLog.ofLimit options.maxErrors).addErrors
        ((refused.2 ++ hosts.2).map (reportOf files))
      { success := !log.hasErrors
        preludes := refused.1.components.map Component.prelude
        hosts := hosts.1
        log } := by
  have clean : ∀ file ∈ files, file.parse.log.Clean := by
    intro file member
    rw [silent file member]
    exact ⟨rfl, rfl⟩
  have parsedSilent : ∀ parsed ∈ parseAll files, parsed.content.log = .empty := by
    intro parsed member
    obtain ⟨file, present, rfl⟩ := List.mem_map.mp member
    exact silent file present
  rw [of_files_readable clean, merge_all_empty _ parsedSilent]

/-- Files that can be read are compiled by their items alone, up to places. -/
theorem alike_of_items {files others : List SourceFile}
    (silent : ∀ file ∈ files, file.parse.log = .empty)
    (othersSilent : ∀ file ∈ others, file.parse.log = .empty)
    (same : (itemsOf files).map Item.bare = (itemsOf others).map Item.bare) (options : Options) :
    (Compilation.ofFiles files options).Alike (Compilation.ofFiles others options) := by
  have components : (components files).map (Located.bare ComponentDecl.bare) =
      (components others).map (Located.bare ComponentDecl.bare) := by
    rw [components_bare, components_bare, same]
  have contracts : (contracts files).map (Located.bare ContractDecl.bare) =
      (contracts others).map (Located.bare ContractDecl.bare) := by
    rw [contracts_bare, contracts_bare, same]
  -- Each stage is compared through what it comes to without places.
  obtain ⟨registry, refusals⟩ := @register_all_alike .empty .empty rfl _ _ components
  obtain ⟨hosts, findings⟩ := compile_contracts_alike registry options.contractState
    (options.layout.toOption.getD .flat) [] contracts
  have found := congrArg₂ (· ++ ·) refusals findings
  simp only [← List.map_append] at found
  obtain ⟨total, stored⟩ := ReportLog.add_errors_alike (.ofLimit options.maxErrors)
    (findings_of_bare files others found)
  have hostsAlike := List.forall₂_map_left_iff.mp
    (List.forall₂_map_right_iff.mp (List.forall₂_eq_eq_eq.symm ▸ hosts))
  rw [of_files_silent silent, of_files_silent othersSilent]
  refine ⟨?_, total, stored, ?_, ?_⟩
  · exact congrArg (fun total => !decide (0 < total)) total
  · exact preludes_of_bare registry
  · exact hostsAlike.imp fun _ _ => CompiledHost.alike_of_bare

end Compilation

/-- A program compiles alike whether it is split into files or joined to one. -/
theorem splitting_is_irrelevant {files : List SourceFile}
    (readable : ∀ file ∈ files, file.parse.log.totalErrors = 0) (name : String)
    (options : Options) :
    (Compilation.ofFiles files options).Alike
      (Compilation.ofFiles [SourceFile.joined name files] options) := by
  have declares : ∀ file ∈ files, file.Declares file.parse.tree.items := fun file member =>
    (SourceFile.declares_of_parse_clean (readable file member)).2
  -- The joined text declares the items of all files, so reading it finds these again.
  obtain ⟨log, items⟩ :=
    SourceFile.parse_of_declares (SourceFile.joined_declares name declares)
  apply Compilation.alike_of_items
  · intro file member
    exact (SourceFile.declares_of_parse_clean (readable file member)).1
  · intro file member
    rw [List.mem_singleton.mp member]
    exact log
  · rw [itemsOf, itemsOf, List.flatMap_singleton, items]

theorem complete_program_joined :
    let joined := Compilation.ofFiles [SourceFile.joined "all.graft" completeProgram] ⟨"S", 20, "v0"⟩
    joined.success = true ∧ joined.hosts.map (·.name) = ["W"] ∧
      (Compilation.ofFiles completeProgram ⟨"S", 20, "v0"⟩).Alike joined := by
  intro joined
  have readable : ∀ file ∈ completeProgram, file.parse.log.totalErrors = 0 := by decide +kernel
  have alike := splitting_is_irrelevant readable "all.graft" ⟨"S", 20, "v0"⟩
  exact ⟨by decide +kernel, by decide +kernel, alike⟩

end Composer
