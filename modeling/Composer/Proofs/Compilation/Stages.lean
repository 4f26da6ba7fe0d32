import Composer.Compilation
import Composer.Proofs.Registration
import Composer.Proofs.Report.Log

/-!
The stages of a compilation without findings. A log never forgets that an error was added, so success
means that no stage reported anything; a stage that reports nothing has used every declaration.
-/

namespace Composer

/-! ### The log -/

theorem merge_all_total_eq_zero_iff (log : ReportLog) (parsed : List (Located Parsed)) :
    (mergeAll log parsed).totalErrors = 0 ↔
      log.totalErrors = 0 ∧ ∀ file ∈ parsed, file.content.log.Clean := by
  induction parsed generalizing log with
  | nil => simp [mergeAll]
  | cons file rest ih =>
      have merged := log.merge_total_eq_zero_iff file.content.log
      have later := ih (log.merge file.content.log)
      rw [merged] at later
      rw [List.forall_mem_cons, ReportLog.Clean, ← and_assoc]
      exact later

/-! ### Registration -/

theorem register_all_reachable {registry : Registry} (reachable : registry.Reachable)
    (decls : List (Located ComponentDecl)) : (registerAll registry decls).1.Reachable := by
  induction decls generalizing registry with
  | nil => exact reachable
  | cons decl rest ih => exact ih (reachable.add decl.content decl.file)

def Located.definition (decl : Located ComponentDecl) : Component :=
  decl.content.definition decl.file

/-- A declaration that is not refused is new, has no faults and is registered behind the others. -/
theorem Registry.accepted_of_refusals {registry : Registry} {decl : ComponentDecl} {file : String}
    (clean : registry.refusals decl file = []) :
    ¬registry.Decided decl.name.name ∧ decl.faults = [] ∧ registry.add decl file =
      { registry with components := registry.components ++ [decl.definition file] } := by
  rcases registry.register_cases decl file with
    ⟨_, outcome⟩ | ⟨fresh, sound, outcome⟩ | ⟨_, faulty, outcome⟩
  · simp [refusals, outcome] at clean
  · exact ⟨fresh, sound, by rw [add, outcome]⟩
  · simp [refusals, outcome, faulty] at clean

theorem Registry.fresh_name {registry : Registry} {name : String}
    (fresh : ¬registry.Decided name) : name ∉ registry.components.map (·.name) := by
  intro member
  rcases List.mem_map.mp member with ⟨component, present, named⟩
  apply fresh
  left
  exact List.find?_isSome.mpr ⟨component, present, by simpa using named⟩

/-- Without refusals everything is registered, in order and under different names. -/
theorem register_all_clean {registry : Registry} {decls : List (Located ComponentDecl)}
    (clean : (registerAll registry decls).2 = []) :
    (registerAll registry decls).1 =
        { registry with components := registry.components ++ decls.map Located.definition } ∧
      (∀ decl ∈ decls, decl.content.faults = []) ∧
      Fresh (registry.components.map (·.name)) (decls.map (·.content.name.name)) := by
  induction decls generalizing registry with
  | nil => exact ⟨by simp [registerAll], by simp, fresh_nil _⟩
  | cons decl rest ih =>
      rcases decl with ⟨file, content⟩
      simp only [registerAll, List.append_eq_nil_iff, List.map_eq_nil_iff] at clean ⊢
      rcases clean with ⟨here, later⟩
      obtain ⟨fresh, sound, added⟩ := Registry.accepted_of_refusals here
      obtain ⟨registered, restSound, restFresh⟩ := ih later
      refine ⟨?_, List.forall_mem_cons.mpr ⟨sound, restSound⟩, ?_⟩
      · rw [registered, added, List.map_cons, ← List.append_cons]
        rfl
      · rw [List.map_cons, fresh_cons]
        refine ⟨Registry.fresh_name fresh, (fresh_congr ?_ _).mp restFresh⟩
        intro name
        rw [added, List.map_append, List.mem_append, List.mem_cons, or_comm]
        simp [ComponentDecl.definition]

/-! ### Contracts -/

/-- Every compiled host is that of a contract, and all that was found against it is reported. -/
theorem compiled_from_contract {registry : Registry} {contractState : String}
    {defaultLayout : Layout} {seen : List String} {decls : List (Located ContractDecl)}
    {compiled : CompiledHost}
    (member : compiled ∈ (compileContracts registry contractState defaultLayout seen decls).1) :
    ∃ contract ∈ decls,
      let own := (contract.content.host contract.file).compile registry contractState defaultLayout
      compiled = own.1 ∧ ∀ diagnostic ∈ own.2, ⟨contract.file, diagnostic⟩ ∈
        (compileContracts registry contractState defaultLayout seen decls).2 := by
  induction decls generalizing seen with
  | nil => cases member
  | cons decl rest ih =>
      rw [compileContracts] at member ⊢
      split_ifs at member ⊢ with repeated
      · obtain ⟨contract, present, same, reported⟩ := ih member
        refine ⟨contract, List.mem_cons_of_mem _ present, same, ?_⟩
        exact fun diagnostic found => List.mem_cons_of_mem _ (reported diagnostic found)
      · rcases List.mem_cons.mp member with rfl | later
        · refine ⟨decl, List.mem_cons_self, rfl, ?_⟩
          exact fun diagnostic found =>
            List.mem_append_left _ (List.mem_map.mpr ⟨diagnostic, found, rfl⟩)
        · obtain ⟨contract, present, same, reported⟩ := ih later
          refine ⟨contract, List.mem_cons_of_mem _ present, same, ?_⟩
          exact fun diagnostic found => List.mem_append_right _ (reported diagnostic found)

theorem mem_compile_contracts {registry : Registry} {contractState : String}
    {defaultLayout : Layout} {seen : List String} {decls : List (Located ContractDecl)}
    {compiled : CompiledHost}
    (member : compiled ∈ (compileContracts registry contractState defaultLayout seen decls).1) :
    ∃ contract ∈ decls, compiled =
      ((contract.content.host contract.file).compile registry contractState defaultLayout).1 := by
  obtain ⟨contract, present, same, _⟩ := compiled_from_contract member
  exact ⟨contract, present, same⟩

theorem compile_contracts_clean {registry : Registry} {contractState : String}
    {defaultLayout : Layout} {seen : List String} {decls : List (Located ContractDecl)}
    (clean : (compileContracts registry contractState defaultLayout seen decls).2 = []) :
    (compileContracts registry contractState defaultLayout seen decls).1 =
        decls.map (fun decl =>
          ((decl.content.host decl.file).compile registry contractState defaultLayout).1) ∧
      ∀ decl ∈ decls,
        ((decl.content.host decl.file).compile registry contractState defaultLayout).2 = [] := by
  induction decls generalizing seen with
  | nil => exact ⟨rfl, by simp⟩
  | cons decl rest ih =>
      rcases decl with ⟨file, content⟩
      unfold compileContracts at clean ⊢
      by_cases repeated : content.name.name ∈ seen
      · simp [repeated] at clean
      · simp only [if_neg repeated, List.append_eq_nil_iff, List.map_eq_nil_iff] at clean ⊢
        rcases clean with ⟨here, later⟩
        obtain ⟨compiled, restClean⟩ := ih later
        exact ⟨by rw [compiled, List.map_cons], List.forall_mem_cons.mpr ⟨here, restClean⟩⟩

/-! ### The whole -/

/-- What a successful compilation consists of. -/
theorem success_stages {files : List SourceFile} {options : Options}
    (succeeded : (Compilation.ofFiles files options).success = true) :
    ∃ defaultLayout : Layout,
      let components := declarations DeclarationFile.components (parseAll files)
      let contracts := declarations DeclarationFile.contracts (parseAll files)
      let registry := (registerAll .empty components).1
      (∀ file ∈ files, file.parse.log.totalErrors = 0) ∧
        (registerAll .empty components).2 = [] ∧
        (compileContracts registry options.contractState defaultLayout [] contracts).2 = [] ∧
        (Compilation.ofFiles files options).preludes =
          registry.components.map Component.prelude ∧
        (Compilation.ofFiles files options).hosts =
          (compileContracts registry options.contractState defaultLayout [] contracts).1 := by
  refine ⟨options.layout.toOption.getD .flat, ?_⟩
  unfold Compilation.ofFiles at succeeded ⊢
  by_cases broken : (mergeAll (.ofLimit options.maxErrors) (parseAll files)).hasErrors
  · simp [broken] at succeeded
  · simp only [if_neg broken, Bool.not_eq_true', ReportLog.has_errors_eq_false,
      ReportLog.add_errors_total] at succeeded ⊢
    have noFindings := List.length_eq_zero_iff.mp (Nat.eq_zero_of_add_eq_zero_left succeeded)
    rw [List.map_eq_nil_iff, List.append_eq_nil_iff] at noFindings
    rw [Bool.not_eq_true, ReportLog.has_errors_eq_false] at broken
    refine ⟨?_, noFindings.1, noFindings.2, trivial, trivial⟩
    intro file member
    have clean := ((merge_all_total_eq_zero_iff _ _).mp broken).2 ⟨file.name, file.parse⟩
      (List.mem_map.mpr ⟨file, member, rfl⟩)
    exact clean.1

end Composer
