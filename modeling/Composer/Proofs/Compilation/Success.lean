import Composer.Proofs.Compilation.Stages

/-!
When a compilation succeeds. The stages run one after the other and thread what they have seen so far,
but `Compilation.Sound` is about single declarations and about names that occur twice, so no order
occurs in it.
-/

namespace Composer

/-! ### Registration -/

theorem Registry.decided_iff {registry : Registry} (noneRejected : registry.rejected = [])
    (name : String) : registry.Decided name ↔ name ∈ registry.components.map (·.name) := by
  simp [Decided, isRejected, noneRejected, get?, List.find?_isSome]

theorem register_all_eq_nil_iff {registry : Registry} (noneRejected : registry.rejected = [])
    (decls : List (Located ComponentDecl)) :
    (registerAll registry decls).2 = [] ↔
      (∀ decl ∈ decls, decl.content.faults = []) ∧
        Fresh (registry.components.map (·.name)) (decls.map (·.content.name.name)) := by
  constructor
  · intro clean
    exact (register_all_clean clean).2
  · intro sound
    rcases sound with ⟨faultless, fresh⟩
    induction decls generalizing registry with
    | nil => rfl
    | cons decl rest ih =>
        rcases decl with ⟨file, content⟩
        rcases List.forall_mem_cons.mp faultless with ⟨here, later⟩
        rw [List.map_cons, fresh_cons] at fresh
        rcases fresh with ⟨untaken, restFresh⟩
        have undecided : ¬registry.Decided content.name.name := by
          rw [Registry.decided_iff noneRejected]
          exact untaken
        have outcome : registry.register content file = (.ok (content.definition file),
            { registry with components := registry.components ++ [content.definition file] }) := by
          rcases registry.register_cases content file with
            ⟨decided, _⟩ | ⟨_, _, accepted⟩ | ⟨_, faulty, _⟩
          · exact absurd decided undecided
          · exact accepted
          · exact absurd here faulty
        have refusals : registry.refusals content file = [] := by
          rw [Registry.refusals, outcome]
        have added : registry.add content file =
            { registry with components := registry.components ++ [content.definition file] } := by
          rw [Registry.add, outcome]
        have namesBefore : ∀ name, name ∈ content.name.name :: registry.components.map (·.name) ↔
            name ∈ (registry.components ++ [content.definition file]).map (·.name) := by
          intro name
          simp [ComponentDecl.definition, or_comm]
        have restClean := @ih (registry.add content file) (by rw [added, noneRejected]) later
          (by rw [added]; exact (fresh_congr namesBefore _).mp restFresh)
        simp only [registerAll, refusals, restClean, List.map_nil, List.append_nil]

/-! ### Contracts -/

theorem compile_contracts_eq_nil_iff (registry : Registry) (contractState : String)
    (defaultLayout : Layout) (seen : List String) (decls : List (Located ContractDecl)) :
    (compileContracts registry contractState defaultLayout seen decls).2 = [] ↔
      Fresh seen (decls.map (·.content.name.name)) ∧ ∀ decl ∈ decls,
        ((decl.content.host decl.file).compile registry contractState defaultLayout).2 = [] := by
  induction decls generalizing seen with
  | nil => simp [compileContracts, fresh_nil]
  | cons decl rest ih =>
      rcases decl with ⟨file, content⟩
      rw [List.map_cons, fresh_cons, List.forall_mem_cons, compileContracts]
      by_cases repeated : content.name.name ∈ seen
      · simp [repeated]
      · simp only [if_neg repeated, List.append_eq_nil_iff, List.map_eq_nil_iff, ih]
        tauto

/-! ### The whole -/

namespace Compilation

def components (files : List SourceFile) : List (Located ComponentDecl) :=
  declarations DeclarationFile.components (parseAll files)

def contracts (files : List SourceFile) : List (Located ContractDecl) :=
  declarations DeclarationFile.contracts (parseAll files)

def registryOf (files : List SourceFile) : Registry := (registerAll .empty (components files)).1

def registered (files : List SourceFile) : Registry :=
  ⟨(components files).map Located.definition, []⟩

def compiled (files : List SourceFile) (options : Options) (contract : Located ContractDecl) :
    CompiledHost × List Diagnostic :=
  (contract.content.host contract.file).compile (registered files) options.contractState
    (options.layout.toOption.getD .flat)

structure Sound (files : List SourceFile) (options : Options) : Prop where
  readable : ∀ file ∈ files, file.parse.log.Clean
  faultless : ∀ decl ∈ components files, decl.content.faults = []
  components_distinct : ((components files).map (·.content.name.name)).Nodup
  contracts_distinct : ((contracts files).map (·.content.name.name)).Nodup
  hosts_clean : ∀ contract ∈ contracts files, (compiled files options contract).2 = []

theorem readable_iff (files : List SourceFile) (limit : Nat) :
    (mergeAll (.ofLimit limit) (parseAll files)).hasErrors = false ↔
      ∀ file ∈ files, file.parse.log.Clean := by
  rw [ReportLog.has_errors_eq_false, merge_all_total_eq_zero_iff]
  simp [parseAll, ReportLog.ofLimit]

/-- A compilation whose files can be read: all stages, in order. -/
theorem of_files_readable {files : List SourceFile} {options : Options}
    (readable : ∀ file ∈ files, file.parse.log.Clean) :
    Compilation.ofFiles files options =
      let refused := registerAll .empty (components files)
      let hosts := compileContracts refused.1 options.contractState
        (options.layout.toOption.getD .flat) [] (contracts files)
      let log := (mergeAll (.ofLimit options.maxErrors) (parseAll files)).addErrors
        ((refused.2 ++ hosts.2).map (reportOf files))
      { success := !log.hasErrors
        preludes := refused.1.components.map Component.prelude
        hosts := hosts.1
        log } := by
  have clean := (readable_iff files options.maxErrors).mpr readable
  unfold Compilation.ofFiles
  simp only [clean, Bool.false_eq_true, if_false]
  rfl

theorem stages_clean_iff (files : List SourceFile) (options : Options) :
    (Compilation.ofFiles files options).success = true ↔
      (∀ file ∈ files, file.parse.log.Clean) ∧ (registerAll .empty (components files)).2 = [] ∧
        (compileContracts (registerAll .empty (components files)).1 options.contractState
          (options.layout.toOption.getD .flat) [] (contracts files)).2 = [] := by
  by_cases readable : ∀ file ∈ files, file.parse.log.Clean
  · have clean := (readable_iff files options.maxErrors).mpr readable
    rw [of_files_readable readable]
    simp only [Bool.not_eq_true', ReportLog.has_errors_eq_false, ReportLog.add_errors_total,
      (ReportLog.has_errors_eq_false _).mp clean, Nat.zero_add, List.length_eq_zero_iff,
      List.map_eq_nil_iff, List.append_eq_nil_iff]
    exact ⟨fun stages => ⟨readable, stages⟩, fun stages => stages.2⟩
  · have broken := mt (readable_iff files options.maxErrors).mp readable
    rw [Bool.not_eq_false] at broken
    unfold Compilation.ofFiles
    simp only [broken, if_true, Bool.false_eq_true, false_iff]
    exact fun stages => readable stages.1

theorem success_iff_sound (files : List SourceFile) (options : Options) :
    (Compilation.ofFiles files options).success = true ↔ Sound files options := by
  have registering := @register_all_eq_nil_iff .empty rfl (components files)
  rw [stages_clean_iff]
  constructor
  · intro stages
    rcases stages with ⟨readable, refusals, findings⟩
    rw [(register_all_clean refusals).1, compile_contracts_eq_nil_iff] at findings
    obtain ⟨faultless, fresh⟩ := registering.mp refusals
    exact ⟨readable, faultless, (fresh_untaken _).mp fresh, (fresh_untaken _).mp findings.1,
      findings.2⟩
  · intro sound
    have refusals := registering.mpr
      ⟨sound.faultless, (fresh_untaken _).mpr sound.components_distinct⟩
    refine ⟨sound.readable, refusals, ?_⟩
    rw [(register_all_clean refusals).1, compile_contracts_eq_nil_iff]
    exact ⟨(fresh_untaken _).mpr sound.contracts_distinct, sound.hosts_clean⟩

theorem of_sound {files : List SourceFile} {options : Options} (sound : Sound files options) :
    (Compilation.ofFiles files options).preludes =
        (registered files).components.map Component.prelude ∧
      (Compilation.ofFiles files options).hosts =
        (contracts files).map fun contract => (compiled files options contract).1 := by
  have stages := (stages_clean_iff files options).mp ((success_iff_sound files options).mpr sound)
  rcases stages with ⟨readable, refusals, findings⟩
  have registered := (register_all_clean refusals).1
  have compiled := (compile_contracts_clean findings).1
  rw [registered] at compiled
  rw [of_files_readable readable]
  simp only [registered]
  exact ⟨rfl, compiled⟩

end Compilation

end Composer
