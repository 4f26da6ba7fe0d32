import Composer.Proofs.Compilation.Completeness
import Composer.Proofs.Compilation.Dependence
import Composer.Proofs.Compilation.Success
import Composer.Proofs.Declaration.Reports
import Composer.Proofs.Registration.History
import Mathlib.Tactic.MkIffOfInductiveProp

/-!
One more file. A host is compiled from its own contract and from the components that the contract
names; so a file that shares no name with the others changes nothing of what these come to, whatever
it declares and wherever it stands.
-/

namespace Composer

/-! ### Registration -/

namespace Registry.Follows

variable {registry other : Registry} {history others : List (Located ComponentDecl)}

/-- A name is looked up alike where the first declaration of it is the same. -/
theorem lookup_congr (follows : registry.Follows history) (otherFollows : other.Follows others)
    {name : String}
    (same : history.find? (·.name = name) = others.find? (·.name = name)) :
    registry.get? name = other.get? name ∧
      registry.isRejected name = other.isRejected name := by
  cases found : history.find? (·.name = name) with
  | none =>
      have here := follows.unknown_of_undeclared found
      have there := otherFollows.unknown_of_undeclared (same ▸ found)
      exact ⟨here.1.trans there.1.symm, here.2.trans there.2.symm⟩
  | some first =>
      by_cases consistent : first.content.Consistent
      · have here := follows.registered_of_first found consistent
        have there := otherFollows.registered_of_first (same ▸ found) consistent
        exact ⟨here.1.trans there.1.symm, here.2.trans there.2.symm⟩
      · have here := follows.rejected_of_first found consistent
        have there := otherFollows.rejected_of_first (same ▸ found) consistent
        exact ⟨here.1.trans there.1.symm, here.2.trans there.2.symm⟩

end Registry.Follows

theorem find_skip {before inserted after : List (Located ComponentDecl)} {name : String}
    (apart : ∀ decl ∈ inserted, decl.name ≠ name) :
    (before ++ inserted ++ after).find? (·.name = name) =
      (before ++ after).find? (·.name = name) := by
  have absent : inserted.find? (·.name = name) = none := by
    simpa using apart
  rw [List.find?_append, List.find?_append, List.find?_append, absent, Option.or_none]

/-! ### Contracts -/

/-- Of the contracts with one name the first is compiled, by itself. -/
theorem compile_contracts_hosts (registry : Registry) (contractState : String)
    (defaultLayout : Layout) (seen : List String) (decls : List (Located ContractDecl)) :
    (compileContracts registry contractState defaultLayout seen decls).1 =
      (firstsAfter (·.content.name.name) seen decls).map fun decl =>
        ((decl.content.host decl.file).compile registry contractState defaultLayout).1 := by
  induction decls generalizing seen with
  | nil => rfl
  | cons decl rest ih =>
      rcases decl with ⟨file, content⟩
      rw [compileContracts, firstsAfter]
      by_cases repeated : content.name.name ∈ seen
      · simp only [if_pos repeated, ih]
      · simp only [if_neg repeated, ih, List.map_cons]

/-- What a contract names: what it includes, and where the paths of its exposures start. -/
def ContractDecl.Names (decl : ContractDecl) (component : String) : Prop :=
  (∃ inclusion ∈ decl.inclusions, inclusion.path.name = component) ∨
    ∃ exposure ∈ decl.exposures, exposure.target.segments.head?.map (·.name) = some component

/-- Registries that agree on what a contract names are the same to its host. -/
theorem ContractDecl.same_registered (decl : ContractDecl) (file : String)
    {registry other : Registry}
    (same : ∀ name, decl.Names name → registry.get? name = other.get? name ∧
      registry.isRejected name = other.isRejected name) :
    (decl.host file).SameRegistered registry other := by
  have included : ∀ inclusion ∈ (decl.host file).inclusions, decl.Names inclusion.component := by
    intro inclusion member
    rcases List.mem_map.mp member with ⟨own, declared, rfl⟩
    exact .inl ⟨own, declared, rfl⟩
  refine ⟨fun inclusion member => (same _ (included inclusion member)).1,
    fun inclusion member => (same _ (included inclusion member)).2, ?_⟩
  intro exposure member name aliasName target
  rcases List.mem_map.mp member with ⟨own, declared, rfl⟩
  have head := (Exposure.leads_of_target target).ends.1
  refine (same name (.inr ⟨own, declared, ?_⟩)).1
  rw [← List.head?_map]
  exact head

/-! ### Files -/

/-- A file that declares no contract of the others' names and no component that they know. -/
@[mk_iff]
structure SourceFile.Unrelated (inserted : SourceFile) (files : List SourceFile) : Prop where
  contracts : ∀ own ∈ inserted.parse.tree.contracts, ∀ contract ∈ Compilation.contracts files,
    contract.content.name.name ≠ own.name.name
  components : ∀ own ∈ inserted.parse.tree.components,
    ∀ component ∈ Compilation.components files, component.content.name.name ≠ own.name.name
  included : ∀ own ∈ inserted.parse.tree.components, ∀ contract ∈ Compilation.contracts files,
    ∀ inclusion ∈ contract.content.inclusions, inclusion.path.name ≠ own.name.name
  exposed : ∀ own ∈ inserted.parse.tree.components, ∀ contract ∈ Compilation.contracts files,
    ∀ exposure ∈ contract.content.exposures,
      exposure.target.segments.head?.map (·.name) ≠ some own.name.name

instance (inserted : SourceFile) (files : List SourceFile) : Decidable (inserted.Unrelated files) :=
  decidable_of_iff _ (inserted.unrelated_iff files).symm

namespace Compilation

variable {before after : List SourceFile} {inserted : SourceFile}

variable {Decl : Type} (declsOf : DeclarationFile → List Decl)

theorem declarations_append (files others : List SourceFile) :
    declarations declsOf (parseAll (files ++ others)) =
      declarations declsOf (parseAll files) ++ declarations declsOf (parseAll others) := by
  simp only [declarations, parseAll, List.map_append, List.flatMap_append]

theorem declarations_insert (before after : List SourceFile) (inserted : SourceFile) :
    declarations declsOf (parseAll (before ++ inserted :: after)) =
      declarations declsOf (parseAll before) ++ declarations declsOf (parseAll [inserted]) ++
        declarations declsOf (parseAll after) := by
  rw [← List.singleton_append, declarations_append, declarations_append, List.append_assoc]

variable {declsOf}

theorem mem_declarations_single {file : SourceFile} {decl : Located Decl}
    (member : decl ∈ declarations declsOf (parseAll [file])) :
    decl.content ∈ declsOf file.parse.tree := by
  simp only [declarations, parseAll, List.map_cons, List.map_nil, List.flatMap_cons,
    List.flatMap_nil, List.append_nil, List.mem_map] at member
  rcases member with ⟨content, declared, rfl⟩
  exact declared

/-- Where a file declares no name of the others, their first declarations stay the first. -/
theorem firsts_sublist_of_apart (declsOf : DeclarationFile → List Decl) (nameOf : Decl → String)
    (apart : ∀ own ∈ declsOf inserted.parse.tree,
      ∀ decl ∈ declarations declsOf (parseAll (before ++ after)), nameOf decl.content ≠ nameOf own) :
    (firstsBy (fun decl => nameOf decl.content)
        (declarations declsOf (parseAll (before ++ after)))).Sublist
      (firstsBy (fun decl => nameOf decl.content)
        (declarations declsOf (parseAll (before ++ inserted :: after)))) := by
  rw [declarations_append] at apart ⊢
  rw [declarations_insert]
  apply firsts_by_insert_sublist
  intro decl member taken
  rcases List.mem_map.mp taken with ⟨own, declared, same⟩
  exact apart _ (mem_declarations_single declared) decl (List.mem_append_right _ member) same.symm

/-- An unrelated file declares no component that a contract of the others names. -/
theorem unnamed_of_unrelated (unrelated : inserted.Unrelated (before ++ after))
    {contract : Located ContractDecl} (member : contract ∈ contracts (before ++ after))
    {name : String} (named : contract.content.Names name) :
    ∀ decl ∈ components [inserted], decl.name ≠ name := by
  intro decl declared same
  subst same
  have own := mem_declarations_single declared
  rcases named with ⟨inclusion, present, sameName⟩ | ⟨exposure, present, sameName⟩
  · exact unrelated.included _ own contract member inclusion present sameName
  · exact unrelated.exposed _ own contract member exposure present sameName

def compiledAmong (files : List SourceFile) (options : Options) (contract : Located ContractDecl) :
    CompiledHost × List Diagnostic :=
  (contract.content.host contract.file).compile (registryOf files) options.contractState
    (options.layout.toOption.getD .flat)

theorem compiled_among_unrelated (unrelated : inserted.Unrelated (before ++ after))
    (options : Options) {contract : Located ContractDecl}
    (member : contract ∈ contracts (before ++ after)) :
    compiledAmong (before ++ after) options contract =
      compiledAmong (before ++ inserted :: after) options contract := by
  apply Host.compile_congr
  apply contract.content.same_registered
  intro name named
  have apart := unnamed_of_unrelated unrelated member named
  apply (registered_follows _).lookup_congr (registered_follows _)
  rw [components, components, declarations_append, declarations_insert]
  exact (find_skip apart).symm

/-- The hosts and preludes of a readable program, by the declarations that count. -/
theorem of_readable {files : List SourceFile}
    (readable : ∀ file ∈ files, file.parse.log.totalErrors = 0) (options : Options) :
    (Compilation.ofFiles files options).hosts =
        (firstsBy (·.content.name.name) (contracts files)).map (fun contract =>
          (compiledAmong files options contract).1) ∧
      (Compilation.ofFiles files options).preludes =
        ((registrable (components files)).map Located.definition).map Component.prelude := by
  have clean : ∀ file ∈ files, file.parse.log.Clean := fun file member =>
    file.parse_log_clean_iff.mpr (readable file member)
  rw [of_files_readable clean, ← (registered_follows (components files)).components]
  exact ⟨compile_contracts_hosts _ _ _ _ _, rfl⟩

end Compilation

/-- A file that shares no name with the others leaves every host as it is, and every prelude. -/
theorem unrelated_file_changes_nothing {before after : List SourceFile} {inserted : SourceFile}
    (readable : ∀ file ∈ before ++ inserted :: after, file.parse.log.totalErrors = 0)
    (unrelated : inserted.Unrelated (before ++ after)) (options : Options) :
    (Compilation.ofFiles (before ++ after) options).hosts.Sublist
        (Compilation.ofFiles (before ++ inserted :: after) options).hosts ∧
      (Compilation.ofFiles (before ++ after) options).preludes.Sublist
        (Compilation.ofFiles (before ++ inserted :: after) options).preludes := by
  have readableWithout : ∀ file ∈ before ++ after, file.parse.log.totalErrors = 0 := by
    intro file member
    apply readable
    rw [List.mem_append, List.mem_cons]
    rcases List.mem_append.mp member with earlier | later
    · exact .inl earlier
    · exact .inr (.inr later)
  obtain ⟨hosts, preludes⟩ := Compilation.of_readable readableWithout options
  obtain ⟨allHosts, allPreludes⟩ := Compilation.of_readable readable options
  -- The contracts that count stay, and each of them is compiled alike.
  have alike : (Compilation.ofFiles (before ++ after) options).hosts =
      (firstsBy (·.content.name.name) (Compilation.contracts (before ++ after))).map
        fun contract =>
          (Compilation.compiledAmong (before ++ inserted :: after) options contract).1 := by
    rw [hosts]
    apply List.map_congr_left
    intro contract first
    rw [Compilation.compiled_among_unrelated unrelated options (mem_of_mem_firsts_by _ first)]
  constructor
  · rw [alike, allHosts]
    have contracts := Compilation.firsts_sublist_of_apart DeclarationFile.contracts
      (·.name.name) unrelated.contracts
    exact contracts.map _
  · rw [preludes, allPreludes]
    have components := Compilation.firsts_sublist_of_apart DeclarationFile.components
      (·.name.name) unrelated.components
    exact ((components.filter _).map _).map _

def strayFile : SourceFile :=
  ⟨"stray.graft", "component d \x7b storage \x7b v: u64, v: u64 \x7d \x7d " ++
    "contract V \x7b component!(path: q, storage: s, event: E); \x7d"⟩

theorem stray_file_changes_nothing :
    let program := Compilation.ofFiles completeProgram ⟨"S", 20, "v0"⟩
    let extended := Compilation.ofFiles (completeProgram.take 1 ++ strayFile ::
      completeProgram.drop 1) ⟨"S", 20, "v0"⟩
    extended.success = false ∧ program.hosts.map (·.name) = ["W"] ∧
      extended.hosts.map (·.name) = ["V", "W"] ∧ program.hosts.Sublist extended.hosts := by
  intro program extended
  obtain ⟨readable, unrelated, failed, names, allNames⟩ :
      (∀ file ∈ completeProgram.take 1 ++ strayFile :: completeProgram.drop 1,
        file.parse.log.totalErrors = 0) ∧
      strayFile.Unrelated (completeProgram.take 1 ++ completeProgram.drop 1) ∧
      extended.success = false ∧ program.hosts.map (·.name) = ["W"] ∧
      extended.hosts.map (·.name) = ["V", "W"] := by
    decide +kernel
  have framed := unrelated_file_changes_nothing readable unrelated ⟨"S", 20, "v0"⟩
  exact ⟨failed, names, allNames, framed.1⟩

end Composer
