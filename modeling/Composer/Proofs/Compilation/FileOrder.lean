import Composer.Proofs.Compilation.Completeness
import Composer.Proofs.Compilation.Dependence
import Composer.Proofs.Compilation.Success

/-!
The order of the files. Which declaration of a name comes first is decided by it, but only where a
name is declared twice, and then the compilation fails in every order. Without a repeated name a host
finds the same components whatever their order.
-/

namespace Composer

/-- Registries of the same components in different orders answer alike, where all names differ. -/
theorem Host.same_registered_of_perm (host : Host) {components others : List Component}
    (reordered : components.Perm others) (distinct : (components.map (·.name)).Nodup) :
    host.SameRegistered ⟨components, []⟩ ⟨others, []⟩ := by
  have found : ∀ name, Registry.get? ⟨components, []⟩ name = Registry.get? ⟨others, []⟩ name :=
    find_perm_of_distinct Component.name reordered distinct
  exact ⟨fun inclusion _ => found inclusion.component, fun _ _ => rfl,
    fun _ _ name _ _ => found name⟩

namespace Compilation

variable {files others : List SourceFile} {options : Options}

theorem components_perm (reordered : files.Perm others) :
    (components files).Perm (components others) :=
  (reordered.map _).flatMap_right _

theorem contracts_perm (reordered : files.Perm others) :
    (contracts files).Perm (contracts others) :=
  (reordered.map _).flatMap_right _

theorem compiled_eq_of_perm (reordered : files.Perm others)
    (distinct : ((components files).map (·.content.name.name)).Nodup)
    (contract : Located ContractDecl) :
    compiled files options contract = compiled others options contract := by
  have definitions : (registered files).components.Perm (registered others).components :=
    (components_perm reordered).map Located.definition
  have namesDistinct : ((registered files).components.map (·.name)).Nodup := by
    rw [registered, List.map_map]
    exact distinct
  exact Host.compile_congr _ _ (Host.same_registered_of_perm _ definitions namesDistinct)

theorem Sound.perm (sound : Sound files options) (reordered : files.Perm others) :
    Sound others options := by
  have components := components_perm reordered
  have contracts := contracts_perm reordered
  refine ⟨?_, ?_, ?_, ?_, ?_⟩
  · intro file member
    exact sound.readable file (reordered.mem_iff.mpr member)
  · intro decl member
    exact sound.faultless decl (components.mem_iff.mpr member)
  · exact (components.map _).nodup_iff.mp sound.components_distinct
  · exact (contracts.map _).nodup_iff.mp sound.contracts_distinct
  · intro contract member
    rw [← compiled_eq_of_perm reordered sound.components_distinct]
    exact sound.hosts_clean contract (contracts.mem_iff.mpr member)

theorem hosts_perm (sound : Sound files options) (reordered : files.Perm others) :
    (Compilation.ofFiles files options).hosts.Perm
      (Compilation.ofFiles others options).hosts := by
  have alike : (contracts files).map (fun contract => (compiled files options contract).1) =
      (contracts files).map (fun contract => (compiled others options contract).1) := by
    apply List.map_congr_left
    intro contract _
    rw [compiled_eq_of_perm reordered sound.components_distinct]
  rw [(of_sound sound).2, (of_sound (sound.perm reordered)).2, alike]
  exact (contracts_perm reordered).map _

theorem preludes_perm (sound : Sound files options) (reordered : files.Perm others) :
    (Compilation.ofFiles files options).preludes.Perm
      (Compilation.ofFiles others options).preludes := by
  rw [(of_sound sound).1, (of_sound (sound.perm reordered)).1]
  exact ((components_perm reordered).map Located.definition).map Component.prelude

end Compilation

/-- In every order of the files the compilation succeeds or fails alike, and where it succeeds it
gives the same hosts and the same preludes, up to their order. -/
theorem file_order_is_irrelevant {files others : List SourceFile} (reordered : files.Perm others)
    (options : Options) :
    (Compilation.ofFiles files options).success = (Compilation.ofFiles others options).success ∧
      ((Compilation.ofFiles files options).success = true →
        (Compilation.ofFiles files options).hosts.Perm
            (Compilation.ofFiles others options).hosts ∧
          (Compilation.ofFiles files options).preludes.Perm
            (Compilation.ofFiles others options).preludes) := by
  constructor
  · rw [Bool.eq_iff_iff, Compilation.success_iff_sound, Compilation.success_iff_sound]
    exact ⟨fun sound => sound.perm reordered, fun sound => sound.perm reordered.symm⟩
  · intro succeeded
    have sound := (Compilation.success_iff_sound files options).mp succeeded
    exact ⟨Compilation.hosts_perm sound reordered, Compilation.preludes_perm sound reordered⟩

/-- The contract may stand before the component that it includes. -/
theorem complete_program_in_reverse :
    let compilation := Compilation.ofFiles completeProgram.reverse ⟨"S", 20, "v0"⟩
    compilation.success = true ∧ compilation.hosts.map (·.name) = ["W"] ∧
      compilation.hosts.Perm (Compilation.ofFiles completeProgram ⟨"S", 20, "v0"⟩).hosts := by
  intro compilation
  obtain ⟨_, alike⟩ := file_order_is_irrelevant completeProgram.reverse_perm ⟨"S", 20, "v0"⟩
  have succeeded : compilation.success = true := by decide +kernel
  exact ⟨succeeded, by decide +kernel, (alike succeeded).1⟩

end Composer
