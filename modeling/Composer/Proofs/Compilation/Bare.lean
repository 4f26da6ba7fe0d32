import Composer.Proofs.Synthesis.Bare

/-!
Compiling without places. Declarations give the same hosts and the same findings wherever they stand
in a file and whatever the file is called, except for the places in them.
-/

namespace Composer

/-- A compiled host without the places in it, and so without its source map. -/
def CompiledHost.bare (host : CompiledHost) : CompiledHost :=
  { host with
    file := ""
    exposed := host.exposed.map Exposed.bare
    output := host.output.bare
    sourceMap := .empty }

def Located.bare {Content : Type} (bareOf : Content → Content) (located : Located Content) :
    Located Content :=
  ⟨"", bareOf located.content⟩

section Stages

variable (registry : Registry) (contractState : String) (defaultLayout : Layout)

theorem Host.compile_bare (host : Host) :
    let compiled := host.compile registry contractState defaultLayout
    let placeless := host.bare.compile registry.bare contractState defaultLayout
    placeless.1.bare = compiled.1.bare ∧ placeless.2 = compiled.2.map Diagnostic.bare := by
  intro compiled placeless
  have inclusions : host.bare.inclusions = host.inclusions.map Inclusion.bare := rfl
  have generated : ∀ verdicts, List.zipWith (host.bare.generated registry.bare contractState)
        host.bare.inclusions verdicts =
      (List.zipWith (host.generated registry contractState) host.inclusions verdicts).map
        (Option.map Generated.bare) := by
    intro verdicts
    rw [inclusions, List.zipWith_map_left, List.map_zipWith]
    simp only [generated_bare]
  have reports : ∀ produced, List.zipWith Inclusion.report host.bare.inclusions
        (produced.map (Option.map Generated.bare)) =
      List.zipWith Inclusion.report host.inclusions produced := by
    intro produced
    rw [inclusions, List.zipWith_map]
    simp only [Inclusion.report_bare]
  have sound : ∀ produced : List (Option Generated),
      (produced.map (Option.map Generated.bare)).filterMap id =
        (produced.filterMap id).map Generated.bare := by
    intro produced
    rw [List.filterMap_map, List.map_filterMap]
    rfl
  have output : placeless.1.output = compiled.1.output.bare := by
    simp only [placeless, compiled, compile, validate_bare, generated, surface_bare, sound,
      GeneratedCode.bare, List.map_map, List.flatMap_map, List.map_flatMap]
    rfl
  -- The text is that of the output, and the fingerprint that of the text.
  have rendered : placeless.1.rendered = compiled.1.rendered := by
    change placeless.1.output.render = compiled.1.output.render
    rw [output, GeneratedCode.render_bare]
  have fingerprint : placeless.1.fingerprint = compiled.1.fingerprint :=
    congrArg Sha256.hexDigest rendered
  have reported : placeless.1.inclusions = compiled.1.inclusions := by
    simp only [placeless, compiled, compile, validate_bare, generated, reports]
  have exposed : placeless.1.exposed = compiled.1.exposed.map Exposed.bare := by
    simp only [placeless, compiled, compile, validate_bare, generated, surface_bare]
    rfl
  constructor
  · simp only [CompiledHost.bare, reported, exposed, output, rendered, fingerprint,
      GeneratedCode.bare, List.map_map]
    rfl
  · simp only [placeless, compiled, compile, validate_bare, generated, surface_bare,
      List.map_append]
    rfl

theorem register_all_bare (decls : List (Located ComponentDecl)) :
    registerAll registry.bare (decls.map (Located.bare ComponentDecl.bare)) =
      let registered := registerAll registry decls
      (registered.1.bare, registered.2.map (Located.bare Diagnostic.bare)) := by
  induction decls generalizing registry with
  | nil => rfl
  | cons decl rest ih =>
      rcases decl with ⟨file, content⟩
      obtain ⟨added, refused⟩ := registry.register_bare content file
      simp only [List.map_cons, Located.bare, registerAll, added, refused, ih, List.map_append,
        List.map_map]
      rfl

theorem compile_contracts_bare (seen : List String) (decls : List (Located ContractDecl)) :
    let compiled := compileContracts registry contractState defaultLayout seen decls
    let placeless := compileContracts registry.bare contractState defaultLayout seen
      (decls.map (Located.bare ContractDecl.bare))
    placeless.1.map CompiledHost.bare = compiled.1.map CompiledHost.bare ∧
      placeless.2 = compiled.2.map (Located.bare Diagnostic.bare) := by
  induction decls generalizing seen with
  | nil => exact ⟨rfl, rfl⟩
  | cons decl rest ih =>
      rcases decl with ⟨file, content⟩
      have named : content.bare.name.name = content.name.name := rfl
      simp only [List.map_cons, Located.bare, compileContracts, named]
      by_cases repeated : content.name.name ∈ seen
      · obtain ⟨hosts, findings⟩ := ih seen
        simp only [if_pos repeated, List.map_cons]
        exact ⟨hosts, congrArg _ findings⟩
      · obtain ⟨hosts, findings⟩ := ih (content.name.name :: seen)
        obtain ⟨host, diagnostics⟩ :=
          (content.host file).compile_bare registry contractState defaultLayout
        rw [← content.host_bare file] at host diagnostics
        simp only [if_neg repeated, List.map_cons, List.map_append, List.map_map]
        refine ⟨by rw [host, ← hosts], ?_⟩
        rw [diagnostics, List.map_map]
        exact congrArg _ findings

end Stages

/-! ### Declarations that differ in places -/

section Alike

variable {registry other : Registry} (sameRegistry : registry.bare = other.bare)

include sameRegistry

theorem register_all_alike {decls others : List (Located ComponentDecl)}
    (same : decls.map (Located.bare ComponentDecl.bare) =
      others.map (Located.bare ComponentDecl.bare)) :
    (registerAll registry decls).1.bare = (registerAll other others).1.bare ∧
      (registerAll registry decls).2.map (Located.bare Diagnostic.bare) =
        (registerAll other others).2.map (Located.bare Diagnostic.bare) := by
  have registered := register_all_bare registry decls
  rw [same, sameRegistry, register_all_bare] at registered
  obtain ⟨registry, findings⟩ := Prod.mk.inj registered
  exact ⟨registry.symm, findings.symm⟩

theorem compile_contracts_alike (contractState : String) (defaultLayout : Layout)
    (seen : List String) {decls others : List (Located ContractDecl)}
    (same : decls.map (Located.bare ContractDecl.bare) =
      others.map (Located.bare ContractDecl.bare)) :
    let compiled := compileContracts registry contractState defaultLayout seen decls
    let otherwise := compileContracts other contractState defaultLayout seen others
    compiled.1.map CompiledHost.bare = otherwise.1.map CompiledHost.bare ∧
      compiled.2.map (Located.bare Diagnostic.bare) =
        otherwise.2.map (Located.bare Diagnostic.bare) := by
  obtain ⟨hosts, findings⟩ :=
    compile_contracts_bare registry contractState defaultLayout seen decls
  obtain ⟨otherHosts, otherFindings⟩ :=
    compile_contracts_bare other contractState defaultLayout seen others
  rw [same, sameRegistry] at hosts findings
  exact ⟨hosts.symm.trans otherHosts, findings.symm.trans otherFindings⟩

end Alike

end Composer
