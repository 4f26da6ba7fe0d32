import Composer.Proofs.Compilation.Stages
import Composer.Proofs.Surface.Selection
import Composer.Proofs.Synthesis.Gating

/-!
A successful compilation loses nothing. Work is dropped silently in several places: for inclusions of
refused components, for verdicts that allow no wrapper, for exposures of what was not generated. Each
time another stage has reported an error, so without errors every declaration is in the result, in
the order of the sources.
-/

namespace Composer

/-- The entry points that an exposure stands for: the methods of the interface of the implementation
that its path names. -/
def Exposure.promised? (exposure : Exposure) (registry : Registry) :
    Option (List EntryPoint) := do
  let name ← exposure.path.head?
  let aliasName ← exposure.path.getLast?
  let component ← registry.get? name
  let impl ← component.embeddableAs? aliasName
  let interface ← component.interface? (← impl.interface)
  return interface.methods.map fun signature =>
    { name := signature.name
      access := .ofReceiver signature.receiver
      params := signature.params
      ret := signature.ret
      component := name
      aliasName
      exposure := exposure.localName }

structure Exposed.Answers (exposed : Exposed) (exposure : Exposure) : Prop where
  localName : exposed.localName = exposure.localName
  component : exposure.path.head? = some exposed.component
  aliasName : exposure.path.getLast? = some exposed.aliasName
  embedded : exposed.embedded = exposure.embedded
  span : exposed.span = exposure.span

theorem map_eq_of_each {Source Target Part : Type} {related : Source → Target → Prop}
    {sources : List Source} {targets : List Target} {read : Target → Part} {stated : Source → Part}
    (each : List.Forall₂ related sources targets)
    (same : ∀ {source target}, related source target → read target = stated source) :
    targets.map read = sources.map stated := by
  induction each with
  | nil => rfl
  | cons own _ ih => rw [List.map_cons, List.map_cons, same own, ih]

structure CompiledHost.Complete (compiled : CompiledHost) (host : Host) (registry : Registry) :
    Prop where
  name : compiled.name = host.name
  file : compiled.file = host.file
  registered : ∀ inclusion ∈ host.inclusions, (registry.get? inclusion.component).isSome
  inclusions : compiled.inclusions = host.inclusions.map fun inclusion =>
    { component := inclusion.component
      storageField := inclusion.storageField
      eventVariant := inclusion.eventVariant
      state := if registry.embeddableOf inclusion = [] then .accessorSynthesized
        else .wrapperSynthesized }
  exposed : List.Forall₂ (fun exposure exposed => exposed.Answers exposure)
    host.exposures compiled.exposed
  entryPoints : ∃ parts,
    List.Forall₂ (fun exposure part => exposure.promised? registry = some part)
      (host.exposures.filter (·.embedded)) parts ∧
      compiled.output.entryPoints = parts.flatten
  names_distinct : (compiled.output.entryPoints.map (·.name)).Nodup

namespace CompiledHost.Complete

variable {compiled : CompiledHost} {host : Host} {registry : Registry}
  (complete : compiled.Complete host registry)
include complete

theorem exposed_eq :
    compiled.exposed.map (fun exposed =>
        (exposed.localName, some exposed.component, some exposed.aliasName, exposed.embedded)) =
      host.exposures.map fun exposure =>
        (exposure.localName, exposure.path.head?, exposure.path.getLast?, exposure.embedded) := by
  apply map_eq_of_each complete.exposed
  intro exposure exposed answers
  rw [answers.localName, answers.component, answers.aliasName, answers.embedded]

theorem entry_points_eq :
    compiled.output.entryPoints = ((host.exposures.filter (·.embedded)).map fun exposure =>
      (exposure.promised? registry).getD []).flatten := by
  obtain ⟨parts, promised, flattened⟩ := complete.entryPoints
  have own := map_eq_of_each promised fun {exposure part} same =>
    show id part = (exposure.promised? registry).getD [] by rw [same]; rfl
  rw [flattened, ← own, List.map_id]

end CompiledHost.Complete

/-! ### Inclusions -/

section Inclusions

variable {host : Host} {registry : Registry} {contractState : String} {defaultLayout : Layout}

/-- A host without diagnostics has only registered components and only valid verdicts, unless a
component was refused. -/
theorem judged_valid_of_clean (noneRejected : registry.rejected = [])
    (clean : (host.validate registry defaultLayout).diagnostics = []) :
    ∀ pair ∈ host.judged registry defaultLayout,
      (registry.get? pair.1.component).isSome ∧ pair.2 = .valid := by
  intro pair member
  obtain ⟨claims, verdict, reported⟩ := host.judged_judgement registry defaultLayout pair member
  rw [clean, List.subset_nil] at reported
  cases found : registry.get? pair.1.component with
  | none =>
      have rejected := (Host.judgement_clean_of_missing found).mp reported
      simp [Registry.isRejected, noneRejected] at rejected
  | some component =>
      have sound := (Host.judgement_clean_of_found found).mp reported
      exact ⟨rfl, verdict.trans (Host.judgement_valid.mpr ⟨component, found, sound⟩)⟩

variable (host registry defaultLayout) in
theorem judged_inclusions : (host.judged registry defaultLayout).map (·.1) = host.inclusions :=
  List.map_fst_zip (Nat.le_of_eq (host.validate_verdicts_length registry defaultLayout).symm)

variable (registry defaultLayout) in
theorem judged_getElem {index : Nat} {inclusion : Inclusion}
    (indexed : host.inclusions[index]? = some inclusion) :
    ∃ verdict, (host.judged registry defaultLayout)[index]? = some (inclusion, verdict) := by
  rw [← judged_inclusions host registry defaultLayout, List.getElem?_map] at indexed
  obtain ⟨pair, present, rfl⟩ := Option.map_eq_some_iff.mp indexed
  exact ⟨pair.2, present⟩

end Inclusions

/-! ### Exposures -/

theorem Exposure.Leads.ends {exposure : Exposure} {name aliasName : String}
    (leads : exposure.Leads name aliasName) :
    exposure.path.head? = some name ∧ exposure.path.getLast? = some aliasName := by
  obtain ⟨between, path⟩ := leads
  rw [path]
  exact ⟨rfl, List.getLast?_concat⟩

theorem Component.embeddable_find {component : Component} (aliasName : String) :
    component.embeddable.find? (·.aliasName = some aliasName) =
      component.embeddableAs? aliasName := by
  unfold embeddable embeddableAs?
  rw [List.find?_filter]
  congr 1
  funext impl
  cases named : impl.aliasName <;> simp [Implementation.isEmbeddable, named]

theorem forall₂_find {First Second : Type} {Related : First → Second → Prop}
    {p : First → Bool} {q : Second → Bool}
    (same : ∀ first second, Related first second → p first = q second)
    {firsts : List First} {seconds : List Second} (related : List.Forall₂ Related firsts seconds)
    {first : First} (found : firsts.find? p = some first) :
    ∃ second, seconds.find? q = some second ∧ Related first second := by
  induction related with
  | nil => cases found
  | @cons head other rest others headRelated _ ih =>
      rw [List.find?_cons] at found ⊢
      rw [← same head other headRelated]
      cases holds : p head with
      | true =>
          rw [holds] at found
          cases found
          exact ⟨other, rfl, headRelated⟩
      | false =>
          rw [holds] at found
          exact ih found

structure Exposure.Takes (exposure : Exposure) (registry : Registry) (wrapper : Wrapper) : Prop where
  component : exposure.path.head? = some wrapper.component
  aliasName : exposure.path.getLast? = some wrapper.aliasName
  promised : exposure.promised? registry = some (wrapper.entryPoints exposure.localName)

section Exposures

variable (host : Host) (registry : Registry) (contractState : String) (defaultLayout : Layout)

/-- The wrapper that an exposure selects: that of a valid inclusion and of an implementation of its
component, both of which the exposure spells. -/
structure Host.Selects (exposure : Exposure) (inclusion : Inclusion) (impl : Implementation)
    (wrapper : Wrapper) : Prop where
  valid : (inclusion, .valid) ∈ host.judged registry defaultLayout
  spells : host.Spells registry contractState exposure inclusion wrapper.aliasName
  exported : ∃ component, registry.get? inclusion.component = some component ∧
    component.embeddableAs? wrapper.aliasName = some impl
  serves : wrapper.Serves registry contractState inclusion impl

/-- An exposure is skipped over an inclusion that is not valid: one of a component that is not
registered, or one that the exposure spells. -/
structure Host.Skips (exposure : Exposure) (inclusion : Inclusion) : Prop where
  unsound : ∃ verdict, (inclusion, verdict) ∈ host.judged registry defaultLayout ∧ verdict ≠ .valid
  named : ∃ aliasName, exposure.Leads inclusion.component aliasName ∧
    (registry.get? inclusion.component = none ∨
      host.Spells registry contractState exposure inclusion aliasName)

variable {host registry contractState defaultLayout}

theorem Host.Selects.takes {exposure : Exposure} {inclusion : Inclusion} {impl : Implementation}
    {wrapper : Wrapper}
    (selects : host.Selects registry contractState defaultLayout exposure inclusion impl wrapper) :
    exposure.Takes registry wrapper := by
  obtain ⟨first, last⟩ := selects.spells.path.ends
  obtain ⟨component, found, exported⟩ := selects.exported
  have sameComponent := selects.serves.component
  rcases selects.serves.methods with ⟨other, interface, otherFound, declared, methods⟩
  rw [found] at otherFound
  cases otherFound
  refine ⟨by rw [sameComponent, first], last, ?_⟩
  simp only [Exposure.promised?, first, last, found, exported, selects.serves.interface, declared,
    Option.bind_eq_bind, Option.bind_some, Option.pure_def, Wrapper.entryPoints, methods,
    List.map_map, sameComponent]
  rfl

variable (contractState) in
theorem generated_at (reachable : registry.Reachable) {index : Nat} {inclusion : Inclusion}
    {verdict : Verdict}
    (judged : (host.judged registry defaultLayout)[index]? = some (inclusion, verdict)) :
    ∃ produced,
      (host.generatedAll registry contractState defaultLayout)[index]? = some produced ∧
        host.Yields registry contractState inclusion verdict produced := by
  refine ⟨host.generated registry contractState inclusion verdict, ?_, ?_⟩
  · rw [Host.generatedAll, List.getElem?_map, judged]
    rfl
  · exact host.generated_yields contractState defaultLayout reachable _
      (List.mem_of_getElem? judged)

variable (contractState) in
/-- The wrapper of each embeddable implementation stands at the index of each valid inclusion of its
component. -/
theorem wrapper_at_of_valid (reachable : registry.Reachable) {index : Nat} {inclusion : Inclusion}
    {component : Component} {aliasName : String} {impl : Implementation}
    (judged : (host.judged registry defaultLayout)[index]? = some (inclusion, .valid))
    (found : registry.get? inclusion.component = some component)
    (exported : component.embeddableAs? aliasName = some impl) :
    ∃ wrapper, wrapperAt? (host.generatedAll registry contractState defaultLayout) index
        aliasName = some wrapper ∧
      wrapper.aliasName = aliasName ∧ wrapper.Serves registry contractState inclusion impl := by
  obtain ⟨produced, atIndex, yields⟩ := generated_at contractState reachable judged
  cases yields with
  | valid serves wrapped =>
      rw [Registry.embeddableOf, found] at wrapped
      rw [← component.embeddable_find] at exported
      have sameAlias : ∀ (impl : Implementation) (wrapper : Wrapper),
          wrapper.Serves registry contractState inclusion impl →
            decide (impl.aliasName = some aliasName) =
              decide (wrapper.aliasName = aliasName) := by
        intro impl wrapper implServes
        simp only [implServes.aliasName, Option.some.injEq]
      obtain ⟨wrapper, located, wrapperServes⟩ := forall₂_find sameAlias wrapped exported
      have named : wrapper.aliasName = aliasName := by simpa using List.find?_some located
      refine ⟨wrapper, ?_, named, wrapperServes⟩
      simp only [wrapperAt?, atIndex, Option.bind_eq_bind, Option.bind_some]
      exact located

theorem wrapper_at_of_unsound (reachable : registry.Reachable) {index : Nat}
    {inclusion : Inclusion} {verdict : Verdict}
    (judged : (host.judged registry defaultLayout)[index]? = some (inclusion, verdict))
    (unsound : verdict ≠ .valid) (aliasName : String) :
    wrapperAt? (host.generatedAll registry contractState defaultLayout) index aliasName = none := by
  obtain ⟨produced, atIndex, yields⟩ := generated_at contractState reachable judged
  simp only [wrapperAt?, atIndex, Option.bind_eq_bind, Option.bind_some]
  cases yields with
  | invalid => rfl
  | accessorOnly _ => rfl
  | valid _ _ => exact absurd rfl unsound

theorem skips_unregistered {exposure : Exposure} {inclusion : Inclusion} {aliasName : String}
    (member : inclusion ∈ host.inclusions) (missing : registry.get? inclusion.component = none)
    (leads : exposure.Leads inclusion.component aliasName) :
    host.Skips registry contractState defaultLayout exposure inclusion := by
  obtain ⟨index, indexed⟩ := List.mem_iff_getElem?.mp member
  obtain ⟨verdict, atIndex⟩ := judged_getElem registry defaultLayout indexed
  have judged := List.mem_of_getElem? atIndex
  refine ⟨⟨verdict, judged, ?_⟩, aliasName, leads, .inl missing⟩
  intro valid
  obtain ⟨component, _, found, _⟩ :=
    host.judged_accepted registry defaultLayout _ judged (by simp [valid])
  rw [missing] at found
  cases found

variable (defaultLayout) in
/-- What an exposure spells has a wrapper just where the inclusion is valid. -/
theorem spelled_outcomes (reachable : registry.Reachable) {exposure : Exposure}
    {inclusion : Inclusion} {aliasName : String} {index : Nat}
    (indexed : host.inclusions[index]? = some inclusion)
    (spells : host.Spells registry contractState exposure inclusion aliasName) :
    let selected := Selection.ofIndex (host.generatedAll registry contractState defaultLayout)
      aliasName index
    (∃ wrapper impl, selected = .wrapper wrapper ∧
      host.Selects registry contractState defaultLayout exposure inclusion impl wrapper) ∨
    selected = .silent ∧ host.Skips registry contractState defaultLayout exposure inclusion := by
  obtain ⟨verdict, atIndex⟩ := judged_getElem registry defaultLayout indexed
  have judged := List.mem_of_getElem? atIndex
  by_cases valid : verdict = .valid
  · subst valid
    obtain ⟨component, impl, found, exported⟩ := spells.exported
    obtain ⟨wrapper, located, rfl, serves⟩ :=
      wrapper_at_of_valid contractState reachable atIndex found exported
    refine .inl ⟨wrapper, impl, ?_, judged, spells, ⟨component, found, exported⟩, serves⟩
    rw [Selection.ofIndex, located]
  · refine .inr ⟨?_, ⟨verdict, judged, valid⟩, aliasName, spells.path, .inr spells⟩
    rw [Selection.ofIndex, wrapper_at_of_unsound reachable atIndex valid]

/-- An exposure is refused, selects a wrapper or is skipped. -/
theorem select_outcomes (reachable : registry.Reachable) (exposure : Exposure) :
    let selected := host.select registry
      (host.generatedAll registry contractState defaultLayout) contractState exposure
    (∃ diagnostic, selected = .refused diagnostic) ∨
    (∃ wrapper inclusion impl, selected = .wrapper wrapper ∧
      host.Selects registry contractState defaultLayout exposure inclusion impl wrapper) ∨
    ∃ inclusion, selected = .silent ∧
      host.Skips registry contractState defaultLayout exposure inclusion := by
  intro selected
  rcases host.select_cases registry _ contractState exposure with
    refused | ⟨inclusion, member, missing, ⟨aliasName, leads⟩, silent⟩ |
      ⟨inclusion, aliasName, index, indexed, spells, chosen⟩
  · exact .inl refused
  · exact .inr (.inr ⟨inclusion, silent, skips_unregistered member missing leads⟩)
  · rcases spelled_outcomes defaultLayout reachable indexed spells with
      ⟨wrapper, impl, located, selects⟩ | ⟨silent, skips⟩
    · exact .inr (.inl ⟨wrapper, inclusion, impl, chosen.trans located, selects⟩)
    · exact .inr (.inr ⟨inclusion, chosen.trans silent, skips⟩)

/-- In a host with valid verdicts only, an exposure is refused or takes what it stands for. -/
theorem select_of_valid (reachable : registry.Reachable)
    (valid : ∀ pair ∈ host.judged registry defaultLayout, pair.2 = .valid) (exposure : Exposure) :
    (∃ diagnostic, host.select registry
      (host.generatedAll registry contractState defaultLayout) contractState exposure =
        .refused diagnostic) ∨
      ∃ wrapper, host.select registry
        (host.generatedAll registry contractState defaultLayout) contractState exposure =
          .wrapper wrapper ∧ exposure.Takes registry wrapper := by
  rcases select_outcomes reachable exposure with
    refused | ⟨wrapper, inclusion, impl, chosen, selects⟩ | ⟨inclusion, _, skips⟩
  · exact .inl refused
  · exact .inr ⟨wrapper, chosen, selects.takes⟩
  · obtain ⟨verdict, judged, unsound⟩ := skips.unsound
    exact absurd (valid _ judged) unsound

end Exposures

/-! ### Hosts -/

/-- The parts of a surface, once each exposure has taken what it stands for. -/
theorem taken_answers {registry : Registry} {exposures : List Exposure} {wrappers : List Wrapper}
    (takes : List.Forall₂ (fun exposure wrapper => exposure.Takes registry wrapper)
      exposures wrappers) :
    List.Forall₂ (fun exposure exposed => exposed.Answers exposure) exposures
        (List.zipWith Exposure.take exposures wrappers) ∧
      ∃ parts, List.Forall₂ (fun exposure part => exposure.promised? registry = some part)
          (exposures.filter (·.embedded)) parts ∧
        (List.zipWith Exposure.offers exposures wrappers).flatten = parts.flatten := by
  induction takes with
  | nil => exact ⟨.nil, [], .nil, rfl⟩
  | @cons exposure wrapper rest others head _ ih =>
      rcases ih with ⟨answers, parts, promised, flattened⟩
      refine ⟨.cons ⟨rfl, head.component, head.aliasName, rfl, rfl⟩ answers, ?_⟩
      rw [List.zipWith_cons_cons, List.flatten_cons, flattened, List.filter_cons]
      cases embedded : exposure.embedded with
      | true =>
          refine ⟨wrapper.entryPoints exposure.localName :: parts, .cons head.promised promised, ?_⟩
          rw [Exposure.offers, if_pos embedded, List.flatten_cons]
      | false =>
          refine ⟨parts, promised, ?_⟩
          rw [Exposure.offers, embedded]
          rfl

theorem compile_complete {registry : Registry} (reachable : registry.Reachable)
    (noneRejected : registry.rejected = []) {host : Host} {contractState : String}
    {defaultLayout : Layout} (clean : (host.compile registry contractState defaultLayout).2 = []) :
    (host.compile registry contractState defaultLayout).1.Complete host registry := by
  rw [Host.compile_diagnostics, List.append_eq_nil_iff] at clean
  have valid := judged_valid_of_clean noneRejected clean.1
  obtain ⟨wrappers, takes, exposed, entries, fresh⟩ := Host.surface_after_clean clean.2
    fun exposure _ => select_of_valid reachable (fun pair judged => (valid pair judged).2) exposure
  obtain ⟨answers, parts, promised, flattened⟩ := taken_answers takes
  have pairs := judged_inclusions host registry defaultLayout
  refine ⟨rfl, rfl, ?_, ?_, ?_, ⟨parts, promised, ?_⟩, ?_⟩
  · intro inclusion member
    rw [← pairs] at member
    rcases List.mem_map.mp member with ⟨pair, judged, rfl⟩
    exact (valid pair judged).1
  · rw [Host.compile_inclusions host contractState defaultLayout reachable, ← pairs, List.map_map]
    apply List.map_congr_left
    intro pair judged
    rw [(valid pair judged).2]
    rfl
  · rw [Host.compile_exposed]
    exact exposed ▸ answers
  · rw [Host.compile_entry_points]
    exact entries.trans flattened
  · rw [Host.compile_entry_points]
    exact (fresh_untaken _).mp fresh

/-! ### Programs -/

/-- In a compilation without errors every file was read without errors, every component declaration
has a prelude with all its fields, and every contract declaration has a host from which nothing is
missing, all in the order of the sources. -/
theorem success_loses_nothing {files : List SourceFile} {options : Options}
    (succeeded : (Compilation.ofFiles files options).success = true) :
    let components := declarations DeclarationFile.components (parseAll files)
    let contracts := declarations DeclarationFile.contracts (parseAll files)
    let registry : Registry := ⟨components.map Located.definition, []⟩
    (∀ file ∈ files, file.parse.log.totalErrors = 0) ∧
      (components.map (·.content.name.name)).Nodup ∧
      (Compilation.ofFiles files options).preludes = components.map (fun decl =>
        { component := decl.content.name.name
          fields := (storageMembers decl.content.storage).map fun member =>
            (member.name.name, member.type.text) }) ∧
      List.Forall₂
        (fun contract compiled =>
          compiled.Complete (contract.content.host contract.file) registry)
        contracts (Compilation.ofFiles files options).hosts := by
  obtain ⟨defaultLayout, parsed, noRefusals, noFindings, preludes, hosts⟩ :=
    success_stages succeeded
  intro components contracts registry
  obtain ⟨registered, sound, fresh⟩ := register_all_clean noRefusals
  have reachable : registry.Reachable := by
    have all := register_all_reachable .empty components
    rwa [registered] at all
  rw [registered] at noFindings preludes hosts
  obtain ⟨compiled, contractsClean⟩ := compile_contracts_clean noFindings
  refine ⟨parsed, (fresh_untaken _).mp fresh, ?_, ?_⟩
  · rw [preludes]
    change (components.map Located.definition).map Component.prelude = _
    rw [List.map_map]
    apply List.map_congr_left
    intro decl member
    simp only [Function.comp_apply, Located.definition, Component.prelude,
      ComponentDecl.definition_storage (sound decl member), List.map_map]
    rfl
  · rw [hosts, compiled, List.forall₂_map_right_iff, List.forall₂_same]
    intro contract member
    exact compile_complete reachable rfl (contractsClean contract member)

def completeProgram : List SourceFile :=
  [⟨"c.graft", "component c \x7b storage \x7b v: u64 \x7d interface I \x7b fn f(self: @S); \x7d " ++
    "#[embeddable_as(A)] impl X of I; \x7d"⟩,
  ⟨"w.graft", "contract W \x7b component!(path: c, storage: s, event: E); " ++
    "#[abi(embed_v0)] impl L = c::A<S>; storage \x7b #[substorage(v0)] s: c::Storage \x7d " ++
    "event \x7b E: c::Event \x7d \x7d"⟩]

theorem complete_program_loses_nothing :
    let compilation := Compilation.ofFiles completeProgram ⟨"S", 20, "v0"⟩
    compilation.success = true ∧ compilation.preludes.map (·.component) = ["c"] ∧
      compilation.hosts.map (·.name) = ["W"] ∧
      compilation.hosts.map (·.inclusions) = [[⟨"c", "s", "E", .wrapperSynthesized⟩]] ∧
      compilation.hosts.map (fun host => host.exposed.map fun exposed =>
        (exposed.localName, some exposed.component, some exposed.aliasName, exposed.embedded)) =
          [[("L", some "c", some "A", true)]] ∧
      compilation.hosts.map (·.output.entryPoints) =
        [[⟨"f", .view, [], none, "c", "A", "L"⟩]] := by
  intro compilation
  have succeeded : compilation.success = true := by decide +kernel
  obtain ⟨_, _, preludes, hosts⟩ := success_loses_nothing succeeded
  refine ⟨succeeded, ?_, ?_, ?_, ?_, ?_⟩
  · rw [preludes]
    decide +kernel
  · rw [map_eq_of_each hosts fun complete => complete.name]
    decide +kernel
  · rw [map_eq_of_each hosts fun complete => complete.inclusions]
    decide +kernel
  · rw [map_eq_of_each hosts fun complete => complete.exposed_eq]
    decide +kernel
  · rw [map_eq_of_each hosts fun complete => complete.entry_points_eq]
    decide +kernel

end Composer
