import Composer.Compilation
import Composer.Proofs.Validation.Judgement
import Mathlib.Data.List.Forall2

/-!
What a verdict lets be generated, and that generating never fails. Registration has seen to it that
every embeddable implementation is of an interface of its component, and validation to it that every
accepted inclusion has a member with a layout; `Host.Yields` is what follows for one inclusion. The
main theorem says that reports, accessors and wrappers of a host are those of its verdicts in order.
-/

namespace Composer

theorem map_m_ok {Element Result Failure : Type} {Related : Element → Result → Prop}
    {action : Element → Except Failure Result} (elements : List Element)
    (succeeds : ∀ element ∈ elements, ∃ result, action element = .ok result ∧
      Related element result) :
    ∃ results, elements.mapM action = .ok results ∧ List.Forall₂ Related elements results := by
  induction elements with
  | nil => exact ⟨[], rfl, .nil⟩
  | cons element rest ih =>
      rcases List.forall_mem_cons.mp succeeds with ⟨head, rest⟩
      rcases head with ⟨result, ran, related⟩
      obtain ⟨results, restRan, restRelated⟩ := ih rest
      refine ⟨result :: results, ?_, .cons related restRelated⟩
      rw [List.mapM_cons, ran, restRan]
      rfl

def Registry.embeddableOf (registry : Registry) (inclusion : Inclusion) : List Implementation :=
  match registry.get? inclusion.component with
  | some component => component.embeddable
  | none => []

/-- How far an inclusion of the given verdict gets. -/
def Registry.stateOf (registry : Registry) (inclusion : Inclusion) : Verdict → InclusionState
  | .invalid => .invalid
  | .accessorOnly => .accessorSynthesized
  | .valid =>
      if registry.embeddableOf inclusion = [] then .accessorSynthesized else .wrapperSynthesized

structure Accessor.Serves (accessor : Accessor) (host : Host) (contractState : String)
    (inclusion : Inclusion) : Prop where
  name : accessor.name = inclusion.accessorName
  component : accessor.component = inclusion.component
  hostName : accessor.host = host.name
  hostState : accessor.hostState = contractState
  storageField : accessor.storageField = inclusion.storageField
  eventVariant : accessor.eventVariant = inclusion.eventVariant
  layout : (host.member? inclusion.storageField).bind (·.layout?) = some accessor.layout
  span : accessor.span = inclusion.span

structure Wrapper.Serves (wrapper : Wrapper) (registry : Registry) (contractState : String)
    (inclusion : Inclusion) (impl : Implementation) : Prop where
  aliasName : impl.aliasName = some wrapper.aliasName
  component : wrapper.component = inclusion.component
  implName : wrapper.implName = impl.name
  interface : impl.interface = some wrapper.interface
  accessor : wrapper.accessor = inclusion.accessorName
  hostState : wrapper.hostState = contractState
  methods : ∃ component interface, registry.get? inclusion.component = some component ∧
    component.interface? wrapper.interface = some interface ∧
    wrapper.methods = interface.methods.map fun signature =>
      .forward signature wrapper.component wrapper.implName wrapper.accessor
  span : wrapper.span = impl.span

/-! ### One inclusion -/

section Single

variable {host : Host} {registry : Registry} {contractState : String} {inclusion : Inclusion}
  {component : Component}

variable (contractState) in
theorem accessor_serves (found : registry.get? inclusion.component = some component)
    {layout : Layout} (held : host.layoutFor? inclusion.storageField component = some layout) :
    ∃ accessor, inclusion.accessor component host contractState = .ok accessor ∧
      accessor.Serves host contractState inclusion := by
  have named : inclusion.component = component.name := (Registry.get_name found).symm
  obtain ⟨member, first, _, layoutOf⟩ := Host.layout_for_eq_some.mp held
  have memberLayout : (host.member? inclusion.storageField).bind (·.layout?) = some layout := by
    rw [first]
    exact layoutOf
  unfold Inclusion.accessor
  rw [if_neg (not_not_intro named), memberLayout]
  exact ⟨_, rfl, rfl, named.symm, rfl, rfl, rfl, rfl, memberLayout, rfl⟩

theorem wrapper_serves (reachable : registry.Reachable)
    (found : registry.get? inclusion.component = some component) {accessor : Accessor}
    (serves : accessor.Serves host contractState inclusion) {impl : Implementation}
    (member : impl ∈ component.embeddable) :
    ∃ wrapper, impl.wrapper component accessor = .ok wrapper ∧
      wrapper.Serves registry contractState inclusion impl := by
  have named : component.name = inclusion.component := Registry.get_name found
  have same : accessor.component = component.name := serves.component.trans named.symm
  obtain ⟨interfaceName, interface, stated, declared⟩ :=
    reachable.interface_declared found member
  have interfaceNamed : interface.name = interfaceName := by
    simpa using List.find?_some declared
  have embeddable : impl.aliasName.isSome := (List.mem_filter.mp member).2
  obtain ⟨aliasName, aliased⟩ := Option.isSome_iff_exists.mp embeddable
  unfold Implementation.wrapper
  rw [if_neg (not_not_intro same), aliased, stated]
  simp only [declared]
  refine ⟨_, rfl, aliased, named, rfl, ?_, serves.name, serves.hostState, ?_, rfl⟩
  · rw [stated, interfaceNamed]
  · exact ⟨component, interface, found, interfaceNamed ▸ declared, rfl⟩

variable (contractState) in
theorem generate_serves (reachable : registry.Reachable)
    (found : registry.get? inclusion.component = some component) {layout : Layout}
    (held : host.layoutFor? inclusion.storageField component = some layout) :
    ∃ generated, inclusion.generate component host contractState = .ok generated ∧
      inclusion.accessor component host contractState = .ok generated.accessor ∧
      generated.accessor.Serves host contractState inclusion ∧
      List.Forall₂ (fun impl wrapper => wrapper.Serves registry contractState inclusion impl)
        component.embeddable generated.wrappers := by
  obtain ⟨accessor, made, serves⟩ := accessor_serves contractState found held
  obtain ⟨wrappers, wrapped, wrappersServe⟩ := map_m_ok component.embeddable
    fun impl member => wrapper_serves reachable found serves member
  refine ⟨⟨accessor, wrappers⟩, ?_, made, serves, wrappersServe⟩
  unfold Inclusion.generate
  simp only [made, wrapped, bind, Except.bind]
  rfl

end Single

namespace Host

variable (host : Host) (registry : Registry) (contractState : String) (defaultLayout : Layout)

inductive Yields (inclusion : Inclusion) : Verdict → Option Generated → Prop
  | invalid : Yields inclusion .invalid none
  | accessorOnly {accessor : Accessor} (serves : accessor.Serves host contractState inclusion) :
      Yields inclusion .accessorOnly (some ⟨accessor, []⟩)
  | valid {accessor : Accessor} {wrappers : List Wrapper}
      (serves : accessor.Serves host contractState inclusion)
      (wrapped : List.Forall₂
        (fun impl wrapper => wrapper.Serves registry contractState inclusion impl)
        (registry.embeddableOf inclusion) wrappers) :
      Yields inclusion .valid (some ⟨accessor, wrappers⟩)

variable {registry} in
theorem generated_yields (reachable : registry.Reachable) :
    ∀ pair ∈ host.judged registry defaultLayout, host.Yields registry contractState pair.1 pair.2
      (host.generated registry contractState pair.1 pair.2) := by
  intro ⟨inclusion, verdict⟩ member
  cases verdict with
  | invalid =>
      have nothing : host.generated registry contractState inclusion .invalid = none := by
        unfold generated
        cases registry.get? inclusion.component <;> rfl
      rw [nothing]
      exact .invalid
  | accessorOnly =>
      obtain ⟨component, layout, found, held⟩ :=
        host.judged_accepted registry defaultLayout _ member (by simp)
      obtain ⟨accessor, made, serves⟩ := accessor_serves contractState found held
      simp only [generated, found, made, Except.toOption, Option.map_some]
      exact .accessorOnly serves
  | valid =>
      obtain ⟨component, layout, found, held⟩ :=
        host.judged_accepted registry defaultLayout _ member (by simp)
      obtain ⟨produced, ran, _, serves, wrapped⟩ :=
        generate_serves contractState reachable found held
      simp only [generated, found, ran, Except.toOption]
      refine .valid serves ?_
      rw [Registry.embeddableOf, found]
      exact wrapped

/-! ### All inclusions -/

variable {host registry contractState}

theorem yields_state {inclusion : Inclusion} {verdict : Verdict} {produced : Option Generated}
    (yields : host.Yields registry contractState inclusion verdict produced) :
    InclusionState.ofGenerated produced = registry.stateOf inclusion verdict := by
  cases yields with
  | invalid => rfl
  | accessorOnly => rfl
  | @valid accessor wrappers _ wrapped =>
      have both : registry.embeddableOf inclusion = [] ↔ wrappers = [] := by
        rw [← List.length_eq_zero_iff, wrapped.length_eq, List.length_eq_zero_iff]
      simp only [InclusionState.ofGenerated, Registry.stateOf, both]

theorem yields_accessors {pairs : List (Inclusion × Verdict)}
    {produce : Inclusion × Verdict → Option Generated}
    (yields : ∀ pair ∈ pairs, host.Yields registry contractState pair.1 pair.2 (produce pair)) :
    List.Forall₂ (fun inclusion accessor => accessor.Serves host contractState inclusion)
      ((pairs.filter fun pair => pair.2 ≠ .invalid).map (·.1))
      (((pairs.map produce).filterMap id).map (·.accessor)) := by
  induction pairs with
  | nil => exact .nil
  | cons pair rest ih =>
      rcases List.forall_mem_cons.mp yields with ⟨first, later⟩
      have tail := ih later
      rcases pair with ⟨inclusion, verdict⟩
      rw [List.map_cons]
      generalize produce (inclusion, verdict) = produced at first ⊢
      cases first with
      | invalid => exact tail
      | accessorOnly serves => exact .cons serves tail
      | valid serves _ => exact .cons serves tail

theorem yields_wrappers {pairs : List (Inclusion × Verdict)}
    {produce : Inclusion × Verdict → Option Generated}
    (yields : ∀ pair ∈ pairs, host.Yields registry contractState pair.1 pair.2 (produce pair)) :
    List.Forall₂
      (fun (request : Inclusion × Implementation) wrapper =>
        wrapper.Serves registry contractState request.1 request.2)
      (((pairs.filter fun pair => pair.2 = .valid).map (·.1)).flatMap fun inclusion =>
        (registry.embeddableOf inclusion).map (inclusion, ·))
      (((pairs.map produce).filterMap id).flatMap (·.wrappers)) := by
  induction pairs with
  | nil => exact .nil
  | cons pair rest ih =>
      rcases List.forall_mem_cons.mp yields with ⟨first, later⟩
      have tail := ih later
      rcases pair with ⟨inclusion, verdict⟩
      rw [List.map_cons]
      generalize produce (inclusion, verdict) = produced at first ⊢
      cases first with
      | invalid => exact tail
      | accessorOnly _ => exact tail
      | valid _ wrapped => exact List.rel_append (List.forall₂_map_left_iff.mpr wrapped) tail

theorem zip_with_zip_with {First Second Third Result : Type} (f : First → Third → Result)
    (g : First → Second → Third) (firsts : List First) (seconds : List Second) :
    List.zipWith f firsts (List.zipWith g firsts seconds) =
      (firsts.zip seconds).map fun pair => f pair.1 (g pair.1 pair.2) := by
  induction firsts generalizing seconds with
  | nil => rfl
  | cons first rest ih =>
      cases seconds with
      | nil => rfl
      | cons second others => simp only [List.zipWith_cons_cons, List.zip_cons_cons,
          List.map_cons, ih]

variable (host registry contractState)

def generatedAll : List (Option Generated) :=
  (host.judged registry defaultLayout).map fun pair =>
    host.generated registry contractState pair.1 pair.2

theorem zip_with_generated :
    List.zipWith (host.generated registry contractState) host.inclusions
      (host.validate registry defaultLayout).verdicts =
      host.generatedAll registry contractState defaultLayout := by
  rw [generatedAll, judged, List.zip, List.map_zipWith]

theorem compile_accessors :
    (host.compile registry contractState defaultLayout).1.output.accessors =
      ((host.generatedAll registry contractState defaultLayout).filterMap id).map (·.accessor) := by
  rw [← zip_with_generated]
  rfl

theorem compile_wrappers :
    (host.compile registry contractState defaultLayout).1.output.wrappers =
      ((host.generatedAll registry contractState defaultLayout).filterMap id).flatMap
        (·.wrappers) := by
  rw [← zip_with_generated]
  rfl

theorem compile_exposed :
    (host.compile registry contractState defaultLayout).1.exposed =
      (host.surface registry (host.generatedAll registry contractState defaultLayout)
        contractState).exposed := by
  rw [← zip_with_generated]
  rfl

theorem compile_entry_points :
    (host.compile registry contractState defaultLayout).1.output.entryPoints =
      (host.surface registry (host.generatedAll registry contractState defaultLayout)
        contractState).entryPoints := by
  rw [← zip_with_generated]
  rfl

theorem compile_diagnostics :
    (host.compile registry contractState defaultLayout).2 =
      (host.validate registry defaultLayout).diagnostics ++
        (host.surface registry (host.generatedAll registry contractState defaultLayout)
          contractState).diagnostics := by
  rw [← zip_with_generated]
  rfl

variable {registry} in
theorem compile_inclusions (reachable : registry.Reachable) :
    (host.compile registry contractState defaultLayout).1.inclusions =
      (host.judged registry defaultLayout).map (fun pair =>
        { component := pair.1.component
          storageField := pair.1.storageField
          eventVariant := pair.1.eventVariant
          state := registry.stateOf pair.1 pair.2 }) := by
  change List.zipWith Inclusion.report host.inclusions (List.zipWith _ _ _) = _
  rw [zip_with_zip_with]
  apply List.map_congr_left
  intro pair member
  have yields := generated_yields host contractState defaultLayout reachable pair member
  rw [Inclusion.report, yields_state yields]

variable {registry}

/-- For every host over registered components, generating succeeds wherever a verdict allows it. The
reports on inclusions, the accessors and the wrappers are those that the verdicts call for, one for
one and in order. -/
theorem synthesis_follows_verdicts (reachable : registry.Reachable) :
    (∀ pair ∈ host.judged registry defaultLayout, pair.2 ≠ .invalid →
      ∃ component generated, registry.get? pair.1.component = some component ∧
        pair.1.accessor component host contractState = .ok generated.accessor ∧
        pair.1.generate component host contractState = .ok generated) ∧
      (host.validate registry defaultLayout).verdicts.length = host.inclusions.length ∧
      (host.compile registry contractState defaultLayout).1.inclusions =
        (host.judged registry defaultLayout).map (fun pair =>
          { component := pair.1.component
            storageField := pair.1.storageField
            eventVariant := pair.1.eventVariant
            state := registry.stateOf pair.1 pair.2 }) ∧
      List.Forall₂ (fun inclusion accessor => accessor.Serves host contractState inclusion)
        (host.accepted registry defaultLayout)
        (host.compile registry contractState defaultLayout).1.output.accessors ∧
      List.Forall₂
        (fun (request : Inclusion × Implementation) wrapper =>
          wrapper.Serves registry contractState request.1 request.2)
        ((host.fullyValid registry defaultLayout).flatMap fun inclusion =>
          (registry.embeddableOf inclusion).map (inclusion, ·))
        (host.compile registry contractState defaultLayout).1.output.wrappers := by
  have yields := generated_yields host contractState defaultLayout reachable
  refine ⟨?_, host.validate_verdicts_length registry defaultLayout,
    host.compile_inclusions contractState defaultLayout reachable, ?_, ?_⟩
  · intro pair member accepted
    obtain ⟨component, layout, found, held⟩ :=
      host.judged_accepted registry defaultLayout pair member accepted
    obtain ⟨generated, ran, made, _⟩ := generate_serves contractState reachable found held
    exact ⟨component, generated, found, made, ran⟩
  · rw [compile_accessors]
    exact yields_accessors yields
  · rw [compile_wrappers]
    exact yields_wrappers yields

/-- Without its second event the nested counter has an accessor only, and a third counter without a
member has nothing. -/
theorem uneven_host_follows_verdicts :
    let host : Host := { counterHost with
      events := counterHost.events.take 1
      inclusions := counterHost.inclusions ++ [⟨"counter", "third", "Third", .point 1 1⟩] }
    let compiled := (host.compile counterRegistry "ContractState" .flat).1
    counterRegistry.Reachable ∧
      compiled.inclusions.map (·.state) =
        [.wrapperSynthesized, .accessorSynthesized, .invalid] ∧
      compiled.output.accessors.length = 2 ∧ compiled.output.wrappers.length = 1 := by
  intro host compiled
  obtain ⟨_, _, reports, accessors, wrappers⟩ :=
    host.synthesis_follows_verdicts "ContractState" .flat counter_registry_reachable
  refine ⟨counter_registry_reachable, ?_, ?_, ?_⟩
  · rw [reports]
    decide +kernel
  · rw [← accessors.length_eq]
    decide +kernel
  · rw [← wrappers.length_eq]
    decide +kernel

end Host

end Composer
