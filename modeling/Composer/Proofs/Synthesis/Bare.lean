import Composer.Compilation
import Composer.Proofs.Validation.Bare

/-!
Generated code without places. Spans are handed on to accessors, wrappers and exposures, but no text
shows one and no selection looks at one.
-/

namespace Composer

def Accessor.bare (accessor : Accessor) : Accessor := { accessor with span := default }

def Wrapper.bare (wrapper : Wrapper) : Wrapper := { wrapper with span := default }

def Generated.bare (generated : Generated) : Generated :=
  ⟨generated.accessor.bare, generated.wrappers.map Wrapper.bare⟩

def Exposed.bare (exposed : Exposed) : Exposed := { exposed with span := default }

def Selection.bare : Selection → Selection
  | wrapper found => .wrapper found.bare
  | refused diagnostic => .refused diagnostic.bare
  | silent => .silent

def Surface.bare (surface : Surface) : Surface :=
  ⟨surface.exposed.map Exposed.bare, surface.entryPoints,
    surface.diagnostics.map Diagnostic.bare⟩

def GeneratedCode.bare (output : GeneratedCode) : GeneratedCode :=
  { output with
    accessors := output.accessors.map Accessor.bare
    wrappers := output.wrappers.map Wrapper.bare }

theorem GeneratedCode.render_bare (output : GeneratedCode) : output.bare.render = output.render := by
  have accessors : output.bare.accessors.map (fun accessor => "\n" ++ accessor.render) =
      output.accessors.map fun accessor => "\n" ++ accessor.render := by
    rw [bare, List.map_map]
    rfl
  have wrappers : output.bare.wrappers.map (fun wrapper => "\n" ++ wrapper.render) =
      output.wrappers.map fun wrapper => "\n" ++ wrapper.render := by
    rw [bare, List.map_map]
    rfl
  exact congrArg₂ (fun accessors wrappers =>
    "// contract " ++ output.host ++ "\n" ++ String.join accessors ++ String.join wrappers)
    accessors wrappers

theorem Component.prelude_bare (component : Component) :
    component.bare.prelude = component.prelude := by
  rw [prelude, prelude, bare, List.map_map]
  rfl

/-! ### Accessors and wrappers -/

/-- An action that goes with a view of its elements goes with the view of a list of them. -/
theorem map_m_viewed {Element Result Failure : Type} {action : Element → Except Failure Result}
    (view : Element → Element) (viewResult : Result → Result)
    {viewed : Element → Except Failure Result}
    (each : ∀ element, viewed (view element) = (action element).map viewResult)
    (elements : List Element) :
    (elements.map view).mapM viewed = (elements.mapM action).map (List.map viewResult) := by
  induction elements with
  | nil => rfl
  | cons element rest ih =>
      rw [List.map_cons, List.mapM_cons, List.mapM_cons, each, ih]
      cases action element with
      | error failure => rfl
      | ok result => cases rest.mapM action <;> rfl

theorem Inclusion.accessor_bare (inclusion : Inclusion) (component : Component) (host : Host)
    (hostState : String) :
    inclusion.bare.accessor component.bare host.bare hostState =
      (inclusion.accessor component host hostState).map Accessor.bare := by
  have named : inclusion.bare.component = inclusion.component := rfl
  have componentNamed : component.bare.name = component.name := rfl
  have field : inclusion.bare.storageField = inclusion.storageField := rfl
  have held : (host.bare.member? inclusion.storageField).bind (·.layout?) =
      (host.member? inclusion.storageField).bind (·.layout?) := by
    rw [Host.member_bare]
    cases host.member? inclusion.storageField <;> rfl
  rw [accessor, accessor, named, componentNamed, field, held]
  split_ifs
  · rfl
  · cases (host.member? inclusion.storageField).bind (·.layout?) <;> rfl

theorem Component.embeddable_bare (component : Component) :
    component.bare.embeddable = component.embeddable.map Implementation.bare := by
  rw [embeddable, bare, List.filter_map]
  rfl

theorem Component.interface_bare (component : Component) (name : String) :
    component.bare.interface? name = (component.interface? name).map Interface.bare := by
  rw [interface?, bare, List.find?_map]
  rfl

theorem Implementation.wrapper_bare (impl : Implementation) (component : Component)
    (accessor : Accessor) :
    impl.bare.wrapper component.bare accessor.bare =
      (impl.wrapper component accessor).map Wrapper.bare := by
  have served : accessor.bare.component = accessor.component := rfl
  have componentNamed : component.bare.name = component.name := rfl
  have aliasName : impl.bare.aliasName = impl.aliasName := rfl
  have stated : impl.bare.interface = impl.interface := rfl
  rw [wrapper, wrapper, served, componentNamed, aliasName, stated]
  split_ifs
  · rfl
  · cases impl.aliasName with
    | none => rfl
    | some aliasName =>
        cases impl.interface with
        | none => rfl
        | some name =>
            dsimp only
            rw [Component.interface_bare]
            cases component.interface? name <;> rfl

theorem Inclusion.generate_bare (inclusion : Inclusion) (component : Component) (host : Host)
    (hostState : String) :
    inclusion.bare.generate component.bare host.bare hostState =
      (inclusion.generate component host hostState).map Generated.bare := by
  rw [generate, generate, accessor_bare, Component.embeddable_bare]
  cases inclusion.accessor component host hostState with
  | error failure => rfl
  | ok accessor =>
      have wrappers : (component.embeddable.map Implementation.bare).mapM
            (Implementation.wrapper · component.bare accessor.bare) =
          (component.embeddable.mapM (Implementation.wrapper · component accessor)).map
            (List.map Wrapper.bare) :=
        map_m_viewed _ _ (Implementation.wrapper_bare · component accessor) _
      simp only [Except.map, bind, Except.bind] at wrappers ⊢
      rw [wrappers]
      cases component.embeddable.mapM (·.wrapper component accessor) <;> rfl

theorem Host.generated_bare (host : Host) (registry : Registry) (contractState : String)
    (inclusion : Inclusion) (verdict : Verdict) :
    host.bare.generated registry.bare contractState inclusion.bare verdict =
      (host.generated registry contractState inclusion verdict).map Generated.bare := by
  have named : inclusion.bare.component = inclusion.component := rfl
  unfold generated
  rw [named, Registry.get_bare]
  cases registry.get? inclusion.component with
  | none => rfl
  | some component =>
      cases verdict with
      | invalid => rfl
      | accessorOnly =>
          dsimp only [Option.map_some]
          rw [Inclusion.accessor_bare]
          cases inclusion.accessor component host contractState <;> rfl
      | valid =>
          dsimp only [Option.map_some]
          rw [Inclusion.generate_bare]
          cases inclusion.generate component host contractState <;> rfl

theorem Inclusion.report_bare (inclusion : Inclusion) (generated : Option Generated) :
    inclusion.bare.report (generated.map Generated.bare) = inclusion.report generated := by
  cases generated with
  | none => rfl
  | some generated =>
      simp [report, bare, InclusionState.ofGenerated, Generated.bare]

/-! ### Exposures -/

theorem wrapper_at_bare (generated : List (Option Generated)) (index : Nat) (aliasName : String) :
    wrapperAt? (generated.map (Option.map Generated.bare)) index aliasName =
      (wrapperAt? generated index aliasName).map Wrapper.bare := by
  rw [wrapperAt?, wrapperAt?, List.getElem?_map]
  rcases generated[index]? with _ | _ | produced
  · rfl
  · rfl
  · exact List.find?_map ..

theorem Selection.of_index_bare (generated : List (Option Generated)) (aliasName : String)
    (index : Nat) :
    ofIndex (generated.map (Option.map Generated.bare)) aliasName index =
      (ofIndex generated aliasName index).bare := by
  rw [ofIndex, ofIndex, wrapper_at_bare]
  cases wrapperAt? generated index aliasName <;> rfl

namespace Host

variable (host : Host) (registry : Registry) (generated : List (Option Generated))
  (contractState : String) (exposure : Exposure)

theorem select_inclusion_bare (component : Component) (aliasName : String)
    (bound : List (Inclusion × Nat)) :
    host.bare.selectInclusion (generated.map (Option.map Generated.bare)) exposure.bare
        component.bare aliasName (bound.map (Prod.map Inclusion.bare id)) =
      (host.selectInclusion generated exposure component aliasName bound).bare := by
  have generics : exposure.bare.generics = exposure.generics := rfl
  unfold selectInclusion
  rw [generics]
  cases exposure.generics[1]? with
  | some accessor =>
      have found : (bound.map (Prod.map Inclusion.bare id)).find? (·.1.accessorName = accessor) =
          (bound.find? (·.1.accessorName = accessor)).map (Prod.map Inclusion.bare id) := by
        rw [List.find?_map]
        rfl
      dsimp only
      rw [found]
      cases bound.find? (·.1.accessorName = accessor) with
      | none => rfl
      | some pair => exact Selection.of_index_bare generated aliasName pair.2
  | none =>
      rcases bound with _ | ⟨pair, _ | ⟨second, others⟩⟩
      · rfl
      · exact Selection.of_index_bare generated aliasName pair.2
      · simp [Selection.bare, Diagnostic.bare, bare, Component.bare, Inclusion.bare,
          Inclusion.accessorName, Function.comp_def, Exposure.bare]

theorem select_bare :
    host.bare.select registry.bare (generated.map (Option.map Generated.bare)) contractState
        exposure.bare =
      (host.select registry generated contractState exposure).bare := by
  have target : exposure.bare.target? = exposure.target? := rfl
  have generics : exposure.bare.generics = exposure.generics := rfl
  rw [select, select, target, generics]
  cases exposure.target? with
  | none => rfl
  | some names =>
      rcases names with ⟨name, aliasName⟩
      have bound : host.bare.inclusions.zipIdx.filter (·.1.component = name) =
          (host.inclusions.zipIdx.filter (·.1.component = name)).map
            (Prod.map Inclusion.bare id) := by
        rw [bare, List.zipIdx_map, List.filter_map]
        rfl
      dsimp only
      rw [bound, Registry.get_bare]
      cases registry.get? name with
      | none =>
          simp only [Option.map_none, List.map_eq_nil_iff]
          split_ifs <;> rfl
      | some component =>
          have exported : component.bare.embeddableAs? aliasName = none ↔
              component.embeddableAs? aliasName = none := by
            rw [Component.embeddableAs?, Component.bare, List.find?_map, Option.map_eq_none_iff]
            rfl
          simp only [Option.map_some, List.map_eq_nil_iff, exported]
          split_ifs
          · simp only [Component.aliases, Component.bare, List.filterMap_map]
            rfl
          · rfl
          · exact host.select_inclusion_bare generated exposure component aliasName _

theorem surface_after_bare (taken : List String) (exposures : List Exposure) :
    host.bare.surfaceAfter registry.bare (generated.map (Option.map Generated.bare)) contractState
        taken (exposures.map Exposure.bare) =
      (host.surfaceAfter registry generated contractState taken exposures).bare := by
  induction exposures generalizing taken with
  | nil => rfl
  | cons exposure rest ih =>
      rw [List.map_cons, surfaceAfter, surfaceAfter, select_bare]
      cases host.select registry generated contractState exposure with
      | silent => exact ih taken
      | refused diagnostic =>
          dsimp only [Selection.bare]
          rw [ih]
          rfl
      | wrapper wrapper =>
          have offers : exposure.bare.offers wrapper.bare = exposure.offers wrapper := rfl
          dsimp only [Selection.bare]
          rw [offers, ih]
          simp only [Surface.bare, List.map_cons, List.map_append, List.map_map]
          rfl

theorem surface_bare :
    host.bare.surface registry.bare (generated.map (Option.map Generated.bare)) contractState =
      (host.surface registry generated contractState).bare :=
  host.surface_after_bare registry generated contractState [] host.exposures

end Host

end Composer
