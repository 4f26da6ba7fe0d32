import Composer.Surface
import Composer.Proofs.Occurrence
import Mathlib.Data.List.Forall2

/-!
Exposures one by one and all together. `Host.Spells` is what an exposure must be for its wrapper to be
looked for, and `Host.select_cases` everything that selecting can do; a run over exposures that
reports nothing and skips none takes the selected wrappers as they come, and no name of an entry point
occurs twice.
-/

namespace Composer

def Exposure.Leads (exposure : Exposure) (component aliasName : String) : Prop :=
  ∃ between, exposure.path = component :: between ++ [aliasName]

theorem Exposure.leads_of_target {exposure : Exposure} {name aliasName : String}
    (targeted : exposure.target? = some (name, aliasName)) : exposure.Leads name aliasName := by
  unfold target? at targeted
  split at targeted
  · next first second rest path =>
      cases targeted
      refine ⟨(second :: rest).dropLast, ?_⟩
      rw [path, List.getLastD_eq_getLast?,
        List.getLast?_eq_getLast_of_ne_nil (List.cons_ne_nil second rest), Option.getD_some,
        List.cons_append, List.dropLast_append_getLast]
  · cases targeted

theorem Selection.of_index_ne_refused (generated : List (Option Generated)) (aliasName : String)
    (index : Nat) (diagnostic : Diagnostic) :
    ofIndex generated aliasName index ≠ .refused diagnostic := by
  rw [ofIndex]
  split <;> nofun

namespace Host

variable {host : Host} {registry : Registry} {generated : List (Option Generated)}
  {contractState : String}

theorem bound_inclusion {name : String} {entry : Inclusion × Nat}
    (member : entry ∈ host.inclusions.zipIdx.filter (·.1.component = name)) :
    host.inclusions[entry.2]? = some entry.1 ∧ entry.1.component = name := by
  rcases List.mem_filter.mp member with ⟨indexed, named⟩
  exact ⟨List.mem_zipIdx_iff_getElem?.mp indexed, of_decide_eq_true named⟩

theorem bound_inclusions (name : String) :
    (host.inclusions.zipIdx.filter (·.1.component = name)).map (·.1) = host.inclusionsOf name := by
  have inclusions : host.inclusions.zipIdx.map (·.1) = host.inclusions := List.zipIdx_map_fst 0 _
  rw [inclusionsOf]
  conv_rhs => rw [← inclusions, List.filter_map]
  rfl

/-- An exposure whose target is known is refused or takes from one of the bound inclusions: the one
whose accessor it names, or the only one. -/
theorem select_inclusion_cases (exposure : Exposure) (component : Component) (aliasName : String)
    (bound : List (Inclusion × Nat)) :
    (∃ diagnostic, host.selectInclusion generated exposure component aliasName bound =
      .refused diagnostic) ∨
      ∃ entry ∈ bound,
        (exposure.generics[1]? = some entry.1.accessorName ∨
          exposure.generics[1]? = none ∧ bound = [entry]) ∧
        host.selectInclusion generated exposure component aliasName bound =
          .ofIndex generated aliasName entry.2 := by
  unfold selectInclusion
  cases exposure.generics[1]? with
  | some accessor =>
      dsimp only
      cases named : bound.find? (·.1.accessorName = accessor) with
      | none => exact .inl ⟨_, rfl⟩
      | some entry =>
          have own : entry.1.accessorName = accessor := by simpa using List.find?_some named
          exact .inr ⟨entry, List.mem_of_find?_eq_some named, .inl (congrArg some own.symm), rfl⟩
  | none =>
      match bound with
      | [] => exact .inl ⟨_, rfl⟩
      | [entry] => exact .inr ⟨entry, List.mem_singleton_self _, .inr ⟨rfl, rfl⟩, rfl⟩
      | _ :: _ :: _ => exact .inl ⟨_, rfl⟩

/-- An exposure spells an inclusion and an alias: its path leads from the component, which exports the
alias, its first generic argument is the state of the contract, and its second is the accessor of the
inclusion, or there is none and no other inclusion of the component. -/
structure Spells (host : Host) (registry : Registry) (contractState : String) (exposure : Exposure)
    (inclusion : Inclusion) (aliasName : String) : Prop where
  path : exposure.Leads inclusion.component aliasName
  exported : ∃ component impl, registry.get? inclusion.component = some component ∧
    component.embeddableAs? aliasName = some impl
  state : exposure.generics.head? = some contractState
  accessor : exposure.generics[1]? = some inclusion.accessorName ∨
    exposure.generics[1]? = none ∧ host.inclusionsOf inclusion.component = [inclusion]

variable (host registry generated contractState) in
/-- Everything that selecting can do. It is silent without looking at what was generated only where
an included component is not registered. -/
theorem select_cases (exposure : Exposure) :
    (∃ diagnostic, host.select registry generated contractState exposure = .refused diagnostic) ∨
    (∃ inclusion ∈ host.inclusions, registry.get? inclusion.component = none ∧
      (∃ aliasName, exposure.Leads inclusion.component aliasName) ∧
      host.select registry generated contractState exposure = .silent) ∨
    ∃ inclusion aliasName index, host.inclusions[index]? = some inclusion ∧
      host.Spells registry contractState exposure inclusion aliasName ∧
      host.select registry generated contractState exposure =
        .ofIndex generated aliasName index := by
  unfold select
  cases targeted : exposure.target? with
  | none => exact .inl ⟨_, rfl⟩
  | some target =>
      rcases target with ⟨name, aliasName⟩
      have leads := Exposure.leads_of_target targeted
      simp only
      have boundIn := fun entry => @bound_inclusion host name entry
      have boundOf := host.bound_inclusions name
      generalize host.inclusions.zipIdx.filter (·.1.component = name) = bound at boundIn boundOf ⊢
      cases found : registry.get? name with
      | none =>
          cases bound with
          | nil => exact .inl ⟨_, rfl⟩
          | cons entry others =>
              obtain ⟨indexed, rfl⟩ := boundIn entry List.mem_cons_self
              exact .inr (.inl ⟨entry.1, List.mem_of_getElem? indexed, found, ⟨_, leads⟩, rfl⟩)
      | some component =>
          simp only
          split_ifs with unusable mismatch
          · exact .inl ⟨_, rfl⟩
          · exact .inl ⟨_, rfl⟩
          · rw [not_or] at unusable
            obtain ⟨impl, exported⟩ := Option.ne_none_iff_exists'.mp unusable.2
            rcases select_inclusion_cases exposure component aliasName bound with
              refused | ⟨entry, member, picked, chosen⟩
            · exact .inl refused
            · obtain ⟨indexed, rfl⟩ := boundIn entry member
              have spells : host.Spells registry contractState exposure entry.1 aliasName := by
                refine ⟨leads, ⟨component, impl, found, exported⟩, not_not.mp mismatch, ?_⟩
                refine picked.imp_right (And.imp_right ?_)
                intro only
                rw [← boundOf, only]
                rfl
              exact .inr (.inr ⟨entry.1, aliasName, entry.2, indexed, spells, chosen⟩)

/-- A run without reports, over exposures each of which selects a wrapper or is refused. -/
theorem surface_after_clean {Wanted : Exposure → Wrapper → Prop} {taken : List String}
    {exposures : List Exposure}
    (clean : (host.surfaceAfter registry generated contractState taken exposures).diagnostics = [])
    (selected : ∀ exposure ∈ exposures,
      (∃ diagnostic,
        host.select registry generated contractState exposure = .refused diagnostic) ∨
      ∃ wrapper, host.select registry generated contractState exposure = .wrapper wrapper ∧
        Wanted exposure wrapper) :
    ∃ wrappers, List.Forall₂ Wanted exposures wrappers ∧
      (host.surfaceAfter registry generated contractState taken exposures).exposed =
        List.zipWith Exposure.take exposures wrappers ∧
      (host.surfaceAfter registry generated contractState taken exposures).entryPoints =
        (List.zipWith Exposure.offers exposures wrappers).flatten ∧
      Fresh taken ((host.surfaceAfter registry generated contractState taken
        exposures).entryPoints.map (·.name)) := by
  induction exposures generalizing taken with
  | nil => exact ⟨[], .nil, rfl, rfl, fresh_nil taken⟩
  | cons exposure rest ih =>
      rcases List.forall_mem_cons.mp selected with ⟨first, later⟩
      rcases first with ⟨diagnostic, refused⟩ | ⟨wrapper, chosen, wanted⟩
      · rw [surfaceAfter, refused] at clean
        cases clean
      · rw [surfaceAfter, chosen] at clean ⊢
        simp only [List.append_eq_nil_iff, List.map_eq_nil_iff, repeats_after_eq_nil] at clean ⊢
        rcases clean with ⟨fresh, restClean⟩
        rw [firsts_after_eq_self _ _ _ fresh] at restClean ⊢
        obtain ⟨wrappers, related, exposed, entries, restFresh⟩ := ih restClean later
        refine ⟨wrapper :: wrappers, .cons wanted related, ?_, ?_, ?_⟩
        · rw [exposed, List.zipWith_cons_cons]
        · rw [entries, List.zipWith_cons_cons, List.flatten_cons]
        · rw [List.map_append, fresh_append]
          exact ⟨fresh, restFresh⟩

end Host

end Composer
