import Composer.Proofs.Surface.Selection

/-!
Refused exposures. `Host.Refuses` has a rule for each reason, and an exposure is refused just by
these rules. So one that names a component, an alias and the state of the contract as it must, and
picks one inclusion, is not refused.
-/

namespace Composer

namespace Host

def accessorsOf (host : Host) (component : String) : List String :=
  (host.inclusionsOf component).map (·.accessorName)

/-- The path of an exposure names a registered component that the host includes, and an alias that
the component exports. -/
structure Reaches (host : Host) (registry : Registry) (exposure : Exposure)
    (name aliasName : String) (component : Component) : Prop where
  target : exposure.target? = some (name, aliasName)
  registered : registry.get? name = some component
  included : host.inclusionsOf name ≠ []
  exported : component.embeddableAs? aliasName ≠ none

inductive Refuses (host : Host) (registry : Registry) (contractState : String)
    (exposure : Exposure) : Diagnostic → Prop
  | noTarget : exposure.target? = none →
      Refuses host registry contractState exposure
        (.unresolvedAlias host.name exposure.pathText [] exposure.span)
  | unknown {name aliasName : String} : exposure.target? = some (name, aliasName) →
      registry.get? name = none → host.inclusionsOf name = [] →
        Refuses host registry contractState exposure
          (.unresolvedAlias host.name exposure.pathText [] exposure.span)
  | unusable {name aliasName : String} {component : Component} :
      exposure.target? = some (name, aliasName) → registry.get? name = some component →
      host.inclusionsOf name = [] ∨ component.embeddableAs? aliasName = none →
        Refuses host registry contractState exposure
          (.unresolvedAlias host.name exposure.pathText component.aliases exposure.span)
  | otherState {name aliasName : String} {component : Component} :
      host.Reaches registry exposure name aliasName component →
      exposure.generics.head? ≠ some contractState →
        Refuses host registry contractState exposure
          (.hostTypeMismatch host.name contractState (exposure.generics.head?.getD "()")
            exposure.span)
  | otherAccessor {name aliasName accessor : String} {component : Component} :
      host.Reaches registry exposure name aliasName component →
      exposure.generics.head? = some contractState → exposure.generics[1]? = some accessor →
      accessor ∉ host.accessorsOf name →
        Refuses host registry contractState exposure
          (.unresolvedAlias host.name exposure.pathText [] exposure.span)
  | ambiguous {name aliasName : String} {component : Component} :
      host.Reaches registry exposure name aliasName component →
      exposure.generics.head? = some contractState → exposure.generics[1]? = none →
      (host.inclusionsOf name).length ≠ 1 →
        Refuses host registry contractState exposure
          (.ambiguousExposure host.name component.name (host.accessorsOf name) exposure.span)

variable {host : Host} {registry : Registry} {generated : List (Option Generated)}
  {contractState : String} {exposure : Exposure} {diagnostic : Diagnostic}

theorem select_inclusion_refused_iff (component : Component) (aliasName : String)
    (bound : List (Inclusion × Nat)) :
    host.selectInclusion generated exposure component aliasName bound = .refused diagnostic ↔
      (∃ accessor, exposure.generics[1]? = some accessor ∧
          accessor ∉ (bound.map (·.1)).map (·.accessorName) ∧
          diagnostic = .unresolvedAlias host.name exposure.pathText [] exposure.span) ∨
        exposure.generics[1]? = none ∧ (bound.map (·.1)).length ≠ 1 ∧
          diagnostic = .ambiguousExposure host.name component.name
            ((bound.map (·.1)).map (·.accessorName)) exposure.span := by
  have taken := Selection.of_index_ne_refused generated aliasName
  unfold selectInclusion
  cases named : exposure.generics[1]? with
  | some accessor =>
      cases found : bound.find? (·.1.accessorName = accessor) with
      | some entry =>
          have present : accessor ∈ (bound.map (·.1)).map (·.accessorName) := by
            rw [List.map_map, List.mem_map]
            exact ⟨entry, List.mem_of_find?_eq_some found, by simpa using List.find?_some found⟩
          simp only [found, taken, present, Option.some.injEq, exists_eq_left', not_true_eq_false,
            false_and, reduceCtorEq, or_false]
      | none =>
          have absent : accessor ∉ (bound.map (·.1)).map (·.accessorName) := by
            simpa using found
          simp only [found, Exposure.unresolved, absent, Selection.refused.injEq, Option.some.injEq,
            exists_eq_left', not_false_eq_true, true_and, reduceCtorEq, false_and, or_false]
          exact eq_comm
  | none =>
      match bound with
      | [] => simp [eq_comm (a := diagnostic)]
      | [entry] => simpa using taken entry.2 diagnostic
      | first :: second :: rest => simp [Function.comp_def, eq_comm (a := diagnostic)]

theorem bound_eq_nil_iff (name : String) :
    host.inclusions.zipIdx.filter (·.1.component = name) = [] ↔ host.inclusionsOf name = [] := by
  rw [← host.bound_inclusions name, List.map_eq_nil_iff]

/-- Behind the path of an exposure, its generic arguments decide. -/
theorem select_refused_iff_of_reaches {name aliasName : String} {component : Component}
    (reaches : host.Reaches registry exposure name aliasName component) :
    host.select registry generated contractState exposure = .refused diagnostic ↔
      exposure.generics.head? ≠ some contractState ∧
          diagnostic = .hostTypeMismatch host.name contractState
            (exposure.generics.head?.getD "()") exposure.span ∨
        exposure.generics.head? = some contractState ∧
          ((∃ accessor, exposure.generics[1]? = some accessor ∧
              accessor ∉ host.accessorsOf name ∧
              diagnostic = .unresolvedAlias host.name exposure.pathText [] exposure.span) ∨
            exposure.generics[1]? = none ∧ (host.inclusionsOf name).length ≠ 1 ∧
              diagnostic = .ambiguousExposure host.name component.name (host.accessorsOf name)
                exposure.span) := by
  have usable : ¬(host.inclusions.zipIdx.filter (·.1.component = name) = [] ∨
      component.embeddableAs? aliasName = none) := by
    rw [bound_eq_nil_iff, not_or]
    exact ⟨reaches.included, reaches.exported⟩
  rw [select, reaches.target]
  simp only [reaches.registered]
  rw [if_neg usable]
  by_cases state : exposure.generics.head? = some contractState
  · rw [if_neg (not_not.mpr state), select_inclusion_refused_iff, host.bound_inclusions]
    simp only [state, ne_eq, not_true_eq_false, false_and, false_or, true_and]
    rfl
  · rw [if_pos state]
    simp only [state, ne_eq, not_false_eq_true, true_and, false_and, or_false,
      Selection.refused.injEq, eq_comm]

/-- What is refused is refused by one of the rules. -/
theorem refuses_of_select
    (refused : host.select registry generated contractState exposure = .refused diagnostic) :
    host.Refuses registry contractState exposure diagnostic := by
  cases targeted : exposure.target? with
  | none =>
      rw [select, targeted] at refused
      cases refused
      exact .noTarget targeted
  | some target =>
      rcases target with ⟨name, aliasName⟩
      cases found : registry.get? name with
      | none =>
          simp only [select, targeted, found, bound_eq_nil_iff] at refused
          split at refused
          · next unbound =>
              cases refused
              exact .unknown targeted found unbound
          · cases refused
      | some component =>
          by_cases unusable :
              host.inclusionsOf name = [] ∨ component.embeddableAs? aliasName = none
          · simp only [select, targeted, found, bound_eq_nil_iff, if_pos unusable] at refused
            cases refused
            exact .unusable targeted found unusable
          · rw [not_or] at unusable
            have reaches : host.Reaches registry exposure name aliasName component :=
              ⟨targeted, found, unusable.1, unusable.2⟩
            rcases (select_refused_iff_of_reaches reaches).mp refused with
              ⟨mismatch, rfl⟩ | ⟨state, ⟨accessor, named, foreign, rfl⟩ | ⟨named, several, rfl⟩⟩
            · exact .otherState reaches mismatch
            · exact .otherAccessor reaches state named foreign
            · exact .ambiguous reaches state named several

/-- An exposure is refused for the reasons of the rules and for no other. -/
theorem select_refused_iff :
    host.select registry generated contractState exposure = .refused diagnostic ↔
      host.Refuses registry contractState exposure diagnostic := by
  refine ⟨refuses_of_select, fun refuses => ?_⟩
  cases refuses with
  | noTarget targeted =>
      rw [select, targeted]
      rfl
  | unknown targeted missing unbound =>
      simp only [select, targeted, missing, bound_eq_nil_iff, if_pos unbound]
      rfl
  | unusable targeted found unusable =>
      simp only [select, targeted, found, bound_eq_nil_iff, if_pos unusable]
      rfl
  | otherState reaches mismatch =>
      exact (select_refused_iff_of_reaches reaches).mpr (.inl ⟨mismatch, rfl⟩)
  | otherAccessor reaches state named foreign =>
      exact (select_refused_iff_of_reaches reaches).mpr
        (.inr ⟨state, .inl ⟨_, named, foreign, rfl⟩⟩)
  | ambiguous reaches state named several =>
      exact (select_refused_iff_of_reaches reaches).mpr (.inr ⟨state, .inr ⟨named, several, rfl⟩⟩)

/-- An exposure that is refused is refused where it stands. -/
theorem select_refused_span
    (refused : host.select registry generated contractState exposure = .refused diagnostic) :
    diagnostic.span = exposure.span := by
  cases select_refused_iff.mp refused <;> rfl

/-! ### Exposures that are not refused -/

/-- Generic arguments that start with the state of the contract and leave one inclusion to take from:
the one whose accessor comes next, or the only one. -/
def PicksOne (host : Host) (contractState component : String) (generics : List String) : Prop :=
  generics.head? = some contractState ∧
    ((∃ accessor ∈ host.accessorsOf component, generics[1]? = some accessor) ∨
      generics[1]? = none ∧ (host.inclusionsOf component).length = 1)

/-- An exposure that reaches its component and picks one inclusion is not refused. -/
theorem select_not_refused {name aliasName : String} {component : Component}
    (reaches : host.Reaches registry exposure name aliasName component)
    (picks : host.PicksOne contractState name exposure.generics) (diagnostic : Diagnostic) :
    host.select registry generated contractState exposure ≠ .refused diagnostic := by
  rcases picks with ⟨state, picked⟩
  rw [ne_eq, select_refused_iff_of_reaches reaches]
  rintro (⟨mismatch, _⟩ | ⟨_, ⟨accessor, named, foreign, _⟩ | ⟨absent, several, _⟩⟩)
  · exact mismatch state
  · rcases picked with ⟨own, member, given⟩ | ⟨absent, _⟩
    · rw [given] at named
      cases named
      exact foreign member
    · rw [absent] at named
      cases named
  · rcases picked with ⟨accessor, _, given⟩ | ⟨_, single⟩
    · rw [given] at absent
      cases absent
    · exact several single

end Host

end Composer
