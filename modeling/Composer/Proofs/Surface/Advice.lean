import Composer.Proofs.Registration
import Composer.Proofs.Surface.Refusal

/-!
What the reports on exposures suggest. An ambiguous exposure is told of an accessor, behind a state
that is always the default one; that settles it just where the contract has this state. An unresolved
exposure is told of the aliases of its component; they can be taken where the host includes it, but
they are listed also where it does not.
-/

namespace Composer

/-! ### Accessors of an ambiguous exposure -/

def bracketedNames (text : String) : List String :=
  let inside := (text.toList.dropWhile (· ≠ '<')).tail.dropLast
  [.ofList (inside.takeWhile (· ≠ ',')), .ofList ((inside.dropWhile (· ≠ ',')).drop 2)]

/-- The report on an ambiguous exposure suggests the first accessor behind a fixed state. -/
theorem ambiguous_suggestion_names (host component accessor : String) (others : List String)
    (span : Span) :
    ∃ suggestion, (Diagnostic.ambiguousExposure host component (accessor :: others) span).suggestion =
        some suggestion ∧ bracketedNames suggestion = ["ContractState", accessor] := by
  refine ⟨_, rfl, ?_⟩
  have fixed : "add the accessor as a second generic argument, e.g. <ContractState, ".toList =
      "add the accessor as a second generic argument, e.g. ".toList ++
        '<' :: ("ContractState".toList ++ [',', ' ']) := by
    decide +kernel
  have spelled : ("add the accessor as a second generic argument, e.g. <ContractState, " ++
      accessor ++ ">").toList = "add the accessor as a second generic argument, e.g. ".toList ++
        '<' :: ("ContractState".toList ++ ',' :: ' ' :: accessor.toList ++ ['>']) := by
    rw [String.toList_append, String.toList_append, fixed]
    simp
  have opening : "add the accessor as a second generic argument, e.g. ".toList.all (· ≠ '<') := by
    decide +kernel
  have state : "ContractState".toList.all (· ≠ ',') := by decide
  rw [List.all_eq_true] at opening state
  rw [bracketedNames, spelled, List.dropWhile_append_of_pos opening]
  rw [List.dropWhile_cons_of_neg (by decide), List.tail_cons, List.dropLast_concat]
  rw [List.takeWhile_append_of_pos state, List.dropWhile_append_of_pos state]
  rw [List.takeWhile_cons_of_neg (by decide), List.dropWhile_cons_of_neg (by decide)]
  simp

namespace Host

variable {host : Host} {registry : Registry} {generated : List (Option Generated)}
  {contractState : String} {exposure : Exposure}

/-- Any accessor of the component settles an ambiguous exposure behind the state of the contract.
What is suggested does so just where that is the default state; else it is refused for its state. -/
theorem ambiguity_settled_under_default_state {hostName component : String}
    {accessors : List String} {span : Span}
    (ambiguous : host.select registry generated contractState exposure =
      .refused (.ambiguousExposure hostName component accessors span)) :
    (∀ accessor ∈ accessors, ∀ diagnostic,
      host.select registry generated contractState
        { exposure with generics := [contractState, accessor] } ≠ .refused diagnostic) ∧
    ∃ suggestion,
      (Diagnostic.ambiguousExposure hostName component accessors span).suggestion =
        some suggestion ∧
      let followed := { exposure with generics := bracketedNames suggestion }
      (contractState = "ContractState" → ∀ diagnostic,
        host.select registry generated contractState followed ≠ .refused diagnostic) ∧
      (contractState ≠ "ContractState" →
        host.select registry generated contractState followed =
          .refused (.hostTypeMismatch host.name contractState "ContractState" exposure.span)) := by
  cases select_refused_iff.mp ambiguous with
  | @ambiguous name aliasName definition reaches _ _ _ =>
      -- The path stays as it is, so the component and the alias are still reached.
      have reached : ∀ generics : List String,
          host.Reaches registry { exposure with generics } name aliasName definition :=
        fun _ => ⟨reaches.target, reaches.registered, reaches.included, reaches.exported⟩
      have settled : ∀ accessor ∈ host.accessorsOf name, ∀ diagnostic,
          host.select registry generated contractState
            { exposure with generics := [contractState, accessor] } ≠ .refused diagnostic := by
        intro accessor own
        apply select_not_refused (reached _)
        exact ⟨rfl, .inl ⟨accessor, own, rfl⟩⟩
      refine ⟨settled, ?_⟩
      cases listed : host.accessorsOf name with
      | nil => exact absurd (List.map_eq_nil_iff.mp listed) reaches.included
      | cons accessor others =>
          rcases ambiguous_suggestion_names host.name definition.name accessor others exposure.span
            with ⟨suggestion, suggested, names⟩
          refine ⟨suggestion, suggested, ?_, ?_⟩
          · intro default
            rw [names, ← default]
            exact settled accessor (listed ▸ List.mem_cons_self)
          · intro other
            rw [names, select_refused_iff]
            apply Refuses.otherState (reached _)
            intro same
            exact other (Option.some.inj same).symm

/-- Two accessors, of which the first is to be named. -/
theorem ambiguous_counter_settled :
    let exposure : Exposure :=
      ⟨"Mine", ["counter", "Counter"], ["ContractState"], true, .point 1 1⟩
    let report : Diagnostic := .ambiguousExposure "Tally" "counter"
      ["HasComponentImpl_first", "HasComponentImpl_second"] (.point 1 1)
    counterHost.select counterRegistry [] "ContractState" exposure = .refused report ∧
      ∃ suggestion, report.suggestion = some suggestion ∧ ∀ diagnostic,
        counterHost.select counterRegistry [] "ContractState"
          { exposure with generics := bracketedNames suggestion } ≠ .refused diagnostic := by
  intro exposure report
  have ambiguous : counterHost.select counterRegistry [] "ContractState" exposure =
      .refused report := by decide +kernel
  rcases (ambiguity_settled_under_default_state ambiguous).2 with ⟨suggestion, given, settled, _⟩
  exact ⟨ambiguous, suggestion, given, settled rfl⟩

/-- In a contract with a state of another name, the suggestion leads to the next report. -/
theorem suggested_state_refused :
    let exposure : Exposure := ⟨"Mine", ["counter", "Counter"], ["Tally"], true, .point 1 1⟩
    let report : Diagnostic := .ambiguousExposure "Tally" "counter"
      ["HasComponentImpl_first", "HasComponentImpl_second"] (.point 1 1)
    counterHost.select counterRegistry [] "Tally" exposure = .refused report ∧
      report.suggestion.map bracketedNames = some ["ContractState", "HasComponentImpl_first"] ∧
      counterHost.select counterRegistry [] "Tally"
          { exposure with generics := ["ContractState", "HasComponentImpl_first"] } =
        .refused (.hostTypeMismatch "Tally" "Tally" "ContractState" (.point 1 1)) := by
  decide +kernel

end Host

/-! ### Aliases for an unresolved exposure -/

def Exposure.withAlias (exposure : Exposure) (aliasName : String) : Exposure :=
  { exposure with path := exposure.path.dropLast ++ [aliasName] }

theorem Exposure.target_with_alias {exposure : Exposure} {name aliasName : String}
    (targeted : exposure.target? = some (name, aliasName)) (other : String) :
    exposure.path.head? = some name ∧
      (exposure.withAlias other).target? = some (name, other) := by
  unfold target? at targeted
  split at targeted
  · next first second rest path =>
      cases targeted
      have replaced : (exposure.withAlias other).path =
          name :: ((second :: rest).dropLast ++ [other]) := by
        rw [withAlias, path, List.dropLast_cons_cons, List.cons_append]
      rw [path, target?, replaced]
      refine ⟨rfl, ?_⟩
      cases (second :: rest).dropLast with
      | nil => rfl
      | cons next others =>
          have last : (next :: (others ++ [other])).getLast? = some other := by
            rw [← List.cons_append, List.getLast?_concat]
          simp only [List.cons_append, List.getLastD_eq_getLast?, last, Option.getD_some]
  · cases targeted

/-- A component exports just the aliases that it lists. -/
theorem Component.mem_aliases {component : Component} {aliasName : String} :
    aliasName ∈ component.aliases ↔ component.embeddableAs? aliasName ≠ none := by
  rw [aliases, embeddableAs?, List.mem_filterMap, ne_eq, List.find?_eq_none]
  simp

namespace Host

variable {host : Host} {registry : Registry} {generated : List (Option Generated)}
  {contractState : String} {exposure : Exposure}

/-- Aliases are listed for a registered component and are all that it exports. Where the host includes
the component, each of them resolves the exposure; where it does not, none of them does. -/
theorem listed_aliases_usable_where_included {hostName path : String} {available : List String}
    {span : Span}
    (unresolved : host.select registry generated contractState exposure =
      .refused (.unresolvedAlias hostName path available span)) (listed : available ≠ []) :
    ∃ name component, exposure.path.head? = some name ∧ registry.get? name = some component ∧
      ∀ aliasName ∈ available,
        (∃ impl ∈ component.embeddable, impl.aliasName = some aliasName) ∧
        ∀ generics : List String,
          let retargeted := { exposure.withAlias aliasName with generics }
          (host.inclusionsOf name ≠ [] → host.PicksOne contractState name generics →
            ∀ diagnostic,
              host.select registry generated contractState retargeted ≠ .refused diagnostic) ∧
          (host.inclusionsOf name = [] →
            host.select registry generated contractState retargeted =
              .refused (.unresolvedAlias host.name retargeted.pathText available exposure.span)) := by
  cases select_refused_iff.mp unresolved with
  | noTarget => exact absurd rfl listed
  | unknown => exact absurd rfl listed
  | otherAccessor => exact absurd rfl listed
  | @unusable name former component targeted found unusable =>
      refine ⟨name, component, (exposure.target_with_alias targeted former).1, found, ?_⟩
      intro aliasName member
      have target := (exposure.target_with_alias targeted aliasName).2
      constructor
      · rcases List.mem_filterMap.mp member with ⟨impl, declared, named⟩
        refine ⟨impl, List.mem_filter.mpr ⟨declared, ?_⟩, named⟩
        rw [Implementation.isEmbeddable, named]
        rfl
      · intro generics retargeted
        constructor
        · intro included picks
          have reaches : host.Reaches registry retargeted name aliasName component :=
            ⟨target, found, included, Component.mem_aliases.mp member⟩
          exact select_not_refused reaches picks
        · intro excluded
          rw [select_refused_iff]
          exact .unusable target found (.inl excluded)

/-- An alias that the counter does not export, mended by the one that is listed. -/
theorem listed_counter_alias_usable :
    let exposure : Exposure :=
      ⟨"Mine", ["counter", "Other"], ["ContractState"], true, .point 1 1⟩
    counterHost.select counterRegistry [] "ContractState" exposure =
        .refused (.unresolvedAlias "Tally" "counter::Other" ["Counter"] (.point 1 1)) ∧
      ∀ diagnostic,
        counterHost.select counterRegistry [] "ContractState"
          { exposure.withAlias "Counter" with
            generics := ["ContractState", "HasComponentImpl_second"] } ≠ .refused diagnostic := by
  intro exposure
  have unresolved : counterHost.select counterRegistry [] "ContractState" exposure =
      .refused (.unresolvedAlias "Tally" "counter::Other" ["Counter"] (.point 1 1)) := by
    decide +kernel
  rcases listed_aliases_usable_where_included unresolved (List.cons_ne_nil _ _)
    with ⟨name, component, path, _, usable⟩
  cases path
  refine ⟨unresolved, ?_⟩
  apply ((usable "Counter" List.mem_cons_self).2 _).1
  · decide +kernel
  · exact ⟨rfl, .inl ⟨"HasComponentImpl_second", by decide +kernel, rfl⟩⟩

/-- A contract without inclusions is told of an alias that it cannot take. -/
theorem aliases_listed_without_inclusion :
    let host : Host := { counterHost with inclusions := [] }
    let exposure : Exposure :=
      ⟨"Mine", ["counter", "Counter"], ["ContractState"], true, .point 1 1⟩
    host.inclusionsOf "counter" = [] ∧ exposure.withAlias "Counter" = exposure ∧
      host.select counterRegistry [] "ContractState" exposure =
        .refused (.unresolvedAlias "Tally" "counter::Counter" ["Counter"] (.point 1 1)) := by
  decide +kernel

end Host

end Composer
