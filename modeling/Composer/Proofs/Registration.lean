import Composer.Registry
import Composer.Proofs.Occurrence

/-!
What registration guarantees. Every component of a registry that registrations can reach is the
definition of a declaration without faults, so whatever the absence of faults implies holds of all
that a lookup finds.
-/

namespace Composer

/-! ### Declarations without faults -/

theorem impl_faults_clean {interfaces : List Interface} {taken : List String}
    {impls : List ImplDecl} (clean : implFaults interfaces taken impls = []) :
    ∀ decl ∈ impls, decl.faults interfaces = [] := by
  induction impls generalizing taken with
  | nil => simp
  | cons decl rest ih =>
      rw [implFaults] at clean
      cases named : decl.aliasName? with
      | none =>
          simp only [named, List.append_eq_nil_iff] at clean
          exact List.forall_mem_cons.mpr ⟨clean.1, ih clean.2⟩
      | some aliasName =>
          simp only [named, List.append_eq_nil_iff] at clean
          exact List.forall_mem_cons.mpr ⟨clean.1.1, ih clean.2⟩

/-- An alias is accepted only on an implementation of an interface of the same component. -/
theorem ImplDecl.alias_needs_interface {decl : ImplDecl} {interfaces : List Interface}
    (clean : decl.faults interfaces = []) (named : decl.aliasName?.isSome) :
    ∃ name interface, decl.interface = some name ∧
      interfaces.find? (·.name = name.name) = some interface := by
  have interfaceClean : decl.interfaceFaults interfaces = [] :=
    (List.append_eq_nil_iff.mp clean).2
  rw [ImplDecl.interfaceFaults] at interfaceClean
  cases stated : decl.interface with
  | none => simp [stated, named] at interfaceClean
  | some name =>
      cases found : interfaces.find? (·.name = name.name) with
      | none => simp [stated, found, named] at interfaceClean
      | some interface => exact ⟨name, interface, rfl, found⟩

namespace ComponentDecl

theorem faults_eq_nil (decl : ComponentDecl) :
    decl.faults = [] ↔
      ((storageMembers decl.storage).map (·.name.name)).Nodup ∧
        ((eventVariants decl.event).map (·.name.name)).Nodup ∧
        (∀ interface ∈ decl.interfaces, interface.faults = []) ∧
        implFaults decl.declaredInterfaces [] decl.impls = [] := by
  simp only [faults, List.append_eq_nil_iff, List.map_eq_nil_iff, List.flatMap_eq_nil_iff,
    repeats_by_eq_nil, and_assoc]

theorem definition_storage {decl : ComponentDecl} (clean : decl.faults = []) (file : String) :
    (decl.definition file).storage = (storageMembers decl.storage).map MemberDecl.field := by
  have distinct := (decl.faults_eq_nil.mp clean).1
  rw [definition, firsts_by_eq_self _ _ distinct]

theorem definition_fields_distinct {decl : ComponentDecl} (clean : decl.faults = [])
    (file : String) : ((decl.definition file).storage.map (·.name)).Nodup := by
  rw [definition_storage clean, List.map_map]
  exact (decl.faults_eq_nil.mp clean).1

theorem definition_interface_declared {decl : ComponentDecl} (clean : decl.faults = [])
    {file : String} {impl : Implementation} (member : impl ∈ (decl.definition file).impls)
    (embeddable : impl.isEmbeddable) :
    ∃ name interface, impl.interface = some name ∧
      (decl.definition file).interface? name = some interface := by
  rcases List.mem_map.mp member with ⟨implDecl, declared, rfl⟩
  have implClean := impl_faults_clean (decl.faults_eq_nil.mp clean).2.2.2 implDecl declared
  obtain ⟨name, interface, stated, found⟩ := implDecl.alias_needs_interface implClean embeddable
  exact ⟨name.name, interface, by simp [ImplDecl.implementation, stated], found⟩

end ComponentDecl

/-! ### Registries -/

namespace Registry

def Decided (registry : Registry) (name : String) : Prop :=
  (registry.get? name).isSome ∨ registry.isRejected name

/-- Everything that a registration can do. -/
theorem register_cases (registry : Registry) (decl : ComponentDecl) (file : String) :
    (registry.Decided decl.name.name ∧ registry.register decl file =
      (.error [.malformedComponent decl.name.name .duplicateComponent decl.name.span], registry)) ∨
    (¬registry.Decided decl.name.name ∧ decl.faults = [] ∧ registry.register decl file =
      (.ok (decl.definition file),
        { registry with components := registry.components ++ [decl.definition file] })) ∨
    (¬registry.Decided decl.name.name ∧ decl.faults ≠ [] ∧ registry.register decl file =
      (.error (decl.faults.map fun fault =>
          .malformedComponent decl.name.name fault.defect fault.span),
        { registry with rejected := decl.name.name :: registry.rejected })) := by
  by_cases decided : registry.Decided decl.name.name
  · have taken : (registry.get? decl.name.name).isSome || registry.isRejected decl.name.name := by
      simpa [Decided] using decided
    exact .inl ⟨decided, by rw [register, if_pos taken]⟩
  · have fresh : ¬((registry.get? decl.name.name).isSome ||
        registry.isRejected decl.name.name) := by
      simpa [Decided] using decided
    cases found : decl.faults with
    | nil => exact .inr (.inl ⟨decided, rfl, by simp only [register, if_neg fresh, found]⟩)
    | cons fault others =>
        exact .inr (.inr ⟨decided, by simp, by simp only [register, if_neg fresh, found]⟩)

/-- What is registered is the definition of a declaration without faults. -/
theorem registered_definition {registry later : Registry} {decl : ComponentDecl} {file : String}
    {component : Component} (registered : registry.register decl file = (.ok component, later)) :
    decl.faults = [] ∧ component = decl.definition file := by
  rcases registry.register_cases decl file with
    ⟨_, outcome⟩ | ⟨_, clean, outcome⟩ | ⟨_, _, outcome⟩
  · rw [outcome] at registered
    cases registered
  · rw [outcome] at registered
    cases registered
    exact ⟨clean, rfl⟩
  · rw [outcome] at registered
    cases registered

theorem get_name {registry : Registry} {name : String} {component : Component}
    (found : registry.get? name = some component) : component.name = name := by
  simpa using List.find?_some found

/-- Registries that registrations produce, whatever is declared in whichever order. -/
inductive Reachable : Registry → Prop
  | empty : Reachable .empty
  | add {registry : Registry} (reachable : Reachable registry) (decl : ComponentDecl)
      (file : String) : Reachable (registry.add decl file)

/-- Nothing but definitions of declarations without faults is ever registered. -/
theorem Reachable.registered {registry : Registry} (reachable : registry.Reachable) :
    ∀ component ∈ registry.components,
      ∃ decl file, decl.faults = [] ∧ component = ComponentDecl.definition decl file := by
  induction reachable with
  | empty => simp [Registry.empty]
  | @add registry reachable decl file ih =>
      rcases registry.register_cases decl file with
        ⟨_, outcome⟩ | ⟨_, clean, outcome⟩ | ⟨_, _, outcome⟩
      · simpa only [Registry.add, outcome] using ih
      · simp only [Registry.add, outcome, List.mem_append, List.mem_singleton]
        intro component member
        rcases member with earlier | rfl
        · exact ih component earlier
        · exact ⟨decl, file, clean, rfl⟩
      · simpa only [Registry.add, outcome] using ih

/-- No name is both registered and rejected. -/
theorem Reachable.not_rejected {registry : Registry} (reachable : registry.Reachable)
    {name : String} (registered : (registry.get? name).isSome) :
    registry.isRejected name = false := by
  induction reachable with
  | empty => rfl
  | @add registry reachable decl file ih =>
      rcases registry.register_cases decl file with
        ⟨_, outcome⟩ | ⟨fresh, _, outcome⟩ | ⟨fresh, _, outcome⟩
      · rw [Registry.add, outcome] at registered ⊢
        exact ih registered
      · rw [Registry.add, outcome] at registered ⊢
        rcases not_or.mp fresh with ⟨_, unrejected⟩
        rw [get?, List.find?_append, Option.isSome_or, Bool.or_eq_true] at registered
        rcases registered with before | last
        · exact ih before
        · have named : decl.name.name = name := by
            simpa [ComponentDecl.definition] using last
          rw [← named]
          exact Bool.not_eq_true _ ▸ unrejected
      · rw [Registry.add, outcome] at registered ⊢
        have other : decl.name.name ≠ name := by
          intro same
          exact fresh (.inl (same ▸ registered))
        rw [isRejected, List.contains_cons, Bool.or_eq_false_iff, beq_eq_false_iff_ne]
        exact ⟨Ne.symm other, ih registered⟩

theorem Reachable.fields_distinct {registry : Registry} (reachable : registry.Reachable)
    {name : String} {component : Component} (found : registry.get? name = some component) :
    (component.storage.map (·.name)).Nodup := by
  obtain ⟨decl, file, clean, rfl⟩ :=
    reachable.registered component (List.mem_of_find?_eq_some found)
  exact decl.definition_fields_distinct clean file

theorem Reachable.interface_declared {registry : Registry} (reachable : registry.Reachable)
    {name : String} {component : Component} (found : registry.get? name = some component)
    {impl : Implementation} (member : impl ∈ component.embeddable) :
    ∃ interfaceName interface, impl.interface = some interfaceName ∧
      component.interface? interfaceName = some interface := by
  obtain ⟨decl, file, clean, rfl⟩ :=
    reachable.registered component (List.mem_of_find?_eq_some found)
  rcases List.mem_filter.mp member with ⟨declared, embeddable⟩
  exact decl.definition_interface_declared clean declared embeddable

end Registry

/-! ### A registry of one component -/

def atStart (name : String) : Ident := ⟨name, .point 1 1⟩

def counterDecl : ComponentDecl where
  name := atStart "counter"
  storage := some
    ⟨[⟨[], atStart "value", .path [atStart "u64"] [] (.point 1 1), .point 1 1⟩], .point 1 1⟩
  event := none
  interfaces := [⟨atStart "ICounter",
    [⟨atStart "current", ⟨.snapshot, .path [atStart "State"] [] (.point 1 1), .point 1 1⟩, [],
      some (.path [atStart "u64"] [] (.point 1 1)), .point 1 1⟩], .point 1 1⟩]
  impls := [⟨[⟨atStart "embeddable_as", [atStart "Counter"], .point 1 1⟩],
    atStart "CounterImpl", some (atStart "ICounter"), [], .point 1 1⟩]
  span := .point 1 1

def counterRegistry : Registry := Registry.empty.add counterDecl "counter.graft"

theorem counter_registry_reachable : counterRegistry.Reachable :=
  .add .empty counterDecl "counter.graft"

def counterHost : Host where
  name := "Tally"
  file := "tally.graft"
  span := .point 1 1
  storage := [⟨"total", "u64", .native, .point 1 1⟩,
    ⟨"first", "counter::Storage", .layout .flat, .point 1 1⟩,
    ⟨"second", "counter::Storage", .layout .nested, .point 1 1⟩]
  events := [⟨"First", some "counter::Event", .point 1 1⟩,
    ⟨"Second", some "counter::Event", .point 1 1⟩]
  exposures := []
  inclusions := [⟨"counter", "first", "First", .point 1 1⟩,
    ⟨"counter", "second", "Second", .point 1 1⟩]

end Composer
