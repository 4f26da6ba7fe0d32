import Composer.Proofs.Registration

/-!
Consistent declarations. `ComponentDecl.Consistent` says what a component has to be like without
looking at it in any order; the faults of a declaration are collected in nested passes. Nothing is
found in those passes just where the declaration is consistent.
-/

namespace Composer

/-! ### Methods -/

theorem method_faults_eq_nil (owner : String) (methods : List MethodDecl) :
    methodFaults owner methods = [] ↔ (methods.map (·.name.name)).Nodup := by
  rw [methodFaults, List.map_eq_nil_iff, repeats_by_eq_nil]

/-- Dropping repeated methods drops no name. -/
theorem mem_signature_names (methods : List MethodDecl) (name : String) :
    name ∈ (signatures methods).map (·.name) ↔ name ∈ methods.map (·.name.name) := by
  rw [signatures, List.map_map]
  exact mem_keys_firsts_by (fun method : MethodDecl => method.name.name) methods name

/-! ### Implementations -/

namespace ImplDecl

structure Consistent (decl : ImplDecl) (interfaces : List InterfaceDecl) : Prop where
  methods_distinct : (decl.methods.map (·.name.name)).Nodup
  marked_once : decl.embeddableAttributes.length ≤ 1
  alias_given : ∀ mark ∈ decl.embeddableAttributes, mark.args.length = 1
  /-- Only an implementation of an interface declared beside it may be embedded. -/
  interface_declared : decl.embeddableAttributes ≠ [] →
    ∃ name, decl.interface = some name ∧ ∃ interface ∈ interfaces, interface.name.name = name.name
  /-- Of several interfaces with one name the first is meant. -/
  methods_belong : ∀ name, decl.interface = some name →
    ∀ interface, interfaces.find? (·.name.name = name.name) = some interface →
      ∀ method ∈ decl.methods, method.name.name ∈ interface.methods.map (·.name.name)

def givenAliases (decl : ImplDecl) : List String :=
  decl.embeddableAttributes.flatMap fun mark => mark.args.map (·.name)

theorem alias_faults_eq_nil (decl : ImplDecl) :
    decl.aliasFaults = [] ↔ decl.embeddableAttributes.length ≤ 1 ∧
      ∀ mark ∈ decl.embeddableAttributes, mark.args.length = 1 := by
  rw [aliasFaults]
  cases decl.embeddableAttributes with
  | nil => simp
  | cons first others =>
      cases others with
      | cons second more => simp
      | nil =>
          cases args : first.args with
          | nil => simp [args]
          | cons given more => simp [args]

/-- Where one attribute gives one alias, that is the alias of the implementation. -/
theorem given_aliases_eq {decl : ImplDecl} (clean : decl.aliasFaults = []) :
    decl.givenAliases = decl.aliasName?.toList := by
  rcases decl.alias_faults_eq_nil.mp clean with ⟨once, given⟩
  rw [givenAliases, aliasName?]
  cases attributes : decl.embeddableAttributes with
  | nil => rfl
  | cons first others =>
      rw [attributes] at once given
      have alone : others = [] := by
        rw [List.length_cons] at once
        exact List.length_eq_zero_iff.mp (by omega)
      obtain ⟨argument, single⟩ := List.length_eq_one_iff.mp (given first List.mem_cons_self)
      simp [alone, single]

theorem alias_is_some_iff {decl : ImplDecl} (clean : decl.aliasFaults = []) :
    decl.aliasName?.isSome ↔ decl.embeddableAttributes ≠ [] := by
  have given := (decl.alias_faults_eq_nil.mp clean).2
  rw [aliasName?]
  cases attributes : decl.embeddableAttributes with
  | nil => simp
  | cons first others =>
      rw [attributes] at given
      obtain ⟨argument, single⟩ := List.length_eq_one_iff.mp (given first List.mem_cons_self)
      simp [single]

theorem find_interface (interfaces : List InterfaceDecl) (name : String) :
    (interfaces.map InterfaceDecl.interface).find? (·.name = name) =
      (interfaces.find? (·.name.name = name)).map InterfaceDecl.interface :=
  List.find?_map

theorem foreign_methods_eq_nil (decl : ImplDecl) (interface : InterfaceDecl) :
    ((signatures decl.methods).filter fun method =>
        !interface.interface.methods.any (·.name = method.name)) = [] ↔
      ∀ method ∈ decl.methods, method.name.name ∈ interface.methods.map (·.name.name) := by
  have belongs : ∀ name, (interface.interface.methods.any (·.name = name)) = true ↔
      name ∈ interface.methods.map (·.name.name) := by
    intro name
    rw [← mem_signature_names]
    simp [InterfaceDecl.interface]
  rw [List.filter_eq_nil_iff]
  simp only [Bool.not_eq_true', Bool.not_eq_false, belongs]
  constructor
  · intro all method member
    have named := (mem_signature_names decl.methods method.name.name).mpr
      (List.mem_map.mpr ⟨method, member, rfl⟩)
    rcases List.mem_map.mp named with ⟨signature, present, same⟩
    rw [← same]
    exact all signature present
  · intro all signature member
    have named := (mem_signature_names decl.methods signature.name).mp
      (List.mem_map.mpr ⟨signature, member, rfl⟩)
    rcases List.mem_map.mp named with ⟨method, present, same⟩
    rw [← same]
    exact all method present

theorem interface_faults_eq_nil {decl : ImplDecl} (clean : decl.aliasFaults = [])
    (interfaces : List InterfaceDecl) :
    decl.interfaceFaults (interfaces.map InterfaceDecl.interface) = [] ↔
      (decl.embeddableAttributes ≠ [] → ∃ name, decl.interface = some name ∧
        ∃ interface ∈ interfaces, interface.name.name = name.name) ∧
      ∀ name, decl.interface = some name →
        ∀ interface, interfaces.find? (·.name.name = name.name) = some interface →
          ∀ method ∈ decl.methods, method.name.name ∈ interface.methods.map (·.name.name) := by
  rw [← alias_is_some_iff clean, interfaceFaults]
  cases stated : decl.interface with
  | none => simp
  | some name =>
      simp only [find_interface]
      cases found : interfaces.find? (·.name.name = name.name) with
      | none =>
          have missing : ¬∃ interface ∈ interfaces, interface.name.name = name.name := by
            intro present
            rcases present with ⟨interface, member, same⟩
            simpa [same] using List.find?_eq_none.mp found interface member
          simp [found, missing]
      | some interface =>
          have present : ∃ interface ∈ interfaces, interface.name.name = name.name :=
            ⟨interface, List.mem_of_find?_eq_some found, by simpa using List.find?_some found⟩
          rw [Option.map_some, List.map_eq_nil_iff, foreign_methods_eq_nil]
          simp [found, present]

theorem faults_eq_nil (decl : ImplDecl) (interfaces : List InterfaceDecl) :
    decl.faults (interfaces.map InterfaceDecl.interface) = [] ↔ decl.Consistent interfaces := by
  rw [faults, List.append_eq_nil_iff, List.append_eq_nil_iff, method_faults_eq_nil]
  constructor
  · intro clean
    rcases clean with ⟨⟨aliases, methods⟩, interfaceClean⟩
    rcases decl.alias_faults_eq_nil.mp aliases with ⟨once, given⟩
    rcases (interface_faults_eq_nil aliases interfaces).mp interfaceClean with ⟨declared, belong⟩
    exact ⟨methods, once, given, declared, belong⟩
  · intro consistent
    have aliases := decl.alias_faults_eq_nil.mpr
      ⟨consistent.marked_once, consistent.alias_given⟩
    refine ⟨⟨aliases, consistent.methods_distinct⟩, ?_⟩
    apply (interface_faults_eq_nil aliases interfaces).mpr
    exact ⟨consistent.interface_declared, consistent.methods_belong⟩

end ImplDecl

/-- Implementations in order: each by itself, and no alias that an earlier one has. -/
theorem impl_faults_eq_nil (interfaces : List Interface) (taken : List String)
    (impls : List ImplDecl) :
    implFaults interfaces taken impls = [] ↔
      (∀ decl ∈ impls, decl.faults interfaces = []) ∧
        Fresh taken (impls.filterMap (·.aliasName?)) := by
  induction impls generalizing taken with
  | nil => simp [implFaults, fresh_nil]
  | cons decl rest ih =>
      rw [implFaults, List.forall_mem_cons]
      cases named : decl.aliasName? with
      | none => simp only [List.append_eq_nil_iff, ih, List.filterMap_cons, named, and_assoc]
      | some aliasName =>
          simp only [List.append_eq_nil_iff, ih, List.filterMap_cons, named, fresh_cons]
          by_cases known : aliasName ∈ taken
          · simp [known]
          · simp only [known, if_false, not_false_eq_true, true_and, and_assoc]

/-! ### Components -/

namespace ComponentDecl

structure Consistent (decl : ComponentDecl) : Prop where
  fields_distinct : ((storageMembers decl.storage).map (·.name.name)).Nodup
  variants_distinct : ((eventVariants decl.event).map (·.name.name)).Nodup
  interface_methods_distinct : ∀ interface ∈ decl.interfaces,
    (interface.methods.map (·.name.name)).Nodup
  impls_consistent : ∀ impl ∈ decl.impls, impl.Consistent decl.interfaces
  aliases_distinct : (decl.impls.flatMap ImplDecl.givenAliases).Nodup

theorem given_aliases_of_clean {impls : List ImplDecl}
    (clean : ∀ impl ∈ impls, impl.aliasFaults = []) :
    impls.flatMap ImplDecl.givenAliases = impls.filterMap (·.aliasName?) := by
  rw [List.filterMap_eq_flatMap_toList]
  apply List.flatMap_congr
  intro impl member
  exact ImplDecl.given_aliases_eq (clean impl member)

/-- The builder finds nothing just where the declaration is consistent. -/
theorem faults_eq_nil_iff_consistent (decl : ComponentDecl) :
    decl.faults = [] ↔ decl.Consistent := by
  have each : ∀ impl : ImplDecl, impl.faults decl.declaredInterfaces = [] ↔
      impl.Consistent decl.interfaces := fun impl => impl.faults_eq_nil decl.interfaces
  have aliasClean : ∀ impl : ImplDecl, impl.Consistent decl.interfaces → impl.aliasFaults = [] :=
    fun impl consistent =>
      impl.alias_faults_eq_nil.mpr ⟨consistent.marked_once, consistent.alias_given⟩
  rw [faults_eq_nil, impl_faults_eq_nil, fresh_untaken]
  simp only [each, InterfaceDecl.faults, method_faults_eq_nil]
  constructor
  · intro clean
    rcases clean with ⟨fields, variants, methods, impls, aliases⟩
    refine ⟨fields, variants, methods, impls, ?_⟩
    rw [given_aliases_of_clean fun impl member => aliasClean impl (impls impl member)]
    exact aliases
  · intro consistent
    have impls := consistent.impls_consistent
    refine ⟨consistent.fields_distinct, consistent.variants_distinct,
      consistent.interface_methods_distinct, impls, ?_⟩
    rw [← given_aliases_of_clean fun impl member => aliasClean impl (impls impl member)]
    exact consistent.aliases_distinct

instance (decl : ComponentDecl) : Decidable decl.Consistent :=
  decidable_of_iff _ decl.faults_eq_nil_iff_consistent

end ComponentDecl

end Composer
