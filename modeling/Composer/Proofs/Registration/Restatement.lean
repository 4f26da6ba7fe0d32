import Composer.Compilation
import Composer.Proofs.Registration.Consistency
import Mathlib.Data.List.Forall2

/-!
Methods that are stated again. An implementation of a declared interface may state methods of it once
more; registration looks up their names in the interface and registers the signatures of the interface.
Nothing but the names is compared, so whatever receiver, parameters and result are stated again, the
outcome of registration is the same.
-/

namespace Composer

/-! ### Methods by their names -/

theorem signature_names (methods : List MethodDecl) :
    (signatures methods).map (·.name) = (firstsBy (·.name) (methods.map (·.name))).map (·.name) := by
  rw [signatures, firstsBy, firstsBy, firsts_after_map, List.map_map, List.map_map]
  rfl

theorem method_faults_of_names (owner : String) (methods : List MethodDecl) :
    methodFaults owner methods = (repeatsBy (·.name) (methods.map (·.name))).map fun name =>
      ⟨.duplicateMethod owner name.name, name.span⟩ := by
  rw [methodFaults, repeatsBy, repeatsBy, repeats_after_map, List.map_map]
  rfl

theorem method_faults_congr (owner : String) {methods others : List MethodDecl}
    (names : others.map (·.name) = methods.map (·.name)) :
    methodFaults owner others = methodFaults owner methods := by
  rw [method_faults_of_names, method_faults_of_names, names]

/-- What an interface lacks of methods is told by their names. -/
theorem foreign_methods_of_names (decl : ImplDecl) (interface : Interface) :
    ((signatures decl.methods).filter fun method =>
        !interface.methods.any (·.name = method.name)).map (fun method =>
          Fault.mk (.methodNotInInterface decl.name.name interface.name method.name) decl.span) =
      (((signatures decl.methods).map (·.name)).filter fun name =>
        !interface.methods.any (·.name = name)).map fun name =>
          ⟨.methodNotInInterface decl.name.name interface.name name, decl.span⟩ := by
  rw [List.filter_map, List.map_map]
  rfl

theorem signatures_of_distinct {methods : List MethodDecl}
    (distinct : (methods.map (·.name.name)).Nodup) :
    signatures methods = methods.map MethodDecl.signature := by
  rw [signatures, firsts_by_eq_self _ _ distinct]

/-! ### Implementations that restate alike -/

namespace ImplDecl

/-- An implementation of a declared interface has the methods of that interface. -/
theorem implementation_of_declared {decl : ImplDecl} {interfaces : List InterfaceDecl}
    {name : Ident} {interface : InterfaceDecl} (stated : decl.interface = some name)
    (found : interfaces.find? (·.name.name = name.name) = some interface) :
    decl.implementation (interfaces.map InterfaceDecl.interface) =
      { name := decl.name.name
        interface := some name.name
        aliasName := decl.aliasName?
        methods := signatures interface.methods
        span := decl.span } := by
  have declared : decl.declaredInterface? (interfaces.map InterfaceDecl.interface) =
      some interface.interface := by
    rw [declaredInterface?, stated, Option.bind_some, find_interface, found, Option.map_some]
  rw [implementation, declared, stated]
  rfl

/-- The other implementation is the same but for what it states again of an interface declared beside
it, and of that it has the same names. -/
structure RestatesLike (interfaces : List InterfaceDecl) (decl other : ImplDecl) : Prop where
  same : other = { decl with methods := other.methods }
  names : other.methods.map (·.name) = decl.methods.map (·.name)
  restated : other.methods ≠ decl.methods → ∃ name interface, decl.interface = some name ∧
    interfaces.find? (·.name.name = name.name) = some interface

namespace RestatesLike

variable {interfaces : List InterfaceDecl} {decl other : ImplDecl}

theorem alias_name (alike : RestatesLike interfaces decl other) :
    other.aliasName? = decl.aliasName? := by
  rw [alike.same]
  rfl

theorem faults (alike : RestatesLike interfaces decl other) (known : List Interface) :
    other.faults known = decl.faults known := by
  have signed : (signatures other.methods).map (·.name) =
      (signatures decl.methods).map (·.name) := by
    rw [signature_names, signature_names, alike.names]
  have methods : methodFaults other.name.name other.methods =
      methodFaults decl.name.name decl.methods := by
    rw [alike.same]
    exact method_faults_congr _ alike.names
  have rules : other.interfaceFaults known = decl.interfaceFaults known := by
    unfold interfaceFaults
    simp only [foreign_methods_of_names, signed]
    rw [alike.same]
    rfl
  have marks : other.aliasFaults = decl.aliasFaults := by
    rw [alike.same]
    rfl
  rw [ImplDecl.faults, ImplDecl.faults, marks, methods, rules]

theorem implementation (alike : RestatesLike interfaces decl other) :
    other.implementation (interfaces.map InterfaceDecl.interface) =
      decl.implementation (interfaces.map InterfaceDecl.interface) := by
  by_cases unchanged : other.methods = decl.methods
  · rw [alike.same, unchanged]
  · obtain ⟨name, interface, stated, found⟩ := alike.restated unchanged
    have otherStated : other.interface = some name := by
      rw [alike.same, stated]
    rw [implementation_of_declared stated found, implementation_of_declared otherStated found,
      alike.alias_name, alike.same]

end RestatesLike

end ImplDecl

/-! ### Components -/

namespace ComponentDecl

structure RestatesLike (decl other : ComponentDecl) : Prop where
  same : other = { decl with impls := other.impls }
  impls : List.Forall₂ (ImplDecl.RestatesLike decl.interfaces) decl.impls other.impls

namespace RestatesLike

variable {decl other : ComponentDecl}

theorem impl_faults {interfaces : List InterfaceDecl} {impls others : List ImplDecl}
    (alike : List.Forall₂ (ImplDecl.RestatesLike interfaces) impls others)
    (known : List Interface) (taken : List String) :
    implFaults known taken others = implFaults known taken impls := by
  induction alike generalizing taken with
  | nil => rfl
  | @cons impl other rest others head _ ih =>
      rw [implFaults, implFaults, head.alias_name]
      cases impl.aliasName? with
      | none => simp only [head.faults, ih]
      | some aliasName =>
          have span : other.span = impl.span := by rw [head.same]
          simp only [head.faults, ih, span]

theorem faults (alike : decl.RestatesLike other) : other.faults = decl.faults := by
  have impls := impl_faults alike.impls decl.declaredInterfaces []
  rw [ComponentDecl.faults, ComponentDecl.faults, ← impls, alike.same]
  rfl

theorem implementations {interfaces : List InterfaceDecl} {impls others : List ImplDecl}
    (alike : List.Forall₂ (ImplDecl.RestatesLike interfaces) impls others) :
    others.map (·.implementation (interfaces.map InterfaceDecl.interface)) =
      impls.map (·.implementation (interfaces.map InterfaceDecl.interface)) := by
  induction alike with
  | nil => rfl
  | cons head _ ih => rw [List.map_cons, List.map_cons, ih, head.implementation]

theorem definition (alike : decl.RestatesLike other) (file : String) :
    other.definition file = decl.definition file := by
  have impls : other.impls.map (·.implementation decl.declaredInterfaces) =
      decl.impls.map (·.implementation decl.declaredInterfaces) := implementations alike.impls
  rw [ComponentDecl.definition, ComponentDecl.definition, ← impls, alike.same]
  rfl

theorem register (alike : decl.RestatesLike other) (registry : Registry) (file : String) :
    registry.register other file = registry.register decl file := by
  have name : other.name = decl.name := by rw [alike.same]
  rw [Registry.register, Registry.register, alike.faults, alike.definition, name]

end RestatesLike

end ComponentDecl

/-- In a registered component each method that is stated again has the name of exactly one method of
the interface, and the signatures registered for the implementation are those of the interface. What
else is stated again counts for nothing: stated in any other way under the same names, the component
is registered as the same definition. -/
theorem restated_methods_agree_by_name {registry later : Registry} {decl : ComponentDecl}
    {file : String} {component : Component}
    (registered : registry.register decl file = (.ok component, later)) :
    (∀ impl ∈ decl.impls, ∀ name, impl.interface = some name →
      ∀ interface, decl.interfaces.find? (·.name.name = name.name) = some interface →
        (∀ restated ∈ impl.methods,
          ∃! method, method ∈ interface.methods ∧ method.name.name = restated.name.name) ∧
        impl.implementation decl.declaredInterfaces ∈ component.impls ∧
        (impl.implementation decl.declaredInterfaces).methods =
          interface.methods.map MethodDecl.signature) ∧
      ∀ other, decl.RestatesLike other → registry.register other file = (.ok component, later) := by
  obtain ⟨clean, rfl⟩ := Registry.registered_definition registered
  have consistent := decl.faults_eq_nil_iff_consistent.mp clean
  constructor
  · intro impl declared name stated interface found
    have distinct := consistent.interface_methods_distinct interface
      (List.mem_of_find?_eq_some found)
    refine ⟨?_, List.mem_map.mpr ⟨impl, declared, rfl⟩, ?_⟩
    · intro restated member
      have belongs := (consistent.impls_consistent impl declared).methods_belong name stated
        interface found restated member
      rcases List.mem_map.mp belongs with ⟨method, present, same⟩
      refine ⟨method, ⟨present, same⟩, ?_⟩
      intro other found
      exact List.inj_on_of_nodup_map distinct found.1 present (found.2.trans same.symm)
    · rw [ComponentDecl.declaredInterfaces, ImplDecl.implementation_of_declared stated found]
      exact signatures_of_distinct distinct
  · intro other alike
    rw [alike.register registry file, registered]

def restatingCounter (current : MethodDecl) : ComponentDecl :=
  { counterDecl with
    impls := [⟨[⟨atStart "embeddable_as", [atStart "Counter"], .point 1 1⟩],
      atStart "CounterImpl", some (atStart "ICounter"), [current], .point 1 1⟩] }

/-- The method of the counter as a look at the state, and as a change of it that takes an amount. -/
theorem counter_restated_either_way :
    let look : MethodDecl := ⟨atStart "current", ⟨.snapshot, .path [atStart "State"] [] (.point 1 1),
      .point 1 1⟩, [], some (.path [atStart "u64"] [] (.point 1 1)), .point 1 1⟩
    let change : MethodDecl := ⟨atStart "current", ⟨.reference,
      .path [atStart "State"] [] (.point 1 1), .point 1 1⟩,
      [⟨atStart "amount", .path [atStart "u8"] [] (.point 1 1), .point 1 1⟩], none, .point 1 1⟩
    ∃ component later,
      Registry.empty.register (restatingCounter look) "c.graft" = (.ok component, later) ∧
        Registry.empty.register (restatingCounter change) "c.graft" = (.ok component, later) ∧
        look.signature ≠ change.signature := by
  intro look change
  have registered : Registry.empty.register (restatingCounter look) "c.graft" =
      (.ok ((restatingCounter look).definition "c.graft"),
        ⟨[(restatingCounter look).definition "c.graft"], []⟩) := by
    rfl
  have alike : (restatingCounter look).RestatesLike (restatingCounter change) := by
    refine ⟨rfl, .cons ⟨rfl, rfl, fun _ => ?_⟩ .nil⟩
    exact ⟨atStart "ICounter", _, rfl, rfl⟩
  exact ⟨_, _, registered, (restated_methods_agree_by_name registered).2 _ alike, by decide⟩

def embeddedProgram (component : String) : List SourceFile :=
  [⟨"w.graft", component ++ " contract W \x7b component!(path: c, storage: s, event: E); " ++
    "#[abi(embed_v0)] impl L = c::A<S>; storage \x7b #[substorage(v0)] s: c::Storage \x7d " ++
    "event \x7b E: c::Event \x7d \x7d"⟩]

/-- An implementation states a change of state for a method that its interface declares as a look, with
a parameter of another name and type and without the result. -/
def divergentProgram : List SourceFile :=
  embeddedProgram ("component c \x7b interface I \x7b fn f(self: @S, x: u8) -> u8; \x7d " ++
    "#[embeddable_as(A)] impl X of I \x7b fn f(ref self: S, y: bool); \x7d \x7d")

/-- The program compiles, and the wrapper looks at the state and hands on what the interface takes. -/
theorem restated_signature_may_differ :
    let compilation := Compilation.ofFiles divergentProgram ⟨"S", 20, "v0"⟩
    let decls := (declarations DeclarationFile.components (parseAll divergentProgram)).map (·.content)
    compilation.success = true ∧
      decls.map (fun decl => decl.impls.map fun impl => impl.methods.map MethodDecl.signature) =
        [[[⟨"f", .reference, [⟨"y", "bool"⟩], none⟩]]] ∧
      decls.map (fun decl => (decl.definition "w.graft").impls.map (·.methods)) =
        [[[⟨"f", .snapshot, [⟨"x", "u8"⟩], some "u8"⟩]]] ∧
      compilation.hosts.map (fun compiled => compiled.output.wrappers.map fun wrapper =>
          wrapper.methods.map (·.body)) =
        [[[["let component = HasComponentImpl_s::get_component(self);", "c::X::f(component, x)"]]]] := by
  decide +kernel

end Composer
