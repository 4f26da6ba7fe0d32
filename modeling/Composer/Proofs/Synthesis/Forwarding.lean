import Composer.Proofs.Registration.Restatement
import Composer.Synthesis.Output

/-!
Wrappers against the interfaces they implement. The methods of an interface are lowered twice: at
registration, where they replace what an implementation states again, and at synthesis, where a
wrapper looks the interface up by its name. Both follow the declaration, method by method, and so do
the entry points that are read off a wrapper.
-/

namespace Composer

theorem map_m_forall₂ {Element Result Failure : Type} {action : Element → Except Failure Result}
    {elements : List Element} {results : List Result} (ran : elements.mapM action = .ok results) :
    List.Forall₂ (fun element result => action element = .ok result) elements results := by
  induction elements generalizing results with
  | nil =>
      cases ran
      exact .nil
  | cons element rest ih =>
      rw [List.mapM_cons] at ran
      cases first : action element with
      | error failure =>
          rw [first] at ran
          cases ran
      | ok result =>
          cases later : rest.mapM action with
          | error failure =>
              rw [first, later] at ran
              cases ran
          | ok others =>
              rw [first, later] at ran
              cases ran
              exact .cons first (ih later)

/-! ### Methods -/

theorem MethodDecl.signature_param_names (declared : MethodDecl) :
    declared.signature.params.map (·.name) = declared.params.map (·.name.name) := by
  rw [signature, List.map_map]
  rfl

theorem MethodDecl.signature_param_types (declared : MethodDecl) :
    declared.signature.params.map (·.type) = declared.params.map (·.type.text) := by
  rw [signature, List.map_map]
  rfl

/-- The method takes and returns what the declared one does. It gets the view from the accessor, for
reading or for writing as the declared receiver asks, and calls the implementation on it with its
parameters in order. -/
structure WrapperMethod.Forwards (method : WrapperMethod) (declared : MethodDecl)
    (component implName accessor : String) : Prop where
  name : method.signature.name = declared.name.name
  receiver : method.signature.receiver = declared.receiver.kind
  paramNames : method.signature.params.map (·.name) = declared.params.map (·.name.name)
  paramTypes : method.signature.params.map (·.type) = declared.params.map (·.type.text)
  ret : method.signature.ret = declared.ret.map TypeExpr.text
  reading : declared.receiver.kind = .snapshot → method.body =
    ["let component = " ++ accessor ++ "::get_component(self);",
      component ++ "::" ++ implName ++ "::" ++ declared.name.name ++ "(" ++
        String.intercalate ", " ("component" :: declared.params.map (·.name.name)) ++ ")"]
  writing : declared.receiver.kind = .reference → method.body =
    ["let mut component = " ++ accessor ++ "::get_component_mut(ref self);",
      component ++ "::" ++ implName ++ "::" ++ declared.name.name ++ "(" ++
        String.intercalate ", " ("ref component" :: declared.params.map (·.name.name)) ++ ")"]

theorem forward_signature_forwards (declared : MethodDecl) (component implName accessor : String) :
    (WrapperMethod.forward declared.signature component implName accessor).Forwards declared
      component implName accessor := by
  refine ⟨rfl, rfl, declared.signature_param_names, declared.signature_param_types, rfl, ?_, ?_⟩
  · intro kind
    have receiver : declared.signature.receiver = .snapshot := kind
    rw [WrapperMethod.forward, declared.signature_param_names, receiver]
    rfl
  · intro kind
    have receiver : declared.signature.receiver = .reference := kind
    rw [WrapperMethod.forward, declared.signature_param_names, receiver]
    rfl

/-- The entry point is called as the declared method is, and is a view where the receiver only looks
at the state. -/
structure EntryPoint.Lists (entry : EntryPoint) (declared : MethodDecl) : Prop where
  name : entry.name = declared.name.name
  paramNames : entry.params.map (·.name) = declared.params.map (·.name.name)
  paramTypes : entry.params.map (·.type) = declared.params.map (·.type.text)
  ret : entry.ret = declared.ret.map TypeExpr.text
  view : entry.access = .view ↔ declared.receiver.kind = .snapshot
  external : entry.access = .external ↔ declared.receiver.kind = .reference

theorem EntryPoint.lists_of_signature {entry : EntryPoint} {declared : MethodDecl}
    (name : entry.name = declared.signature.name)
    (access : entry.access = .ofReceiver declared.signature.receiver)
    (params : entry.params = declared.signature.params)
    (ret : entry.ret = declared.signature.ret) : entry.Lists declared := by
  have kind : entry.access = .ofReceiver declared.receiver.kind := access
  refine ⟨name, ?_, ?_, ret, ?_, ?_⟩
  · rw [params, declared.signature_param_names]
  · rw [params, declared.signature_param_types]
  · rw [kind]
    cases declared.receiver.kind <;> simp [Access.ofReceiver]
  · rw [kind]
    cases declared.receiver.kind <;> simp [Access.ofReceiver]

/-! ### Wrappers -/

theorem Inclusion.generate_eq_ok {inclusion : Inclusion} {component : Component} {host : Host}
    {hostState : String} {generated : Generated}
    (ran : inclusion.generate component host hostState = .ok generated) :
    inclusion.accessor component host hostState = .ok generated.accessor ∧
      component.embeddable.mapM (·.wrapper component generated.accessor) =
        .ok generated.wrappers := by
  rw [generate] at ran
  cases made : inclusion.accessor component host hostState with
  | error failure =>
      rw [made] at ran
      cases ran
  | ok accessor =>
      cases wrapped : component.embeddable.mapM (·.wrapper component accessor) with
      | error failure =>
          simp only [made, wrapped, bind, Except.bind] at ran
          cases ran
      | ok wrappers =>
          simp only [made, wrapped, bind, Except.bind] at ran
          cases ran
          exact ⟨rfl, wrapped⟩

theorem Inclusion.accessor_named {inclusion : Inclusion} {component : Component} {host : Host}
    {hostState : String} {accessor : Accessor}
    (made : inclusion.accessor component host hostState = .ok accessor) :
    accessor.name = "HasComponentImpl_" ++ inclusion.storageField := by
  rw [Inclusion.accessor] at made
  split at made
  · cases made
  · split at made
    · cases made
    · cases made
      rfl

/-- A wrapper stands for the interface that an implementation names, the first one of that name. -/
structure Wrapper.Follows (wrapper : Wrapper) (decl : ComponentDecl) (accessor : String)
    (impl : ImplDecl) (registered : Implementation) : Prop where
  interface : ∃ name interface, impl.interface = some name ∧
    decl.interfaces.find? (·.name.name = name.name) = some interface ∧
    List.Forall₂
      (fun declared method => method.Forwards declared decl.name.name impl.name.name accessor)
      interface.methods wrapper.methods ∧
    ∀ exposure, List.Forall₂ (fun declared entry => entry.Lists declared)
      interface.methods (wrapper.entryPoints exposure)
  registered : registered.methods = wrapper.methods.map (·.signature)

/-- The wrapper of methods that are declared under different names. -/
theorem follows_of_methods {decl : ComponentDecl} {impl : ImplDecl} {registered : Implementation}
    {wrapper : Wrapper} {name : Ident} {interface : InterfaceDecl}
    (stated : impl.interface = some name)
    (found : decl.interfaces.find? (·.name.name = name.name) = some interface)
    (distinct : (interface.methods.map (·.name.name)).Nodup)
    (methods : wrapper.methods = (signatures interface.methods).map fun signature =>
      .forward signature decl.name.name impl.name.name wrapper.accessor)
    (same : registered.methods = signatures interface.methods) :
    wrapper.Follows decl wrapper.accessor impl registered := by
  rw [signatures_of_distinct distinct, List.map_map] at methods
  refine ⟨⟨name, interface, stated, found, ?_, ?_⟩, ?_⟩
  · rw [methods, List.forall₂_map_right_iff, List.forall₂_same]
    intro declared _
    exact forward_signature_forwards declared _ _ _
  · intro exposure
    rw [Wrapper.entryPoints, methods, List.map_map, List.forall₂_map_right_iff, List.forall₂_same]
    intro declared _
    exact EntryPoint.lists_of_signature rfl rfl rfl rfl
  · rw [same, methods, List.map_map, signatures_of_distinct distinct]
    rfl

/-- The implementations that may be embedded are those that carry the attribute. -/
theorem ComponentDecl.Consistent.definition_embeddable {decl : ComponentDecl}
    (consistent : decl.Consistent) (file : String) :
    (decl.definition file).embeddable =
      (decl.impls.filter (·.embeddableAttributes ≠ [])).map
        (·.implementation decl.declaredInterfaces) := by
  rw [Component.embeddable, definition, List.filter_map]
  apply congrArg
  apply List.filter_congr
  intro impl declared
  have own := consistent.impls_consistent impl declared
  have marks := impl.alias_faults_eq_nil.mpr ⟨own.marked_once, own.alias_given⟩
  rw [Bool.eq_iff_iff, decide_eq_true_iff, ← ImplDecl.alias_is_some_iff marks]
  rfl

theorem wrapper_follows {decl : ComponentDecl} (consistent : decl.Consistent) {file : String}
    {impl : ImplDecl} (declared : impl ∈ decl.impls) (marked : impl.embeddableAttributes ≠ [])
    {accessor : Accessor} {wrapper : Wrapper}
    (made : (impl.implementation decl.declaredInterfaces).wrapper (decl.definition file) accessor =
      .ok wrapper) :
    wrapper.Follows decl accessor.name impl (impl.implementation decl.declaredInterfaces) := by
  obtain ⟨name, stated, known⟩ :=
    (consistent.impls_consistent impl declared).interface_declared marked
  obtain ⟨interface, found⟩ : ∃ interface,
      decl.interfaces.find? (·.name.name = name.name) = some interface := by
    apply Option.isSome_iff_exists.mp
    rw [List.find?_isSome]
    obtain ⟨interface, member, same⟩ := known
    exact ⟨interface, member, by simpa using same⟩
  have distinct := consistent.interface_methods_distinct interface
    (List.mem_of_find?_eq_some found)
  have looked : (decl.definition file).interface? name.name = some interface.interface := by
    have lookup := ImplDecl.find_interface decl.interfaces name.name
    rw [found] at lookup
    exact lookup
  have registered := ImplDecl.implementation_of_declared stated found
  rw [ComponentDecl.declaredInterfaces] at made ⊢
  rw [registered] at made ⊢
  rw [Implementation.wrapper] at made
  split at made
  · cases made
  · cases named : impl.aliasName? with
    | none =>
        simp only [named] at made
        cases made
    | some aliasName =>
        simp only [named, looked] at made
        cases made
        exact follows_of_methods stated found distinct rfl rfl

/-- Every wrapper that is generated for a registered component follows the interface of its
implementation: one method for each declared one, in order, that takes and returns the same and hands
its parameters to the implementation through the accessor of the inclusion. The signatures registered
for the implementation and the entry points of the wrapper are those of the same methods. -/
theorem wrappers_follow_interfaces {registry later : Registry} {decl : ComponentDecl}
    {file : String} {component : Component}
    (registered : registry.register decl file = (.ok component, later))
    {inclusion : Inclusion} {host : Host} {hostState : String} {generated : Generated}
    (ran : inclusion.generate component host hostState = .ok generated) :
    generated.accessor.name = "HasComponentImpl_" ++ inclusion.storageField ∧
      List.Forall₂
        (fun (request : ImplDecl × Implementation) wrapper =>
          wrapper.Follows decl generated.accessor.name request.1 request.2)
        ((decl.impls.zip component.impls).filter fun request =>
          request.1.embeddableAttributes ≠ [])
        generated.wrappers := by
  obtain ⟨clean, rfl⟩ := Registry.registered_definition registered
  have consistent := decl.faults_eq_nil_iff_consistent.mp clean
  obtain ⟨made, wrapped⟩ := Inclusion.generate_eq_ok ran
  refine ⟨Inclusion.accessor_named made, ?_⟩
  have requests : (decl.impls.zip (decl.definition file).impls).filter (fun request =>
      request.1.embeddableAttributes ≠ []) =
        (decl.impls.filter (·.embeddableAttributes ≠ [])).map fun impl =>
          (impl, impl.implementation decl.declaredInterfaces) := by
    change (decl.impls.zip (decl.impls.map fun impl =>
      impl.implementation decl.declaredInterfaces)).filter _ = _
    rw [← List.map_prod_left_eq_zip, List.filter_map]
    rfl
  rw [requests, List.forall₂_map_left_iff]
  have generatedFor := map_m_forall₂ wrapped
  rw [consistent.definition_embeddable, List.forall₂_map_left_iff] at generatedFor
  apply (List.forall₂_and_left _ _ |>.mpr ⟨fun impl member => member, generatedFor⟩).imp
  intro impl wrapper made
  obtain ⟨member, succeeded⟩ := made
  obtain ⟨declared, marked⟩ := List.mem_filter.mp member
  exact wrapper_follows consistent declared (by simpa using marked) succeeded

/-- A counter that can be read and added to. A second interface has the name of the first, and the
implementation states one of the methods again. -/
def adderDecl : ComponentDecl :=
  let number : TypeExpr := .path [atStart "u64"] [] (.point 1 1)
  let state : TypeExpr := .path [atStart "State"] [] (.point 1 1)
  let current : MethodDecl :=
    ⟨atStart "current", ⟨.snapshot, state, .point 1 1⟩, [], some number, .point 1 1⟩
  let add : MethodDecl :=
    ⟨atStart "add", ⟨.reference, state, .point 1 1⟩,
      [⟨atStart "amount", number, .point 1 1⟩, ⟨atStart "times", number, .point 1 1⟩], none,
      .point 1 1⟩
  { counterDecl with
    interfaces := [⟨atStart "ICounter", [current, add], .point 1 1⟩,
      ⟨atStart "ICounter", [current], .point 1 1⟩]
    impls := [⟨[⟨atStart "embeddable_as", [atStart "Counter"], .point 1 1⟩],
      atStart "CounterImpl", some (atStart "ICounter"), [add], .point 1 1⟩] }

/-- The wrapper over the first of the members that the host gives to counters. -/
theorem adder_wrapped :
    let component := adderDecl.definition "counter.graft"
    ∃ generated,
      Inclusion.generate ⟨"counter", "first", "First", .point 1 1⟩ component counterHost "State" =
        .ok generated ∧
      generated.wrappers.map (fun wrapper => wrapper.methods.map (·.body)) =
        [[["let component = HasComponentImpl_first::get_component(self);",
            "counter::CounterImpl::current(component)"],
          ["let mut component = HasComponentImpl_first::get_component_mut(ref self);",
            "counter::CounterImpl::add(ref component, amount, times)"]]] ∧
      generated.accessor.name = "HasComponentImpl_first" ∧
      List.Forall₂
        (fun (request : ImplDecl × Implementation) wrapper =>
          wrapper.Follows adderDecl generated.accessor.name request.1 request.2)
        ((adderDecl.impls.zip component.impls).filter fun request =>
          request.1.embeddableAttributes ≠ [])
        generated.wrappers := by
  intro component
  have registered : Registry.empty.register adderDecl "counter.graft" =
      (.ok component, ⟨[component], []⟩) := by
    rfl
  obtain ⟨generated, ran⟩ : ∃ generated, Inclusion.generate
      ⟨"counter", "first", "First", .point 1 1⟩ component counterHost "State" = .ok generated :=
    ⟨_, rfl⟩
  refine ⟨generated, ran, ?_, wrappers_follow_interfaces registered ran⟩
  cases ran
  decide

end Composer
