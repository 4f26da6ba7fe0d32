import Composer.Proofs.Compilation.Naming
import Composer.Proofs.Synthesis.Forwarding
import Composer.Proofs.Synthesis.Gating

/-!
Scopes in wrapper methods. The head binds `self` and the parameters, the first statement binds
`component`, and the call behind it uses the last of bindings with one name. Keywords keep parameters
off the other two names, so the view is never captured; nothing keeps two parameters apart, and where
they share a name the call hands on the later one for both.
-/

namespace Composer

/-! ### Scopes -/

inductive Referent
  | host
  | parameter (place : Nat)
  | view
deriving DecidableEq, Repr

def parameterBindings (first : Nat) (names : List String) : List (String × Referent) :=
  (names.zipIdx first).map (Prod.map id Referent.parameter)

def LastAt (names : List String) (name : String) (place : Nat) : Prop :=
  names[place]? = some name ∧ name ∉ names.drop (place + 1)

namespace WrapperMethod

def paramNames (method : WrapperMethod) : List String := method.signature.params.map (·.name)

def bindings (method : WrapperMethod) : List (String × Referent) :=
  ("self", .host) :: (parameterBindings 0 method.paramNames ++ [("component", .view)])

def boundNames (method : WrapperMethod) : List String := method.bindings.map (·.1)

/-- What a name stands for in the call; the binding nearest to it counts. -/
def referent? (method : WrapperMethod) (name : String) : Option Referent :=
  method.bindings.reverse.lookup name

/-- The call is on the view, and each argument stands for the parameter at its place. -/
structure CaptureFree (method : WrapperMethod) : Prop where
  receiver : method.referent? "component" = some .view
  arguments : ∀ place name, method.paramNames[place]? = some name →
    method.referent? name = some (.parameter place)

end WrapperMethod

theorem parameter_bindings_names (first : Nat) (names : List String) :
    (parameterBindings first names).map (·.1) = names := by
  rw [parameterBindings, List.map_map]
  exact List.zipIdx_map_fst first names

theorem lookup_no_parameter {names : List String} {name : String} (absent : name ∉ names)
    (first : Nat) : (parameterBindings first names).reverse.lookup name = none := by
  rw [List.lookup_eq_none_iff]
  intro binding bound
  have named : binding.1 ∈ names := by
    rw [← parameter_bindings_names first names]
    exact List.mem_map_of_mem (List.mem_reverse.mp bound)
  rw [bne_iff_ne]
  intro clash
  exact absent (clash ▸ named)

/-- A parameter is found at the last place of its name. -/
theorem lookup_last_parameter {names : List String} {name : String} (member : name ∈ names)
    (first : Nat) : ∃ place, LastAt names name place ∧
      (parameterBindings first names).reverse.lookup name =
        some (.parameter (first + place)) := by
  induction names generalizing first with
  | nil => cases member
  | cons head rest ih =>
      rw [parameterBindings, List.zipIdx_cons, List.map_cons, List.reverse_cons,
        List.lookup_append]
      change ∃ place, _ ∧ ((parameterBindings (first + 1) rest).reverse.lookup name).or _ = _
      by_cases again : name ∈ rest
      · obtain ⟨place, last, found⟩ := ih again (first + 1)
        refine ⟨place + 1, last, ?_⟩
        rw [found, Nat.add_right_comm, Nat.add_assoc]
        rfl
      · have same : name = head := by
          rcases List.mem_cons.mp member with same | later
          · exact same
          · exact absurd later again
        refine ⟨0, ⟨by rw [same]; rfl, again⟩, ?_⟩
        rw [lookup_no_parameter again, same]
        exact List.lookup_cons_self

namespace WrapperMethod

theorem bound_names_eq (method : WrapperMethod) :
    method.boundNames = "self" :: (method.paramNames ++ ["component"]) := by
  rw [boundNames, bindings, List.map_cons, List.map_append, parameter_bindings_names]
  rfl

/-- The scopes from the call outwards. -/
theorem referent_eq (method : WrapperMethod) (name : String) :
    method.referent? name = ([("component", Referent.view)].lookup name).or
      (((parameterBindings 0 method.paramNames).reverse.lookup name).or
        ([("self", Referent.host)].lookup name)) := by
  rw [referent?, bindings, ← List.cons_append, List.reverse_append, List.lookup_append,
    List.reverse_singleton, List.reverse_cons, List.lookup_append]

theorem receiver_stands_for_view (method : WrapperMethod) :
    method.referent? "component" = some .view := by
  rw [referent_eq]
  rfl

variable {method : WrapperMethod}

theorem self_stands_for_host (free : "self" ∉ method.paramNames) :
    method.referent? "self" = some .host := by
  rw [referent_eq, lookup_no_parameter free]
  rfl

theorem argument_stands_for_last (unlike : "component" ∉ method.paramNames) {name : String}
    (member : name ∈ method.paramNames) : ∃ place, LastAt method.paramNames name place ∧
      method.referent? name = some (.parameter place) := by
  obtain ⟨place, last, found⟩ := lookup_last_parameter member 0
  have other : name ≠ "component" := fun same => unlike (same ▸ member)
  have view : [("component", Referent.view)].lookup name = none := by
    simp [List.lookup_eq_none_iff, other]
  refine ⟨place, last, ?_⟩
  rw [referent_eq, view, found, Nat.zero_add]
  rfl

theorem bound_names_distinct_iff (free : "self" ∉ method.paramNames)
    (unlike : "component" ∉ method.paramNames) :
    method.boundNames.Nodup ↔ method.paramNames.Nodup := by
  rw [bound_names_eq, List.nodup_cons, List.nodup_append]
  constructor
  · intro bound
    exact bound.2.1
  · intro distinct
    have receiver : "self" ∉ method.paramNames ++ ["component"] := by simp [free]
    refine ⟨receiver, distinct, List.nodup_singleton _, ?_⟩
    intro name member other single same
    rw [List.mem_singleton.mp single] at same
    exact unlike (same ▸ member)

theorem capture_free_iff (unlike : "component" ∉ method.paramNames) :
    method.CaptureFree ↔ method.paramNames.Nodup := by
  constructor
  · intro free
    rw [List.nodup_iff_getElem?_ne_getElem?]
    intro place later before within same
    have named := List.getElem?_eq_getElem within
    have first := free.arguments place _ (same.trans named)
    have second := free.arguments later _ named
    rw [first] at second
    cases second
    exact Nat.lt_irrefl _ before
  · intro distinct
    refine ⟨method.receiver_stands_for_view, ?_⟩
    intro place name named
    obtain ⟨last, lastAt, found⟩ :=
      argument_stands_for_last unlike (List.mem_of_getElem? named)
    have within := (List.getElem?_eq_some_iff.mp named).1
    have same := (List.getElem?_inj within distinct).mp (named.trans lastAt.1.symm)
    rw [found, same]

end WrapperMethod

/-! ### Programs -/

theorem forall₂_source {First Second : Type} {Related : First → Second → Prop}
    {firsts : List First} {seconds : List Second} (related : List.Forall₂ Related firsts seconds)
    {second : Second} (member : second ∈ seconds) : ∃ first ∈ firsts, Related first second := by
  induction related with
  | nil => cases member
  | cons head _ ih =>
      rcases List.mem_cons.mp member with rfl | later
      · exact ⟨_, List.mem_cons_self, head⟩
      · obtain ⟨first, among, own⟩ := ih later
        exact ⟨first, List.mem_cons_of_mem _ among, own⟩

/-- A wrapper of a host forwards the methods of an interface of a registered component. -/
theorem Host.wrapper_forwards (host : Host) {registry : Registry} (contractState : String)
    (defaultLayout : Layout) (reachable : registry.Reachable) {wrapper : Wrapper}
    (member : wrapper ∈ (host.compile registry contractState defaultLayout).1.output.wrappers) :
    ∃ component ∈ registry.components, ∃ interface ∈ component.interfaces,
      wrapper.methods = interface.methods.map fun signature =>
        .forward signature wrapper.component wrapper.implName wrapper.accessor := by
  have yields := host.generated_yields contractState defaultLayout reachable
  rw [compile_wrappers] at member
  obtain ⟨request, _, serves⟩ := forall₂_source (yields_wrappers yields) member
  obtain ⟨component, interface, found, declared, methods⟩ := serves.methods
  exact ⟨component, List.mem_of_find?_eq_some found, interface,
    List.mem_of_find?_eq_some declared, methods⟩

/-- What an interface of a definition states is stated in the declaration. -/
theorem ComponentDecl.signature_declared {decl : ComponentDecl} {file : String}
    {interface : Interface} (member : interface ∈ (decl.definition file).interfaces)
    {signature : Signature} (stated : signature ∈ interface.methods) :
    ∃ declared ∈ decl.interfaces, ∃ method ∈ declared.methods, method.signature = signature := by
  obtain ⟨declared, present, rfl⟩ := List.mem_map.mp member
  obtain ⟨method, kept, same⟩ := List.mem_map.mp stated
  exact ⟨declared, present, method, mem_of_mem_firsts_by _ kept, same⟩

/-- In a program that compiles, a method of a wrapper forwards one that a file declares. -/
theorem wrapper_method_declared {files : List SourceFile} {options : Options}
    (succeeded : (Compilation.ofFiles files options).success = true) {compiled : CompiledHost}
    (host : compiled ∈ (Compilation.ofFiles files options).hosts) {wrapper : Wrapper}
    (wrapped : wrapper ∈ compiled.output.wrappers) {method : WrapperMethod}
    (member : method ∈ wrapper.methods) :
    ∃ file ∈ files, file.parse.log.totalErrors = 0 ∧ ∃ decl ∈ file.parse.tree.components,
      ∃ interface ∈ decl.interfaces, ∃ declared ∈ interface.methods,
        method = .forward declared.signature wrapper.component wrapper.implName
          wrapper.accessor := by
  obtain ⟨defaultLayout, parsed, noRefusals, noFindings, _, hosts⟩ := success_stages succeeded
  obtain ⟨registered, _, _⟩ := register_all_clean noRefusals
  have reachable := register_all_reachable .empty
    (declarations DeclarationFile.components (parseAll files))
  obtain ⟨contracts, _⟩ := compile_contracts_clean noFindings
  rw [hosts, contracts] at host
  obtain ⟨contract, _, rfl⟩ := List.mem_map.mp host
  obtain ⟨component, present, interface, declared, methods⟩ :=
    Host.wrapper_forwards _ _ _ reachable wrapped
  rw [registered] at present
  obtain ⟨decl, source, rfl⟩ := List.mem_map.mp present
  obtain ⟨read, among, located⟩ := List.mem_flatMap.mp source
  obtain ⟨file, ofFile, rfl⟩ := List.mem_map.mp among
  obtain ⟨content, inFile, rfl⟩ := List.mem_map.mp located
  rw [methods] at member
  obtain ⟨signature, stated, rfl⟩ := List.mem_map.mp member
  obtain ⟨own, inDecl, original, inInterface, rfl⟩ :=
    ComponentDecl.signature_declared declared stated
  exact ⟨file, ofFile, parsed file ofFile, content, inFile, own, inDecl, original, inInterface, rfl⟩

/-- In a program that compiles, a wrapper method calls the implementation on the view and with its own
parameters. No parameter has the name of the receiver or of the view, so the call is on the view of
this host. An argument stands for the last parameter of its name: all names are bound once, and each
argument stands for the parameter at its place, just where the parameters have different names. -/
theorem arguments_captured_by_namesakes_only {files : List SourceFile} {options : Options}
    (succeeded : (Compilation.ofFiles files options).success = true) :
    ∀ compiled ∈ (Compilation.ofFiles files options).hosts,
      ∀ wrapper ∈ compiled.output.wrappers, ∀ method ∈ wrapper.methods,
        method = .forward method.signature wrapper.component wrapper.implName wrapper.accessor ∧
        "self" ∉ method.paramNames ∧ "component" ∉ method.paramNames ∧
        method.referent? "self" = some .host ∧ method.referent? "component" = some .view ∧
        (∀ name ∈ method.paramNames, ∃ place, LastAt method.paramNames name place ∧
          method.referent? name = some (.parameter place)) ∧
        (method.boundNames.Nodup ↔ method.paramNames.Nodup) ∧
        (method.CaptureFree ↔ method.paramNames.Nodup) := by
  intro compiled host wrapper wrapped method member
  obtain ⟨file, _, clean, decl, component, interface, declared, original, stated, forwards⟩ :=
    wrapper_method_declared succeeded host wrapped member
  have names : method.paramNames = original.params.map (·.name.name) := by
    rw [forwards]
    exact original.signature_param_names
  have unreserved : ∀ name ∈ method.paramNames, Keyword.ofText? name = none := by
    rw [names]
    intro name named
    obtain ⟨param, present, rfl⟩ := List.mem_map.mp named
    exact SourceFile.param_names_unreserved clean component declared stated present
  have free : "self" ∉ method.paramNames := by
    intro named
    cases unreserved "self" named
  have unlike : "component" ∉ method.paramNames := by
    intro named
    cases unreserved "component" named
  refine ⟨?_, free, unlike, WrapperMethod.self_stands_for_host free,
    method.receiver_stands_for_view, ?_, ?_, ?_⟩
  · rw [forwards]
    rfl
  · intro name named
    exact WrapperMethod.argument_stands_for_last unlike named
  · exact WrapperMethod.bound_names_distinct_iff free unlike
  · exact WrapperMethod.capture_free_iff unlike

/-- A component whose one method takes two parameters of the given names, embedded. -/
def binaryProgram (first second : String) : List SourceFile :=
  embeddedProgram ("component c \x7b interface I \x7b fn f(self: @S, " ++ first ++ ": u8, " ++
    second ++ ": u16); \x7d #[embeddable_as(A)] impl X of I; \x7d")

theorem different_names_capture_free :
    let compilation := Compilation.ofFiles (binaryProgram "x" "y") ⟨"S", 20, "v0"⟩
    compilation.success = true ∧ ∃ compiled ∈ compilation.hosts,
      ∃ wrapper ∈ compiled.output.wrappers, ∃ method ∈ wrapper.methods,
        method.paramNames = ["x", "y"] ∧ method.CaptureFree := by
  intro compilation
  have succeeded : compilation.success = true := by decide +kernel
  have generated : ∃ compiled ∈ compilation.hosts, ∃ wrapper ∈ compiled.output.wrappers,
      ∃ method ∈ wrapper.methods, method.paramNames = ["x", "y"] := by decide +kernel
  obtain ⟨compiled, host, wrapper, wrapped, method, member, names⟩ := generated
  obtain ⟨_, _, _, _, _, _, _, captureFree⟩ :=
    arguments_captured_by_namesakes_only succeeded compiled host wrapper wrapped method member
  refine ⟨succeeded, compiled, host, wrapper, wrapped, method, member, names, ?_⟩
  rw [captureFree, names]
  decide

/-- With one name for both parameters the program compiles, and the second parameter is handed on
twice. -/
theorem namesakes_captured :
    let compilation := Compilation.ofFiles (binaryProgram "x" "x") ⟨"S", 20, "v0"⟩
    compilation.success = true ∧ ∃ compiled ∈ compilation.hosts,
      ∃ wrapper ∈ compiled.output.wrappers, ∃ method ∈ wrapper.methods,
        method.body = ["let component = HasComponentImpl_s::get_component(self);",
          "c::X::f(component, x, x)"] ∧
        method.referent? "x" = some (.parameter 1) ∧ ¬method.boundNames.Nodup := by
  decide +kernel

end Composer
