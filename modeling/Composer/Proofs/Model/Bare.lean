import Composer.Proofs.Declaration.Bare
import Composer.Proofs.Registration

/-!
Components and hosts without places. Neither what a declaration means nor what is wrong with it
depends on spans or on the name of its file; these only travel along.
-/

namespace Composer

/-! ### Records without places -/

def StorageField.bare (field : StorageField) : StorageField := { field with span := default }

def EventVariant.bare (variant : EventVariant) : EventVariant := { variant with span := default }

def Interface.bare (interface : Interface) : Interface := { interface with span := default }

def Implementation.bare (impl : Implementation) : Implementation := { impl with span := default }

def Component.bare (component : Component) : Component :=
  { component with
    file := ""
    storage := component.storage.map StorageField.bare
    events := component.events.map EventVariant.bare
    interfaces := component.interfaces.map Interface.bare
    impls := component.impls.map Implementation.bare
    span := default }

def HostMember.bare (member : HostMember) : HostMember := { member with span := default }

def Inclusion.bare (inclusion : Inclusion) : Inclusion := { inclusion with span := default }

def Exposure.bare (exposure : Exposure) : Exposure := { exposure with span := default }

def Host.bare (host : Host) : Host :=
  { host with
    file := ""
    span := default
    storage := host.storage.map HostMember.bare
    events := host.events.map EventVariant.bare
    exposures := host.exposures.map Exposure.bare
    inclusions := host.inclusions.map Inclusion.bare }

def Fault.bare (fault : Fault) : Fault := { fault with span := default }

namespace Diagnostic

open Diagnostic in
def bare : Diagnostic → Diagnostic
  | malformedComponent component defect _ => malformedComponent component defect default
  | unknownComponent host component _ => unknownComponent host component default
  | missingSubstorageMember host component member declaration _ =>
      missingSubstorageMember host component member declaration default
  | missingNestedEvent host component variant declaration _ =>
      missingNestedEvent host component variant declaration default
  | aliasedSubstorage host component member _ => aliasedSubstorage host component member default
  | duplicateEventBinding host component variant _ =>
      duplicateEventBinding host component variant default
  | storageCollision host component field owner _ =>
      storageCollision host component field owner default
  | unresolvedAlias host path available _ => unresolvedAlias host path available default
  | ambiguousExposure host component accessors _ =>
      ambiguousExposure host component accessors default
  | hostTypeMismatch host expected found _ => hostTypeMismatch host expected found default
  | duplicateEntryPoint host entryPoint _ => duplicateEntryPoint host entryPoint default
  | duplicateHostMember host member _ => duplicateHostMember host member default
  | duplicateHostVariant host variant _ => duplicateHostVariant host variant default
  | duplicateContract host _ => duplicateContract host default

theorem code_bare (diagnostic : Diagnostic) : diagnostic.bare.code = diagnostic.code := by
  cases diagnostic <;> rfl

theorem message_bare (diagnostic : Diagnostic) : diagnostic.bare.message = diagnostic.message := by
  cases diagnostic <;> rfl

end Diagnostic

/-! ### Methods and interfaces -/

theorem MethodDecl.signature_bare (decl : MethodDecl) : decl.bare.signature = decl.signature := by
  simp [signature, bare, Ident.bare, Receiver.bare, Param.bare, Function.comp_def]

theorem signatures_bare (methods : List MethodDecl) :
    signatures (methods.map MethodDecl.bare) = signatures methods := by
  rw [signatures, firstsBy, firsts_after_map, List.map_map]
  exact List.map_congr_left fun method _ => method.signature_bare

theorem method_faults_bare (owner : String) (methods : List MethodDecl) :
    methodFaults owner (methods.map MethodDecl.bare) =
      (methodFaults owner methods).map Fault.bare := by
  rw [methodFaults, repeatsBy, repeats_after_map, methodFaults, List.map_map, List.map_map]
  rfl

theorem InterfaceDecl.interface_bare (decl : InterfaceDecl) :
    decl.bare.interface = decl.interface.bare := by
  simp [interface, bare, Interface.bare, signatures_bare, Ident.bare]

theorem InterfaceDecl.faults_bare (decl : InterfaceDecl) :
    decl.bare.faults = decl.faults.map Fault.bare :=
  method_faults_bare decl.name.name decl.methods

/-! ### Implementations -/

theorem attributes_named_bare (name : String) (attributes : List Attribute) :
    attributesNamed name (attributes.map Attribute.bare) =
      (attributesNamed name attributes).map Attribute.bare := by
  rw [attributesNamed, List.filter_map]
  rfl

namespace ImplDecl

variable (decl : ImplDecl) (interfaces : List Interface)

theorem embeddable_attributes_bare :
    decl.bare.embeddableAttributes = decl.embeddableAttributes.map Attribute.bare :=
  attributes_named_bare _ _

theorem alias_name_bare : decl.bare.aliasName? = decl.aliasName? := by
  rw [aliasName?, aliasName?, embeddable_attributes_bare]
  cases decl.embeddableAttributes with
  | nil => rfl
  | cons first others =>
      simp only [List.map_cons, Attribute.bare]
      cases first.args <;> rfl

theorem alias_faults_bare : decl.bare.aliasFaults = decl.aliasFaults.map Fault.bare := by
  rw [aliasFaults, aliasFaults, embeddable_attributes_bare]
  cases decl.embeddableAttributes with
  | nil => rfl
  | cons first others =>
      simp only [List.map_cons, Attribute.bare, List.length_map, ne_eq, List.map_eq_nil_iff]
      split_ifs <;> rfl

theorem find_interface_bare (name : String) :
    (interfaces.map Interface.bare).find? (·.name = name) =
      (interfaces.find? (·.name = name)).map Interface.bare := by
  rw [List.find?_map]
  rfl

theorem implementation_bare :
    decl.bare.implementation (interfaces.map Interface.bare) =
      (decl.implementation interfaces).bare := by
  have declared : decl.bare.declaredInterface? (interfaces.map Interface.bare) =
      (decl.declaredInterface? interfaces).map Interface.bare := by
    rw [declaredInterface?, declaredInterface?, bare]
    cases decl.interface with
    | none => rfl
    | some name => exact find_interface_bare interfaces name.name
  rw [implementation, implementation, declared, alias_name_bare]
  cases decl.declaredInterface? interfaces with
  | none => simp [bare, Implementation.bare, signatures_bare, Ident.bare, Function.comp_def]
  | some interface => simp [bare, Implementation.bare, Interface.bare, Ident.bare, Function.comp_def]

theorem interface_faults_bare :
    decl.bare.interfaceFaults (interfaces.map Interface.bare) =
      (decl.interfaceFaults interfaces).map Fault.bare := by
  rw [interfaceFaults, interfaceFaults, alias_name_bare]
  cases stated : decl.interface with
  | none =>
      have none : decl.bare.interface = none := by rw [bare, stated]; rfl
      rw [none]
      split_ifs <;> rfl
  | some name =>
      have some : decl.bare.interface = some name.bare := by rw [bare, stated]; rfl
      rw [some]
      dsimp only [Ident.bare]
      rw [find_interface_bare]
      cases interfaces.find? (·.name = name.name) with
      | none =>
          dsimp only [Option.map_none]
          split_ifs <;> rfl
      | some interface =>
          simp [bare, signatures_bare, Interface.bare, Ident.bare, Fault.bare]

theorem faults_bare :
    decl.bare.faults (interfaces.map Interface.bare) = (decl.faults interfaces).map Fault.bare := by
  rw [faults, faults, alias_faults_bare, interface_faults_bare, List.map_append, List.map_append]
  simp only [bare, method_faults_bare, Ident.bare]

end ImplDecl

theorem impl_faults_bare (interfaces : List Interface) (taken : List String)
    (decls : List ImplDecl) :
    implFaults (interfaces.map Interface.bare) taken (decls.map ImplDecl.bare) =
      (implFaults interfaces taken decls).map Fault.bare := by
  induction decls generalizing taken with
  | nil => rfl
  | cons decl rest ih =>
      rw [List.map_cons, implFaults, implFaults, decl.alias_name_bare]
      cases decl.aliasName? with
      | none => simp only [ih, decl.faults_bare, List.map_append]
      | some aliasName =>
          simp only [ih, decl.faults_bare, List.map_append]
          split_ifs <;> rfl

/-! ### Components -/

theorem storage_members_bare (block : Option StorageBlock) :
    storageMembers (block.map StorageBlock.bare) = (storageMembers block).map MemberDecl.bare := by
  cases block <;> rfl

theorem event_variants_bare (block : Option EventBlock) :
    eventVariants (block.map EventBlock.bare) = (eventVariants block).map VariantDecl.bare := by
  cases block <;> rfl

theorem MemberDecl.field_bare (decl : MemberDecl) : decl.bare.field = decl.field.bare := by
  simp [field, bare, StorageField.bare, Ident.bare]

theorem VariantDecl.variant_bare (decl : VariantDecl) : decl.bare.variant = decl.variant.bare := by
  simp [variant, bare, EventVariant.bare, Ident.bare, Function.comp_def]

namespace ComponentDecl

variable (decl : ComponentDecl)

theorem declared_interfaces_bare :
    decl.bare.declaredInterfaces = decl.declaredInterfaces.map Interface.bare := by
  simp [declaredInterfaces, bare, InterfaceDecl.interface_bare]

theorem definition_bare (file : String) :
    decl.bare.definition "" = (decl.definition file).bare := by
  have impls : decl.bare.impls = decl.impls.map ImplDecl.bare := rfl
  have storage : decl.bare.storage = decl.storage.map StorageBlock.bare := rfl
  have event : decl.bare.event = decl.event.map EventBlock.bare := rfl
  simp only [definition, Component.bare, declared_interfaces_bare, impls, storage, event,
    storage_members_bare, event_variants_bare, firstsBy, firsts_after_map, List.map_map,
    Function.comp_def, MemberDecl.field_bare, VariantDecl.variant_bare,
    ImplDecl.implementation_bare]
  rfl

theorem faults_bare : decl.bare.faults = decl.faults.map Fault.bare := by
  have impls : decl.bare.impls = decl.impls.map ImplDecl.bare := rfl
  have interfaces : decl.bare.interfaces = decl.interfaces.map InterfaceDecl.bare := rfl
  have storage : decl.bare.storage = decl.storage.map StorageBlock.bare := rfl
  have event : decl.bare.event = decl.event.map EventBlock.bare := rfl
  simp only [faults, declared_interfaces_bare, impls, interfaces, storage, event,
    storage_members_bare, event_variants_bare, repeatsBy, repeats_after_map, List.map_map,
    List.map_append, impl_faults_bare, List.flatMap_map, List.map_flatMap, Function.comp_def,
    InterfaceDecl.faults_bare]
  rfl

end ComponentDecl

/-! ### Hosts -/

theorem substorage_of_bare (attributes : List Attribute) :
    substorageOf (attributes.map Attribute.bare) = substorageOf attributes := by
  rw [substorageOf, substorageOf, attributes_named_bare]
  cases attributesNamed "substorage" attributes with
  | nil => rfl
  | cons first others =>
      simp only [List.map_cons, Attribute.bare]
      cases first.args <;> rfl

theorem MemberDecl.host_member_bare (decl : MemberDecl) :
    decl.bare.hostMember = decl.hostMember.bare := by
  simp [hostMember, bare, HostMember.bare, Ident.bare, substorage_of_bare]

theorem ExposureDecl.exposure_bare (decl : ExposureDecl) :
    decl.bare.exposure = decl.exposure.bare := by
  have embedded : (attributesNamed "abi" decl.bare.attributes).any
        (fun abi => abi.args.any (·.name = "embed_v0")) =
      (attributesNamed "abi" decl.attributes).any
        (fun abi => abi.args.any (·.name = "embed_v0")) := by
    rw [bare, attributes_named_bare, List.any_map]
    simp only [Function.comp_def, Attribute.bare, List.any_map]
    rfl
  rw [exposure, embedded]
  simp [exposure, bare, Exposure.bare, Ident.bare, TypePath.bare, Function.comp_def]

theorem ContractDecl.host_bare (decl : ContractDecl) (file : String) :
    decl.bare.host "" = (decl.host file).bare := by
  simp only [host, bare, Host.bare, storage_members_bare, event_variants_bare, List.map_map,
    Function.comp_def, MemberDecl.host_member_bare, VariantDecl.variant_bare,
    ExposureDecl.exposure_bare]
  rfl

/-! ### Registration -/

namespace Registry

def bare (registry : Registry) : Registry :=
  { registry with components := registry.components.map Component.bare }

variable (registry : Registry)

theorem get_bare (name : String) :
    registry.bare.get? name = (registry.get? name).map Component.bare := by
  rw [get?, get?, bare, List.find?_map]
  rfl

theorem decided_bare (name : String) : registry.bare.Decided name ↔ registry.Decided name := by
  rw [Decided, Decided, get_bare, Option.isSome_map]
  rfl

/-- Registering does not look at places. -/
theorem register_bare (decl : ComponentDecl) (file : String) :
    registry.bare.add decl.bare "" = (registry.add decl file).bare ∧
      registry.bare.refusals decl.bare "" =
        (registry.refusals decl file).map Diagnostic.bare := by
  have named : decl.bare.name.name = decl.name.name := rfl
  have same := registry.decided_bare decl.name.name
  have bareOutcome := registry.bare.register_cases decl.bare ""
  rw [named, same, decl.faults_bare, decl.definition_bare file] at bareOutcome
  -- Which case holds is decided by names and faults, so both declarations are in the same one.
  rcases registry.register_cases decl file with
    ⟨decided, outcome⟩ | ⟨fresh, clean, outcome⟩ | ⟨fresh, faulty, outcome⟩
  · rcases bareOutcome with ⟨_, bareOutcome⟩ | ⟨undecided, _⟩ | ⟨undecided, _⟩
    · simp only [add, refusals, outcome, bareOutcome]
      exact ⟨trivial, rfl⟩
    · exact absurd decided undecided
    · exact absurd decided undecided
  · rcases bareOutcome with ⟨decided, _⟩ | ⟨_, _, bareOutcome⟩ | ⟨_, faulty, _⟩
    · exact absurd decided fresh
    · simp only [add, refusals, outcome, bareOutcome]
      exact ⟨by simp [bare], rfl⟩
    · simp [clean] at faulty
  · rcases bareOutcome with ⟨decided, _⟩ | ⟨_, clean, _⟩ | ⟨_, _, bareOutcome⟩
    · exact absurd decided fresh
    · exact absurd (List.map_eq_nil_iff.mp clean) faulty
    · simp only [add, refusals, outcome, bareOutcome, List.map_map]
      exact ⟨rfl, rfl⟩

end Registry

end Composer
