import Composer.Proofs.Registration.Consistency
import Composer.Declaration.Grammar

/-!
The reasons for which a component is refused. `ComponentDecl.triggers` asks every rule of every part
of a declaration, each rule by itself; registration collects faults in passes that thread what they
have seen and let one answer decide whether the next rule is asked. All reasons are reported, in
order, but for one: the rules about interfaces are not asked of an implementation whose first
`embeddable_as` gives no alias.
-/

namespace Composer

/-! ### The rules -/

inductive Trigger
  | repeatedField (member : MemberDecl)
  | repeatedVariant (variant : VariantDecl)
  | repeatedMethod (owner : String) (method : MethodDecl)
  | severalAliases (impl : ImplDecl) (mark : Attribute)
  | noAlias (impl : ImplDecl) (mark : Attribute)
  | markedInherent (impl : ImplDecl)
  | markedUndeclared (impl : ImplDecl) (interface : Ident)
  | foreignMethod (impl : ImplDecl) (interface : InterfaceDecl) (method : MethodDecl)
  | repeatedAlias (impl : ImplDecl) (aliasName : String)

namespace Trigger

def fault : Trigger → Fault
  | repeatedField member => ⟨.duplicateStorageField member.name.name, member.name.span⟩
  | repeatedVariant variant => ⟨.duplicateEventVariant variant.name.name, variant.name.span⟩
  | repeatedMethod owner method => ⟨.duplicateMethod owner method.name.name, method.name.span⟩
  | severalAliases impl mark => ⟨.multipleAliases impl.name.name, mark.span⟩
  | noAlias impl mark => ⟨.missingAlias impl.name.name, mark.span⟩
  | markedInherent impl => ⟨.embeddableNotInterface impl.name.name, impl.span⟩
  | markedUndeclared impl interface =>
      ⟨.unknownInterface impl.name.name interface.name, interface.span⟩
  | foreignMethod impl interface method =>
      ⟨.methodNotInInterface impl.name.name interface.name.name method.name.name, impl.span⟩
  | repeatedAlias impl aliasName => ⟨.duplicateAlias aliasName, impl.span⟩

def diagnostic (component : String) (trigger : Trigger) : Diagnostic :=
  .malformedComponent component trigger.fault.defect trigger.fault.span

/-- A mark that gives no alias keeps the rules about interfaces from being asked. -/
def reported : Trigger → Bool
  | markedInherent impl => impl.aliasName?.isSome
  | markedUndeclared impl _ => impl.aliasName?.isSome
  | _ => true

end Trigger

namespace ImplDecl

/-- One mark with one argument is asked for. More is reported, and one mark without argument. -/
def markTriggers (decl : ImplDecl) : List Trigger :=
  decl.embeddableAttributes.head?.toList.flatMap fun mark =>
    (if 1 < decl.embeddableAttributes.length ∨ 1 < decl.givenAliases.length then
      [.severalAliases decl mark] else []) ++
    (if decl.embeddableAttributes.length = 1 ∧ decl.givenAliases = [] then
      [.noAlias decl mark] else [])

/-- A marked implementation is of an interface of its component, and what an implementation of such
an interface states again belongs to it; a name that is stated more than once counts once here. Of
several interfaces with one name the first is meant. -/
def interfaceTriggers (decl : ImplDecl) (interfaces : List InterfaceDecl) : List Trigger :=
  (if decl.embeddableAttributes ≠ [] ∧ decl.interface.isNone then [.markedInherent decl] else []) ++
    decl.interface.toList.flatMap fun name =>
      (if decl.embeddableAttributes ≠ [] ∧ name.name ∉ interfaces.map (·.name.name) then
        [.markedUndeclared decl name] else []) ++
      (interfaces.find? (·.name.name = name.name)).toList.flatMap fun interface =>
        ((unrepeated (·.name.name) decl.methods).filter fun method =>
          method.name.name ∉ interface.methods.map (·.name.name)).map
            (.foreignMethod decl interface)

def triggers (decl : ImplDecl) (interfaces : List InterfaceDecl) (earlier : List ImplDecl) :
    List Trigger :=
  decl.markTriggers ++
    (repeated (·.name.name) decl.methods).map (.repeatedMethod decl.name.name) ++
    decl.interfaceTriggers interfaces ++
    (decl.aliasName?.toList.filter (· ∈ earlier.filterMap (·.aliasName?))).map
      (.repeatedAlias decl)

end ImplDecl

def ComponentDecl.triggers (decl : ComponentDecl) : List Trigger :=
  (repeated (·.name.name) (storageMembers decl.storage)).map .repeatedField ++
    (repeated (·.name.name) (eventVariants decl.event)).map .repeatedVariant ++
    (decl.interfaces.flatMap fun interface =>
      (repeated (·.name.name) interface.methods).map (.repeatedMethod interface.name.name)) ++
    (withEarlier decl.impls).flatMap fun (earlier, impl) => impl.triggers decl.interfaces earlier

/-! ### What is reported -/

def reportedFaults (triggers : List Trigger) : List Fault :=
  (triggers.filter (·.reported)).map Trigger.fault

theorem reported_faults_append (triggers others : List Trigger) :
    reportedFaults (triggers ++ others) = reportedFaults triggers ++ reportedFaults others := by
  rw [reportedFaults, List.filter_append, List.map_append]
  rfl

theorem reported_faults_flat_map {Node : Type} (nodes : List Node)
    (triggersOf : Node → List Trigger) :
    reportedFaults (nodes.flatMap triggersOf) =
      nodes.flatMap fun node => reportedFaults (triggersOf node) := by
  rw [reportedFaults, List.filter_flatMap, List.map_flatMap]
  rfl

/-- A rule that is always asked reports each of its triggers. -/
theorem reported_faults_map {Node : Type} {trigger : Node → Trigger}
    (asked : ∀ node, (trigger node).reported = true) (nodes : List Node) :
    reportedFaults (nodes.map trigger) = nodes.map fun node => (trigger node).fault := by
  have all : (nodes.map trigger).filter (·.reported) = nodes.map trigger := by
    rw [List.filter_eq_self]
    intro reason member
    rcases List.mem_map.mp member with ⟨node, _, rfl⟩
    exact asked node
  rw [reportedFaults, all, List.map_map]
  rfl

theorem repeated_methods_reported (owner : String) (methods : List MethodDecl) :
    reportedFaults ((repeated (·.name.name) methods).map (.repeatedMethod owner)) =
      methodFaults owner methods := by
  rw [reported_faults_map (fun _ => rfl), methodFaults, repeats_by_eq_repeated]
  rfl

namespace ImplDecl

theorem marks_reported (decl : ImplDecl) :
    reportedFaults decl.markTriggers = decl.aliasFaults := by
  rw [markTriggers, aliasFaults, givenAliases]
  cases decl.embeddableAttributes with
  | nil => rfl
  | cons mark others =>
      cases others with
      | cons second more => simp [reportedFaults, Trigger.reported, Trigger.fault]
      | nil =>
          cases args : mark.args with
          | nil => simp [args, reportedFaults, Trigger.reported, Trigger.fault]
          | cons given more =>
              cases more with
              | nil => simp [args, reportedFaults]
              | cons another rest => simp [args, reportedFaults, Trigger.reported, Trigger.fault]

/-- A rule for marked implementations reports its trigger where the mark gives an alias. -/
theorem marked_rule_reported {decl : ImplDecl} (trigger : Trigger)
    (asked : trigger.reported = decl.aliasName?.isSome) (broken : Prop) [Decidable broken] :
    reportedFaults (if decl.embeddableAttributes ≠ [] ∧ broken then [trigger] else []) =
      if decl.aliasName?.isSome ∧ broken then [trigger.fault] else [] := by
  have marked : decl.aliasName?.isSome = true → decl.embeddableAttributes ≠ [] := by
    intro named unmarked
    simp [aliasName?, unmarked] at named
  by_cases named : decl.aliasName?.isSome = true
  · simp only [marked named, named, ne_eq, not_false_eq_true, true_and]
    split_ifs
    · simp [reportedFaults, asked, named]
    · rfl
  · have silent : ¬(decl.aliasName?.isSome = true ∧ broken) := fun both => named both.1
    rw [if_neg silent]
    split_ifs
    · simp [reportedFaults, asked, named]
    · rfl

/-- What is stated again is compared by the first method of each name. -/
theorem foreign_methods_reported (decl : ImplDecl) (interface : InterfaceDecl) :
    reportedFaults (((unrepeated (·.name.name) decl.methods).filter fun method =>
        method.name.name ∉ interface.methods.map (·.name.name)).map
          (.foreignMethod decl interface)) =
      ((signatures decl.methods).filter fun method =>
        !interface.interface.methods.any (·.name = method.name)).map fun method =>
          ⟨.methodNotInInterface decl.name.name interface.name.name method.name, decl.span⟩ := by
  have belongs : ∀ name, interface.interface.methods.any (·.name = name) =
      decide (name ∈ interface.methods.map (·.name.name)) := by
    intro name
    rw [Bool.eq_iff_iff, decide_eq_true_iff, ← mem_signature_names]
    simp [InterfaceDecl.interface]
  rw [reported_faults_map (fun _ => rfl), signatures, List.filter_map, List.map_map,
    firsts_by_eq_unrepeated]
  simp only [belongs, decide_not]
  rfl

theorem interface_rules_reported (decl : ImplDecl) (interfaces : List InterfaceDecl) :
    reportedFaults (decl.interfaceTriggers interfaces) =
      decl.interfaceFaults (interfaces.map InterfaceDecl.interface) := by
  rw [interfaceTriggers, interfaceFaults, reported_faults_append, reported_faults_flat_map,
    marked_rule_reported (.markedInherent decl) rfl]
  cases stated : decl.interface with
  | none => simp [Trigger.fault]
  | some name =>
      simp only [Option.isNone_some, Bool.false_eq_true, and_false, if_false, List.nil_append,
        Option.toList_some, List.flatMap_cons, List.flatMap_nil, List.append_nil]
      rw [reported_faults_append, reported_faults_flat_map,
        marked_rule_reported (.markedUndeclared decl name) rfl, find_interface]
      cases found : interfaces.find? (·.name.name = name.name) with
      | none =>
          have undeclared : name.name ∉ interfaces.map (·.name.name) := by
            intro declared
            rcases List.mem_map.mp declared with ⟨interface, member, same⟩
            simpa [same] using List.find?_eq_none.mp found interface member
          simp [undeclared, Trigger.fault]
      | some interface =>
          have declared : name.name ∈ interfaces.map (·.name.name) :=
            List.mem_map.mpr ⟨interface, List.mem_of_find?_eq_some found,
              by simpa using List.find?_some found⟩
          simp only [declared, not_true, and_false, if_false, List.nil_append, Option.toList_some,
            List.flatMap_cons, List.flatMap_nil, List.append_nil, Option.map_some]
          exact foreign_methods_reported decl interface

theorem rules_reported (decl : ImplDecl) (interfaces : List InterfaceDecl)
    (earlier : List ImplDecl) :
    reportedFaults (decl.triggers interfaces earlier) =
      decl.faults (interfaces.map InterfaceDecl.interface) ++
        (decl.aliasName?.toList.filter (· ∈ earlier.filterMap (·.aliasName?))).map fun aliasName =>
          ⟨.duplicateAlias aliasName, decl.span⟩ := by
  rw [triggers, reported_faults_append, reported_faults_append, reported_faults_append,
    marks_reported, repeated_methods_reported, interface_rules_reported,
    reported_faults_map (fun _ => rfl)]
  rfl

/-- Only the rules for marked implementations go unasked, and only without an alias. -/
theorem unnamed_of_unreported {decl : ImplDecl} {interfaces : List InterfaceDecl}
    {earlier : List ImplDecl} {trigger : Trigger}
    (member : trigger ∈ decl.triggers interfaces earlier) (silent : trigger.reported = false) :
    decl.embeddableAttributes ≠ [] ∧ decl.aliasName? = none := by
  cases trigger with
  | markedInherent impl =>
      have own : (decl.embeddableAttributes ≠ [] ∧ decl.interface = none) ∧ impl = decl := by
        simpa [triggers, markTriggers, interfaceTriggers] using member
      obtain ⟨⟨marked, _⟩, rfl⟩ := own
      exact ⟨marked, by simpa [Trigger.reported] using silent⟩
  | markedUndeclared impl name =>
      have own : decl.interface = some name ∧ (decl.embeddableAttributes ≠ [] ∧
          ∀ interface ∈ interfaces, interface.name.name ≠ name.name) ∧ impl = decl := by
        simpa [triggers, markTriggers, interfaceTriggers] using member
      obtain ⟨_, ⟨marked, _⟩, rfl⟩ := own
      exact ⟨marked, by simpa [Trigger.reported] using silent⟩
  | _ => cases silent

end ImplDecl

/-- The aliases that are threaded through the implementations are those of the ones before. -/
theorem impl_faults_eq_flat_map (interfaces : List Interface) (taken : List String)
    (impls : List ImplDecl) :
    implFaults interfaces taken impls = (withEarlier impls).flatMap fun (earlier, decl) =>
      decl.faults interfaces ++
        (decl.aliasName?.toList.filter
          (· ∈ earlier.filterMap (·.aliasName?) ++ taken)).map fun aliasName =>
            ⟨.duplicateAlias aliasName, decl.span⟩ := by
  induction impls generalizing taken with
  | nil => rfl
  | cons decl rest ih =>
      rw [implFaults, with_earlier_cons, List.flatMap_cons, List.flatMap_map]
      cases named : decl.aliasName? with
      | none => simp [named, ih]
      | some aliasName =>
          -- The alias that is threaded on is that of the element that stands before all others.
          have moved : ∀ (earlier : List ImplDecl) (other : String),
              other ∈ (decl :: earlier).filterMap (·.aliasName?) ++ taken ↔
                other ∈ earlier.filterMap (·.aliasName?) ++ aliasName :: taken := by
            intro earlier other
            rw [List.filterMap_cons_some named]
            simp only [List.cons_append, List.mem_cons, List.mem_append, or_left_comm]
          simp only [ih, Prod.map_fst, Prod.map_snd, id_eq, moved]
          congr 1
          by_cases known : aliasName ∈ taken
          · simp [named, known]
          · simp [named, known]

namespace ComponentDecl

theorem faults_eq_reported (decl : ComponentDecl) : decl.faults = reportedFaults decl.triggers := by
  rw [faults, triggers, reported_faults_append, reported_faults_append, reported_faults_append,
    reported_faults_flat_map, reported_faults_flat_map, reported_faults_map (fun _ => rfl),
    reported_faults_map (fun _ => rfl), repeats_by_eq_repeated, repeats_by_eq_repeated,
    impl_faults_eq_flat_map]
  congr 1
  · congr 1
    apply List.flatMap_congr
    intro interface _
    exact (repeated_methods_reported interface.name.name interface.methods).symm
  · apply List.flatMap_congr
    intro place _
    simp only [ImplDecl.rules_reported, List.append_nil]
    rfl

theorem mem_triggers_of_mark {decl : ComponentDecl} {impl : ImplDecl} (declared : impl ∈ decl.impls)
    {trigger : Trigger} (marked : trigger ∈ impl.markTriggers) : trigger ∈ decl.triggers := by
  obtain ⟨earlier, placed⟩ := exists_earlier declared
  rw [triggers]
  apply List.mem_append_right
  apply List.mem_flatMap.mpr
  exact ⟨(earlier, impl), placed, by simp [ImplDecl.triggers, marked]⟩

theorem unnamed_of_unreported {decl : ComponentDecl} {trigger : Trigger}
    (member : trigger ∈ decl.triggers) (silent : trigger.reported = false) :
    ∃ impl ∈ decl.impls, impl.embeddableAttributes ≠ [] ∧ impl.aliasName? = none := by
  rcases List.mem_append.mp member with owned | placed
  · have asked : trigger.reported = true := by
      simp only [List.mem_append, List.mem_map, List.mem_flatMap] at owned
      rcases owned with (⟨_, _, rfl⟩ | ⟨_, _, rfl⟩) | ⟨_, _, _, _, rfl⟩ <;> rfl
    rw [asked] at silent
    cases silent
  · obtain ⟨⟨earlier, impl⟩, place, own⟩ := List.mem_flatMap.mp placed
    exact ⟨impl, (List.of_mem_zip place).2, ImplDecl.unnamed_of_unreported own silent⟩

end ComponentDecl

/-- A mark without an alias is itself a reason. -/
theorem ImplDecl.mark_without_alias {decl : ImplDecl} (marked : decl.embeddableAttributes ≠ [])
    (unnamed : decl.aliasName? = none) :
    ∃ mark ∈ decl.embeddableAttributes, .noAlias decl mark ∈ decl.markTriggers ∨
      .severalAliases decl mark ∈ decl.markTriggers := by
  rw [markTriggers, givenAliases]
  rw [aliasName?] at unnamed
  cases attributes : decl.embeddableAttributes with
  | nil => exact absurd attributes marked
  | cons mark others =>
      refine ⟨mark, List.mem_cons_self, ?_⟩
      cases others with
      | nil =>
          left
          have empty : mark.args = [] := by simpa [attributes] using unnamed
          simp [empty]
      | cons second more =>
          right
          simp

theorem Registry.refusals_of_fresh {registry : Registry} {decl : ComponentDecl}
    (fresh : ¬registry.Decided decl.name.name) (file : String) :
    registry.refusals decl file = decl.faults.map fun fault =>
      .malformedComponent decl.name.name fault.defect fault.span := by
  rcases registry.register_cases decl file with
    ⟨decided, _⟩ | ⟨_, clean, outcome⟩ | ⟨_, _, outcome⟩
  · exact absurd decided fresh
  · rw [refusals, outcome, clean]
    rfl
  · rw [refusals, outcome]

/-- Under a name of its own a declaration is refused for exactly the reasons against it, one
diagnostic for each and in order, apart from rules about interfaces that a mark without an alias kept
from being asked. Such a mark is itself reported, so a declaration is registered just where there is
no reason against it. -/
theorem reasons_reported_where_alias_given {registry : Registry} {decl : ComponentDecl}
    (fresh : ¬registry.Decided decl.name.name) (file : String) :
    registry.refusals decl file =
        (decl.triggers.filter (·.reported)).map (·.diagnostic decl.name.name) ∧
      (∀ impl ∈ decl.impls, impl.embeddableAttributes ≠ [] → impl.aliasName? = none →
        ∃ mark ∈ impl.embeddableAttributes,
          (Trigger.noAlias impl mark).diagnostic decl.name.name ∈ registry.refusals decl file ∨
          (Trigger.severalAliases impl mark).diagnostic decl.name.name ∈
            registry.refusals decl file) ∧
      (registry.refusals decl file = [] ↔ decl.triggers = []) := by
  have reported : registry.refusals decl file =
      (decl.triggers.filter (·.reported)).map (·.diagnostic decl.name.name) := by
    rw [Registry.refusals_of_fresh fresh, decl.faults_eq_reported, reportedFaults, List.map_map]
    rfl
  have listed : ∀ trigger ∈ decl.triggers, trigger.reported = true →
      trigger.diagnostic decl.name.name ∈ registry.refusals decl file := by
    intro trigger member asked
    rw [reported]
    exact List.mem_map_of_mem (List.mem_filter.mpr ⟨member, asked⟩)
  have unnamedListed : ∀ impl ∈ decl.impls, impl.embeddableAttributes ≠ [] →
      impl.aliasName? = none → ∃ mark ∈ impl.embeddableAttributes,
        (Trigger.noAlias impl mark).diagnostic decl.name.name ∈ registry.refusals decl file ∨
        (Trigger.severalAliases impl mark).diagnostic decl.name.name ∈
          registry.refusals decl file := by
    intro impl declared marked unnamed
    obtain ⟨mark, member, alone | several⟩ := ImplDecl.mark_without_alias marked unnamed
    · exact ⟨mark, member, .inl (listed _ (ComponentDecl.mem_triggers_of_mark declared alone) rfl)⟩
    · exact ⟨mark, member,
        .inr (listed _ (ComponentDecl.mem_triggers_of_mark declared several) rfl)⟩
  refine ⟨reported, unnamedListed, ?_⟩
  constructor
  · intro accepted
    rw [accepted] at listed unnamedListed
    rw [List.eq_nil_iff_forall_not_mem]
    intro trigger member
    cases asked : trigger.reported with
    | true => exact List.not_mem_nil (listed trigger member asked)
    | false =>
        obtain ⟨impl, declared, marked, unnamed⟩ :=
          ComponentDecl.unnamed_of_unreported member asked
        obtain ⟨mark, _, absent | absent⟩ := unnamedListed impl declared marked unnamed
        · exact List.not_mem_nil absent
        · exact List.not_mem_nil absent
  · intro none
    rw [reported, none]
    rfl

/-- A component that breaks each rule once. -/
def manifoldFile : SourceFile :=
  ⟨"c.graft", "component c \x7b storage \x7b a: u8, a: u16 \x7d event \x7b E, E \x7d " ++
    "interface I \x7b fn f(self: @S); fn f(self: @S); \x7d " ++
    "#[embeddable_as(A)] impl V \x7b fn g(self: @S); \x7d " ++
    "#[embeddable_as(A)] impl X of J; " ++
    "#[embeddable_as(B, C)] impl Y of I \x7b fn g(self: @S); \x7d " ++
    "#[embeddable_as] impl Z of I; \x7d"⟩

theorem manifold_file_reports_every_reason :
    ∃ decl ∈ manifoldFile.parse.tree.components, ¬Registry.empty.Decided decl.name.name ∧
      (Registry.empty.refusals decl manifoldFile.name).map (·.code) =
        [.duplicateStorageField, .duplicateEventVariant, .duplicateMethod,
          .embeddableNotInterface, .unknownInterface, .duplicateAlias, .multipleAliases,
          .methodNotInInterface, .missingAlias] := by
  have single : manifoldFile.parse.tree.components.length = 1 := by decide +kernel
  obtain ⟨decl, only⟩ := List.length_eq_one_iff.mp single
  have member : decl ∈ manifoldFile.parse.tree.components := by
    rw [only]
    exact List.mem_singleton_self decl
  have fresh : ¬Registry.empty.Decided decl.name.name := by
    simp [Registry.Decided, Registry.empty, Registry.get?, Registry.isRejected]
  have codes : ∀ decl ∈ manifoldFile.parse.tree.components,
      ((decl.triggers.filter (·.reported)).map (·.diagnostic decl.name.name)).map (·.code) =
        [.duplicateStorageField, .duplicateEventVariant, .duplicateMethod,
          .embeddableNotInterface, .unknownInterface, .duplicateAlias, .multipleAliases,
          .methodNotInInterface, .missingAlias] := by
    decide +kernel
  refine ⟨decl, member, fresh, ?_⟩
  rw [(reasons_reported_where_alias_given fresh manifoldFile.name).1]
  exact codes decl member

def unnamedMarks : SourceFile :=
  ⟨"c.graft", "component c \x7b #[embeddable_as] impl X \x7b fn f(self: @S); \x7d " ++
    "#[embeddable_as] impl Y of J; \x7d"⟩

/-- The marks are reported, and what is wrong with the interfaces is not. -/
theorem unnamed_marks_hide_interface_rules :
    let decls := unnamedMarks.parse.tree.components
    unnamedMarks.parse.log.totalErrors = 0 ∧
      decls.map (fun decl => decl.triggers.map (·.fault.defect)) =
        [[.missingAlias "X", .embeddableNotInterface "X", .missingAlias "Y",
          .unknownInterface "Y" "J"]] ∧
      decls.map (fun decl => (Registry.empty.refusals decl unnamedMarks.name).map (·.code)) =
        [[.missingAlias, .missingAlias]] ∧
      ∃ decl ∈ decls, ¬∀ trigger ∈ decl.triggers,
        trigger.diagnostic decl.name.name ∈ Registry.empty.refusals decl unnamedMarks.name := by
  decide +kernel

end Composer
