import Composer.Proofs.Compilation.Naming
import Composer.Proofs.Declaration.TypeText

/-!
Names and types of a program that is read without errors. Every token of it can be spelled out, so
what a sentence calls a name is an identifier, and the types in it are well named. A component has
its names and signatures from such sentences.
-/

namespace Composer

/-! ### Tokens -/

def AllSpelled (kinds : List TokenKind) : Prop := ∀ kind ∈ kinds, kind.Spelled

theorem AllSpelled.of_subset {kinds part : List TokenKind} (spelled : AllSpelled kinds)
    (inside : part ⊆ kinds) : AllSpelled part :=
  fun kind member => spelled kind (inside member)

theorem AllSpelled.name {kinds : List TokenKind} (spelled : AllSpelled kinds) {name : String}
    (member : .identifier name ∈ kinds) : IsIdentifier name :=
  spelled _ member

theorem Lexes.all_spelled {bytes : List UInt8} {kinds : List TokenKind}
    (lexes : Lexes bytes kinds) : AllSpelled kinds := by
  induction lexes with
  | done => exact nofun
  | token _ scanned _ ih => exact List.forall_mem_cons.mpr ⟨Lexeme.scan_token_spelled scanned, ih⟩

/-! ### Types and methods -/

theorem CommaList.part {Node : Type} {written : Node → List TokenKind → Prop} {nodes : List Node}
    {kinds : List TokenKind} {node : Node} (list : CommaList written nodes kinds)
    (member : node ∈ nodes) : ∃ part, written node part ∧ part ⊆ kinds := by
  induction list with
  | nil => cases member
  | @last _ kinds own =>
      rw [List.mem_singleton.mp member]
      exact ⟨kinds, own, List.Subset.refl _⟩
  | @cons _ _ here later own _ ih =>
      rcases List.mem_cons.mp member with rfl | behind
      · exact ⟨here, own, List.subset_append_left here _⟩
      · rcases ih behind with ⟨part, other, inside⟩
        exact ⟨part, other, List.subset_append_of_subset_right here
          (List.subset_cons_of_subset _ inside)⟩

theorem Arguments.part {written : TypeExpr → List TokenKind → Prop} {types : List TypeExpr}
    {kinds : List TokenKind} {type : TypeExpr} (arguments : Arguments written types kinds)
    (member : type ∈ types) : ∃ part, written type part ∧ part ⊆ kinds := by
  cases arguments with
  | none => cases member
  | @some _ _ here later own list =>
      rcases List.mem_cons.mp member with rfl | behind
      · exact ⟨here, own, List.subset_cons_of_subset _ (List.subset_append_left here _)⟩
      · rcases list.part behind with ⟨part, other, inside⟩
        exact ⟨part, other, List.subset_cons_of_subset _ (List.subset_append_of_subset_right here
          (List.subset_append_of_subset_left _ inside))⟩

/-- The types within a type are smaller. -/
theorem TypeExpr.Written.well_named (type : TypeExpr) {kinds : List TokenKind}
    (written : type.Written kinds) (spelled : AllSpelled kinds) : type.WellNamed := by
  match type, written with
  | _, @path first others generics span names arguments segments typeArguments =>
      have inNames : names ⊆ .identifier first.name :: (names ++ arguments) :=
        List.subset_cons_of_subset _ (List.subset_append_left names arguments)
      have inArguments : arguments ⊆ .identifier first.name :: (names ++ arguments) :=
        List.subset_cons_of_subset _ (List.subset_append_right names arguments)
      refine .path (List.cons_ne_nil _ _) ?_ ?_
      · rw [List.forall_mem_cons]
        refine ⟨spelled.name List.mem_cons_self, ?_⟩
        intro segment member
        rcases segments.part member with ⟨part, rfl, inside⟩
        exact spelled.name (inNames (inside List.mem_cons_self))
      · intro argument member
        rcases typeArguments.part member with ⟨part, own, inside⟩
        exact well_named argument own ((spelled.of_subset inArguments).of_subset inside)
  | _, @snapshot inner _ _ own =>
      exact .snapshot (well_named inner own (List.forall_mem_cons.mp spelled).2)
  | _, @tuple _ _ kinds list =>
      apply TypeExpr.WellNamed.tuple
      intro item member
      rcases list.part member with ⟨part, own, inside⟩
      have inKinds : kinds ⊆ .mark .leftParen :: (kinds ++ [.mark .rightParen]) :=
        List.subset_cons_of_subset _ (List.subset_append_left kinds _)
      exact well_named item own ((spelled.of_subset inKinds).of_subset inside)
termination_by sizeOf type

/-- The name, the parameters and the types of a method, apart from its receiver. -/
structure MethodDecl.WellNamed (method : MethodDecl) : Prop where
  name : IsIdentifier method.name.name
  param_names : ∀ param ∈ method.params, IsIdentifier param.name.name
  param_types : ∀ param ∈ method.params, param.type.WellNamed
  ret : ∀ type, method.ret = some type → type.WellNamed

theorem MethodDecl.Written.well_named {method : MethodDecl} {kinds : List TokenKind}
    (written : method.Written kinds) (spelled : AllSpelled kinds) : method.WellNamed := by
  obtain ⟨receiver, params, ret, _, list, returned, rfl⟩ := written
  have inHead : AllSpelled (receiver ++ (params ++ .mark .rightParen ::
      (ret ++ [.mark .semicolon]))) :=
    (List.forall_mem_cons.mp (List.forall_mem_cons.mp (List.forall_mem_cons.mp spelled).2).2).2
  have behind := (List.forall_mem_append.mp inHead).2
  have inParams : AllSpelled params := (List.forall_mem_append.mp behind).1
  have inRet : AllSpelled ret := (List.forall_mem_append.mp
    (List.forall_mem_cons.mp (List.forall_mem_append.mp behind).2).2).1
  constructor
  · exact spelled.name (List.mem_cons_of_mem _ List.mem_cons_self)
  · intro param member
    obtain ⟨part, ⟨type, _, rfl⟩, inside⟩ := list.part member
    exact inParams.name (inside List.mem_cons_self)
  · intro param member
    obtain ⟨part, ⟨type, own, rfl⟩, inside⟩ := list.part member
    exact own.well_named _ fun kind among =>
      inParams kind (inside (List.mem_cons_of_mem _ (List.mem_cons_of_mem _ among)))
  · intro type stated
    rw [stated] at returned
    cases returned with
    | some own => exact own.well_named _ (List.forall_mem_cons.mp inRet).2

/-! ### Components -/

structure InterfaceDecl.WellNamed (decl : InterfaceDecl) : Prop where
  name : IsIdentifier decl.name.name
  methods : ∀ method ∈ decl.methods, method.WellNamed

theorem InterfaceDecl.Written.well_named {decl : InterfaceDecl} {kinds : List TokenKind}
    (written : decl.Written kinds) (spelled : AllSpelled kinds) : decl.WellNamed := by
  obtain ⟨methods, braced, rfl⟩ := written
  obtain ⟨body, list, within⟩ := Braced.inside braced
  constructor
  · exact spelled.name (List.mem_cons_of_mem _ List.mem_cons_self)
  · intro method member
    obtain ⟨part, own, inside⟩ := list.part member
    exact own.well_named fun kind among => spelled kind
      (List.mem_cons_of_mem _ (List.mem_cons_of_mem _ (within (inside among))))

structure ImplDecl.WellNamed (decl : ImplDecl) : Prop where
  name : IsIdentifier decl.name.name
  aliasName : ∀ name, decl.aliasName? = some name → IsIdentifier name

theorem Attribute.Written.args_spelled {attr : Attribute} {kinds : List TokenKind}
    (written : attr.Written kinds) (spelled : AllSpelled kinds) :
    ∀ arg ∈ attr.args, IsIdentifier arg.name := by
  intro arg member
  cases written with
  | plain => cases member
  | applied list =>
      obtain ⟨part, rfl, inside⟩ := list.part member
      apply spelled.name
      simp only [List.mem_cons, List.mem_append]
      exact .inr (.inr (.inr (.inl (inside List.mem_cons_self))))

theorem ImplDecl.Written.well_named {decl : ImplDecl} {kinds : List TokenKind}
    (written : decl.Written kinds) (spelled : AllSpelled kinds) : decl.WellNamed := by
  obtain ⟨attributes, body, attributed, _, rfl⟩ := written
  rw [AllSpelled, List.forall_mem_append] at spelled
  constructor
  · exact AllSpelled.name spelled.2 (List.mem_cons_of_mem _ List.mem_cons_self)
  · intro name given
    rw [ImplDecl.aliasName?] at given
    cases first : decl.embeddableAttributes with
    | nil => rw [first] at given; cases given
    | cons attr others =>
        rw [first] at given
        obtain ⟨arg, among, rfl⟩ := Option.map_eq_some_iff.mp given
        have stated : attr ∈ decl.attributes :=
          List.mem_of_mem_filter (first ▸ List.mem_cons_self : attr ∈ decl.embeddableAttributes)
        obtain ⟨part, own, inside⟩ := Led.part attributed stated
        exact own.args_spelled (AllSpelled.of_subset spelled.1 inside) arg
          (List.mem_of_mem_head? among)

structure ComponentDecl.WellNamed (decl : ComponentDecl) : Prop where
  interfaces : ∀ interface ∈ decl.interfaces, interface.WellNamed
  impls : ∀ impl ∈ decl.impls, impl.WellNamed

theorem ComponentDecl.Written.well_named {decl : ComponentDecl} {kinds : List TokenKind}
    (written : decl.Written kinds) (spelled : AllSpelled kinds) : decl.WellNamed := by
  constructor
  · intro interface declared
    obtain ⟨part, own, inside⟩ := written.interface_written declared
    exact own.well_named (spelled.of_subset inside)
  · intro impl declared
    obtain ⟨parts, gathers, partsWritten⟩ :=
      ComponentDecl.Written.parts_written written
    rw [gathers.impls] at declared
    obtain ⟨part, member, taken⟩ := List.mem_filterMap.mp declared
    cases part with
    | impl other =>
        cases taken
        obtain ⟨stretch, own, inside⟩ := partsWritten _ member
        exact ImplDecl.Written.well_named own (spelled.of_subset inside)
    | _ => cases taken

def Signature.WellNamed (signature : Signature) : Prop :=
  ∃ method : MethodDecl, method.WellNamed ∧ method.signature = signature

structure Component.WellNamed (component : Component) : Prop where
  interface_names : ∀ interface ∈ component.interfaces, IsIdentifier interface.name
  methods : ∀ interface ∈ component.interfaces, ∀ signature ∈ interface.methods,
    signature.WellNamed
  impl_names : ∀ impl ∈ component.impls, IsIdentifier impl.name
  aliases : ∀ impl ∈ component.impls, ∀ name, impl.aliasName = some name → IsIdentifier name

theorem ComponentDecl.WellNamed.definition {decl : ComponentDecl} (named : decl.WellNamed)
    (file : String) : (decl.definition file).WellNamed := by
  constructor
  · intro interface member
    obtain ⟨declared, present, rfl⟩ := List.mem_map.mp member
    exact (named.interfaces declared present).name
  · intro interface member signature stated
    obtain ⟨declared, present, rfl⟩ := List.mem_map.mp member
    obtain ⟨method, kept, rfl⟩ := List.mem_map.mp stated
    have inside : method ∈ declared.methods := mem_of_mem_firsts_by _ kept
    exact ⟨method, (named.interfaces declared present).methods method inside, rfl⟩
  · intro impl member
    obtain ⟨declared, present, rfl⟩ := List.mem_map.mp member
    exact (named.impls declared present).name
  · intro impl member
    obtain ⟨declared, present, rfl⟩ := List.mem_map.mp member
    exact (named.impls declared present).aliasName

/-! ### Files -/

namespace SourceFile

variable {file : SourceFile}

theorem items_spelled (clean : file.parse.log.totalErrors = 0) :
    ∀ item ∈ file.parse.tree.items, ∃ kinds, item.Written kinds ∧ AllSpelled kinds := by
  intro item member
  obtain ⟨_, kinds, lexes, written⟩ := declares_of_parse_clean clean
  obtain ⟨part, own, inside⟩ := Sequence.part written member
  exact ⟨part, own, lexes.all_spelled.of_subset inside⟩

theorem component_well_named (clean : file.parse.log.totalErrors = 0) {decl : ComponentDecl}
    (declared : decl ∈ file.parse.tree.components) : decl.WellNamed := by
  obtain ⟨item, member, taken⟩ := List.mem_filterMap.mp declared
  cases item with
  | component other =>
      cases taken
      obtain ⟨kinds, written, spelled⟩ := items_spelled clean _ member
      exact ComponentDecl.Written.well_named written spelled
  | contract _ => cases taken

theorem contract_named (clean : file.parse.log.totalErrors = 0) {decl : ContractDecl}
    (declared : decl ∈ file.parse.tree.contracts) : IsIdentifier decl.name.name := by
  obtain ⟨item, member, taken⟩ := List.mem_filterMap.mp declared
  cases item with
  | component _ => cases taken
  | contract other =>
      cases taken
      obtain ⟨kinds, ⟨parts, body, _, _, rfl⟩, spelled⟩ := items_spelled clean _ member
      exact spelled.name (List.mem_cons_of_mem _ List.mem_cons_self)

end SourceFile

end Composer
