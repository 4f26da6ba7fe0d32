import Composer.Proofs.Compilation.Joining
import Composer.Proofs.Token.Spelling

/-!
Reserved words. The lexer makes a keyword of every word that is reserved, and the grammar has names
only where identifiers stand; so in a file that is read without errors no parameter is named by a
reserved word.
-/

namespace Composer

/-! ### Tokens -/

theorem Lexeme.scan_identifier {byte : UInt8} {rest : List UInt8} {name : String}
    (scanned : Lexeme.scan byte rest = .token (.identifier name)) :
    Keyword.ofText? name = none := by
  have free : IsIdentifier name := Lexeme.scan_token_spelled scanned
  rw [Keyword.ofText?, List.find?_eq_none]
  intro keyword _
  simpa using free.2 keyword

theorem Lexes.identifiers_unreserved {bytes : List UInt8} {kinds : List TokenKind}
    (lexes : Lexes bytes kinds) {name : String} (member : .identifier name ∈ kinds) :
    Keyword.ofText? name = none := by
  induction lexes with
  | done => cases member
  | token _ scanned _ ih =>
      rcases List.mem_cons.mp member with rfl | later
      · exact Lexeme.scan_identifier scanned
      · exact ih later

/-! ### Parts of sentences -/

section Parts

variable {Node : Type} {written : Node → List TokenKind → Prop} {nodes : List Node}
  {kinds : List TokenKind} {node : Node}

theorem Sequence.part (sentence : Sequence written nodes kinds) (member : node ∈ nodes) :
    ∃ part, written node part ∧ part ⊆ kinds := by
  induction sentence with
  | nil => cases member
  | @cons _ _ here later own _ ih =>
      rcases List.mem_cons.mp member with rfl | behind
      · exact ⟨here, own, List.subset_append_left here later⟩
      · obtain ⟨part, other, inside⟩ := ih behind
        exact ⟨part, other, List.subset_append_of_subset_right here inside⟩

theorem Led.part {lead : TokenKind} {mayTrail : Prop}
    (sentence : Led lead mayTrail written nodes kinds) (member : node ∈ nodes) :
    ∃ part, written node part ∧ part ⊆ kinds := by
  induction sentence with
  | nil => cases member
  | trailing => cases member
  | @cons _ _ here later own _ ih =>
      rcases List.mem_cons.mp member with rfl | behind
      · exact ⟨here, own, List.subset_cons_of_subset lead (List.subset_append_left here later)⟩
      · obtain ⟨part, other, inside⟩ := ih behind
        exact ⟨part, other,
          List.subset_cons_of_subset lead (List.subset_append_of_subset_right here inside)⟩

theorem Braced.inside {node : Node} (sentence : Braced written node kinds) :
    ∃ body, written node body ∧ body ⊆ kinds := by
  obtain ⟨body, own, rfl⟩ := sentence
  exact ⟨body, own, List.subset_cons_of_subset _ (List.subset_append_left body _)⟩

end Parts

theorem MethodDecl.Written.param_names {method : MethodDecl} {kinds : List TokenKind}
    (sentence : method.Written kinds) {param : Param} (member : param ∈ method.params) :
    .identifier param.name.name ∈ kinds := by
  obtain ⟨receiver, params, ret, _, list, _, rfl⟩ := sentence
  obtain ⟨part, ⟨type, _, rfl⟩, inside⟩ := list.part member
  have named : .identifier param.name.name ∈ params := inside List.mem_cons_self
  simp [named]

theorem InterfaceDecl.Written.param_names {interface : InterfaceDecl} {kinds : List TokenKind}
    (sentence : interface.Written kinds) {method : MethodDecl} (declared : method ∈ interface.methods)
    {param : Param} (member : param ∈ method.params) : .identifier param.name.name ∈ kinds := by
  obtain ⟨methods, braced, rfl⟩ := sentence
  obtain ⟨body, list, within⟩ := Braced.inside braced
  obtain ⟨part, own, inside⟩ := list.part declared
  exact List.mem_cons_of_mem _ (List.mem_cons_of_mem _ (within (inside (own.param_names member))))

/-- The parts of a component are written within it. -/
theorem ComponentDecl.Written.parts_written {decl : ComponentDecl} {kinds : List TokenKind}
    (sentence : decl.Written kinds) :
    ∃ parts, decl.Gathers parts ∧ ∀ part ∈ parts, ∃ stretch, part.Written stretch ∧
      stretch ⊆ kinds := by
  obtain ⟨parts, body, braced, gathers, rfl⟩ := sentence
  obtain ⟨inner, list, within⟩ := Braced.inside braced
  refine ⟨parts, gathers, fun part member => ?_⟩
  obtain ⟨stretch, own, inside⟩ := list.part member
  exact ⟨stretch, own, fun kind among =>
    List.mem_cons_of_mem _ (List.mem_cons_of_mem _ (within (inside among)))⟩

theorem ComponentDecl.Written.interface_written {decl : ComponentDecl} {kinds : List TokenKind}
    (sentence : decl.Written kinds) {interface : InterfaceDecl}
    (declared : interface ∈ decl.interfaces) :
    ∃ stretch, interface.Written stretch ∧ stretch ⊆ kinds := by
  obtain ⟨parts, gathers, written⟩ := sentence.parts_written
  rw [gathers.interfaces] at declared
  obtain ⟨part, member, taken⟩ := List.mem_filterMap.mp declared
  cases part with
  | interface other =>
      cases taken
      exact written _ member
  | _ => cases taken

/-! ### Files -/

/-- In a file that is read without errors no parameter of an interface has a reserved name. -/
theorem SourceFile.param_names_unreserved {file : SourceFile}
    (clean : file.parse.log.totalErrors = 0) {decl : ComponentDecl}
    (component : decl ∈ file.parse.tree.components) {interface : InterfaceDecl}
    (declared : interface ∈ decl.interfaces) {method : MethodDecl}
    (stated : method ∈ interface.methods) {param : Param} (member : param ∈ method.params) :
    Keyword.ofText? param.name.name = none := by
  obtain ⟨_, kinds, lexes, written⟩ := declares_of_parse_clean clean
  have item : Item.component decl ∈ file.parse.tree.items := by
    obtain ⟨item, present, taken⟩ := List.mem_filterMap.mp component
    cases item with
    | component other =>
        cases taken
        exact present
    | contract _ => cases taken
  obtain ⟨text, own, within⟩ := written.part item
  obtain ⟨part, stretch, inside⟩ := ComponentDecl.Written.interface_written own declared
  exact lexes.identifiers_unreserved (within (inside (stretch.param_names stated member)))

end Composer
