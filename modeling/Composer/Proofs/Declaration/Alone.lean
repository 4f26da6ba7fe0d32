import Composer.Proofs.Compilation.Joining
import Composer.Proofs.Model.Bare
import Composer.Proofs.Token.Layout

/-!
Declarations on their own. A `Frame` is a contract with one block and nothing in it, spelled out with
any gaps. The text of a storage member or an event variant that holds a component is read without
reports in such a block, as that one declaration.
-/

namespace Composer

/-! ### Layouts in parts -/

theorem layout_text_append (placed others : List Placed) (last : List Gap) :
    layoutText (placed ++ others) last = layoutText placed [] ++ layoutText others last := by
  induction placed with
  | nil => exact (String.empty_append (s := layoutText others last)).symm
  | cons token rest ih =>
      rw [List.cons_append, layoutText, layoutText, ih]
      simp only [String.append_assoc]

namespace TokenKind

variable {sign : Mark}

/-- A mark other than the colon needs no gap behind it. -/
theorem mark_runs_into_nothing (noColon : sign ≠ .colon) (second : TokenKind) :
    ¬RunsInto (.mark sign) second := by
  intro runs
  rcases runs with ⟨word, _⟩ | ⟨colon, _⟩
  · cases word
  · cases colon
    exact noColon rfl

/-- A mark without colons needs no gap before it. -/
theorem nothing_runs_into_mark (first : TokenKind) (noColon : sign ≠ .colon)
    (noColons : sign ≠ .doubleColon) : ¬RunsInto first (.mark sign) := by
  intro runs
  rcases runs with ⟨_, word⟩ | ⟨_, colon | colons⟩
  · cases word
  · cases colon
    exact noColon rfl
  · cases colons
    exact noColons rfl

end TokenKind

/-! ### Frames -/

/-- A contract that has one block and nothing else, with the gaps before each of its tokens and
behind the last. -/
structure Frame where
  name : String
  gaps : Nat → List Gap
  named : IsIdentifier name
  apart : gaps 1 ≠ []

namespace Frame

def opening (frame : Frame) (block : Keyword) : List Placed :=
  [⟨frame.gaps 0, .keyword .contract⟩, ⟨frame.gaps 1, .identifier frame.name⟩,
    ⟨frame.gaps 2, .mark .leftBrace⟩, ⟨frame.gaps 3, .keyword block⟩,
    ⟨frame.gaps 4, .mark .leftBrace⟩]

def closing (frame : Frame) : List Placed :=
  [⟨frame.gaps 5, .mark .rightBrace⟩, ⟨frame.gaps 6, .mark .rightBrace⟩]

def around (frame : Frame) (block : Keyword) (text : String) : String :=
  layoutText (frame.opening block) [] ++ (text ++ layoutText frame.closing (frame.gaps 7))

variable (frame : Frame) {block : Keyword} {placed : List Placed}

theorem around_layout (block : Keyword) (placed : List Placed) :
    frame.around block (layoutText placed []) =
      layoutText (frame.opening block ++ (placed ++ frame.closing)) (frame.gaps 7) := by
  rw [layout_text_append, layout_text_append placed, around]

theorem around_spelled (spelled : ∀ token ∈ placed, token.kind.Spelled) :
    ∀ token ∈ frame.opening block ++ (placed ++ frame.closing), token.kind.Spelled := by
  rw [List.forall_mem_append, List.forall_mem_append]
  refine ⟨?_, spelled, ?_⟩
  · simp [opening, TokenKind.Spelled, frame.named]
  · simp [closing, TokenKind.Spelled]

/-- Around the text of a block stand marks without colons, so no gaps are needed there. -/
theorem around_apart
    (apart : placed.IsChain fun first second =>
      first.kind.RunsInto second.kind → second.gaps ≠ []) :
    (frame.opening block ++ (placed ++ frame.closing)).IsChain fun first second =>
      first.kind.RunsInto second.kind → second.gaps ≠ [] := by
  have closes : ∀ (first : Placed) (gaps : List Gap),
      first.kind.RunsInto (.mark .rightBrace) → gaps ≠ [] := by
    intro first gaps runs
    exact absurd runs (first.kind.nothing_runs_into_mark (by decide) (by decide))
  rw [List.isChain_append, List.isChain_append]
  refine ⟨?_, ⟨apart, ?_, ?_⟩, ?_⟩
  · simp [opening, frame.apart, TokenKind.RunsInto, TokenKind.isWord]
  · simp [closing, TokenKind.RunsInto, TokenKind.isWord]
  · intro first _ second head
    cases head
    exact closes first _
  · intro first last second _ runs
    cases last
    exact absurd runs (TokenKind.mark_runs_into_nothing (by decide) second.kind)

theorem around_lexes (spelled : ∀ token ∈ placed, token.kind.Spelled)
    (apart : placed.IsChain fun first second =>
      first.kind.RunsInto second.kind → second.gaps ≠ []) :
    Lexes (textBytes (frame.around block (layoutText placed [])))
      (.keyword .contract :: .identifier frame.name :: .mark .leftBrace :: .keyword block ::
        .mark .leftBrace :: (placed.map (·.kind) ++ [.mark .rightBrace, .mark .rightBrace])) := by
  have kinds : (frame.opening block ++ (placed ++ frame.closing)).map (·.kind) =
      .keyword .contract :: .identifier frame.name :: .mark .leftBrace :: .keyword block ::
        .mark .leftBrace :: (placed.map (·.kind) ++ [.mark .rightBrace, .mark .rightBrace]) := by
    rw [List.map_append, List.map_append]
    rfl
  rw [around_layout, ← kinds]
  exact layout_lexes (frame.around_spelled spelled) (frame.around_apart apart)

end Frame

/-! ### Reading -/

/-- What is laid out in a block is read as the one part of a contract that it is written as. -/
theorem SourceFile.parse_around (frame : Frame) (name : String) {block : Keyword}
    {placed : List Placed} {part : ContractPart} {decl : ContractDecl}
    (named : decl.name.name = frame.name) (gathers : decl.Gathers [part])
    (written : part.Written (.keyword block :: .mark .leftBrace ::
      (placed.map (·.kind) ++ [.mark .rightBrace])))
    (spelled : ∀ token ∈ placed, token.kind.Spelled)
    (apart : placed.IsChain fun first second =>
      first.kind.RunsInto second.kind → second.gaps ≠ []) :
    let file : SourceFile := ⟨name, frame.around block (layoutText placed [])⟩
    file.parse.log = .empty ∧
      ∃ read, file.parse.tree.items = [.contract read] ∧ read.bare = decl.bare := by
  intro file
  have contract : Item.Written (.contract decl)
      (.keyword .contract :: .identifier frame.name :: .mark .leftBrace :: .keyword block ::
        .mark .leftBrace :: (placed.map (·.kind) ++ [.mark .rightBrace, .mark .rightBrace])) := by
    rw [← named]
    refine ⟨[part], _, ⟨_, .cons written .nil, rfl⟩, gathers, ?_⟩
    simp
  have sentence : ItemsWritten [.contract decl] (_ ++ []) := .cons contract .nil
  rw [List.append_nil] at sentence
  have declares : file.Declares [.contract decl] :=
    ⟨_, frame.around_lexes spelled apart, sentence⟩
  rcases parse_of_declares declares with ⟨log, same⟩
  refine ⟨log, ?_⟩
  rcases List.map_eq_singleton_iff.mp same with ⟨item, items, bare⟩
  cases item with
  | component _ => cases bare
  | contract read => exact ⟨read, items, Item.contract.inj bare⟩

/-- Alone in a block of a contract, however that is called and laid out, the text is read without
reports as one declaration, and that is as said. -/
def ReadsAlone {Part : Type} (block : Keyword) (parts : Host → List Part) (text : String)
    (fits : Part → Prop) : Prop :=
  ∀ (frame : Frame) (name : String),
    let file : SourceFile := ⟨name, frame.around block text⟩
    file.parse.log = .empty ∧ ∃ decl, file.parse.tree.items = [.contract decl] ∧
      ∃ part, parts (decl.host name) = [part] ∧ fits part

theorem ReadsAlone.mono {Part : Type} {block : Keyword} {parts : Host → List Part} {text : String}
    {fits others : Part → Prop} (reads : ReadsAlone block parts text fits)
    (weaker : ∀ part, fits part → others part) : ReadsAlone block parts text others := by
  intro frame name
  rcases reads frame name with ⟨log, decl, items, part, single, fit⟩
  exact ⟨log, decl, items, part, single, weaker part fit⟩

/-! ### Types of components -/

def Ident.unplaced (name : String) : Ident := ⟨name, default⟩

def TypeExpr.provided (component name : String) : TypeExpr :=
  .path [.unplaced component, .unplaced name] [] default

theorem TypeExpr.provided_written (component name : String) :
    (provided component name).Written
      [.identifier component, .mark .doubleColon, .identifier name] :=
  .path (.cons rfl .nil) .none

theorem TypeExpr.provided_text (component name : String) :
    (provided component name).text = component ++ ("::" ++ name) := by
  rw [provided, text, texts, pathText, List.map_cons, List.map_singleton,
    String.intercalate_cons_cons, String.intercalate_singleton, String.append_assoc]
  rfl

/-- Contracts that are the same up to places declare hosts that are. -/
theorem ContractDecl.host_of_bare {read decl : ContractDecl} (same : read.bare = decl.bare)
    (file : String) : (read.host file).bare = (decl.host file).bare := by
  rw [← host_bare, ← host_bare, same]

@[simp]
theorem gap_text_nil : gapText [] = "" := rfl

@[simp]
theorem gap_text_space : gapText [.space] = " " := rfl

/-! ### Storage members -/

namespace MemberDecl

def holding (field component : String) (layout : Layout) : MemberDecl :=
  ⟨[⟨.unplaced "substorage", [.unplaced layout.version], default⟩], .unplaced field,
    .provided component "Storage", default⟩

def holdingTokens (field component : String) (layout : Layout) : List Placed :=
  [⟨[], .mark .hash⟩, ⟨[], .mark .leftBracket⟩, ⟨[], .identifier "substorage"⟩,
    ⟨[], .mark .leftParen⟩, ⟨[], .identifier layout.version⟩, ⟨[], .mark .rightParen⟩,
    ⟨[], .mark .rightBracket⟩, ⟨[.space], .identifier field⟩, ⟨[], .mark .colon⟩,
    ⟨[.space], .identifier component⟩, ⟨[], .mark .doubleColon⟩, ⟨[], .identifier "Storage"⟩,
    ⟨[], .mark .comma⟩]

variable {field component : String} (layout : Layout)

theorem holding_host_member :
    (holding field component layout).hostMember =
      ⟨field, Component.storageTypeOf component, .layout layout, default⟩ := by
  have substorage : substorageOf (holding field component layout).attributes = .layout layout := by
    cases layout <;> rfl
  have type : (holding field component layout).type.text = Component.storageTypeOf component :=
    TypeExpr.provided_text component "Storage"
  rw [hostMember, substorage, type]
  rfl

theorem holding_tokens_text :
    layoutText (holdingTokens field component layout) [] =
      "#[substorage(" ++ layout.version ++ ")] " ++ field ++ ": " ++
        Component.storageTypeOf component ++ "," := by
  have opening : "#[substorage(" = "#" ++ ("[" ++ ("substorage" ++ "(")) := by decide
  have behind : ")] " = ")" ++ ("]" ++ " ") := by decide
  have colon : ": " = ":" ++ " " := by decide
  have type : "::Storage" = "::" ++ "Storage" := by decide
  rw [Component.storageTypeOf, opening, behind, colon, type]
  simp only [holdingTokens, layoutText, gap_text_nil, gap_text_space, TokenKind.text, Mark.text,
    String.empty_append, String.append_empty, String.append_assoc]

theorem holding_tokens_spelled (fieldNamed : IsIdentifier field)
    (componentNamed : IsIdentifier component) :
    ∀ token ∈ holdingTokens field component layout, token.kind.Spelled := by
  have version : IsIdentifier layout.version := by cases layout <;> decide
  have substorage : IsIdentifier "substorage" := by decide
  have storage : IsIdentifier "Storage" := by decide
  simp [holdingTokens, TokenKind.Spelled, fieldNamed, componentNamed, version, substorage, storage]

theorem holding_tokens_apart :
    (holdingTokens field component layout).IsChain fun first second =>
      first.kind.RunsInto second.kind → second.gaps ≠ [] := by
  simp [holdingTokens, TokenKind.RunsInto, TokenKind.isWord]

theorem holding_written :
    ContractPart.Written (.storage ⟨[holding field component layout], default⟩)
      (.keyword .storage :: .mark .leftBrace ::
        ((holdingTokens field component layout).map (·.kind) ++ [.mark .rightBrace])) := by
  have attributes : AttributesWritten (holding field component layout).attributes
      [.mark .hash, .mark .leftBracket, .identifier "substorage", .mark .leftParen,
        .identifier layout.version, .mark .rightParen, .mark .rightBracket] :=
    Led.cons (Attribute.Written.applied (CommaList.last rfl)) Led.nil
  have member : (holding field component layout).Written
      ((holdingTokens field component layout).map (·.kind)).dropLast :=
    ⟨_, _, attributes, TypeExpr.provided_written component "Storage", rfl⟩
  exact ⟨_, ⟨_, .cons member .nil, rfl⟩, rfl⟩

end MemberDecl

/-- The text of a member that holds a component is read as this member. -/
theorem member_reads_alone {field component : String} (fieldNamed : IsIdentifier field)
    (componentNamed : IsIdentifier component) (layout : Layout) :
    ReadsAlone .storage Host.storage
      ("#[substorage(" ++ layout.version ++ ")] " ++ field ++ ": " ++
        Component.storageTypeOf component ++ ",")
      fun added => ∃ span,
        added = ⟨field, Component.storageTypeOf component, .layout layout, span⟩ := by
  intro frame name
  let decl : ContractDecl := ⟨.unplaced frame.name, [], [],
    some ⟨[.holding field component layout], default⟩, none, default⟩
  have gathers : decl.Gathers [.storage ⟨[.holding field component layout], default⟩] :=
    ⟨rfl, rfl, rfl, rfl⟩
  have parsed := SourceFile.parse_around frame name rfl gathers
    (MemberDecl.holding_written layout)
    (MemberDecl.holding_tokens_spelled layout fieldNamed componentNamed)
    (MemberDecl.holding_tokens_apart layout)
  rw [MemberDecl.holding_tokens_text] at parsed
  rcases parsed with ⟨log, read, items, same⟩
  have storage := congrArg Host.storage (ContractDecl.host_of_bare same name)
  rcases List.map_eq_singleton_iff.mp storage with ⟨added, held, bare⟩
  rw [MemberDecl.holding_host_member] at bare
  rcases added with ⟨_, _, _, span⟩
  cases bare
  exact ⟨log, read, items, _, held, span, rfl⟩

/-! ### Event variants -/

namespace VariantDecl

def nesting (variant component : String) : VariantDecl :=
  ⟨[], .unplaced variant, some (.provided component "Event"), default⟩

def nestingTokens (variant component : String) : List Placed :=
  [⟨[], .identifier variant⟩, ⟨[], .mark .colon⟩, ⟨[.space], .identifier component⟩,
    ⟨[], .mark .doubleColon⟩, ⟨[], .identifier "Event"⟩, ⟨[], .mark .comma⟩]

variable {variant component : String}

theorem nesting_variant :
    (nesting variant component).variant =
      ⟨variant, some (Component.eventTypeOf component), default⟩ := by
  have payload : (nesting variant component).payload.map TypeExpr.text =
      some (Component.eventTypeOf component) :=
    congrArg some (TypeExpr.provided_text component "Event")
  rw [VariantDecl.variant, payload]
  rfl

theorem nesting_tokens_text :
    layoutText (nestingTokens variant component) [] =
      variant ++ ": " ++ Component.eventTypeOf component ++ "," := by
  have colon : ": " = ":" ++ " " := by decide
  have type : "::Event" = "::" ++ "Event" := by decide
  rw [Component.eventTypeOf, colon, type]
  simp only [nestingTokens, layoutText, gap_text_nil, gap_text_space, TokenKind.text, Mark.text,
    String.empty_append, String.append_empty, String.append_assoc]

theorem nesting_tokens_spelled (variantNamed : IsIdentifier variant)
    (componentNamed : IsIdentifier component) :
    ∀ token ∈ nestingTokens variant component, token.kind.Spelled := by
  have event : IsIdentifier "Event" := by decide
  simp [nestingTokens, TokenKind.Spelled, variantNamed, componentNamed, event]

theorem nesting_tokens_apart :
    (nestingTokens variant component).IsChain fun first second =>
      first.kind.RunsInto second.kind → second.gaps ≠ [] := by
  simp [nestingTokens, TokenKind.RunsInto, TokenKind.isWord]

theorem nesting_written :
    ContractPart.Written (.event ⟨[nesting variant component], default⟩)
      (.keyword .event :: .mark .leftBrace ::
        ((nestingTokens variant component).map (·.kind) ++ [.mark .rightBrace])) := by
  have payload : Optional (.mark .colon) TypeExpr.Written (nesting variant component).payload
      [.mark .colon, .identifier component, .mark .doubleColon, .identifier "Event"] :=
    .some (TypeExpr.provided_written component "Event")
  have written : (nesting variant component).Written
      ((nestingTokens variant component).map (·.kind)).dropLast :=
    ⟨[], _, .nil, payload, rfl⟩
  exact ⟨_, ⟨_, .cons written .nil, rfl⟩, rfl⟩

end VariantDecl

/-- The text of a variant that nests the events of a component is read as this variant. -/
theorem variant_reads_alone {variant component : String} (variantNamed : IsIdentifier variant)
    (componentNamed : IsIdentifier component) :
    ReadsAlone .event Host.events (variant ++ ": " ++ Component.eventTypeOf component ++ ",")
      fun added => ∃ span, added = ⟨variant, some (Component.eventTypeOf component), span⟩ := by
  intro frame name
  let decl : ContractDecl := ⟨.unplaced frame.name, [], [], none,
    some ⟨[.nesting variant component], default⟩, default⟩
  have gathers : decl.Gathers [.event ⟨[.nesting variant component], default⟩] :=
    ⟨rfl, rfl, rfl, rfl⟩
  have parsed := SourceFile.parse_around frame name rfl gathers VariantDecl.nesting_written
    (VariantDecl.nesting_tokens_spelled variantNamed componentNamed)
    VariantDecl.nesting_tokens_apart
  rw [VariantDecl.nesting_tokens_text] at parsed
  rcases parsed with ⟨log, read, items, same⟩
  have events := congrArg Host.events (ContractDecl.host_of_bare same name)
  rcases List.map_eq_singleton_iff.mp events with ⟨added, held, bare⟩
  rw [VariantDecl.nesting_variant] at bare
  rcases added with ⟨_, _, span⟩
  cases bare
  exact ⟨log, read, items, _, held, span, rfl⟩

end Composer
