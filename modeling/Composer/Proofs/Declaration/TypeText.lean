import Composer.Proofs.Compilation.Joining
import Composer.Proofs.Token.Spelling

/-!
The text of a type is a faithful code for it. It is lexed as a sentence of the grammar for types, so
that parsing it gives the type back, up to spans. Hence types may be compared by their texts.
-/

namespace Composer

/-! ### Texts that spell sentences -/

/-- The text is lexed as these kinds wherever no word goes on behind it. -/
def Spells (text : String) (kinds : List TokenKind) : Prop :=
  ∀ ⦃more : List UInt8⦄ ⦃rest : List TokenKind⦄,
    (∀ byte, more.head? = some byte → isWordByte byte = false) → Lexes more rest →
      Lexes (textBytes text ++ more) (kinds ++ rest)

namespace Spells

variable {first second : String} {kinds others : List TokenKind}

theorem identifier {name : String} (named : IsIdentifier name) :
    Spells name [.identifier name] := by
  intro more rest stops later
  exact .spelled (.identifier name) named ⟨fun _ => stops, nofun⟩ later

/-- Behind a mark other than the colon anything may follow. -/
theorem mark (sign : Mark) (single : sign ≠ .colon) (behind : Spells second others) :
    Spells (sign.text ++ second) (.mark sign :: others) := by
  intro more rest stops later
  rw [text_bytes_append, List.append_assoc]
  apply Lexes.spelled (.mark sign) trivial _ (behind stops later)
  constructor
  · exact nofun
  · intro colon
    injection colon with same
    exact absurd same single

theorem blank (behind : Spells second others) : Spells (" " ++ second) others := by
  intro more rest stops later
  rw [text_bytes_append, List.append_assoc]
  exact .of_behind (behind_trivia_blank 0x20 rfl _) (behind stops later)

theorem nothing : Spells "" [] := fun _ _ _ later => later

/-- One text behind another, where it starts with no part of a word. -/
theorem append (before : Spells first kinds) (behind : Spells second others) {byte : UInt8}
    {bytes : List UInt8} (start : textBytes second = byte :: bytes)
    (noWord : isWordByte byte = false) : Spells (first ++ second) (kinds ++ others) := by
  intro more rest stops later
  rw [text_bytes_append, List.append_assoc, List.append_assoc]
  refine before (fun other head => ?_) (behind stops later)
  rw [start] at head
  rw [← Option.some.inj head]
  exact noWord

theorem append_mark (before : Spells first kinds) (sign : Mark) (single : sign ≠ .colon)
    (behind : Spells second others) :
    Spells (first ++ (sign.text ++ second)) (kinds ++ .mark sign :: others) := by
  have start : ∃ byte bytes, textBytes sign.text = byte :: bytes ∧ isWordByte byte = false := by
    cases sign <;> exact ⟨_, _, rfl, rfl⟩
  rcases start with ⟨byte, bytes, spelling, noWord⟩
  have front : textBytes (sign.text ++ second) = byte :: (bytes ++ textBytes second) := by
    rw [text_bytes_append, spelling]
    rfl
  exact before.append (mark sign single behind) front noWord

theorem append_close (before : Spells first kinds) (sign : Mark) (single : sign ≠ .colon) :
    Spells (first ++ sign.text) (kinds ++ [.mark sign]) := by
  have closed := before.append_mark sign single nothing
  rw [String.append_empty] at closed
  exact closed

/-- Texts with a comma and a space in front of each, behind a first text. -/
theorem comma_led {Node : Type} {written : Node → List TokenKind → Prop} {text : Node → String}
    {nodes : List Node} (before : Spells first kinds)
    (each : ∀ node ∈ nodes, ∃ kinds, written node kinds ∧ Spells (text node) kinds) :
    ∃ later, Led (.mark .comma) True written nodes later ∧
      Spells (String.intercalate ", " (first :: nodes.map text)) (kinds ++ later) := by
  induction nodes generalizing first kinds with
  | nil =>
      refine ⟨[], .nil, ?_⟩
      rw [List.map_nil, String.intercalate_singleton, List.append_nil]
      exact before
  | cons node rest ih =>
      rw [List.forall_mem_cons] at each
      rcases each with ⟨⟨here, own, spells⟩, others⟩
      rcases ih spells others with ⟨later, led, behind⟩
      refine ⟨_, .cons own led, ?_⟩
      have separator (text : String) : ", " ++ text = Mark.comma.text ++ (" " ++ text) := by
        rw [← String.append_assoc]
        rfl
      rw [List.map_cons, String.intercalate_cons_cons, String.append_assoc, separator]
      exact before.append_mark .comma (by decide) behind.blank

end Spells

/-! ### Types -/

namespace TypeExpr

inductive WellNamed : TypeExpr → Prop
  | path {segments : List Ident} {generics : List TypeExpr} {span : Span} :
      segments ≠ [] → (∀ segment ∈ segments, IsIdentifier segment.name) →
        (∀ type ∈ generics, WellNamed type) → WellNamed (.path segments generics span)
  | snapshot {inner : TypeExpr} {span : Span} :
      WellNamed inner → WellNamed (.snapshot inner span)
  | tuple {items : List TypeExpr} {span : Span} :
      (∀ type ∈ items, WellNamed type) → WellNamed (.tuple items span)

def TextWritten (type : TypeExpr) : Prop :=
  ∃ kinds, type.Written kinds ∧ Spells type.text kinds

theorem texts_eq_map (types : List TypeExpr) : texts types = types.map text := by
  induction types with
  | nil => rfl
  | cons type rest ih => rw [texts, ih, List.map_cons]

theorem path_text_written {first : Ident} {others : List Ident}
    (named : ∀ segment ∈ first :: others, IsIdentifier segment.name) :
    ∃ names, Led (.mark .doubleColon) False Ident.Written others names ∧
      Spells (pathText (first :: others)) (.identifier first.name :: names) := by
  induction others generalizing first with
  | nil =>
      refine ⟨[], .nil, ?_⟩
      rw [pathText, List.map_singleton, String.intercalate_singleton]
      exact .identifier (named first List.mem_cons_self)
  | cons second others ih =>
      rw [List.forall_mem_cons] at named
      rcases ih named.2 with ⟨names, led, spells⟩
      refine ⟨_, .cons rfl led, ?_⟩
      have own := (Spells.identifier named.1).append_mark .doubleColon (by decide) spells
      rw [pathText, List.map_cons, List.map_cons, String.intercalate_cons_cons, String.append_assoc]
      exact own

/-- The texts of types with commas between them. -/
theorem comma_text_written {first : TypeExpr} {rest : List TypeExpr}
    (written : ∀ type ∈ first :: rest, type.TextWritten) :
    ∃ here later, first.Written here ∧ Led (.mark .comma) True TypeExpr.Written rest later ∧
      Spells (String.intercalate ", " ((first :: rest).map text)) (here ++ later) := by
  rw [List.forall_mem_cons] at written
  rcases written with ⟨⟨here, own, spells⟩, others⟩
  rcases spells.comma_led others with ⟨later, led, whole⟩
  exact ⟨here, later, own, led, whole⟩

theorem comma_list_of_led {first : TypeExpr} {rest : List TypeExpr} {here later : List TokenKind}
    (own : first.Written here) (led : Led (.mark .comma) True TypeExpr.Written rest later) :
    CommaList TypeExpr.Written (first :: rest) (here ++ later) := by
  induction led generalizing first here with
  | nil =>
      rw [List.append_nil]
      exact .last own
  | trailing _ => exact .cons own .nil
  | cons next _ ih => exact .cons own (ih next)

theorem text_written {type : TypeExpr} (named : type.WellNamed) : type.TextWritten := by
  induction named with
  | @path segments generics span some names _ ih =>
      rcases List.exists_cons_of_ne_nil some with ⟨first, others, rfl⟩
      rcases path_text_written names with ⟨path, led, spells⟩
      cases generics with
      | nil =>
          refine ⟨_, .path led .none, ?_⟩
          rw [List.append_nil]
          exact spells
      | cons argument arguments =>
          rcases comma_text_written ih with ⟨here, later, own, led', spellsArguments⟩
          refine ⟨_, .path led (.some own led'), ?_⟩
          have closed := spellsArguments.append_close .greater (by decide)
          have whole := spells.append_mark .less (by decide) closed
          rw [← texts_eq_map, List.append_assoc, ← String.append_assoc, ← String.append_assoc]
            at whole
          exact whole
  | @snapshot inner span _ ih =>
      rcases ih with ⟨kinds, own, spells⟩
      exact ⟨_, .snapshot own, spells.mark .atSign (by decide)⟩
  | @tuple items span _ ih =>
      cases items with
      | nil =>
          refine ⟨_, .tuple .nil, ?_⟩
          exact (Spells.nothing.append_close .rightParen (by decide)).mark .leftParen (by decide)
      | cons first rest =>
          rcases comma_text_written ih with ⟨here, later, own, led, spells⟩
          refine ⟨_, .tuple (comma_list_of_led own led), ?_⟩
          have closed := spells.append_close .rightParen (by decide)
          have whole := closed.mark .leftParen (by decide)
          rw [← texts_eq_map, ← String.append_assoc] at whole
          exact whole

/-- The text of the type, as a file, is lexed and parsed without a report up to its end, and the
result is the type up to spans. -/
def TextParses (name : String) (type : TypeExpr) : Prop :=
  let file : SourceFile := ⟨name, type.text⟩
  file.lex.log = .empty ∧ ∃ result after,
    Parse.type (Cursor.ofTokens file file.lex.tokens) = (some result, after) ∧
      after.log = .empty ∧ after.ahead = [] ∧ result.bare = type.bare

theorem text_parses (name : String) {type : TypeExpr} (named : type.WellNamed) :
    type.TextParses name := by
  unfold TextParses
  intro file
  rcases text_written named with ⟨kinds, written, spells⟩
  have lexes : Lexes file.bytes kinds := by
    have ended : Lexes [] [] := .done rfl
    have whole := spells (fun _ none => by cases none) ended
    rw [List.append_nil, List.append_nil] at whole
    exact whole
  rcases SourceFile.lex_complete lexes with ⟨clean, tokens⟩
  have ahead := file.kinds_of_lexed lexes tokens
  rw [← List.append_nil kinds] at ahead
  have ends : Parse.Accepts.EndsType [] := ⟨nofun, nofun⟩
  rcases Parse.Accepts.type written ends _ ahead rfl with ⟨result, after, parsed, same, left, log⟩
  exact ⟨clean, result, after, parsed, log, List.map_eq_nil_iff.mp left, same⟩

/-- The text of a type is a faithful code for it: it is read back as the type, and only types that
are the same up to spans have the same text. -/
theorem text_faithful (name : String) (type : TypeExpr) (named : type.WellNamed) :
    type.TextParses name ∧
      ∀ other : TypeExpr, other.WellNamed → (type.text = other.text ↔ type.bare = other.bare) := by
  constructor
  · exact text_parses name named
  · intro other otherNamed
    constructor
    · intro same
      rcases text_parses name named with ⟨_, result, after, parsed, _, _, own⟩
      rcases text_parses name otherNamed with ⟨_, _, _, otherParsed, _, _, theirs⟩
      rw [same, otherParsed] at parsed
      cases parsed
      rw [← own, theirs]
    · intro same
      rw [← text_bare type, same, text_bare other]

/-- A type with arguments, and with tuples of no and of one element. -/
theorem nested_text_faithful :
    let felt : TypeExpr := .path [⟨"core", default⟩, ⟨"felt", default⟩] [] default
    let nested : TypeExpr := .snapshot (.tuple [.tuple [] default] default) default
    let type : TypeExpr := .path [⟨"Map", default⟩] [felt, nested] default
    type.text = "Map<core::felt, @(())>" ∧ type.TextParses "" ∧ type.text ≠ nested.text := by
  have core : IsIdentifier "core" :=
    ⟨⟨'c', ['o', 'r', 'e'], rfl, by decide, by decide⟩, fun word => by cases word <;> decide⟩
  have feltIs : IsIdentifier "felt" :=
    ⟨⟨'f', ['e', 'l', 't'], rfl, by decide, by decide⟩, fun word => by cases word <;> decide⟩
  have map : IsIdentifier "Map" :=
    ⟨⟨'M', ['a', 'p'], rfl, by decide, by decide⟩, fun word => by cases word <;> decide⟩
  intro felt nested type
  have feltNamed : felt.WellNamed := by
    apply WellNamed.path (List.cons_ne_nil _ _)
    · rw [List.forall_mem_cons, List.forall_mem_singleton]
      exact ⟨core, feltIs⟩
    · exact fun _ member => absurd member List.not_mem_nil
  have nestedNamed : nested.WellNamed := by
    apply WellNamed.snapshot
    apply WellNamed.tuple
    rw [List.forall_mem_singleton]
    exact .tuple fun _ member => absurd member List.not_mem_nil
  have named : type.WellNamed := by
    apply WellNamed.path (List.cons_ne_nil _ _)
    · rw [List.forall_mem_singleton]
      exact map
    · rw [List.forall_mem_cons, List.forall_mem_singleton]
      exact ⟨feltNamed, nestedNamed⟩
  rcases text_faithful "" type named with ⟨parses, unique⟩
  refine ⟨by decide, parses, fun same => ?_⟩
  cases (unique nested nestedNamed).mp same

end TypeExpr

end Composer
