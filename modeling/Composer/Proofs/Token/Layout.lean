import Composer.Proofs.Token.Spelling
import Mathlib.Data.List.Chain

/-!
Lexing undoes printing. Tokens are spelled out with gaps of blanks and comments between them, where
only two words, or a colon and more colons, need one. Whatever gaps are chosen, the text is lexed as
the tokens that were spelled out.
-/

namespace Composer

/-! ### Gaps -/

/-- What may stand between two tokens: a blank, or a comment with the line feed that ends it. -/
inductive Gap
  | space
  | tab
  | carriageReturn
  | lineFeed
  | comment (text : String) (oneLine : '\n' ∉ text.toList)

namespace Gap

def text : Gap → String
  | space => " "
  | tab => "\t"
  | carriageReturn => "\r"
  | lineFeed => "\n"
  | comment text _ => "//" ++ text ++ "\n"

theorem comment_bytes (text : String) (oneLine : '\n' ∉ text.toList) :
    textBytes (comment text oneLine).text = 0x2f :: 0x2f :: textBytes text ++ [0x0a] := by
  have slashes : textBytes "//" = [0x2f, 0x2f] := by decide
  have lineFeed : textBytes "\n" = [0x0a] := by decide
  rw [Gap.text, text_bytes_append, text_bytes_append, slashes, lineFeed]
  rfl

/-- A gap goes on with no word, and with no colon. -/
theorem text_starts (gap : Gap) : ∃ byte rest, textBytes gap.text = byte :: rest ∧
    isWordByte byte = false ∧ byte ≠ 0x3a := by
  cases gap with
  | comment text oneLine => exact ⟨_, _, comment_bytes text oneLine, by decide, by decide⟩
  | _ => exact ⟨_, [], rfl, by decide, by decide⟩

theorem behind (gap : Gap) (more : List UInt8) :
    behindTrivia (textBytes gap.text ++ more) = behindTrivia more := by
  cases gap with
  | space => exact behind_trivia_blank 0x20 rfl more
  | tab => exact behind_trivia_blank 0x09 rfl more
  | carriageReturn => exact behind_trivia_blank 0x0d rfl more
  | lineFeed => exact behind_trivia_blank 0x0a rfl more
  | comment text oneLine =>
      have absent : (0x0a : UInt8) ∉ textBytes text := by
        intro member
        rcases (ascii_mem_text_bytes (by decide) text).mp member with ⟨char, among, number⟩
        have lineFeed : char = '\n' := Char.toNat_inj.mp number
        exact oneLine (lineFeed ▸ among)
      rw [comment_bytes, List.append_assoc, List.singleton_append]
      exact behind_trivia_comment absent more

end Gap

def gapText (gaps : List Gap) : String := String.join (gaps.map Gap.text)

theorem gap_text_cons (gap : Gap) (gaps : List Gap) :
    gapText (gap :: gaps) = gap.text ++ gapText gaps := by
  rw [gapText, List.map_cons, String.join_cons]
  rfl

theorem Lexes.behind_gaps (gaps : List Gap) {more : List UInt8} {kinds : List TokenKind}
    (lexes : Lexes more kinds) : Lexes (textBytes (gapText gaps) ++ more) kinds := by
  induction gaps with
  | nil => exact lexes
  | cons gap gaps ih =>
      rw [gap_text_cons, text_bytes_append, List.append_assoc]
      exact .of_behind (gap.behind _) ih

/-! ### Layouts -/

structure Placed where
  gaps : List Gap
  kind : TokenKind

def layoutText : List Placed → List Gap → String
  | [], last => gapText last
  | token :: rest, last => gapText token.gaps ++ (token.kind.text ++ layoutText rest last)

/-- Spelled out without a gap, the two would not be read as two, or not as these. -/
def TokenKind.RunsInto (first second : TokenKind) : Prop :=
  first.isWord = true ∧ second.isWord = true ∨
    first = .mark .colon ∧ (second = .mark .colon ∨ second = .mark .doubleColon)

instance (first second : TokenKind) : Decidable (first.RunsInto second) :=
  inferInstanceAs (Decidable (_ ∨ _))

/-- The first byte of a token tells words, and colons. -/
theorem TokenKind.Spelled.starts {kind : TokenKind} (spelled : kind.Spelled) :
    ∃ byte rest, textBytes kind.text = byte :: rest ∧
      (isWordByte byte = true → kind.isWord = true) ∧
      (byte = 0x3a → kind = .mark .colon ∨ kind = .mark .doubleColon) := by
  have word : ∀ text, IsWord text → ∃ byte rest, textBytes text = byte :: rest ∧ byte ≠ 0x3a := by
    intro text own
    rcases word_bytes own with ⟨byte, rest, bytes, start, _⟩
    refine ⟨byte, rest, bytes, fun colon => ?_⟩
    rw [colon] at start
    exact absurd start (by decide)
  cases kind with
  | identifier name =>
      rcases word name spelled.1 with ⟨byte, rest, bytes, other⟩
      exact ⟨byte, rest, bytes, fun _ => rfl, fun colon => absurd colon other⟩
  | keyword reserved =>
      rcases word reserved.text (keyword_is_word reserved) with ⟨byte, rest, bytes, other⟩
      exact ⟨byte, rest, bytes, fun _ => rfl, fun colon => absurd colon other⟩
  | mark sign => cases sign <;> exact ⟨_, _, rfl, by decide, by decide⟩
  | endOfFile => exact absurd spelled id

/-- What is laid out behind a token does not go on with it, where a gap stands between the two if
they need one. -/
theorem TokenKind.ends_before_layout (kind : TokenKind) (placed : List Placed) (last : List Gap)
    (spelled : ∀ token ∈ placed, token.kind.Spelled)
    (apart : ∀ token ∈ placed.head?, kind.RunsInto token.kind → token.gaps ≠ []) :
    kind.EndsBefore (textBytes (layoutText placed last)) := by
  have of_gap : ∀ gap gaps more, kind.EndsBefore (textBytes (gapText (gap :: gaps)) ++ more) := by
    intro gap gaps more
    rcases gap.text_starts with ⟨byte, rest, bytes, noWord, noColon⟩
    rw [gap_text_cons, text_bytes_append, bytes]
    constructor
    · intro _ other first
      rw [← Option.some.inj first]
      exact noWord
    · intro _ first
      exact noColon (Option.some.inj first)
  cases placed with
  | nil =>
      cases last with
      | nil =>
          constructor
          · intro _ _ first
            cases first
          · intro _ first
            cases first
      | cons gap gaps =>
          have ends := of_gap gap gaps []
          rw [List.append_nil] at ends
          exact ends
  | cons token rest =>
      rw [layoutText, text_bytes_append]
      cases gaps : token.gaps with
      | cons gap others => exact of_gap gap others _
      | nil =>
          have free : ¬kind.RunsInto token.kind := fun runs => apart token rfl runs gaps
          rcases (spelled token List.mem_cons_self).starts with ⟨byte, more, bytes, word, colon⟩
          rw [text_bytes_append, bytes]
          constructor
          · intro isWord other first
            rw [← Option.some.inj first, ← Bool.not_eq_true]
            exact fun goesOn => free (.inl ⟨isWord, word goesOn⟩)
          · intro isColon first
            exact free (.inr ⟨isColon, colon (Option.some.inj first)⟩)

theorem layout_lexes {placed : List Placed} {last : List Gap}
    (spelled : ∀ token ∈ placed, token.kind.Spelled)
    (apart : placed.IsChain fun first second =>
      first.kind.RunsInto second.kind → second.gaps ≠ []) :
    Lexes (textBytes (layoutText placed last)) (placed.map (·.kind)) := by
  induction placed with
  | nil =>
      have nothing : Lexes [] [] := .done rfl
      have ended := nothing.behind_gaps last
      rw [List.append_nil] at ended
      exact ended
  | cons token rest ih =>
      rw [List.forall_mem_cons] at spelled
      rw [List.isChain_cons] at apart
      rw [layoutText, text_bytes_append, text_bytes_append]
      apply Lexes.behind_gaps
      apply Lexes.spelled token.kind spelled.1
      · exact token.kind.ends_before_layout rest last spelled.2 apart.1
      · exact ih spelled.2 apart.2

/-- Tokens that are spelled out with gaps where they need them are read back, and nothing is
reported. -/
theorem SourceFile.lex_layout (name : String) (placed : List Placed) (last : List Gap)
    (spelled : ∀ token ∈ placed, token.kind.Spelled)
    (apart : placed.IsChain fun first second =>
      first.kind.RunsInto second.kind → second.gaps ≠ []) :
    let file : SourceFile := ⟨name, layoutText placed last⟩
    file.lex.log = .empty ∧
      file.lex.tokens.map (·.kind) = placed.map (·.kind) ++ [.endOfFile] :=
  SourceFile.lex_complete (layout_lexes spelled apart)

/-- A word that starts like a keyword, colons, and a comment between two words. -/
theorem SourceFile.lex_layout_words :
    let placed : List Placed := [⟨[.tab], .keyword .fn⟩, ⟨[.comment "a: b" (by decide)],
      .identifier "fn_1"⟩, ⟨[], .mark .colon⟩, ⟨[.space, .lineFeed], .mark .doubleColon⟩,
      ⟨[], .mark .arrow⟩, ⟨[], .mark .greater⟩]
    (SourceFile.lex ⟨"", layoutText placed [.carriageReturn]⟩).tokens.map (·.kind) =
      [.keyword .fn, .identifier "fn_1", .mark .colon, .mark .doubleColon, .mark .arrow,
        .mark .greater, .endOfFile] := by
  have name : IsIdentifier "fn_1" := by
    constructor
    · exact ⟨'f', ['n', '_', '1'], rfl, by decide, by decide⟩
    · intro keyword
      cases keyword <;> decide
  intro placed
  refine (SourceFile.lex_layout "" placed [.carriageReturn] ?_ (by decide)).2
  intro token member
  simp only [placed, List.mem_cons, List.not_mem_nil, or_false] at member
  rcases member with rfl | rfl | rfl | rfl | rfl | rfl
  · exact trivial
  · exact name
  · exact trivial
  · exact trivial
  · exact trivial
  · exact trivial

end Composer
