import Composer.Proofs.Source.Bytes

/-!
Lexing by its bytes alone. `Lexes` says which kinds of tokens bytes come to where nothing is reported;
neither positions nor fuel occur in it. A line feed between two texts separates them for the lexer,
whatever comment, blank or word the first one ends with.
-/

namespace Composer

def behindTrivia (bytes : List UInt8) : List UInt8 := (dropTrivia false ⟨1, 1⟩ bytes).2

/-- The bytes are read as tokens of these kinds, up to their end and without a report. -/
inductive Lexes : List UInt8 → List TokenKind → Prop
  | done {bytes : List UInt8} : behindTrivia bytes = [] → Lexes bytes []
  | token {bytes rest : List UInt8} {byte : UInt8} {kind : TokenKind} {kinds : List TokenKind} :
      behindTrivia bytes = byte :: rest → Lexeme.scan byte rest = .token kind →
      Lexes ((byte :: rest).drop kind.text.utf8ByteSize) kinds → Lexes bytes (kind :: kinds)

/-! ### Trivia -/

theorem drop_trivia_at (comment : Bool) (first second : Position) (bytes : List UInt8) :
    (dropTrivia comment first bytes).2 = (dropTrivia comment second bytes).2 := by
  induction bytes generalizing comment first second with
  | nil => cases comment <;> rfl
  | cons byte rest ih =>
      cases comment with
      | true => exact ih _ _ _
      | false =>
          rw [dropTrivia, dropTrivia]
          split
          · exact ih _ _ _
          · split
            · exact ih _ _ _
            · rfl

theorem drop_trivia_snd (position : Position) (bytes : List UInt8) :
    (dropTrivia false position bytes).2 = behindTrivia bytes :=
  drop_trivia_at _ _ _ _

theorem drop_trivia_length_le (comment : Bool) (position : Position) (bytes : List UInt8) :
    (dropTrivia comment position bytes).2.length ≤ bytes.length := by
  induction bytes generalizing comment position with
  | nil => cases comment <;> exact Nat.le_refl _
  | cons byte rest ih =>
      have later := fun comment position => Nat.le_succ_of_le (ih comment position)
      cases comment with
      | true => exact later _ _
      | false =>
          rw [dropTrivia]
          split
          · exact later _ _
          · split
            · exact later _ _
            · exact Nat.le_refl _

/-- Behind a line feed trivia goes on from the start, also where the bytes before end in a comment. -/
theorem drop_trivia_append (comment : Bool) (position : Position) (bytes more : List UInt8) :
    (dropTrivia comment position (bytes ++ 0x0a :: more)).2 =
      match (dropTrivia comment position bytes).2 with
      | [] => behindTrivia more
      | left => left ++ 0x0a :: more := by
  induction bytes generalizing comment position with
  | nil =>
      have started : (dropTrivia comment position (0x0a :: more)).2 = behindTrivia more := by
        have later := drop_trivia_snd (position.after 0x0a) more
        cases comment <;> exact later
      cases comment <;> exact started
  | cons byte rest ih =>
      cases comment with
      | true => exact ih _ _
      | false =>
          have slash : (rest ++ 0x0a :: more).head? = some 0x2f ↔ rest.head? = some 0x2f := by
            cases rest with
            | nil => simp
            | cons next others => rfl
          rw [List.cons_append, dropTrivia, dropTrivia]
          simp only [slash]
          split
          · exact ih _ _
          · split
            · exact ih _ _
            · rfl

theorem behind_trivia_append (bytes more : List UInt8) :
    behindTrivia (bytes ++ 0x0a :: more) =
      match behindTrivia bytes with
      | [] => behindTrivia more
      | left => left ++ 0x0a :: more :=
  drop_trivia_append _ _ _ _

theorem behind_trivia_solid {byte : UInt8} (solid : isBlankByte byte = false)
    (noSlash : byte ≠ 0x2f) (rest : List UInt8) : behindTrivia (byte :: rest) = byte :: rest := by
  have noComment : ¬(byte = 0x2f ∧ rest.head? = some 0x2f) := fun comment => noSlash comment.1
  rw [behindTrivia, dropTrivia, solid, if_neg Bool.false_ne_true, if_neg noComment]

theorem behind_trivia_blank (byte : UInt8) (blank : isBlankByte byte = true) (rest : List UInt8) :
    behindTrivia (byte :: rest) = behindTrivia rest := by
  rw [behindTrivia, dropTrivia, if_pos blank]
  exact drop_trivia_snd _ _

theorem behind_trivia_comment {text : List UInt8} (oneLine : 0x0a ∉ text) (more : List UInt8) :
    behindTrivia (0x2f :: 0x2f :: text ++ 0x0a :: more) = behindTrivia more := by
  have inside : ∀ (position : Position) (text : List UInt8), 0x0a ∉ text →
      (dropTrivia true position text).2 = [] := by
    intro position text
    induction text generalizing position with
    | nil => exact fun _ => rfl
    | cons byte rest ih =>
        intro oneLine
        rcases List.ne_and_not_mem_of_not_mem_cons oneLine with ⟨head, tail⟩
        rw [dropTrivia, decide_eq_true (Ne.symm head)]
        exact ih _ tail
  have whole : behindTrivia (0x2f :: 0x2f :: text) = [] := by
    apply inside _ (0x2f :: text)
    exact List.not_mem_cons_of_ne_of_not_mem (by decide) oneLine
  rw [behind_trivia_append, whole]

/-! ### Lexemes -/

theorem toNat_lt_of_isWordByte {byte : UInt8} (word : isWordByte byte = true) :
    byte.toNat < 128 := by
  simp only [isWordByte, isWordStart, Bool.or_eq_true, Bool.and_eq_true, decide_eq_true_eq,
    UInt8.le_iff_toNat_le, ← UInt8.toNat_inj] at word
  simp at word
  omega

theorem ascii_text_size {bytes : List UInt8} (ascii : ∀ byte ∈ bytes, byte.toNat < 128) :
    (asciiText bytes).utf8ByteSize = bytes.length := by
  rw [← text_bytes_length, ascii_text_bytes bytes ascii]

theorem text_of_word (word : String) : (TokenKind.ofWord word).text = word := by
  unfold TokenKind.ofWord Keyword.ofText?
  cases found : Keyword.all.find? (·.text = word) with
  | none => rfl
  | some keyword =>
      change keyword.text = word
      simpa using List.find?_some found

/-- Everything that the scanner does: it takes a word, or a mark that stands in front, or one byte that
starts neither. -/
theorem scan_cases (byte : UInt8) (rest : List UInt8) :
    (isWordStart byte = true ∧ Lexeme.scan byte rest =
        .token (.ofWord (asciiText (byte :: rest.takeWhile isWordByte)))) ∨
      (∃ mark : Mark, textBytes mark.text <+: byte :: rest ∧
        Lexeme.scan byte rest = .token (.mark mark)) ∨
      Lexeme.scan byte rest = .unexpected byte := by
  unfold Lexeme.scan
  split
  · next start => exact .inl ⟨start, rfl⟩
  · right
    split
    · next colon =>
        subst colon
        split
        · next second =>
            obtain ⟨others, rfl⟩ := List.head?_eq_some_iff.mp second
            exact .inl ⟨.doubleColon, List.prefix_append [0x3a, 0x3a] others, rfl⟩
        · exact .inl ⟨.colon, List.prefix_append [0x3a] rest, rfl⟩
    · split
      · next arrow =>
          obtain ⟨rfl, second⟩ := arrow
          obtain ⟨others, rfl⟩ := List.head?_eq_some_iff.mp second
          exact .inl ⟨.arrow, List.prefix_append [0x2d, 0x3e] others, rfl⟩
      · split
        · next mark found =>
            have single : ∀ entry ∈ singleMarks, textBytes entry.2.text = [entry.1] := by decide
            obtain ⟨before, behind, split, _⟩ := List.lookup_eq_some_iff.mp found
            have own : textBytes mark.text = [byte] := single (byte, mark) (by rw [split]; simp)
            exact .inl ⟨mark, own ▸ List.prefix_append [byte] rest, rfl⟩
        · exact .inr rfl

/-- A lexeme takes a byte at least, no more than there are, and is not the end of the input. -/
theorem scan_token {byte : UInt8} {rest : List UInt8} {kind : TokenKind}
    (scanned : Lexeme.scan byte rest = .token kind) :
    1 ≤ kind.text.utf8ByteSize ∧ kind.text.utf8ByteSize ≤ rest.length + 1 ∧
      kind ≠ .endOfFile := by
  rcases scan_cases byte rest with ⟨start, same⟩ | ⟨mark, front, same⟩ | same
  · rw [same] at scanned
    cases scanned
    have word : ∀ other ∈ byte :: rest.takeWhile isWordByte, other.toNat < 128 := by
      rw [List.forall_mem_cons]
      refine ⟨toNat_lt_of_isWordByte (by simp [isWordByte, start]), fun other member => ?_⟩
      exact toNat_lt_of_isWordByte (List.all_eq_true.mp List.all_takeWhile other member)
    rw [text_of_word, ascii_text_size word, List.length_cons]
    refine ⟨by omega, Nat.succ_le_succ (List.takeWhile_sublist _).length_le, ?_⟩
    unfold TokenKind.ofWord
    split <;> simp
  · rw [same] at scanned
    cases scanned
    have some : 1 ≤ mark.text.utf8ByteSize := by cases mark <;> decide
    have fits := front.length_le
    rw [text_bytes_length, List.length_cons] at fits
    exact ⟨some, fits, nofun⟩
  · rw [same] at scanned
    cases scanned

theorem take_word_line_feed (rest more : List UInt8) :
    (rest ++ 0x0a :: more).takeWhile isWordByte = rest.takeWhile isWordByte := by
  have stops : (0x0a :: more).takeWhile isWordByte = [] :=
    List.takeWhile_cons_of_neg (by decide)
  rw [List.takeWhile_append, stops, List.append_nil]
  split
  · next whole =>
      exact ((List.takeWhile_prefix isWordByte).eq_of_length whole).symm
  · rfl

theorem scan_line_feed (byte : UInt8) (rest more : List UInt8) :
    Lexeme.scan byte (rest ++ 0x0a :: more) = Lexeme.scan byte rest := by
  have head : ∀ other : UInt8, other ≠ 0x0a →
      ((rest ++ 0x0a :: more).head? = some other ↔ rest.head? = some other) := by
    intro other isOther
    cases rest with
    | nil => simpa using Ne.symm isOther
    | cons next others => rfl
  unfold Lexeme.scan
  simp only [take_word_line_feed, head 0x3a (by decide), head 0x3e (by decide)]

/-! ### Texts one after another -/

namespace Lexes

/-- Only what stands behind blanks and comments counts. -/
theorem of_behind {first second : List UInt8} {kinds : List TokenKind}
    (same : behindTrivia first = behindTrivia second) (lexes : Lexes second kinds) :
    Lexes first kinds := by
  cases lexes with
  | done ended => exact .done (same.trans ended)
  | token next scanned later => exact .token (same.trans next) scanned later

/-- Two texts with a line feed between them are lexed one after the other. -/
theorem append {first second : List UInt8} {kinds more : List TokenKind}
    (here : Lexes first kinds) (later : Lexes second more) :
    Lexes (first ++ 0x0a :: second) (kinds ++ more) := by
  induction here with
  | @done bytes ended =>
      have left : behindTrivia (bytes ++ 0x0a :: second) = behindTrivia second := by
        rw [behind_trivia_append, ended]
      exact .of_behind left later
  | @token bytes rest byte kind kinds next scanned others ih =>
      have left : behindTrivia (bytes ++ 0x0a :: second) = byte :: (rest ++ 0x0a :: second) := by
        rw [behind_trivia_append, next]
        rfl
      have width : kind.text.utf8ByteSize ≤ (byte :: rest).length := (scan_token scanned).2.1
      rw [← List.drop_append_of_le_length width] at ih
      exact .token left (by rw [scan_line_feed]; exact scanned) ih

theorem real {bytes : List UInt8} {kinds : List TokenKind} (lexes : Lexes bytes kinds) :
    ∀ kind ∈ kinds, kind ≠ .endOfFile := by
  induction lexes with
  | done => simp
  | token _ scanned _ ih => exact List.forall_mem_cons.mpr ⟨(scan_token scanned).2.2, ih⟩

end Lexes

/-! ### The lexer -/

namespace SourceFile

/-- Lexing takes no error back, and without errors the bytes are lexed as the tokens say. -/
theorem lex_from_sound (file : SourceFile) (fuel : Nat) (position : Position)
    (bytes : List UInt8) (log : ReportLog) :
    let lexed := file.lexFrom fuel position bytes log
    log.totalErrors ≤ lexed.log.totalErrors ∧
      (bytes.length < fuel → lexed.log.totalErrors = log.totalErrors →
        lexed.log = log ∧
          ∃ kinds, Lexes bytes kinds ∧ lexed.tokens.map (·.kind) = kinds ++ [.endOfFile]) := by
  induction fuel generalizing position bytes log with
  | zero => exact ⟨Nat.le_refl _, fun short => absurd short (Nat.not_lt_zero _)⟩
  | succ fuel ih =>
      have trivia := drop_trivia_snd position bytes
      have fewer := drop_trivia_length_le false position bytes
      rw [lexFrom]
      split
      · next position' ended =>
          rw [ended] at trivia
          exact ⟨Nat.le_refl _, fun _ _ => ⟨rfl, [], .done trivia.symm, rfl⟩⟩
      · next position' byte rest next =>
          rw [next] at trivia fewer
          dsimp only
          split
          · next kind scanned =>
              obtain ⟨steady, clean⟩ := ih _ ((byte :: rest).drop (Lexeme.scan byte rest).width) log
              refine ⟨steady, fun short same => ?_⟩
              have least := (scan_token scanned).1
              rw [scanned] at clean same ⊢
              change 1 ≤ (Lexeme.token kind).width at least
              obtain ⟨sameLog, kinds, lexes, tokens⟩ := clean (by
                simp only [List.length_drop, List.length_cons] at fewer ⊢
                omega) same
              refine ⟨sameLog, kind :: kinds, .token trivia.symm scanned lexes, ?_⟩
              rw [List.map_cons, tokens]
              rfl
          · next other scanned =>
              have counted : ∀ report, (log.addError report).totalErrors = log.totalErrors + 1 :=
                fun _ => rfl
              split
              · rw [counted]
                exact ⟨Nat.le_succ _, fun _ same => by omega⟩
              · refine ⟨Nat.le_of_succ_le (ih _ _ (log.addError _)).1, fun _ same => ?_⟩
                exact absurd same (Nat.ne_of_gt (ih _ _ (log.addError _)).1)

theorem lex_from_complete (file : SourceFile) {bytes : List UInt8} {kinds : List TokenKind}
    (lexes : Lexes bytes kinds) (fuel : Nat) (position : Position) (log : ReportLog)
    (short : bytes.length < fuel) :
    (file.lexFrom fuel position bytes log).log = log ∧
      (file.lexFrom fuel position bytes log).tokens.map (·.kind) = kinds ++ [.endOfFile] := by
  induction lexes generalizing fuel position with
  | @done bytes ended =>
      obtain ⟨fuel, rfl⟩ := Nat.exists_eq_succ_of_ne_zero (Nat.ne_zero_of_lt short)
      rw [← drop_trivia_snd position] at ended
      rw [lexFrom]
      split
      · exact ⟨rfl, rfl⟩
      · next next =>
          rw [next] at ended
          cases ended
  | @token bytes rest byte kind kinds left scanned _ ih =>
      obtain ⟨fuel, rfl⟩ := Nat.exists_eq_succ_of_ne_zero (Nat.ne_zero_of_lt short)
      have fewer := drop_trivia_length_le false position bytes
      rw [← drop_trivia_snd position] at left
      rw [lexFrom]
      split
      · next ended =>
          rw [ended] at left
          cases left
      · next next =>
          rw [next] at left fewer
          cases left
          have least := (scan_token scanned).1
          have enough : ((byte :: rest).drop kind.text.utf8ByteSize).length < fuel := by
            simp only [List.length_drop, List.length_cons] at fewer ⊢
            omega
          simp only [scanned, List.map_cons]
          obtain ⟨sameLog, tokens⟩ := ih fuel _ enough
          exact ⟨sameLog, congrArg (kind :: ·) tokens⟩

theorem lex_sound {file : SourceFile} (clean : file.lex.log.totalErrors = 0) :
    file.lex.log = .empty ∧ ∃ kinds, Lexes file.bytes kinds ∧
      file.lex.tokens.map (·.kind) = kinds ++ [.endOfFile] :=
  (file.lex_from_sound _ _ _ .empty).2 (Nat.lt_succ_self _) clean

theorem lex_complete {file : SourceFile} {kinds : List TokenKind}
    (lexes : Lexes file.bytes kinds) :
    file.lex.log = .empty ∧ file.lex.tokens.map (·.kind) = kinds ++ [.endOfFile] :=
  file.lex_from_complete lexes _ _ .empty (Nat.lt_succ_self _)

end SourceFile

end Composer
