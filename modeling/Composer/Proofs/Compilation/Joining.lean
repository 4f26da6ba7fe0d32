import Composer.Proofs.Compilation.Stages
import Composer.Proofs.Declaration.Exactness
import Composer.Proofs.Token.Lexing

/-!
Texts with a line feed between them. Where each of them is read without errors, the whole is read
without errors, as the items of one text behind those of the other.
-/

namespace Composer

theorem Sequence.append {Node : Type} {written : Node → List TokenKind → Prop}
    {nodes others : List Node} {kinds more : List TokenKind}
    (first : Sequence written nodes kinds) (second : Sequence written others more) :
    Sequence written (nodes ++ others) (kinds ++ more) := by
  induction first with
  | nil => exact second
  | cons own _ ih =>
      rw [List.cons_append, List.append_assoc]
      exact .cons own ih

namespace SourceFile

def Declares (file : SourceFile) (items : List Item) : Prop :=
  ∃ kinds, Lexes file.bytes kinds ∧ ItemsWritten items kinds

theorem kinds_of_lexed (file : SourceFile) {bytes : List UInt8} {kinds : List TokenKind}
    {tokens : List Token} (lexes : Lexes bytes kinds)
    (lexed : tokens.map (·.kind) = kinds ++ [.endOfFile]) :
    (Cursor.ofTokens file tokens).kinds = kinds := by
  rw [Cursor.kinds_of_tokens, lexed, List.takeWhile_append_of_pos, List.takeWhile_cons_of_neg,
    List.append_nil]
  · simp
  · intro kind member
    simpa using lexes.real kind member

theorem declares_of_parse_clean {file : SourceFile} (clean : file.parse.log.totalErrors = 0) :
    file.parse.log = .empty ∧ file.Declares file.parse.tree.items := by
  obtain ⟨lexClean, parseClean, _⟩ := (ReportLog.merge_total_eq_zero_iff _ _).mp clean
  obtain ⟨lexLog, kinds, lexes, tokens⟩ := lex_sound lexClean
  obtain ⟨parseLog, written⟩ := file.parse_tokens_sound file.lex.tokens parseClean
  rw [file.kinds_of_lexed lexes tokens] at written
  refine ⟨?_, kinds, lexes, written⟩
  change file.lex.log.merge (file.parseTokens file.lex.tokens).log = .empty
  rw [lexLog, parseLog]
  rfl

theorem parse_of_declares {file : SourceFile} {items : List Item} (declares : file.Declares items) :
    file.parse.log = .empty ∧ file.parse.tree.items.map Item.bare = items.map Item.bare := by
  obtain ⟨kinds, lexes, written⟩ := declares
  obtain ⟨lexLog, tokens⟩ := lex_complete lexes
  rw [← file.kinds_of_lexed lexes tokens] at written
  obtain ⟨parseLog, same⟩ := file.parse_tokens_complete written
  refine ⟨?_, same⟩
  change file.lex.log.merge (file.parseTokens file.lex.tokens).log = .empty
  rw [lexLog, parseLog]
  rfl

theorem bytes_append (name first second : String) :
    bytes ⟨name, first ++ "\n" ++ second⟩ =
      bytes ⟨name, first⟩ ++ 0x0a :: bytes ⟨name, second⟩ := by
  have lineFeed : "\n".toUTF8.data.toList = [0x0a] := by decide
  simp only [bytes, String.toUTF8_eq_toByteArray, String.toByteArray_append,
    ByteArray.toList_data_append] at lineFeed ⊢
  rw [lineFeed, List.append_assoc]
  rfl

def joined (name : String) (files : List SourceFile) : SourceFile :=
  ⟨name, String.intercalate "\n" (files.map (·.text))⟩

theorem joined_declares (name : String) {files : List SourceFile}
    {itemsOf : SourceFile → List Item} (declares : ∀ file ∈ files, file.Declares (itemsOf file)) :
    (joined name files).Declares (files.flatMap itemsOf) := by
  induction files with
  | nil => exact ⟨[], .done rfl, .nil⟩
  | cons first rest ih =>
      rw [List.forall_mem_cons] at declares
      obtain ⟨⟨kinds, lexes, written⟩, later⟩ := declares
      cases rest with
      | nil =>
          rw [List.flatMap_cons, List.flatMap_nil, List.append_nil, joined, List.map_cons,
            List.map_nil, String.intercalate_singleton]
          exact ⟨kinds, lexes, written⟩
      | cons second others =>
          obtain ⟨more, lexesLater, writtenLater⟩ := ih later
          rw [joined, List.map_cons, List.map_cons, String.intercalate_cons_cons]
          refine ⟨kinds ++ more, ?_, written.append writtenLater⟩
          rw [bytes_append]
          exact lexes.append lexesLater

end SourceFile

end Composer
