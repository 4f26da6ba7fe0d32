import Composer.Proofs.Source.Lines

/-!
The slices of a text that its lines are read from. Two offsets in bytes cut a slice out of a text if
they are places in it between whole characters, the first not behind the second. The bounds that the
line table gives do so for every text, and the slices are the pieces of the text between line feeds;
a line is such a piece without the carriage returns at its end.
-/

namespace Composer

/-- The offsets in bytes cut the piece out of the text: both are positions in the text between two
characters or at an end, and the first does not come behind the second. -/
def CutsOut (text : String) (bounds : Nat × Nat) (piece : String) : Prop :=
  ∃ first last : text.Pos, first.offset.byteIdx = bounds.1 ∧ last.offset.byteIdx = bounds.2 ∧
    first ≤ last ∧ text.extract first last = piece

/-- What stands between two texts is cut out at their sizes. -/
theorem cuts_out_middle {text before piece behind : String}
    (whole : text = before ++ piece ++ behind) :
    CutsOut text (before.utf8ByteSize, before.utf8ByteSize + piece.utf8ByteSize) piece := by
  subst whole
  have starts : before.rawEndPos.IsValid (before ++ piece ++ behind) :=
    String.Pos.Raw.isValid_iff_exists_append.mpr
      ⟨before, piece ++ behind, String.append_assoc, rfl⟩
  have stops : (before ++ piece).rawEndPos.IsValid (before ++ piece ++ behind) :=
    String.Pos.Raw.isValid_iff_exists_append.mpr ⟨before ++ piece, behind, rfl, rfl⟩
  have ordered : before.utf8ByteSize ≤ (before ++ piece).utf8ByteSize := by
    rw [String.utf8ByteSize_append]
    exact Nat.le_add_right _ _
  have cut : (before ++ piece ++ behind).toByteArray.extract before.utf8ByteSize
      (before ++ piece).utf8ByteSize = piece.toByteArray := by
    rw [String.toByteArray_append, ← String.size_toByteArray, ← String.size_toByteArray,
      ByteArray.extract_append_size_left, String.toByteArray_append,
      ByteArray.extract_append_eq_right rfl ByteArray.size_append]
  exact ⟨⟨_, starts⟩, ⟨_, stops⟩, rfl, String.utf8ByteSize_append, ordered,
    String.toByteArray_inj.mp cut⟩

/-! ### Pieces of a text -/

theorem before_piece_text (chars : List Char) (index : Nat) :
    beforePiece 0x0a (textBytes (String.ofList chars)) index =
      textBytes (String.ofList (beforePiece '\n' chars index)) := by
  rw [beforePiece, beforePiece, split_on_text, text_bytes_of_list, ← List.map_take,
    List.flatMap_map, List.flatMap_assoc]
  congr 1
  funext line
  rw [text_bytes_of_list, List.flatMap_append, List.flatMap_singleton]
  rfl

namespace SourceFile

theorem line_count_eq (file : SourceFile) : file.lineCount = file.bytes.count 0x0a + 1 := by
  rw [lineCount, lineStarts, List.length_cons, offsets_length]

theorem line_count_pieces (file : SourceFile) :
    file.lineCount = (file.text.toList.splitOn '\n').length := by
  rw [lineCount, line_starts_length, bytes_of_chars, split_on_text, List.length_map]

/-- The text has lines with the numbers from one to their count and no others. -/
theorem line_none_iff (file : SourceFile) (number : Nat) :
    file.line? number = none ↔ number = 0 ∨ file.lineCount < number := by
  cases number with
  | zero => exact iff_of_true rfl (.inl rfl)
  | succ index =>
      rw [line_text, Option.map_eq_none_iff, List.getElem?_eq_none_iff, line_count_pieces]
      omega

/-- The bounds of a line cut a piece between line feeds out of the text. -/
theorem line_bounds_cut_out (file : SourceFile) (index : Nat) :
    Option.Rel (CutsOut file.text) (lineBounds? file.bytes index)
      ((file.text.toList.splitOn '\n')[index]?.map String.ofList) := by
  rw [line_bounds_eq, bytes_of_chars, split_on_text, List.getElem?_map, Option.map_map]
  cases found : (file.text.toList.splitOn '\n')[index]? with
  | none => exact .none
  | some piece =>
      have whole : file.text = String.ofList (beforePiece '\n' file.text.toList index) ++
          String.ofList piece ++ String.ofList (behindPiece '\n' file.text.toList index) := by
        rw [← String.ofList_append, ← String.ofList_append, List.append_assoc,
          ← split_around_piece found, String.ofList_toList]
      simp only [Option.map_some, Function.comp_apply, before_piece_text, text_bytes_length]
      exact .some (cuts_out_middle whole)

/-- Only the first line starts at the start of the text, so that a line feed stands in front of every
other one and the bound of the line before it is not below zero. -/
theorem later_lines_start_later (file : SourceFile) : 0 ∉ (lineStarts file.bytes).tail :=
  fun listed => absurd (offsets_behind listed) (Nat.lt_irrefl 0)

/-- The line table splits a text at its line feeds. A line is a piece of the text between line feeds
without the carriage returns at its end, and there are lines with the numbers from one to one more
than the count of line feeds. The slices that the lines are read from are the whole pieces, each of
them cut out between two positions of the text; no line but the first starts at zero, so that the
byte in front of it is one of the text. -/
theorem line_table_splits (file : SourceFile) :
    (∀ index, file.line? (index + 1) = (file.text.toList.splitOn '\n')[index]?.map fun piece =>
        String.ofList (piece.rdropWhile (· = '\r'))) ∧
      (∀ number, file.line? number = none ↔ number = 0 ∨ file.lineCount < number) ∧
      file.lineCount = file.bytes.count 0x0a + 1 ∧
      0 ∉ (lineStarts file.bytes).tail ∧
      ∀ index,
        lineBytes? file.bytes index = (lineBounds? file.bytes index).map (fun bounds =>
          trimCarriageReturns ((file.bytes.drop bounds.1).take (bounds.2 - bounds.1))) ∧
        Option.Rel (CutsOut file.text) (lineBounds? file.bytes index)
          ((file.text.toList.splitOn '\n')[index]?.map String.ofList) :=
  ⟨file.line_text, file.line_none_iff, file.line_count_eq, file.later_lines_start_later,
    fun index => ⟨line_bytes_cut _ _, file.line_bounds_cut_out index⟩⟩

/-- Characters of two and three bytes, two carriage returns, an empty line and no line feed at the
end. -/
example :
    let file : SourceFile := ⟨"lines", "é\r\r\n\n€"⟩
    file.lineCount = 3 ∧ file.line? 1 = some "é" ∧ file.line? 2 = some "" ∧
      file.line? 3 = some "€" ∧ file.line? 4 = none ∧
      (List.range 4).map (lineBounds? file.bytes) = [some (0, 4), some (5, 5), some (6, 9), none] := by
  decide +kernel

end SourceFile

end Composer
