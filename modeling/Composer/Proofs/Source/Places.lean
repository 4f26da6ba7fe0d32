import Composer.Proofs.Source.Lines

/-!
Places in a file. A position stands in a file if its line is one of the file's and its column counts
a byte of that line, carriage returns included, or the place behind its last byte. The position of
every byte does, and so does the smaller one of two that do. The line of such a position is the text
that the line table gives, so a report on it never shows the empty line in its place.
-/

namespace Composer

/-- A line of a file as it stands there: its bytes up to the line feed or the end of the file. -/
def SourceFile.wholeLine? (file : SourceFile) : Nat → Option (List UInt8)
  | 0 => none
  | index + 1 => (file.bytes.splitOn 0x0a)[index]?

/-- The position is one of a byte of the file, or right behind a line of it. -/
def Position.StandsIn (position : Position) (file : SourceFile) : Prop :=
  ∃ line, file.wholeLine? position.line = some line ∧
    1 ≤ position.column ∧ position.column ≤ line.length + 1

def Span.StartsIn (span : Span) (file : SourceFile) : Prop := span.start.StandsIn file

theorem SourceFile.whole_line_count (file : SourceFile) {number : Nat} {line : List UInt8}
    (found : file.wholeLine? number = some line) : 1 ≤ number ∧ number ≤ file.lineCount := by
  cases number with
  | zero => cases found
  | succ index =>
      obtain ⟨inside, _⟩ := List.getElem?_eq_some_iff.mp found
      rw [lineCount, line_starts_length]
      exact ⟨Nat.succ_pos _, inside⟩

namespace Position

variable {file : SourceFile}

theorem position_at_stands (offset : Nat) : (positionAt file.bytes offset).StandsIn file := by
  obtain ⟨index, left, right, position, found⟩ :=
    place_in_piece (file.bytes.take offset) List.not_mem_nil (file.bytes.drop offset)
  rw [List.nil_append, List.take_append_drop] at found
  rw [List.nil_append] at found
  refine ⟨left ++ right, ?_, ?_⟩
  · rw [positionAt, position]
    exact found
  · rw [positionAt, position, List.length_append]
    simp only
    omega

theorem first_stands : (⟨1, 1⟩ : Position).StandsIn file := position_at_stands 0

theorem StandsIn.min {first second : Position} (former : first.StandsIn file)
    (latter : second.StandsIn file) : (Min.min first second).StandsIn file := by
  change (if first ≤ second then first else second).StandsIn file
  split
  · exact former
  · exact latter

end Position

namespace Span

variable {file : SourceFile}

theorem first_starts : (point 1 1).StartsIn file := Position.first_stands

theorem StartsIn.cover {first second : Span} (former : first.StartsIn file)
    (latter : second.StartsIn file) : (first.cover second).StartsIn file :=
  former.min latter

/-- The line that a report on the span shows is one of the file. -/
theorem StartsIn.source_line {span : Span} (starts : span.StartsIn file) :
    file.line? span.start.line = some (file.sourceLine span) := by
  obtain ⟨line, found, _⟩ := starts
  rw [SourceFile.sourceLine]
  cases number : span.start.line with
  | zero =>
      rw [number] at found
      cases found
  | succ index =>
      rw [number] at found
      obtain ⟨text, shown, _⟩ := file.line_of_piece found
      rw [shown, Option.getD_some]

end Span

/-- A report points into a file: it names the file, the line on which its span starts is a line of
the file and the one that it shows, and the column is in that line or right behind it. -/
structure Report.PointsInto (report : Report) (file : SourceFile) : Prop where
  named : report.file = file.name
  line : 1 ≤ report.span.start.line ∧ report.span.start.line ≤ file.lineCount
  column : report.span.StartsIn file
  shown : file.line? report.span.start.line = some report.sourceLine

theorem Report.points_into {report : Report} {file : SourceFile} (named : report.file = file.name)
    (starts : report.span.StartsIn file) (shown : report.sourceLine = file.sourceLine report.span) :
    report.PointsInto file := by
  obtain ⟨line, found, bounds⟩ := starts
  exact ⟨named, file.whole_line_count found, ⟨line, found, bounds⟩,
    shown ▸ Span.StartsIn.source_line ⟨line, found, bounds⟩⟩

end Composer
