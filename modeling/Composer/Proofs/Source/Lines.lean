import Composer.Proofs.Source.Bytes
import Mathlib.Data.List.DropRight

/-!
The lines of a text and the places in them. The line table lists how many bytes stand before each
piece of a text between line feeds, so it cuts where splitting at line feeds does and a line always
decodes. A position is the number of the piece that a byte stands in and the number of the byte in
it, and positions are in the order of the bytes.
-/

namespace Composer

/-- Bytes are a last line, or a line and more bytes behind its line feed. -/
@[elab_as_elim]
theorem line_induction {motive : List UInt8 → Prop}
    (last : ∀ line, 0x0a ∉ line → motive line)
    (next : ∀ line rest, 0x0a ∉ line → motive rest → motive (line ++ 0x0a :: rest))
    (bytes : List UInt8) : motive bytes := by
  by_cases more : 0x0a ∈ bytes
  · rcases List.eq_append_cons_of_mem more with ⟨line, rest, whole, absent⟩
    have shorter : rest.length < bytes.length := by
      rw [whole, List.length_append, List.length_cons]
      omega
    rw [whole]
    exact next line rest absent (line_induction last next rest)
  · exact last bytes more
termination_by bytes.length

/-! ### Pieces -/

section Pieces

variable {Element : Type} [BEq Element]

/-- What stands before a piece of a list: the earlier pieces, each with the separator behind it. -/
def beforePiece (separator : Element) (list : List Element) (index : Nat) : List Element :=
  ((list.splitOn separator).take index).flatMap (· ++ [separator])

/-- What stands behind a piece of a list: the later pieces, each with the separator before it. -/
def behindPiece (separator : Element) (list : List Element) (index : Nat) : List Element :=
  ((list.splitOn separator).drop (index + 1)).flatMap (separator :: ·)

omit [BEq Element] in
theorem intercalate_first (separator : Element) (piece : List Element)
    (later : List (List Element)) :
    [separator].intercalate (piece :: later) = piece ++ later.flatMap (separator :: ·) := by
  induction later generalizing piece with
  | nil => rw [List.intercalate_singleton, List.flatMap_nil, List.append_nil]
  | cons next later ih =>
      rw [List.intercalate_cons_cons, ih next, List.flatMap_cons, List.append_assoc,
        List.singleton_append, List.cons_append]

omit [BEq Element] in
theorem intercalate_around (separator : Element) (earlier : List (List Element))
    (piece : List Element) (later : List (List Element)) :
    [separator].intercalate (earlier ++ piece :: later) =
      earlier.flatMap (· ++ [separator]) ++ (piece ++ later.flatMap (separator :: ·)) := by
  induction earlier with
  | nil => exact intercalate_first separator piece later
  | cons first earlier ih =>
      have more : earlier ++ piece :: later ≠ [] :=
        List.append_ne_nil_of_right_ne_nil _ (List.cons_ne_nil _ _)
      rw [List.cons_append, List.intercalate_cons_of_ne_nil more, ih, List.flatMap_cons,
        List.append_assoc, List.append_assoc, List.append_assoc]

variable {separator : Element} {list piece : List Element} {index : Nat}

/-- The piece and its separator stand before the next piece. -/
theorem before_next_piece (found : (list.splitOn separator)[index]? = some piece) :
    beforePiece separator list (index + 1) =
      beforePiece separator list index ++ (piece ++ [separator]) := by
  rw [beforePiece, beforePiece, List.take_add_one, found, List.flatMap_append, Option.toList_some,
    List.flatMap_singleton]

/-- Nothing stands behind the last piece. -/
theorem behind_last_piece (last : (list.splitOn separator)[index + 1]? = none) :
    behindPiece separator list index = [] := by
  rw [behindPiece, List.drop_eq_nil_of_le (List.getElem?_eq_none_iff.mp last), List.flatMap_nil]

variable [LawfulBEq Element]

/-- A piece stands in its list between what is before it and what is behind it. -/
theorem split_around_piece (found : (list.splitOn separator)[index]? = some piece) :
    list = beforePiece separator list index ++ (piece ++ behindPiece separator list index) := by
  obtain ⟨inside, rfl⟩ := List.getElem?_eq_some_iff.mp found
  rw [beforePiece, behindPiece, ← intercalate_around, ← List.drop_eq_getElem_cons inside,
    List.take_append_drop, List.intercalate_splitOn]

end Pieces

/-! ### The line table -/

theorem offsets_shift (offset : Nat) (bytes : List UInt8) :
    offsetsAfterLineFeeds offset bytes = (offsetsAfterLineFeeds 0 bytes).map (· + offset) := by
  induction bytes generalizing offset with
  | nil => rfl
  | cons byte rest ih =>
      have moved : (offsetsAfterLineFeeds 1 rest).map (· + offset) =
          offsetsAfterLineFeeds (offset + 1) rest := by
        rw [ih 1, ih (offset + 1), List.map_map]
        apply List.map_congr_left
        intro start _
        simp only [Function.comp_apply]
        omega
      rw [offsetsAfterLineFeeds, offsetsAfterLineFeeds, Nat.zero_add, ← moved]
      split
      · rw [List.map_cons, Nat.add_comm offset 1]
      · rfl

theorem offsets_within_line (offset : Nat) {line : List UInt8} (absent : 0x0a ∉ line)
    (rest : List UInt8) :
    offsetsAfterLineFeeds offset (line ++ rest) =
      offsetsAfterLineFeeds (offset + line.length) rest := by
  induction line generalizing offset with
  | nil => rfl
  | cons byte line ih =>
      rcases List.ne_and_not_mem_of_not_mem_cons absent with ⟨head, tail⟩
      rw [List.cons_append, offsetsAfterLineFeeds, if_neg (Ne.symm head), ih (offset + 1) tail,
        List.length_cons, Nat.add_assoc, Nat.add_comm 1]

theorem line_starts_last {line : List UInt8} (absent : 0x0a ∉ line) : lineStarts line = [0] := by
  have none := offsets_within_line 0 absent []
  rw [List.append_nil] at none
  rw [lineStarts, none]
  rfl

theorem line_starts_next {line : List UInt8} (absent : 0x0a ∉ line) (rest : List UInt8) :
    lineStarts (line ++ 0x0a :: rest) = 0 :: (lineStarts rest).map (· + (line.length + 1)) := by
  rw [lineStarts, offsets_within_line 0 absent, offsetsAfterLineFeeds, if_pos rfl, offsets_shift,
    lineStarts, List.map_cons, Nat.zero_add, Nat.zero_add]

theorem line_starts_length (bytes : List UInt8) :
    (lineStarts bytes).length = (bytes.splitOn 0x0a).length := by
  induction bytes using line_induction with
  | last line absent => rw [line_starts_last absent, List.splitOn_eq_singleton absent]; rfl
  | next line rest absent ih =>
      rw [line_starts_next absent, List.splitOn_append_cons_self_of_not_mem absent,
        List.length_cons, List.length_map, List.length_cons, ih]

/-- There is an offset for each line feed. -/
theorem offsets_length (offset : Nat) (bytes : List UInt8) :
    (offsetsAfterLineFeeds offset bytes).length = bytes.count 0x0a := by
  induction bytes generalizing offset with
  | nil => rfl
  | cons byte rest ih =>
      rw [offsetsAfterLineFeeds]
      by_cases lineFeed : byte = 0x0a
      · rw [if_pos lineFeed, List.length_cons, ih, lineFeed, List.count_cons_self]
      · rw [if_neg lineFeed, ih, List.count_cons_of_ne lineFeed]

theorem offsets_behind {offset start : Nat} {bytes : List UInt8}
    (listed : start ∈ offsetsAfterLineFeeds offset bytes) : offset < start := by
  induction bytes generalizing offset with
  | nil => cases listed
  | cons byte rest ih =>
      rw [offsetsAfterLineFeeds] at listed
      split at listed
      · rcases List.mem_cons.mp listed with rfl | later
        · exact Nat.lt_succ_self offset
        · exact Nat.lt_of_succ_lt (ih later)
      · exact Nat.lt_of_succ_lt (ih listed)

/-- The table lists how many bytes stand before each line. -/
theorem line_start_eq (bytes : List UInt8) (index : Nat) :
    (lineStarts bytes)[index]? =
      (bytes.splitOn 0x0a)[index]?.map fun _ => (beforePiece 0x0a bytes index).length := by
  induction bytes using line_induction generalizing index with
  | last line absent =>
      rw [line_starts_last absent, List.splitOn_eq_singleton absent]
      cases index <;> rfl
  | next line rest absent ih =>
      rw [line_starts_next absent, beforePiece, List.splitOn_append_cons_self_of_not_mem absent]
      cases index with
      | zero => rfl
      | succ index =>
          have longer : ((line :: (rest.splitOn 0x0a).take index).flatMap (· ++ [0x0a])).length =
              (beforePiece 0x0a rest index).length + (line.length + 1) := by
            rw [List.flatMap_cons, List.length_append, List.length_append, Nat.add_comm]
            rfl
          rw [List.getElem?_cons_succ, List.getElem?_cons_succ, List.getElem?_map, ih index,
            Option.map_map, List.take_succ_cons, longer]
          rfl

/-- The bounds between which the line with the given index from zero is cut out of the bytes. -/
def lineBounds? (bytes : List UInt8) (index : Nat) : Option (Nat × Nat) := do
  let start ← (lineStarts bytes)[index]?
  let stop := match (lineStarts bytes)[index + 1]? with
    | some next => next - 1
    | none => bytes.length
  return (start, stop)

/-- The bounds of a line are those of a piece between line feeds: the line feed behind a piece makes
up for the one that is subtracted, and nothing stands behind the last piece. -/
theorem line_bounds_eq (bytes : List UInt8) (index : Nat) :
    lineBounds? bytes index = (bytes.splitOn 0x0a)[index]?.map fun piece =>
      ((beforePiece 0x0a bytes index).length,
        (beforePiece 0x0a bytes index).length + piece.length) := by
  rw [lineBounds?, line_start_eq, line_start_eq]
  cases found : (bytes.splitOn 0x0a)[index]? with
  | none => rfl
  | some piece =>
      cases more : (bytes.splitOn 0x0a)[index + 1]? with
      | none =>
          have whole := split_around_piece found
          rw [behind_last_piece more, List.append_nil] at whole
          have size : bytes.length = (beforePiece 0x0a bytes index).length + piece.length := by
            rw [← List.length_append, ← whole]
          simp only [Option.map_some, Option.map_none, Option.bind_eq_bind, Option.bind_some,
            Option.pure_def, size]
      | some next =>
          have size : (beforePiece 0x0a bytes (index + 1)).length =
              (beforePiece 0x0a bytes index).length + piece.length + 1 := by
            rw [before_next_piece found, List.length_append, List.length_append]
            rfl
          simp only [Option.map_some, Option.bind_eq_bind, Option.bind_some, Option.pure_def, size,
            Nat.add_sub_cancel]

namespace SourceFile

theorem line_bytes_cut (bytes : List UInt8) (index : Nat) :
    lineBytes? bytes index = (lineBounds? bytes index).map fun bounds =>
      trimCarriageReturns ((bytes.drop bounds.1).take (bounds.2 - bounds.1)) := by
  rw [lineBytes?, lineBounds?]
  cases (lineStarts bytes)[index]? <;> rfl

/-- The table cuts bytes where splitting them at line feeds does. -/
theorem line_bytes_eq (bytes : List UInt8) (index : Nat) :
    lineBytes? bytes index = (bytes.splitOn 0x0a)[index]?.map trimCarriageReturns := by
  rw [line_bytes_cut, line_bounds_eq, Option.map_map]
  cases found : (bytes.splitOn 0x0a)[index]? with
  | none => rfl
  | some piece =>
      have rest : bytes.drop (beforePiece 0x0a bytes index).length =
          piece ++ behindPiece 0x0a bytes index := calc
        _ = (beforePiece 0x0a bytes index ++ (piece ++ behindPiece 0x0a bytes index)).drop
            (beforePiece 0x0a bytes index).length :=
          congrArg (List.drop _) (split_around_piece found)
        _ = piece ++ behindPiece 0x0a bytes index := List.drop_left
      simp only [Option.map_some, Function.comp_apply, Nat.add_sub_cancel_left, rest,
        List.take_left]

end SourceFile

/-! ### Lines as texts -/

theorem split_on_append {Element : Type} [BEq Element] [LawfulBEq Element] {separator : Element}
    {first : List Element} (absent : separator ∉ first) (more : List Element) :
    (first ++ more).splitOn separator = (more.splitOn separator).modifyHead (first ++ ·) := by
  induction first with
  | nil =>
      change _ = (more.splitOn separator).modifyHead id
      rw [List.modifyHead_id]
      rfl
  | cons element first ih =>
      rcases List.ne_and_not_mem_of_not_mem_cons absent with ⟨head, tail⟩
      have other : ¬(element == separator) = true := by simpa using Ne.symm head
      rw [List.cons_append, List.splitOn_cons_eq_if_modifyHead, if_neg other, ih tail,
        List.modifyHead_modifyHead]
      rfl

/-- No character is split at a line feed: the pieces of the bytes are the bytes of the pieces. -/
theorem split_on_text (chars : List Char) :
    (textBytes (String.ofList chars)).splitOn 0x0a =
      (chars.splitOn '\n').map fun line => textBytes (String.ofList line) := by
  simp only [text_bytes_of_list]
  induction chars with
  | nil => rfl
  | cons char chars ih =>
      rw [List.flatMap_cons, List.splitOn_cons_eq_if_modifyHead]
      by_cases lineFeed : char = '\n'
      · subst lineFeed
        change (0x0a :: chars.flatMap String.utf8EncodeChar).splitOn 0x0a = _
        rw [List.splitOn_cons_eq_if_modifyHead, if_pos (by decide), if_pos (by decide), ih]
        rfl
      · have absent : (0x0a : UInt8) ∉ String.utf8EncodeChar char :=
          ascii_not_mem_encode (by decide) lineFeed
        rw [split_on_append absent, ih, if_neg (by simpa using lineFeed)]
        cases pieces : chars.splitOn '\n' with
        | nil => exact absurd pieces (List.splitOn_ne_nil _ _)
        | cons piece others => rfl

/-- Nor is one at a carriage return. -/
theorem trim_text (chars : List Char) :
    trimCarriageReturns (textBytes (String.ofList chars)) =
      textBytes (String.ofList (chars.rdropWhile (· = '\r'))) := by
  change (textBytes (String.ofList chars)).rdropWhile (· = 0x0d) = _
  simp only [text_bytes_of_list]
  induction chars using List.reverseRecOn with
  | nil => rfl
  | append_singleton chars char ih =>
      rw [List.flatMap_append, List.flatMap_singleton]
      by_cases carriageReturn : char = '\r'
      · subst carriageReturn
        change (chars.flatMap String.utf8EncodeChar ++ [0x0d]).rdropWhile _ = _
        rw [List.rdropWhile_concat_pos _ _ _ (by decide),
          List.rdropWhile_concat_pos _ _ _ (by decide), ih]
      · have absent : (0x0d : UInt8) ∉ String.utf8EncodeChar char :=
          ascii_not_mem_encode (by decide) carriageReturn
        have some : String.utf8EncodeChar char ≠ [] := String.utf8EncodeChar_ne_nil
        rw [List.rdropWhile_concat_neg _ _ _ (by simpa using carriageReturn), List.flatMap_append,
          List.flatMap_singleton]
        apply List.rdropWhile_eq_self_iff.mpr
        intro _ last
        rw [List.getLast_append_of_ne_nil _ some] at last
        exact absent (of_decide_eq_true last ▸ List.getLast_mem some)

/-- Trimming takes nothing of bytes that end with something else, and nothing before them. -/
theorem trim_behind {kept : List UInt8} (some : kept ≠ []) (solid : kept.getLast some ≠ 0x0d)
    (right : List UInt8) :
    trimCarriageReturns (kept ++ right) = kept ++ trimCarriageReturns right := by
  change (kept ++ right).rdropWhile (· = 0x0d) = kept ++ right.rdropWhile (· = 0x0d)
  induction right using List.reverseRecOn with
  | nil =>
      rw [List.rdropWhile_nil, List.append_nil]
      apply List.rdropWhile_eq_self_iff.mpr
      intro _ last
      exact solid (of_decide_eq_true last)
  | append_singleton right byte ih =>
      rw [← List.append_assoc]
      by_cases carriageReturn : byte = 0x0d
      · subst carriageReturn
        rw [List.rdropWhile_concat_pos _ _ _ (by decide),
          List.rdropWhile_concat_pos _ _ _ (by decide), ih]
      · rw [List.rdropWhile_concat_neg _ _ _ (by simpa using carriageReturn),
          List.rdropWhile_concat_neg _ _ _ (by simpa using carriageReturn), List.append_assoc]

namespace SourceFile

theorem bytes_of_chars (file : SourceFile) :
    file.bytes = textBytes (String.ofList file.text.toList) := by
  rw [String.ofList_toList]
  rfl

/-- The lines of a file are the pieces of its text between line feeds, without the carriage returns
at their ends. -/
theorem line_text (file : SourceFile) (index : Nat) :
    file.line? (index + 1) = (file.text.toList.splitOn '\n')[index]?.map fun line =>
      String.ofList (line.rdropWhile (· = '\r')) := by
  rw [line?, line_bytes_eq, bytes_of_chars, split_on_text, List.getElem?_map]
  cases (file.text.toList.splitOn '\n')[index]? with
  | none => rfl
  | some line =>
      simp only [Option.map_some, Option.bind_eq_bind, Option.bind_some, trim_text,
        decode_text_bytes]

/-- In bytes, a line is a piece between line feeds without the carriage returns at its end. -/
theorem line_of_piece (file : SourceFile) {index : Nat} {piece : List UInt8}
    (found : (file.bytes.splitOn 0x0a)[index]? = some piece) :
    ∃ text, file.line? (index + 1) = some text ∧ textBytes text = trimCarriageReturns piece := by
  rw [bytes_of_chars, split_on_text, List.getElem?_map] at found
  rw [line_text]
  cases piece : (file.text.toList.splitOn '\n')[index]? with
  | none =>
      rw [piece] at found
      cases found
  | some line =>
      rw [piece] at found
      cases found
      exact ⟨_, rfl, (trim_text line).symm⟩

end SourceFile

/-! ### Positions -/

def positionAt (bytes : List UInt8) (offset : Nat) : Position :=
  (bytes.take offset).foldl Position.after ⟨1, 1⟩

def Position.Before (first second : Position) : Prop :=
  first.line < second.line ∨ first.line = second.line ∧ first.column < second.column

theorem position_at_succ {bytes : List UInt8} {offset : Nat} {byte : UInt8}
    (here : bytes[offset]? = some byte) :
    positionAt bytes (offset + 1) = (positionAt bytes offset).after byte := by
  rw [positionAt, List.take_add_one, here, List.foldl_append]
  rfl

namespace Position

theorem before_after (position : Position) (byte : UInt8) :
    position.Before (position.after byte) := by
  rw [after]
  split
  · exact .inl (Nat.lt_succ_self _)
  · exact .inr ⟨rfl, Nat.lt_succ_self _⟩

theorem Before.trans {first second third : Position} (former : first.Before second)
    (latter : second.Before third) : first.Before third := by
  simp only [Before] at former latter ⊢
  omega

theorem not_le_of_before {first second : Position} (before : first.Before second) :
    ¬second ≤ first := by
  change ¬(second.line < first.line ∨ second.line = first.line ∧ second.column ≤ first.column)
  simp only [Before] at before
  omega

theorem le_of_before {first second : Position} (before : first.Before second) :
    first ≤ second := by
  change first.line < second.line ∨ first.line = second.line ∧ first.column ≤ second.column
  simp only [Before] at before
  omega

theorem le_refl (position : Position) : position ≤ position := .inr ⟨rfl, Nat.le_refl _⟩

/-- Bytes without a line feed stand on one line. -/
theorem foldl_after_within (position : Position) {line : List UInt8} (absent : 0x0a ∉ line) :
    line.foldl after position = ⟨position.line, position.column + line.length⟩ := by
  induction line generalizing position with
  | nil => rfl
  | cons byte line ih =>
      rcases List.ne_and_not_mem_of_not_mem_cons absent with ⟨head, tail⟩
      rw [List.foldl_cons, ih _ tail, after, if_neg (Ne.symm head), List.length_cons]
      simp only [Position.mk.injEq, true_and]
      omega

theorem foldl_after_shift (position : Position) (lines : Nat) (bytes : List UInt8) :
    bytes.foldl after ⟨position.line + lines, position.column⟩ =
      ⟨(bytes.foldl after position).line + lines, (bytes.foldl after position).column⟩ := by
  induction bytes generalizing position with
  | nil => rfl
  | cons byte rest ih =>
      have moved : after ⟨position.line + lines, position.column⟩ byte =
          ⟨(position.after byte).line + lines, (position.after byte).column⟩ := by
        rw [after, after]
        split
        · simp only [Position.mk.injEq, and_true]
          omega
        · rfl
      rw [List.foldl_cons, moved, ih, List.foldl_cons]

theorem foldl_after_bounds (position : Position) (line : 1 ≤ position.line)
    (column : 1 ≤ position.column) (bytes : List UInt8) :
    1 ≤ (bytes.foldl after position).line ∧ 1 ≤ (bytes.foldl after position).column ∧
      (bytes.foldl after position).line + (bytes.foldl after position).column ≤
        bytes.length + (position.line + position.column) := by
  induction bytes generalizing position with
  | nil => exact ⟨line, column, Nat.le_of_eq (Nat.zero_add _).symm⟩
  | cons byte rest ih =>
      have step : 1 ≤ (position.after byte).line ∧ 1 ≤ (position.after byte).column ∧
          (position.after byte).line + (position.after byte).column ≤
            position.line + position.column + 1 := by
        rw [after]
        split <;> simp only <;> omega
      rcases ih _ step.1 step.2.1 with ⟨lines, columns, sum⟩
      rw [List.foldl_cons, List.length_cons]
      exact ⟨lines, columns, by omega⟩

end Position

theorem position_at_before {bytes : List UInt8} {first second : Nat} (less : first < second)
    (within : second ≤ bytes.length) :
    (positionAt bytes first).Before (positionAt bytes second) := by
  induction second with
  | zero => exact absurd less (Nat.not_lt_zero _)
  | succ second ih =>
      have here : bytes[second]? = some bytes[second] := List.getElem?_eq_getElem within
      have step : (positionAt bytes second).Before (positionAt bytes (second + 1)) := by
        rw [position_at_succ here]
        exact Position.before_after _ _
      by_cases same : first = second
      · exact same ▸ step
      · exact (ih (by omega) (by omega)).trans step

/-- Positions are in the order of the bytes. -/
theorem position_at_le {bytes : List UInt8} {first second : Nat} (inFirst : first ≤ bytes.length)
    (inSecond : second ≤ bytes.length) :
    positionAt bytes first ≤ positionAt bytes second ↔ first ≤ second := by
  constructor
  · intro ordered
    by_contra later
    exact Position.not_le_of_before (position_at_before (Nat.lt_of_not_le later) inFirst) ordered
  · intro ordered
    by_cases same : first = second
    · rw [same]
      exact Position.le_refl _
    · exact Position.le_of_before (position_at_before (by omega) inSecond)

/-- No line number and no column goes beyond the number of bytes by more than one. -/
theorem position_at_bounds (bytes : List UInt8) (offset : Nat) :
    1 ≤ (positionAt bytes offset).line ∧ 1 ≤ (positionAt bytes offset).column ∧
      (positionAt bytes offset).line + (positionAt bytes offset).column ≤ bytes.length + 2 := by
  have size : (bytes.take offset).length ≤ bytes.length := List.length_take_le' _ _
  rcases Position.foldl_after_bounds ⟨1, 1⟩ (Nat.le_refl _) (Nat.le_refl _)
    (bytes.take offset) with ⟨lines, columns, sum⟩
  refine ⟨lines, columns, Nat.le_trans sum ?_⟩
  simp only
  omega

/-- Where a word without a line feed stands: its position gives the piece that it is in and how many
bytes come before it there. -/
theorem place_in_piece (before : List UInt8) {word : List UInt8} (absent : 0x0a ∉ word)
    (more : List UInt8) :
    ∃ index left right, before.foldl Position.after ⟨1, 1⟩ = ⟨index + 1, left.length + 1⟩ ∧
      ((before ++ (word ++ more)).splitOn 0x0a)[index]? = some (left ++ (word ++ right)) := by
  induction before using line_induction with
  | last line clear =>
      rw [Position.foldl_after_within _ clear, split_on_append clear, split_on_append absent]
      cases pieces : more.splitOn 0x0a with
      | nil => exact absurd pieces (List.splitOn_ne_nil _ _)
      | cons piece others =>
          refine ⟨0, line, piece, ?_, rfl⟩
          rw [Nat.add_comm]
  | next line rest clear ih =>
      rcases ih with ⟨index, left, right, position, found⟩
      refine ⟨index + 1, left, right, ?_, ?_⟩
      · have next : (0x0a :: rest).foldl Position.after ⟨1, 1 + line.length⟩ =
            rest.foldl Position.after ⟨1 + 1, 1⟩ := rfl
        rw [List.foldl_append, Position.foldl_after_within _ clear, next,
          Position.foldl_after_shift ⟨1, 1⟩ 1, position]
      · rw [List.append_assoc, List.cons_append, List.splitOn_append_cons_self_of_not_mem clear,
          List.getElem?_cons_succ]
        exact found

namespace SourceFile

/-- A word without line ends stands in the line that its position names, at the column that it
names. -/
theorem place_in_line (file : SourceFile) {before word more : List UInt8}
    (whole : file.bytes = before ++ (word ++ more)) (word_ne : word ≠ [])
    (clear : ∀ byte ∈ word, byte ≠ 0x0a ∧ byte ≠ 0x0d) :
    ∃ text left right, file.line? (positionAt file.bytes before.length).line = some text ∧
      textBytes text = left ++ (word ++ right) ∧
      (positionAt file.bytes before.length).column = left.length + 1 := by
  have absent : (0x0a : UInt8) ∉ word := fun member => (clear _ member).1 rfl
  rcases place_in_piece before absent more with ⟨index, left, right, position, found⟩
  have here : positionAt file.bytes before.length = ⟨index + 1, left.length + 1⟩ := by
    rw [positionAt, whole, List.take_left, position]
  rw [← whole] at found
  rcases file.line_of_piece found with ⟨text, line, bytes⟩
  have kept : trimCarriageReturns (left ++ (word ++ right)) =
      left ++ (word ++ trimCarriageReturns right) := by
    have solid : word.getLast word_ne ≠ 0x0d := (clear _ (List.getLast_mem word_ne)).2
    rw [← List.append_assoc, trim_behind (List.append_ne_nil_of_right_ne_nil left word_ne),
      List.append_assoc]
    rw [List.getLast_append_of_ne_nil _ word_ne]
    exact solid
  rw [here]
  exact ⟨text, left, _, line, bytes.trans kept, rfl⟩

end SourceFile

end Composer
