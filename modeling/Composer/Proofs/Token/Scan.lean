import Composer.Proofs.Source.Lines
import Composer.Proofs.Token.Spelling

/-!
What stands between two offsets of a text. `TriviaAt` says of a byte whether it is a blank or in a
comment, without the flag that the lexer keeps. `Scans` lists the lexemes between two offsets, with
nothing but trivia around them; so every byte is trivia or belongs to exactly one lexeme.
-/

namespace Composer

/-! ### Trivia by offsets -/

/-- The byte at an offset stands in a comment, which two slashes start and a line feed ends. -/
def InComment (bytes : List UInt8) (offset : Nat) : Prop :=
  ∃ start ≤ offset, bytes[start]? = some 0x2f ∧ bytes[start + 1]? = some 0x2f ∧
    ∀ between, start ≤ between → between ≤ offset → bytes[between]? ≠ some 0x0a

def TriviaAt (bytes : List UInt8) (offset : Nat) : Prop :=
  (∃ byte, bytes[offset]? = some byte ∧ isBlankByte byte = true) ∨ InComment bytes offset

/-- The byte before an offset stands in a comment. -/
def CommentOpen (bytes : List UInt8) : Nat → Prop
  | 0 => False
  | offset + 1 => InComment bytes offset

theorem in_comment_iff (bytes : List UInt8) (offset : Nat) :
    InComment bytes offset ↔ bytes[offset]? ≠ some 0x0a ∧
      (CommentOpen bytes offset ∨ bytes[offset]? = some 0x2f ∧ bytes[offset + 1]? = some 0x2f) := by
  constructor
  · intro comment
    rcases comment with ⟨start, before, first, second, clear⟩
    constructor
    · exact clear offset before (Nat.le_refl _)
    · by_cases same : start = offset
      · rw [same] at first second
        exact .inr ⟨first, second⟩
      · left
        cases offset with
        | zero => omega
        | succ previous =>
            exact ⟨start, by omega, first, second, fun between lower upper =>
              clear between lower (Nat.le_succ_of_le upper)⟩
  · intro goesOn
    rcases goesOn with ⟨noLineFeed, former | ⟨first, second⟩⟩
    · cases offset with
      | zero => exact absurd former id
      | succ previous =>
          rcases former with ⟨start, before, first, second, clear⟩
          refine ⟨start, Nat.le_succ_of_le before, first, second, fun between lower upper => ?_⟩
          by_cases last : between = previous + 1
          · rw [last]
            exact noLineFeed
          · exact clear between lower (by omega)
    · refine ⟨offset, Nat.le_refl _, first, second, fun between lower upper => ?_⟩
      rw [Nat.le_antisymm upper lower]
      exact noLineFeed

theorem not_blank_of_not_trivia {bytes : List UInt8} {offset : Nat} {byte : UInt8}
    (here : bytes[offset]? = some byte) (solid : ¬TriviaAt bytes offset) :
    isBlankByte byte = false := by
  cases blank : isBlankByte byte with
  | false => rfl
  | true => exact absurd (.inl ⟨byte, here, blank⟩) solid

theorem drop_eq_cons {whole rest : List UInt8} {offset : Nat} {byte : UInt8}
    (left : whole.drop offset = byte :: rest) :
    offset < whole.length ∧ whole[offset]? = some byte ∧ whole.drop (offset + 1) = rest := by
  have here : whole[offset]? = some byte := by
    have first : (whole.drop offset)[0]? = whole[offset + 0]? := List.getElem?_drop
    rw [left, Nat.add_zero] at first
    exact first.symm
  refine ⟨(List.getElem?_eq_some_iff.mp here).1, here, ?_⟩
  rw [← List.tail_drop, left, List.tail_cons]

theorem in_comment_of_open {whole : List UInt8} {offset : Nat} {byte : UInt8}
    (here : whole[offset]? = some byte) (inside : CommentOpen whole offset) :
    InComment whole offset ↔ byte ≠ 0x0a := by
  rw [in_comment_iff, here]
  constructor
  · intro comment same
    exact comment.1 (congrArg some same)
  · intro other
    exact ⟨fun same => other (Option.some.inj same), .inl inside⟩

theorem in_comment_of_closed {whole : List UInt8} {offset : Nat} {byte : UInt8}
    (here : whole[offset]? = some byte) (outside : ¬CommentOpen whole offset) :
    InComment whole offset ↔ byte = 0x2f ∧ whole[offset + 1]? = some 0x2f := by
  rw [in_comment_iff, here, Option.some.injEq]
  constructor
  · intro comment
    exact comment.2.resolve_left outside
  · intro slashes
    constructor
    · rw [slashes.1]
      decide
    · exact .inr slashes

structure TriviaUpTo (whole : List UInt8) (offset next : Nat) : Prop where
  before : offset ≤ next
  within : next ≤ whole.length
  skipped : ∀ between, offset ≤ between → between < next → TriviaAt whole between
  kept : next < whole.length → ¬TriviaAt whole next

namespace TriviaUpTo

variable {whole : List UInt8} {offset next : Nat}

theorem none (within : offset ≤ whole.length)
    (kept : offset < whole.length → ¬TriviaAt whole offset) : TriviaUpTo whole offset offset :=
  ⟨Nat.le_refl _, within, fun _ lower upper => absurd lower (Nat.not_le_of_lt upper), kept⟩

theorem cons (trivia : TriviaAt whole offset) (more : TriviaUpTo whole (offset + 1) next) :
    TriviaUpTo whole offset next := by
  constructor
  · exact Nat.le_of_succ_le more.before
  · exact more.within
  · intro between lower upper
    by_cases first : between = offset
    · rw [first]
      exact trivia
    · exact more.skipped between (by omega) upper
  · exact more.kept

end TriviaUpTo

/-- The lexer skips trivia and nothing else. Its flag says whether the byte before stands in a
comment. -/
theorem drop_trivia_offset (whole : List UInt8) {comment : Bool} {offset : Nat}
    (within : offset ≤ whole.length) (flag : comment = true ↔ CommentOpen whole offset) :
    ∃ next, TriviaUpTo whole offset next ∧
      dropTrivia comment (positionAt whole offset) (whole.drop offset) =
        (positionAt whole next, whole.drop next) := by
  induction left : whole.drop offset generalizing comment offset with
  | nil =>
      have ended : whole.length ≤ offset := List.drop_eq_nil_iff.mp left
      refine ⟨offset, .none within fun more => absurd ended (Nat.not_le_of_lt more), ?_⟩
      rw [left]
      cases comment <;> rfl
  | cons byte rest ih =>
      rcases drop_eq_cons left with ⟨more, here, later⟩
      -- One byte of trivia is skipped, and the rest is as before.
      have onward : ∀ inside : Bool, TriviaAt whole offset →
          (inside = true ↔ InComment whole offset) →
          ∃ next, TriviaUpTo whole offset next ∧
            dropTrivia inside ((positionAt whole offset).after byte) rest =
              (positionAt whole next, whole.drop next) := by
        intro inside trivia flag
        rcases ih (Nat.succ_le_of_lt more) flag later with ⟨next, skipped, dropped⟩
        rw [position_at_succ here] at dropped
        exact ⟨next, .cons trivia skipped, dropped⟩
      cases comment with
      | true =>
          have goesOn := in_comment_of_open here (flag.mp rfl)
          apply onward (byte ≠ 0x0a)
          · by_cases lineFeed : byte = 0x0a
            · exact .inl ⟨byte, here, by rw [lineFeed]; rfl⟩
            · exact .inr (goesOn.mpr lineFeed)
          · rw [goesOn, decide_eq_true_eq]
      | false =>
          have outside : ¬CommentOpen whole offset := fun inside =>
            Bool.false_ne_true (flag.mpr inside)
          have starts := in_comment_of_closed here outside
          have second : rest.head? = whole[offset + 1]? := by
            rw [← later, List.head?_drop]
          rw [dropTrivia, second]
          split
          · next blank =>
              have noSlash : byte ≠ 0x2f := by
                intro slash
                rw [slash] at blank
                exact absurd blank (by decide)
              apply onward false (.inl ⟨byte, here, blank⟩)
              exact iff_of_false Bool.false_ne_true fun comment => noSlash (starts.mp comment).1
          · split
            · next _ slashes =>
                have comment := starts.mpr slashes
                exact onward true (.inr comment) (iff_of_true rfl comment)
            · next solid noSlashes =>
                refine ⟨offset, .none within fun _ trivia => ?_, by rw [left]⟩
                rcases trivia with ⟨other, same, blank⟩ | comment
                · rw [here] at same
                  rw [← Option.some.inj same] at blank
                  exact solid blank
                · exact noSlashes (starts.mp comment)

/-! ### Lexemes by offsets -/

/-- The bytes from one offset to another are trivia and the lexemes found, each given with its
offset. -/
inductive Scans (whole : List UInt8) : Nat → List (Nat × Lexeme) → Nat → Prop
  | stop {offset : Nat} : offset ≤ whole.length → Scans whole offset [] offset
  | trivia {offset stop : Nat} {found : List (Nat × Lexeme)} :
      TriviaAt whole offset → Scans whole (offset + 1) found stop → Scans whole offset found stop
  | lexeme {offset stop : Nat} {lexeme : Lexeme} {found : List (Nat × Lexeme)} :
      ¬TriviaAt whole offset → lexeme.Reads (whole.drop offset) →
        Scans whole (offset + lexeme.width) found stop →
          Scans whole offset ((offset, lexeme) :: found) stop

namespace Lexeme

variable {lexeme : Lexeme} {whole : List UInt8} {offset : Nat}

theorem Reads.width_pos {input : List UInt8} (reads : lexeme.Reads input) : 1 ≤ lexeme.width := by
  rw [width_eq]
  exact List.length_pos_of_ne_nil reads.nonempty

theorem Reads.width_le (reads : lexeme.Reads (whole.drop offset))
    (within : offset ≤ whole.length) : offset + lexeme.width ≤ whole.length := by
  have front := reads.front.length_le
  rw [← width_eq, List.length_drop] at front
  omega

/-- No byte of a lexeme is trivia. -/
theorem Reads.not_trivia (reads : lexeme.Reads (whole.drop offset))
    (solid : ¬TriviaAt whole offset) {index : Nat} (inside : index < lexeme.width) :
    ¬TriviaAt whole (offset + index) := by
  rw [width_eq] at inside
  have byteAt : ∀ place (fits : place < lexeme.bytes.length),
      whole[offset + place]? = some lexeme.bytes[place] := by
    intro place fits
    rw [← List.getElem?_drop]
    rw [List.prefix_iff_getElem?.mp reads.front place fits]
  intro trivia
  rcases trivia with ⟨byte, here, blank⟩ | ⟨start, before, first, second, clear⟩
  · rw [byteAt index inside] at here
    have kept := reads.solid _ (List.getElem_mem inside)
    rw [Option.some.inj here, blank] at kept
    cases kept
  · by_cases earlier : start ≤ offset
    · exact solid (.inr ⟨start, earlier, first, second, fun between lower upper =>
        clear between lower (by omega)⟩)
    · have place : start = offset + (start - offset) := by omega
      have fits : start - offset < lexeme.bytes.length := by omega
      rw [place, byteAt _ fits] at first
      have behind : lexeme.bytes[start - offset] ∈ lexeme.bytes.tail := by
        rw [← List.drop_one, List.mem_drop_iff_getElem]
        exact ⟨start - offset - 1, by omega, by congr 1; omega⟩
      exact reads.no_comment _ behind (Option.some.inj first)

/-- No comment goes on behind a lexeme. -/
theorem Reads.not_comment_open (reads : lexeme.Reads (whole.drop offset))
    (solid : ¬TriviaAt whole offset) : ¬CommentOpen whole (offset + lexeme.width) := by
  have some := reads.width_pos
  have last : offset + lexeme.width = offset + (lexeme.width - 1) + 1 := by omega
  rw [last]
  exact fun inside => reads.not_trivia solid (by omega) (.inr inside)

end Lexeme

namespace Scans

variable {whole : List UInt8} {offset stop : Nat} {found : List (Nat × Lexeme)}

theorem skip {next : Nat} (skipped : TriviaUpTo whole offset next)
    (scans : Scans whole next found stop) : Scans whole offset found stop := by
  have before := skipped.before
  induction left : next - offset generalizing offset with
  | zero =>
      have same : offset = next := by omega
      rw [same]
      exact scans
  | succ count ih =>
      have here := skipped.skipped offset (Nat.le_refl _) (by omega)
      have later : TriviaUpTo whole (offset + 1) next :=
        ⟨by omega, skipped.within, fun between lower => skipped.skipped between (by omega),
          skipped.kept⟩
      exact .trivia here (ih later later.before (by omega))

theorem bounds (scans : Scans whole offset found stop) :
    offset ≤ stop ∧ stop ≤ whole.length ∧
      ∀ entry ∈ found, offset ≤ entry.1 ∧ entry.1 + entry.2.width ≤ stop := by
  induction scans with
  | stop within => exact ⟨Nat.le_refl _, within, by simp⟩
  | trivia _ _ ih =>
      rcases ih with ⟨lower, upper, entries⟩
      exact ⟨by omega, upper, fun entry member => ⟨by have := entries entry member; omega,
        (entries entry member).2⟩⟩
  | lexeme _ _ _ ih =>
      rcases ih with ⟨lower, upper, entries⟩
      refine ⟨by omega, upper, List.forall_mem_cons.mpr ⟨⟨Nat.le_refl _, lower⟩, ?_⟩⟩
      intro entry member
      have later := entries entry member
      omega

theorem reads (scans : Scans whole offset found stop) :
    ∀ entry ∈ found, entry.2.Reads (whole.drop entry.1) := by
  induction scans with
  | stop => simp
  | trivia _ _ ih => exact ih
  | lexeme _ own _ ih => exact List.forall_mem_cons.mpr ⟨own, ih⟩

theorem ordered (scans : Scans whole offset found stop) :
    found.Pairwise fun first second => first.1 + first.2.width ≤ second.1 := by
  induction scans with
  | stop => exact .nil
  | trivia _ _ ih => exact ih
  | lexeme _ _ later ih =>
      exact .cons (fun entry member => (later.bounds.2.2 entry member).1) ih

def takes (place : Nat) (entry : Nat × Lexeme) : Bool :=
  entry.1 ≤ place && place < entry.1 + entry.2.width

/-- Every byte is trivia or is taken by exactly one lexeme. -/
theorem count (scans : Scans whole offset found stop) {place : Nat} (lower : offset ≤ place)
    (upper : place < stop) :
    (TriviaAt whole place → found.countP (takes place) = 0) ∧
      (¬TriviaAt whole place → found.countP (takes place) = 1) := by
  induction scans with
  | stop => omega
  | @trivia offset stop found trivia later ih =>
      by_cases here : place = offset
      · rw [here] at upper ⊢
        refine ⟨fun _ => ?_, fun solid => absurd trivia solid⟩
        rw [List.countP_eq_zero]
        intro entry member
        have behind := (later.bounds.2.2 entry member).1
        simp only [takes, Bool.and_eq_true, decide_eq_true_eq]
        omega
      · exact ih (by omega) upper
  | @lexeme offset stop lexeme found solid own later ih =>
      rw [List.countP_cons]
      by_cases inside : place < offset + lexeme.width
      · have taken : takes place (offset, lexeme) = true := by
          simp only [takes, Bool.and_eq_true, decide_eq_true_eq]
          exact ⟨lower, inside⟩
        have others : found.countP (takes place) = 0 := by
          rw [List.countP_eq_zero]
          intro entry member
          have behind := (later.bounds.2.2 entry member).1
          simp only [takes, Bool.and_eq_true, decide_eq_true_eq]
          omega
        have clear : ¬TriviaAt whole place := by
          have within : place - offset < lexeme.width := by omega
          have part := own.not_trivia solid within
          rw [Nat.add_sub_cancel' lower] at part
          exact part
        rw [others, if_pos taken]
        exact ⟨fun trivia => absurd trivia clear, fun _ => rfl⟩
      · have missed : ¬takes place (offset, lexeme) = true := by
          simp only [takes, Bool.and_eq_true, decide_eq_true_eq]
          omega
        rw [if_neg missed]
        exact ih (by omega) upper

end Scans

end Composer
