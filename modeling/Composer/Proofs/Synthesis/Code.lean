import Composer.Synthesis.Code
import Mathlib.Data.List.Basic

/-!
The text of generated code determines its lines and blocks. No text holds a line break, and only the
head of a block ends with an opening brace. Behind a block the text goes on less indented, so the
brace that closes it is too short to be a line of it.
-/

namespace Composer

/-- Two texts that go on as far as all elements fit are the same where neither goes on further. -/
theorem eq_of_split {Element : Type} {fits : Element → Prop}
    {front other rest others : List Element} (all : ∀ element ∈ front, fits element)
    (otherAll : ∀ element ∈ other, fits element)
    (stops : ∀ element, rest.head? = some element → ¬fits element)
    (otherStops : ∀ element, others.head? = some element → ¬fits element)
    (same : front ++ rest = other ++ others) : front = other ∧ rest = others := by
  induction front generalizing other with
  | nil =>
      cases other with
      | nil => exact ⟨rfl, same⟩
      | cons element other =>
          rw [List.nil_append] at same
          exact absurd (otherAll element List.mem_cons_self) (stops element (by rw [same]; rfl))
  | cons element front ih =>
      cases other with
      | nil =>
          rw [List.nil_append] at same
          exact absurd (all element List.mem_cons_self) (otherStops element (by rw [← same]; rfl))
      | cons next other =>
          injection same with head tail
          rw [List.forall_mem_cons] at all otherAll
          rcases ih all.2 otherAll.2 tail with ⟨rfl, left⟩
          exact ⟨by rw [head], left⟩

namespace Code

/-! ### Lines -/

def OneLine (text : String) : Prop := '\n' ∉ text.toList

instance (text : String) : Decidable (OneLine text) :=
  inferInstanceAs (Decidable (¬_))

@[simp]
theorem one_line_append (first second : String) :
    OneLine (first ++ second) ↔ OneLine first ∧ OneLine second := by
  simp [OneLine, not_or]

def lineChars (depth : Nat) (text : String) : List Char :=
  if text = "" then [] else List.replicate (4 * depth) ' ' ++ text.toList

theorem indented_chars (depth : Nat) (text : String) :
    (indented depth text).toList = lineChars depth text ++ ['\n'] := by
  rw [indented, lineChars]
  split
  · rfl
  · rw [String.toList_append, String.toList_append, String.toList_ofList]
    rfl

theorem line_chars_inj {depth : Nat} {text other : String}
    (same : lineChars depth text = lineChars depth other) : text = other := by
  have filled {text : String} (some : text ≠ "") :
      List.replicate (4 * depth) ' ' ++ text.toList ≠ [] := by
    intro none
    rw [List.append_eq_nil_iff, String.toList_eq_nil_iff] at none
    exact some none.2
  rw [lineChars, lineChars] at same
  split at same
  · next empty =>
      split at same
      · next otherEmpty => rw [empty, otherEmpty]
      · next otherSome => exact absurd same.symm (filled otherSome)
  · next isSome =>
      split at same
      · exact absurd same (filled isSome)
      · exact String.toList_inj.mp (List.append_cancel_left same)

/-- No line inside a block is the one that closes it. -/
theorem line_chars_ne_closing (depth : Nat) (text : String) :
    lineChars (depth + 1) text ≠ lineChars depth "\x7d" := by
  intro same
  have closing : lineChars depth "\x7d" = List.replicate (4 * depth) ' ' ++ "\x7d".toList :=
    if_neg (by decide)
  have one : "\x7d".toList.length = 1 := rfl
  have length := congrArg List.length same
  rw [closing, List.length_append, List.length_replicate, one, lineChars] at length
  split at length
  · rw [List.length_nil] at length
    omega
  · rw [List.length_append, List.length_replicate] at length
    omega

theorem line_chars_unbroken {depth : Nat} {text : String} (single : OneLine text) :
    ∀ char ∈ lineChars depth text, char ≠ '\n' := by
  intro char member broken
  rw [broken, lineChars] at member
  split at member
  · cases member
  · rcases List.mem_append.mp member with blank | inside
    · exact absurd (List.eq_of_mem_replicate blank) (by decide)
    · exact single inside

/-- Texts that start with a line each start with the same one if they are the same. -/
theorem lines_split {depth otherDepth : Nat} {text other : String} {rest others : List Char}
    (single : OneLine text) (otherSingle : OneLine other)
    (same : lineChars depth text ++ '\n' :: rest = lineChars otherDepth other ++ '\n' :: others) :
    lineChars depth text = lineChars otherDepth other ∧ rest = others := by
  have ends (rest : List Char) : ∀ char, ('\n' :: rest).head? = some char → ¬char ≠ '\n' :=
    fun char head => not_not.mpr (Option.some.inj head).symm
  rcases eq_of_split (line_chars_unbroken single) (line_chars_unbroken otherSingle) (ends rest)
    (ends others) same with ⟨line, behind⟩
  exact ⟨line, (List.cons.inj behind).2⟩

/-! ### Blocks -/

/-- Every text takes one line, and only those in front of a block end with an opening brace. -/
inductive Plain : Code → Prop
  | line {text : String} :
      OneLine text → text.toList.getLast? ≠ some '\x7b' → Plain (.line text)
  | block {header : String} {body : List Code} :
      OneLine header → (∀ code ∈ body, Plain code) → Plain (.block header body)

def headText : Code → String
  | line text => text
  | block header _ => header ++ " \x7b"

def tailChars (depth : Nat) : Code → List Char
  | line _ => []
  | block _ body => (renderAll (depth + 1) body).toList ++ (indented depth "\x7d").toList

theorem render_chars (depth : Nat) (code : Code) :
    (code.renderAt depth).toList =
      lineChars depth code.headText ++ '\n' :: code.tailChars depth := by
  cases code with
  | line text => exact indented_chars depth text
  | block header body =>
      rw [renderAt, String.toList_append, String.toList_append, indented_chars depth (header ++ _),
        List.append_assoc, List.append_assoc]
      rfl

theorem Plain.head_one_line {code : Code} (plain : code.Plain) : OneLine code.headText := by
  cases plain with
  | line single => exact single
  | block single => exact (one_line_append _ _).mpr ⟨single, by decide⟩

theorem Plain.inside {header : String} {body : List Code} (plain : (Code.block header body).Plain) :
    ∀ code ∈ body, code.Plain := by
  cases plain with
  | block _ inside => exact inside

inductive Follows : Nat → List Char → Prop
  | nothing : Follows 0 []
  | closing {depth : Nat} (rest : List Char) :
      Follows (depth + 1) ((indented depth "\x7d").toList ++ rest)

/-- Code does not start where a block ends. -/
theorem Follows.ne_render {depth : Nat} {rest : List Char} (follows : Follows depth rest)
    {code : Code} (plain : code.Plain) (more : List Char) :
    rest ≠ (code.renderAt depth).toList ++ more := by
  intro same
  rw [render_chars, List.append_assoc, List.cons_append] at same
  cases follows with
  | nothing => exact absurd same.symm (List.append_ne_nil_of_right_ne_nil _ (List.cons_ne_nil _ _))
  | closing rest =>
      rw [indented_chars, List.append_assoc] at same
      have closed : OneLine "\x7d" := by decide
      exact line_chars_ne_closing _ _ (lines_split closed plain.head_one_line same).1.symm

theorem render_cons (depth : Nat) (code : Code) (rest : List Code) (more : List Char) :
    (renderAll depth (code :: rest)).toList ++ more =
      (code.renderAt depth).toList ++ ((renderAll depth rest).toList ++ more) := by
  rw [renderAll, String.toList_append, List.append_assoc]

/-- The head of a block is no line of its own. -/
theorem Plain.line_ne_header {text : String} (plain : (Code.line text).Plain) (header : String) :
    text ≠ header ++ " \x7b" := by
  intro same
  cases plain with
  | line _ noOpening =>
      have opening : " \x7b".toList = [' ', '\x7b'] := rfl
      rw [same, String.toList_append, opening, List.getLast?_append] at noOpening
      exact noOpening rfl

/-- The text of code starts with its first line. -/
theorem first_lines_split {depth : Nat} {code other : Code} {codes others : List Code}
    {rest more : List Char} (plain : code.Plain) (otherPlain : other.Plain)
    (same : (renderAll depth (code :: codes)).toList ++ rest =
      (renderAll depth (other :: others)).toList ++ more) :
    code.headText = other.headText ∧
      code.tailChars depth ++ ((renderAll depth codes).toList ++ rest) =
        other.tailChars depth ++ ((renderAll depth others).toList ++ more) := by
  rw [render_cons, render_cons, render_chars, render_chars, List.append_assoc, List.append_assoc,
    List.cons_append, List.cons_append] at same
  rcases lines_split plain.head_one_line otherPlain.head_one_line same with ⟨line, behind⟩
  exact ⟨line_chars_inj line, behind⟩

/-- The text of code is that of no other code, whatever encloses it. -/
theorem render_all_inj (depth : Nat) (codes others : List Code) {rest more : List Char}
    (plain : ∀ code ∈ codes, code.Plain) (otherPlain : ∀ code ∈ others, code.Plain)
    (follows : Follows depth rest) (otherFollows : Follows depth more)
    (same : (renderAll depth codes).toList ++ rest = (renderAll depth others).toList ++ more) :
    codes = others ∧ rest = more := by
  match codes, others with
  | [], [] => exact ⟨rfl, same⟩
  | [], other :: others =>
      rw [render_cons] at same
      exact absurd same (follows.ne_render (otherPlain other List.mem_cons_self) _)
  | code :: codes, [] =>
      rw [render_cons] at same
      exact absurd same.symm (otherFollows.ne_render (plain code List.mem_cons_self) _)
  | .line text :: codes, .line other :: others =>
      rw [List.forall_mem_cons] at plain otherPlain
      rcases first_lines_split plain.1 otherPlain.1 same with ⟨head, behind⟩
      rcases render_all_inj depth codes others plain.2 otherPlain.2 follows otherFollows behind
        with ⟨later, left⟩
      have text : text = other := head
      exact ⟨by rw [text, later], left⟩
  | .line text :: codes, .block header body :: others =>
      rw [List.forall_mem_cons] at plain otherPlain
      have head := (first_lines_split plain.1 otherPlain.1 same).1
      exact absurd head (plain.1.line_ne_header header)
  | .block header body :: codes, .line text :: others =>
      rw [List.forall_mem_cons] at plain otherPlain
      have head := (first_lines_split plain.1 otherPlain.1 same).1
      exact absurd head.symm (otherPlain.1.line_ne_header header)
  | .block header body :: codes, .block other otherBody :: others =>
      rw [List.forall_mem_cons] at plain otherPlain
      rcases first_lines_split plain.1 otherPlain.1 same with ⟨head, behind⟩
      have header : header = other := by
        rw [headText, headText, ← String.toList_inj, String.toList_append,
          String.toList_append] at head
        exact String.toList_inj.mp (List.append_cancel_right head)
      rw [tailChars, tailChars, List.append_assoc, List.append_assoc] at behind
      rcases render_all_inj (depth + 1) body otherBody plain.1.inside otherPlain.1.inside
        (.closing _) (.closing _) behind with ⟨inside, left⟩
      rcases render_all_inj depth codes others plain.2 otherPlain.2 follows otherFollows
        (List.append_cancel_left left) with ⟨later, ended⟩
      exact ⟨by rw [header, inside, later], ended⟩
termination_by sizeOf codes

end Code

end Composer
