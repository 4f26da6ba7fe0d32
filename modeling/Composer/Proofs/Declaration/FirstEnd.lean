import Mathlib.Data.List.Basic
import Composer.Proofs.Declaration.Beyond
import Composer.Proofs.Declaration.Progress

/-!
The first end-of-file token ends the input. A cursor shows a place in the whole list of tokens, where
each token can be looked at and stepped over, and where behind the last token the last one is seen
again; moving the cursor, over an end-of-file token as well, moves the place. In a reading the place
does not come to lie behind the first end-of-file token, and nothing there has any influence.
-/

namespace Composer

inductive SkipStep
  | before
  | behind
  | on (depth : Nat)

def SkipStep.ofKind (depth : Nat) : TokenKind → SkipStep
  | .mark .leftBrace | .mark .leftParen | .mark .leftBracket => on (depth + 1)
  | .mark .rightParen | .mark .rightBracket => on (depth - 1)
  | .mark .rightBrace => if depth = 0 then before else if depth = 1 then behind else on (depth - 1)
  | .mark .semicolon | .mark .comma => if depth = 0 then behind else on depth
  | _ => on depth

theorem Cursor.skip_member_cons (depth : Nat) (previous : Span) (token : Token) (rest : List Token) :
    skipMember depth previous (token :: rest) =
      match SkipStep.ofKind depth token.kind with
      | .before => (previous, token :: rest)
      | .behind => (token.span, rest)
      | .on depth => skipMember depth token.span rest := by
  rcases token with ⟨kind, span⟩
  cases kind with
  | mark sign =>
      cases sign with
      | rightBrace =>
          simp only [skipMember, SkipStep.ofKind]
          split
          · rfl
          · split <;> rfl
      | semicolon =>
          simp only [skipMember, SkipStep.ofKind]
          split <;> rfl
      | comma =>
          simp only [skipMember, SkipStep.ofKind]
          split <;> rfl
      | _ => rfl
  | _ => rfl

/-- The tokens that a cursor faces are those up to the first end-of-file token, that token, and those
behind it. -/
theorem Cursor.facing_split (cursor : Cursor) {tokens : List Token}
    (ends : ∃ token ∈ tokens, token.kind = .endOfFile) :
    tokens = (cursor.facing tokens).ahead ++
      ⟨.endOfFile, (cursor.facing tokens).finish⟩ :: (cursor.facing tokens).beyond := by
  induction tokens with
  | nil =>
      rcases ends with ⟨token, member, _⟩
      cases member
  | cons token rest ih =>
      rcases token with ⟨kind, span⟩
      by_cases isEnd : kind = .endOfFile
      · subst isEnd
        rfl
      · have later := ih <| by
          rcases ends with ⟨token, member, isEnd'⟩
          rcases List.mem_cons.mp member with rfl | member
          · exact absurd isEnd' isEnd
          · exact ⟨token, member, isEnd'⟩
        have passes : decide (kind ≠ .endOfFile) = true := decide_eq_true isEnd
        have misses : decide (kind = .endOfFile) = false := decide_eq_false isEnd
        simp only [facing, List.takeWhile_cons, List.dropWhile_cons, List.find?_cons, passes, misses,
          if_true]
        exact congrArg (⟨kind, span⟩ :: ·) later

/-- A list of tokens of which the last one ends the file, as an earlier one may do as well. -/
structure Tape where
  tokens : List Token
  closed : ∃ front last, tokens = front ++ [last] ∧ last.kind = .endOfFile

namespace Tape

def ofTokens (tokens : List Token) : Tape where
  tokens := Cursor.closed tokens
  closed := by
    rw [Cursor.closed]
    split
    · exact ⟨[], _, rfl, rfl⟩
    · next last found =>
        split
        · next ends =>
            rcases List.getLast?_eq_some_iff.mp found with ⟨front, split⟩
            exact ⟨front, last, split, ends⟩
        · exact ⟨tokens, _, rfl, rfl⟩

variable (tape : Tape)

def peek (place : Nat) : Token :=
  (tape.tokens[min place (tape.tokens.length - 1)]?).getD ⟨.endOfFile, .point 1 1⟩

def kindBehind (place : Nat) : TokenKind :=
  (tape.tokens[place + 1]?.map (·.kind)).getD .endOfFile

def atEnd (place : Nat) : Bool := (tape.peek place).kind = .endOfFile

def advance (place : Nat) : Nat := if place < tape.tokens.length - 1 then place + 1 else place

def previous : Nat → Span
  | 0 => .point 1 1
  | place + 1 => (tape.tokens[place]?.map (·.span)).getD (.point 1 1)

variable {tape} {place : Nat}

theorem advance_of_more (more : tape.atEnd place = false) :
    tape.advance place = place + 1 ∧ place < tape.tokens.length - 1 := by
  rcases tape.closed with ⟨front, last, split, ends⟩
  have inside : place < tape.tokens.length - 1 := by
    apply Nat.lt_of_not_le
    intro behind
    rw [atEnd, peek, Nat.min_eq_right behind, split] at more
    simp [ends] at more
  exact ⟨if_pos inside, inside⟩

section Split

variable {taken others : List Token} {token : Token}

theorem advance_of_split (split : tape.tokens = taken ++ token :: others) (more : others ≠ []) :
    tape.advance taken.length = (taken ++ [token]).length := by
  have some := List.length_pos_iff.mpr more
  have inside : taken.length < tape.tokens.length - 1 := by
    rw [split, List.length_append, List.length_cons]
    omega
  rw [advance, if_pos inside, List.length_append, List.length_singleton]

theorem advance_at_last (split : tape.tokens = taken ++ [token]) :
    tape.advance taken.length = taken.length := by
  have last : ¬taken.length < tape.tokens.length - 1 := by
    rw [split, List.length_append, List.length_singleton]
    omega
  rw [advance, if_neg last]

theorem previous_of_split (split : tape.tokens = taken ++ token :: others) :
    tape.previous (taken ++ [token]).length = token.span := by
  rw [List.length_append, List.length_singleton, previous, split,
    List.getElem?_append_right (Nat.le_refl _), Nat.sub_self]
  rfl

end Split

def skipMember (tape : Tape) (depth place : Nat) : Nat :=
  if _ : tape.atEnd place = true then place
  else match SkipStep.ofKind depth (tape.peek place).kind with
    | .before => place
    | .behind => tape.advance place
    | .on depth => tape.skipMember depth (tape.advance place)
termination_by tape.tokens.length - place
decreasing_by
  have := tape.advance_of_more (eq_false_of_ne_true ‹_›)
  omega

def skipItem (tape : Tape) (place : Nat) : Nat :=
  if _ : tape.atEnd place = true then place
  else if ((tape.peek place).kind = .keyword .component ∨
        (tape.peek place).kind = .keyword .contract) ∧ tape.kindBehind place ≠ .mark .bang then
      place
    else tape.skipItem (tape.advance place)
termination_by tape.tokens.length - place
decreasing_by
  have := tape.advance_of_more (eq_false_of_ne_true ‹_›)
  omega

/-- A cursor at this place has the tokens ahead up to the next end-of-file token, and behind that one
all the others. -/
def Shows (tape : Tape) (place : Nat) (cursor : Cursor) : Prop :=
  ∃ taken, tape.tokens = taken ++ (cursor.ahead ++ ⟨.endOfFile, cursor.finish⟩ :: cursor.beyond) ∧
    taken.length = place ∧ (∀ token ∈ cursor.ahead, token.kind ≠ .endOfFile) ∧
    cursor.previous = tape.previous place

/-- Put before what is left of the list, a cursor shows the place where that starts. -/
theorem shows_facing {taken tokens : List Token} (split : tape.tokens = taken ++ tokens)
    (some : tokens ≠ []) {cursor : Cursor} (last : cursor.previous = tape.previous taken.length) :
    tape.Shows taken.length (cursor.facing tokens) := by
  have ends : ∃ token ∈ tokens, token.kind = .endOfFile := by
    rcases tape.closed with ⟨front, final, closed, isEnd⟩
    have same := congrArg List.getLast? (split.symm.trans closed)
    rw [List.getLast?_append_of_ne_nil _ some, List.getLast?_concat] at same
    exact ⟨final, List.mem_of_getLast? same, isEnd⟩
  refine ⟨taken, ?_, rfl, fun token member => ?_, last⟩
  · rw [split]
    exact congrArg (taken ++ ·) (cursor.facing_split ends)
  · exact of_decide_eq_true (List.all_eq_true.mp List.all_takeWhile token member)

namespace Shows

variable {cursor : Cursor} {token : Token} {rest : List Token}

theorem length (shows : tape.Shows place cursor) :
    tape.tokens.length = place + (cursor.ahead.length + (cursor.beyond.length + 1)) := by
  rcases shows with ⟨taken, split, rfl, _⟩
  simp [split]

theorem peek (shows : tape.Shows place cursor) :
    tape.peek place = cursor.ahead.headD ⟨.endOfFile, cursor.finish⟩ := by
  have length := shows.length
  rcases shows with ⟨taken, split, rfl, _⟩
  rw [Tape.peek, Nat.min_eq_left (by omega), split, List.getElem?_append_right (Nat.le_refl _),
    Nat.sub_self]
  cases cursor.ahead <;> rfl

theorem at_end (shows : tape.Shows place cursor) : tape.atEnd place = cursor.atEnd := by
  have seen := shows.peek
  rcases shows with ⟨taken, _, _, before, _⟩
  rw [Tape.atEnd, seen, Cursor.atEnd]
  cases ahead : cursor.ahead with
  | nil => rfl
  | cons token rest =>
      apply decide_eq_false
      exact before token (ahead ▸ List.mem_cons_self)

/-- The token behind the next one is seen where the input goes on so far. -/
theorem kind_behind (shows : tape.Shows place cursor) (ahead : cursor.ahead = token :: rest) :
    tape.kindBehind place = (rest.headD ⟨.endOfFile, cursor.finish⟩).kind := by
  rcases shows with ⟨taken, split, rfl, _⟩
  have one : taken.length + 1 - taken.length = 1 := by omega
  rw [kindBehind, split, ahead, List.getElem?_append_right (Nat.le_add_right _ 1), one]
  cases rest <;> rfl

/-- Stepping over any token, also over one that ends the file, moves the place along. -/
theorem advance (shows : tape.Shows place cursor) :
    tape.Shows (tape.advance place) cursor.advance := by
  rcases shows with ⟨taken, split, rfl, before, same⟩
  cases ahead : cursor.ahead with
  | cons token rest =>
      rw [ahead] at split before
      rw [advance_of_split split (by simp), Cursor.advance_of_ahead ahead]
      exact ⟨taken ++ [token], by simp [split], rfl, (List.forall_mem_cons.mp before).2,
        (previous_of_split split).symm⟩
  | nil =>
      rw [ahead, List.nil_append] at split
      rw [Cursor.advance, ahead, Cursor.stepOver]
      cases beyond : cursor.beyond with
      | nil =>
          rw [beyond] at split
          rw [advance_at_last split]
          exact ⟨taken, by simp [split, ahead, beyond], rfl, by simp [ahead], same⟩
      | cons next others =>
          rw [beyond] at split
          rw [advance_of_split split (List.cons_ne_nil next others)]
          apply shows_facing
          · simp [split]
          · exact List.cons_ne_nil next others
          · exact (previous_of_split split).symm

theorem skip_member (shows : tape.Shows place cursor) (depth : Nat) :
    tape.Shows (tape.skipMember depth place)
      { cursor with
        previous := (Cursor.skipMember depth cursor.previous cursor.ahead).1
        ahead := (Cursor.skipMember depth cursor.previous cursor.ahead).2 } := by
  obtain ⟨file, previous, ahead, finish, beyond, log⟩ := cursor
  dsimp only
  induction ahead generalizing place previous depth with
  | nil =>
      have ended : tape.atEnd place = true := shows.at_end
      rw [Tape.skipMember, dif_pos ended]
      exact shows
  | cons token rest ih =>
      have later := shows.advance
      have more : tape.atEnd place = false := shows.at_end
      have seen : tape.peek place = token := shows.peek
      rw [Tape.skipMember, dif_neg (ne_true_of_eq_false more), seen, Cursor.skip_member_cons]
      cases SkipStep.ofKind depth token.kind with
      | before => exact shows
      | behind => exact later
      | on depth => exact ih depth token.span later

theorem skip_item (shows : tape.Shows place cursor) :
    tape.Shows (tape.skipItem place) cursor.recoverItem := by
  obtain ⟨file, previous, ahead, finish, beyond, log⟩ := cursor
  induction ahead generalizing place previous with
  | nil =>
      have ended : tape.atEnd place = true := shows.at_end
      rw [Tape.skipItem, dif_pos ended]
      exact shows
  | cons token rest ih =>
      have later := shows.advance
      have more : tape.atEnd place = false := shows.at_end
      have seen : tape.peek place = token := shows.peek
      have bang : tape.kindBehind place ≠ .mark .bang ↔
          rest.head?.map (·.kind) ≠ some (.mark .bang) := by
        rw [shows.kind_behind rfl]
        cases rest <;> simp
      rw [Tape.skipItem, dif_neg (ne_true_of_eq_false more), seen, Cursor.recoverItem,
        Cursor.skipItem]
      simp only [bang]
      split
      · exact shows
      · exact ih token.span later

end Shows

/-- Before its first token a list is shown whole. -/
theorem shows_start (file : SourceFile) (tokens : List Token) :
    (ofTokens tokens).Shows 0 (.ofTokens file tokens) := by
  have some : Cursor.closed tokens ≠ [] := by
    rcases (ofTokens tokens).closed with ⟨front, last, split, _⟩
    rw [show Cursor.closed tokens = front ++ [last] from split]
    exact List.concat_ne_nil last front
  have whole : (ofTokens tokens).tokens = [] ++ Cursor.closed tokens := rfl
  exact shows_facing whole some rfl

end Tape

/-! ### Readings -/

/-- The cursor shows some place of the tape, and its tokens behind the next end-of-file token are
these. -/
def Parse.Invariant.onTape (tape : Tape) (behind : List Token) : Invariant where
  Holds cursor := (∃ place, tape.Shows place cursor) ∧ cursor.beyond = behind
  Allows _ := True
  span _ := trivial
  previous _ := trivial
  cover _ _ := trivial
  advance {cursor} := by
    rintro ⟨⟨place, shows⟩, same⟩ more
    obtain ⟨token, rest, ahead⟩ := Cursor.ahead_of_more more
    refine ⟨⟨_, shows.advance⟩, ?_⟩
    rw [Cursor.advance_of_ahead ahead]
    exact same
  report _ _ _ held _ := held
  recover_member := by
    rintro cursor ⟨⟨place, shows⟩, same⟩
    exact ⟨⟨_, shows.skip_member 0⟩, same⟩
  recover_item := by
    rintro cursor ⟨⟨place, shows⟩, same⟩
    exact ⟨⟨_, shows.skip_item⟩, same⟩

theorem Parse.MemberStep.blind {State : Type} {step : State → Parse State} (known : MemberStep step)
    (state : State) : Blind (step state) := by
  cases known with
  | component => exact .component_member state
  | contract => exact .contract_member state
  | storage => exact .bind .storage_member fun _ => .pure _
  | event => exact .bind .event_variant fun _ => .pure _
  | methods => exact .bind .method fun _ => .pure _

section FirstEnd

variable (file : SourceFile) {tokens : List Token} {last : Token}

theorem Cursor.closed_split (tokens rest : List Token) (last : Token) :
    ∃ behind, closed (tokens ++ last :: rest) = tokens ++ last :: behind := by
  cases found : (tokens ++ last :: rest).getLast? with
  | none => simp at found
  | some final =>
      simp only [closed, found]
      split
      · exact ⟨rest, rfl⟩
      · exact ⟨rest ++ [⟨.endOfFile, final.span⟩], by simp⟩

variable (before : ∀ token ∈ tokens, token.kind ≠ .endOfFile) (ends : last.kind = .endOfFile)
include before ends

theorem Cursor.facing_ended (cursor : Cursor) (rest : List Token) :
    cursor.facing (tokens ++ last :: rest) =
      { cursor with ahead := tokens, finish := last.span, beyond := rest } := by
  have passes : ∀ token ∈ tokens, decide (token.kind ≠ .endOfFile) = true := by simpa using before
  have absent : tokens.find? (·.kind = .endOfFile) = none := by simpa using before
  rw [facing, List.takeWhile_append_of_pos passes, List.dropWhile_append_of_pos passes,
    List.find?_append, absent]
  simp [ends]

/-- The tokens behind the first end-of-file token change nothing in what is read. No step of a reading
looks at the tokens behind the next end-of-file token or takes that token, and reading stops at a place
of the list that is not behind the first one. -/
theorem SourceFile.first_end_ends_input (rest : List Token) :
    file.parseTokens (tokens ++ last :: rest) = file.parseTokens (tokens ++ [last]) ∧
    (∀ {State : Type} {step : State → Parse State}, Parse.MemberStep step →
      ∀ state, Parse.Blind (step state)) ∧
    (∀ fuel cursor behind, Parse.items fuel (cursor.endingIn behind) =
      ((Parse.items fuel cursor).1, (Parse.items fuel cursor).2.endingIn behind)) ∧
    ∃ place ≤ tokens.length, (Tape.ofTokens (tokens ++ last :: rest)).Shows place
      (file.readTokens (tokens ++ last :: rest)).2 := by
  obtain ⟨behind, closed⟩ := Cursor.closed_split tokens rest last
  obtain ⟨short, closedToo⟩ := Cursor.closed_split tokens [] last
  have start := Cursor.facing_ended before ends ⟨file, .point 1 1, [], .point 1 1, [], .empty⟩
  have whole : Cursor.ofTokens file (tokens ++ last :: rest) =
      (Cursor.ofTokens file (tokens ++ [last])).endingIn behind := by
    rw [Cursor.ofTokens, Cursor.ofTokens, closed, closedToo, start, start]
    rfl
  refine ⟨?_, fun known => known.blind, Parse.items_ending_in, ?_⟩
  · have fuel : ((Cursor.ofTokens file (tokens ++ [last])).endingIn behind).ahead =
        (Cursor.ofTokens file (tokens ++ [last])).ahead := rfl
    rw [parseTokens, parseTokens, whole]
    dsimp only
    rw [fuel, Parse.items_ending_in]
    rfl
  · have started : (Parse.Invariant.onTape (.ofTokens (tokens ++ last :: rest)) behind).Holds
        (.ofTokens file (tokens ++ last :: rest)) := by
      refine ⟨⟨0, Tape.shows_start file _⟩, ?_⟩
      rw [whole]
      rfl
    rcases (Parse.items_keep _ _ started).1 with ⟨⟨place, shows⟩, same⟩
    refine ⟨place, ?_, shows⟩
    have length : (Cursor.closed (tokens ++ last :: rest)).length = _ := shows.length
    rw [closed, same, List.length_append, List.length_cons] at length
    omega

end FirstEnd

/-- A component in front of the first of two end-of-file tokens, and another one behind it. -/
theorem component_behind_end_not_read :
    let tokens : List Token := [⟨.keyword .component, .point 1 1⟩, ⟨.identifier "c", .point 1 2⟩,
      ⟨.mark .leftBrace, .point 1 3⟩, ⟨.mark .rightBrace, .point 1 4⟩]
    let last : Token := ⟨.endOfFile, .point 1 5⟩
    let rest : List Token := tokens ++ [⟨.endOfFile, .point 1 6⟩]
    let file : SourceFile := ⟨"c.graft", ""⟩
    file.parseTokens (tokens ++ last :: rest) = file.parseTokens (tokens ++ [last]) ∧
    (∀ fuel cursor behind, Parse.items fuel (cursor.endingIn behind) =
      ((Parse.items fuel cursor).1, (Parse.items fuel cursor).2.endingIn behind)) ∧
    ∃ place ≤ 4, (Tape.ofTokens (tokens ++ last :: rest)).Shows place
      (file.readTokens (tokens ++ last :: rest)).2 := by
  intro tokens last rest file
  have before : ∀ token ∈ tokens, token.kind ≠ .endOfFile := by decide
  have ends : last.kind = .endOfFile := rfl
  obtain ⟨same, _, blind, stops⟩ := SourceFile.first_end_ends_input file before ends rest
  exact ⟨same, blind, stops⟩

end Composer
