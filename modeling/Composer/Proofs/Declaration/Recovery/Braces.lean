import Composer.Proofs.Declaration.FirstEnd

/-!
The `}` that closes the block around a broken member. Skipping counts braces, parentheses and brackets
with one depth, so a parenthesis that is still open at that `}` makes it look like the end of a block
inside the member, and it is skipped. It is kept where the depth is back at nothing or skipping ended
before, and so wherever no parenthesis or bracket is open.
-/

namespace Composer

/-! ### Depths -/

/-- How deep skipping is nested behind a token, by how deep it was in front of it. -/
def skipDepth (depth : Nat) (token : Token) : Nat :=
  match token.kind with
  | .mark .leftBrace | .mark .leftParen | .mark .leftBracket => depth + 1
  | .mark .rightBrace | .mark .rightParen | .mark .rightBracket => depth - 1
  | _ => depth

/-- How many parentheses and brackets are open behind a token; braces do not count. -/
def roundDepth (depth : Nat) (token : Token) : Nat :=
  match token.kind with
  | .mark .leftParen | .mark .leftBracket => depth + 1
  | .mark .rightParen | .mark .rightBracket => depth - 1
  | _ => depth

/-- Where so many braces are open, each `}` closes one of them or of those that the tokens open, and
behind the tokens all are closed. Only braces count. -/
def BracesClosed : Nat → List Token → Prop
  | depth, [] => depth = 0
  | depth, token :: rest =>
      match token.kind with
      | .mark .leftBrace => BracesClosed (depth + 1) rest
      | .mark .rightBrace => 0 < depth ∧ BracesClosed (depth - 1) rest
      | _ => BracesClosed depth rest

/-- Skipping that is nested so deep ends at such a token. -/
def EndsSkipping (depth : Nat) (token : Token) : Prop :=
  token.kind ∈ [TokenKind.mark .semicolon, .mark .comma] ∧ depth = 0 ∨
    token.kind = .mark .rightBrace ∧ depth ≤ 1

/-- Skipping that is nested so deep in front of the tokens ends at one of them. -/
def EndsAmong (depth : Nat) (tokens : List Token) : Prop :=
  ∃ front token rest, tokens = front ++ token :: rest ∧
    EndsSkipping (front.foldl skipDepth depth) token

theorem ends_among_cons {depth : Nat} {token : Token} {tokens : List Token} :
    EndsAmong depth (token :: tokens) ↔
      EndsSkipping depth token ∨ EndsAmong (skipDepth depth token) tokens := by
  constructor
  · rintro ⟨front, last, rest, split, ends⟩
    cases front with
    | nil =>
        cases split
        exact .inl ends
    | cons first front =>
        cases split
        exact .inr ⟨front, last, rest, rfl, ends⟩
  · rintro (ends | ⟨front, last, rest, rfl, ends⟩)
    · exact ⟨[], token, tokens, rfl, ends⟩
    · exact ⟨token :: front, last, rest, rfl, ends⟩

theorem not_ends_among_nil (depth : Nat) : ¬EndsAmong depth [] := by
  rintro ⟨front, token, rest, split, _⟩
  exact List.append_ne_nil_of_right_ne_nil front (List.cons_ne_nil token rest) split.symm

/-! ### One token -/

namespace SkipStep

/-- Skipping goes on just where it does not end, at the depth behind the token. -/
theorem of_kind_cases (depth : Nat) (token : Token) :
    EndsSkipping depth token ∧ (ofKind depth token.kind = before ∨ ofKind depth token.kind = behind) ∨
      ¬EndsSkipping depth token ∧ ofKind depth token.kind = on (skipDepth depth token) := by
  rcases token with ⟨kind, span⟩
  cases kind with
  | mark sign =>
      cases sign with
      | rightBrace =>
          by_cases outside : depth = 0
          · exact .inl ⟨.inr ⟨rfl, by omega⟩, .inl (if_pos outside)⟩
          · by_cases last : depth = 1
            · exact .inl ⟨.inr ⟨rfl, by omega⟩, .inr ((if_neg outside).trans (if_pos last))⟩
            · refine .inr ⟨?_, (if_neg outside).trans (if_neg last)⟩
              simp only [EndsSkipping]
              omega
      | semicolon | comma =>
          by_cases outside : depth = 0
          · exact .inl ⟨.inl ⟨by simp, outside⟩, .inr (if_pos outside)⟩
          · exact .inr ⟨by simp [EndsSkipping, outside], if_neg outside⟩
      | _ => exact .inr ⟨by simp [EndsSkipping], rfl⟩
  | _ => exact .inr ⟨by simp [EndsSkipping], rfl⟩

end SkipStep

/-! ### A run over tokens -/

namespace Cursor

variable {depth : Nat} {inside rest : List Token}

/-- Where skipping ends among the tokens, it leaves everything behind them. -/
theorem skip_member_ends (ends : EndsAmong depth inside) (previous : Span) (rest : List Token) :
    rest <:+ (skipMember depth previous (inside ++ rest)).2 := by
  induction inside generalizing depth previous with
  | nil => exact absurd ends (not_ends_among_nil depth)
  | cons token inside ih =>
      rw [List.cons_append, skip_member_cons]
      rcases SkipStep.of_kind_cases depth token with ⟨_, stops | stops⟩ | ⟨goesOn, steps⟩
      · rw [stops]
        exact List.suffix_append (token :: inside) rest
      · rw [stops]
        exact List.suffix_append inside rest
      · rw [steps]
        exact ih ((ends_among_cons.mp ends).resolve_left goesOn) token.span

/-- Where it does not, it comes to what is behind them as deep as they nest. -/
theorem skip_member_passes_over (passes : ¬EndsAmong depth inside) (previous : Span)
    (rest : List Token) :
    ∃ last, skipMember depth previous (inside ++ rest) =
      skipMember (inside.foldl skipDepth depth) last rest := by
  induction inside generalizing depth previous with
  | nil => exact ⟨previous, rfl⟩
  | cons token inside ih =>
      rw [ends_among_cons, not_or] at passes
      rcases SkipStep.of_kind_cases depth token with ⟨ends, _⟩ | ⟨_, steps⟩
      · exact absurd ends passes.1
      · rw [List.cons_append, skip_member_cons, steps]
        exact ih passes.2 token.span

/-- A `}` is left where skipping comes to it outside of everything, and nowhere else. -/
theorem skip_member_leaves_brace_iff {closer : Token} (closed : closer.kind = .mark .rightBrace)
    (depth : Nat) (previous : Span) (outside : List Token) :
    closer :: outside <:+ (skipMember depth previous (closer :: outside)).2 ↔ depth = 0 := by
  have taken {left : List Token} (suffix : left <:+ outside) : ¬closer :: outside <:+ left := by
    intro whole
    have shorter := (whole.trans suffix).length_le
    rw [List.length_cons] at shorter
    omega
  rw [skip_member_cons, closed]
  match depth with
  | 0 => exact iff_of_true (List.suffix_refl _) rfl
  | 1 => exact iff_of_false (taken (List.suffix_refl outside)) (by decide)
  | depth + 2 =>
      exact iff_of_false (taken (skip_member_leaves _ _ outside).ahead) (Nat.succ_ne_zero _)

/-- As long as skipping goes on, it is nested no deeper than there are braces, parentheses and
brackets open, each counted with its own kind. -/
theorem skip_depth_le {braces round : Nat} (closed : BracesClosed braces inside)
    (passes : ¬EndsAmong depth inside) (within : depth ≤ braces + round) :
    inside.foldl skipDepth depth ≤ inside.foldl roundDepth round := by
  induction inside generalizing depth braces round with
  | nil =>
      change braces = 0 at closed
      change depth ≤ round
      omega
  | cons token inside ih =>
      rw [ends_among_cons, not_or] at passes
      rw [List.foldl_cons, List.foldl_cons]
      have goesOn := passes.1
      rw [BracesClosed] at closed
      split at closed
      · next opens => exact ih closed passes.2 (by simp only [skipDepth, roundDepth, opens]; omega)
      · next closes =>
          simp only [EndsSkipping, closes, true_and, not_or] at goesOn
          exact ih closed.2 passes.2 (by simp only [skipDepth, roundDepth, closes]; omega)
      · next noOpening noClosing =>
          refine ih closed passes.2 ?_
          simp only [skipDepth, roundDepth]
          split <;> simp_all <;> omega

end Cursor

/-! ### The closing brace -/

/-- Skipping a broken member leaves a `}` ahead just where it ended before or is not nested there. It
always leaves the `}` that closes the block around the member if no parenthesis and no bracket is open
there; `inside` is what of the member is in front of it. -/
theorem Cursor.recovery_leaves_brace_iff (cursor : Cursor) {inside outside : List Token}
    {closer : Token} (ahead : cursor.ahead = inside ++ closer :: outside)
    (closed : closer.kind = .mark .rightBrace) :
    (closer :: outside <:+ cursor.recoverMember.ahead ↔
        EndsAmong 0 inside ∨ inside.foldl skipDepth 0 = 0) ∧
      (BracesClosed 0 inside → inside.foldl roundDepth 0 = 0 →
        closer :: outside <:+ cursor.recoverMember.ahead) := by
  have skipped : cursor.recoverMember.ahead =
      (skipMember 0 cursor.previous (inside ++ closer :: outside)).2 := by
    rw [recoverMember, ahead]
  have leaves : closer :: outside <:+ cursor.recoverMember.ahead ↔
      EndsAmong 0 inside ∨ inside.foldl skipDepth 0 = 0 := by
    rw [skipped]
    by_cases ends : EndsAmong 0 inside
    · exact iff_of_true (skip_member_ends ends _ _) (.inl ends)
    · rcases skip_member_passes_over ends cursor.previous (closer :: outside) with ⟨last, comes⟩
      rw [comes, skip_member_leaves_brace_iff closed, or_iff_right ends]
  refine ⟨leaves, fun matched noneOpen => leaves.mpr ?_⟩
  by_cases ends : EndsAmong 0 inside
  · exact .inl ends
  · have depth := skip_depth_le matched ends (Nat.zero_le (0 + 0))
    rw [noneOpen] at depth
    exact .inr (Nat.le_zero.mp depth)

/-- `( [ , ) ]`, and behind it the `}` of the block. -/
theorem crossed_brackets_leave_brace :
    let inside : List Token := [⟨.mark .leftParen, .point 1 1⟩, ⟨.mark .leftBracket, .point 1 2⟩,
      ⟨.mark .comma, .point 1 3⟩, ⟨.mark .rightParen, .point 1 4⟩, ⟨.mark .rightBracket, .point 1 5⟩]
    let closer : Token := ⟨.mark .rightBrace, .point 1 6⟩
    let cursor : Cursor := .ofTokens ⟨"c.graft", ""⟩ (inside ++ [closer])
    closer.kind = .mark .rightBrace ∧ BracesClosed 0 inside ∧ inside.foldl roundDepth 0 = 0 ∧
      [closer] <:+ cursor.recoverMember.ahead ∧
      (EndsAmong 0 inside ∨ inside.foldl skipDepth 0 = 0) := by
  intro inside closer cursor
  have ahead : cursor.ahead = inside ++ [closer] := rfl
  have leaves := cursor.recovery_leaves_brace_iff ahead rfl
  have left := leaves.2 rfl rfl
  exact ⟨rfl, rfl, rfl, left, leaves.1.mp left⟩

/-- In `component c { storage { x ( } }` the `}` of the storage block is the first that no `{` opened
since matches. Skipping from the `(` takes it, the one of the component closes the storage block, and
the component counts as unclosed. -/
theorem open_parenthesis_costs_brace :
    let inside : List Token := [⟨.mark .leftParen, .point 1 27⟩]
    let closer : Token := ⟨.mark .rightBrace, .point 1 29⟩
    let outside : List Token := [⟨.mark .rightBrace, .point 1 31⟩]
    let front : List Token := [⟨.keyword .component, .point 1 1⟩, ⟨.identifier "c", .point 1 11⟩,
      ⟨.mark .leftBrace, .point 1 13⟩, ⟨.keyword .storage, .point 1 15⟩,
      ⟨.mark .leftBrace, .point 1 23⟩, ⟨.identifier "x", .point 1 25⟩]
    let file : SourceFile := ⟨"c.graft", "component c { storage { x ( } }"⟩
    let cursor : Cursor := .ofTokens file (inside ++ closer :: outside)
    cursor.ahead = inside ++ closer :: outside ∧ closer.kind = .mark .rightBrace ∧
      BracesClosed 0 inside ∧ ¬closer :: outside <:+ cursor.recoverMember.ahead ∧
      cursor.recoverMember.ahead = outside ∧
      (file.parseTokens (front ++ (inside ++ closer :: outside))).log.errors.map (·.code) =
        [.unexpectedToken, .unclosedBrace] := by
  refine ⟨rfl, rfl, rfl, ?_, rfl, ?_⟩
  · decide
  · rfl

end Composer
