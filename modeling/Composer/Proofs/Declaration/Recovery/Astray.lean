import Composer.Proofs.Declaration.Pairing.Grammar

/-!
Members that go astray. Before the comma at its end a broken member has plain tokens only: none that
skipping counts, and none that attributes, generics or tuples start with. What reads a member never
gets past that comma, it reports where it stops, and skipping goes just behind the comma.
-/

namespace Composer

/-- A kind that neither ends a member, nor nests, nor starts an attribute or generics. -/
def Plain (kind : TokenKind) : Prop :=
  kind ∉ [TokenKind.mark .comma, .mark .semicolon, .mark .less, .mark .hash, .mark .leftBracket,
    .mark .rightBracket, .mark .leftBrace, .mark .rightBrace, .mark .leftParen, .mark .rightParen,
    .endOfFile]

instance (kind : TokenKind) : Decidable (Plain kind) :=
  inferInstanceAs (Decidable (¬_))

def Cursor.Astray (comma : Token) (others : List Token) (cursor : Cursor) : Prop :=
  ∃ plain, cursor.ahead = plain ++ comma :: others ∧ ∀ token ∈ plain, Plain token.kind

namespace Cursor.Astray

variable {comma : Token} {others : List Token} {cursor : Cursor} {kind : TokenKind}

theorem next (astray : cursor.Astray comma others) :
    ∃ token rest, cursor.ahead = token :: rest ∧ (Plain token.kind ∨ token = comma) := by
  rcases astray with ⟨plain, ahead, fits⟩
  cases plain with
  | nil => exact ⟨comma, others, ahead, .inr rfl⟩
  | cons token plain =>
      exact ⟨token, plain ++ comma :: others, ahead, .inl (fits token List.mem_cons_self)⟩

theorem check_false (astray : cursor.Astray comma others) (isComma : comma.kind = .mark .comma)
    (barred : ¬Plain kind) (other : kind ≠ .mark .comma) : cursor.check kind = false := by
  rcases astray.next with ⟨token, rest, ahead, plain | rfl⟩
  · apply eq_false_of_ne_true
    intro same
    rw [check_iff, kind_of_ahead ahead] at same
    exact barred (same ▸ plain)
  · apply eq_false_of_ne_true
    intro same
    rw [check_iff, kind_of_ahead ahead, isComma] at same
    exact other same.symm

theorem advance (astray : cursor.Astray comma others) (isComma : comma.kind = .mark .comma)
    (other : kind ≠ .mark .comma) (taken : cursor.check kind = true) :
    cursor.advance.Astray comma others := by
  rcases astray with ⟨plain, ahead, fits⟩
  cases plain with
  | nil =>
      rw [check_iff, kind_of_ahead ahead, isComma] at taken
      exact absurd taken.symm other
  | cons token plain =>
      rw [advance_of_ahead ahead]
      exact ⟨plain, rfl, fun token member => fits token (List.mem_cons_of_mem _ member)⟩

/-- Skipping ends just behind the comma. -/
theorem recover (astray : cursor.Astray comma others) (isComma : comma.kind = .mark .comma) :
    cursor.recoverMember.ahead = others := by
  rcases astray with ⟨plain, ahead, fits⟩
  have skipped (previous : Span) : (skipMember 0 previous (plain ++ comma :: others)).2 = others := by
    clear ahead
    induction plain generalizing previous with
    | nil => simp [skipMember, isComma]
    | cons token plain ih =>
        rw [List.forall_mem_cons] at fits
        have later := ih fits.2 token.span
        have here := fits.1
        rw [List.cons_append, skipMember]
        split <;> simp_all [Plain]
  rw [recoverMember, ahead]
  exact skipped cursor.previous

end Cursor.Astray

namespace Parse

variable {Result Other : Type} {comma : Token} {others : List Token}

/-- Started before the comma among plain tokens the action stops there as well, and if it reports an
error, it does so where it stops, and fails. -/
def StaysAstray (comma : Token) (others : List Token) (action : Parse Result) : Prop :=
  ∀ cursor : Cursor, cursor.Astray comma others → (action cursor).2.Astray comma others ∧
    ((action cursor).2.log = cursor.log ∨ (action cursor).1 = none ∧
      ∃ report, (action cursor).2.log = cursor.log.addError report ∧
        report.span = (action cursor).2.span)

namespace StaysAstray

theorem pure (result : Result) : StaysAstray comma others (Pure.pure result) :=
  fun _ astray => ⟨astray, .inl rfl⟩

theorem look (view : Cursor → Result) : StaysAstray comma others (look view) :=
  fun _ astray => ⟨astray, .inl rfl⟩

theorem fail : StaysAstray comma others (fail : Parse Result) :=
  fun _ astray => ⟨astray, .inl rfl⟩

theorem unexpected (message : String) :
    StaysAstray comma others (unexpected message : Parse Result) :=
  fun _ astray => ⟨astray, .inr ⟨rfl, _, rfl, rfl⟩⟩

theorem bind {action : Parse Other} {next : Other → Parse Result}
    (first : StaysAstray comma others action)
    (second : ∀ result, StaysAstray comma others (next result)) :
    StaysAstray comma others (action >>= next) := by
  intro cursor astray
  rcases first cursor astray with ⟨stays, reports⟩
  rcases bind_cases action next cursor with ⟨middle, ran, whole⟩ | ⟨result, middle, ran, whole⟩
  · rw [ran] at stays reports
    rw [whole]
    exact ⟨stays, reports.imp_right fun reported => ⟨rfl, reported.2⟩⟩
  · rw [ran] at stays reports
    rw [whole]
    rcases reports with same | ⟨broken, _⟩
    · rw [← show middle.log = cursor.log from same]
      exact second result middle stays
    · cases broken

theorem ite {condition : Prop} [Decidable condition] {yes no : Parse Result}
    (does : StaysAstray comma others yes) (fails : StaysAstray comma others no) :
    StaysAstray comma others (if condition then yes else no) := by
  split
  · exact does
  · exact fails

theorem spanned (start : Span) (node : Span → Result) :
    StaysAstray comma others (do return node (← spanFrom start)) :=
  .bind (.look _) fun _ => .pure _

section Tokens

variable (isComma : comma.kind = .mark .comma) {kind : TokenKind}
include isComma

theorem eat_else (other : kind ≠ .mark .comma) {yes no : Parse Result}
    (taken : StaysAstray comma others yes) (kept : StaysAstray comma others no) :
    StaysAstray comma others (eat kind >>= fun took => if took = true then yes else no) := by
  intro cursor astray
  rw [eat_else_run]
  split
  · next next =>
      rw [← cursor.log_advance]
      exact taken cursor.advance (astray.advance isComma other next)
  · exact kept cursor astray

/-- The choice by a token that is not among plain ones. -/
theorem eat_no (barred : ¬Plain kind) (other : kind ≠ .mark .comma) {yes no : Parse Result}
    (kept : StaysAstray comma others no) :
    StaysAstray comma others (eat kind >>= fun took => if took = true then yes else no) := by
  intro cursor astray
  rw [eat_else_run, astray.check_false isComma barred other]
  exact kept cursor astray

theorem expect (other : kind ≠ .mark .comma) : StaysAstray comma others (expect kind) :=
  .eat_else isComma other (.look _) (.bind (.look _) fun _ => .unexpected _)

theorem identifier : StaysAstray comma others identifier := by
  intro cursor astray
  rcases identifier_cases cursor with ⟨name, next, ran⟩ | ⟨message, ran⟩
  · rw [ran]
    refine ⟨?_, .inl cursor.log_advance⟩
    exact astray.advance isComma TokenKind.noConfusion next
  · rw [ran]
    exact ⟨astray, .inr ⟨rfl, _, rfl, rfl⟩⟩

theorem led {lead : TokenKind} (other : lead ≠ .mark .comma) {stop : Cursor → Bool}
    {element : Parse Result} (stays : StaysAstray comma others element) (fuel : Nat) :
    StaysAstray comma others (led lead stop element fuel) := by
  induction fuel with
  | zero => exact .fail
  | succ fuel ih =>
      apply eat_else isComma other
      · apply bind (.look _)
        intro stopped
        apply ite (.pure _)
        apply bind stays
        intro node
        apply bind ih
        intro nodes
        exact .pure _
      · exact .pure _

end Tokens

theorem with_fuel {action : Nat → Parse Result}
    (stays : ∀ fuel, StaysAstray comma others (action fuel)) :
    StaysAstray comma others (withFuel action) :=
  fun cursor astray => stays _ cursor astray

/-! ### Members -/

section Members

variable (isComma : comma.kind = .mark .comma)
include isComma

theorem path_with (argument : Parse TypeExpr) :
    StaysAstray comma others (pathWith argument) := by
  apply bind (.look _)
  intro start
  apply bind (.identifier isComma)
  intro name
  apply bind (.with_fuel fun fuel => .led isComma (by decide) (.identifier isComma) fuel)
  intro names
  apply eat_no isComma (by decide) (by decide)
  exact spanned start _

theorem type_within (depth : Nat) : StaysAstray comma others (typeWithin depth) := by
  induction depth with
  | zero => exact .fail
  | succ depth ih =>
      rw [type_within_succ]
      apply bind (.look _)
      intro start
      apply eat_else isComma (by decide)
      · apply bind ih
        intro inner
        exact spanned start _
      · apply eat_no isComma (by decide) (by decide)
        apply bind (.path_with isComma _)
        intro path
        exact .pure _

theorem type : StaysAstray comma others type := .with_fuel (.type_within isComma)

/-- Plain tokens are no attributes. -/
theorem attributes : StaysAstray comma others attributes := by
  apply with_fuel
  intro fuel
  cases fuel with
  | zero => exact .fail
  | succ fuel =>
      apply eat_no isComma (by decide) (by decide)
      exact .pure _

theorem storage_body : StaysAstray comma others storageBody := by
  apply bind (.look _)
  intro start
  apply bind (.attributes isComma)
  intro attributes
  apply bind (.identifier isComma)
  intro name
  apply bind (.expect isComma (by decide))
  intro colon
  apply bind (.type isComma)
  intro type
  exact spanned start _

theorem variant_body : StaysAstray comma others variantBody := by
  apply bind (.look _)
  intro start
  apply bind (.attributes isComma)
  intro attributes
  apply bind (.identifier isComma)
  intro name
  apply eat_else isComma (by decide)
  · apply bind (.type isComma)
    intro payload
    exact spanned start _
  · exact spanned start _

end Members

end StaysAstray

end Parse

end Composer
