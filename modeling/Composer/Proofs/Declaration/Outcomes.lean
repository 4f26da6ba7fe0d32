import Composer.Proofs.Declaration.Invariants

/-!
How actions end. One that reads a construct takes tokens and reports nothing; one that cannot read it
makes one report, and the cursor is never behind the place where it started. Lists and nested types
are read with as much fuel as there are tokens ahead, so none of them ends for want of fuel, which
would leave no report.
-/

namespace Composer

namespace Parse

variable {Result Other : Type} {bound least : Nat}

/-- With less than `bound` tokens ahead the action succeeds without a report and has taken `least`
tokens or more, or it fails with one report. What is ahead of it is some of what was ahead before. -/
structure Settles (bound least : Nat) (action : Parse Result) : Prop where
  ahead (cursor : Cursor) : (action cursor).2.ahead <:+ cursor.ahead
  read {cursor after : Cursor} {result : Result} : action cursor = (some result, after) →
    after.log = cursor.log ∧ after.ahead.length + least ≤ cursor.ahead.length
  failed {cursor after : Cursor} : cursor.ahead.length < bound → action cursor = (none, after) →
    ∃ report, after.log = cursor.log.addError report

namespace Settles

theorem within {action : Parse Result} {smaller fewer : Nat} (settles : Settles bound least action)
    (below : smaller ≤ bound) (weaker : fewer ≤ least) : Settles smaller fewer action := by
  constructor
  · exact settles.ahead
  · intro cursor after result ran
    obtain ⟨log, taken⟩ := settles.read ran
    exact ⟨log, by omega⟩
  · intro cursor after short ran
    exact settles.failed (Nat.lt_of_lt_of_le short below) ran

/-- What runs out of fuel fails without a report; a bound of no tokens leaves that open. -/
theorem out_of_fuel : Settles 0 least (fail : Parse Result) := by
  constructor
  · intro cursor
    exact List.suffix_refl _
  · intro cursor after result ran
    cases ran
  · intro cursor after short ran
    exact absurd short (Nat.not_lt_zero _)

theorem pure (result : Result) : Settles bound 0 (Pure.pure result) := by
  constructor
  · intro cursor
    exact List.suffix_refl _
  · intro cursor after other ran
    cases ran
    exact ⟨rfl, Nat.le_refl _⟩
  · intro cursor after short ran
    cases ran

theorem look (view : Cursor → Result) : Settles bound 0 (look view) := by
  constructor
  · intro cursor
    exact List.suffix_refl _
  · intro cursor after other ran
    cases ran
    exact ⟨rfl, Nat.le_refl _⟩
  · intro cursor after short ran
    cases ran

/-- An action that makes one report and fails. -/
theorem of_report {action : Parse Result} (code : Cursor → ErrorCode) (message : Cursor → String)
    (span : Cursor → Span)
    (reports : ∀ cursor, action cursor =
      (none, cursor.report (code cursor) (message cursor) (span cursor))) :
    Settles bound least action := by
  constructor
  · intro cursor
    rw [reports]
    exact List.suffix_refl _
  · intro cursor after result ran
    rw [reports] at ran
    cases ran
  · intro cursor after short ran
    rw [reports] at ran
    cases ran
    exact ⟨_, rfl⟩

theorem report_first (code : ErrorCode) (message : String) (span : Span) :
    Settles bound least (do report code message span; fail : Parse Result) :=
  .of_report (fun _ => code) (fun _ => message) (fun _ => span) fun _ => rfl

theorem unexpected (message : String) :
    Settles bound least (unexpected message : Parse Result) :=
  .of_report (fun _ => .unexpectedToken) (fun _ => message) Cursor.span fun _ => rfl

theorem unexpected_first (message : String) (next : Other → Parse Result) :
    Settles bound least (Parse.unexpected message >>= next) :=
  .of_report (fun _ => .unexpectedToken) (fun _ => message) Cursor.span fun _ => rfl

theorem bind {action : Parse Other} {next : Other → Parse Result} {taken : Nat}
    (first : Settles bound taken action)
    (second : ∀ result, Settles (bound - taken) (least - taken) (next result)) :
    Settles bound least (action >>= next) := by
  constructor
  · intro cursor
    exact bind_stops (fun after => after.ahead <:+ cursor.ahead) (first.ahead cursor)
      fun result middle before => ((second result).ahead middle).trans before
  · intro cursor after result ran
    obtain ⟨other, middle, started, goesOn⟩ := bind_succeeded ran
    obtain ⟨log, less⟩ := first.read started
    obtain ⟨sameLog, lesser⟩ := (second other).read goesOn
    exact ⟨sameLog.trans log, by omega⟩
  · intro cursor after short ran
    rcases bind_cases action next cursor with ⟨middle, started, whole⟩ | ⟨other, middle, started, whole⟩
    · rw [whole] at ran
      cases ran
      exact first.failed short started
    · rw [whole] at ran
      obtain ⟨log, less⟩ := first.read started
      rw [← log]
      exact (second other).failed (by omega) ran

theorem ite {condition : Prop} [Decidable condition] {yes no : Parse Result}
    (does : Settles bound least yes) (fails : Settles bound least no) :
    Settles bound least (if condition then yes else no) := by
  split
  · exact does
  · exact fails

/-! ### Tokens -/

section Tokens

variable {kind : TokenKind}

/-- The choice by whether a certain token comes next. -/
theorem eat_else (real : kind ≠ .endOfFile) {yes no : Parse Result}
    (taken : Settles (bound - 1) (least - 1) yes) (other : Settles bound least no) :
    Settles bound least (eat kind >>= fun took => if took = true then yes else no) := by
  constructor
  · intro cursor
    rw [eat_else_run]
    split
    · next next =>
        exact (taken.ahead _).trans (Cursor.advance_takes real next).2.1
    · exact other.ahead cursor
  · intro cursor after result ran
    rw [eat_else_run] at ran
    split at ran
    · next next =>
        obtain ⟨log, _, fewer⟩ := Cursor.advance_takes real next
        obtain ⟨sameLog, less⟩ := taken.read ran
        exact ⟨sameLog.trans log, by omega⟩
    · exact other.read ran
  · intro cursor after short ran
    rw [eat_else_run] at ran
    split at ran
    · next next =>
        obtain ⟨log, _, fewer⟩ := Cursor.advance_takes real next
        rw [← log]
        exact taken.failed (by omega) ran
    · exact other.failed short ran

theorem eat (real : kind ≠ .endOfFile) : Settles bound 0 (eat kind) := by
  constructor
  · intro cursor
    rw [Parse.eat]
    split
    · next next => exact (Cursor.advance_takes real next).2.1
    · exact List.suffix_refl _
  · intro cursor after took ran
    rw [Parse.eat] at ran
    split at ran
    · next next =>
        cases ran
        obtain ⟨log, _, fewer⟩ := Cursor.advance_takes real next
        exact ⟨log, by omega⟩
    · cases ran
      exact ⟨rfl, Nat.le_refl _⟩
  · intro cursor after short ran
    rw [Parse.eat] at ran
    split at ran
    · cases ran
    · cases ran

theorem expect (real : kind ≠ .endOfFile) : Settles bound 1 (expect kind) := by
  apply eat_else real
  · exact look _
  · apply bind (look _)
    intro found
    exact unexpected _

theorem expect_mark (sign : Mark) : Settles bound 1 (Parse.expect (.mark sign)) :=
  .expect TokenKind.noConfusion

theorem expect_keyword (word : Keyword) : Settles bound 1 (Parse.expect (.keyword word)) :=
  .expect TokenKind.noConfusion

theorem word (spelling : String) : Settles bound 1 (word spelling) := by
  apply eat_else TokenKind.noConfusion
  · exact look _
  · apply bind (look _)
    intro found
    exact unexpected _

theorem identifier : Settles bound 1 identifier := by
  have taken : ∀ {cursor : Cursor} {name : String}, cursor.check (.identifier name) = true → _ :=
    Cursor.advance_takes TokenKind.noConfusion
  constructor
  · intro cursor
    rcases identifier_cases cursor with ⟨name, next, ran⟩ | ⟨message, ran⟩
    · rw [ran]
      exact (taken next).2.1
    · rw [ran]
      exact List.suffix_refl _
  · intro cursor after ident outcome
    rcases identifier_cases cursor with ⟨name, next, ran⟩ | ⟨message, ran⟩
    · rw [ran] at outcome
      cases outcome
      exact ⟨(taken next).1, Nat.le_of_eq (taken next).2.2⟩
    · rw [ran] at outcome
      cases outcome
  · intro cursor after short outcome
    rcases identifier_cases cursor with ⟨name, next, ran⟩ | ⟨message, ran⟩
    · rw [ran] at outcome
      cases outcome
    · rw [ran] at outcome
      cases outcome
      exact ⟨_, rfl⟩

end Tokens

/-! ### Repetition -/

theorem with_fuel {action : Nat → Parse Result}
    (settles : ∀ fuel, Settles (min bound fuel) least (action fuel)) :
    Settles bound least (withFuel action) := by
  constructor
  · intro cursor
    exact (settles _).ahead cursor
  · intro cursor after result ran
    exact (settles _).read ran
  · intro cursor after short ran
    apply (settles (cursor.ahead.length + 1)).failed _ ran
    omega

section Repetition

variable {element : Parse Result}

theorem led {lead : TokenKind} (real : lead ≠ .endOfFile) (stop : Cursor → Bool)
    (settles : Settles bound 0 element) (fuel : Nat) :
    Settles (min bound fuel) 0 (led lead stop element fuel) := by
  induction fuel with
  | zero => exact out_of_fuel.within (Nat.min_le_right _ _) (Nat.le_refl _)
  | succ fuel ih =>
      apply eat_else real
      · apply bind (look stop)
        intro stopped
        apply ite
        · exact pure []
        · apply bind (settles.within (by omega) (Nat.le_refl _))
          intro first
          apply bind (ih.within (by omega) (Nat.le_refl _))
          intro others
          exact pure _
      · exact pure []

theorem up_to {close : TokenKind} (settles : Settles bound 0 element) (fuel : Nat) :
    Settles (min bound fuel) 0 (upTo close element fuel) := by
  induction fuel with
  | zero => exact out_of_fuel.within (Nat.min_le_right _ _) (Nat.le_refl _)
  | succ fuel ih =>
      apply bind (look _)
      intro stopped
      apply ite
      · exact pure []
      · apply bind (settles.within (by omega) (Nat.le_refl _))
        intro first
        apply eat_else TokenKind.noConfusion
        · apply bind (ih.within (by omega) (Nat.le_refl _))
          intro others
          exact pure _
        · exact pure _

theorem all_led {lead : TokenKind} (real : lead ≠ .endOfFile) (stop : Cursor → Bool)
    (settles : Settles bound 0 element) :
    Settles bound 0 (withFuel (Parse.led lead stop element)) :=
  .with_fuel fun fuel => .led real stop settles fuel

theorem comma_list {close : TokenKind} (settles : Settles bound 0 element) :
    Settles bound 0 (withFuel (upTo close element)) :=
  .with_fuel fun fuel => .up_to settles fuel

end Repetition

/-! ### Types -/

theorem path_with {argument : Parse TypeExpr} (settles : Settles (bound - 1) 0 argument) :
    Settles bound 1 (pathWith argument) := by
  refine .bind (.look _) fun _ => .bind .identifier fun _ =>
    .bind (.all_led TokenKind.noConfusion _ (.within .identifier (Nat.le_refl _) (Nat.zero_le _)))
      fun _ => ?_
  apply eat_else TokenKind.noConfusion
  · exact .bind (settles.within (by omega) (Nat.le_refl _)) fun _ =>
      .bind (.all_led TokenKind.noConfusion _ (settles.within (by omega) (Nat.le_refl _))) fun _ =>
        .bind (.expect_mark _) fun _ => .bind (.pure _) fun _ =>
          .bind (.look _) fun _ => .pure _
  · exact .bind (.pure _) fun _ => .bind (.look _) fun _ => .pure _

theorem type_within (depth : Nat) : Settles depth 1 (typeWithin depth) := by
  induction depth with
  | zero => exact out_of_fuel
  | succ depth ih =>
      have element := ih.within (Nat.le_refl _) (Nat.zero_le 1)
      rw [type_within_succ]
      refine .bind (.look _) fun _ => ?_
      apply eat_else TokenKind.noConfusion
      · exact .bind element fun _ => .bind (.look _) fun _ => .pure _
      · apply eat_else TokenKind.noConfusion
        · exact .bind (.comma_list element) fun _ => .bind (.expect_mark _) fun _ =>
            .bind (.look _) fun _ => .pure _
        · exact .bind (.path_with element) fun _ => .pure _

theorem type : Settles bound 1 type :=
  .with_fuel fun fuel => (type_within fuel).within (Nat.min_le_right _ _) (Nat.le_refl _)

theorem path : Settles bound 1 path :=
  .path_with (type.within (Nat.le_refl _) (Nat.zero_le _))

/-! ### Attributes and methods -/

theorem attribute_body : Settles bound 0 attributeBody := by
  refine .bind (.look _) fun _ => .bind (.expect_mark _) fun _ =>
    .bind .identifier fun _ => ?_
  apply eat_else TokenKind.noConfusion
  · exact .bind (.comma_list (.within .identifier (Nat.le_refl _) (Nat.zero_le _))) fun _ =>
      .bind (.expect_mark _) fun _ => .bind (.pure _) fun _ =>
        .bind (.expect_mark _) fun _ => .bind (.look _) fun _ => .pure _
  · exact .bind (.pure _) fun _ => .bind (.expect_mark _) fun _ =>
      .bind (.look _) fun _ => .pure _

theorem attributes : Settles bound 0 attributes :=
  .all_led TokenKind.noConfusion _ .attribute_body

theorem receiver : Settles bound 1 receiver := by
  refine .bind (.look _) fun _ => .bind (.eat TokenKind.noConfusion) fun isReference => ?_
  apply eat_else TokenKind.noConfusion
  · refine .bind (.expect_mark _) fun _ => .bind .type fun type => ?_
    split
    · exact .report_first _ _ _
    · exact .bind (.look _) fun _ => .pure _
    · exact .bind (.look _) fun _ => .pure _
    · exact .report_first _ _ _
  · exact .bind (.look _) fun _ => .unexpected_first _ _

theorem param : Settles bound 1 param :=
  .bind (.look _) fun _ => .bind .identifier fun _ => .bind (.expect_mark _) fun _ =>
    .bind .type fun _ => .bind (.look _) fun _ => .pure _

theorem method : Settles bound 1 method := by
  refine .bind (.look _) fun _ => .bind (.expect_keyword _) fun _ =>
    .bind .identifier fun _ => .bind (.expect_mark _) fun _ =>
      .bind .receiver fun _ =>
        .bind (.all_led TokenKind.noConfusion _ (.within .param (Nat.le_refl _) (Nat.zero_le _)))
          fun _ => .bind (.expect_mark _) fun _ => ?_
  apply eat_else TokenKind.noConfusion
  · exact .bind .type fun _ => .bind (.pure _) fun _ => .bind (.expect_mark _)
      fun _ => .bind (.look _) fun _ => .pure _
  · exact .bind (.pure _) fun _ => .bind (.expect_mark _) fun _ =>
      .bind (.look _) fun _ => .pure _

/-! ### Members -/

theorem end_of_member : Settles bound 0 endOfMember := by
  apply eat_else TokenKind.noConfusion
  · exact .pure _
  · exact .bind (.look _) fun _ => .ite (.pure _)
      (.bind (.expect_mark _) fun _ => .pure _)

theorem storage_member : Settles bound 1 storageMember :=
  .bind (.look _) fun _ => .bind .attributes fun _ => .bind .identifier fun _ =>
    .bind (.expect_mark _) fun _ => .bind .type fun _ => .bind (.look _) fun _ =>
      .bind .end_of_member fun _ => .pure _

theorem event_variant : Settles bound 1 eventVariant := by
  refine .bind (.look _) fun _ => .bind .attributes fun _ => .bind .identifier fun _ => ?_
  apply eat_else TokenKind.noConfusion
  · exact .bind .type fun _ => .bind (.pure _) fun _ => .bind (.look _) fun _ =>
      .bind .end_of_member fun _ => .pure _
  · exact .bind (.pure _) fun _ => .bind (.look _) fun _ => .bind .end_of_member fun _ => .pure _

theorem start_behind (attributes : List Attribute) : Settles bound 0 (startBehind attributes) := by
  rw [startBehind]
  split
  · exact .pure _
  · exact .look _

theorem inclusion : Settles bound 1 inclusion :=
  .bind (.look _) fun _ => .bind (.expect_keyword _) fun _ => .bind (.expect_mark _) fun _ =>
    .bind (.expect_mark _) fun _ => .bind (.word _) fun _ => .bind (.expect_mark _) fun _ =>
    .bind .identifier fun _ => .bind (.expect_mark _) fun _ => .bind (.expect_keyword _) fun _ =>
    .bind (.expect_mark _) fun _ => .bind .identifier fun _ => .bind (.expect_mark _) fun _ =>
    .bind (.expect_keyword _) fun _ => .bind (.expect_mark _) fun _ => .bind .identifier fun _ =>
    .bind (.eat TokenKind.noConfusion) fun _ => .bind (.expect_mark _) fun _ =>
    .bind (.look _) fun _ => .bind (.expect_mark _) fun _ => .pure _

theorem exposure (attributes : List Attribute) : Settles bound 1 (exposure attributes) :=
  .bind (.start_behind attributes) fun _ => .bind (.expect_keyword _) fun _ =>
    .bind .identifier fun _ => .bind (.expect_mark _) fun _ => .bind .path fun _ =>
      .bind (.expect_mark _) fun _ => .bind (.look _) fun _ => .pure _

theorem unexpected_member (attributes : List Attribute) (expected : String) (found : TokenKind) :
    Settles bound least (unexpectedMember attributes expected found : Parse Result) := by
  cases attributes with
  | nil => exact .unexpected _
  | cons first others => exact .unexpected _

end Settles

end Parse

end Composer
