import Composer.Proofs.Declaration.Run
import Composer.Proofs.Declaration.Sentence

/-!
A reading that reports nothing has read a sentence.
-/

namespace Composer

namespace Parse

variable {Result Node State Other : Type} {bound : Nat}

abbrev Reading (Result : Type) : Type := Result → List TokenKind → List TokenKind → Prop

def Takes (written : Result → List TokenKind → Prop) : Reading Result :=
  fun result input rest => ∃ kinds, written result kinds ∧ input = kinds ++ rest

/-- An action never takes an error back. With less than `bound` tokens ahead and room in the log, it
reports an error, or else it succeeds, reports nothing, and its result is read off what it took. -/
structure Sound (bound : Nat) (action : Parse Result) (reading : Reading Result) : Prop where
  steady : ∀ cursor, cursor.log.totalErrors ≤ (action cursor).2.log.totalErrors
  clean : ∀ cursor, cursor.ahead.length < bound → cursor.log.isFull = false →
    cursor.log.totalErrors < (action cursor).2.log.totalErrors ∨
      ∃ result after, action cursor = (some result, after) ∧ after.log = cursor.log ∧
        after.ahead.length ≤ cursor.ahead.length ∧ reading result cursor.kinds after.kinds

namespace Sound

theorem within {smaller : Nat} {action : Parse Result} {reading : Reading Result}
    (sound : Sound bound action reading) (le : smaller ≤ bound) : Sound smaller action reading :=
  ⟨sound.steady, fun cursor short => sound.clean cursor (by omega)⟩

theorem mono {action : Parse Result} {reading weaker : Reading Result}
    (sound : Sound bound action reading)
    (implies : ∀ result input rest, reading result input rest → weaker result input rest) :
    Sound bound action weaker := by
  refine ⟨sound.steady, fun cursor short room => ?_⟩
  rcases sound.clean cursor short room with errors | ⟨result, after, ran, log, le, read⟩
  · exact .inl errors
  · exact .inr ⟨result, after, ran, log, le, implies _ _ _ read⟩

/-- An action that reports an error whatever it finds. -/
theorem of_errors {action : Parse Result} {reading : Reading Result}
    (errors : ∀ cursor, cursor.log.totalErrors < (action cursor).2.log.totalErrors) :
    Sound bound action reading :=
  ⟨fun cursor => Nat.le_of_lt (errors cursor), fun cursor _ _ => .inl (errors cursor)⟩

theorem unexpected {message : String} {reading : Reading Result} :
    Sound bound (unexpected message) reading :=
  .of_errors fun cursor => Nat.lt_succ_self cursor.log.totalErrors

theorem unexpected_first {message : String} {next : Result → Parse Other}
    {reading : Reading Other} : Sound bound (Parse.unexpected message >>= next) reading :=
  .of_errors fun cursor => Nat.lt_succ_self cursor.log.totalErrors

theorem report_first {code : ErrorCode} {message : String} {span : Span}
    {reading : Reading Result} :
    Sound bound (do report code message span; fail) reading :=
  .of_errors fun cursor => Nat.lt_succ_self cursor.log.totalErrors

theorem pure {result : Result} {reading : Reading Result}
    (read : ∀ input, reading result input input) : Sound bound (Pure.pure result) reading :=
  ⟨fun _ => Nat.le_refl _, fun cursor _ _ => .inr ⟨result, cursor, rfl, rfl, Nat.le_refl _, read _⟩⟩

theorem returned {result : Result} :
    Sound bound (Pure.pure result) fun other input rest => other = result ∧ rest = input :=
  .pure fun _ => ⟨rfl, rfl⟩

theorem look {view : Cursor → Result} :
    Sound bound (look view) fun _ input rest => rest = input :=
  ⟨fun _ => Nat.le_refl _, fun cursor _ _ => .inr ⟨view cursor, cursor, rfl, rfl, Nat.le_refl _, rfl⟩⟩

theorem kind :
    Sound bound kind fun kind input rest => rest = input ∧ kind = input.headD .endOfFile :=
  ⟨fun _ => Nat.le_refl _, fun cursor _ _ =>
    .inr ⟨cursor.kind, cursor, rfl, rfl, Nat.le_refl _, rfl, cursor.kind_eq_head⟩⟩

theorem check {kind : TokenKind} :
    Sound bound (check kind) fun found input rest =>
      rest = input ∧ (found = true → rest.headD .endOfFile = kind) :=
  ⟨fun _ => Nat.le_refl _, fun cursor _ _ =>
    .inr ⟨cursor.check kind, cursor, rfl, rfl, Nat.le_refl _, rfl, fun found =>
      cursor.kind_eq_head.symm.trans (of_decide_eq_true found)⟩⟩

/-- The reading that is left to the second of two actions is what the first one makes of the goal. -/
theorem bind {action : Parse Result} {next : Result → Parse Other} {first : Reading Result}
    {reading : Reading Other} (before : Sound bound action first)
    (behind : ∀ result, Sound bound (next result) fun other middle rest =>
      ∀ input, first result input middle → reading other input rest) :
    Sound bound (action >>= next) reading := by
  constructor
  · intro cursor
    exact bind_stops (fun after => cursor.log.totalErrors ≤ after.log.totalErrors)
      (before.steady cursor) fun result middle grows =>
        Nat.le_trans grows ((behind result).steady middle)
  · intro cursor short room
    rcases before.clean cursor short room with errors | ⟨result, middle, ran, log, le, read⟩
    · left
      exact bind_stops (fun after => cursor.log.totalErrors < after.log.totalErrors) errors
        fun result middle more => Nat.lt_of_lt_of_le more ((behind result).steady middle)
    · rw [bind_of_some ran]
      have later := (behind result).clean middle (by omega) (by rw [log]; exact room)
      rcases later with errors | ⟨other, after, ranOn, same, shorter, readOn⟩
      · rw [log] at errors
        exact .inl errors
      · exact .inr ⟨other, after, ranOn, same.trans log, Nat.le_trans shorter le, readOn _ read⟩

theorem ite {condition : Prop} [Decidable condition] {yes no : Parse Result}
    {reading : Reading Result} (holds : condition → Sound bound yes reading)
    (fails : ¬condition → Sound bound no reading) :
    Sound bound (if condition then yes else no) reading := by
  split
  · next h => exact holds h
  · next h => exact fails h

/-! ### Tokens -/

section Tokens

variable {kind : TokenKind}

/-- The choice by whether a certain token comes next. -/
theorem eat_else (real : kind ≠ .endOfFile) {yes no : Parse Result} {reading : Reading Result}
    (taken : Sound (bound - 1) yes fun result middle rest => reading result (kind :: middle) rest)
    (other : Sound bound no fun result input rest =>
      input.headD .endOfFile ≠ kind → reading result input rest) :
    Sound bound (eat kind >>= fun took => if took = true then yes else no) reading := by
  constructor
  · intro cursor
    rw [eat_else_run]
    split
    · simpa using taken.steady cursor.advance
    · exact other.steady cursor
  · intro cursor short room
    rw [eat_else_run]
    by_cases ahead : cursor.check kind = true
    · rw [if_pos ahead]
      obtain ⟨sameLog, _, fewer⟩ := Cursor.advance_takes real ahead
      have later := taken.clean cursor.advance (by omega) (by rw [sameLog]; exact room)
      rw [sameLog] at later
      rcases later with errors | ⟨result, after, ranOn, log, le, read⟩
      · exact .inl errors
      · rw [Cursor.kinds_of_check real ahead]
        exact .inr ⟨result, after, ranOn, log, by omega, read⟩
    · rw [if_neg ahead]
      rcases other.clean cursor short room with errors | ⟨result, after, ranOn, log, le, read⟩
      · exact .inl errors
      · refine .inr ⟨result, after, ranOn, log, le, read ?_⟩
        rw [← cursor.kind_eq_head]
        exact fun same => ahead (decide_eq_true same)

theorem eat (real : kind ≠ .endOfFile) :
    Sound bound (eat kind) fun took input rest =>
      took = true ∧ input = kind :: rest ∨ took = false ∧ rest = input := by
  refine ⟨fun cursor => ?_, fun cursor _ _ => .inr ?_⟩
  · rw [Parse.eat]
    split
    · exact Nat.le_of_eq (congrArg ReportLog.totalErrors cursor.log_advance.symm)
    · exact Nat.le_refl _
  · rw [Parse.eat]
    split
    · next ahead =>
        obtain ⟨sameLog, suffix, _⟩ := Cursor.advance_takes real ahead
        exact ⟨true, cursor.advance, rfl, sameLog, suffix.length_le,
          .inl ⟨rfl, Cursor.kinds_of_check real ahead⟩⟩
    · exact ⟨false, cursor, rfl, rfl, Nat.le_refl _, .inr ⟨rfl, rfl⟩⟩

theorem expect (real : kind ≠ .endOfFile) :
    Sound bound (expect kind) fun _ input rest => input = kind :: rest := by
  refine .eat_else real (look.mono ?_) (.bind .kind fun _ => .unexpected)
  rintro _ middle _ rfl
  rfl

theorem word (spelling : String) :
    Sound bound (word spelling) fun _ input rest => input = .identifier spelling :: rest := by
  refine .eat_else (by simp) (look.mono ?_) (.bind .kind fun _ => .unexpected)
  rintro _ middle _ rfl
  rfl

theorem identifier : Sound bound identifier (Takes Ident.Written) := by
  constructor
  · intro cursor
    rcases identifier_cases cursor with ⟨name, _, ran⟩ | ⟨message, ran⟩
    · rw [ran]
      exact Nat.le_of_eq (congrArg ReportLog.totalErrors cursor.log_advance.symm)
    · rw [ran]
      exact Nat.le_succ cursor.log.totalErrors
  · intro cursor _ _
    rcases identifier_cases cursor with ⟨name, next, ran⟩ | ⟨message, ran⟩
    · obtain ⟨log, suffix, _⟩ := Cursor.advance_takes TokenKind.noConfusion next
      have kinds := Cursor.kinds_of_check TokenKind.noConfusion next
      exact .inr ⟨_, _, ran, log, suffix.length_le, _, rfl, kinds⟩
    · rw [ran]
      exact .inl (Nat.lt_succ_self cursor.log.totalErrors)

end Tokens

/-! ### Repetition -/

theorem with_fuel {action : Nat → Parse Result} {reading : Reading Result}
    (sound : ∀ fuel, Sound (min bound fuel) (action fuel) reading) :
    Sound bound (withFuel action) reading := by
  refine ⟨fun cursor => (sound _).steady cursor, fun cursor short room => ?_⟩
  exact (sound (cursor.ahead.length + 1)).clean cursor (by omega) room

section Repetition

variable {element : Parse Node} {written : Node → List TokenKind → Prop}

theorem led {lead : TokenKind} (real : lead ≠ .endOfFile) {stop : Cursor → Bool} {mayTrail : Prop}
    (stops : ∀ cursor, stop cursor = true → mayTrail)
    (sound : Sound bound element (Takes written)) (fuel : Nat) :
    Sound (min bound fuel) (led lead stop element fuel) (Takes (Led lead mayTrail written)) := by
  induction fuel generalizing bound with
  | zero => exact ⟨fun _ => Nat.le_refl _, fun cursor short _ => by omega⟩
  | succ fuel ih =>
      have looked : ∀ bound, Sound bound (Parse.look stop) fun stopped input rest =>
          rest = input ∧ (stopped = true → mayTrail) := fun bound =>
        ⟨fun _ => Nat.le_refl _, fun cursor _ _ =>
          .inr ⟨stop cursor, cursor, rfl, rfl, Nat.le_refl _, rfl, stops cursor⟩⟩
      refine .eat_else real ?_ ?_
      · refine .bind (looked _) fun stopped => .ite (fun holds => .pure ?_) fun _ => ?_
        · rintro rest input ⟨rfl, trails⟩
          exact ⟨[lead], .trailing (trails holds), rfl⟩
        · refine .bind (sound.within (by omega)) fun first =>
            .bind ((@ih bound sound).within (by omega)) fun others => .pure ?_
          rintro rest _ ⟨later, ledLater, rfl⟩ _ ⟨here, writtenFirst, rfl⟩ input ⟨rfl, _⟩
          exact ⟨_, .cons writtenFirst ledLater, by simp⟩
      · exact .pure fun input _ => ⟨[], .nil, rfl⟩

theorem up_to {close : TokenKind} (sound : Sound bound element (Takes written)) (fuel : Nat) :
    Sound (min bound fuel) (upTo close element fuel) (Takes (CommaList written)) := by
  induction fuel generalizing bound with
  | zero => exact ⟨fun _ => Nat.le_refl _, fun cursor short _ => by omega⟩
  | succ fuel ih =>
      refine .bind .look fun stopped => .ite (fun _ => .pure ?_) fun _ => ?_
      · rintro input _ rfl
        exact ⟨[], .nil, rfl⟩
      · refine .bind (sound.within (by omega)) fun first => .eat_else (by simp) ?_ (.pure ?_)
        · refine .bind ((@ih bound sound).within (by omega)) fun others => .pure ?_
          rintro rest _ ⟨later, list, rfl⟩ _ ⟨here, writtenFirst, rfl⟩ _ rfl
          exact ⟨_, .cons writtenFirst list, by simp⟩
        · rintro rest _ _ ⟨here, writtenFirst, rfl⟩ _ rfl
          exact ⟨here, .last writtenFirst, rfl⟩

theorem all_led {lead : TokenKind} (real : lead ≠ .endOfFile)
    (sound : Sound bound element (Takes written)) :
    Sound bound (withFuel (Parse.led lead (fun _ => false) element))
      (Takes (Led lead False written)) :=
  .with_fuel fun fuel => .led real (fun _ => nofun) sound fuel

theorem trailing_led {lead close : TokenKind} (real : lead ≠ .endOfFile)
    (sound : Sound bound element (Takes written)) :
    Sound bound (withFuel (Parse.led lead (·.check close) element))
      (Takes (Led lead True written)) :=
  .with_fuel fun fuel => .led real (fun _ _ => trivial) sound fuel

theorem comma_list {close : TokenKind} (sound : Sound bound element (Takes written)) :
    Sound bound (withFuel (upTo close element)) (Takes (CommaList written)) :=
  .with_fuel fun fuel => .up_to sound fuel

end Repetition

end Sound

/-! ### Blocks -/

/-- The states that a block goes through, from the kinds behind its `{` to those at its `}`. -/
inductive Steps (advance : State → Reading State) :
    State → State → List TokenKind → List TokenKind → Prop
  | done {state : State} {input : List TokenKind} : Steps advance state state input input
  | step {first second last : State} {input middle rest : List TokenKind} :
      input.headD .endOfFile ≠ .mark .rightBrace → advance first second input middle →
        Steps advance second last middle rest → Steps advance first last input rest

namespace Sound

section Blocks

variable {step : State → Parse State} {advance : State → Reading State}

/-- Members take no error back if none of them does. -/
theorem members_steady
    (steady : ∀ state cursor, cursor.log.totalErrors ≤ (step state cursor).2.log.totalErrors)
    (fuel : Nat) (state : State) (cursor : Cursor) :
    cursor.log.totalErrors ≤ (Parse.members step fuel state cursor).2.log.totalErrors := by
  have stopped := members_hold step (fun _ after => cursor.log.totalErrors ≤ after.log.totalErrors)
    ?reads ?skips fuel state cursor (Nat.le_refl _)
  · obtain ⟨_, grows, _⟩ := stopped
    exact grows
  case reads =>
    intro state before next after _ grows ran
    have here := steady state before
    rw [ran] at here
    exact Nat.le_trans grows here
  case skips =>
    intro state before after _ grows ran
    have here := steady state before
    rw [ran] at here
    exact Nat.le_trans grows here

theorem members (sound : ∀ state bound, Sound bound (step state) (advance state))
    (shrinks : ∀ first second input rest, advance first second input rest →
      rest.length < input.length) (fuel : Nat) (state : State) :
    Sound fuel (members step fuel state) fun last input rest =>
      Steps advance state last input rest := by
  have steady := members_steady fun state => (sound state 0).steady
  induction fuel generalizing state with
  | zero => exact ⟨steady 0 state, fun cursor short _ => by omega⟩
  | succ fuel ih =>
      refine ⟨steady (fuel + 1) state, ?_⟩
      intro cursor short room
      by_cases closed : (cursor.check (.mark .rightBrace) || cursor.atEnd) = true
      · rw [members_succ, if_pos closed]
        exact .inr ⟨state, cursor, rfl, rfl, Nat.le_refl _, .done⟩
      · have here := (sound state (fuel + 1)).clean cursor short room
        rcases members_round step fuel state closed room with
          ⟨second, after, ran, goesOn⟩ | ⟨after, ran, goesOn⟩
        · rw [ran] at here
          rw [goesOn]
          rcases here with errors | ⟨_, _, read, log, le, advanced⟩
          · exact .inl (Nat.lt_of_lt_of_le errors (steady fuel second after))
          · cases read
            have less := shrinks _ _ _ _ advanced
            rw [Cursor.length_kinds, Cursor.length_kinds] at less
            have later := (ih second).clean after (by omega) (by rw [log]; exact room)
            rcases later with errors | ⟨last, stop, ranOn, same, shorter, steps⟩
            · rw [log] at errors
              exact .inl errors
            · refine .inr ⟨last, stop, ranOn, same.trans log, Nat.le_trans shorter le,
                .step ?_ advanced steps⟩
              rw [← cursor.kind_eq_head]
              intro closes
              simp [Cursor.check, closes] at closed
        · rw [ran] at here
          rw [goesOn]
          rcases here with errors | ⟨_, _, read, _⟩
          · exact .inl (Nat.lt_of_lt_of_le errors (steady fuel state after.recoverMember))
          · cases read

theorem closing {opened : Span} :
    Sound bound (closing opened) fun _ input rest => input = .mark .rightBrace :: rest :=
  .eat_else (by simp) (.pure fun _ => rfl)
    (.of_errors fun cursor => Nat.lt_succ_self cursor.log.totalErrors)

theorem block (sound : ∀ state bound, Sound bound (step state) (advance state))
    (shrinks : ∀ first second input rest, advance first second input rest →
      rest.length < input.length) (initial : State) :
    Sound bound (block step initial) fun last input rest =>
      ∃ body, input = .mark .leftBrace :: body ∧
        Steps advance initial last body (.mark .rightBrace :: rest) := by
  refine .bind (expect (by simp)) fun opened => .bind (with_fuel fun fuel =>
    (members sound shrinks fuel initial).within (by omega)) fun last =>
      .bind closing fun _ => .pure ?_
  rintro rest _ rfl body steps input rfl
  exact ⟨body, rfl, steps⟩

end Blocks

end Sound

end Parse

end Composer
