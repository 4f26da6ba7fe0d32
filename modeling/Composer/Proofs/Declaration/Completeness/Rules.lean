import Composer.Proofs.Declaration.Run
import Composer.Proofs.Declaration.Sentence

/-!
What an action accepts, by the kinds ahead of it, and how that is put together. A rule says what
must stand behind a construct, so that reading does not go on into what follows.
-/

namespace Composer

namespace Parse

variable {Result Node State Other : Type}

/-- With `input` ahead and room in the log, the action succeeds with a result as it is wanted, leaves
`rest` ahead and reports nothing. -/
def Accepts (action : Parse Result) (input : List TokenKind) (wanted : Result → Prop)
    (rest : List TokenKind) : Prop :=
  ∀ cursor : Cursor, cursor.kinds = input → cursor.log.isFull = false →
    ∃ result after, action cursor = (some result, after) ∧ wanted result ∧ after.kinds = rest ∧
      after.log = cursor.log

/-- The action reads back what is written, up to spans, wherever `follows` holds behind it. -/
def Completes (action : Parse Node) (bare : Node → Node) (written : Node → List TokenKind → Prop)
    (follows : List TokenKind → Prop) : Prop :=
  ∀ ⦃node kinds rest⦄, written node kinds → follows rest →
    Accepts action (kinds ++ rest) (fun result => bare result = bare node) rest

namespace Accepts

variable {wanted : Result → Prop} {input rest : List TokenKind}

theorem bind {action : Parse Result} {next : Result → Parse Other} {middle : List TokenKind}
    {goal : Other → Prop} (before : Accepts action input wanted middle)
    (behind : ∀ result, wanted result → Accepts (next result) middle goal rest) :
    Accepts (action >>= next) input goal rest := by
  intro cursor kinds room
  obtain ⟨result, between, ran, isWanted, taken, log⟩ := before cursor kinds room
  obtain ⟨other, after, ranOn, isGoal, left, same⟩ :=
    behind result isWanted between taken (by rw [log]; exact room)
  exact ⟨other, after, (bind_of_some ran).trans ranOn, isGoal, left, same.trans log⟩

theorem any {action : Parse Result} (accepts : Accepts action input wanted rest) :
    Accepts action input (fun _ => True) rest := by
  intro cursor kinds room
  obtain ⟨result, after, ran, _, left⟩ := accepts cursor kinds room
  exact ⟨result, after, ran, trivial, left⟩

theorem pure {result : Result} (holds : wanted result) :
    Accepts (Pure.pure result) input wanted input :=
  fun cursor kinds _ => ⟨result, cursor, rfl, holds, kinds, rfl⟩

theorem returned {result : Result} : Accepts (Pure.pure result) input (· = result) input :=
  .pure rfl

theorem look {view : Cursor → Result} : Accepts (look view) input (fun _ => True) input :=
  fun cursor kinds _ => ⟨view cursor, cursor, rfl, trivial, kinds, rfl⟩

theorem kind : Accepts kind input (· = input.headD .endOfFile) input := by
  intro cursor kinds _
  exact ⟨cursor.kind, cursor, rfl, kinds ▸ cursor.kind_eq_head, kinds, rfl⟩

theorem check {kind : TokenKind} :
    Accepts (check kind) input (fun found => found = true ↔ input.headD .endOfFile = kind)
      input := by
  intro cursor kinds _
  refine ⟨cursor.check kind, cursor, rfl, ?_, kinds, rfl⟩
  rw [← kinds, ← cursor.kind_eq_head]
  exact Cursor.check_iff

/-- The choice by a view of the cursor that holds. -/
theorem look_yes {view : Cursor → Bool} {yes no : Parse Result}
    (holds : ∀ cursor : Cursor, cursor.kinds = input → view cursor = true)
    (taken : Accepts yes input wanted rest) :
    Accepts (Parse.look view >>= fun found => if found = true then yes else no) input wanted
      rest := by
  intro cursor kinds room
  obtain ⟨result, after, ran, isWanted⟩ := taken cursor kinds room
  refine ⟨result, after, ?_, isWanted⟩
  rw [bind_of_some (show Parse.look view cursor = (some (view cursor), cursor) from rfl),
    if_pos (holds cursor kinds), ran]

/-- The choice by a view of the cursor that fails. -/
theorem look_no {view : Cursor → Bool} {yes no : Parse Result}
    (fails : ∀ cursor : Cursor, cursor.kinds = input → view cursor = false)
    (left : Accepts no input wanted rest) :
    Accepts (Parse.look view >>= fun found => if found = true then yes else no) input wanted
      rest := by
  intro cursor kinds room
  obtain ⟨result, after, ran, isWanted⟩ := left cursor kinds room
  refine ⟨result, after, ?_, isWanted⟩
  rw [bind_of_some (show Parse.look view cursor = (some (view cursor), cursor) from rfl),
    if_neg (by rw [fails cursor kinds]; simp), ran]

/-! ### Tokens -/

section Tokens

variable {kind : TokenKind}

theorem eat_taken : Accepts (eat kind) (kind :: rest) (· = true) rest := by
  intro cursor kinds _
  obtain ⟨token, others, ahead, rfl, rfl⟩ := List.map_eq_cons_iff.mp kinds
  have next := Cursor.check_of_ahead ahead rfl
  refine ⟨true, cursor.advance, by rw [Parse.eat, if_pos next], rfl, ?_, cursor.log_advance⟩
  rw [Cursor.advance_of_ahead ahead]
  rfl

theorem eat_left (other : input.headD .endOfFile ≠ kind) :
    Accepts (eat kind) input (· = false) input := by
  intro cursor kinds _
  have ahead : ¬cursor.check kind = true := by
    rw [Cursor.check_iff, cursor.kind_eq_head, kinds]
    exact other
  exact ⟨false, cursor, by rw [Parse.eat, if_neg ahead], rfl, kinds, rfl⟩

/-- The choice by a token that comes next. -/
theorem eat_yes {yes no : Parse Result} {middle : List TokenKind}
    (taken : Accepts yes middle wanted rest) :
    Accepts (eat kind >>= fun took => if took = true then yes else no) (kind :: middle) wanted
      rest := by
  refine eat_taken.bind fun took took_it => ?_
  rw [if_pos took_it]
  exact taken

/-- The choice by a token that does not come next. -/
theorem eat_no {yes no : Parse Result} (other : input.headD .endOfFile ≠ kind)
    (left : Accepts no input wanted rest) :
    Accepts (eat kind >>= fun took => if took = true then yes else no) input wanted rest := by
  refine (eat_left other).bind fun took left_it => ?_
  rw [if_neg (by rw [left_it]; simp)]
  exact left

theorem expect : Accepts (expect kind) (kind :: rest) (fun _ => True) rest := eat_yes look

theorem word {spelling : String} :
    Accepts (word spelling) (.identifier spelling :: rest) (fun _ => True) rest :=
  eat_yes look

theorem identifier {ident : Ident} :
    Accepts identifier (.identifier ident.name :: rest) (fun result => result.name = ident.name)
      rest := by
  refine Accepts.kind.bind fun kind next => ?_
  rw [next]
  intro cursor kinds _
  obtain ⟨token, others, ahead, _, rfl⟩ := List.map_eq_cons_iff.mp kinds
  refine ⟨⟨ident.name, cursor.advance.previous⟩, cursor.advance, rfl, rfl, ?_, cursor.log_advance⟩
  rw [Cursor.advance_of_ahead ahead]
  rfl

end Tokens

/-! ### Repetition -/

theorem with_fuel {action : Nat → Parse Result}
    (accepts : ∀ fuel, input.length < fuel → Accepts (action fuel) input wanted rest) :
    Accepts (withFuel action) input wanted rest := by
  intro cursor kinds room
  refine accepts (cursor.ahead.length + 1) ?_ cursor kinds room
  rw [← kinds, cursor.length_kinds]
  omega

section Repetition

variable {element : Parse Node} {bare : Node → Node} {written : Node → List TokenKind → Prop}
  {follows : List TokenKind → Prop} {nodes : List Node} {kinds : List TokenKind}

theorem led {lead : TokenKind} {stop : Cursor → Bool} {mayTrail : Prop}
    (complete : Completes element bare written follows)
    (between : ∀ rest, follows (lead :: rest)) (behind : follows rest)
    (ends : rest.headD .endOfFile ≠ lead)
    (stops : mayTrail → ∀ cursor : Cursor, cursor.kinds = rest → stop cursor = true)
    (goesOn : ∀ node kinds rest, written node kinds →
      ∀ cursor : Cursor, cursor.kinds = kinds ++ rest → stop cursor = false)
    (list : Led lead mayTrail written nodes kinds) (fuel : Nat)
    (enough : (kinds ++ rest).length < fuel) :
    Accepts (led lead stop element fuel) (kinds ++ rest)
      (fun result => List.map bare result = nodes.map bare) rest := by
  induction list generalizing fuel with
  | nil =>
      obtain ⟨fuel, rfl⟩ := Nat.exists_eq_succ_of_ne_zero (Nat.ne_zero_of_lt enough)
      exact .eat_no ends (.pure rfl)
  | trailing trails =>
      obtain ⟨fuel, rfl⟩ := Nat.exists_eq_succ_of_ne_zero (Nat.ne_zero_of_lt enough)
      exact .eat_yes (.look_yes (stops trails) (.pure rfl))
  | @cons first others here later own list ih =>
      obtain ⟨fuel, rfl⟩ := Nat.exists_eq_succ_of_ne_zero (Nat.ne_zero_of_lt enough)
      have shorter : (later ++ rest).length < fuel := by
        simp only [List.length_append, List.length_cons] at enough ⊢
        omega
      have followed : follows (later ++ rest) := by
        cases list with
        | nil => exact behind
        | trailing => exact between _
        | cons => exact between _
      rw [List.cons_append, List.append_assoc]
      refine .eat_yes (.look_no (goesOn first here _ own) (.bind (complete own followed)
        fun result same => .bind (ih _ shorter) fun results alike => .pure ?_))
      rw [List.map_cons, List.map_cons, same, alike]

theorem all_led {lead : TokenKind} (complete : Completes element bare written follows)
    (between : ∀ rest, follows (lead :: rest)) (behind : follows rest)
    (ends : rest.headD .endOfFile ≠ lead) (list : Led lead False written nodes kinds) :
    Accepts (withFuel (Parse.led lead (fun _ => false) element)) (kinds ++ rest)
      (fun result => List.map bare result = nodes.map bare) rest :=
  .with_fuel fun fuel enough => .led complete between behind ends (fun no => no.elim)
    (fun _ _ _ _ _ _ => rfl) list fuel enough

/-- How the construct starts is not how it could end. -/
def StartsOther (written : Node → List TokenKind → Prop) (close : TokenKind) : Prop :=
  ∀ ⦃node kinds⦄, written node kinds → ∃ first others, kinds = first :: others ∧ first ≠ close

theorem trailing_led {lead close : TokenKind} (complete : Completes element bare written follows)
    (between : ∀ rest, follows (lead :: rest)) (behind : follows (close :: rest))
    (ends : close ≠ lead) (starts : StartsOther written close)
    (list : Led lead True written nodes kinds) :
    Accepts (withFuel (Parse.led lead (·.check close) element)) (kinds ++ close :: rest)
      (fun result => List.map bare result = nodes.map bare) (close :: rest) := by
  refine .with_fuel fun fuel enough =>
    .led complete between behind ends ?_ ?_ list fuel enough
  · intro _ cursor ahead
    rw [Cursor.check_iff, cursor.kind_eq_head, ahead]
    rfl
  · intro node kinds rest own cursor ahead
    obtain ⟨first, others, rfl, other⟩ := starts own
    rw [← Bool.not_eq_true, Cursor.check_iff, cursor.kind_eq_head, ahead]
    exact other

theorem up_to {close : TokenKind} (complete : Completes element bare written follows)
    (between : ∀ rest, follows (.mark .comma :: rest)) (behind : follows (close :: rest))
    (ends : close ≠ .mark .comma) (starts : StartsOther written close)
    (list : CommaList written nodes kinds) (fuel : Nat)
    (enough : (kinds ++ close :: rest).length < fuel) :
    Accepts (upTo close element fuel) (kinds ++ close :: rest)
      (fun result => List.map bare result = nodes.map bare) (close :: rest) := by
  have goesOn : ∀ {node : Node} {kinds more : List TokenKind}, written node kinds →
      ∀ cursor : Cursor, cursor.kinds = kinds ++ more →
        (cursor.check close || cursor.atEnd) = false := by
    intro node kinds more own cursor ahead
    obtain ⟨first, others, rfl, other⟩ := starts own
    rw [Bool.or_eq_false_iff, ← Bool.not_eq_true, ← Bool.not_eq_true, Cursor.check_iff,
      cursor.at_end_iff, cursor.kind_eq_head, ahead]
    exact ⟨other, by simp⟩
  induction list generalizing fuel with
  | nil =>
      obtain ⟨fuel, rfl⟩ := Nat.exists_eq_succ_of_ne_zero (Nat.ne_zero_of_lt enough)
      refine .look_yes (fun cursor ahead => ?_) (.pure rfl)
      have closed : cursor.check close = true := by
        rw [Cursor.check_iff, cursor.kind_eq_head, ahead]
        rfl
      rw [closed, Bool.true_or]
  | last own =>
      obtain ⟨fuel, rfl⟩ := Nat.exists_eq_succ_of_ne_zero (Nat.ne_zero_of_lt enough)
      refine .look_no (goesOn own) (.bind (complete own behind) fun result same =>
        .eat_no ends (.pure ?_))
      rw [List.map_cons, List.map_cons, same]
  | @cons first others here later own list ih =>
      obtain ⟨fuel, rfl⟩ := Nat.exists_eq_succ_of_ne_zero (Nat.ne_zero_of_lt enough)
      have shorter : (later ++ close :: rest).length < fuel := by
        simp only [List.length_append, List.length_cons] at enough ⊢
        omega
      rw [List.append_assoc, List.cons_append]
      refine .look_no (goesOn own) (.bind (complete own (between _)) fun result same =>
        .eat_yes (.bind (ih _ shorter) fun results alike => .pure ?_))
      rw [List.map_cons, List.map_cons, same, alike]

end Repetition

/-! ### Blocks -/

/-- A way through the members of a block: from states that one condition holds of to states that
another holds of, by members that are accepted one after another. -/
inductive Path (step : State → Parse State) :
    (State → Prop) → List TokenKind → (State → Prop) → List TokenKind → Prop
  | done {holds : State → Prop} {input : List TokenKind} : Path step holds input holds input
  | step {before between behind : State → Prop} {first : TokenKind}
      {others middle rest : List TokenKind} :
      first ≠ .mark .rightBrace → middle.length ≤ others.length →
      (∀ state, before state → Accepts (step state) (first :: others) between middle) →
        Path step between middle behind rest → Path step before (first :: others) behind rest

section Blocks

variable {step : State → Parse State} {before behind : State → Prop} {input rest : List TokenKind}

theorem members (path : Path step before input behind (.mark .rightBrace :: rest)) (state : State)
    (holds : before state) (fuel : Nat) (enough : input.length < fuel) :
    Accepts (members step fuel state) input behind (.mark .rightBrace :: rest) := by
  generalize closing : TokenKind.mark .rightBrace :: rest = stop at path
  induction path generalizing state fuel with
  | done =>
      subst closing
      obtain ⟨fuel, rfl⟩ := Nat.exists_eq_succ_of_ne_zero (Nat.ne_zero_of_lt enough)
      intro cursor kinds room
      have closed : cursor.check (.mark .rightBrace) = true := by
        rw [Cursor.check_iff, cursor.kind_eq_head, kinds]
        rfl
      refine ⟨state, cursor, ?_, holds, kinds, rfl⟩
      rw [members_succ, closed, Bool.true_or, if_pos rfl]
  | @step before between behind first others middle rest other shorter accepts _ ih =>
      obtain ⟨fuel, rfl⟩ := Nat.exists_eq_succ_of_ne_zero (Nat.ne_zero_of_lt enough)
      intro cursor kinds room
      have more : (cursor.check (.mark .rightBrace) || cursor.atEnd) = false := by
        rw [Bool.or_eq_false_iff, ← Bool.not_eq_true, ← Bool.not_eq_true, Cursor.check_iff,
          cursor.at_end_iff, cursor.kind_eq_head, kinds]
        exact ⟨other, by simp⟩
      obtain ⟨second, after, ran, isBetween, left, log⟩ := accepts state holds cursor kinds room
      rw [List.length_cons] at enough
      obtain ⟨last, stop, ranOn, isBehind, ended, same⟩ := ih second isBetween fuel (by omega)
        closing after left (by rw [log]; exact room)
      refine ⟨last, stop, ?_, isBehind, ended, same.trans log⟩
      rw [members_succ, more, room]
      simp only [Bool.false_eq_true, if_false, ran]
      exact ranOn

theorem closing {opened : Span} :
    Accepts (closing opened) (.mark .rightBrace :: rest) (fun _ => True) rest :=
  .eat_yes (.pure trivial)

theorem block {initial : State}
    (path : Path step before input behind (.mark .rightBrace :: rest)) (holds : before initial) :
    Accepts (block step initial) (.mark .leftBrace :: input) behind rest := by
  refine .bind .expect fun opened _ => .bind (.with_fuel fun fuel enough =>
    members path initial holds fuel enough) fun state reached => .bind closing
      fun _ _ => .pure reached

end Blocks

end Accepts

end Parse

end Composer
