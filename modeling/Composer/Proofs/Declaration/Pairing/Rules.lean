import Composer.Proofs.Declaration.Progress

/-!
Readings side by side. Two lists of tokens may be alike up to a place, or alike but for one place: a
`Pairing` says what can be ahead in both at a time. Where reading the first one goes through without
reports, reading the second one gives the same, token by token, as an action looks at no more than
the next token and the span of the last one. Spans are those of the tokens, so they are the same too.
-/

namespace Composer

/-! ### Pairings -/

structure Pairing where
  /-- What can be ahead in both at a time, with the log of the second reading. -/
  Ahead : List Token → List Token → ReportLog → Prop
  /-- What is ahead in the first reading when it has left the stretch that is compared. -/
  Past : List Token → Prop
  /-- The words behind which both readings can come to a place where they part. -/
  Opens : Keyword → Prop
  /-- What is ahead in both behind such a word. -/
  Parts : List Token → List Token → ReportLog → Prop
  heads {first second : List Token} {log : ReportLog} :
    Ahead first second log → first.head? = second.head?
  tails {token : Token} {first second : List Token} {log : ReportLog} :
    Ahead (token :: first) (token :: second) log →
      Past first ∨ Ahead first second log ∨
        ∃ word, token.kind = .keyword word ∧ Opens word ∧ Parts first second log
  room {first second : List Token} {log : ReportLog} : Ahead first second log → log.isFull = false
  present {first second : List Token} {log : ReportLog} : Ahead first second log → ¬Past first
  past {ahead later : List Token} : Past ahead → later <:+ ahead → Past later
  blocks {word : Keyword} : Opens word → word ∈ [Keyword.storage, .event, .interface, .impl]

abbrev Bond : Type := Cursor → Cursor → Prop

namespace Pairing

variable {pairing : Pairing} {known : Bool} {left right : Cursor}

/-- Both cursors are at the same place; where that is `known`, they have taken the same token last. -/
structure Joins (pairing : Pairing) (known : Bool) (left right : Cursor) : Prop where
  ahead : pairing.Ahead left.ahead right.ahead right.log
  previous : known = true → left.previous = right.previous
  finish : pairing.Past [] ∨ left.finish = right.finish
  room : left.log.isFull = false

structure Meets (pairing : Pairing) (left right : Cursor) : Prop where
  parts : pairing.Parts left.ahead right.ahead right.log
  previous : left.previous = right.previous
  finish : pairing.Past [] ∨ left.finish = right.finish
  room : left.log.isFull = false

/-- A token of this kind never leads to the place where the readings part. -/
def Closed (pairing : Pairing) (kind : TokenKind) : Prop :=
  ∀ word, kind = .keyword word → ¬pairing.Opens word

theorem closed_mark (sign : Mark) : pairing.Closed (.mark sign) := nofun

theorem closed_identifier (name : String) : pairing.Closed (.identifier name) := nofun

theorem closed_keyword {word : Keyword}
    (other : word ∉ [Keyword.storage, .event, .interface, .impl]) :
    pairing.Closed (.keyword word) := by
  intro opening same opens
  cases same
  exact other (pairing.blocks opens)

namespace Joins

theorem forget (joins : pairing.Joins known left right) : pairing.Joins false left right :=
  ⟨joins.ahead, nofun, joins.finish, joins.room⟩

theorem of_known (joins : pairing.Joins true left right) : pairing.Joins known left right :=
  ⟨joins.ahead, fun _ => joins.previous rfl, joins.finish, joins.room⟩

theorem kind (joins : pairing.Joins known left right) : left.kind = right.kind := by
  have heads := pairing.heads joins.ahead
  cases first : left.ahead with
  | nil =>
      rw [first, eq_comm, List.head?_nil, List.head?_eq_none_iff] at heads
      rw [Cursor.kind, Cursor.kind, first, heads]
  | cons token rest =>
      rw [first, eq_comm, List.head?_cons, List.head?_eq_some_iff] at heads
      rcases heads with ⟨others, second⟩
      rw [Cursor.kind_of_ahead first, Cursor.kind_of_ahead second]

theorem check (joins : pairing.Joins known left right) (kind : TokenKind) :
    left.check kind = right.check kind := by
  rw [Cursor.check, Cursor.check, joins.kind]

theorem at_end (joins : pairing.Joins known left right) : left.atEnd = right.atEnd := by
  rw [Bool.eq_iff_iff, Cursor.atEnd, Cursor.atEnd, List.isEmpty_iff, List.isEmpty_iff,
    ← List.head?_eq_none_iff, ← List.head?_eq_none_iff, pairing.heads joins.ahead]

theorem span (joins : pairing.Joins known left right) : left.span = right.span := by
  have heads := pairing.heads joins.ahead
  have present := pairing.present joins.ahead
  cases first : left.ahead with
  | nil =>
      rw [first] at present heads
      rw [eq_comm, List.head?_nil, List.head?_eq_none_iff] at heads
      rw [Cursor.span, Cursor.span, first, heads]
      exact joins.finish.resolve_left present
  | cons token rest =>
      rw [first, eq_comm, List.head?_cons, List.head?_eq_some_iff] at heads
      rcases heads with ⟨others, second⟩
      rw [Cursor.span_of_ahead first, Cursor.span_of_ahead second]

/-- Both take the same token; then the first has left the stretch, or both are at the same place
again, or behind the word after which they can part. -/
theorem advance (joins : pairing.Joins known left right) {kind : TokenKind}
    (real : kind ≠ .endOfFile) (next : left.check kind = true) :
    pairing.Past left.advance.ahead ∨ pairing.Joins true left.advance right.advance ∨
      ∃ word, kind = .keyword word ∧ pairing.Opens word ∧
        pairing.Meets left.advance right.advance := by
  have heads := pairing.heads joins.ahead
  have ahead := joins.ahead
  rcases Cursor.ahead_of_check real next with ⟨token, rest, same, first⟩
  rw [first, eq_comm, List.head?_cons, List.head?_eq_some_iff] at heads
  rcases heads with ⟨others, second⟩
  rw [first, second] at ahead
  rw [Cursor.advance_of_ahead first, Cursor.advance_of_ahead second]
  rcases pairing.tails ahead with past | later | ⟨word, isWord, opens, parts⟩
  · exact .inl past
  · exact .inr (.inl ⟨later, fun _ => rfl, joins.finish, joins.room⟩)
  · exact .inr (.inr ⟨word, same.symm.trans isWord, opens, parts, rfl, joins.finish,
      joins.room⟩)

theorem advance_closed (joins : pairing.Joins known left right) {kind : TokenKind}
    (real : kind ≠ .endOfFile) (closed : pairing.Closed kind) (next : left.check kind = true) :
    pairing.Past left.advance.ahead ∨ pairing.Joins true left.advance right.advance := by
  rcases joins.advance real next with past | later | ⟨word, same, opens, _⟩
  · exact .inl past
  · exact .inr later
  · exact absurd opens (closed word same)

end Joins

end Pairing

namespace Parse

variable {Result Other State : Type}

/-! ### Going forward -/

/-- From `start` on, no token is put back and no error is taken back. -/
def Invariant.onward (start : Cursor) : Invariant where
  Holds cursor := cursor.ahead <:+ start.ahead ∧ start.log.totalErrors ≤ cursor.log.totalErrors
  Allows _ := True
  span _ := trivial
  previous _ := trivial
  cover _ _ := trivial
  advance {cursor} held more := by
    obtain ⟨token, rest, ahead⟩ := Cursor.ahead_of_more more
    rw [ahead] at held
    rw [Cursor.advance_of_ahead ahead]
    exact ⟨(List.suffix_cons token rest).trans held.1, held.2⟩
  report _ _ _ held _ := ⟨held.1, Nat.le_succ_of_le held.2⟩
  recover_member {cursor} held := ⟨cursor.recover_member_ahead.trans held.1, held.2⟩
  recover_item {cursor} held := ⟨cursor.recover_item_ahead.trans held.1, held.2⟩

/-- An action puts no token back and takes no error back. -/
structure Forward (action : Parse Result) : Prop where
  ahead (cursor : Cursor) : (action cursor).2.ahead <:+ cursor.ahead
  errors (cursor : Cursor) : cursor.log.totalErrors ≤ (action cursor).2.log.totalErrors

namespace Forward

theorem of_keeps {action : Parse Result} {fits : Cursor → Result → Prop}
    (keeps : ∀ start, Keeps (.onward start) action (fits start)) : Forward action := by
  have held (cursor : Cursor) : (Invariant.onward cursor).Holds cursor :=
    ⟨List.suffix_refl _, Nat.le_refl _⟩
  constructor
  · exact fun cursor => (keeps cursor cursor (held cursor)).1.1
  · exact fun cursor => (keeps cursor cursor (held cursor)).1.2

theorem of_any {action : Parse Result}
    (keeps : ∀ start, Keeps (.onward start) action fun _ => True) : Forward action :=
  .of_keeps keeps

theorem keeps {action : Parse Result} (forward : Forward action) (start : Cursor) :
    Keeps (.onward start) action fun _ => True := by
  intro cursor held
  refine ⟨⟨?_, ?_⟩, fun _ _ => trivial⟩
  · exact (forward.ahead cursor).trans held.1
  · exact Nat.le_trans held.2 (forward.errors cursor)

theorem look (view : Cursor → Result) : Forward (look view) := .of_keeps fun _ => .glance view

theorem pure (result : Result) : Forward (Pure.pure result) :=
  .of_any fun _ => .pure trivial

theorem fail : Forward (fail : Parse Result) :=
  .of_any fun _ => .fail

theorem report (code : ErrorCode) (message : String) (span : Span) :
    Forward (report code message span) :=
  .of_keeps fun _ => .report code message trivial

theorem bind {action : Parse Other} {next : Other → Parse Result} (first : Forward action)
    (second : ∀ result, Forward (next result)) : Forward (action >>= next) :=
  .of_keeps fun start => .bind (first.keeps start) fun result _ => (second result).keeps start

theorem ite {condition : Prop} [Decidable condition] {yes no : Parse Result}
    (does : Forward yes) (fails : Forward no) : Forward (if condition then yes else no) :=
  .of_keeps fun start => .ite (does.keeps start) (fails.keeps start)

theorem eat_else {kind : TokenKind} (real : kind ≠ .endOfFile) {yes no : Parse Result}
    (taken : Forward yes) (other : Forward no) :
    Forward (eat kind >>= fun took => if took = true then yes else no) :=
  .bind (.of_keeps fun _ => .eat real) fun _ => .ite taken other

theorem unexpected (message : String) : Forward (unexpected message : Parse Result) :=
  .of_any fun _ => .unexpected message

theorem members {step : State → Parse State} (each : ∀ state, Forward (step state)) (fuel : Nat)
    (state : State) : Forward (members step fuel state) :=
  .of_keeps fun start => .members (fun state _ => (each state).keeps start) fuel trivial

end Forward

/-- Where one action behind another succeeds without errors, neither of them has any. -/
theorem Forward.bind_clean {action : Parse Other} {next : Other → Parse Result}
    (first : Forward action) (second : ∀ found, Forward (next found)) {cursor stop : Cursor}
    {result : Result} (ran : (action >>= next) cursor = (some result, stop))
    (clean : stop.log.totalErrors = cursor.log.totalErrors) :
    ∃ found middle, action cursor = (some found, middle) ∧ next found middle = (some result, stop) ∧
      middle.log.totalErrors = cursor.log.totalErrors ∧
      stop.log.totalErrors = middle.log.totalErrors := by
  obtain ⟨found, middle, started, goesOn⟩ := bind_succeeded ran
  have grows := first.errors cursor
  have growsOn := (second found).errors middle
  rw [started] at grows
  rw [goesOn] at growsOn
  dsimp only at grows growsOn
  exact ⟨found, middle, started, goesOn, by omega, by omega⟩

/-- Where members are read without errors, each round before the end reads one: a member that is given
up has been reported. -/
theorem members_clean {step : State → Parse State} (steps : MemberStep step)
    (forward : ∀ state, Forward (step state)) {fuel : Nat} {state last : State} {cursor stop : Cursor}
    (goesOn : ¬(cursor.check (.mark .rightBrace) || cursor.atEnd) = true)
    (ran : members step (fuel + 1) state cursor = (some last, stop))
    (clean : stop.log.totalErrors = cursor.log.totalErrors) :
    ∃ next middle, step state cursor = (some next, middle) ∧
      members step fuel next middle = (some last, stop) ∧
      middle.log.totalErrors = cursor.log.totalErrors := by
  have room : cursor.log.isFull = false := by
    refine eq_false_of_ne_true fun full => ?_
    rw [members_succ, if_neg goesOn, if_pos full] at ran
    cases ran
  have grows := (forward state).errors cursor
  rcases members_round step fuel state goesOn room with
    ⟨next, middle, stepped, whole⟩ | ⟨middle, stepped, whole⟩
  · have growsOn := (Forward.members forward fuel next).errors middle
    rw [whole] at ran
    rw [stepped] at grows
    rw [ran] at growsOn
    dsimp only at grows growsOn
    exact ⟨next, middle, stepped, ran, by omega⟩
  · have reported := steps.reports state room (congrArg Prod.fst stepped)
    have growsOn := (Forward.members forward fuel state).errors middle.recoverMember
    rw [whole] at ran
    rw [stepped] at reported
    rw [ran] at growsOn
    change middle.log.totalErrors ≤ stop.log.totalErrors at growsOn
    dsimp only at reported
    omega

/-! ### Agreement -/

/-- Started where `before` holds, with less than `bound` tokens ahead of the second action, that gives
what the first one gives, wherever this succeeds without reports, and `after` holds behind both. The
first one may also leave the stretch that is compared; then nothing is said. -/
structure Agree (pairing : Pairing) (bound : Nat) (before after : Bond)
    (first second : Parse Result) : Prop where
  forward : Forward first
  other : Forward second
  agree {left right stop : Cursor} {result : Result} : before left right →
    right.ahead.length < bound → first left = (some result, stop) →
      stop.log.totalErrors = left.log.totalErrors →
        pairing.Past stop.ahead ∨
          ∃ behind, second right = (some result, behind) ∧ after stop behind

namespace Agree

variable {pairing : Pairing} {bound : Nat} {known : Bool} {before between after : Bond}
  {first second : Parse Result}

theorem mono {smaller : Nat} {stronger weaker : Bond}
    (agree : Agree pairing bound before after first second) (below : smaller ≤ bound)
    (given : ∀ left right, stronger left right → before left right)
    (gives : ∀ left right, after left right → weaker left right) :
    Agree pairing smaller stronger weaker first second := by
  constructor
  · exact agree.forward
  · exact agree.other
  · intro left right stop result joins short ran clean
    rcases agree.agree (given left right joins) (Nat.lt_of_lt_of_le short below) ran clean with
      past | ⟨behind, ranToo, together⟩
    · exact .inl past
    · exact .inr ⟨behind, ranToo, gives stop behind together⟩

theorem within {smaller : Nat} (agree : Agree pairing bound before after first second)
    (below : smaller ≤ bound) : Agree pairing smaller before after first second :=
  agree.mono below (fun _ _ holds => holds) fun _ _ holds => holds

theorem either {otherwise : Bond} (agree : Agree pairing bound before after first second)
    (agreeToo : Agree pairing bound otherwise after first second) :
    Agree pairing bound (fun left right => before left right ∨ otherwise left right) after first
      second := by
  constructor
  · exact agree.forward
  · exact agree.other
  · intro left right stop result holds short ran clean
    rcases holds with here | there
    · exact agree.agree here short ran clean
    · exact agreeToo.agree there short ran clean

theorem bind {action twin : Parse Other} {next nextToo : Other → Parse Result}
    (early : Agree pairing bound before between action twin)
    (late : ∀ result, Agree pairing bound between after (next result) (nextToo result)) :
    Agree pairing bound before after (action >>= next) (twin >>= nextToo) := by
  constructor
  · exact .bind early.forward fun result => (late result).forward
  · exact .bind early.other fun result => (late result).other
  · intro left right stop result joins short ran clean
    obtain ⟨found, middle, started, goesOn, cleanHere, cleanThere⟩ :=
      early.forward.bind_clean (fun found => (late found).forward) ran clean
    rcases early.agree joins short started cleanHere with past | ⟨behind, same, joined⟩
    · have later := (late found).forward.ahead middle
      rw [goesOn] at later
      exact .inl (pairing.past past later)
    · have shorter := (early.other.ahead right).length_le
      rw [same] at shorter
      rw [bind_of_some same]
      exact (late found).agree joined (Nat.lt_of_le_of_lt shorter short) goesOn cleanThere

/-- Where the first action succeeds only with reports, there is nothing to agree on. -/
theorem of_reported (forward : Forward first) (other : Forward second)
    (reported : ∀ left stop result, first left = (some result, stop) →
      left.log.totalErrors < stop.log.totalErrors) :
    Agree pairing bound before after first second := by
  constructor
  · exact forward
  · exact other
  · intro left right stop result _ _ ran clean
    have more := reported left stop result ran
    omega

theorem fail : Agree pairing bound before after (fail : Parse Result) second ↔ Forward second :=
  ⟨fun agree => agree.other, fun other => of_reported .fail other fun _ _ _ ran => by cases ran⟩

theorem of_no_room (forward : Forward first) (other : Forward second) :
    Agree pairing 0 before after first second :=
  ⟨forward, other, fun _ short _ _ => absurd short (Nat.not_lt_zero _)⟩

theorem pure (result : Result) :
    Agree pairing bound before before (Pure.pure result) (Pure.pure result) := by
  constructor
  · exact .pure result
  · exact .pure result
  · intro left right stop other joins _ ran _
    cases ran
    exact .inr ⟨right, rfl, joins⟩

theorem look {view : Cursor → Result}
    (same : ∀ left right, before left right → view left = view right) :
    Agree pairing bound before before (look view) (look view) := by
  constructor
  · exact .look view
  · exact .look view
  · intro left right stop result joins _ ran _
    cases ran
    refine .inr ⟨right, ?_, joins⟩
    rw [same left right joins]
    rfl

theorem ite {condition : Prop} [Decidable condition] {yes no yesToo noToo : Parse Result}
    (does : Agree pairing bound before after yes yesToo)
    (fails : Agree pairing bound before after no noToo) :
    Agree pairing bound before after (if condition then yes else no)
      (if condition then yesToo else noToo) := by
  split
  · exact does
  · exact fails

theorem unexpected (message messageToo : String) :
    Agree pairing bound before after (unexpected message : Parse Result)
      (Parse.unexpected messageToo) :=
  .of_reported (.unexpected _) (.unexpected _) fun _ _ _ ran => by cases ran

/-! ### Looking -/

theorem current_span :
    Agree pairing bound (pairing.Joins known) (pairing.Joins known) currentSpan currentSpan :=
  .look fun _ _ joins => joins.span

theorem kind : Agree pairing bound (pairing.Joins known) (pairing.Joins known) kind kind :=
  .look fun _ _ joins => joins.kind

theorem previous_span :
    Agree pairing bound (pairing.Joins true) (pairing.Joins true) previousSpan previousSpan :=
  .look fun _ _ joins => joins.previous rfl

theorem span_from (start : Span) :
    Agree pairing bound (pairing.Joins true) (pairing.Joins true) (spanFrom start)
      (spanFrom start) :=
  .look fun _ _ joins => congrArg start.cover (joins.previous rfl)

/-! ### Tokens -/

section Tokens

variable {kind : TokenKind}

/-- The choice by whether a certain token comes next. -/
theorem eat_else (real : kind ≠ .endOfFile) (closed : pairing.Closed kind)
    {yes no yesToo noToo : Parse Result}
    (taken : Agree pairing (bound - 1) (pairing.Joins true) after yes yesToo)
    (kept : Agree pairing bound (pairing.Joins known) after no noToo) :
    Agree pairing bound (pairing.Joins known) after
      (eat kind >>= fun took => if took = true then yes else no)
      (Parse.eat kind >>= fun took => if took = true then yesToo else noToo) := by
  constructor
  · exact .eat_else real taken.forward kept.forward
  · exact .eat_else real taken.other kept.other
  · intro left right stop result joins short ran clean
    rw [eat_else_run] at ran ⊢
    rw [← joins.check kind]
    split at ran
    · next next =>
        have later := taken.forward.ahead left.advance
        rw [ran] at later
        rw [if_pos next]
        rcases joins.advance_closed real closed next with past | joined
        · exact .inl (pairing.past past later)
        · have fewer := (Cursor.advance_takes real (joins.check kind ▸ next)).2.2
          apply taken.agree joined (by omega) ran
          rw [clean, left.log_advance]
    · next other =>
        rw [if_neg other]
        exact kept.agree joins short ran clean

theorem eat (real : kind ≠ .endOfFile) (closed : pairing.Closed kind) :
    Agree pairing bound (pairing.Joins known) (pairing.Joins known) (eat kind)
      (Parse.eat kind) := by
  constructor
  · exact .of_keeps fun _ => .eat real
  · exact .of_keeps fun _ => .eat real
  · intro left right stop took joins short ran clean
    rw [Parse.eat] at ran ⊢
    rw [← joins.check kind]
    split at ran
    · next next =>
        cases ran
        rw [if_pos next]
        rcases joins.advance_closed real closed next with past | joined
        · exact .inl past
        · exact .inr ⟨_, rfl, joined.of_known⟩
    · next other =>
        cases ran
        rw [if_neg other]
        exact .inr ⟨_, rfl, joins⟩

theorem expect (real : kind ≠ .endOfFile) (closed : pairing.Closed kind) :
    Agree pairing bound (pairing.Joins known) (pairing.Joins true) (expect kind)
      (Parse.expect kind) :=
  .eat_else real closed .previous_span (.bind .kind fun _ => .unexpected _ _)

theorem expect_mark (sign : Mark) :
    Agree pairing bound (pairing.Joins known) (pairing.Joins true) (Parse.expect (.mark sign))
      (Parse.expect (.mark sign)) :=
  .expect TokenKind.noConfusion (Pairing.closed_mark sign)

/-- A word that no block is named by. -/
theorem expect_keyword {word : Keyword}
    (other : word ∉ [Keyword.storage, .event, .interface, .impl]) :
    Agree pairing bound (pairing.Joins known) (pairing.Joins true) (Parse.expect (.keyword word))
      (Parse.expect (.keyword word)) :=
  .expect TokenKind.noConfusion (Pairing.closed_keyword other)

/-- Behind any word the readings are at the same place, or else where they can part. -/
theorem expect_word (word : Keyword) :
    Agree pairing bound (pairing.Joins known)
      (fun left right => pairing.Joins true left right ∨
        pairing.Opens word ∧ pairing.Meets left right)
      (Parse.expect (.keyword word)) (Parse.expect (.keyword word)) := by
  have real : TokenKind.keyword word ≠ .endOfFile := TokenKind.noConfusion
  constructor
  · exact .of_keeps fun _ => .expect real
  · exact .of_keeps fun _ => .expect real
  · intro left right stop span joins _ ran _
    rw [Parse.expect, eat_else_run] at ran ⊢
    rw [← joins.check]
    split at ran
    · next next =>
        cases ran
        rw [if_pos next]
        rcases joins.advance real next with past | joined | ⟨opening, same, opens, meets⟩
        · exact .inl past
        · refine .inr ⟨right.advance, ?_, .inl joined⟩
          rw [joined.previous rfl]
          rfl
        · cases same
          refine .inr ⟨right.advance, ?_, .inr ⟨opens, meets⟩⟩
          rw [meets.previous]
          rfl
    · cases ran

theorem word (spelling : String) :
    Agree pairing bound (pairing.Joins known) (pairing.Joins true) (word spelling)
      (Parse.word spelling) :=
  .eat_else TokenKind.noConfusion (Pairing.closed_identifier spelling) .previous_span
    (.bind .kind fun _ => .unexpected _ _)

theorem identifier :
    Agree pairing bound (pairing.Joins known) (pairing.Joins true) identifier
      Parse.identifier := by
  constructor
  · exact .of_keeps fun _ => .identifier
  · exact .of_keeps fun _ => .identifier
  · intro left right stop ident joins _ ran _
    rcases identifier_cases left with ⟨name, next, taken⟩ | ⟨message, failed⟩
    · rw [taken] at ran
      cases ran
      rcases joins.advance_closed TokenKind.noConfusion (Pairing.closed_identifier name)
        next with past | joined
      · exact .inl past
      · refine .inr ⟨right.advance, ?_, joined⟩
        rw [Parse.identifier, kind_run, ← joins.kind, Cursor.check_iff.mp next, joined.previous rfl]
        rfl
    · rw [failed] at ran
      cases ran

end Tokens

/-! ### Repetition -/

/-- The two readings have different numbers of tokens ahead, so their actions get different fuel. -/
theorem with_fuel {action twin : Nat → Parse Result}
    (agree : ∀ fuel more, Agree pairing (min bound more) before after (action fuel) (twin more)) :
    Agree pairing bound before after (withFuel action) (withFuel twin) := by
  constructor
  · exact .of_keeps fun start => .with_fuel fun fuel => (agree fuel 0).forward.keeps start
  · exact .of_keeps fun start => .with_fuel fun more => (agree 0 more).other.keeps start
  · intro left right stop result joins short ran clean
    exact (agree _ (right.ahead.length + 1)).agree joins (by omega) ran clean

section Repetition

variable {element twin : Parse Result}

theorem led_forward {lead : TokenKind} (real : lead ≠ .endOfFile) (stop : Cursor → Bool)
    (forward : Forward element) (fuel : Nat) : Forward (led lead stop element fuel) :=
  .of_keeps fun start => .led (forward.keeps start) real stop fuel

theorem led {lead : TokenKind} (real : lead ≠ .endOfFile) (closed : pairing.Closed lead)
    {stop : Cursor → Bool}
    (stops : ∀ left right, pairing.Joins true left right → stop left = stop right)
    (agree : Agree pairing bound (pairing.Joins true) (pairing.Joins true) element twin)
    (fuel more : Nat) :
    Agree pairing (min bound more) (pairing.Joins known) (pairing.Joins known)
      (led lead stop element fuel) (Parse.led lead stop twin more) := by
  induction fuel generalizing more known with
  | zero => exact fail.mpr (led_forward real stop agree.other more)
  | succ fuel ih =>
      cases more with
      | zero =>
          rw [Nat.min_zero]
          exact .of_no_room (led_forward real stop agree.forward _) .fail
      | succ more =>
          apply eat_else real closed
          · apply bind (.look stops)
            intro stopped
            apply ite
            · exact (pure []).mono (Nat.le_refl _) (fun _ _ joins => joins) fun _ _ joins =>
                joins.of_known
            · apply bind (agree.within (by omega))
              intro node
              have later : Agree pairing (min bound more) (pairing.Joins true) (pairing.Joins true)
                (led lead stop element fuel) (Parse.led lead stop twin more) := ih more
              apply bind (later.within (by omega))
              intro nodes
              exact (pure _).mono (Nat.le_refl _) (fun _ _ joins => joins) fun _ _ joins =>
                joins.of_known
          · exact pure []

theorem up_to_forward (close : TokenKind) (forward : Forward element) (fuel : Nat) :
    Forward (upTo close element fuel) :=
  .of_keeps fun start => .up_to (forward.keeps start) close fuel

theorem up_to {close : TokenKind}
    (agree : Agree pairing bound (pairing.Joins true) (pairing.Joins true) element twin)
    (fuel more : Nat) :
    Agree pairing (min bound more) (pairing.Joins true) (pairing.Joins true)
      (upTo close element fuel) (Parse.upTo close twin more) := by
  induction fuel generalizing more with
  | zero => exact fail.mpr (up_to_forward close agree.other more)
  | succ fuel ih =>
      cases more with
      | zero =>
          rw [Nat.min_zero]
          exact .of_no_room (up_to_forward close agree.forward _) .fail
      | succ more =>
          apply bind (.look fun left right joins => by rw [joins.check, joins.at_end])
          intro ended
          apply ite
          · exact pure []
          · apply bind (agree.within (by omega))
            intro node
            apply eat_else TokenKind.noConfusion (Pairing.closed_mark _)
            · apply bind ((ih more).within (by omega))
              intro nodes
              exact pure _
            · exact pure _

/-- Elements behind a mark each, as many as there are. -/
theorem all_led {sign : Mark} {stop : Cursor → Bool}
    (stops : ∀ left right, pairing.Joins true left right → stop left = stop right)
    (agree : Agree pairing bound (pairing.Joins true) (pairing.Joins true) element element) :
    Agree pairing bound (pairing.Joins known) (pairing.Joins known)
      (withFuel (Parse.led (.mark sign) stop element))
      (withFuel (Parse.led (.mark sign) stop element)) :=
  .with_fuel fun fuel more =>
    .led TokenKind.noConfusion (Pairing.closed_mark sign) stops agree fuel more

theorem comma_list {close : TokenKind}
    (agree : Agree pairing bound (pairing.Joins true) (pairing.Joins true) element element) :
    Agree pairing bound (pairing.Joins true) (pairing.Joins true) (withFuel (upTo close element))
      (withFuel (upTo close element)) :=
  .with_fuel fun fuel more => .up_to agree fuel more

end Repetition

/-! ### Blocks -/

section Blocks

variable {step : State → Parse State}

theorem members (steps : MemberStep step) (agree : ∀ state bound,
      Agree pairing bound (pairing.Joins false) (pairing.Joins true) (step state) (step state))
    (state : State) (fuel more : Nat) :
    Agree pairing (min bound more) (pairing.Joins false) (pairing.Joins false)
      (members step fuel state) (Parse.members step more state) := by
  have forward (state : State) : Forward (step state) := (agree state 0).forward
  constructor
  · exact .members forward fuel state
  · exact .members forward more state
  · intro left right stop last joins short ran clean
    induction fuel generalizing more state left right with
    | zero => cases ran
    | succ fuel ih =>
        cases more with
        | zero => omega
        | succ more =>
            rw [members_succ, ← joins.check, ← joins.at_end]
            by_cases ended : (left.check (.mark .rightBrace) || left.atEnd) = true
            · rw [members_succ, if_pos ended] at ran
              cases ran
              rw [if_pos ended]
              exact .inr ⟨right, rfl, joins⟩
            · rw [if_neg ended, if_neg (ne_true_of_eq_false (pairing.room joins.ahead))]
              rcases members_clean steps forward ended ran clean with
                ⟨next, middle, stepped, ranOn, cleanHere⟩
              rcases (agree state (right.ahead.length + 1)).agree joins (Nat.lt_succ_self _) stepped
                cleanHere with past | ⟨behind, same, joined⟩
              · have later := (Forward.members forward fuel next).ahead middle
                rw [ranOn] at later
                exact .inl (pairing.past past later)
              · have fewer := (steps.advances state).taken same
                rw [same]
                exact ih next _ joined.forget (by omega) ranOn (clean.trans cleanHere.symm)

theorem closing (opened : Span) :
    Agree pairing bound (pairing.Joins known) (pairing.Joins true) (closing opened)
      (Parse.closing opened) :=
  .eat_else TokenKind.noConfusion (Pairing.closed_mark _) (.pure ())
    (.of_reported (.bind (.report _ _ _) fun _ => .fail) (.bind (.report _ _ _) fun _ => .fail)
      fun _ _ _ ran => by cases ran)

theorem all_members (steps : MemberStep step) (agree : ∀ state bound,
      Agree pairing bound (pairing.Joins false) (pairing.Joins true) (step state) (step state))
    (initial : State) :
    Agree pairing bound (pairing.Joins true) (pairing.Joins false)
      (withFuel fun fuel => Parse.members step fuel initial)
      (withFuel fun fuel => Parse.members step fuel initial) := by
  apply with_fuel
  intro fuel more
  exact (members steps agree initial fuel more).mono (Nat.le_refl _)
    (fun _ _ joins => joins.forget) fun _ _ joins => joins

theorem block (steps : MemberStep step) (agree : ∀ state bound,
      Agree pairing bound (pairing.Joins false) (pairing.Joins true) (step state) (step state))
    (initial : State) :
    Agree pairing bound (pairing.Joins known) (pairing.Joins true) (block step initial)
      (Parse.block step initial) := by
  apply bind (.expect_mark _)
  intro opened
  apply bind (.all_members steps agree initial)
  intro last
  apply bind (.closing opened)
  intro closed
  exact pure last

theorem list_block {member : Parse Result} (steps : MemberStep (collecting member))
    (agree : ∀ bound, Agree pairing bound (pairing.Joins false) (pairing.Joins true) member member) :
    Agree pairing bound (pairing.Joins known) (pairing.Joins true) (listBlock member)
      (Parse.listBlock member) := by
  apply block steps
  intro collected bound
  apply bind (agree bound)
  intro node
  exact pure _

end Blocks

end Agree

end Parse

end Composer
