import Composer.Proofs.Declaration.Outcomes
import Composer.Proofs.Declaration.Soundness.Grammar

/-!
The loops over the items of a file and over the members of its blocks end. The fuel that the parsing
actions are given does not show in what is said here: a loop is run as it stands, for as many rounds
as it takes, and comes to what the actions with fuel come to. Each round takes a token, also where
the member that it is about takes none and is skipped.
-/

namespace Composer

/-- A token or more was taken on the way from one cursor to another, and none was put back. -/
def Cursor.Passes (after before : Cursor) : Prop :=
  ∃ token taken, before.ahead = token :: taken ++ after.ahead

namespace Cursor

variable {cursor middle after : Cursor}

theorem passes_of_suffix (some : cursor.ahead ≠ []) (suffix : after.ahead <:+ cursor.ahead.tail) :
    after.Passes cursor := by
  obtain ⟨taken, split⟩ := suffix
  obtain ⟨token, rest, ahead⟩ := List.exists_cons_of_ne_nil some
  rw [ahead, List.tail_cons] at split
  refine ⟨token, taken, ?_⟩
  rw [ahead, List.cons_append, split]

theorem Passes.shorter (passes : after.Passes cursor) :
    after.ahead.length < cursor.ahead.length := by
  obtain ⟨token, taken, ahead⟩ := passes
  rw [ahead, List.length_append, List.length_cons]
  omega

theorem passes_of_fewer (suffix : after.ahead <:+ cursor.ahead)
    (fewer : after.ahead.length < cursor.ahead.length) : after.Passes cursor := by
  obtain ⟨taken, split⟩ := suffix
  cases taken with
  | nil =>
      rw [← split] at fewer
      exact absurd fewer (Nat.lt_irrefl _)
  | cons token rest => exact ⟨token, rest, split.symm⟩

theorem Passes.before (passes : after.Passes middle) (suffix : middle.ahead <:+ cursor.ahead) :
    after.Passes cursor := by
  obtain ⟨token, taken, ahead⟩ := passes
  apply passes_of_fewer
  · apply List.IsSuffix.trans _ suffix
    exact ⟨token :: taken, ahead.symm⟩
  · apply Nat.lt_of_lt_of_le _ suffix.length_le
    exact Passes.shorter ⟨token, taken, ahead⟩

theorem Passes.behind (passes : middle.Passes cursor) (suffix : after.ahead <:+ middle.ahead) :
    after.Passes cursor := by
  obtain ⟨token, taken, ahead⟩ := passes
  apply passes_of_fewer
  · apply suffix.trans
    exact ⟨token :: taken, ahead.symm⟩
  · apply Nat.lt_of_le_of_lt suffix.length_le
    exact Passes.shorter ⟨token, taken, ahead⟩

/-! ### Recovery -/

theorem recover_member_ahead (cursor : Cursor) : cursor.recoverMember.ahead <:+ cursor.ahead :=
  (skip_member_leaves 0 cursor.previous cursor.ahead).ahead

theorem recover_item_ahead (cursor : Cursor) : cursor.recoverItem.ahead <:+ cursor.ahead :=
  (skip_item_leaves cursor.previous cursor.ahead).ahead

def Continues (cursor : Cursor) : Prop :=
  (cursor.check (.mark .rightBrace) || cursor.atEnd) = false

theorem Continues.ahead_ne_nil (more : cursor.Continues) : cursor.ahead ≠ [] := by
  intro ended
  rw [Continues, Bool.or_eq_false_iff, atEnd, ended] at more
  cases more.2

/-- Only a `}` stops skipping at the token that it starts with. -/
theorem skip_member_takes (previous : Span) {token : Token} (rest : List Token)
    (other : token.kind ≠ .mark .rightBrace) :
    (skipMember 0 previous (token :: rest)).2 <:+ rest := by
  have skipped (depth : Nat) := (skip_member_leaves depth token.span rest).ahead
  rw [skipMember]
  split
  · exact skipped _
  · exact skipped _
  · exact skipped _
  · exact skipped _
  · exact skipped _
  · next closed => exact absurd closed other
  · exact List.suffix_refl _
  · exact List.suffix_refl _
  · exact skipped _

theorem recover_member_passes (more : cursor.Continues) : cursor.recoverMember.Passes cursor := by
  apply passes_of_suffix more.ahead_ne_nil
  change (skipMember 0 cursor.previous cursor.ahead).2 <:+ cursor.ahead.tail
  obtain ⟨token, rest, ahead⟩ := List.exists_cons_of_ne_nil more.ahead_ne_nil
  rw [ahead]
  apply skip_member_takes
  intro closed
  have next : cursor.check (.mark .rightBrace) = true := by
    rw [check_iff, kind, ahead]
    exact closed
  rw [Continues, next] at more
  cases more

end Cursor

namespace Parse

variable {Result Other State : Type} {least taken : Nat}

def collecting (member : Parse Result) (collected : List Result) : Parse (List Result) := do
  return collected ++ [← member]

inductive MemberStep : {State : Type} → (State → Parse State) → Prop
  | component : MemberStep componentMember
  | contract : MemberStep contractMember
  | storage : MemberStep (collecting storageMember)
  | event : MemberStep (collecting eventVariant)
  | methods : MemberStep (collecting method)

theorem list_block_eq (member : Parse Result) : listBlock member = block (collecting member) [] :=
  rfl

/-! ### Actions -/

/-- What is ahead of an action's end is some of what was ahead before, and where it succeeds it has
taken `least` tokens or more. -/
structure Advances (least : Nat) (action : Parse Result) : Prop where
  ahead (cursor : Cursor) : (action cursor).2.ahead <:+ cursor.ahead
  taken {cursor after : Cursor} {result : Result} : action cursor = (some result, after) →
    after.ahead.length + least ≤ cursor.ahead.length

theorem Settles.advances {bound : Nat} {action : Parse Result}
    (settles : Settles bound least action) : Advances least action :=
  ⟨settles.ahead, fun ran => (settles.read ran).2⟩

namespace Advances

theorem bind {action : Parse Other} {next : Other → Parse Result}
    (first : Advances taken action) (second : ∀ result, Advances (least - taken) (next result)) :
    Advances least (action >>= next) := by
  constructor
  · intro cursor
    exact bind_stops (fun after => after.ahead <:+ cursor.ahead) (first.ahead cursor)
      fun result middle before => ((second result).ahead middle).trans before
  · intro cursor after result ran
    obtain ⟨other, middle, started, goesOn⟩ := bind_succeeded ran
    have less := first.taken started
    have lesser := (second other).taken goesOn
    omega

/-- An action that settles, and more behind it. -/
theorem behind {action : Parse Other} {next : Other → Parse Result}
    (first : Settles 0 taken action) (second : ∀ result, Advances (least - taken) (next result)) :
    Advances least (action >>= next) :=
  .bind first.advances second

theorem pure (result : Result) : Advances 0 (Pure.pure result) :=
  have settles : Settles 0 0 (Pure.pure result) := .pure result
  settles.advances

theorem unexpected_member (attributes : List Attribute) (expected : String) (found : TokenKind) :
    Advances least (unexpectedMember attributes expected found : Parse Result) :=
  have settles : Settles 0 least (unexpectedMember attributes expected found : Parse Result) :=
    .unexpected_member attributes expected found
  settles.advances

/-- The span and the node at the end of a construct. -/
theorem spanned {start : Span} (node : Span → Result) :
    Advances 0 (do return node (← spanFrom start)) :=
  .behind (.look _) fun _ => .pure _

/-! ### Blocks -/

theorem closing (opened : Span) : Advances 0 (closing opened) := by
  constructor
  · intro cursor
    rw [Parse.closing, eat_else_run]
    split
    · next next => exact (Cursor.advance_takes TokenKind.noConfusion next).2.1
    · exact List.suffix_refl _
  · intro cursor after result ran
    rw [Parse.closing, eat_else_run] at ran
    split at ran
    · next next =>
        cases ran
        exact (Cursor.advance_takes TokenKind.noConfusion next).2.1.length_le
    · cases ran

section Blocks

variable {step : State → Parse State}

theorem members (advances : ∀ state, Advances 0 (step state)) (fuel : Nat) (state : State) :
    Advances 0 (members step fuel state) := by
  have ahead (cursor : Cursor) :
      (Parse.members step fuel state cursor).2.ahead <:+ cursor.ahead := by
    have stopped := members_hold step (fun _ after => after.ahead <:+ cursor.ahead) ?reads ?skips
      fuel state cursor (List.suffix_refl _)
    · obtain ⟨_, left, _⟩ := stopped
      exact left
    case reads =>
      intro state before next after _ left ran
      have here := (advances state).ahead before
      rw [ran] at here
      exact here.trans left
    case skips =>
      intro state before after _ left ran
      have here := (advances state).ahead before
      rw [ran] at here
      exact (after.recover_member_ahead.trans here).trans left
  constructor
  · exact ahead
  · intro cursor after result ran
    have shorter := (ahead cursor).length_le
    rw [ran] at shorter
    exact shorter

theorem block (advances : ∀ state, Advances 0 (step state)) (initial : State) :
    Advances 0 (block step initial) := by
  have read : Advances 0 (withFuel fun fuel => Parse.members step fuel initial) := by
    constructor
    · intro cursor
      exact (members advances _ initial).ahead cursor
    · intro cursor after result ran
      exact (members advances _ initial).taken ran
  apply behind (Settles.expect_mark _)
  intro opened
  apply bind read
  intro last
  apply bind (closing opened)
  intro closed
  exact pure last

end Blocks

theorem collecting {member : Parse Result} (settles : Settles 0 1 member)
    (collected : List Result) : Advances 1 (collecting member collected) :=
  .behind settles fun _ => .pure _

theorem within {action : Parse Result} {fewer : Nat} (advances : Advances least action)
    (weaker : fewer ≤ least) : Advances fewer action := by
  constructor
  · exact advances.ahead
  · intro cursor after result ran
    exact Nat.le_trans (Nat.add_le_add_left weaker _) (advances.taken ran)

theorem list_block {member : Parse Result} (settles : Settles 0 1 member) :
    Advances 0 (listBlock member) := by
  rw [list_block_eq]
  apply block
  exact fun collected => (collecting settles collected).within (Nat.zero_le 1)

/-! ### Members -/

theorem storage_block : Advances 1 storageBlock :=
  .behind (.look _) fun _ => .behind (.expect_keyword _) fun _ =>
    .bind (.list_block .storage_member) fun _ => .spanned _

theorem event_block : Advances 1 eventBlock :=
  .behind (.look _) fun _ => .behind (.expect_keyword _) fun _ =>
    .bind (.list_block .event_variant) fun _ => .spanned _

theorem keep_first {Block : Type} (present : Option Block) (block : Block) (word owner : String)
    (span : Span) : Advances 0 (keepFirst present block word owner span) := by
  cases present with
  | none => exact .pure _
  | some first =>
      constructor
      · intro cursor
        exact List.suffix_refl _
      · intro cursor after result ran
        cases ran
        exact Nat.le_refl _

theorem interface : Advances 1 interface :=
  .behind (.look _) fun _ => .behind (.expect_keyword _) fun _ => .behind .identifier fun _ =>
    .bind (.list_block .method) fun _ => .spanned _

theorem implementation (attributes : List Attribute) : Advances 1 (implementation attributes) := by
  refine .behind (.start_behind _) fun _ => .behind (.expect_keyword _) fun _ =>
    .behind .identifier fun _ => .behind (.eat TokenKind.noConfusion) fun ofInterface => ?_
  split
  · refine .behind .identifier fun _ => .behind (.eat TokenKind.noConfusion) fun ended => ?_
    split
    · exact .bind (.pure _) fun _ => .spanned _
    · exact .bind (.list_block .method) fun _ => .spanned _
  · exact .bind (.list_block .method) fun _ => .spanned _

theorem component_member (decl : ComponentDecl) : Advances 1 (componentMember decl) := by
  refine .behind .attributes fun attributes => .behind (.look _) fun kind => ?_
  split
  · exact .bind .storage_block fun _ => .bind (.keep_first _ _ _ _ _) fun _ => .pure _
  · exact .bind .event_block fun _ => .bind (.keep_first _ _ _ _ _) fun _ => .pure _
  · exact .bind .interface fun _ => .pure _
  · exact .bind (.implementation _) fun _ => .pure _
  · exact .unexpected_member _ _ _

theorem contract_member (decl : ContractDecl) : Advances 1 (contractMember decl) := by
  refine .behind .attributes fun attributes => .behind (.look _) fun kind => ?_
  split
  · exact .behind .inclusion fun _ => .pure _
  · exact .behind (.exposure _) fun _ => .pure _
  · exact .bind .storage_block fun _ => .bind (.keep_first _ _ _ _ _) fun _ => .pure _
  · exact .bind .event_block fun _ => .bind (.keep_first _ _ _ _ _) fun _ => .pure _
  · exact .unexpected_member _ _ _

end Advances

/-- Each step of a block adds a member that takes a token. -/
theorem MemberStep.advances {step : State → Parse State} (known : MemberStep step) (state : State) :
    Advances 1 (step state) := by
  cases known with
  | component => exact .component_member state
  | contract => exact .contract_member state
  | storage => exact .collecting .storage_member state
  | event => exact .collecting .event_variant state
  | methods => exact .collecting .method state

theorem Settles.collecting {bound : Nat} {member : Parse Result} (settles : Settles bound 1 member)
    (collected : List Result) : Settles bound 0 (collecting member collected) :=
  .bind (settles.within (Nat.le_refl _) (Nat.zero_le 1)) fun _ => .pure _

/-- A member is given up with an error only. So no list inside of it and no type ends for want of
fuel. -/
theorem MemberStep.reports {step : State → Parse State} (known : MemberStep step) (state : State)
    {cursor : Cursor} (room : cursor.log.isFull = false) (broken : (step state cursor).1 = none) :
    cursor.log.totalErrors < (step state cursor).2.log.totalErrors := by
  have of_sound {reading : Reading State}
      (sound : Sound (cursor.ahead.length + 1) (step state) reading) :
      cursor.log.totalErrors < (step state cursor).2.log.totalErrors := by
    rcases sound.clean cursor (Nat.lt_succ_self _) room with errors | ⟨result, after, ran, _⟩
    · exact errors
    · rw [ran] at broken
      cases broken
  have of_settles (settles : Settles (cursor.ahead.length + 1) 0 (step state)) :
      cursor.log.totalErrors < (step state cursor).2.log.totalErrors := by
    obtain ⟨report, log⟩ := settles.failed (Nat.lt_succ_self _) (Prod.ext broken rfl)
    rw [log]
    exact Nat.lt_succ_self _
  cases known with
  | component => exact of_sound (.component_member state)
  | contract => exact of_sound (.contract_member state)
  | storage => exact of_settles (.collecting .storage_member state)
  | event => exact of_settles (.collecting .event_variant state)
  | methods => exact of_settles (.collecting .method state)

/-! ### Loops -/

/-- A loop over tokens: what it comes to where it stops, and what one round of it makes of its state
and of the cursor. -/
structure Loop (State Outcome : Type) where
  stops : State → Cursor → Option Outcome
  round : State → Cursor → State × Cursor

namespace Loop

variable {Outcome : Type} {loop : Loop State Outcome}

inductive Runs (loop : Loop State Outcome) : State → Cursor → Nat → Outcome → Prop
  | stop {state : State} {cursor : Cursor} {outcome : Outcome}
      (stops : loop.stops state cursor = some outcome) : Runs loop state cursor 0 outcome
  | round {state : State} {cursor : Cursor} {rounds : Nat} {outcome : Outcome}
      (goesOn : loop.stops state cursor = none)
      (others : Runs loop (loop.round state cursor).1 (loop.round state cursor).2 rounds outcome) :
      Runs loop state cursor (rounds + 1) outcome

/-- Each round takes a token, and so the loop ends, with a round for each token ahead at most and
with one outcome, as given. -/
structure Ends (loop : Loop State Outcome) (outcome : State → Cursor → Outcome) : Prop where
  advances {state : State} {cursor : Cursor} : loop.stops state cursor = none →
    (loop.round state cursor).2.Passes cursor
  runs (state : State) (cursor : Cursor) : ∃ rounds ≤ cursor.ahead.length,
    ∀ count result, loop.Runs state cursor count result ↔
      count = rounds ∧ result = outcome state cursor

theorem Runs.unique {state : State} {cursor : Cursor} {rounds count : Nat}
    {outcome other : Outcome} (runs : loop.Runs state cursor rounds outcome)
    (again : loop.Runs state cursor count other) : count = rounds ∧ other = outcome := by
  induction runs generalizing count with
  | stop stops =>
      cases again with
      | stop stopsAgain =>
          rw [stops] at stopsAgain
          exact ⟨rfl, (Option.some.inj stopsAgain).symm⟩
      | round goesOn _ =>
          rw [stops] at goesOn
          cases goesOn
  | round goesOn _ ih =>
      cases again with
      | stop stops =>
          rw [goesOn] at stops
          cases stops
      | round _ others =>
          obtain ⟨counts, same⟩ := ih others
          exact ⟨congrArg (· + 1) counts, same⟩

/-- As each round takes a token, the number of tokens ahead carries the induction. -/
theorem runs_of_advances
    (advances : ∀ {state cursor}, loop.stops state cursor = none →
      (loop.round state cursor).2.Passes cursor) (state : State) (cursor : Cursor) :
    ∃ rounds ≤ cursor.ahead.length, ∃ outcome, loop.Runs state cursor rounds outcome := by
  induction length : cursor.ahead.length using Nat.strongRecOn generalizing state cursor with
  | ind size ih =>
      cases stops : loop.stops state cursor with
      | some outcome => exact ⟨0, Nat.zero_le _, outcome, .stop stops⟩
      | none =>
          have shorter := (advances stops).shorter
          rw [length] at shorter
          obtain ⟨rounds, few, outcome, others⟩ :=
            ih _ shorter (loop.round state cursor).1 (loop.round state cursor).2 rfl
          exact ⟨rounds + 1, Nat.le_trans (Nat.succ_le_succ few) shorter, outcome,
            .round stops others⟩

theorem ends_of_advances {result : State → Cursor → Outcome}
    (advances : ∀ {state cursor}, loop.stops state cursor = none →
      (loop.round state cursor).2.Passes cursor)
    (computes : ∀ {state cursor rounds outcome}, loop.Runs state cursor rounds outcome →
      rounds ≤ cursor.ahead.length → outcome = result state cursor) : loop.Ends result := by
  constructor
  · exact advances
  · intro state cursor
    obtain ⟨rounds, few, outcome, runs⟩ := runs_of_advances advances state cursor
    have same := computes runs few
    refine ⟨rounds, few, fun count other => ⟨fun again => ?_, fun given => ?_⟩⟩
    · rw [← same]
      exact runs.unique again
    · rw [given.1, given.2, ← same]
      exact runs

end Loop

/-! ### Members of blocks -/

section Blocks

variable {step : State → Parse State}

/-- The loop over the members of a block. A broken member is skipped and leaves the state as it
was. -/
def memberLoop (step : State → Parse State) : Loop State (Option State × Cursor) where
  stops state cursor :=
    if cursor.check (.mark .rightBrace) || cursor.atEnd then some (some state, cursor)
    else if cursor.log.isFull then some (none, cursor)
    else none
  round state cursor := match step state cursor with
    | (some next, after) => (next, after)
    | (none, after) => (state, after.recoverMember)

theorem member_loop_goes_on {state : State} {cursor : Cursor}
    (goesOn : (memberLoop step).stops state cursor = none) :
    cursor.Continues ∧ cursor.log.isFull = false := by
  simp only [memberLoop] at goesOn
  split at goesOn
  · cases goesOn
  · next more =>
      split at goesOn
      · cases goesOn
      · next room => exact ⟨eq_false_of_ne_true more, eq_false_of_ne_true room⟩

/-- A member that is read takes a token. Behind a broken one that took none skipping starts at a
token which it takes. -/
theorem member_round_passes (advances : ∀ state, Advances 1 (step state)) {state : State}
    {cursor : Cursor} (more : cursor.Continues) :
    ((memberLoop step).round state cursor).2.Passes cursor := by
  have suffix := (advances state).ahead cursor
  simp only [memberLoop]
  cases ran : step state cursor with
  | mk outcome after =>
      rw [ran] at suffix
      cases outcome with
      | some next =>
          apply Cursor.passes_of_fewer suffix
          exact (advances state).taken ran
      | none =>
          rcases Nat.lt_or_ge after.ahead.length cursor.ahead.length with fewer | same
          · exact (Cursor.passes_of_fewer suffix fewer).behind after.recover_member_ahead
          · have untouched := suffix.eq_of_length_le same
            have still : after.Continues := by
              rwa [Cursor.Continues, Cursor.check, Cursor.kind, Cursor.atEnd, untouched]
            exact (Cursor.recover_member_passes still).before suffix

theorem member_runs_compute {state : State} {cursor : Cursor} {rounds : Nat}
    {outcome : Option State × Cursor} (runs : (memberLoop step).Runs state cursor rounds outcome)
    {fuel : Nat} (enough : rounds < fuel) : members step fuel state cursor = outcome := by
  induction runs generalizing fuel with
  | stop stops =>
      obtain ⟨fuel, rfl⟩ := Nat.exists_eq_succ_of_ne_zero (Nat.ne_of_gt enough)
      rw [members_succ]
      simp only [memberLoop] at stops
      split at stops
      · next closed =>
          rw [if_pos closed]
          exact Option.some.inj stops
      · next more =>
          rw [if_neg more]
          split at stops
          · next full =>
              rw [if_pos full]
              exact Option.some.inj stops
          · cases stops
  | @round state cursor rounds outcome goesOn others ih =>
      obtain ⟨fuel, rfl⟩ := Nat.exists_eq_succ_of_ne_zero (Nat.ne_zero_of_lt enough)
      have later := ih (Nat.lt_of_succ_lt_succ enough)
      obtain ⟨more, room⟩ := member_loop_goes_on goesOn
      simp only [memberLoop] at later
      rcases members_round step fuel state (ne_true_of_eq_false more) room with
        ⟨next, after, ran, whole⟩ | ⟨after, ran, whole⟩
      · rw [ran] at later
        exact whole.trans later
      · rw [ran] at later
        exact whole.trans later

end Blocks

/-- Every loop over members ends, and comes to what it comes to with fuel. -/
theorem MemberStep.ends {step : State → Parse State} (known : MemberStep step) :
    (memberLoop step).Ends fun state => withFuel fun fuel => members step fuel state := by
  apply Loop.ends_of_advances
  · intro state cursor goesOn
    exact member_round_passes known.advances (member_loop_goes_on goesOn).1
  · intro state cursor rounds outcome runs few
    exact (member_runs_compute runs (Nat.lt_succ_of_le few)).symm

/-! ### Items -/

def itemLoop : Loop (List Item) (List Item × Cursor) where
  stops collected cursor := if cursor.atEnd || cursor.log.isFull then some (collected, cursor) else none
  round collected cursor := match item cursor with
    | (some item, after) => (collected ++ [item], after)
    | (none, after) => (collected, after.recoverItem)

theorem expect_found {kind : TokenKind} {cursor : Cursor} (next : cursor.check kind = true) :
    expect kind cursor = (some cursor.advance.previous, cursor.advance) := by
  rw [expect, eat_else_run, if_pos next]
  rfl

/-- Another token than the expected one is reported and left where it is. -/
theorem expect_missing {kind : TokenKind} {cursor : Cursor} (other : cursor.check kind = false) :
    ∃ message, expect kind cursor =
      (none, cursor.report .unexpectedToken message cursor.span) := by
  rw [expect, eat_else_run, if_neg (ne_true_of_eq_false other)]
  exact ⟨_, rfl⟩

theorem closing_found {opened : Span} {cursor : Cursor}
    (next : cursor.check (.mark .rightBrace) = true) :
    closing opened cursor = (some (), cursor.advance) := by
  rw [closing, eat_else_run, if_pos next]
  rfl

theorem closing_missing {opened : Span} {cursor : Cursor}
    (other : cursor.check (.mark .rightBrace) = false) : (closing opened cursor).1 = none := by
  rw [closing, eat_else_run, if_neg (ne_true_of_eq_false other)]
  rfl

theorem expect_passes {kind : TokenKind} (real : kind ≠ .endOfFile) {cursor : Cursor}
    (found : cursor.check kind = true) : (expect kind cursor).2.Passes cursor := by
  obtain ⟨_, suffix, fewer⟩ := Cursor.advance_takes real found
  rw [expect_found found]
  exact Cursor.passes_of_fewer suffix (Nat.lt_of_succ_le (Nat.le_of_eq fewer))

/-- What follows an action that took a token puts none back. -/
theorem passes_of_first {action : Parse Other} {next : Other → Parse Result} {cursor : Cursor}
    (passes : (action cursor).2.Passes cursor) (advances : ∀ result, Advances 0 (next result)) :
    ((action >>= next) cursor).2.Passes cursor :=
  bind_stops (·.Passes cursor) passes fun result middle passed =>
    passed.behind ((advances result).ahead middle)

theorem component_passes {cursor : Cursor} (found : cursor.check (.keyword .component) = true) :
    (component cursor).2.Passes cursor := by
  apply passes_of_first (expect_passes TokenKind.noConfusion found)
  exact fun _ => .behind .identifier fun _ =>
    .bind (.block (fun decl => (Advances.component_member decl).within (Nat.zero_le 1)) _) fun _ =>
      .spanned _

theorem contract_passes {cursor : Cursor} (found : cursor.check (.keyword .contract) = true) :
    (contract cursor).2.Passes cursor := by
  apply passes_of_first (expect_passes TokenKind.noConfusion found)
  exact fun _ => .behind .identifier fun _ =>
    .bind (.block (fun decl => (Advances.contract_member decl).within (Nat.zero_le 1)) _) fun _ =>
      .spanned _

/-- Whatever stands where an item should, its first token is taken. -/
theorem item_passes {cursor : Cursor} (more : cursor.atEnd = false) :
    (item cursor).2.Passes cursor := by
  have some : cursor.ahead ≠ [] := by
    intro ended
    rw [Cursor.atEnd, ended] at more
    cases more
  rw [item, kind_run]
  generalize next : cursor.kind = kind
  split
  · exact passes_of_first (component_passes (Cursor.check_iff.mpr next)) fun _ => .pure _
  · exact passes_of_first (contract_passes (Cursor.check_iff.mpr next)) fun _ => .pure _
  · apply Cursor.passes_of_suffix some
    change (cursor.report _ _ _).advance.ahead <:+ cursor.ahead.tail
    obtain ⟨token, rest, ahead⟩ := List.exists_cons_of_ne_nil some
    rw [Cursor.advance, Cursor.report, ahead]
    exact List.suffix_refl _

theorem item_loop_goes_on {collected : List Item} {cursor : Cursor}
    (goesOn : itemLoop.stops collected cursor = none) :
    (cursor.atEnd || cursor.log.isFull) = false := by
  simp only [itemLoop] at goesOn
  split at goesOn
  · cases goesOn
  · next more => exact eq_false_of_ne_true more

theorem item_round_passes {collected : List Item} {cursor : Cursor} (more : cursor.atEnd = false) :
    (itemLoop.round collected cursor).2.Passes cursor := by
  have passes := item_passes more
  simp only [itemLoop]
  cases ran : item cursor with
  | mk outcome after =>
      rw [ran] at passes
      cases outcome with
      | some item => exact passes
      | none => exact passes.behind after.recover_item_ahead

theorem item_runs_compute {collected : List Item} {cursor : Cursor} {rounds : Nat}
    {outcome : List Item × Cursor} (runs : itemLoop.Runs collected cursor rounds outcome)
    {fuel : Nat} (enough : rounds < fuel) :
    outcome = (collected ++ (items fuel cursor).1, (items fuel cursor).2) := by
  induction runs generalizing fuel with
  | stop stops =>
      obtain ⟨fuel, rfl⟩ := Nat.exists_eq_succ_of_ne_zero (Nat.ne_of_gt enough)
      rw [items_succ]
      simp only [itemLoop] at stops
      split at stops
      · next stopped =>
          rw [if_pos stopped, List.append_nil]
          exact (Option.some.inj stops).symm
      · cases stops
  | @round collected cursor rounds outcome goesOn others ih =>
      obtain ⟨fuel, rfl⟩ := Nat.exists_eq_succ_of_ne_zero (Nat.ne_zero_of_lt enough)
      have later := ih (Nat.lt_of_succ_lt_succ enough)
      rw [later]
      simp only [itemLoop]
      rcases items_round fuel (ne_true_of_eq_false (item_loop_goes_on goesOn)) with
        ⟨node, after, ran, whole⟩ | ⟨after, ran, whole⟩
      · rw [whole, ran, List.append_assoc, List.singleton_append]
      · rw [whole, ran]

/-- The loop over items ends, and comes to what it comes to with fuel. -/
theorem item_loop_ends :
    itemLoop.Ends fun collected cursor =>
      (collected ++ (items (cursor.ahead.length + 1) cursor).1,
        (items (cursor.ahead.length + 1) cursor).2) := by
  apply Loop.ends_of_advances
  · intro collected cursor goesOn
    apply item_round_passes
    exact (Bool.or_eq_false_iff.mp (item_loop_goes_on goesOn)).1
  · intro collected cursor rounds outcome runs few
    exact item_runs_compute runs (Nat.lt_succ_of_le few)

/-- The tokens ahead are the last ones of those ahead of `start`, and the end-of-file token behind them
is the same. -/
def Invariant.endsOf (start : Cursor) : Invariant where
  Holds cursor := cursor.ahead <:+ start.ahead ∧ cursor.beyond = start.beyond
  Allows _ := True
  span _ := trivial
  previous _ := trivial
  cover _ _ := trivial
  advance {cursor} held more := by
    obtain ⟨token, rest, ahead⟩ := Cursor.ahead_of_more more
    rw [ahead] at held
    rw [Cursor.advance_of_ahead ahead]
    exact ⟨(List.suffix_cons token rest).trans held.1, held.2⟩
  report _ _ _ held _ := held
  recover_member {cursor} held := ⟨cursor.recover_member_ahead.trans held.1, held.2⟩
  recover_item {cursor} held := ⟨cursor.recover_item_ahead.trans held.1, held.2⟩

end Parse

open Parse in
/-- Reading makes progress. Whatever has been read before, each round of the loop over the members of
a block takes a token, so that the loop ends after a round for each token ahead at most; a member
that is given up has been reported. Each round of the loop over items takes a token, and reading a
list of tokens is that loop run from their first one; it steps over no end-of-file token. -/
theorem SourceFile.reading_progresses (file : SourceFile) (tokens : List Token) :
    (∀ {State : Type} {step : State → Parse State}, MemberStep step →
      ((memberLoop step).Ends fun state => withFuel fun fuel => members step fuel state) ∧
      ∀ state cursor, cursor.log.isFull = false → (step state cursor).1 = none →
        cursor.log.totalErrors < (step state cursor).2.log.totalErrors) ∧
    (itemLoop.Ends fun collected cursor =>
      (collected ++ (items (cursor.ahead.length + 1) cursor).1,
        (items (cursor.ahead.length + 1) cursor).2)) ∧
    (∃ rounds ≤ (tokens.takeWhile (·.kind ≠ .endOfFile)).length,
      itemLoop.Runs [] (Cursor.ofTokens file tokens) rounds (file.readTokens tokens)) ∧
    (file.readTokens tokens).2.ahead <:+ tokens.takeWhile (·.kind ≠ .endOfFile) ∧
      (file.readTokens tokens).2.beyond = (Cursor.ofTokens file tokens).beyond := by
  have ends := item_loop_ends
  have stopped := (items_keep (.endsOf (Cursor.ofTokens file tokens))
    ((Cursor.ofTokens file tokens).ahead.length + 1) ⟨List.suffix_refl _, rfl⟩).1
  rw [← Cursor.of_tokens_ahead file tokens]
  refine ⟨fun known => ⟨known.ends, fun state _ => known.reports state⟩, ends, ?_, stopped⟩
  obtain ⟨rounds, few, runs⟩ := ends.runs [] (Cursor.ofTokens file tokens)
  exact ⟨rounds, few, (runs rounds (file.readTokens tokens)).mpr ⟨rfl, rfl⟩⟩

end Composer
