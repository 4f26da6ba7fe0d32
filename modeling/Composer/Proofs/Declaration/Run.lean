import Composer.Declaration.Grammar

/-!
Cursors by the kinds of the tokens ahead, and runs of actions one after another. Parsing decides by
kinds alone; spans only travel into results and reports.
-/

namespace Composer

namespace Cursor

def kinds (cursor : Cursor) : List TokenKind := cursor.ahead.map (·.kind)

theorem kind_eq_head (cursor : Cursor) : cursor.kind = cursor.kinds.headD .endOfFile := by
  rw [kind, kinds]
  cases cursor.ahead <;> rfl

theorem check_iff {cursor : Cursor} {kind : TokenKind} :
    cursor.check kind = true ↔ cursor.kind = kind :=
  decide_eq_true_iff

theorem at_end_iff (cursor : Cursor) : cursor.atEnd = true ↔ cursor.kinds = [] := by
  simp [atEnd, kinds]

@[simp]
theorem length_kinds (cursor : Cursor) : cursor.kinds.length = cursor.ahead.length := by
  simp [kinds]

/-! ### The next token -/

section Next

variable {cursor : Cursor} {token : Token} {rest : List Token} {kind : TokenKind}

theorem kind_of_ahead (ahead : cursor.ahead = token :: rest) : cursor.kind = token.kind := by
  rw [Cursor.kind, ahead]

theorem span_of_ahead (ahead : cursor.ahead = token :: rest) : cursor.span = token.span := by
  rw [span, ahead]

theorem check_of_ahead (ahead : cursor.ahead = token :: rest) (same : token.kind = kind) :
    cursor.check kind = true :=
  check_iff.mpr ((kind_of_ahead ahead).trans same)

theorem advance_of_ahead (ahead : cursor.ahead = token :: rest) :
    cursor.advance = { cursor with previous := token.span, ahead := rest } := by
  rw [advance, ahead]

theorem ahead_of_check (real : kind ≠ .endOfFile) (next : cursor.check kind = true) :
    ∃ token rest, token.kind = kind ∧ cursor.ahead = token :: rest := by
  rw [check_iff, Cursor.kind] at next
  cases ahead : cursor.ahead with
  | nil =>
      rw [ahead] at next
      exact absurd next.symm real
  | cons token rest =>
      rw [ahead] at next
      exact ⟨token, rest, next, rfl⟩

theorem at_end_of_check (real : kind ≠ .endOfFile) (next : cursor.check kind = true) :
    cursor.atEnd = false := by
  obtain ⟨token, rest, _, ahead⟩ := ahead_of_check real next
  rw [atEnd, ahead]
  rfl

theorem ahead_of_more (more : cursor.atEnd = false) : ∃ token rest, cursor.ahead = token :: rest := by
  apply List.exists_cons_of_ne_nil
  intro ended
  rw [atEnd, ended] at more
  cases more

theorem ahead_advance (more : cursor.atEnd = false) : cursor.advance.ahead = cursor.ahead.tail := by
  obtain ⟨token, rest, ahead⟩ := ahead_of_more more
  rw [advance_of_ahead ahead, ahead, List.tail_cons]

@[simp]
theorem log_advance (cursor : Cursor) : cursor.advance.log = cursor.log := by
  rw [advance, stepOver]
  split
  · split <;> rfl
  · rfl

theorem kinds_of_check (real : kind ≠ .endOfFile) (next : cursor.check kind = true) :
    cursor.kinds = kind :: cursor.advance.kinds := by
  obtain ⟨token, rest, rfl, ahead⟩ := ahead_of_check real next
  rw [advance_of_ahead ahead, kinds, ahead, List.map_cons]
  rfl

theorem advance_takes (real : kind ≠ .endOfFile) (next : cursor.check kind = true) :
    cursor.advance.log = cursor.log ∧ cursor.advance.ahead <:+ cursor.ahead ∧
      cursor.advance.ahead.length + 1 = cursor.ahead.length := by
  obtain ⟨token, rest, _, ahead⟩ := ahead_of_check real next
  rw [advance_of_ahead ahead, ahead]
  exact ⟨rfl, List.suffix_cons token rest, rfl⟩

end Next

/-! ### The first token -/

section First

variable (file : SourceFile) (tokens : List Token)

theorem of_tokens_ahead :
    (ofTokens file tokens).ahead = tokens.takeWhile (·.kind ≠ .endOfFile) := by
  change (closed tokens).takeWhile (·.kind ≠ .endOfFile) = _
  rw [closed]
  split
  · next empty =>
      rw [List.getLast?_eq_none_iff.mp empty]
      rfl
  · split
    · rfl
    · rw [List.takeWhile_append]
      split
      · next all => rw [(List.takeWhile_prefix _).eq_of_length all, List.takeWhile_cons_of_neg (by simp),
          List.append_nil]
      · rfl

/-- Where no token ends the file, the input ends at the last token. -/
theorem of_tokens_finish : (ofTokens file tokens).finish =
    match tokens.find? (·.kind = .endOfFile) with
    | some token => token.span
    | none => match tokens.getLast? with
      | some token => token.span
      | none => .point 1 1 := by
  rw [ofTokens, facing, closed]
  cases found : tokens.getLast? with
  | none =>
      rw [List.getLast?_eq_none_iff.mp found]
      rfl
  | some last =>
      dsimp only
      by_cases ends : last.kind = .endOfFile
      · obtain ⟨front, rfl⟩ := List.getLast?_eq_some_iff.mp found
        rw [if_pos ends, List.find?_append, List.find?_cons_of_pos (by simpa using ends)]
        cases front.find? (·.kind = .endOfFile) <;> rfl
      · rw [if_neg ends, List.find?_append]
        cases tokens.find? (·.kind = .endOfFile) <;> rfl

theorem of_tokens_finish_mem : (ofTokens file tokens).finish = .point 1 1 ∨
    ∃ token ∈ tokens, (ofTokens file tokens).finish = token.span := by
  rw [of_tokens_finish]
  split
  · next token found => exact .inr ⟨token, List.mem_of_find?_eq_some found, rfl⟩
  · split
    · next token found => exact .inr ⟨token, List.mem_of_getLast? found, rfl⟩
    · exact .inl rfl

end First

end Cursor

namespace Parse

variable {Result Other : Type} {action : Parse Result} {next : Result → Parse Other}
  {cursor middle : Cursor}

theorem bind_of_some {result : Result} (ran : action cursor = (some result, middle)) :
    (action >>= next) cursor = next result middle := by
  simp only [bind, ran]

theorem bind_of_none (ran : action cursor = (none, middle)) :
    (action >>= next) cursor = (none, middle) := by
  simp only [bind, ran]

/-- One action behind another: the first fails, and that is all, or the second goes on. -/
theorem bind_cases (action : Parse Result) (next : Result → Parse Other) (cursor : Cursor) :
    (∃ middle, action cursor = (none, middle) ∧ (action >>= next) cursor = (none, middle)) ∨
      ∃ result middle, action cursor = (some result, middle) ∧
        (action >>= next) cursor = next result middle := by
  rcases ran : action cursor with ⟨_ | result, middle⟩
  · exact .inl ⟨middle, rfl, bind_of_none ran⟩
  · exact .inr ⟨result, middle, rfl, bind_of_some ran⟩

/-- Where one action behind another succeeds, the first one did. -/
theorem bind_succeeded {other : Other} {after : Cursor}
    (ran : (action >>= next) cursor = (some other, after)) :
    ∃ result middle, action cursor = (some result, middle) ∧
      next result middle = (some other, after) := by
  rcases bind_cases action next cursor with ⟨_, _, failed⟩ | ⟨result, middle, started, goesOn⟩
  · rw [failed] at ran
    cases ran
  · exact ⟨result, middle, started, goesOn.symm.trans ran⟩

/-- What holds where the first action stops, and stays so over the second, holds where both stop. -/
theorem bind_stops (Holds : Cursor → Prop) (first : Holds (action cursor).2)
    (second : ∀ result middle, Holds middle → Holds (next result middle).2) :
    Holds ((action >>= next) cursor).2 := by
  rcases bind_cases action next cursor with ⟨middle, ran, whole⟩ | ⟨result, middle, ran, whole⟩
  · rw [whole]
    rwa [ran] at first
  · rw [whole]
    rw [ran] at first
    exact second result middle first

theorem kind_run (next : TokenKind → Parse Other) (cursor : Cursor) :
    (kind >>= next) cursor = next cursor.kind cursor :=
  rfl

theorem eat_else_run (kind : TokenKind) (yes no : Parse Result) (cursor : Cursor) :
    (eat kind >>= fun took => if took = true then yes else no) cursor =
      if cursor.check kind then yes cursor.advance else no cursor := by
  by_cases ahead : cursor.check kind = true
  · rw [if_pos ahead, bind_of_some (by rw [eat, if_pos ahead]), if_pos rfl]
  · rw [if_neg ahead, bind_of_some (by rw [eat, if_neg ahead]), if_neg (by simp)]

/-- Either the next token is an identifier and is taken, or that is reported. -/
theorem identifier_cases (cursor : Cursor) :
    (∃ name, cursor.check (.identifier name) = true ∧
      identifier cursor = (some ⟨name, cursor.advance.previous⟩, cursor.advance)) ∨
    ∃ message, identifier cursor = (none, cursor.report .unexpectedToken message cursor.span) := by
  rw [identifier, kind_run]
  cases next : cursor.kind with
  | identifier name => exact .inl ⟨name, Cursor.check_iff.mpr next, rfl⟩
  | keyword word => exact .inr ⟨_, rfl⟩
  | mark sign => exact .inr ⟨_, rfl⟩
  | endOfFile => exact .inr ⟨_, rfl⟩

/-- Either an item is read, or the next token is reported and taken. -/
theorem item_cases (cursor : Cursor) :
    item cursor = (component >>= fun decl => pure (.component decl)) cursor ∨
      item cursor = (contract >>= fun decl => pure (.contract decl)) cursor ∨
      ∃ message, item cursor =
        (none, (cursor.report .unexpectedToken message cursor.span).advance) := by
  rw [item, kind_run]
  generalize cursor.kind = found
  split
  · exact .inl rfl
  · exact .inr (.inl rfl)
  · exact .inr (.inr ⟨_, rfl⟩)

/-! ### Loops -/

section Members

variable {State : Type} (step : State → Parse State)

theorem members_succ (fuel : Nat) (state : State) (cursor : Cursor) :
    members step (fuel + 1) state cursor =
      if cursor.check (.mark .rightBrace) || cursor.atEnd then (some state, cursor)
      else if cursor.log.isFull then (none, cursor)
      else match step state cursor with
        | (some state, cursor) => members step fuel state cursor
        | (none, cursor) => members step fuel state cursor.recoverMember :=
  rfl

/-- A round before the end reads a member, or gives a broken one up. -/
theorem members_round (fuel : Nat) (state : State) {cursor : Cursor}
    (more : ¬(cursor.check (.mark .rightBrace) || cursor.atEnd) = true)
    (room : cursor.log.isFull = false) :
    (∃ next after, step state cursor = (some next, after) ∧
        members step (fuel + 1) state cursor = members step fuel next after) ∨
      ∃ after, step state cursor = (none, after) ∧
        members step (fuel + 1) state cursor = members step fuel state after.recoverMember := by
  rw [members_succ, if_neg more, if_neg (ne_true_of_eq_false room)]
  rcases step state cursor with ⟨_ | next, after⟩
  · exact .inr ⟨after, rfl, rfl⟩
  · exact .inl ⟨next, after, rfl, rfl⟩

/-- What holds before the loop over members, and goes on to hold when a member is read and when a
broken one is given up, holds where the loop stops, of the state that it stops in. -/
theorem members_hold (Holds : State → Cursor → Prop)
    (reads : ∀ {state cursor next after}, cursor.log.isFull = false → Holds state cursor →
      step state cursor = (some next, after) → Holds next after)
    (skips : ∀ {state cursor after}, cursor.log.isFull = false → Holds state cursor →
      step state cursor = (none, after) → Holds state after.recoverMember)
    (fuel : Nat) (state : State) (cursor : Cursor) (held : Holds state cursor) :
    ∃ last, Holds last (members step fuel state cursor).2 ∧
      ∀ read, (members step fuel state cursor).1 = some read → read = last := by
  induction fuel generalizing state cursor with
  | zero => exact ⟨state, held, nofun⟩
  | succ fuel ih =>
      by_cases closed : (cursor.check (.mark .rightBrace) || cursor.atEnd) = true
      · rw [members_succ, if_pos closed]
        exact ⟨state, held, fun _ read => (Option.some.inj read).symm⟩
      · by_cases full : cursor.log.isFull = true
        · rw [members_succ, if_neg closed, if_pos full]
          exact ⟨state, held, nofun⟩
        · have room := eq_false_of_ne_true full
          rcases members_round step fuel state closed room with
            ⟨next, after, ran, goesOn⟩ | ⟨after, ran, goesOn⟩
          · rw [goesOn]
            exact ih next after (reads room held ran)
          · rw [goesOn]
            exact ih state after.recoverMember (skips room held ran)

end Members

theorem items_succ (fuel : Nat) (cursor : Cursor) :
    items (fuel + 1) cursor =
      if cursor.atEnd || cursor.log.isFull then ([], cursor)
      else match item cursor with
        | (some item, after) => (item :: (items fuel after).1, (items fuel after).2)
        | (none, after) => items fuel after.recoverItem :=
  rfl

/-- A round before the end reads an item, or gives a broken one up. -/
theorem items_round (fuel : Nat) {cursor : Cursor}
    (more : ¬(cursor.atEnd || cursor.log.isFull) = true) :
    (∃ node after, item cursor = (some node, after) ∧
        items (fuel + 1) cursor = (node :: (items fuel after).1, (items fuel after).2)) ∨
      ∃ after, item cursor = (none, after) ∧
        items (fuel + 1) cursor = items fuel after.recoverItem := by
  rw [items_succ, if_neg more]
  rcases item cursor with ⟨_ | node, after⟩
  · exact .inr ⟨after, rfl, rfl⟩
  · exact .inl ⟨node, after, rfl, rfl⟩

/-- What holds before the items, and goes on to hold when one is read and when a broken one is given
up, holds behind them, and each item is as reading one makes it. -/
theorem items_hold (Holds : Cursor → Prop) (Fits : Item → Prop)
    (reads : ∀ {cursor node after}, cursor.atEnd = false → cursor.log.isFull = false →
      Holds cursor → item cursor = (some node, after) → Holds after ∧ Fits node)
    (skips : ∀ {cursor after}, cursor.atEnd = false → cursor.log.isFull = false →
      Holds cursor → item cursor = (none, after) → Holds after.recoverItem)
    (fuel : Nat) (cursor : Cursor) (held : Holds cursor) :
    Holds (items fuel cursor).2 ∧ ∀ node ∈ (items fuel cursor).1, Fits node := by
  induction fuel generalizing cursor with
  | zero => exact ⟨held, nofun⟩
  | succ fuel ih =>
      by_cases ended : (cursor.atEnd || cursor.log.isFull) = true
      · rw [items_succ, if_pos ended]
        exact ⟨held, nofun⟩
      · obtain ⟨more, room⟩ := Bool.or_eq_false_iff.mp (eq_false_of_ne_true ended)
        rcases items_round fuel ended with ⟨node, after, ran, goesOn⟩ | ⟨after, ran, goesOn⟩
        · obtain ⟨holds, fits⟩ := reads more room held ran
          obtain ⟨finish, others⟩ := ih after holds
          rw [goesOn]
          exact ⟨finish, List.forall_mem_cons.mpr ⟨fits, others⟩⟩
        · rw [goesOn]
          exact ih after.recoverItem (skips more room held ran)

/-- A type by the token it starts with. -/
theorem type_within_succ (depth : Nat) : typeWithin (depth + 1) = (do
    let start ← currentSpan
    if ← eat (.mark .atSign) then
      let inner ← typeWithin depth
      return .snapshot inner (← spanFrom start)
    else if ← eat (.mark .leftParen) then
      let items ← withFuel (upTo (.mark .rightParen) (typeWithin depth))
      let _ ← expect (.mark .rightParen)
      return .tuple items (← spanFrom start)
    else return (← pathWith (typeWithin depth)).toType) := by
  rw [typeWithin]
  refine congrArg (currentSpan >>= ·) (funext fun start => funext fun cursor => ?_)
  rw [kind_run, eat_else_run, eat_else_run]
  by_cases snapshot : cursor.kind = .mark .atSign
  · rw [if_pos (Cursor.check_iff.mpr snapshot), snapshot]
    rfl
  · rw [if_neg (mt Cursor.check_iff.mp snapshot)]
    by_cases tuple : cursor.kind = .mark .leftParen
    · rw [if_pos (Cursor.check_iff.mpr tuple), tuple]
      rfl
    · rw [if_neg (mt Cursor.check_iff.mp tuple)]
      refine congrFun ?_ cursor
      split
      · contradiction
      · contradiction
      · rfl

end Parse

namespace SourceFile

variable (file : SourceFile) (tokens : List Token)

/-- What reading tokens comes to: the items, and the cursor behind them. -/
def readTokens : List Item × Cursor :=
  Parse.items ((Cursor.ofTokens file tokens).ahead.length + 1) (Cursor.ofTokens file tokens)

theorem items_parse_tokens : (file.parseTokens tokens).tree.items = (file.readTokens tokens).1 :=
  rfl

theorem log_parse_tokens : (file.parseTokens tokens).log = (file.readTokens tokens).2.log :=
  rfl

end SourceFile

end Composer
