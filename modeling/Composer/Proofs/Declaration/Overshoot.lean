import Composer.Proofs.Declaration.Outcomes
import Composer.Proofs.Declaration.Reports

/-!
How far reading goes past the limit of its log. Only the heads of the loops look whether the log is
full, and errors are made behind a loop as well: for a block without `}` and for a second block of a
kind. A member of a block in a block makes the log full at most; its block, the block around that and
nothing else can then be reported.
-/

namespace Composer

/-- A log that stores `limit` errors has counted `extra` more at most. -/
structure ReportLog.Bounded (log : ReportLog) (limit extra : Nat) : Prop where
  stores : log.limit = limit
  total : log.totalErrors ≤ limit + extra

namespace ReportLog

variable {log : ReportLog} {limit extra : Nat}

theorem total_lt_of_room (room : log.isFull = false) : log.totalErrors < log.limit := by
  rw [isFull, decide_eq_false_iff_not] at room
  exact Nat.lt_of_not_le room

theorem bounded_of_room (room : log.isFull = false) (extra : Nat) : log.Bounded log.limit extra :=
  ⟨rfl, Nat.le_add_right_of_le (Nat.le_of_lt (total_lt_of_room room))⟩

theorem Bounded.mono {more : Nat} (bounded : log.Bounded limit extra) (le : extra ≤ more) :
    log.Bounded limit more :=
  ⟨bounded.stores, Nat.le_trans bounded.total (Nat.add_le_add_left le limit)⟩

theorem Bounded.add_error (bounded : log.Bounded limit extra) (report : Report) :
    (log.addError report).Bounded limit (extra + 1) :=
  ⟨bounded.stores, Nat.succ_le_succ bounded.total⟩

end ReportLog

namespace Parse

variable {Result Other State : Type} {extra least : Nat}

/-- Started with room in the log, the action counts at most `extra` errors more than the log
stores. -/
def Stays (extra : Nat) (action : Parse Result) : Prop :=
  ∀ cursor, cursor.log.isFull = false → (action cursor).2.log.Bounded cursor.log.limit extra

/-- The same, or one error more, and then the action has failed at the end of the input. -/
def Closes (extra : Nat) (action : Parse Result) : Prop :=
  ∀ cursor, cursor.log.isFull = false →
    (action cursor).2.log.Bounded cursor.log.limit extra ∨
      (action cursor).1 = none ∧ (action cursor).2.atEnd = true ∧
        (action cursor).2.log.Bounded cursor.log.limit (extra + 1)

def Adds (count : Nat) (action : Parse Result) : Prop :=
  ∀ cursor, ∃ result after, action cursor = (some result, after) ∧
    ∀ limit extra, cursor.log.Bounded limit extra → after.log.Bounded limit (extra + count)

/-- An action that reports at most once, where it fails, at most fills the log. -/
theorem Settles.stays {action : Parse Result} (settles : ∀ bound, Settles bound least action) :
    Stays 0 action := by
  intro cursor room
  cases ran : action cursor with
  | mk outcome after =>
      cases outcome with
      | some result =>
          rw [((settles 0).read ran).1]
          exact ReportLog.bounded_of_room room 0
      | none =>
          obtain ⟨report, log⟩ := (settles (cursor.ahead.length + 1)).failed (Nat.lt_succ_self _) ran
          rw [log]
          exact ⟨rfl, Nat.succ_le_of_lt (ReportLog.total_lt_of_room room)⟩

namespace Adds

theorem pure {count : Nat} (result : Result) : Adds count (Pure.pure result) :=
  fun cursor => ⟨result, cursor, rfl, fun _ _ bounded => bounded.mono (Nat.le_add_right _ _)⟩

theorem spanned {start : Span} (node : Span → Result) :
    Adds 0 (do return node (← spanFrom start)) :=
  fun cursor => ⟨_, cursor, rfl, fun _ _ bounded => bounded⟩

theorem keep_first {Block : Type} (present : Option Block) (block : Block) (word owner : String)
    (span : Span) (node : Option Block → Result) :
    Adds 1 (do return node (← keepFirst present block word owner span)) := by
  intro cursor
  cases present with
  | none => exact ⟨_, cursor, rfl, fun _ _ bounded => bounded.mono (Nat.le_succ _)⟩
  | some first => exact ⟨_, _, rfl, fun _ _ bounded => bounded.add_error _⟩

end Adds

/-! ### One action after another -/

/-- Behind an action that succeeds without a report there is as much room as before it. -/
theorem Settles.bind_cases {action : Parse Other} {next : Other → Parse Result} {cursor : Cursor}
    (first : ∀ bound, Settles bound least action) (room : cursor.log.isFull = false) :
    (∃ after, (action >>= next) cursor = (none, after) ∧ after.log.Bounded cursor.log.limit 0) ∨
      ∃ result middle, (action >>= next) cursor = next result middle ∧ middle.log = cursor.log := by
  have started := Settles.stays first cursor room
  rcases Parse.bind_cases action next cursor with ⟨middle, ran, whole⟩ | ⟨result, middle, ran, whole⟩
  · rw [ran] at started
    exact .inl ⟨middle, whole, started⟩
  · exact .inr ⟨result, middle, whole, ((first 0).read ran).1⟩

namespace Stays

theorem behind {action : Parse Other} {next : Other → Parse Result}
    (first : ∀ bound, Settles bound least action) (second : ∀ result, Stays extra (next result)) :
    Stays extra (action >>= next) := by
  intro cursor room
  rcases Settles.bind_cases first room with ⟨after, ran, bounded⟩ | ⟨result, middle, ran, log⟩
  · rw [ran]
    exact bounded.mono (Nat.zero_le _)
  · rw [ran, ← log]
    apply second result middle
    rwa [log]

theorem pure (result : Result) : Stays extra (Pure.pure result) :=
  fun _ room => ReportLog.bounded_of_room room extra

theorem unexpected_member (attributes : List Attribute) (expected : String) (found : TokenKind) :
    Stays extra (unexpectedMember attributes expected found : Parse Result) := by
  have settles (bound : Nat) :
      Settles bound 0 (unexpectedMember attributes expected found : Parse Result) :=
    .unexpected_member attributes expected found
  exact fun cursor room => (Settles.stays settles cursor room).mono (Nat.zero_le _)

end Stays

namespace Closes

theorem behind {action : Parse Other} {next : Other → Parse Result}
    (first : ∀ bound, Settles bound least action) (second : ∀ result, Closes extra (next result)) :
    Closes extra (action >>= next) := by
  intro cursor room
  rcases Settles.bind_cases first room with ⟨after, ran, bounded⟩ | ⟨result, middle, ran, log⟩
  · left
    rw [ran]
    exact bounded.mono (Nat.zero_le _)
  · rw [ran, ← log]
    apply second result middle
    rwa [log]

theorem spanned {start : Span} (node : Span → Result) :
    Closes extra (do return node (← spanFrom start)) :=
  fun _ room => .inl (ReportLog.bounded_of_room room extra)

theorem ended {action : Parse Other} {next : Other → Parse Result} (first : Closes extra action)
    (second : ∀ result, Adds 0 (next result)) : Closes extra (action >>= next) := by
  intro cursor room
  have started := first cursor room
  rcases bind_cases action next cursor with ⟨middle, ran, whole⟩ | ⟨result, middle, ran, whole⟩
  · rw [ran] at started
    rw [whole]
    exact started.imp_right fun unclosed => ⟨rfl, unclosed.2⟩
  · rw [ran] at started
    rcases started with bounded | ⟨failed, _⟩
    · obtain ⟨other, after, ranOn, adds⟩ := second result middle
      rw [whole, ranOn]
      exact .inl (adds _ _ bounded)
    · cases failed

/-- A block, and a report on it at most. -/
theorem reported {action : Parse Other} {next : Other → Parse Result} (first : Closes extra action)
    (second : ∀ result, Adds 1 (next result)) : Stays (extra + 1) (action >>= next) := by
  intro cursor room
  have started := first cursor room
  rcases bind_cases action next cursor with ⟨middle, ran, whole⟩ | ⟨result, middle, ran, whole⟩
  · rw [ran] at started
    rw [whole]
    rcases started with bounded | ⟨_, _, bounded⟩
    · exact bounded.mono (Nat.le_succ _)
    · exact bounded
  · rw [ran] at started
    rcases started with bounded | ⟨failed, _⟩
    · obtain ⟨other, after, ranOn, adds⟩ := second result middle
      rw [whole, ranOn]
      exact adds _ _ bounded
    · cases failed

end Closes

/-! ### Blocks -/

section Blocks

variable {step : State → Parse State}

/-- A full log ends the loop before its next member, so what one member adds is all that comes on top
of the limit. -/
theorem members_bounded (stays : ∀ state, Stays extra (step state)) (fuel : Nat) (state : State)
    {cursor : Cursor} {limit : Nat} (bounded : cursor.log.Bounded limit extra) :
    (members step fuel state cursor).2.log.Bounded limit extra := by
  have stopped := members_hold step (fun _ after => after.log.Bounded limit extra) ?reads ?skips
    fuel state cursor bounded
  · obtain ⟨_, last, _⟩ := stopped
    exact last
  case reads =>
    intro state before next after room bounded ran
    have here := stays state before room
    rwa [bounded.stores, ran] at here
  case skips =>
    intro state before after room bounded ran
    have here := stays state before room
    rwa [bounded.stores, ran] at here

theorem members_closed {fuel : Nat} {state last : State} {cursor after : Cursor}
    (ran : members step fuel state cursor = (some last, after)) :
    (after.check (.mark .rightBrace) || after.atEnd) = true := by
  induction fuel generalizing state cursor with
  | zero => cases ran
  | succ fuel ih =>
      rw [members_succ] at ran
      split at ran
      · next closed =>
          cases ran
          exact closed
      · split at ran
        · cases ran
        · split at ran
          · exact ih ran
          · exact ih ran

theorem closing_closes (opened : Span) {cursor : Cursor} {limit : Nat}
    (bounded : cursor.log.Bounded limit extra)
    (closed : (cursor.check (.mark .rightBrace) || cursor.atEnd) = true) :
    (closing opened cursor).2.log.Bounded limit extra ∨
      (closing opened cursor).1 = none ∧ (closing opened cursor).2.atEnd = true ∧
        (closing opened cursor).2.log.Bounded limit (extra + 1) := by
  rw [closing, eat_else_run]
  split
  · left
    change cursor.advance.log.Bounded limit extra
    rwa [cursor.log_advance]
  · next missing =>
      right
      rw [Bool.or_eq_true] at closed
      exact ⟨rfl, closed.resolve_left missing, bounded.add_error _⟩

/-- The members of a block, and a missing `}`. -/
theorem Closes.block (stays : ∀ state, Stays extra (step state)) (initial : State) :
    Closes extra (block step initial) := by
  apply Closes.behind fun _ => .expect_mark _
  intro opened cursor room
  have read := members_bounded stays (cursor.ahead.length + 1) initial
    (ReportLog.bounded_of_room room extra)
  rcases bind_cases (withFuel fun fuel => members step fuel initial) _ cursor with
    ⟨middle, ran, whole⟩ | ⟨last, middle, ran, whole⟩
  · left
    rw [whole]
    change members step (cursor.ahead.length + 1) initial cursor = _ at ran
    rwa [ran] at read
  · rw [whole]
    change members step (cursor.ahead.length + 1) initial cursor = _ at ran
    rw [ran] at read
    have closes := closing_closes opened read (members_closed ran)
    rcases bind_cases (closing opened) (fun _ => Pure.pure last) middle with
      ⟨after, ranOn, both⟩ | ⟨_, after, ranOn, both⟩
    · rw [ranOn] at closes
      rw [both]
      exact closes.imp_right fun unclosed => ⟨rfl, unclosed.2⟩
    · rw [ranOn] at closes
      rw [both]
      rcases closes with bounded | ⟨failed, _⟩
      · exact .inl bounded
      · cases failed

end Blocks

theorem Closes.list_block {member : Parse Result} (settles : ∀ bound, Settles bound 1 member) :
    Closes 0 (listBlock member) := by
  apply Closes.block
  intro collected
  apply Stays.behind settles
  exact fun _ => .pure _

/-! ### The grammar -/

namespace Closes

theorem storage_block : Closes 0 storageBlock :=
  .behind (fun _ => .look _) fun _ => .behind (fun _ => .expect_keyword _) fun _ =>
    .ended (.list_block fun _ => .storage_member) fun _ => .spanned _

theorem event_block : Closes 0 eventBlock :=
  .behind (fun _ => .look _) fun _ => .behind (fun _ => .expect_keyword _) fun _ =>
    .ended (.list_block fun _ => .event_variant) fun _ => .spanned _

theorem interface : Closes 0 interface :=
  .behind (fun _ => .look _) fun _ => .behind (fun _ => .expect_keyword _) fun _ =>
    .behind (fun _ => .identifier) fun _ => .ended (.list_block fun _ => .method) fun _ => .spanned _

theorem implementation (attributes : List Attribute) : Closes 0 (implementation attributes) := by
  refine .behind (fun _ => .start_behind _) fun _ => .behind (fun _ => .expect_keyword _) fun _ =>
    .behind (fun _ => .identifier) fun _ =>
      .behind (fun _ => .eat TokenKind.noConfusion) fun ofInterface => ?_
  split
  · refine .behind (fun _ => .identifier) fun _ =>
      .behind (fun _ => .eat TokenKind.noConfusion) fun ended => ?_
    split
    · exact .behind (fun _ => .pure _) fun _ => .spanned _
    · exact .ended (.list_block fun _ => .method) fun _ => .spanned _
  · exact .ended (.list_block fun _ => .method) fun _ => .spanned _

end Closes

/-- The blocks in a component can leave one error on top of the limit: for a block without `}` or for
one that comes second. -/
theorem Stays.component_member (decl : ComponentDecl) : Stays 1 (componentMember decl) := by
  refine .behind (fun _ => .attributes) fun attributes => .behind (fun _ => .look _) fun kind => ?_
  split
  · exact Closes.reported .storage_block fun _ => .keep_first _ _ _ _ _ _
  · exact Closes.reported .event_block fun _ => .keep_first _ _ _ _ _ _
  · exact Closes.reported .interface fun _ => .pure _
  · exact Closes.reported (.implementation _) fun _ => .pure _
  · exact .unexpected_member _ _ _

theorem Stays.contract_member (decl : ContractDecl) : Stays 1 (contractMember decl) := by
  refine .behind (fun _ => .attributes) fun attributes => .behind (fun _ => .look _) fun kind => ?_
  split
  · exact .behind (fun _ => .inclusion) fun _ => .pure _
  · exact .behind (fun _ => .exposure _) fun _ => .pure _
  · exact Closes.reported .storage_block fun _ => .keep_first _ _ _ _ _ _
  · exact Closes.reported .event_block fun _ => .keep_first _ _ _ _ _ _
  · exact .unexpected_member _ _ _

theorem Closes.component : Closes 1 component :=
  .behind (fun _ => .look _) fun _ => .behind (fun _ => .expect_keyword _) fun _ =>
    .behind (fun _ => .identifier) fun _ => .ended (.block .component_member _) fun _ => .spanned _

theorem Closes.contract : Closes 1 contract :=
  .behind (fun _ => .look _) fun _ => .behind (fun _ => .expect_keyword _) fun _ =>
    .behind (fun _ => .identifier) fun _ => .ended (.block .contract_member _) fun _ => .spanned _

theorem Closes.item : Closes 1 item := by
  refine .behind (fun _ => .look _) fun kind => ?_
  split
  · exact .ended .component fun _ => .pure _
  · exact .ended .contract fun _ => .pure _
  · intro cursor room
    left
    change (cursor.report _ _ _).advance.log.Bounded _ _
    rw [Cursor.log_advance]
    exact ⟨rfl, Nat.le_succ_of_le (ReportLog.total_lt_of_room room)⟩

/-! ### Files -/

/-- What holds between the items of a file: two errors more than the log stores at most, and both of
them only where the input has ended. -/
structure Overshot (limit : Nat) (cursor : Cursor) : Prop where
  bounded : cursor.log.Bounded limit 2
  ended : cursor.log.totalErrors = limit + 2 → cursor.atEnd = true

theorem overshot_of_closes {action : Parse Result} (closes : Closes 1 action) {cursor : Cursor}
    (room : cursor.log.isFull = false) : Overshot cursor.log.limit (action cursor).2 := by
  rcases closes cursor room with bounded | ⟨_, ended, bounded⟩
  · constructor
    · exact bounded.mono (Nat.le_succ 1)
    · intro both
      have total := bounded.total
      omega
  · exact ⟨bounded, fun _ => ended⟩

theorem Overshot.recover_item {limit : Nat} {cursor : Cursor} (overshot : Overshot limit cursor) :
    Overshot limit cursor.recoverItem := by
  refine ⟨overshot.bounded, fun both => ?_⟩
  have ended := overshot.ended both
  rw [Cursor.atEnd, List.isEmpty_iff] at ended ⊢
  have left : cursor.recoverItem.ahead <:+ cursor.ahead :=
    (Cursor.skip_item_leaves cursor.previous cursor.ahead).ahead
  rw [ended] at left
  exact List.suffix_nil.mp left

/-- Items are read with room in the log only, so what one item adds is all that comes on top. -/
theorem items_overshoot (fuel : Nat) {cursor : Cursor} {limit : Nat}
    (overshot : Overshot limit cursor) : Overshot limit (items fuel cursor).2 := by
  have stopped := items_hold (Overshot limit) (fun _ => True) ?reads ?skips fuel cursor overshot
  · exact stopped.1
  case reads =>
    intro before node after _ room overshot ran
    have here := overshot_of_closes .item room
    rw [overshot.bounded.stores, ran] at here
    exact ⟨here, trivial⟩
  case skips =>
    intro before after _ room overshot ran
    have here := overshot_of_closes .item room
    rw [overshot.bounded.stores, ran] at here
    exact here.recover_item

end Parse

open ReportLog in
/-- A log of reading stores the errors counted up to its limit, and counts two more at most, however
long the input: one for a block in an item and one for the item, which the end of the input cut off
then. -/
theorem SourceFile.parse_tokens_errors_bounded (file : SourceFile) (tokens : List Token) :
    (file.parseTokens tokens).log.errors.length =
        min (file.parseTokens tokens).log.totalErrors defaultLimit ∧
      (file.parseTokens tokens).log.totalErrors ≤ defaultLimit + 2 ∧
      ((file.parseTokens tokens).log.totalErrors = defaultLimit + 2 →
        (file.readTokens tokens).2.atEnd = true) := by
  have start : Parse.Overshot defaultLimit (Cursor.ofTokens file tokens) := by
    refine ⟨⟨rfl, Nat.zero_le _⟩, fun both => ?_⟩
    cases both
  have stop := Parse.items_overshoot ((Cursor.ofTokens file tokens).ahead.length + 1) start
  have accurate : (file.readTokens tokens).2.log.Accurate :=
    (Parse.items_grow _ _).accurate (accurate_of_limit defaultLimit)
  rw [file.log_parse_tokens]
  refine ⟨?_, stop.bounded.total, stop.ended⟩
  rw [accurate, readTokens, stop.bounded.stores]

def cutOff : List Token :=
  let kinds : List TokenKind := [.keyword .component, .identifier "c", .mark .leftBrace] ++
    List.replicate 19 (.mark .semicolon) ++
      [.keyword .storage, .mark .leftBrace, .mark .semicolon]
  kinds.map fun kind => ⟨kind, .point 1 1⟩

example : ((SourceFile.mk "a" "").parseTokens cutOff).log.totalErrors = 22 := by decide +kernel

end Composer
