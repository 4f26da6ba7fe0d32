import Composer.Proofs.Declaration.Invariants
import Composer.Proofs.Report.Log
import Composer.Proofs.Source.Places
import Composer.Proofs.Token.Cover

/-!
Spans from a file to its tree. All spans of the tokens of a file start in it. Parsing keeps it that
way, so the spans of the tree start in the file as well, and every report made on the way points
into it.
-/

namespace Composer

/-! ### Cursors -/

structure Cursor.StaysIn (cursor : Cursor) (file : SourceFile) : Prop where
  reads : cursor.file = file
  previous : cursor.previous.StartsIn file
  ahead : ∀ token ∈ cursor.ahead, token.span.StartsIn file
  finish : cursor.finish.StartsIn file
  reports : ∀ report ∈ cursor.log.errors, report.PointsInto file

namespace Cursor

variable {file : SourceFile} {cursor : Cursor}

theorem StaysIn.span (stays : cursor.StaysIn file) : cursor.span.StartsIn file := by
  rw [Cursor.span]
  split
  · exact stays.finish
  · next ahead => exact stays.ahead _ (ahead ▸ List.mem_cons_self)

theorem StaysIn.advance (stays : cursor.StaysIn file) (more : cursor.atEnd = false) :
    cursor.advance.StaysIn file := by
  obtain ⟨token, rest, ahead⟩ := ahead_of_more more
  have tokens := stays.ahead
  rw [ahead, List.forall_mem_cons] at tokens
  rw [advance_of_ahead ahead]
  exact ⟨stays.reads, tokens.1, tokens.2, stays.finish, stays.reports⟩

theorem StaysIn.report (stays : cursor.StaysIn file) (code : ErrorCode) (message : String)
    {span : Span} (starts : span.StartsIn file) :
    (cursor.report code message span).StaysIn file := by
  refine ⟨stays.reads, stays.previous, stays.ahead, stays.finish, ?_⟩
  have points : (Report.ofError cursor.file.name code message span
      (cursor.file.sourceLine span)).PointsInto file := by
    rw [stays.reads]
    exact Report.points_into rfl starts rfl
  simp only [Cursor.report, ReportLog.addError]
  split
  · exact forall_mem_concat stays.reports points
  · exact stays.reports

/-- Recovery leaves some of the tokens that were ahead. -/
theorem StaysIn.left {previous : Span} {ahead : List Token} (stays : cursor.StaysIn file)
    (leaves : LeftOf cursor.previous cursor.ahead (previous, ahead)) :
    StaysIn { cursor with previous, ahead } file := by
  refine ⟨stays.reads, ?_, ?_, stays.finish, stays.reports⟩
  · rcases leaves.last with same | ⟨token, member, same⟩
    · have last : previous = cursor.previous := same
      exact last ▸ stays.previous
    · have last : previous = token.span := same
      exact last ▸ stays.ahead token member
  · exact fun token member => stays.ahead token (leaves.ahead.mem member)

theorem StaysIn.recover_member (stays : cursor.StaysIn file) :
    cursor.recoverMember.StaysIn file :=
  stays.left (skip_member_leaves 0 cursor.previous cursor.ahead)

theorem StaysIn.recover_item (stays : cursor.StaysIn file) : cursor.recoverItem.StaysIn file :=
  stays.left (skip_item_leaves cursor.previous cursor.ahead)

/-- Before the first of some tokens, each of which starts in the file. -/
theorem of_tokens_stays {tokens : List Token}
    (start : ∀ token ∈ tokens, token.span.StartsIn file) :
    (ofTokens file tokens).StaysIn file := by
  constructor
  · rfl
  · exact Span.first_starts
  · intro token member
    rw [of_tokens_ahead] at member
    exact start token ((List.takeWhile_sublist _).mem member)
  · rcases of_tokens_finish_mem file tokens with first | ⟨token, member, same⟩
    · rw [first]
      exact Span.first_starts
    · rw [same]
      exact start token member
  · exact fun _ member => absurd member List.not_mem_nil

end Cursor

def Parse.Invariant.staying (file : SourceFile) : Parse.Invariant where
  Holds := (Cursor.StaysIn · file)
  Allows := (Span.StartsIn · file)
  span := Cursor.StaysIn.span
  previous := Cursor.StaysIn.previous
  cover := Span.StartsIn.cover
  advance := Cursor.StaysIn.advance
  report code message _ stays starts := stays.report code message starts
  recover_member := Cursor.StaysIn.recover_member
  recover_item := Cursor.StaysIn.recover_item

/-! ### Files -/

namespace SourceFile

variable (file : SourceFile)

theorem lex_places : (∀ token ∈ file.lex.tokens, token.span.StartsIn file) ∧
    ∀ report ∈ file.lex.log.errors, report.PointsInto file := by
  obtain ⟨found, stop, run⟩ := file.lex_found
  constructor
  · intro token member
    rw [run.tokens, List.mem_append, List.mem_singleton] at member
    rcases member with inside | ended
    · obtain ⟨⟨offset, lexeme⟩, _, made⟩ := List.mem_filterMap.mp inside
      cases lexeme with
      | token kind =>
          cases made
          exact Position.position_at_stands offset
      | unexpected byte => cases made
    · rw [ended]
      exact Position.position_at_stands stop
  · intro report member
    rw [run.reports, ReportLog.add_errors_stored] at member
    obtain ⟨⟨offset, lexeme⟩, _, made⟩ :=
      List.mem_filterMap.mp (List.mem_of_mem_take ((List.mem_append.mp member).resolve_left nofun))
    cases lexeme with
    | token kind => cases made
    | unexpected byte =>
        cases made
        exact Report.points_into rfl (Position.position_at_stands offset) rfl

/-- Everything in the tree of a file starts in the file, and all reports on reading it point into
the file. -/
theorem parse_places : file.parse.tree.SpansIn (·.StartsIn file) ∧
    ∀ report ∈ file.parse.log.errors, report.PointsInto file := by
  obtain ⟨tokens, lexed⟩ := file.lex_places
  have stays := Cursor.of_tokens_stays tokens
  obtain ⟨finish, items⟩ := Parse.items_keep (.staying file)
    ((Cursor.ofTokens file file.lex.tokens).ahead.length + 1) stays
  refine ⟨⟨items, stays.span.cover finish.previous⟩, ?_⟩
  intro report member
  change report ∈ (file.lex.log.merge (file.parseTokens file.lex.tokens).log).errors at member
  rw [ReportLog.merge_stored, ReportLog.add_errors_stored] at member
  rcases List.mem_append.mp member with early | late
  · exact lexed report early
  · exact finish.reports report (List.mem_of_mem_take late)

end SourceFile

end Composer
