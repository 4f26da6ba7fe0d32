import Composer.Proofs.Declaration.Invariants
import Composer.Proofs.Report.Log

/-!
What reading does to a log: it adds reports, one after another, and nothing else. So the log of a
file holds as many of its errors as fit under the limit with which the reading starts.
-/

namespace Composer

namespace Parse

def Invariant.growing (log : ReportLog) : Invariant where
  Holds cursor := cursor.log.Extends log
  Allows _ := True
  span _ := trivial
  previous _ := trivial
  cover _ _ := trivial
  advance {cursor} grows _ := by rwa [cursor.log_advance]
  report _ _ _ grows _ := (ReportLog.extends_add_error _ _).trans grows
  recover_member grows := grows
  recover_item grows := grows

theorem items_grow (fuel : Nat) (cursor : Cursor) :
    (items fuel cursor).2.log.Extends cursor.log :=
  (items_keep (.growing cursor.log) fuel (.refl cursor.log)).1

end Parse

/-! ### Files -/

namespace SourceFile

theorem lex_from_grows (file : SourceFile) (fuel : Nat) (position : Position) (bytes : List UInt8)
    (log : ReportLog) : (file.lexFrom fuel position bytes log).log.Extends log := by
  induction fuel generalizing position bytes log with
  | zero => exact .refl log
  | succ fuel ih =>
      rw [lexFrom]
      split
      · exact .refl log
      · dsimp only
        split
        · exact ih _ _ log
        · split
          · exact ReportLog.extends_add_error log _
          · exact (ih _ _ _).trans (ReportLog.extends_add_error log _)

/-- Reading a file leaves out an error only where the limit for one file is reached. -/
theorem parse_log_accurate (file : SourceFile) :
    file.parse.log.Accurate ∧ file.parse.log.limit = ReportLog.defaultLimit := by
  have started : ReportLog.empty.Accurate := ReportLog.accurate_of_limit _
  have lexed : file.lex.log.Extends .empty := file.lex_from_grows _ _ _ .empty
  have parsed : (file.parseTokens file.lex.tokens).log.Extends .empty := by
    rw [file.log_parse_tokens]
    exact Parse.items_grow _ (Cursor.ofTokens file file.lex.tokens)
  have sameLimit : file.lex.log.limit = (file.parseTokens file.lex.tokens).log.limit :=
    lexed.limit.trans parsed.limit.symm
  constructor
  · exact (lexed.accurate started).merge (parsed.accurate started) (Nat.le_of_eq sameLimit)
  · exact (ReportLog.merge_limit _ _).trans lexed.limit

theorem parse_log_clean_iff (file : SourceFile) :
    file.parse.log.Clean ↔ file.parse.log.totalErrors = 0 :=
  file.parse_log_accurate.1.clean_iff

end SourceFile

end Composer
