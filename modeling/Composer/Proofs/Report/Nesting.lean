import Composer.Proofs.Report.Accounting

/-!
Logs merged into logs. However logs are nested when a log is built, it is the log that takes all
reports directly, those of a merged log where it was merged, provided that no merged log has a smaller
limit than the one that takes it over. A smaller limit drops reports for which there still is room.
-/

namespace Composer

namespace ReportLog

/-! ### Direct logs -/

def taking (limit : Nat) (errors warnings : List Report) : ReportLog :=
  warnings.foldl addWarning ((ofLimit limit).addErrors errors)

variable (limit : Nat) (errors warnings : List Report)

theorem taking_errors : (taking limit errors warnings).errors = errors.take limit := by
  rw [taking, (add_warnings_errors _ _).1, add_errors_stored]
  rfl

theorem taking_total : (taking limit errors warnings).totalErrors = errors.length := by
  rw [taking, (add_warnings_errors _ _).2.1, add_errors_total]
  exact Nat.zero_add _

theorem taking_limit : (taking limit errors warnings).limit = limit := by
  rw [taking, (add_warnings_errors _ _).2.2, add_errors_limit]
  rfl

theorem taking_warnings :
    (taking limit errors warnings).warnings = warnings ∧
      (taking limit errors warnings).totalWarnings = warnings.length := by
  have stored := add_warnings_stored ((ofLimit limit).addErrors errors) warnings
  rw [(add_errors_warnings _ _).1, (add_errors_warnings _ _).2] at stored
  exact ⟨stored.1, stored.2.trans (Nat.zero_add _)⟩

variable {limit errors warnings}

/-- A log is known by what it stores and counts. -/
theorem eq_taking {log : ReportLog} (stored : log.errors = errors.take limit)
    (total : log.totalErrors = errors.length) (kept : log.warnings = warnings)
    (counted : log.totalWarnings = warnings.length) (limited : log.limit = limit) :
    log = taking limit errors warnings := by
  have warned := taking_warnings limit errors warnings
  have same : log.errors = (taking limit errors warnings).errors := by rw [stored, taking_errors]
  have sameTotal : log.totalErrors = (taking limit errors warnings).totalErrors := by
    rw [total, taking_total]
  have sameLimit : log.limit = (taking limit errors warnings).limit := by
    rw [limited, taking_limit]
  cases log
  simp only at same sameTotal sameLimit kept counted
  rw [same, sameTotal, sameLimit, kept.trans warned.1.symm, counted.trans warned.2.symm]

theorem taking_add_error (report : Report) :
    (taking limit errors warnings).addError report = taking limit (errors ++ [report]) warnings := by
  have warned := taking_warnings limit errors warnings
  have stores : (taking limit errors warnings).Stores errors := by
    rw [Stores, taking_errors, taking_limit]
  have added := stores.add_errors [report]
  rw [Stores, add_errors_limit, taking_limit] at added
  apply eq_taking added _ warned.1 warned.2 (taking_limit limit errors warnings)
  rw [List.length_append, ← taking_total limit errors warnings]
  rfl

theorem taking_add_warning (report : Report) :
    (taking limit errors warnings).addWarning report =
      taking limit errors (warnings ++ [report]) := by
  rw [taking, taking, List.foldl_append]
  rfl

/-- What the larger limit of the other log kept is enough to fill the smaller one. -/
theorem taking_merge {otherLimit : Nat} {others otherWarnings : List Report}
    (larger : limit ≤ otherLimit) :
    (taking limit errors warnings).merge (taking otherLimit others otherWarnings) =
      taking limit (errors ++ others) (warnings ++ otherWarnings) := by
  have warned := taking_warnings limit errors warnings
  have otherWarned := taking_warnings otherLimit others otherWarnings
  have merged := merge_warnings (taking limit errors warnings)
    (taking otherLimit others otherWarnings)
  rw [warned.1, warned.2, otherWarned.1] at merged
  apply eq_taking
  · have room : min (limit - (errors.take limit).length) otherLimit = limit - errors.length := by
      rw [List.length_take]
      omega
    rw [merge_stored, add_errors_stored, taking_errors, taking_errors, taking_limit, List.take_take,
      room, List.take_append]
  · rw [merge_total, hidden, taking_total, taking_total, taking_errors, List.length_take,
      List.length_append]
    omega
  · exact merged.1
  · rw [merged.2, List.length_append]
  · rw [merge_limit, taking_limit]

/-! ### Laws of merging -/

/-- Nothing is added by a log that took nothing. -/
theorem merge_of_limit (log : ReportLog) (otherLimit : Nat) :
    log.merge (ofLimit otherLimit) = log := rfl

/-- What the second log has no room for, the first has none for either. -/
theorem merge_assoc {first second : ReportLog} (larger : first.limit ≤ second.limit)
    (counted : second.errors.length ≤ second.totalErrors) (third : ReportLog) :
    (first.merge second).merge third = first.merge (second.merge third) := by
  have stored : ((first.merge second).merge third).errors =
      (first.merge (second.merge third)).errors := by
    simp only [merge_stored, add_errors_stored, merge_limit, List.append_assoc, List.take_append,
      List.take_take, List.length_append, List.length_take]
    congr 3
    omega
  have total : ((first.merge second).merge third).totalErrors =
      (first.merge (second.merge third)).totalErrors := by
    have stored := merge_stored second third
    rw [add_errors_stored] at stored
    simp only [merge_total, hidden, stored, List.length_append, List.length_take]
    omega
  have warnings (log other : ReportLog) := merge_warnings log other
  have kept : ((first.merge second).merge third).warnings =
      (first.merge (second.merge third)).warnings := by
    rw [(warnings _ _).1, (warnings _ _).1, (warnings _ _).1, (warnings _ _).1, List.append_assoc]
  have keptTotal : ((first.merge second).merge third).totalWarnings =
      (first.merge (second.merge third)).totalWarnings := by
    rw [(warnings _ _).2, (warnings _ _).2, (warnings _ _).2, (warnings _ _).1, List.length_append,
      Nat.add_assoc]
  have limit : ((first.merge second).merge third).limit =
      (first.merge (second.merge third)).limit := by
    rw [merge_limit, merge_limit, merge_limit]
  generalize (first.merge second).merge third = left, first.merge (second.merge third) = right
    at stored total kept keptTotal limit
  cases left
  cases right
  simp only at stored total kept keptTotal limit
  rw [stored, total, kept, keptTotal, limit]

end ReportLog

/-! ### Nested logs -/

/-- How a log is built: it starts with nothing, takes errors and warnings, and takes over other logs
that are built in this way. -/
inductive LogBuild
  | start (limit : Nat)
  | error (before : LogBuild) (report : Report)
  | warning (before : LogBuild) (report : Report)
  | merge (before other : LogBuild)
deriving DecidableEq, Repr

namespace LogBuild

def log : LogBuild → ReportLog
  | start limit => .ofLimit limit
  | error before report => before.log.addError report
  | warning before report => before.log.addWarning report
  | merge before other => before.log.merge other.log

def limit : LogBuild → Nat
  | start limit => limit
  | error before _ | warning before _ | merge before _ => before.limit

def errors : LogBuild → List Report
  | start _ => []
  | error before report => before.errors ++ [report]
  | warning before _ => before.errors
  | merge before other => before.errors ++ other.errors

def warnings : LogBuild → List Report
  | start _ => []
  | error before _ => before.warnings
  | warning before report => before.warnings ++ [report]
  | merge before other => before.warnings ++ other.warnings

/-- No log is taken over by one of a larger limit. -/
def Fits : LogBuild → Prop
  | start _ => True
  | error before _ | warning before _ => before.Fits
  | merge before other => before.Fits ∧ other.Fits ∧ before.limit ≤ other.limit

theorem log_eq_taking {build : LogBuild} (fits : build.Fits) :
    build.log = .taking build.limit build.errors build.warnings := by
  induction build with
  | start limit => rfl
  | error before report ih =>
      rw [log, ih fits]
      exact ReportLog.taking_add_error report
  | warning before report ih =>
      rw [log, ih fits]
      exact ReportLog.taking_add_warning report
  | merge before other ih otherIh =>
      rw [log, ih fits.1, otherIh fits.2.1]
      exact ReportLog.taking_merge fits.2.2

/-- The log accounts for all that was added, whatever the limits are. -/
theorem log_balances (build : LogBuild) : build.log.Balances ⟨build.errors, build.warnings⟩ := by
  induction build with
  | start limit => exact .of_limit limit
  | error before report ih => exact ih.add_error report
  | warning before report ih => exact ih.add_warning report
  | merge before other ih otherIh => exact ih.merge otherIh

theorem log_limit (build : LogBuild) : build.log.limit = build.limit := by
  induction build with
  | start limit => rfl
  | error before report ih => exact ih
  | warning before report ih => exact ih
  | merge before other ih otherIh => exact (ReportLog.merge_limit _ _).trans ih

/-- A log that was built with logs of no smaller limits stores the first of all errors added anywhere,
as many as its limit, counts all of them, and is the log to which they were added directly. Of three
logs it is all the same which two are merged first if the second has no smaller limit than the first,
and an empty log changes nothing. -/
theorem nested_logs_take_directly (build : LogBuild) :
    (build.Fits →
        build.log = .taking build.limit build.errors build.warnings ∧
          build.log.errors = build.errors.take build.limit ∧
          build.log.totalErrors = build.errors.length) ∧
      (∀ second third : LogBuild, build.limit ≤ second.limit →
        (build.log.merge second.log).merge third.log =
          build.log.merge (second.log.merge third.log)) ∧
      build.log.merge .empty = build.log := by
  refine ⟨fun fits => ?_, fun second third larger => ?_, ReportLog.merge_of_limit _ _⟩
  · have direct := log_eq_taking fits
    refine ⟨direct, ?_, build.log_balances.total⟩
    rw [direct, ReportLog.taking_errors]
  · rw [← build.log_limit, ← second.log_limit] at larger
    exact ReportLog.merge_assoc larger second.log_balances.stored_le third.log

/-- Two logs with room for two errors each, one of them taken over by the other, and the whole by a
log with room for one. -/
theorem nested_log_of_three_errors :
    let report (name : String) : Report := .ofError name .unknownComponent "" (.point 1 1) ""
    let inner : LogBuild := .error (.error (.start 2) (report "b")) (report "c")
    let build : LogBuild := .merge (.start 1) (.merge (.error (.start 2) (report "a")) inner)
    build.Fits ∧ build.log = .taking 1 [report "a", report "b", report "c"] [] ∧
      build.log.errors = [report "a"] ∧ build.log.totalErrors = 3 := by
  intro report inner build
  have fits : build.Fits := ⟨trivial, ⟨trivial, trivial, Nat.le_refl 2⟩, by decide⟩
  exact ⟨fits, (nested_logs_take_directly build).1 fits⟩

/-- A log with a smaller limit keeps the second error from a log that has room for it. -/
example :
    let report (name : String) : Report := .ofError name .unknownComponent "" (.point 1 1) ""
    let inner : LogBuild := .error (.error (.start 1) (report "a")) (report "b")
    (LogBuild.merge (.start 2) inner).log.errors = [report "a"] := by
  decide

end LogBuild

end Composer
