import Composer.Report.Log
import Mathlib.Data.List.Basic

/-!
Logs of reports. The errors that a log stores are the first of all that it was offered, as many as
its limit; how many it counts does not depend on the limit. A log is accurate where nothing but its
own limit kept an error from being stored; logs are merged accurately into one of no larger limit.
-/

namespace Composer

namespace ReportLog

/-! ### Adding reports -/

theorem add_errors_total (log : ReportLog) (reports : List Report) :
    (log.addErrors reports).totalErrors = log.totalErrors + reports.length := by
  induction reports generalizing log with
  | nil => rfl
  | cons report rest ih =>
      change ((log.addError report).addErrors rest).totalErrors = _
      rw [ih, List.length_cons]
      simp only [addError]
      omega

theorem add_errors_stored (log : ReportLog) (reports : List Report) :
    (log.addErrors reports).errors =
      log.errors ++ reports.take (log.limit - log.errors.length) := by
  induction reports generalizing log with
  | nil => simp [addErrors]
  | cons report rest ih =>
      change ((log.addError report).addErrors rest).errors = _
      rw [ih]
      by_cases room : log.errors.length < log.limit
      · have space : log.limit - log.errors.length =
            log.limit - (log.errors.length + 1) + 1 := by omega
        simp only [addError, if_pos room, List.length_append, List.length_singleton, space,
          List.take_succ_cons, List.append_assoc, List.singleton_append]
      · have full : log.limit - log.errors.length = 0 := by omega
        simp only [addError, if_neg room, full, List.take_zero]

@[simp]
theorem add_errors_limit (log : ReportLog) (reports : List Report) :
    (log.addErrors reports).limit = log.limit := by
  induction reports generalizing log with
  | nil => rfl
  | cons report rest ih => exact ih (log.addError report)

theorem add_errors_append (log : ReportLog) (reports others : List Report) :
    log.addErrors (reports ++ others) = (log.addErrors reports).addErrors others :=
  List.foldl_append

/-- Warnings touch neither the errors nor the limit. -/
theorem add_warnings_errors (log : ReportLog) (reports : List Report) :
    (reports.foldl addWarning log).errors = log.errors ∧
      (reports.foldl addWarning log).totalErrors = log.totalErrors ∧
      (reports.foldl addWarning log).limit = log.limit := by
  induction reports generalizing log with
  | nil => exact ⟨rfl, rfl, rfl⟩
  | cons report rest ih => exact ih (log.addWarning report)

/-- Errors do not touch the warnings. -/
theorem add_errors_warnings (log : ReportLog) (reports : List Report) :
    (log.addErrors reports).warnings = log.warnings ∧
      (log.addErrors reports).totalWarnings = log.totalWarnings := by
  induction reports generalizing log with
  | nil => exact ⟨rfl, rfl⟩
  | cons report rest ih => exact ih (log.addError report)

theorem add_warnings_stored (log : ReportLog) (reports : List Report) :
    (reports.foldl addWarning log).warnings = log.warnings ++ reports ∧
      (reports.foldl addWarning log).totalWarnings = log.totalWarnings + reports.length := by
  induction reports generalizing log with
  | nil => exact ⟨(List.append_nil _).symm, rfl⟩
  | cons report rest ih =>
      obtain ⟨stored, counted⟩ := ih (log.addWarning report)
      refine ⟨stored.trans (List.append_assoc _ _ _), counted.trans ?_⟩
      simp only [addWarning, List.length_cons]
      omega

theorem has_errors_eq_false (log : ReportLog) : log.hasErrors = false ↔ log.totalErrors = 0 := by
  simp [hasErrors]

/-! ### Merging logs -/

theorem merge_stored (log other : ReportLog) :
    (log.merge other).errors = (log.addErrors other.errors).errors :=
  (add_warnings_errors _ _).1

@[simp]
theorem merge_limit (log other : ReportLog) : (log.merge other).limit = log.limit := by
  rw [merge, (add_warnings_errors _ _).2.2]
  exact add_errors_limit log other.errors

theorem merge_total (log other : ReportLog) :
    (log.merge other).totalErrors = log.totalErrors + (other.errors.length + other.hidden) := by
  rw [merge, (add_warnings_errors _ _).2.1]
  simp only [add_errors_total]
  omega

theorem merge_warnings (log other : ReportLog) :
    (log.merge other).warnings = log.warnings ++ other.warnings ∧
      (log.merge other).totalWarnings = log.totalWarnings + other.warnings.length := by
  obtain ⟨stored, counted⟩ := add_errors_warnings log other.errors
  rw [← stored, ← counted]
  exact add_warnings_stored _ _

theorem merge_total_eq_zero_iff (log other : ReportLog) :
    (log.merge other).totalErrors = 0 ↔
      log.totalErrors = 0 ∧ other.totalErrors = 0 ∧ other.errors = [] := by
  rw [merge_total, hidden, ← List.length_eq_zero_iff]
  omega

def Clean (log : ReportLog) : Prop := log.totalErrors = 0 ∧ log.errors = []

/-! ### What is stored -/

/-- The log stores the first of the reports offered to it, as many as its limit. -/
def Stores (log : ReportLog) (offered : List Report) : Prop :=
  log.errors = offered.take log.limit

theorem stores_nothing (limit : Nat) : (ofLimit limit).Stores [] :=
  List.take_nil.symm

theorem Stores.add_errors {log : ReportLog} {offered : List Report} (stores : log.Stores offered)
    (reports : List Report) : (log.addErrors reports).Stores (offered ++ reports) := by
  have room : log.limit - (offered.take log.limit).length = log.limit - offered.length := by
    rw [List.length_take]
    omega
  rw [Stores, add_errors_stored, add_errors_limit, stores, room, List.take_append]

theorem Stores.merge {log : ReportLog} {offered : List Report} (stores : log.Stores offered)
    (other : ReportLog) : (log.merge other).Stores (offered ++ other.errors) := by
  have added := stores.add_errors other.errors
  rw [Stores, add_errors_limit] at added
  rw [Stores, merge_stored, merge_limit, added]

/-! ### What is left out -/

/-- An error that was counted is not stored only because as many as the limit are stored. -/
def Accurate (log : ReportLog) : Prop := log.errors.length = min log.totalErrors log.limit

theorem accurate_of_limit (limit : Nat) : (ofLimit limit).Accurate :=
  (Nat.zero_min limit).symm

/-- A log counts no fewer errors than it stores. -/
theorem Accurate.length_add_hidden {log : ReportLog} (accurate : log.Accurate) :
    log.errors.length + log.hidden = log.totalErrors := by
  rw [Accurate] at accurate
  rw [hidden]
  omega

theorem Accurate.clean_iff {log : ReportLog} (accurate : log.Accurate) :
    log.Clean ↔ log.totalErrors = 0 := by
  constructor
  · intro clean
    exact clean.1
  · intro counted
    rw [Accurate, counted, Nat.zero_min] at accurate
    exact ⟨counted, List.length_eq_zero_iff.mp accurate⟩

theorem Accurate.add_errors {log : ReportLog} (accurate : log.Accurate) (reports : List Report) :
    (log.addErrors reports).Accurate := by
  rw [Accurate] at accurate
  rw [Accurate, add_errors_stored, add_errors_total, add_errors_limit, List.length_append,
    List.length_take]
  omega

theorem Accurate.merge {log other : ReportLog} (accurate : log.Accurate)
    (otherAccurate : other.Accurate) (larger : log.limit ≤ other.limit) :
    (log.merge other).Accurate := by
  rw [Accurate] at accurate otherAccurate
  rw [Accurate, merge_stored, add_errors_stored, merge_total, merge_limit, hidden,
    List.length_append, List.length_take]
  omega

/-! ### Extensions -/

def Extends (later earlier : ReportLog) : Prop := ∃ reports, later = earlier.addErrors reports

theorem Extends.refl (log : ReportLog) : log.Extends log := ⟨[], rfl⟩

theorem Extends.trans {last later earlier : ReportLog} (second : last.Extends later)
    (first : later.Extends earlier) : last.Extends earlier := by
  rcases first with ⟨reports, rfl⟩
  rcases second with ⟨others, rfl⟩
  exact ⟨reports ++ others, (add_errors_append earlier reports others).symm⟩

theorem extends_add_error (log : ReportLog) (report : Report) :
    (log.addError report).Extends log :=
  ⟨[report], rfl⟩

theorem Extends.limit {later earlier : ReportLog} (grown : later.Extends earlier) :
    later.limit = earlier.limit := by
  rcases grown with ⟨reports, rfl⟩
  exact add_errors_limit earlier reports

theorem Extends.accurate {later earlier : ReportLog} (grown : later.Extends earlier)
    (accurate : earlier.Accurate) : later.Accurate := by
  rcases grown with ⟨reports, rfl⟩
  exact accurate.add_errors reports

end ReportLog

end Composer
