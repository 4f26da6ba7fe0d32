import Composer.Source.Span
import Composer.Report.Code

/-!
Reports and the log that collects them. A log stores at most `limit` errors and counts all of them,
so a small limit hides reports but never changes how many errors there were. A log takes over the
content of another one with `merge`: stored errors are added again, the others only counted.
-/

namespace Composer

structure Report where
  file : String
  code : ErrorCode
  severity : Severity
  category : Category
  message : String
  span : Span
  /-- The source line on which the span starts. -/
  sourceLine : String
  suggestion : Option String
deriving DecidableEq, Repr

namespace Report

def ofError (file : String) (code : ErrorCode) (message : String) (span : Span)
    (sourceLine : String) : Report :=
  { file, code, severity := .error, category := code.category, message, span, sourceLine,
    suggestion := none }

/-- The report on one line, as `file:line:column: code [category] message`. -/
def text (report : Report) : String :=
  report.file ++ ":" ++ report.span.text ++ ": " ++ report.code.text ++ " [" ++
    report.category.text ++ "] " ++ report.message

end Report

structure ReportLog where
  errors : List Report
  warnings : List Report
  totalErrors : Nat
  totalWarnings : Nat
  /-- How many errors are stored at most. -/
  limit : Nat
deriving DecidableEq, Repr

namespace ReportLog

def defaultLimit : Nat := 20

def ofLimit (limit : Nat) : ReportLog :=
  { errors := [], warnings := [], totalErrors := 0, totalWarnings := 0, limit }

def empty : ReportLog := ofLimit defaultLimit

def hasErrors (log : ReportLog) : Bool := 0 < log.totalErrors

/-- Whether the limit is reached, so that a further error would only be counted. -/
def isFull (log : ReportLog) : Bool := log.limit ≤ log.totalErrors

def addError (log : ReportLog) (report : Report) : ReportLog :=
  { log with
    errors := if log.errors.length < log.limit then log.errors ++ [report] else log.errors
    totalErrors := log.totalErrors + 1 }

/-- Stores a warning; warnings have no limit. -/
def addWarning (log : ReportLog) (report : Report) : ReportLog :=
  { log with
    warnings := log.warnings ++ [report]
    totalWarnings := log.totalWarnings + 1 }

def addErrors (log : ReportLog) (reports : List Report) : ReportLog :=
  reports.foldl addError log

/-- Errors that were counted but not stored. -/
def hidden (log : ReportLog) : Nat := log.totalErrors - log.errors.length

/-- Takes over everything from `other`, in order. -/
def merge (log other : ReportLog) : ReportLog :=
  let taken := log.addErrors other.errors
  other.warnings.foldl addWarning
    { taken with totalErrors := taken.totalErrors + other.hidden }

end ReportLog

end Composer
