import Composer.Proofs.Compilation.Success
import Composer.Proofs.Declaration.Reports
import Composer.Proofs.Validation.Suggestion
import Mathlib.Algebra.BigOperators.Group.List.Basic
import Mathlib.Algebra.GroupWithZero.Nat

/-!
The limit on stored errors. A compilation offers the same reports to its log under every limit, so the
limit decides how many of them can be seen and nothing else. Among the offered reports are at most
`ReportLog.defaultLimit` of each file that cannot be read; apart from these every error is offered.
-/

namespace Composer

/-! ### Merged logs -/

theorem merge_all_limit (log : ReportLog) (parsed : List (Located Parsed)) :
    (mergeAll log parsed).limit = log.limit := by
  induction parsed generalizing log with
  | nil => rfl
  | cons file rest ih =>
      change (mergeAll (log.merge file.content.log) rest).limit = log.limit
      rw [ih, ReportLog.merge_limit]

theorem merge_all_stores {log : ReportLog} {offered : List Report} (stores : log.Stores offered)
    (parsed : List (Located Parsed)) :
    (mergeAll log parsed).Stores (offered ++ parsed.flatMap (·.content.log.errors)) := by
  induction parsed generalizing log offered with
  | nil =>
      rw [List.flatMap_nil, List.append_nil]
      exact stores
  | cons file rest ih =>
      rw [List.flatMap_cons, ← List.append_assoc]
      exact ih (stores.merge file.content.log)

theorem merge_all_total (log : ReportLog) (files : List SourceFile) :
    (mergeAll log (parseAll files)).totalErrors =
      log.totalErrors + (files.map (·.parse.log.totalErrors)).sum := by
  induction files generalizing log with
  | nil => rfl
  | cons file rest ih =>
      have counted := file.parse_log_accurate.1.length_add_hidden
      change (mergeAll (log.merge file.parse.log) (parseAll rest)).totalErrors = _
      rw [ih, ReportLog.merge_total, counted, List.map_cons, List.sum_cons]
      omega

namespace Compilation

/-! ### What is offered -/

def syntaxErrors (files : List SourceFile) : Nat := (files.map (·.parse.log.totalErrors)).sum

/-- How many of them exceed the limit for one file. -/
def overflow (files : List SourceFile) : Nat :=
  (files.map (·.parse.log.totalErrors - ReportLog.defaultLimit)).sum

/-- What registration and the contracts have against files that can be read. -/
def findings (files : List SourceFile) (options : Options) : List (Located Diagnostic) :=
  (registerAll .empty (components files)).2 ++
    (compileContracts (registryOf files) options.contractState
      (options.layout.toOption.getD .flat) [] (contracts files)).2

/-- The reports offered to the log, in order. No diagnostic is reported where a file cannot be read. -/
def offered (files : List SourceFile) (options : Options) : List Report :=
  if syntaxErrors files = 0 then (findings files options).map (reportOf files)
  else files.flatMap (·.parse.log.errors)

variable (files : List SourceFile) (options : Options)

theorem syntax_errors_eq (limit : Nat) :
    (mergeAll (.ofLimit limit) (parseAll files)).totalErrors = syntaxErrors files := by
  rw [merge_all_total, syntaxErrors]
  exact Nat.zero_add _

theorem stored_syntax (limit : Nat) :
    (mergeAll (.ofLimit limit) (parseAll files)).Stores (files.flatMap (·.parse.log.errors)) := by
  have stores := merge_all_stores (ReportLog.stores_nothing limit) (parseAll files)
  rw [List.nil_append, parseAll, List.flatMap_map] at stores
  exact stores

theorem of_unreadable (broken : syntaxErrors files ≠ 0) :
    Compilation.ofFiles files options =
      { success := false, preludes := [], hosts := [],
        log := mergeAll (.ofLimit options.maxErrors) (parseAll files) } := by
  have errors : (mergeAll (.ofLimit options.maxErrors) (parseAll files)).hasErrors = true := by
    rw [← Bool.not_eq_false, ReportLog.has_errors_eq_false, syntax_errors_eq]
    exact broken
  unfold Compilation.ofFiles
  simp only [errors, if_true]

theorem readable_of_syntax_clean {files : List SourceFile} (clean : syntaxErrors files = 0) :
    ∀ file ∈ files, file.parse.log.Clean := by
  intro file member
  rw [file.parse_log_clean_iff]
  exact List.sum_eq_zero_iff_forall_eq_nat.mp clean _ (List.mem_map.mpr ⟨file, member, rfl⟩)

theorem of_syntax_clean (clean : syntaxErrors files = 0) :
    Compilation.ofFiles files options =
      let log := (mergeAll (.ofLimit options.maxErrors) (parseAll files)).addErrors
        ((findings files options).map (reportOf files))
      { success := !log.hasErrors
        preludes := (registryOf files).components.map Component.prelude
        hosts := (compileContracts (registryOf files) options.contractState
          (options.layout.toOption.getD .flat) [] (contracts files)).1
        log } :=
  of_files_readable (readable_of_syntax_clean clean)

theorem log_limit : (Compilation.ofFiles files options).log.limit = options.maxErrors := by
  by_cases clean : syntaxErrors files = 0
  · rw [of_syntax_clean files options clean]
    exact (ReportLog.add_errors_limit _ _).trans (merge_all_limit _ _)
  · rw [of_unreadable files options clean]
    exact merge_all_limit _ _

theorem log_stores : (Compilation.ofFiles files options).log.Stores (offered files options) := by
  have stores := stored_syntax files options.maxErrors
  by_cases clean : syntaxErrors files = 0
  · -- Files without errors bring no report of their own.
    have silent : files.flatMap (·.parse.log.errors) = [] := by
      rw [List.flatMap_eq_nil_iff]
      exact fun file member => (readable_of_syntax_clean clean file member).2
    have added := stores.add_errors ((findings files options).map (reportOf files))
    rw [silent, List.nil_append] at added
    rw [of_syntax_clean files options clean, offered, if_pos clean]
    exact added
  · rw [of_unreadable files options clean, offered, if_neg clean]
    exact stores

theorem log_total :
    (Compilation.ofFiles files options).log.totalErrors =
      if syntaxErrors files = 0 then (findings files options).length else syntaxErrors files := by
  by_cases clean : syntaxErrors files = 0
  · rw [of_syntax_clean files options clean, if_pos clean, ReportLog.add_errors_total,
      syntax_errors_eq, clean, List.length_map, Nat.zero_add]
  · rw [of_unreadable files options clean, if_neg clean, syntax_errors_eq]

theorem stored_errors :
    (Compilation.ofFiles files options).log.errors =
      (offered files options).take options.maxErrors := by
  have stores := log_stores files options
  rwa [ReportLog.Stores, log_limit] at stores

/-! ### Other options -/

variable {files options} {others : Options}

theorem outcome_under (sameState : options.contractState = others.contractState) :
    (Compilation.ofFiles files options).success = (Compilation.ofFiles files others).success ∧
      (Compilation.ofFiles files options).preludes =
        (Compilation.ofFiles files others).preludes ∧
      (Compilation.ofFiles files options).hosts = (Compilation.ofFiles files others).hosts ∧
      (Compilation.ofFiles files options).log.totalErrors =
        (Compilation.ofFiles files others).log.totalErrors := by
  obtain ⟨hosts, lengths⟩ := compile_contracts_under (registryOf files) others.contractState
    (options.layout.toOption.getD .flat) (others.layout.toOption.getD .flat) [] (contracts files)
  have totals : (Compilation.ofFiles files options).log.totalErrors =
      (Compilation.ofFiles files others).log.totalErrors := by
    rw [log_total, log_total, findings, findings, sameState]
    simp only [List.length_append, lengths]
  by_cases clean : syntaxErrors files = 0
  · have counted := totals
    rw [of_syntax_clean files options clean, of_syntax_clean files others clean] at counted ⊢
    refine ⟨?_, rfl, ?_, counted⟩
    · exact congrArg (fun total => !decide (0 < total)) counted
    · rw [sameState]
      exact hosts
  · rw [of_unreadable files options clean, of_unreadable files others clean] at totals ⊢
    exact ⟨rfl, rfl, rfl, totals⟩

theorem offered_under (sameState : options.contractState = others.contractState)
    (sameSubstorage : options.defaultSubstorage = others.defaultSubstorage) :
    offered files options = offered files others := by
  have layouts : options.layout = others.layout := by
    rw [Options.layout, Options.layout, sameSubstorage]
  rw [offered, offered, findings, findings, sameState, layouts]

/-! ### Errors left out -/

theorem offered_length (files : List SourceFile) (options : Options) :
    (offered files options).length + overflow files =
      (Compilation.ofFiles files options).log.totalErrors := by
  -- Of each file either all errors are stored, or as many as the limit and the rest exceeds it.
  have each : ∀ file : SourceFile, file.parse.log.errors.length +
      (file.parse.log.totalErrors - ReportLog.defaultLimit) = file.parse.log.totalErrors := by
    intro file
    obtain ⟨stored, limit⟩ := file.parse_log_accurate
    rw [ReportLog.Accurate, limit] at stored
    omega
  have whole : (files.map (·.parse.log.errors.length)).sum + overflow files =
      syntaxErrors files := by
    rw [overflow, ← List.sum_map_add, syntaxErrors]
    exact congrArg List.sum (List.map_congr_left fun file _ => each file)
  rw [log_total]
  by_cases clean : syntaxErrors files = 0
  · rw [offered, if_pos clean, if_pos clean, List.length_map]
    omega
  · rw [offered, if_neg clean, if_neg clean, List.length_flatMap]
    exact whole

end Compilation

/-- Options with the same contract state give the same outcome. A smaller limit shows the first of the
errors that a larger one shows. -/
theorem limit_and_suggestions_are_irrelevant (files : List SourceFile) {options others : Options}
    (sameState : options.contractState = others.contractState) :
    (Compilation.ofFiles files options).success = (Compilation.ofFiles files others).success ∧
      (Compilation.ofFiles files options).preludes =
        (Compilation.ofFiles files others).preludes ∧
      (Compilation.ofFiles files options).hosts = (Compilation.ofFiles files others).hosts ∧
      (Compilation.ofFiles files options).log.totalErrors =
        (Compilation.ofFiles files others).log.totalErrors ∧
      (options.defaultSubstorage = others.defaultSubstorage →
        options.maxErrors ≤ others.maxErrors →
          (Compilation.ofFiles files options).log.errors =
            (Compilation.ofFiles files others).log.errors.take options.maxErrors) := by
  obtain ⟨success, preludes, hosts, totals⟩ := Compilation.outcome_under sameState
  refine ⟨success, preludes, hosts, totals, fun sameSubstorage smaller => ?_⟩
  rw [Compilation.stored_errors, Compilation.stored_errors,
    Compilation.offered_under sameState sameSubstorage, List.take_take, Nat.min_eq_left smaller]

def danglingProgram : List SourceFile :=
  [⟨"w.graft", "contract W \x7b component!(path: p, storage: s, event: E); " ++
    "component!(path: q, storage: t, event: F); \x7d"⟩]

theorem dangling_program_under_two_limits :
    let tight := Compilation.ofFiles danglingProgram ⟨"S", 1, "v7"⟩
    let wide := Compilation.ofFiles danglingProgram ⟨"S", 5, "v7"⟩
    wide.log.errors.length = 2 ∧ tight.success = wide.success ∧ tight.hosts = wide.hosts ∧
      tight.log.totalErrors = wide.log.totalErrors ∧
      tight.log.errors = wide.log.errors.take 1 := by
  intro tight wide
  obtain ⟨success, _, hosts, totals, stored⟩ :=
    limit_and_suggestions_are_irrelevant danglingProgram
      (show (Options.mk "S" 1 "v7").contractState = (Options.mk "S" 5 "v7").contractState from rfl)
  exact ⟨by decide +kernel, success, hosts, totals, stored rfl (by decide)⟩

/-- Errors are left out under the given limit and under the limit for one file, and for no other
reason; so exactly the given limit counts where no file exceeds its own or too much is stored
anyway. -/
theorem errors_left_out_by_limits (files : List SourceFile) (options : Options) :
    let log := (Compilation.ofFiles files options).log
    log.errors.length =
        min (log.totalErrors - Compilation.overflow files) options.maxErrors ∧
      (log.errors.length = min log.totalErrors options.maxErrors ↔
        Compilation.overflow files = 0 ∨
          options.maxErrors ≤ log.totalErrors - Compilation.overflow files) := by
  intro log
  have whole : (Compilation.offered files options).length + Compilation.overflow files =
      log.totalErrors := Compilation.offered_length files options
  have stored : log.errors.length =
      min (log.totalErrors - Compilation.overflow files) options.maxErrors := by
    rw [← whole, Nat.add_sub_cancel, Nat.min_comm, ← List.length_take]
    exact congrArg List.length (Compilation.stored_errors files options)
  refine ⟨stored, ?_⟩
  rw [stored]
  omega

/-- Twenty bytes that start no token, behind a name that starts no item. -/
def crowdedFile : SourceFile := ⟨"x.graft", "x$$$$$$$$$$$$$$$$$$$$"⟩

/-- There is room for one more error, but the limit for one file leaves it out. -/
theorem crowded_file_stores_too_few :
    let log := (Compilation.ofFiles [crowdedFile] ⟨"S", 21, "v0"⟩).log
    log.totalErrors = 21 ∧ log.errors.length = 20 ∧
      log.errors.length ≠ min log.totalErrors 21 := by
  decide +kernel

end Composer
