import Composer.Encoding.Report
import Composer.Proofs.Report.Log
import Mathlib.Data.Option.Basic

/-!
The accounts of logs over any history. Any number of logs are held under names and worked on:
reports are added, one log is merged into another and gone, a log is written and read again. A ledger
goes through the same history and takes everything down. However small the limits, the totals of a
log are those of its ledger, and what it stores is in the ledger in the same order.
-/

namespace Composer

/-! ### Histories -/

inductive CollectionStep
  | create (name : String) (limit : Nat)
  | addError (name : String) (report : Report)
  | addWarning (name : String) (report : Report)
  /-- Takes the other collection away and adds all of it to the first. -/
  | merge (name other : String)
  /-- Writes the collection and reads it again. -/
  | reload (name : String)
deriving DecidableEq, Repr

class Collects (Collection : Type) where
  ofLimit : Nat → Collection
  addError : Collection → Report → Collection
  addWarning : Collection → Report → Collection
  merge : Collection → Collection → Collection
  reload : Collection → Collection

instance : Collects ReportLog where
  ofLimit := .ofLimit
  addError := .addError
  addWarning := .addWarning
  merge := .merge
  reload := .reload

/-- All errors and warnings that were added, also those of collections merged, in order. -/
structure Ledger where
  errors : List Report
  warnings : List Report
deriving DecidableEq, Repr

instance : Collects Ledger where
  ofLimit _ := ⟨[], []⟩
  addError ledger report := { ledger with errors := ledger.errors ++ [report] }
  addWarning ledger report := { ledger with warnings := ledger.warnings ++ [report] }
  merge ledger other := ⟨ledger.errors ++ other.errors, ledger.warnings ++ other.warnings⟩
  reload := id

def Held (Collection : Type) : Type := String → Option Collection

namespace Held

variable {Collection : Type}

def nothing : Held Collection := fun _ => none

def put (held : Held Collection) (name : String) (collection : Option Collection) :
    Held Collection :=
  fun other => if other = name then collection else held other

variable [Collects Collection]

/-- Nothing happens where a collection is wanted and none is held, nor is one merged into itself. -/
def step (held : Held Collection) : CollectionStep → Held Collection
  | .create name limit => held.put name (some (Collects.ofLimit limit))
  | .addError name report => held.put name ((held name).map (Collects.addError · report))
  | .addWarning name report => held.put name ((held name).map (Collects.addWarning · report))
  | .merge name other =>
      if name = other then held
      else match held name, held other with
        | some first, some second =>
            (held.put other none).put name (some (Collects.merge first second))
        | _, _ => held
  | .reload name => held.put name ((held name).map Collects.reload)

def run (steps : List CollectionStep) : Held Collection := steps.foldl step nothing

end Held

/-! ### Balance -/

namespace ReportLog

structure Balances (log : ReportLog) (ledger : Ledger) : Prop where
  total : log.totalErrors = ledger.errors.length
  stored_le : log.errors.length ≤ log.totalErrors
  stored : log.errors.Sublist ledger.errors
  warnings : log.warnings = ledger.warnings
  warning_total : log.totalWarnings = log.warnings.length
  has_errors : log.hasErrors = true ↔ ledger.errors ≠ []

theorem has_errors_iff_of_total {log : ReportLog} {ledger : Ledger}
    (total : log.totalErrors = ledger.errors.length) :
    log.hasErrors = true ↔ ledger.errors ≠ [] := by
  rw [hasErrors, total, decide_eq_true_eq, List.length_pos_iff]

namespace Balances

variable {log other : ReportLog} {ledger otherLedger : Ledger}

theorem of_limit (limit : Nat) : (ofLimit limit).Balances (Collects.ofLimit limit) :=
  ⟨rfl, Nat.le_refl _, .refl _, rfl, rfl, has_errors_iff_of_total rfl⟩

theorem add_error (balances : log.Balances ledger) (report : Report) :
    (log.addError report).Balances (Collects.addError ledger report) := by
  have total : (log.addError report).totalErrors = (ledger.errors ++ [report]).length := by
    rw [List.length_append, ← balances.total]
    rfl
  have stored_le := balances.stored_le
  constructor
  · exact total
  · simp only [addError]
    split
    · rw [List.length_append, List.length_singleton]
      omega
    · omega
  · simp only [addError]
    split
    · exact balances.stored.append (.refl [report])
    · exact balances.stored.trans (List.sublist_append_left _ _)
  · exact balances.warnings
  · exact balances.warning_total
  · exact has_errors_iff_of_total total

theorem add_warning (balances : log.Balances ledger) (report : Report) :
    (log.addWarning report).Balances (Collects.addWarning ledger report) := by
  constructor
  · exact balances.total
  · exact balances.stored_le
  · exact balances.stored
  · exact congrArg (· ++ [report]) balances.warnings
  · simp only [addWarning, balances.warning_total, List.length_append, List.length_singleton]
  · exact balances.has_errors

/-- What the merged log counted without storing it is counted again. -/
theorem merge (balances : log.Balances ledger) (others : other.Balances otherLedger) :
    (log.merge other).Balances (Collects.merge ledger otherLedger) := by
  have added := merge_total log other
  have stored := merge_stored log other
  rw [add_errors_stored] at stored
  have warnings := merge_warnings log other
  have stored_le := balances.stored_le
  have other_stored_le := others.stored_le
  have total : (log.merge other).totalErrors =
      (ledger.errors ++ otherLedger.errors).length := by
    rw [added, hidden, List.length_append, ← balances.total, ← others.total]
    omega
  constructor
  · exact total
  · rw [stored, added, hidden, List.length_append, List.length_take]
    omega
  · rw [stored]
    exact balances.stored.append ((List.take_sublist _ _).trans others.stored)
  · rw [warnings.1, balances.warnings, others.warnings]
    rfl
  · rw [warnings.2, warnings.1, balances.warning_total, List.length_append]
  · exact has_errors_iff_of_total total

/-- A log that is read again may store more than its limit, but nothing is lost. -/
theorem reload (balances : log.Balances ledger) :
    log.reload.Balances (Collects.reload ledger) :=
  ⟨balances.total, balances.stored_le, balances.stored, balances.warnings,
    balances.warning_total, balances.has_errors⟩

end Balances

end ReportLog

/-! ### Whole histories -/

namespace Held

def Balanced (logs : Held ReportLog) (ledgers : Held Ledger) : Prop :=
  ∀ name, Option.Rel ReportLog.Balances (logs name) (ledgers name)

namespace Balanced

variable {logs : Held ReportLog} {ledgers : Held Ledger}

theorem put (balanced : logs.Balanced ledgers) (name : String) {log : Option ReportLog}
    {ledger : Option Ledger} (here : Option.Rel ReportLog.Balances log ledger) :
    (logs.put name log).Balanced (ledgers.put name ledger) := by
  intro other
  rw [Held.put, Held.put]
  split
  · exact here
  · exact balanced other

/-- An operation on one collection keeps the balance if it does for that collection. -/
theorem change (balanced : logs.Balanced ledgers) (name : String)
    {operation : ReportLog → ReportLog} {entry : Ledger → Ledger}
    (keeps : ∀ log ledger, ReportLog.Balances log ledger →
      (operation log).Balances (entry ledger)) :
    (logs.put name ((logs name).map operation)).Balanced
      (ledgers.put name ((ledgers name).map entry)) := by
  apply balanced.put
  have here := balanced name
  generalize logs name = log, ledgers name = ledger at here ⊢
  cases here with
  | none => exact .none
  | some balances => exact .some (keeps _ _ balances)

theorem step (balanced : logs.Balanced ledgers) (operation : CollectionStep) :
    (logs.step operation).Balanced (ledgers.step operation) := by
  cases operation with
  | create name limit => exact balanced.put name (.some (.of_limit limit))
  | addError name report => exact balanced.change name fun _ _ balances => balances.add_error report
  | addWarning name report =>
      exact balanced.change name fun _ _ balances => balances.add_warning report
  | merge name other =>
      rw [Held.step, Held.step]
      split
      · exact balanced
      · have first := balanced name
        have second := balanced other
        generalize logs name = log, ledgers name = ledger, logs other = taken,
          ledgers other = takenLedger at first second ⊢
        cases first with
        | none => exact balanced
        | some balances =>
            cases second with
            | none => exact balanced
            | some others =>
                exact (balanced.put other .none).put name (.some (balances.merge others))
  | reload name => exact balanced.change name fun _ _ balances => balances.reload

theorem steps (balanced : logs.Balanced ledgers) (operations : List CollectionStep) :
    (operations.foldl Held.step logs).Balanced (operations.foldl Held.step ledgers) := by
  induction operations generalizing logs ledgers with
  | nil => exact balanced
  | cons operation rest ih => exact ih (balanced.step operation)

end Balanced

end Held

/-- Whatever was done with any number of logs, each of them accounts for all that was added to it or
to a log merged into it. -/
theorem accounts_balance_over_any_history (steps : List CollectionStep) (name : String) :
    Option.Rel ReportLog.Balances ((Held.run steps : Held ReportLog) name)
      ((Held.run steps : Held Ledger) name) :=
  Held.Balanced.steps (fun _ => .none) steps name

/-- A log with room for one error is merged into another one and counts for both of its errors. -/
example :
    let report : Report := .ofError "a" .unknownComponent "" (.point 1 1) ""
    let logs : Held ReportLog := Held.run [.create "small" 1, .addError "small" report,
      .addError "small" report, .create "large" 5, .merge "large" "small", .reload "large"]
    (logs "large").map (fun log => (log.errors.length, log.totalErrors)) = some (1, 2) ∧
      logs "small" = none := by
  decide

end Composer
