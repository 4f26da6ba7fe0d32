import Composer.Proofs.Declaration.Progress
import Composer.Proofs.Report.Log
import Mathlib.Algebra.GroupWithZero.Nat
import Mathlib.Data.List.Forall2

/-!
What recovery is put together from: rounds of a loop one after another, and what is lost in them,
with the errors that tell of it.
-/

namespace Composer

namespace Parse

namespace Loop

variable {State Outcome : Type} {loop : Loop State Outcome}

inductive Leads (loop : Loop State Outcome) : State → Cursor → State → Cursor → Prop
  | here {state : State} {cursor : Cursor} : Leads loop state cursor state cursor
  | round {state last : State} {cursor stop : Cursor} (goesOn : loop.stops state cursor = none)
      (others : Leads loop (loop.round state cursor).1 (loop.round state cursor).2 last stop) :
      Leads loop state cursor last stop

variable {state middle last : State} {cursor between stop : Cursor}

theorem Leads.of_round (goesOn : loop.stops state cursor = none)
    (round : loop.round state cursor = (last, stop)) : loop.Leads state cursor last stop := by
  apply Leads.round goesOn
  rw [round]
  exact .here

theorem Leads.trans (first : loop.Leads state cursor middle between)
    (second : loop.Leads middle between last stop) : loop.Leads state cursor last stop := by
  induction first with
  | here => exact second
  | round goesOn _ ih => exact .round goesOn (ih second)

theorem Leads.runs {outcome : Outcome} (leads : loop.Leads state cursor last stop)
    (stops : loop.stops last stop = some outcome) :
    ∃ rounds, loop.Runs state cursor rounds outcome := by
  induction leads with
  | here => exact ⟨0, .stop stops⟩
  | round goesOn _ ih =>
      rcases ih stops with ⟨rounds, runs⟩
      exact ⟨rounds + 1, .round goesOn runs⟩

/-- Where some rounds lead to the end of the loop, the loop comes to what is there. -/
theorem Ends.reached {result : State → Cursor → Outcome} {outcome : Outcome}
    (ends : loop.Ends result) (leads : loop.Leads state cursor last stop)
    (stops : loop.stops last stop = some outcome) : result state cursor = outcome := by
  rcases leads.runs stops with ⟨rounds, runs⟩
  rcases ends.runs state cursor with ⟨all, _, only⟩
  exact ((only rounds outcome).mp runs).2.symm

end Loop

end Parse

/-- What is lost where tokens are given up: how many errors tell of it, and the spans that these may
have. -/
structure Loss where
  count : Nat
  place : Span → Prop

namespace Loss

def ofRun (run : List Token) : Loss := ⟨1, (· ∈ run.map (·.span))⟩

def ReportedBy (loss : Loss) (reports : List Report) : Prop :=
  reports.length = loss.count ∧ ∀ report ∈ reports, loss.place report.span

def total (losses : List Loss) : Nat := (losses.map Loss.count).sum

theorem total_append (losses others : List Loss) :
    total (losses ++ others) = total losses + total others := by
  rw [total, List.map_append, List.sum_append]
  rfl

theorem total_cons (loss : Loss) (losses : List Loss) :
    total (loss :: losses) = loss.count + total losses :=
  List.sum_cons

theorem length_reports {losses : List Loss} {reports : List (List Report)}
    (reported : List.Forall₂ ReportedBy losses reports) :
    reports.flatten.length = total losses := by
  induction reported with
  | nil => rfl
  | cons here _ ih => rw [List.flatten_cons, List.length_append, here.1, ih, total_cons]

section Runs

variable {Piece : Type} {run : Piece → List Token} {pieces : List Piece}

theorem total_of_runs : total (pieces.map fun piece => .ofRun (run piece)) = pieces.length := by
  induction pieces with
  | nil => rfl
  | cons piece pieces ih => rw [List.map_cons, total_cons, ih, List.length_cons, ofRun, Nat.add_comm]

/-- One report for each run, in order. -/
theorem reported_runs {reports : List (List Report)}
    (reported : List.Forall₂ ReportedBy (pieces.map fun piece => .ofRun (run piece)) reports) :
    List.Forall₂ (fun piece report => report.span ∈ (run piece).map (·.span)) pieces
      reports.flatten := by
  induction pieces generalizing reports with
  | nil =>
      cases reported
      exact .nil
  | cons piece pieces ih =>
      rcases reported with _ | ⟨here, others⟩
      rcases List.length_eq_one_iff.mp here.1 with ⟨report, rfl⟩
      exact .cons (here.2 report List.mem_cons_self) (ih others)

end Runs

end Loss

namespace ReportLog

variable {log before middle after : ReportLog} {losses others : List Loss}

theorem has_room {count : Nat} (few : log.totalErrors + count < log.limit) :
    log.isFull = false := by
  rw [isFull, decide_eq_false_iff_not]
  omega

/-- The log grows by the errors that tell of the losses, in order. -/
def Suffers (losses : List Loss) (before after : ReportLog) : Prop :=
  ∃ reports, List.Forall₂ Loss.ReportedBy losses reports ∧
    after = before.addErrors reports.flatten

theorem room_for_none (room : log.isFull = false) :
    log.totalErrors + Loss.total [] < log.limit := by
  rw [isFull, decide_eq_false_iff_not] at room
  exact Nat.lt_of_not_le room

theorem suffers_nothing : log.Suffers [] log := ⟨[], .nil, rfl⟩

namespace Suffers

theorem unchanged (suffers : Suffers [] before after) : after = before := by
  rcases suffers with ⟨reports, reported, rfl⟩
  cases reported
  rfl

theorem of_reports {loss : Loss} {reports : List Report} (reported : loss.ReportedBy reports) :
    Suffers [loss] log (log.addErrors reports) := by
  refine ⟨[reports], .cons reported .nil, ?_⟩
  rw [List.flatten_singleton]

theorem of_report {run : List Token} {report : Report}
    (inside : report.span ∈ run.map (·.span)) :
    Suffers [.ofRun run] log (log.addError report) := by
  have told : Loss.ReportedBy (.ofRun run) [report] :=
    ⟨rfl, List.forall_mem_singleton.mpr inside⟩
  exact .of_reports told

theorem trans (first : Suffers losses before middle) (second : Suffers others middle after) :
    Suffers (losses ++ others) before after := by
  rcases first with ⟨reports, reported, rfl⟩
  rcases second with ⟨more, reportedToo, rfl⟩
  refine ⟨reports ++ more, List.rel_append reported reportedToo, ?_⟩
  rw [List.flatten_append, add_errors_append]

theorem total (suffers : Suffers losses before after) :
    after.totalErrors = before.totalErrors + Loss.total losses := by
  rcases suffers with ⟨reports, reported, rfl⟩
  rw [add_errors_total, Loss.length_reports reported]

theorem limit (suffers : Suffers losses before after) : after.limit = before.limit := by
  rcases suffers with ⟨reports, _, rfl⟩
  exact add_errors_limit _ _

/-- Room for all the errors leaves room for those that are still to come. -/
theorem leaves_room (suffers : Suffers losses before after)
    (few : before.totalErrors + Loss.total (losses ++ others) < before.limit) :
    after.totalErrors + Loss.total others < after.limit := by
  rw [Loss.total_append] at few
  rw [suffers.total, suffers.limit]
  omega

/-- An empty log that has room for all the errors stores them all. -/
theorem stored (suffers : Suffers losses .empty after) (few : Loss.total losses ≤ 20) :
    ∃ reports, List.Forall₂ Loss.ReportedBy losses reports ∧ after.errors = reports.flatten := by
  rcases suffers with ⟨reports, reported, rfl⟩
  refine ⟨reports, reported, ?_⟩
  rw [add_errors_stored]
  apply List.take_of_length_le
  rw [Loss.length_reports reported]
  exact few

/-- Where each loss is a run of tokens, an empty log has one error for each of them. -/
theorem of_runs {Piece : Type} {run : Piece → List Token} {pieces : List Piece}
    (suffers : Suffers (pieces.map fun piece => .ofRun (run piece)) .empty after)
    (few : pieces.length ≤ 20) :
    after.totalErrors = pieces.length ∧
      List.Forall₂ (fun (piece : Piece) (report : Report) => report.span ∈ (run piece).map (·.span))
        pieces after.errors := by
  rcases suffers.stored (Loss.total_of_runs ▸ few) with ⟨reports, reported, stored⟩
  constructor
  · rw [suffers.total, Loss.total_of_runs]
    exact Nat.zero_add _
  · rw [stored]
    exact Loss.reported_runs reported

end Suffers

end ReportLog

end Composer
