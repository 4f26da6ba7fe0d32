import Composer.Proofs.Declaration.Completeness.Rules
import Composer.Proofs.Declaration.Pairing.Grammar

/-!
Stretches of tokens. What is read within a stretch does not depend on the tokens behind it: an action
that stops at the last token of the stretch, or at an earlier one, gives the same wherever the stretch
stands.
-/

namespace Composer

namespace Pairing

/-- Two lists that start with the same stretch and go on in different ways behind its last token. -/
def stretch (last : Token) (behind others : List Token) {log : ReportLog}
    (room : log.isFull = false) : Pairing where
  Ahead first second now :=
    now = log ∧ ∃ inside, first = inside ++ last :: behind ∧ second = inside ++ last :: others
  Past ahead := ahead <:+ behind
  Opens _ := False
  Parts _ _ _ := False
  heads := by
    rintro first second now ⟨_, inside, rfl, rfl⟩
    cases inside with
    | nil => rfl
    | cons token inside => rfl
  tails := by
    rintro token first second now ⟨same, inside, here, there⟩
    cases inside with
    | nil =>
        cases here
        exact .inl (List.suffix_refl _)
    | cons next inside =>
        cases here
        cases there
        exact .inr (.inl ⟨same, inside, rfl, rfl⟩)
  room := by
    rintro first second now ⟨rfl, _⟩
    exact room
  present := by
    rintro first second now ⟨_, inside, rfl, _⟩ past
    have longer := past.length_le
    rw [List.length_append, List.length_cons] at longer
    omega
  past past later := later.trans past
  blocks := False.elim

theorem stretch_crosses (last : Token) (behind others : List Token) {log : ReportLog}
    (room : log.isFull = false) : (stretch last behind others room).Crosses :=
  crosses_of_closed fun _ => id

end Pairing

namespace Parse

variable {Result Other : Type}

/-- Wherever the tokens stand, the action takes just them, with this result and without reports. -/
def ReadsAs (action : Parse Result) (tokens : List Token) (result : Result) : Prop :=
  ∀ cursor others, cursor.ahead = tokens ++ others → cursor.log.isFull = false →
    ∃ after, action cursor = (some result, after) ∧ after.ahead = others ∧ after.log = cursor.log

/-- Where nothing is left behind it, the action has taken one token, and looked at nothing else. -/
def TakesLast (action : Parse Result) : Prop :=
  ∀ cursor result after, action cursor = (some result, after) → after.ahead = [] →
    ∃ token, cursor.ahead = [token] ∧ after.log = cursor.log ∧ ReadsAs action [token] result

/-- Two readings at the same place agree on what the action gives, whatever they are compared for. -/
def AgreesWithItself (action : Parse Result) : Prop :=
  ∃ known, ∀ (pairing : Pairing) (bound : Nat), pairing.Crosses →
    Agree pairing bound (pairing.Joins false) (pairing.Joins known) action action

namespace AgreesWithItself

theorem forward {action : Parse Result} (agrees : AgreesWithItself action) : Forward action := by
  rcases agrees with ⟨known, agree⟩
  have room : ReportLog.empty.isFull = false := rfl
  exact (agree (.stretch ⟨.endOfFile, .point 1 1⟩ [] [] room) 0
    (Pairing.stretch_crosses _ _ _ _)).forward

/-- A stretch is read wherever it stands as it is read in one place. -/
theorem stretch {action : Parse Result} (agrees : AgreesWithItself action)
    {left right stop : Cursor} {result : Result} {inside rest behind others : List Token}
    {last : Token} (here : left.ahead = inside ++ last :: behind)
    (there : right.ahead = inside ++ last :: others) (roomHere : left.log.isFull = false)
    (room : right.log.isFull = false)
    (ran : action left = (some result, stop)) (clean : stop.log.totalErrors = left.log.totalErrors)
    (stays : stop.ahead = rest ++ last :: behind) :
    ∃ after, action right = (some result, after) ∧ after.ahead = rest ++ last :: others ∧
      after.log = right.log := by
  rcases agrees with ⟨known, agree⟩
  let pairing := Pairing.stretch last behind others room
  have joins : pairing.Joins false left right :=
    ⟨⟨rfl, inside, here, there⟩, nofun, .inl List.nil_suffix, roomHere⟩
  rcases (agree pairing (right.ahead.length + 1) (Pairing.stretch_crosses _ _ _ _)).agree joins
    (Nat.lt_succ_self _) ran clean with past | ⟨after, ranToo, joined⟩
  · have longer := List.IsSuffix.length_le past
    rw [stays, List.length_append, List.length_cons] at longer
    omega
  · rcases joined.ahead with ⟨log, inside, first, second⟩
    rw [stays] at first
    refine ⟨after, ranToo, ?_, log⟩
    rw [second, List.append_cancel_right first]

/-- What is read up to the end of the input, by an action that takes the last token, is read
wherever it stands. -/
theorem reads {action : Parse Other} {finish : Other → Parse Result}
    (agrees : AgreesWithItself action) (last : ∀ found, TakesLast (finish found))
    {left after : Cursor} {result : Result} (roomHere : left.log.isFull = false)
    (ran : (action >>= finish) left = (some result, after))
    (log : after.log = left.log) (ended : after.ahead = []) :
    ReadsAs (action >>= finish) left.ahead result := by
  obtain ⟨found, middle, started, goesOn⟩ := bind_succeeded ran
  rcases last found middle result after goesOn ended with ⟨token, ahead, same, reads⟩
  have suffix := agrees.forward.ahead left
  rw [started] at suffix
  rcases suffix with ⟨inside, split⟩
  dsimp only at split
  rw [ahead] at split
  intro right others there room
  rw [← split, List.append_assoc, List.singleton_append] at there
  have alone : middle.ahead = [] ++ [token] := ahead
  rcases agrees.stretch split.symm there roomHere room started
    (congrArg ReportLog.totalErrors (same.symm.trans log)) alone with
    ⟨between, startedToo, aheadToo, logToo⟩
  rcases reads between others aheadToo (logToo ▸ room) with ⟨stop, ranToo, left, logLast⟩
  exact ⟨stop, (bind_of_some startedToo).trans ranToo, left, logLast.trans logToo⟩

/-- What is accepted at the end of the input is read wherever it stands. -/
theorem reads_accepted {action : Parse Other} {finish : Other → Parse Result}
    (agrees : AgreesWithItself action) (last : ∀ found, TakesLast (finish found))
    {tokens : List Token} {wanted : Result → Prop}
    (accepts : Accepts (action >>= finish) (tokens.map (·.kind)) wanted []) :
    ∃ result, wanted result ∧ ReadsAs (action >>= finish) tokens result := by
  let start : Cursor := ⟨⟨"", ""⟩, .point 1 1, tokens, .point 1 1, [], .empty⟩
  rcases accepts start rfl rfl with ⟨result, after, ran, isWanted, ended, log⟩
  exact ⟨result, isWanted, agrees.reads last rfl ran log (List.map_eq_nil_iff.mp ended)⟩

end AgreesWithItself

/-- An action that takes a certain token, and gives what it makes of the span of this token. -/
theorem takes_last_of_next {action : Parse Result} (kind : TokenKind) (view : Span → Result)
    (real : kind ≠ .endOfFile)
    (found : ∀ cursor : Cursor, cursor.check kind = true →
      action cursor = (some (view cursor.advance.previous), cursor.advance))
    (missing : ∀ cursor : Cursor, cursor.check kind = false → ∀ result after,
      action cursor = (some result, after) → after.ahead ≠ []) : TakesLast action := by
  intro cursor result after ran ended
  cases next : cursor.check kind with
  | false => exact absurd ended (missing cursor next result after ran)
  | true =>
      rw [found cursor next] at ran
      cases ran
      rcases Cursor.ahead_of_check real next with ⟨token, rest, same, ahead⟩
      rw [Cursor.advance_of_ahead ahead] at ended
      cases ended
      refine ⟨token, ahead, cursor.log_advance, ?_⟩
      intro other others there _
      rw [found other (Cursor.check_of_ahead there same), Cursor.advance_of_ahead there,
        Cursor.advance_of_ahead ahead]
      exact ⟨_, rfl, rfl, rfl⟩

end Parse

end Composer
