import Composer.Proofs.Report.Log
import Composer.Proofs.Token.Scan

/-!
The lexer covers its source. A run of it finds the lexemes that `Scans` lists by offsets. From these
the proof goes on to positions, which are in the same order, and to the line table, in which every
token and every byte that is reported is found again.
-/

namespace Composer

/-! ### Positions -/

def Span.holds (span : Span) (position : Position) : Bool :=
  span.start ≤ position && position ≤ span.stop

namespace Lexeme

def spanAt (whole : List UInt8) (offset : Nat) (lexeme : Lexeme) : Span :=
  ⟨positionAt whole offset, positionAt whole (offset + lexeme.width - 1)⟩

variable {lexeme : Lexeme} {whole : List UInt8} {offset : Nat}

theorem Reads.clear {input : List UInt8} (reads : lexeme.Reads input) :
    ∀ byte ∈ lexeme.bytes, byte ≠ 0x0a ∧ byte ≠ 0x0d := by
  intro byte member
  have solid := reads.solid byte member
  constructor <;> intro same <;> rw [same] at solid <;> exact absurd solid (by decide)

/-- Within a lexeme and right behind it, the column counts its bytes. -/
theorem Reads.position_at (reads : lexeme.Reads (whole.drop offset)) {index : Nat}
    (inside : index ≤ lexeme.width) :
    positionAt whole (offset + index) =
      ⟨(positionAt whole offset).line, (positionAt whole offset).column + index⟩ := by
  rw [width_eq] at inside
  rcases reads.front with ⟨more, split⟩
  have part : (whole.drop offset).take index = lexeme.bytes.take index := by
    rw [← split, List.take_append_of_le_length inside]
  have absent : (0x0a : UInt8) ∉ lexeme.bytes.take index := fun member =>
    (reads.clear _ (List.mem_of_mem_take member)).1 rfl
  rw [positionAt, List.take_add, List.foldl_append, part, Position.foldl_after_within _ absent,
    List.length_take, Nat.min_eq_left inside]
  rfl

theorem Reads.span_at (reads : lexeme.Reads (whole.drop offset)) :
    spanAt whole offset lexeme = ⟨positionAt whole offset, ⟨(positionAt whole offset).line,
      (positionAt whole offset).column + lexeme.width - 1⟩⟩ := by
  have some := reads.width_pos
  rw [spanAt, Nat.add_sub_assoc some, reads.position_at (Nat.sub_le _ _), Nat.add_sub_assoc some]

theorem Reads.holds_iff (reads : lexeme.Reads (whole.drop offset)) (within : offset ≤ whole.length)
    {place : Nat} (inside : place ≤ whole.length) :
    (spanAt whole offset lexeme).holds (positionAt whole place) =
      Scans.takes place (offset, lexeme) := by
  have some := reads.width_pos
  have fits := reads.width_le within
  rw [Bool.eq_iff_iff]
  simp only [Span.holds, spanAt, Scans.takes, Bool.and_eq_true, decide_eq_true_eq,
    position_at_le within inside,
    position_at_le inside (show offset + lexeme.width - 1 ≤ whole.length by omega)]
  omega

/-- The description of the end of the input has blanks in it, so nothing is read as that. -/
theorem Reads.real {kind : TokenKind} {input : List UInt8} (reads : (token kind).Reads input) :
    kind ≠ .endOfFile := by
  intro ended
  subst ended
  exact absurd (reads.solid 0x20 (by decide)) (by decide)

/-- The bytes of a lexeme are found again in the line that its span names. -/
theorem Reads.in_line {file : SourceFile} (reads : lexeme.Reads (file.bytes.drop offset)) :
    ∃ text left right, file.line? (spanAt file.bytes offset lexeme).start.line = some text ∧
      textBytes text = left ++ (lexeme.bytes ++ right) ∧
      (spanAt file.bytes offset lexeme).start.column = left.length + 1 := by
  rcases reads.front with ⟨more, split⟩
  have whole : file.bytes = file.bytes.take offset ++ (lexeme.bytes ++ more) := by
    rw [split, List.take_append_drop]
  have within : offset ≤ file.bytes.length := by
    by_contra beyond
    rw [List.drop_eq_nil_of_le (by omega)] at split
    exact reads.nonempty (List.append_eq_nil_iff.mp split).1
  have place := file.place_in_line whole reads.nonempty reads.clear
  rw [List.length_take, Nat.min_eq_left within] at place
  exact place

end Lexeme

/-! ### Runs of the lexer -/

def tokenOf? (whole : List UInt8) : Nat × Lexeme → Option Token
  | (offset, .token kind) => some ⟨kind, Lexeme.spanAt whole offset (.token kind)⟩
  | (_, .unexpected _) => none

def reportOf? (file : SourceFile) : Nat × Lexeme → Option Report
  | (_, .token _) => none
  | (offset, .unexpected byte) =>
      some (unexpectedByte file byte (Lexeme.spanAt file.bytes offset (.unexpected byte)))

/-- What the lexer gives back is what it found up to where it stopped, and it stops early only with
its log full. -/
structure SourceFile.Found (file : SourceFile) (offset : Nat) (log : ReportLog) (lexed : Lexed)
    (found : List (Nat × Lexeme)) (stop : Nat) : Prop where
  scans : Scans file.bytes offset found stop
  tokens : lexed.tokens =
    found.filterMap (tokenOf? file.bytes) ++ [endToken (positionAt file.bytes stop)]
  reports : lexed.log = log.addErrors (found.filterMap (reportOf? file))
  limit : log.totalErrors + (found.filterMap (reportOf? file)).length ≤ log.limit
  early : stop < file.bytes.length →
    log.totalErrors + (found.filterMap (reportOf? file)).length = log.limit

namespace SourceFile.Found

variable {file : SourceFile} {offset stop : Nat} {log : ReportLog} {lexed : Lexed}
  {found : List (Nat × Lexeme)}

theorem skip {next : Nat} (skipped : TriviaUpTo file.bytes offset next)
    (run : file.Found next log lexed found stop) : file.Found offset log lexed found stop :=
  ⟨run.scans.skip skipped, run.tokens, run.reports, run.limit, run.early⟩

theorem token {kind : TokenKind} (solid : ¬TriviaAt file.bytes offset)
    (reads : (Lexeme.token kind).Reads (file.bytes.drop offset))
    (run : file.Found (offset + (Lexeme.token kind).width) log lexed found stop) :
    file.Found offset log
      ⟨⟨kind, Lexeme.spanAt file.bytes offset (.token kind)⟩ :: lexed.tokens, lexed.log⟩
      ((offset, .token kind) :: found) stop := by
  constructor
  · exact .lexeme solid reads run.scans
  · exact congrArg _ run.tokens
  · exact run.reports
  · exact run.limit
  · exact run.early

theorem report {byte : UInt8} (solid : ¬TriviaAt file.bytes offset)
    (reads : (Lexeme.unexpected byte).Reads (file.bytes.drop offset))
    (run : file.Found (offset + (Lexeme.unexpected byte).width)
      (log.addError (unexpectedByte file byte
        (Lexeme.spanAt file.bytes offset (.unexpected byte)))) lexed found stop) :
    file.Found offset log lexed ((offset, .unexpected byte) :: found) stop := by
  have counted : (((offset, Lexeme.unexpected byte) :: found).filterMap (reportOf? file)).length =
      (found.filterMap (reportOf? file)).length + 1 := rfl
  have limit := run.limit
  have early := run.early
  simp only [ReportLog.addError] at limit early
  constructor
  · exact .lexeme solid reads run.scans
  · exact run.tokens
  · exact run.reports
  · rw [counted]
    omega
  · rw [counted]
    omega

/-- The report that fills the log is the last thing found. -/
theorem full {byte : UInt8} (solid : ¬TriviaAt file.bytes offset)
    (reads : (Lexeme.unexpected byte).Reads (file.bytes.drop offset))
    (within : offset + (Lexeme.unexpected byte).width ≤ file.bytes.length)
    (last : log.totalErrors + 1 = log.limit) :
    file.Found offset log
      ⟨[endToken (positionAt file.bytes (offset + (Lexeme.unexpected byte).width))],
        log.addError (unexpectedByte file byte
          (Lexeme.spanAt file.bytes offset (.unexpected byte)))⟩
      [(offset, .unexpected byte)] (offset + (Lexeme.unexpected byte).width) := by
  constructor
  · exact .lexeme solid reads (.stop within)
  · rfl
  · rfl
  · exact Nat.le_of_eq last
  · exact fun _ => last

end SourceFile.Found

/-- One round of the lexer by offsets: a lexeme behind trivia, and how the lexer goes on behind it. -/
theorem SourceFile.lex_from_behind (file : SourceFile) (fuel : Nat) {offset next : Nat} {byte : UInt8}
    {rest : List UInt8} (log : ReportLog)
    (dropped : dropTrivia false (positionAt file.bytes offset) (file.bytes.drop offset) =
      (positionAt file.bytes next, file.bytes.drop next))
    (left : file.bytes.drop next = byte :: rest)
    (reads : (Lexeme.scan byte rest).Reads (file.bytes.drop next)) :
    file.lexFrom (fuel + 1) (positionAt file.bytes offset) (file.bytes.drop offset) log =
      let behind := next + (Lexeme.scan byte rest).width
      let span := Lexeme.spanAt file.bytes next (Lexeme.scan byte rest)
      let goesOn := file.lexFrom fuel (positionAt file.bytes behind) (file.bytes.drop behind)
      match Lexeme.scan byte rest with
      | .token kind => ⟨⟨kind, span⟩ :: (goesOn log).tokens, (goesOn log).log⟩
      | .unexpected byte =>
          let log := log.addError (unexpectedByte file byte span)
          if log.isFull then ⟨[endToken (positionAt file.bytes behind)], log⟩ else goesOn log := by
  have behind := reads.position_at (Nat.le_refl _)
  have others : (byte :: rest).drop (Lexeme.scan byte rest).width =
      file.bytes.drop (next + (Lexeme.scan byte rest).width) := by
    rw [← left, List.drop_drop]
  have span := reads.span_at
  rw [lexFrom, dropped, left]
  cases scanned : Lexeme.scan byte rest with
  | token kind =>
      rw [scanned] at behind others span
      simp only [scanned, behind, others, span]
  | unexpected other =>
      rw [scanned] at behind others span
      simp only [scanned, behind, others, span]

theorem SourceFile.lex_from_found (file : SourceFile) (fuel offset : Nat) (log : ReportLog)
    (within : offset ≤ file.bytes.length) (enough : file.bytes.length < offset + fuel)
    (outside : ¬CommentOpen file.bytes offset) (room : log.totalErrors < log.limit) :
    ∃ found stop, file.Found offset log
      (file.lexFrom fuel (positionAt file.bytes offset) (file.bytes.drop offset) log)
      found stop := by
  induction fuel generalizing offset log with
  | zero => omega
  | succ fuel ih =>
      have closed : false = true ↔ CommentOpen file.bytes offset :=
        iff_of_false Bool.false_ne_true outside
      rcases drop_trivia_offset file.bytes within closed with ⟨next, skipped, dropped⟩
      have before := skipped.before
      cases left : file.bytes.drop next with
      | nil =>
          have ended : file.bytes.length ≤ next := List.drop_eq_nil_iff.mp left
          rw [lexFrom, dropped, left]
          exact ⟨[], next, .skip skipped (.stop skipped.within), rfl, rfl, Nat.le_of_lt room,
            fun more => absurd ended (Nat.not_le_of_lt more)⟩
      | cons byte rest =>
          rcases drop_eq_cons left with ⟨more, here, _⟩
          have solid := skipped.kept more
          have reads : (Lexeme.scan byte rest).Reads (file.bytes.drop next) := by
            rw [left]
            exact Lexeme.scan_reads (not_blank_of_not_trivia here solid)
          have some := reads.width_pos
          have fits := reads.width_le skipped.within
          have onward := reads.not_comment_open solid
          rw [file.lex_from_behind fuel log dropped left reads]
          cases scanned : Lexeme.scan byte rest with
          | token kind =>
              rw [scanned] at reads some fits onward
              rcases ih _ log fits (by omega) onward room with ⟨found, stop, run⟩
              exact ⟨_, stop, .skip skipped (.token solid reads run)⟩
          | unexpected byte =>
              rw [scanned] at reads some fits onward
              simp only
              split
              · next filled =>
                  have last : log.limit ≤ log.totalErrors + 1 := of_decide_eq_true filled
                  exact ⟨_, _, .skip skipped
                    (.full solid reads fits (Nat.le_antisymm room last))⟩
              · next free =>
                  have spare : log.totalErrors + 1 < log.limit :=
                    Nat.lt_of_not_le fun filled => free (decide_eq_true filled)
                  rcases ih _ (log.addError _) fits (by omega) onward spare with
                    ⟨found, stop, run⟩
                  exact ⟨_, stop, .skip skipped (.report solid reads run)⟩

theorem SourceFile.lex_found (file : SourceFile) :
    ∃ found stop, file.Found 0 .empty file.lex found stop :=
  file.lex_from_found (file.bytes.length + 1) 0 .empty (Nat.zero_le _) (by omega) id (by decide)

/-! ### What stands where -/

/-- A token is spelled in the line that its span names, between the columns of its span. -/
structure Token.StandsIn (token : Token) (file : SourceFile) : Prop where
  real : token.kind ≠ .endOfFile
  one_line : token.span.start.line = token.span.stop.line
  columns : 1 ≤ token.span.start.column ∧ token.span.start.column ≤ token.span.stop.column
  spelled : ∃ line, file.line? token.span.start.line = some line ∧
    ((textBytes line).take token.span.stop.column).drop (token.span.start.column - 1) =
      textBytes token.kind.text

structure Report.StandsIn (report : Report) (file : SourceFile) : Prop where
  one_byte : report.span.start = report.span.stop
  column : 1 ≤ report.span.start.column
  found : ∃ line byte, file.line? report.span.start.line = some line ∧
    (textBytes line)[report.span.start.column - 1]? = some byte ∧
    report = unexpectedByte file byte report.span

theorem token_stands_in {file : SourceFile} {offset : Nat} {kind : TokenKind}
    (reads : (Lexeme.token kind).Reads (file.bytes.drop offset)) :
    Token.StandsIn ⟨kind, Lexeme.spanAt file.bytes offset (.token kind)⟩ file := by
  have some := reads.width_pos
  rcases reads.in_line with ⟨text, left, right, line, bytes, column⟩
  have width := (Lexeme.token kind).width_eq
  have span := reads.span_at
  rw [span] at line column
  simp only at line column
  constructor
  · exact reads.real
  · rw [span]
  · rw [span]
    simp only
    omega
  · refine ⟨text, by rw [span]; exact line, ?_⟩
    rw [span, bytes, column]
    simp only
    have reach : left.length + 1 + (Lexeme.token kind).width - 1 =
        left.length + (Lexeme.token kind).bytes.length := by omega
    rw [reach, List.take_length_add_append, List.take_left, Nat.add_sub_cancel, List.drop_left]
    rfl

theorem report_stands_in {file : SourceFile} {offset : Nat} {byte : UInt8}
    (reads : (Lexeme.unexpected byte).Reads (file.bytes.drop offset)) :
    (unexpectedByte file byte
      (Lexeme.spanAt file.bytes offset (.unexpected byte))).StandsIn file := by
  rcases reads.in_line with ⟨text, left, right, line, bytes, column⟩
  constructor
  · rfl
  · change 1 ≤ (Lexeme.spanAt file.bytes offset (.unexpected byte)).start.column
    omega
  · refine ⟨text, byte, line, ?_, rfl⟩
    change (textBytes text)[(Lexeme.spanAt file.bytes offset (.unexpected byte)).start.column - 1]?
      = _
    rw [column, bytes, Nat.add_sub_cancel, List.getElem?_append_right (Nat.le_refl _), Nat.sub_self]
    rfl

/-- How many tokens and how many reports stand at a position. -/
theorem count_by_position {file : SourceFile} {offset stop place : Nat}
    {found : List (Nat × Lexeme)} (scans : Scans file.bytes offset found stop)
    (inside : place ≤ file.bytes.length) :
    (found.filterMap (tokenOf? file.bytes)).countP (·.span.holds (positionAt file.bytes place)) +
        (found.filterMap (reportOf? file)).countP (·.span.holds (positionAt file.bytes place)) =
      found.countP (Scans.takes place) := by
  have held : ∀ entry ∈ found, (Lexeme.spanAt file.bytes entry.1 entry.2).holds
      (positionAt file.bytes place) = Scans.takes place entry := by
    intro entry member
    have bounds := scans.bounds.2.2 entry member
    have upper := scans.bounds.2.1
    exact (scans.reads entry member).holds_iff (by omega) inside
  clear scans
  induction found with
  | nil => rfl
  | cons entry found ih =>
      rw [List.forall_mem_cons] at held
      rcases held with ⟨own, later⟩
      rcases entry with ⟨start, lexeme⟩
      dsimp only at own
      cases lexeme with
      | token kind =>
          change (Token.mk kind (Lexeme.spanAt file.bytes start (.token kind)) ::
            found.filterMap (tokenOf? file.bytes)).countP _ +
              (found.filterMap (reportOf? file)).countP _ = _
          simp only [List.countP_cons, own]
          rw [Nat.add_right_comm, ih later]
      | unexpected byte =>
          change (found.filterMap (tokenOf? file.bytes)).countP _ +
            (unexpectedByte file byte (Lexeme.spanAt file.bytes start (.unexpected byte)) ::
              found.filterMap (reportOf? file)).countP _ = _
          have placed : (unexpectedByte file byte (Lexeme.spanAt file.bytes start
              (.unexpected byte))).span = Lexeme.spanAt file.bytes start (.unexpected byte) := rfl
          simp only [List.countP_cons, placed, own]
          rw [← Nat.add_assoc, ih later]

/-! ### The cover -/

/-- The lexer read a file up to `stop`: its tokens up to the one for the end and its reports stand
in the file, and share its bytes out between them, with trivia left over. -/
structure SourceFile.Covered (file : SourceFile) (tokens : List Token) (stop : Nat) : Prop where
  within : stop ≤ file.bytes.length
  ended : file.lex.tokens = tokens ++ [endToken (positionAt file.bytes stop)]
  tokens_stand : ∀ token ∈ tokens, token.StandsIn file
  ordered : file.lex.tokens.Pairwise fun first second => first.span.stop.Before second.span.start
  -- Line and column are at least one, so neither exceeds the number of bytes by more than one.
  numbered : ∀ token ∈ file.lex.tokens,
    token.span.stop.line + token.span.stop.column ≤ file.bytes.length + 2
  reports_stand : ∀ report ∈ file.lex.log.errors, report.StandsIn file
  stored : file.lex.log.errors.length = file.lex.log.totalErrors
  trivia : ∀ offset < stop, TriviaAt file.bytes offset →
    tokens.countP (·.span.holds (positionAt file.bytes offset)) +
      file.lex.log.errors.countP (·.span.holds (positionAt file.bytes offset)) = 0
  solid : ∀ offset < stop, ¬TriviaAt file.bytes offset →
    tokens.countP (·.span.holds (positionAt file.bytes offset)) +
      file.lex.log.errors.countP (·.span.holds (positionAt file.bytes offset)) = 1
  limit : file.lex.log.totalErrors ≤ 20
  early : stop < file.bytes.length → file.lex.log.totalErrors = 20

namespace SourceFile

variable {file : SourceFile} {offset stop : Nat} {log : ReportLog} {lexed : Lexed}
  {found : List (Nat × Lexeme)}

theorem Found.tokens_stand (run : file.Found offset log lexed found stop) :
    ∀ token ∈ found.filterMap (tokenOf? file.bytes), token.StandsIn file := by
  intro token member
  rcases List.mem_filterMap.mp member with ⟨⟨offset, lexeme⟩, among, made⟩
  cases lexeme with
  | token kind =>
      cases made
      exact token_stands_in (run.scans.reads _ among)
  | unexpected byte => cases made

theorem Found.reports_stand (run : file.Found offset log lexed found stop) :
    ∀ report ∈ found.filterMap (reportOf? file), report.StandsIn file := by
  intro report member
  rcases List.mem_filterMap.mp member with ⟨⟨offset, lexeme⟩, among, made⟩
  cases lexeme with
  | token kind => cases made
  | unexpected byte =>
      cases made
      exact report_stands_in (run.scans.reads _ among)

/-- The last byte of a token is among those read. -/
theorem Found.span_of_token (run : file.Found offset log lexed found stop) {token : Token}
    (member : token ∈ found.filterMap (tokenOf? file.bytes)) :
    ∃ last < stop, token.span.stop = positionAt file.bytes last := by
  rcases List.mem_filterMap.mp member with ⟨⟨offset, lexeme⟩, among, made⟩
  have some := (run.scans.reads _ among).width_pos
  have bounds := run.scans.bounds.2.2 _ among
  cases lexeme with
  | token kind =>
      cases made
      exact ⟨offset + (Lexeme.token kind).width - 1, by simp only at bounds some; omega, rfl⟩
  | unexpected byte => cases made

theorem Found.ordered (run : file.Found offset log lexed found stop) :
    lexed.tokens.Pairwise fun first second => first.span.stop.Before second.span.start := by
  have upper := run.scans.bounds.2.1
  rw [run.tokens, List.pairwise_append]
  refine ⟨?_, List.pairwise_singleton _ _, ?_⟩
  · rw [List.pairwise_filterMap]
    apply List.Pairwise.imp_of_mem _ run.scans.ordered
    intro first second amongFirst amongSecond apart token own other otherOwn
    have some := (run.scans.reads _ amongFirst).width_pos
    have bounds := run.scans.bounds.2.2 _ amongSecond
    rcases first with ⟨offset, lexeme⟩
    rcases second with ⟨later, another⟩
    cases lexeme with
    | unexpected byte => cases own
    | token kind =>
        cases another with
        | unexpected byte => cases otherOwn
        | token otherKind =>
            cases own
            cases otherOwn
            simp only at some apart bounds
            exact position_at_before (by omega) (by omega)
  · intro token member ended last
    rcases run.span_of_token member with ⟨place, before, stops⟩
    rw [List.mem_singleton.mp last, stops]
    exact position_at_before before upper

theorem Found.numbered (run : file.Found offset log lexed found stop) :
    ∀ token ∈ lexed.tokens,
      token.span.stop.line + token.span.stop.column ≤ file.bytes.length + 2 := by
  intro token member
  rw [run.tokens, List.mem_append, List.mem_singleton] at member
  rcases member with inside | ended
  · rcases run.span_of_token inside with ⟨place, _, stops⟩
    rw [stops]
    exact (position_at_bounds file.bytes place).2.2
  · rw [ended]
    exact (position_at_bounds file.bytes stop).2.2

theorem Found.covered (run : file.Found 0 .empty file.lex found stop) :
    file.Covered (found.filterMap (tokenOf? file.bytes)) stop := by
  have limit := run.limit
  have early := run.early
  have total : file.lex.log.totalErrors = (found.filterMap (reportOf? file)).length := by
    rw [run.reports, ReportLog.add_errors_total]
    exact Nat.zero_add _
  have stored : file.lex.log.errors = found.filterMap (reportOf? file) := by
    rw [run.reports, ReportLog.add_errors_stored]
    exact List.take_of_length_le (by simpa [ReportLog.empty, ReportLog.ofLimit] using limit)
  have upper := run.scans.bounds.2.1
  simp only [ReportLog.empty, ReportLog.ofLimit, ReportLog.defaultLimit, Nat.zero_add,
    ← total] at limit early
  constructor
  · exact upper
  · exact run.tokens
  · exact run.tokens_stand
  · exact run.ordered
  · exact run.numbered
  · rw [stored]
    exact run.reports_stand
  · rw [stored, total]
  · intro offset before trivia
    rw [stored, count_by_position run.scans (by omega)]
    exact (run.scans.count (Nat.zero_le _) before).1 trivia
  · intro offset before solid
    rw [stored, count_by_position run.scans (by omega)]
    exact (run.scans.count (Nat.zero_le _) before).2 solid
  · exact limit
  · exact early

/-- The lexer covers every file: up to where it stops, which is the end unless it made as many
reports as it makes at most, each byte belongs to one token, to one report, or to trivia. -/
theorem lex_covers : (∀ file : SourceFile, ∃ tokens stop, file.Covered tokens stop) ∧
    ∃ file : SourceFile, file.lex.log.totalErrors = 20 := by
  constructor
  · intro file
    rcases file.lex_from_found (file.bytes.length + 1) 0 .empty (Nat.zero_le _) (by omega) id
      (by decide) with ⟨found, stop, run⟩
    exact ⟨_, stop, Found.covered run⟩
  · exact ⟨⟨"", String.ofList (List.replicate 20 '$')⟩, by decide +kernel⟩

end SourceFile

end Composer
