import Composer.Proofs.Declaration.Pairing.Stretch
import Composer.Proofs.Declaration.Recovery.Rounds
import Composer.Proofs.Declaration.Finding

/-!
Blocks in which members are lost. A unit is compared with the same unit where what is lost is left
out: the two readings part behind the word of the block, and come together again behind its closing
brace, with the same members collected and with the errors that tell of the losses.
-/

namespace Composer

namespace Parse

variable {Node State : Type} {member : Parse Node} {step : State → Parse State}

/-- Wherever the tokens stand in a block, no member is read from them. They are given up with the
errors that tell of it, and reading goes on behind them. -/
def GivesUp (member : Parse Node) (tokens : List Token) (loss : Loss) : Prop :=
  ∀ cursor others collected, cursor.ahead = tokens ++ others →
    cursor.log.totalErrors + loss.count < cursor.log.limit →
      ∃ stop, (memberLoop (collecting member)).Leads collected cursor collected stop ∧
        stop.ahead = others ∧ cursor.log.Suffers [loss] stop.log

/-- The loop over members goes on at the first of the tokens. -/
def StartsMember (tokens : List Token) : Prop :=
  ∃ first rest, tokens = first :: rest ∧ first.kind ≠ .mark .rightBrace

/-- What stands between the braces of a block: tokens that members are read from, and tokens that are
given up. -/
inductive Mixed (member : Parse Node) : List Node → List Token → List Loss → Prop
  | nil : Mixed member [] [] []
  | read {taken tokens : List Token} {node : Node} {nodes : List Node} {losses : List Loss}
      (starts : StartsMember taken) (reads : ReadsAs member taken node)
      (later : Mixed member nodes tokens losses) :
      Mixed member (node :: nodes) (taken ++ tokens) losses
  | lost {lost tokens : List Token} {nodes : List Node} {loss : Loss} {losses : List Loss}
      (givesUp : GivesUp member lost loss) (later : Mixed member nodes tokens losses) :
      Mixed member nodes (lost ++ tokens) (loss :: losses)

/-- What is read from tokens wherever they stand is read off these tokens. -/
theorem ReadsAs.reading {action : Parse Node} {tokens : List Token} {node : Node}
    {reading : Reading Node} (reads : ReadsAs action tokens node)
    (sound : ∀ bound, Sound bound action reading) : reading node (tokens.map (·.kind)) [] := by
  let start : Cursor := ⟨⟨"", ""⟩, .point 1 1, tokens, .point 1 1, [], .empty⟩
  rcases reads start [] (List.append_nil _).symm rfl with ⟨after, ran, ahead, log⟩
  rcases (sound _).clean start (Nat.lt_succ_self _) rfl with errors | ⟨result, stop, ranToo, _, _, own⟩
  · rw [ran, log] at errors
    exact absurd errors (Nat.lt_irrefl _)
  · rw [ran] at ranToo
    cases ranToo
    have nothing : after.kinds = [] := by rw [Cursor.kinds, ahead, List.map_nil]
    rwa [nothing] at own

/-- Of pieces that are either read as members or given up, the good ones make the members of a block,
alone as well as among the others. -/
theorem Mixed.of_pieces {Piece : Type} {isGood : Piece → Bool} {whole : Piece → List Token}
    {loss : Piece → Loss} {written : Node → Piece → Prop} {pieces : List Piece}
    (good : ∀ piece ∈ pieces, isGood piece = true →
      ∃ node, written node piece ∧ StartsMember (whole piece) ∧ ReadsAs member (whole piece) node)
    (bad : ∀ piece ∈ pieces, isGood piece = false → GivesUp member (whole piece) (loss piece)) :
    ∃ nodes, List.Forall₂ written nodes (pieces.filter isGood) ∧
      Mixed member nodes ((pieces.filter isGood).flatMap whole) [] ∧
      Mixed member nodes (pieces.flatMap whole) ((pieces.filter (!isGood ·)).map loss) := by
  induction pieces with
  | nil => exact ⟨[], .nil, .nil, .nil⟩
  | cons piece pieces ih =>
      rw [List.forall_mem_cons] at good bad
      rcases ih good.2 bad.2 with ⟨nodes, ownAll, clean, mixed⟩
      rw [List.filter_cons, List.filter_cons, List.flatMap_cons]
      cases isPiece : isGood piece with
      | true =>
          rcases good.1 isPiece with ⟨node, own, starts, reads⟩
          exact ⟨node :: nodes, .cons own ownAll, .read starts reads clean,
            .read starts reads mixed⟩
      | false => exact ⟨nodes, ownAll, clean, .lost (bad.1 isPiece) mixed⟩

/-! ### Rounds -/

theorem member_loop_goes_on_at {state : State} {cursor : Cursor} {token : Token}
    {rest : List Token} (ahead : cursor.ahead = token :: rest)
    (other : token.kind ≠ .mark .rightBrace) (room : cursor.log.isFull = false) :
    (memberLoop step).stops state cursor = none := by
  have more : ¬(cursor.check (.mark .rightBrace) || cursor.atEnd) = true := by
    rw [Bool.or_eq_true, Cursor.check_iff, Cursor.kind_of_ahead ahead, Cursor.atEnd, ahead]
    rintro (closed | ended)
    · exact other closed
    · cases ended
  simp only [memberLoop, if_neg more, room, Bool.false_eq_true, if_false]

theorem leads_over_member {state next : State} {cursor after : Cursor}
    (goesOn : (memberLoop step).stops state cursor = none)
    (ran : step state cursor = (some next, after)) :
    (memberLoop step).Leads state cursor next after :=
  .of_round goesOn (by simp only [memberLoop, ran])

theorem leads_over_broken {state : State} {cursor after : Cursor}
    (goesOn : (memberLoop step).stops state cursor = none)
    (ran : step state cursor = (none, after)) :
    (memberLoop step).Leads state cursor state after.recoverMember :=
  .of_round goesOn (by simp only [memberLoop, ran])

theorem collecting_run (collected : List Node) {node : Node} {cursor after : Cursor}
    (ran : member cursor = (some node, after)) :
    collecting member collected cursor = (some (collected ++ [node]), after) :=
  bind_of_some ran

/-- The rounds over a block collect its members. -/
theorem Mixed.leads {nodes : List Node} {tokens others : List Token} {losses : List Loss}
    (mixed : Mixed member nodes tokens losses) {cursor : Cursor} (collected : List Node)
    (ahead : cursor.ahead = tokens ++ others)
    (few : cursor.log.totalErrors + Loss.total losses < cursor.log.limit) :
    ∃ stop, (memberLoop (collecting member)).Leads collected cursor (collected ++ nodes) stop ∧
      stop.ahead = others ∧ cursor.log.Suffers losses stop.log := by
  induction mixed generalizing cursor collected with
  | nil =>
      rw [List.append_nil]
      exact ⟨cursor, .here, ahead, ReportLog.suffers_nothing⟩
  | @read taken tokens node nodes losses starts reads _ ih =>
      rcases starts with ⟨first, rest, rfl, other⟩
      rw [List.append_assoc] at ahead
      have room := ReportLog.has_room few
      rcases reads cursor _ ahead room with ⟨after, ran, left, log⟩
      have leads := leads_over_member (member_loop_goes_on_at ahead other room)
        (collecting_run collected ran)
      rw [← log] at few ⊢
      rcases ih (collected ++ [node]) left few with ⟨stop, leadsOn, behind, suffers⟩
      rw [← List.append_cons] at leadsOn
      exact ⟨stop, leads.trans leadsOn, behind, suffers⟩
  | @lost lost tokens nodes loss losses givesUp _ ih =>
      rw [List.append_assoc] at ahead
      have enough : cursor.log.totalErrors + loss.count < cursor.log.limit := by
        rw [Loss.total_cons] at few
        omega
      rcases givesUp cursor _ collected ahead enough with ⟨after, leads, left, suffers⟩
      have fewer : cursor.log.totalErrors + Loss.total ([loss] ++ losses) < cursor.log.limit := few
      rcases ih collected left (suffers.leaves_room fewer) with ⟨stop, leadsOn, behind, suffersOn⟩
      exact ⟨stop, leads.trans leadsOn, behind, suffers.trans suffersOn⟩

/-- A block whose rounds lead to its closing brace. -/
theorem block_run (steps : MemberStep step) {initial last : State} {cursor stop : Cursor}
    {opener closer : Token} {body behind : List Token} (ahead : cursor.ahead = opener :: body)
    (opens : opener.kind = .mark .leftBrace)
    (leads : (memberLoop step).Leads initial cursor.advance last stop)
    (left : stop.ahead = closer :: behind) (closes : closer.kind = .mark .rightBrace) :
    block step initial cursor = (some last, stop.advance) := by
  have closed := Cursor.check_of_ahead left closes
  have stops : (memberLoop step).stops last stop = some (some last, stop) := by
    simp only [memberLoop, closed, Bool.true_or, if_true]
  have read := steps.ends.reached leads stops
  rw [block, bind_of_some (expect_found (Cursor.check_of_ahead ahead opens)), bind_of_some read]
  exact bind_of_some (closing_found closed)

/-- A block gives its members, and what is lost in it is reported. -/
theorem Mixed.list_block (steps : MemberStep (collecting member)) {nodes : List Node}
    {tokens rest : List Token} {losses : List Loss} (mixed : Mixed member nodes tokens losses)
    {cursor : Cursor} {opener closer : Token} (opens : opener.kind = .mark .leftBrace)
    (closes : closer.kind = .mark .rightBrace)
    (ahead : cursor.ahead = opener :: (tokens ++ closer :: rest))
    (few : cursor.log.totalErrors + Loss.total losses < cursor.log.limit) :
    ∃ stop, listBlock member cursor = (some nodes, stop) ∧ stop.ahead = rest ∧
      stop.previous = closer.span ∧ cursor.log.Suffers losses stop.log := by
  have inside := congrArg Cursor.ahead (Cursor.advance_of_ahead ahead)
  rw [← cursor.log_advance] at few
  rcases mixed.leads [] inside few with ⟨last, leads, left, suffers⟩
  refine ⟨last.advance, block_run steps ahead opens leads left closes, ?_, ?_, ?_⟩
  · rw [Cursor.advance_of_ahead left]
  · rw [Cursor.advance_of_ahead left]
  · rwa [last.log_advance, ← cursor.log_advance]

end Parse

/-! ### The gap -/

namespace Pairing

open Parse

/-- Two lists that are alike up to a word that opens a block, and again from some place behind it on.
Between the two places the second reading has got the errors that tell of the losses. -/
def gap (word : Token) (first second : List Token) {log : ReportLog} {losses : List Loss}
    (isBlock : ∃ block ∈ [Keyword.storage, .event, .interface, .impl], word.kind = .keyword block)
    (few : log.totalErrors + Loss.total losses < log.limit) : Pairing where
  Ahead left right now :=
    (now = log ∧ ∃ before, left = before ++ word :: first ∧ right = before ++ word :: second) ∨
      left = right ∧ log.Suffers losses now
  Past _ := False
  Opens block := word.kind = .keyword block
  Parts left right now := left = first ∧ right = second ∧ now = log
  heads := by
    rintro left right now (⟨_, before, rfl, rfl⟩ | ⟨rfl, _⟩)
    · cases before with
      | nil => rfl
      | cons token before => rfl
    · rfl
  tails := by
    rintro token left right now (⟨same, before, here, there⟩ | ⟨same, suffers⟩)
    · cases before with
      | nil =>
          rcases isBlock with ⟨block, _, isWord⟩
          cases here
          cases there
          exact .inr (.inr ⟨block, isWord, isWord, rfl, rfl, same⟩)
      | cons next before =>
          cases here
          cases there
          exact .inr (.inl (.inl ⟨same, before, rfl, rfl⟩))
    · cases same
      exact .inr (.inl (.inr ⟨rfl, suffers⟩))
  room := by
    rintro left right now (⟨rfl, _⟩ | ⟨_, suffers⟩)
    · exact ReportLog.has_room few
    · have fewer : log.totalErrors + Loss.total (losses ++ []) < log.limit := by
        rwa [List.append_nil]
      exact ReportLog.has_room (suffers.leaves_room fewer)
  present _ := id
  past past _ := past
  blocks := by
    rcases isBlock with ⟨block, listed, isWord⟩
    intro word same
    rw [isWord, TokenKind.keyword.injEq] at same
    exact same ▸ listed

/-- Both readings cross the gap where they agree on the block behind the word. -/
theorem gap_crosses {word : Token} {first second : List Token} {log : ReportLog}
    {losses : List Loss} {block : Keyword}
    (isBlock : ∃ block ∈ [Keyword.storage, .event, .interface, .impl], word.kind = .keyword block)
    (few : log.totalErrors + Loss.total losses < log.limit) (isWord : word.kind = .keyword block)
    (goesOn : GoesOnAsBlock first)
    (behind : (gap word first second isBlock few).AgreesBehind block) :
    (gap word first second isBlock few).Crosses := by
  constructor
  · intro other opens
    cases isWord.symm.trans opens
    exact behind
  · intro other left right _ meets
    rw [← meets.parts.1] at goesOn
    exact goesOn.check_colon
  · intro left right name _ meets named
    rw [← meets.parts.1] at goesOn
    exact goesOn.check_equal named

structure Within (first second : List Token) (log : ReportLog) (left right : Cursor) : Prop where
  first : left.ahead = first
  second : right.ahead = second
  log : right.log = log
  finish : left.finish = right.finish
  room : left.log.isFull = false

theorem Meets.within {word : Token} {first second : List Token} {log : ReportLog}
    {losses : List Loss}
    {isBlock : ∃ block ∈ [Keyword.storage, .event, .interface, .impl], word.kind = .keyword block}
    {few : log.totalErrors + Loss.total losses < log.limit} {left right : Cursor}
    (meets : (gap word first second isBlock few).Meets left right) :
    Within first second log left right :=
  ⟨meets.parts.1, meets.parts.2.1, meets.parts.2.2, meets.finish.resolve_left id, meets.room⟩

end Pairing

namespace Parse

/-- Where the input ends stays as it is. -/
def Invariant.finishing (span : Span) : Invariant where
  Holds cursor := cursor.finish = span
  Allows _ := True
  span _ := trivial
  previous _ := trivial
  cover _ _ := trivial
  advance {cursor} held more := by
    obtain ⟨token, rest, ahead⟩ := Cursor.ahead_of_more more
    rwa [Cursor.advance_of_ahead ahead]
  report _ _ _ held _ := held
  recover_member held := held
  recover_item held := held

namespace Agree

variable {Node : Type} {member : Parse Node} {fits : Invariant → Node → Prop} {bound : Nat}
  {word : Token} {first second : List Token} {log : ReportLog} {losses : List Loss}
  {isBlock : ∃ block ∈ [Keyword.storage, .event, .interface, .impl], word.kind = .keyword block}
  {few : log.totalErrors + Loss.total losses < log.limit}

/-- Behind the closing braces of the two blocks the readings are at the same place again. -/
theorem mixed_block (steps : MemberStep (collecting member))
    (keeps : ∀ invariant, Keeps invariant member (fits invariant))
    {opener closer : Token} {nodes : List Node} {clean mixed rest : List Token}
    (opens : opener.kind = .mark .leftBrace) (closes : closer.kind = .mark .rightBrace)
    (whole : Mixed member nodes clean []) (lossy : Mixed member nodes mixed losses) :
    Agree (.gap word first second isBlock few) bound
      (Pairing.Within (opener :: (clean ++ closer :: rest)) (opener :: (mixed ++ closer :: rest))
        log)
      ((Pairing.gap word first second isBlock few).Joins true) (listBlock member)
      (listBlock member) := by
  constructor
  · exact .of_keeps fun _ => .list_block (keeps _)
  · exact .of_keeps fun _ => .list_block (keeps _)
  · intro left right stop result within _ ran _
    have enough := few
    rw [← within.log] at enough
    rcases whole.list_block steps opens closes within.first (ReportLog.room_for_none within.room)
      with ⟨last, run, ahead, previous, same⟩
    rcases lossy.list_block steps opens closes within.second enough with
      ⟨lastToo, runToo, aheadToo, previousToo, suffers⟩
    have finish := (Keeps.list_block (keeps (.finishing left.finish)) left rfl).1
    have finishToo := (Keeps.list_block (keeps (.finishing right.finish)) right rfl).1
    rw [run] at ran finish
    rw [runToo] at finishToo
    cases ran
    refine .inr ⟨lastToo, runToo, ?_, ?_, ?_, ?_⟩
    · rw [within.log] at suffers
      exact .inr ⟨ahead.trans aheadToo.symm, suffers⟩
    · exact fun _ => previous.trans previousToo.symm
    · exact .inr (finish.trans (within.finish.trans finishToo.symm))
    · rw [same.unchanged]
      exact within.room

end Agree

end Parse

/-! ### Units -/

theorem Cursor.of_tokens_append (file : SourceFile) {front tail : List Token}
    (before : ∀ token ∈ front, token.kind ≠ .endOfFile) (some : tail ≠ []) :
    (Cursor.ofTokens file (front ++ tail)).ahead = front ++ (Cursor.ofTokens file tail).ahead ∧
      (Cursor.ofTokens file (front ++ tail)).finish = (Cursor.ofTokens file tail).finish := by
  have absent : front.find? (·.kind = .endOfFile) = none := by
    simpa using before
  constructor
  · rw [of_tokens_ahead, of_tokens_ahead, List.takeWhile_append_of_pos (by simpa using before)]
  · simp only [of_tokens_finish, List.find?_append, absent, Option.none_or,
      List.getLast?_append_of_ne_nil _ some]

structure BlockSite where
  before : List Token
  word : Token
  /-- The tokens between the word and the brace. -/
  heading : List Token
  opener : Token
  closer : Token
  after : List Token

namespace BlockSite

inductive HeadingWritten : Keyword → List TokenKind → Prop
  | storage : HeadingWritten .storage []
  | event : HeadingWritten .event []
  | interface {name : String} : HeadingWritten .interface [.identifier name]
  | inherent {name : String} : HeadingWritten .impl [.identifier name]
  | restated {name interface : String} :
      HeadingWritten .impl [.identifier name, .keyword .of, .identifier interface]

theorem HeadingWritten.inner {block : Keyword} {kinds : List TokenKind}
    (written : HeadingWritten block kinds) :
    block ∈ [Keyword.storage, .event, .interface, .impl] ∧ ∀ kind ∈ kinds, kind ≠ .endOfFile := by
  cases written <;> simp

structure Fits (site : BlockSite) (block : Keyword) : Prop where
  before_end : ∀ token ∈ site.before, token.kind ≠ .endOfFile
  word : site.word.kind = .keyword block
  heading : HeadingWritten block (site.heading.map (·.kind))
  opener : site.opener.kind = .mark .leftBrace
  closer : site.closer.kind = .mark .rightBrace

variable {site : BlockSite} {block : Keyword}

def behind (site : BlockSite) (inside rest : List Token) : List Token :=
  site.heading ++ site.opener :: (inside ++ site.closer :: rest)

def unit (site : BlockSite) (inside : List Token) : List Token :=
  site.before ++ site.word :: site.behind inside site.after

theorem Fits.isBlock (fits : site.Fits block) :
    ∃ block ∈ [Keyword.storage, .event, .interface, .impl], site.word.kind = .keyword block :=
  ⟨block, fits.heading.inner.1, fits.word⟩

theorem Fits.goesOn (fits : site.Fits block) (inside rest : List Token) :
    GoesOnAsBlock (site.behind inside rest) := by
  have written := fits.heading
  have brace := fits.opener
  rw [behind]
  generalize site.heading = heading at written
  generalize same : heading.map (·.kind) = kinds at written
  cases written with
  | storage =>
      cases List.map_eq_nil_iff.mp same
      simp [GoesOnAsBlock, brace]
  | event =>
      cases List.map_eq_nil_iff.mp same
      simp [GoesOnAsBlock, brace]
  | interface =>
      rcases List.map_eq_singleton_iff.mp same with ⟨name, rfl, named⟩
      simp [GoesOnAsBlock, brace, named]
  | inherent =>
      rcases List.map_eq_singleton_iff.mp same with ⟨name, rfl, named⟩
      simp [GoesOnAsBlock, brace, named]
  | restated =>
      rcases List.map_eq_cons_iff.mp same with ⟨name, others, rfl, named, same⟩
      rcases List.map_eq_cons_iff.mp same with ⟨word, others, rfl, isWord, _⟩
      simp [GoesOnAsBlock, isWord, named]

/-- The tokens of the unit up to the end of the input. -/
theorem Fits.ahead (file : SourceFile) (fits : site.Fits block) {inside : List Token}
    (before : ∀ token ∈ inside, token.kind ≠ .endOfFile) :
    (Cursor.ofTokens file (site.unit inside)).ahead =
        site.before ++ site.word :: site.behind inside (Cursor.ofTokens file site.after).ahead ∧
      (Cursor.ofTokens file (site.unit inside)).finish =
        (Cursor.ofTokens file (site.closer :: site.after)).finish := by
  have isWord : site.word.kind ≠ .endOfFile := by
    rw [fits.word]
    exact TokenKind.noConfusion
  have opens : site.opener.kind ≠ .endOfFile := by
    rw [fits.opener]
    exact TokenKind.noConfusion
  have heading : ∀ token ∈ site.heading, token.kind ≠ .endOfFile :=
    fun token member => fits.heading.inner.2 token.kind (List.mem_map_of_mem member)
  let front := site.before ++ site.word :: (site.heading ++ site.opener :: inside)
  have allBefore : ∀ token ∈ front, token.kind ≠ .endOfFile := by
    rw [List.forall_mem_append, List.forall_mem_cons, List.forall_mem_append, List.forall_mem_cons]
    exact ⟨fits.before_end, isWord, heading, opens, before⟩
  have split : site.unit inside = front ++ site.closer :: site.after := by
    simp [unit, behind, front]
  have last : (Cursor.ofTokens file (site.closer :: site.after)).ahead =
      site.closer :: (Cursor.ofTokens file site.after).ahead := by
    rw [Cursor.of_tokens_ahead, Cursor.of_tokens_ahead,
      List.takeWhile_cons_of_pos (by simp [fits.closer])]
  have parts := Cursor.of_tokens_append file allBefore (List.cons_ne_nil site.closer site.after)
  rw [split, parts.1, parts.2, last]
  exact ⟨by simp [behind, front], rfl⟩

end BlockSite

/-- A unit with losses in one of its blocks is read like the unit without them. The block is found
where it stands, and the errors tell of the losses and of nothing else. -/
theorem SourceFile.read_with_losses (file : SourceFile) {site : BlockSite} {block : Keyword}
    (fits : site.Fits block) {clean lossy : List Token} (losses : List Loss)
    (found : ComponentPart → Prop) (few : Loss.total losses ≤ 19)
    (inner : ∀ token ∈ clean, token.kind ≠ .endOfFile)
    (innerLossy : ∀ token ∈ lossy, token.kind ≠ .endOfFile)
    (agrees : ∀ rest, ∀ few : ReportLog.empty.totalErrors + Loss.total losses < ReportLog.empty.limit,
      (Pairing.gap site.word (site.behind clean rest) (site.behind lossy rest) fits.isBlock
        few).AgreesBehind block)
    (reads : ∀ rest, (Spot.mk site.word (site.behind clean rest) found).ReadBehind block)
    (readable : (file.parseTokens (site.unit clean)).log.totalErrors = 0) :
    let parsed := file.parseTokens (site.unit lossy)
    parsed.tree = (file.parseTokens (site.unit clean)).tree ∧
      (∃ item ∈ parsed.tree.items, ∃ part, found part ∧ item.Has part) ∧
      ReportLog.empty.Suffers losses parsed.log := by
  have enough : ReportLog.empty.totalErrors + Loss.total losses < ReportLog.empty.limit := by
    change 0 + _ < 20
    omega
  have first := fits.ahead file inner
  have second := fits.ahead file innerLossy
  let rest := (Cursor.ofTokens file site.after).ahead
  let pairing := Pairing.gap site.word (site.behind clean rest) (site.behind lossy rest) fits.isBlock
    enough
  have crosses : pairing.Crosses :=
    Pairing.gap_crosses fits.isBlock enough fits.word (fits.goesOn clean rest) (agrees rest enough)
  have joins : pairing.Joins true (.ofTokens file (site.unit clean))
      (.ofTokens file (site.unit lossy)) :=
    ⟨.inl ⟨rfl, site.before, first.1, second.1⟩, fun _ => rfl, .inr (first.2.trans second.2.symm),
      rfl⟩
  have opens : (Spot.mk site.word (site.behind clean rest) found).Opens := by
    refine ⟨fits.isBlock, ?_, fits.goesOn clean rest⟩
    intro word isWord
    cases fits.word.symm.trans isWord
    exact reads rest
  rcases file.trees_alike crosses (fun _ => id) joins readable with ⟨trees, ahead⟩
  refine ⟨trees, ?_, ?_⟩
  · rw [trees]
    apply file.block_found opens ⟨site.before, first.1.symm⟩ readable
  · rcases ahead with ⟨_, before, nothing, _⟩ | ⟨_, suffers⟩
    · exact absurd nothing.symm (by simp)
    · exact suffers

end Composer
