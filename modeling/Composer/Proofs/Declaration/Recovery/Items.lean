import Composer.Proofs.Declaration.Pairing.Stretch
import Composer.Proofs.Declaration.Recovery.Rounds

/-!
Junk between items. An item is read wherever it stands as it is read alone, and what stands between
two items is given up as a whole: its first token is where an item was expected, and skipping stops at
the next item only. So each run of junk costs one error and no item.
-/

namespace Composer

abbrev OpensItem (kind : TokenKind) : Prop :=
  kind = .keyword .component ∨ kind = .keyword .contract

/-- Tokens before the end of the input where a `!` is right behind each word that could start an
item. -/
def Junk : List Token → Prop
  | [] => True
  | token :: rest =>
      token.kind ≠ .endOfFile ∧
        (OpensItem token.kind → rest.head?.map (·.kind) = some (.mark .bang)) ∧ Junk rest

theorem Junk.before_end {run : List Token} (junk : Junk run) :
    ∀ token ∈ run, token.kind ≠ .endOfFile := by
  induction run with
  | nil => exact nofun
  | cons token rest ih => exact List.forall_mem_cons.mpr ⟨junk.1, ih junk.2.2⟩

/-- Nothing, or tokens that skipping to the next item stops at. -/
def StartsItem : List Token → Prop
  | [] => True
  | token :: rest => OpensItem token.kind ∧ rest.head?.map (·.kind) ≠ some (.mark .bang)

structure Passage where
  item : Item
  tokens : List Token
  junk : List Token

/-- The tokens of the item, with `ending` behind them, are read as this item and nothing else. -/
structure Passage.ReadAlone (file : SourceFile) (ending : List Token) (passage : Passage) :
    Prop where
  before_end : ∀ token ∈ passage.tokens, token.kind ≠ .endOfFile
  item : (file.parseTokens (passage.tokens ++ ending)).tree.items = [passage.item]
  clean : (file.parseTokens (passage.tokens ++ ending)).log.totalErrors = 0

def interruptions (first : List Token) (passages : List Passage) : List (List Token) :=
  (first :: passages.map (·.junk)).filter (!·.isEmpty)

namespace Parse

variable {Node State : Type} {cursor : Cursor} {run more : List Token}

/-! ### Junk -/

theorem skip_item_over_junk (junk : Junk run) (starts : StartsItem more) (previous : Span) :
    (Cursor.skipItem previous (run ++ more)).2 = more := by
  induction run generalizing previous with
  | nil =>
      cases more with
      | nil => rfl
      | cons token rest =>
          have stops : OpensItem token.kind ∧
            rest.head?.map (·.kind) ≠ some (.mark .bang) := starts
          rw [List.nil_append, Cursor.skipItem, if_pos stops]
  | cons token rest ih =>
      rcases junk with ⟨_, guarded, later⟩
      have guards : ¬(OpensItem token.kind ∧
          (rest ++ more).head?.map (·.kind) ≠ some (.mark .bang)) := by
        rintro ⟨opens, other⟩
        have bang := guarded opens
        cases rest with
        | nil => cases bang
        | cons next others => exact other bang
      rw [List.cons_append, Cursor.skipItem, if_neg guards]
      exact ih later token.span

/-- A word behind which no name stands. -/
theorem closed_without_name {word : Keyword} (head : Parse (Span × Span × State))
    {behind : Span → Ident → Parse (Span × Span × State)}
    (starts : head = currentSpan >>= fun start => expect (.keyword word) >>= fun _ =>
      identifier >>= behind start)
    (node : State → Span → Node) {token bang : Token} {rest : List Token}
    (ahead : cursor.ahead = token :: bang :: rest) (isWord : token.kind = .keyword word)
    (isBang : bang.kind = .mark .bang) :
    ∃ message, closed head node cursor =
      (none, cursor.advance.report .unexpectedToken message bang.span) := by
  have behindWord : cursor.advance.ahead = bang :: rest := by rw [Cursor.advance_of_ahead ahead]
  rcases identifier_cases cursor.advance with ⟨name, next, _⟩ | ⟨message, failed⟩
  · rw [Cursor.check_iff, Cursor.kind_of_ahead behindWord, isBang] at next
    cases next
  · refine ⟨message, bind_of_none ?_⟩
    have taken := expect_found (Cursor.check_of_ahead ahead isWord)
    rw [starts, bind_of_some (show currentSpan cursor = (some cursor.span, cursor) from rfl),
      bind_of_some taken, bind_of_none failed, Cursor.span_of_ahead behindWord]

theorem item_without_name {token bang : Token} {rest : List Token}
    (ahead : cursor.ahead = token :: bang :: rest) (opens : OpensItem token.kind)
    (isBang : bang.kind = .mark .bang) :
    ∃ message, item cursor = (none, cursor.advance.report .unexpectedToken message bang.span) := by
  rw [item, kind_run, Cursor.kind_of_ahead ahead]
  rcases opens with isWord | isWord
  · rcases closed_without_name componentHead rfl (fun decl span => { decl with span }) ahead isWord
      isBang with ⟨message, failed⟩
    rw [← component_eq] at failed
    rw [isWord]
    exact ⟨message, bind_of_none failed⟩
  · rcases closed_without_name contractHead rfl (fun decl span => { decl with span }) ahead isWord
      isBang with ⟨message, failed⟩
    rw [← contract_eq] at failed
    rw [isWord]
    exact ⟨message, bind_of_none failed⟩

theorem item_without_word (other : ¬OpensItem cursor.kind) :
    ∃ message, item cursor =
      (none, (cursor.report .unexpectedToken message cursor.span).advance) := by
  rw [item, kind_run]
  generalize cursor.kind = found at other
  split
  · exact absurd (.inl rfl) other
  · exact absurd (.inr rfl) other
  · exact ⟨_, rfl⟩

/-- Where junk stands, no item is read: one error is reported at its first or second token, and the
rest is skipped. -/
theorem junk_given_up {token : Token} {rest : List Token} (junk : Junk (token :: rest))
    (starts : StartsItem more) (ahead : cursor.ahead = token :: (rest ++ more)) :
    ∃ after, item cursor = (none, after) ∧ after.recoverItem.ahead = more ∧
      ∃ report, after.recoverItem.log = cursor.log.addError report ∧
        report.span ∈ (token :: rest).map (·.span) := by
  rcases junk with ⟨_, guarded, later⟩
  by_cases opens : OpensItem token.kind
  · have bang := guarded opens
    cases rest with
    | nil => cases bang
    | cons bangToken others =>
        rcases item_without_name ahead opens (Option.some.inj bang) with ⟨message, failed⟩
        rw [Cursor.advance_of_ahead ahead] at failed
        refine ⟨_, failed, skip_item_over_junk later starts _, _, rfl, ?_⟩
        exact List.mem_cons_of_mem _ List.mem_cons_self
  · rw [← Cursor.kind_of_ahead ahead] at opens
    rcases item_without_word opens with ⟨message, failed⟩
    have reported : (cursor.report .unexpectedToken message cursor.span).ahead =
      token :: (rest ++ more) := ahead
    rw [Cursor.advance_of_ahead reported] at failed
    refine ⟨_, failed, skip_item_over_junk later starts _, _, rfl, ?_⟩
    change cursor.span ∈ (token :: rest).map (·.span)
    rw [Cursor.span_of_ahead ahead]
    exact List.mem_cons_self

/-! ### Items -/

theorem takes_closing_brace (start opened : Span) (node : Span → Node) :
    TakesLast (closing opened >>= fun _ => do return node (← spanFrom start)) := by
  apply takes_last_of_next (.mark .rightBrace) (fun last => node (start.cover last))
    TokenKind.noConfusion
  · intro cursor next
    rw [bind_of_some (closing_found next)]
    rfl
  · intro cursor other result after ran
    rw [bind_of_none (Prod.ext (closing_missing other) rfl)] at ran
    cases ran

/-- A construct at whose closing brace the input ends is read in the same way wherever it stands. -/
theorem closed_reads_as {head : Parse (Span × Span × State)} (agrees : AgreesWithItself head)
    {node : State → Span → Node} {cursor after : Cursor} {result : Node}
    (room : cursor.log.isFull = false)
    (ran : closed head node cursor = (some result, after)) (log : after.log = cursor.log)
    (ended : after.ahead = []) : ReadsAs (closed head node) cursor.ahead result :=
  agrees.reads (fun _ => takes_closing_brace _ _ _) room ran log ended

theorem component_item_eq :
    (do return Item.component (← component)) =
      closed componentHead fun decl span => .component { decl with span } := by
  simp only [component_eq, closed, bind_assoc, pure_bind]

theorem contract_item_eq :
    (do return Item.contract (← contract)) =
      closed contractHead fun decl span => .contract { decl with span } := by
  simp only [contract_eq, closed, bind_assoc, pure_bind]

theorem component_head_agrees : AgreesWithItself componentHead :=
  ⟨false, fun _ _ crosses => .component_head crosses⟩

theorem contract_head_agrees : AgreesWithItself contractHead :=
  ⟨false, fun _ _ crosses => .contract_head crosses⟩

/-- An item that ends the input is read in the same way wherever it stands. -/
theorem item_reads_as {node : Item} {cursor after : Cursor} (room : cursor.log.isFull = false)
    (ran : item cursor = (some node, after)) (log : after.log = cursor.log)
    (ended : after.ahead = []) : ReadsAs item cursor.ahead node := by
  rw [item, kind_run] at ran
  generalize next : cursor.kind = kind at ran
  have stands {action : Parse Item} (reads : ReadsAs action cursor.ahead node)
      (same : ∀ other : Cursor, other.kind = kind → item other = action other)
      (real : kind ≠ .endOfFile) : ReadsAs item cursor.ahead node := by
    intro other others there space
    rcases Cursor.ahead_of_check real (Cursor.check_iff.mpr next) with ⟨token, rest, isKind, ahead⟩
    have kindToo : other.kind = kind := by
      rw [ahead] at there
      rw [Cursor.kind_of_ahead there, isKind]
    rw [same other kindToo]
    exact reads other others there space
  split at ran
  · rw [component_item_eq] at ran
    apply stands (closed_reads_as component_head_agrees room ran log ended)
    · intro other component
      rw [← component_item_eq, item, kind_run, component]
    · exact TokenKind.noConfusion
  · rw [contract_item_eq] at ran
    apply stands (closed_reads_as contract_head_agrees room ran log ended)
    · intro other contract
      rw [← contract_item_eq, item, kind_run, contract]
    · exact TokenKind.noConfusion
  · cases ran

theorem item_starts {node : Item} {tokens : List Token} (written : node.Written (tokens.map (·.kind)))
    (more : List Token) : tokens ≠ [] ∧ StartsItem (tokens ++ more) := by
  have starts {word : Keyword} {name : String} {rest : List TokenKind}
      (opens : OpensItem (.keyword word))
      (kinds : tokens.map (·.kind) = .keyword word :: .identifier name :: rest) :
      tokens ≠ [] ∧ StartsItem (tokens ++ more) := by
    rcases List.map_eq_cons_iff.mp kinds with ⟨first, _, rfl, isWord, named⟩
    rcases List.map_eq_cons_iff.mp named with ⟨second, others, rfl, isName, _⟩
    refine ⟨List.cons_ne_nil _ _, isWord ▸ opens, ?_⟩
    change some second.kind ≠ some (.mark .bang)
    rw [isName]
    nofun
  cases node with
  | component decl =>
      rcases written with ⟨parts, body, _, _, kinds⟩
      exact starts (.inl rfl) kinds
  | contract decl =>
      rcases written with ⟨parts, body, _, _, kinds⟩
      exact starts (.inr rfl) kinds

/-! ### Rounds -/

theorem item_loop_goes_on_at {collected : List Item} (more : cursor.atEnd = false)
    (room : cursor.log.isFull = false) : itemLoop.stops collected cursor = none := by
  simp only [itemLoop, more, room, Bool.or_false, Bool.false_eq_true, if_false]

theorem leads_over_junk (collected : List Item) (junk : Junk run) (starts : StartsItem more)
    (ahead : cursor.ahead = run ++ more) (room : cursor.log.isFull = false) :
    ∃ stop, itemLoop.Leads collected cursor collected stop ∧ stop.ahead = more ∧
      cursor.log.Suffers (([run].filter (!·.isEmpty)).map .ofRun) stop.log := by
  cases run with
  | nil => exact ⟨cursor, .here, ahead, ReportLog.suffers_nothing⟩
  | cons token rest =>
      rcases junk_given_up junk starts ahead with ⟨after, failed, skipped, report, log, inside⟩
      have more : cursor.atEnd = false := by rw [Cursor.atEnd, ahead]; rfl
      refine ⟨after.recoverItem, .of_round (item_loop_goes_on_at more room) ?_, skipped, ?_⟩
      · simp only [itemLoop, failed]
      · rw [log]
        exact .of_report inside

theorem leads_over_item (collected : List Item) {node : Item} {after : Cursor}
    (more : cursor.atEnd = false) (room : cursor.log.isFull = false)
    (ran : item cursor = (some node, after)) :
    itemLoop.Leads collected cursor (collected ++ [node]) after :=
  .of_round (item_loop_goes_on_at more room) (by simp only [itemLoop, ran])

end Parse

theorem Cursor.ahead_before_end (file : SourceFile) {tokens ending : List Token}
    (ended : ∀ token ∈ ending.head?, token.kind = .endOfFile)
    (before : ∀ token ∈ tokens, token.kind ≠ .endOfFile) :
    (Cursor.ofTokens file (tokens ++ ending)).ahead = tokens := by
  have nothing : ending.takeWhile (·.kind ≠ .endOfFile) = [] := by
    cases ending with
    | nil => rfl
    | cons token rest => rw [List.takeWhile_cons_of_neg (by simpa using ended token rfl)]
  rw [of_tokens_ahead, List.takeWhile_append_of_pos (by simpa using before), nothing,
    List.append_nil]

theorem Sequence.single {Node : Type} {written : Node → List TokenKind → Prop} {node : Node}
    {kinds : List TokenKind} (sequence : Sequence written [node] kinds) : written node kinds := by
  cases sequence with
  | cons here rest =>
      cases rest
      rwa [List.append_nil]

/-- An item that is read alone is read by the first round, and nothing is left behind it. -/
theorem Passage.ReadAlone.reading {file : SourceFile} {ending : List Token} {passage : Passage}
    (alone : passage.ReadAlone file ending)
    (ended : ∀ token ∈ ending.head?, token.kind = .endOfFile) :
    passage.item.Written (passage.tokens.map (·.kind)) ∧
      Parse.ReadsAs Parse.item passage.tokens passage.item := by
  have ahead := Cursor.ahead_before_end file ended alone.before_end
  have sound := (file.parse_tokens_sound _ alone.clean).2
  have read := alone.item
  have clean := alone.clean
  rw [alone.item, Cursor.kinds, ahead] at sound
  rw [file.items_parse_tokens] at read
  rw [file.log_parse_tokens] at clean
  unfold SourceFile.readTokens at read clean
  have room : (Cursor.ofTokens file (passage.tokens ++ ending)).log.isFull = false := rfl
  have none : (Cursor.ofTokens file (passage.tokens ++ ending)).log.totalErrors = 0 := rfl
  generalize Cursor.ofTokens file (passage.tokens ++ ending) = start at ahead read clean room none
  have more : start.atEnd = false := by
    by_contra last
    rw [Parse.items_succ, eq_true_of_ne_false last] at read
    cases read
  rcases Parse.items_clean more room (clean.trans none.symm) with ⟨node, after, ran, log, split⟩
  rw [split] at read clean
  rw [List.cons.injEq] at read
  rcases read with ⟨rfl, others⟩
  refine ⟨Sequence.single sound, ahead ▸ Parse.item_reads_as room ran log ?_⟩
  apply List.isEmpty_iff.mp
  by_contra last
  have goesOn : after.atEnd = false := eq_false_of_ne_true last
  cases size : start.ahead.length with
  | zero =>
      rw [Cursor.atEnd, List.eq_nil_of_length_eq_zero size] at more
      cases more
  | succ fuel =>
      rw [size] at others clean
      rcases Parse.items_clean goesOn (log ▸ room) (clean.trans (log ▸ none.symm)) with
        ⟨other, later, _, _, splitOn⟩
      rw [splitOn] at others
      cases others

theorem interruptions_cons (first : List Token) (passage : Passage) (passages : List Passage) :
    interruptions first (passage :: passages) =
      [first].filter (!·.isEmpty) ++ interruptions passage.junk passages :=
  List.filter_append [first] _

/-- The rounds over all the items and the junk between them. -/
theorem leads_over_passages {file : SourceFile} {ending : List Token}
    (ended : ∀ token ∈ ending.head?, token.kind = .endOfFile) {first : List Token}
    {passages : List Passage} (alone : ∀ passage ∈ passages, passage.ReadAlone file ending)
    (junk : ∀ run ∈ first :: passages.map (·.junk), Junk run) {cursor : Cursor}
    (collected : List Item)
    (ahead : cursor.ahead =
      first ++ passages.flatMap (fun passage => passage.tokens ++ passage.junk))
    (few : cursor.log.totalErrors + Loss.total ((interruptions first passages).map .ofRun) <
      cursor.log.limit) :
    ∃ stop, Parse.itemLoop.Leads collected cursor (collected ++ passages.map (·.item)) stop ∧
      stop.ahead = [] ∧ cursor.log.Suffers ((interruptions first passages).map .ofRun) stop.log := by
  have room := ReportLog.has_room few
  rw [List.forall_mem_cons] at junk
  induction passages generalizing first cursor collected with
  | nil =>
      rw [List.map_nil, List.append_nil]
      exact Parse.leads_over_junk collected junk.1 trivial ahead room
  | cons passage passages ih =>
      rw [List.forall_mem_cons] at alone
      rw [List.map_cons, List.forall_mem_cons] at junk
      rcases alone.1.reading ended with ⟨written, reads⟩
      rcases Parse.item_starts written _ with ⟨some, starts⟩
      rw [List.flatMap_cons, List.append_assoc] at ahead
      rw [interruptions_cons, List.map_append] at few ⊢
      rcases Parse.leads_over_junk collected junk.1 starts ahead room with
        ⟨between, leads, left, suffers⟩
      have fewer := suffers.leaves_room few
      have more : between.atEnd = false := by
        rw [Cursor.atEnd, left, List.isEmpty_eq_false_iff]
        exact List.append_ne_nil_of_left_ne_nil some _
      rcases reads between _ left (ReportLog.has_room fewer) with ⟨behind, ran, leftToo, logToo⟩
      rw [← logToo] at fewer suffers
      rcases ih alone.2 junk.2 (collected ++ [passage.item]) leftToo fewer
        (ReportLog.has_room fewer) with ⟨stop, leadsOn, nothing, suffersOn⟩
      have leadsHere := Parse.leads_over_item collected more
        (logToo ▸ ReportLog.has_room fewer) ran
      refine ⟨stop, ?_, nothing, suffers.trans suffersOn⟩
      rw [List.map_cons, List.append_cons]
      exact leads.trans (leadsHere.trans leadsOn)

/-- Junk between items costs one error a run, at one of its tokens, and no item; the items are those
that their tokens are read as alone. -/
theorem SourceFile.junk_costs_one_error_a_run (file : SourceFile) (first : List Token)
    (passages : List Passage) (ending : List Token)
    (ended : ∀ token ∈ ending.head?, token.kind = .endOfFile)
    (alone : ∀ passage ∈ passages, passage.ReadAlone file ending)
    (junk : ∀ run ∈ first :: passages.map (·.junk), Junk run)
    (few : (interruptions first passages).length ≤ 19) :
    let parsed := file.parseTokens
      (first ++ passages.flatMap (fun passage => passage.tokens ++ passage.junk) ++ ending)
    parsed.tree.items = passages.map (·.item) ∧
      parsed.log.totalErrors = (interruptions first passages).length ∧
      List.Forall₂ (fun (run : List Token) (report : Report) => report.span ∈ run.map (·.span))
        (interruptions first passages) parsed.log.errors := by
  intro parsed
  let tokens := first ++ passages.flatMap fun passage => passage.tokens ++ passage.junk
  have before : ∀ token ∈ tokens, token.kind ≠ .endOfFile := by
    rw [List.forall_mem_cons] at junk
    intro token member
    rcases List.mem_append.mp member with inFirst | inOthers
    · exact junk.1.before_end token inFirst
    · rcases List.mem_flatMap.mp inOthers with ⟨passage, known, inside⟩
      rcases List.mem_append.mp inside with inItem | inJunk
      · exact (alone passage known).before_end token inItem
      · exact (junk.2 _ (List.mem_map_of_mem known)).before_end token inJunk
  have ahead := Cursor.ahead_before_end file ended before
  have fewer : 0 + Loss.total ((interruptions first passages).map .ofRun) < 20 := by
    rw [Nat.zero_add, Loss.total_of_runs]
    exact Nat.lt_succ_of_le few
  rcases leads_over_passages ended alone junk [] ahead fewer with ⟨stop, leads, nothing, suffers⟩
  have stops : Parse.itemLoop.stops (passages.map (·.item)) stop =
      some (passages.map (·.item), stop) := by
    simp only [Parse.itemLoop, Cursor.atEnd, nothing]
    rfl
  have reached : file.readTokens (tokens ++ ending) = (passages.map (·.item), stop) :=
    Parse.item_loop_ends.reached leads stops
  have log : parsed.log = stop.log := by
    rw [file.log_parse_tokens, reached]
  constructor
  · rw [file.items_parse_tokens, reached]
  · rw [log]
    exact suffers.of_runs (by omega)

/-- `component c { }` with `component !` behind it. -/
def bareComponentPassage : Passage where
  item := .component
    { name := ⟨"c", .point 1 4⟩, storage := none, event := none, interfaces := [], impls := [],
      span := (Span.point 1 3).cover (.point 1 6) }
  tokens := [⟨.keyword .component, .point 1 3⟩, ⟨.identifier "c", .point 1 4⟩,
    ⟨.mark .leftBrace, .point 1 5⟩, ⟨.mark .rightBrace, .point 1 6⟩]
  junk := [⟨.keyword .component, .point 1 7⟩, ⟨.mark .bang, .point 1 8⟩]

theorem bare_component_read_alone :
    bareComponentPassage.ReadAlone ⟨"c.graft", ""⟩ [⟨.endOfFile, .point 1 9⟩] :=
  ⟨by decide, rfl, rfl⟩

theorem junk_around_component_given_up :
    let first : List Token := [⟨.mark .rightBrace, .point 1 1⟩, ⟨.mark .semicolon, .point 1 2⟩]
    let ending : List Token := [⟨.endOfFile, .point 1 9⟩]
    let parsed := SourceFile.parseTokens ⟨"c.graft", ""⟩
      (first ++ [bareComponentPassage].flatMap (fun passage => passage.tokens ++ passage.junk) ++
        ending)
    parsed.tree.items = [bareComponentPassage.item] ∧ parsed.log.totalErrors = 2 ∧
      List.Forall₂ (fun (run : List Token) (report : Report) => report.span ∈ run.map (·.span))
        [first, bareComponentPassage.junk] parsed.log.errors := by
  intro first ending parsed
  have guarded : ∀ run ∈ [first, bareComponentPassage.junk], Junk run := by
    simp [Junk, first, bareComponentPassage]
  apply SourceFile.junk_costs_one_error_a_run ⟨"c.graft", ""⟩ first [bareComponentPassage] ending
  · decide
  · exact List.forall_mem_singleton.mpr bare_component_read_alone
  · exact guarded
  · decide

end Composer
