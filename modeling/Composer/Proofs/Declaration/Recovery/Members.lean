import Composer.Proofs.Declaration.Recovery.Astray
import Composer.Proofs.Declaration.Recovery.Blocks
import Composer.Proofs.Declaration.Finding

/-!
Broken members of storage and event blocks. Each costs one error, at one of its tokens, and nothing
else: the members that are well-formed are those of the block, and what stands around the block is
read as it is read without the broken ones.
-/

namespace Composer

namespace Parse

variable {Node : Type} {body : Parse Node} {written : Node → List TokenKind → Prop}

/-! ### Members with commas -/

theorem Sound.storage_body {bound : Nat} : Sound bound storageBody (Takes MemberDecl.Written) := by
  apply Sound.bind .look
  intro start
  apply Sound.bind .attributes
  intro attributes
  apply Sound.bind .identifier
  intro name
  apply Sound.bind (.expect (by simp))
  intro colon
  apply Sound.bind .type
  intro type
  apply Sound.bind .look
  intro span
  apply Sound.pure
  rintro rest _ rfl _ ⟨type, written, rfl⟩ _ rfl _ ⟨_, rfl, rfl⟩ _ ⟨attributes, led, rfl⟩ _ rfl
  exact ⟨_, ⟨attributes, type, led, written, rfl⟩, by simp⟩

theorem Sound.variant_body {bound : Nat} :
    Sound bound variantBody (Takes VariantDecl.Written) := by
  apply Sound.bind .look
  intro start
  apply Sound.bind .attributes
  intro attributes
  apply Sound.bind .identifier
  intro name
  apply Sound.eat_else (by simp)
  · apply Sound.bind .type
    intro type
    apply Sound.bind .returned
    intro payload
    apply Sound.bind .look
    intro span
    apply Sound.pure
    rintro rest _ rfl _ ⟨rfl, rfl⟩ _ ⟨type, written, rfl⟩ _ ⟨_, rfl, rfl⟩ _ ⟨attributes, led, rfl⟩
      _ rfl
    exact ⟨_, ⟨attributes, _, led, .some written, rfl⟩, by simp⟩
  · apply Sound.bind .returned
    intro payload
    apply Sound.bind .look
    intro span
    apply Sound.pure
    rintro rest _ rfl _ ⟨rfl, rfl⟩ _ _ ⟨_, rfl, rfl⟩ _ ⟨attributes, led, rfl⟩ _ rfl
    exact ⟨_, ⟨attributes, _, led, .none, rfl⟩, by simp⟩

theorem Sound.listed {bound : Nat} (sound : ∀ bound, Sound bound body (Takes written)) :
    Sound bound (listed body) (Ends written) := by
  apply Sound.bind (sound bound)
  intro node
  apply Sound.bind .end_of_member
  intro ended
  apply Sound.pure
  rintro rest tail ends _ ⟨kinds, own, rfl⟩
  exact ⟨kinds, tail, own, rfl, ends⟩

/-- What is known of the members of a block with commas: how they are read up to what ends them, and
how they are written. -/
structure ListedMember (body : Parse Node) (written : Node → List TokenKind → Prop) : Prop where
  agrees : AgreesWithItself body
  sound (bound : Nat) : Sound bound body (Takes written)
  settles (bound : Nat) : Settles bound 1 (listed body)
  astray {comma : Token} (isComma : comma.kind = .mark .comma) (others : List Token) :
    StaysAstray comma others body
  complete {node : Node} {kinds : List TokenKind} (rest : List TokenKind) : written node kinds →
    Accepts (listed body) (kinds ++ .mark .comma :: rest) (fun _ => True) rest
  starts : Accepts.StartsOther written (.mark .rightBrace)
  inner (node : Node) (kinds : List TokenKind) : written node kinds → ∀ kind ∈ kinds, Inner kind

theorem storage_members : ListedMember storageBody MemberDecl.Written := by
  constructor
  · exact ⟨true, fun _ _ _ => .storage_body⟩
  · exact fun _ => .storage_body
  · intro bound
    rw [← storage_member_eq]
    exact .storage_member
  · exact fun isComma others => .storage_body isComma
  · intro node kinds rest own
    rw [← storage_member_eq]
    exact (Accepts.storage_member own (.inl rfl)).any
  · rintro member _ ⟨attributes, type, led, _, rfl⟩
    exact Accepts.attributes_start (by simp) led
  · exact inner_composed.member

theorem event_variants : ListedMember variantBody VariantDecl.Written := by
  constructor
  · exact ⟨true, fun _ _ _ => .variant_body⟩
  · exact fun _ => .variant_body
  · intro bound
    rw [← event_variant_eq]
    exact .event_variant
  · exact fun isComma others => .variant_body isComma
  · intro node kinds rest own
    rw [← event_variant_eq]
    exact (Accepts.event_variant own (.inl rfl)).any
  · rintro variant _ ⟨attributes, payload, led, _, rfl⟩
    exact Accepts.attributes_start (by simp) led
  · exact inner_composed.variant

/-! ### Well-formed members -/

theorem end_of_member_found {cursor : Cursor} (next : cursor.check (.mark .comma) = true) :
    endOfMember cursor = (some (), cursor.advance) := by
  rw [endOfMember, eat_else_run, if_pos next]
  rfl

theorem end_of_member_missing {cursor : Cursor} (other : cursor.check (.mark .comma) = false) :
    endOfMember cursor = (some (), cursor) ∧ cursor.check (.mark .rightBrace) = true ∨
      ∃ message, endOfMember cursor =
        (none, cursor.report .unexpectedToken message cursor.span) := by
  rw [endOfMember, eat_else_run, if_neg (ne_true_of_eq_false other)]
  rw [bind_of_some (show check (.mark .rightBrace) cursor =
    (some (cursor.check (.mark .rightBrace)), cursor) from rfl)]
  split
  · next closed => exact .inl ⟨rfl, closed⟩
  · rcases expect_missing other with ⟨message, missing⟩
    exact .inr ⟨message, bind_of_none missing⟩

theorem takes_comma (node : Node) : TakesLast (endOfMember >>= fun _ => Pure.pure node) := by
  apply takes_last_of_next (.mark .comma) (fun _ => node) TokenKind.noConfusion
  · intro cursor next
    exact bind_of_some (end_of_member_found next)
  · intro cursor other result after ran
    rcases end_of_member_missing other with ⟨taken, closed⟩ | ⟨message, missing⟩
    · rw [bind_of_some taken] at ran
      cases ran
      rcases Cursor.ahead_of_check TokenKind.noConfusion closed with ⟨token, rest, _, ahead⟩
      rw [ahead]
      exact List.cons_ne_nil token rest
    · rw [bind_of_none missing] at ran
      cases ran

/-! ### Broken members -/

/-- A cursor that has gone astray is at a token of the member, or at its comma. -/
theorem astray_span {tokens others : List Token} {comma : Token} {cursor : Cursor}
    (astray : cursor.Astray comma others) (suffix : cursor.ahead <:+ tokens ++ comma :: others) :
    cursor.span ∈ (tokens ++ [comma]).map (·.span) := by
  rcases astray with ⟨left, ahead, _⟩
  rcases suffix with ⟨taken, split⟩
  rw [ahead, ← List.append_assoc] at split
  rw [← List.append_cancel_right split]
  cases left with
  | nil =>
      rw [Cursor.span_of_ahead ahead]
      simp
  | cons token left =>
      rw [Cursor.span_of_ahead ahead]
      simp

/-- What is written by some tokens only is no member with the rest of them: it is reported that no
comma follows. -/
theorem broken_at_comma {tokens others : List Token} {comma : Token} {cursor middle : Cursor}
    {node : Node} {kinds : List TokenKind} (ill : ∀ node, ¬written node (tokens.map (·.kind)))
    (ahead : cursor.ahead = tokens ++ comma :: others) (ran : body cursor = (some node, middle))
    (astray : middle.Astray comma others) (suffix : middle.ahead <:+ cursor.ahead)
    (own : written node kinds) (split : cursor.kinds = kinds ++ middle.kinds) :
    ∃ message, listed body cursor =
      (none, middle.report .unexpectedToken message middle.span) := by
  rcases astray with ⟨left, aheadToo, plain⟩
  rcases suffix with ⟨taken, same⟩
  rw [ahead, aheadToo, ← List.append_assoc] at same
  have all := List.append_cancel_right same
  cases left with
  | nil =>
      rw [Cursor.kinds, Cursor.kinds, ahead, aheadToo, List.map_append, List.nil_append] at split
      exact absurd (List.append_cancel_right split ▸ own) (ill node)
  | cons token left =>
      have here := plain token List.mem_cons_self
      have next : middle.kind = token.kind := Cursor.kind_of_ahead aheadToo
      have other {kind : TokenKind} (barred : ¬Plain kind) : middle.check kind = false := by
        rw [← Bool.not_eq_true, Cursor.check_iff, next]
        rintro rfl
        exact barred here
      rcases end_of_member_missing (other (by decide)) with ⟨_, closed⟩ | ⟨message, missing⟩
      · rw [other (by decide)] at closed
        cases closed
      · refine ⟨message, ?_⟩
        rw [listed, bind_of_some ran]
        exact bind_of_none missing

namespace ListedMember

variable (known : ListedMember body written) {tokens : List Token} {comma : Token}
include known

/-- What is read from tokens with a comma behind them is written by these tokens. -/
theorem written_of_reads {node : Node} (isComma : comma.kind = .mark .comma)
    (reads : ReadsAs (listed body) (tokens ++ [comma]) node) :
    written node (tokens.map (·.kind)) := by
  rcases reads.reading fun _ => Sound.listed known.sound with ⟨kinds, tail, own, split, ends⟩
  rw [List.map_append, List.map_singleton, isComma] at split
  rcases ends with rfl | ⟨_, closed⟩
  · exact List.append_cancel_right split ▸ own
  · cases closed

theorem starts_member {node : Node} (comma : Token) (own : written node (tokens.map (·.kind))) :
    StartsMember (tokens ++ [comma]) := by
  rcases known.starts own with ⟨first, others, split, other⟩
  rcases List.map_eq_cons_iff.mp split with ⟨token, rest, rfl, rfl, _⟩
  exact ⟨token, rest ++ [comma], rfl, other⟩

/-- A member with its comma is read wherever it stands. -/
theorem reads {node : Node} (own : written node (tokens.map (·.kind)))
    (isComma : comma.kind = .mark .comma) :
    ∃ node, written node (tokens.map (·.kind)) ∧
      ReadsAs (listed body) (tokens ++ [comma]) node := by
  have accepts := known.complete [] own
  have kinds : tokens.map (·.kind) ++ [.mark .comma] = (tokens ++ [comma]).map (·.kind) := by
    rw [List.map_append, List.map_singleton, isComma]
  rw [kinds] at accepts
  rcases known.agrees.reads_accepted takes_comma accepts with ⟨result, _, reads⟩
  exact ⟨result, known.written_of_reads isComma reads, reads⟩

/-- What is no member is not read as one: an error is reported at the place where reading stops. -/
theorem broken (ill : ∀ node, ¬written node (tokens.map (·.kind)))
    (plain : ∀ token ∈ tokens, Plain token.kind) (isComma : comma.kind = .mark .comma)
    {cursor : Cursor} {others : List Token} (ahead : cursor.ahead = tokens ++ comma :: others)
    (room : cursor.log.isFull = false) :
    ∃ after, listed body cursor = (none, after) ∧ after.Astray comma others ∧
      ∃ report, after.log = cursor.log.addError report ∧ report.span = after.span := by
  have astray : cursor.Astray comma others := ⟨tokens, ahead, plain⟩
  rcases known.astray isComma others cursor astray with ⟨stays, reports⟩
  have suffix := known.agrees.forward.ahead cursor
  rcases ran : body cursor with ⟨_ | node, middle⟩
  · rw [ran] at stays reports
    have failed : listed body cursor = (none, middle) := bind_of_none ran
    refine ⟨middle, failed, stays, ?_⟩
    rcases (known.settles _).failed (Nat.lt_succ_self cursor.ahead.length) failed with ⟨report, log⟩
    rcases reports with same | ⟨_, reported⟩
    · have total := congrArg ReportLog.totalErrors (same.symm.trans log)
      exact absurd total (Nat.ne_of_lt (Nat.lt_succ_self _))
    · exact reported
  · rw [ran] at stays reports suffix
    have log : middle.log = cursor.log := reports.resolve_right fun told => nomatch told.1
    rcases (known.sound _).clean cursor (Nat.lt_succ_self _) room with
      errors | ⟨result, after, ranToo, _, _, kinds, own, split⟩
    · rw [ran, log] at errors
      exact absurd errors (Nat.lt_irrefl _)
    · rw [ran] at ranToo
      cases ranToo
      rcases broken_at_comma ill ahead ran stays suffix own split with ⟨message, missing⟩
      have told : ∃ report, (middle.report .unexpectedToken message middle.span).log =
          middle.log.addError report ∧ report.span = middle.span := ⟨_, rfl, rfl⟩
      rw [log] at told
      exact ⟨_, missing, stays, told⟩

/-- What is no member is given up with one error, up to its comma. -/
theorem gives_up (ill : ∀ node, ¬written node (tokens.map (·.kind)))
    (plain : ∀ token ∈ tokens, Plain token.kind) (isComma : comma.kind = .mark .comma) :
    GivesUp (listed body) (tokens ++ [comma]) (.ofRun (tokens ++ [comma])) := by
  intro cursor others collected ahead few
  rw [List.append_assoc, List.singleton_append] at ahead
  have room : cursor.log.isFull = false := ReportLog.has_room few
  have astray : cursor.Astray comma others := ⟨tokens, ahead, plain⟩
  rcases known.broken ill plain isComma ahead room with
    ⟨after, failed, stays, report, log, place⟩
  have goesOn : (memberLoop (collecting (listed body))).stops collected cursor = none := by
    rcases astray.next with ⟨token, rest, starts, here | rfl⟩
    · apply member_loop_goes_on_at starts _ room
      intro closes
      rw [closes] at here
      exact absurd here (by decide)
    · apply member_loop_goes_on_at starts _ room
      rw [isComma]
      nofun
  have suffix := (known.settles 0).ahead cursor
  rw [failed, ahead] at suffix
  have leads := leads_over_broken goesOn (bind_of_none failed)
  refine ⟨after.recoverMember, leads, stays.recover isComma, ?_⟩
  have inside : report.span ∈ (tokens ++ [comma]).map (·.span) := by
    rw [place]
    exact astray_span stays suffix
  change cursor.log.Suffers _ after.log
  rw [log]
  exact .of_report inside

end ListedMember

end Parse

/-! ### Segments -/

inductive CommaBlock
  | storage
  | event

namespace CommaBlock

def word : CommaBlock → Keyword
  | storage => .storage
  | event => .event

def Member : CommaBlock → Type
  | storage => MemberDecl
  | event => VariantDecl

def Written : (block : CommaBlock) → block.Member → List TokenKind → Prop
  | storage => MemberDecl.Written
  | event => VariantDecl.Written

def part : (block : CommaBlock) → List block.Member → Span → ComponentPart
  | storage, members, span => .storage ⟨members, span⟩
  | event, variants, span => .event ⟨variants, span⟩

end CommaBlock

structure Segment where
  tokens : List Token
  comma : Token
  isMember : Bool

namespace Segment

def kinds (segment : Segment) : List TokenKind := segment.tokens.map (·.kind)

def whole (segment : Segment) : List Token := segment.tokens ++ [segment.comma]

def members (segments : List Segment) : List Segment := segments.filter (·.isMember)

def strays (segments : List Segment) : List Segment := segments.filter (!·.isMember)

structure Fits (block : CommaBlock) (segment : Segment) : Prop where
  comma : segment.comma.kind = .mark .comma
  member : segment.isMember = true → ∃ node, block.Written node segment.kinds
  stray : segment.isMember = false → (∀ node, ¬block.Written node segment.kinds) ∧
    ∀ token ∈ segment.tokens, Plain token.kind

end Segment

namespace CommaBlock

open Parse

def body : (block : CommaBlock) → Parse block.Member
  | storage => storageBody
  | event => variantBody

theorem known : (block : CommaBlock) → ListedMember block.body block.Written
  | storage => storage_members
  | event => event_variants

variable {block : CommaBlock} {segments : List Segment}

/-- The segments that are members are what the block gives, the other ones are given up. -/
theorem mixed (fit : ∀ segment ∈ segments, segment.Fits block) :
    ∃ nodes, List.Forall₂ (fun node segment => block.Written node segment.kinds) nodes
        (Segment.members segments) ∧
      Mixed (listed block.body) nodes ((Segment.members segments).flatMap (·.whole)) [] ∧
      Mixed (listed block.body) nodes (segments.flatMap (·.whole))
        ((Segment.strays segments).map fun segment => .ofRun segment.whole) := by
  apply Mixed.of_pieces
  · intro segment listed isMember
    have own := fit segment listed
    rcases own.member isMember with ⟨_, written⟩
    rcases block.known.reads written own.comma with ⟨node, written, reads⟩
    exact ⟨node, written, block.known.starts_member segment.comma written, reads⟩
  · intro segment listed isStray
    have own := fit segment listed
    rcases own.stray isStray with ⟨ill, plain⟩
    exact block.known.gives_up ill plain own.comma

theorem before_end (fit : ∀ segment ∈ segments, segment.Fits block) :
    ∀ token ∈ segments.flatMap (·.whole), token.kind ≠ .endOfFile := by
  intro token inside
  rcases List.mem_flatMap.mp inside with ⟨segment, listed, inWhole⟩
  have own := fit segment listed
  rcases List.mem_append.mp inWhole with inTokens | last
  · cases isMember : segment.isMember with
    | true =>
        rcases own.member isMember with ⟨node, written⟩
        have inner := block.known.inner node _ written _ (List.mem_map_of_mem inTokens)
        intro ended
        rw [ended] at inner
        exact absurd inner (by decide)
    | false =>
        have plain := (own.stray isMember).2 token inTokens
        intro ended
        rw [ended] at plain
        exact absurd plain (by decide)
  · rw [List.mem_singleton] at last
    rw [last, own.comma]
    exact TokenKind.noConfusion

theorem steps : MemberStep (collecting (listed block.body)) := by
  cases block with
  | storage =>
      change MemberStep (collecting (listed storageBody))
      rw [← storage_member_eq]
      exact .storage
  | event =>
      change MemberStep (collecting (listed variantBody))
      rw [← event_variant_eq]
      exact .event

theorem keeps (invariant : Invariant) : Keeps invariant (listed block.body) fun _ => True := by
  cases block with
  | storage =>
      have kept : Keeps invariant Parse.storageMember _ := .storage_member
      rw [storage_member_eq] at kept
      exact fun cursor held => ⟨(kept cursor held).1, fun _ _ => trivial⟩
  | event =>
      have kept : Keeps invariant Parse.eventVariant _ := .event_variant
      rw [event_variant_eq] at kept
      exact fun cursor held => ⟨(kept cursor held).1, fun _ _ => trivial⟩

theorem agrees_behind {pairing : Pairing}
    (agree : ∀ bound, Agree pairing bound pairing.Meets (pairing.Joins true)
      (listBlock (listed block.body)) (listBlock (listed block.body))) :
    pairing.AgreesBehind block.word := by
  cases block with
  | storage =>
      intro bound
      rw [storage_member_eq]
      exact agree bound
  | event =>
      intro bound
      rw [event_variant_eq]
      exact agree bound

theorem read_behind {spot : Spot} (forward : Forward (listBlock (listed block.body)))
    (reads : ∀ cursor, spot.Behind cursor → ∃ nodes stop,
      listBlock (listed block.body) cursor = (some nodes, stop) ∧
        spot.found (block.part nodes (spot.word.span.cover stop.previous))) :
    spot.ReadBehind block.word := by
  cases block with
  | storage =>
      constructor
      · rw [storage_member_eq]
        exact .bind forward fun _ => .bind (.look _) fun _ => .pure _
      · intro cursor stop block behind ran _
        rcases reads cursor behind with ⟨nodes, last, read, found⟩
        rw [storage_member_eq] at ran
        cases (bind_of_some read).symm.trans ran
        exact found
  | event =>
      constructor
      · rw [event_variant_eq]
        exact .bind forward fun _ => .bind (.look _) fun _ => .pure _
      · intro cursor stop block behind ran _
        rcases reads cursor behind with ⟨nodes, last, read, found⟩
        rw [event_variant_eq] at ran
        cases (bind_of_some read).symm.trans ran
        exact found

theorem behind_eq {site : BlockSite} (fits : site.Fits block.word) (inside rest : List Token) :
    site.behind inside rest = site.opener :: (inside ++ site.closer :: rest) := by
  have written := fits.heading
  rw [BlockSite.behind]
  cases block with
  | storage =>
      generalize same : site.heading.map (·.kind) = kinds at written
      cases written
      rw [List.map_eq_nil_iff.mp same, List.nil_append]
  | event =>
      generalize same : site.heading.map (·.kind) = kinds at written
      cases written
      rw [List.map_eq_nil_iff.mp same, List.nil_append]

end CommaBlock

open Parse in
/-- Each stray segment in a block with commas costs one error, at one of its tokens. The members of
the block are the other segments, and the rest of the unit is read as if the strays were absent. -/
theorem SourceFile.strays_cost_one_error_each (file : SourceFile) (block : CommaBlock)
    (site : BlockSite) (fits : site.Fits block.word) (segments : List Segment)
    (fit : ∀ segment ∈ segments, segment.Fits block)
    (few : (Segment.strays segments).length ≤ 19)
    (readable : (file.parseTokens
      (site.unit ((Segment.members segments).flatMap (·.whole)))).log.totalErrors = 0) :
    let parsed := file.parseTokens (site.unit (segments.flatMap (·.whole)))
    parsed.tree =
        (file.parseTokens (site.unit ((Segment.members segments).flatMap (·.whole)))).tree ∧
      (∃ item ∈ parsed.tree.items, ∃ members,
        item.Has (block.part members (site.word.span.cover site.closer.span)) ∧
          List.Forall₂ (fun member segment => block.Written member segment.kinds) members
            (Segment.members segments)) ∧
      parsed.log.totalErrors = (Segment.strays segments).length ∧
      List.Forall₂
        (fun (segment : Segment) (report : Report) => report.span ∈ segment.whole.map (·.span))
        (Segment.strays segments) parsed.log.errors := by
  intro parsed
  let losses := (Segment.strays segments).map fun segment => Loss.ofRun segment.whole
  have counted : Loss.total losses = (Segment.strays segments).length := Loss.total_of_runs
  rcases CommaBlock.mixed fit with ⟨nodes, written, clean, mixed⟩
  have members : ∀ segment ∈ Segment.members segments, segment.Fits block :=
    fun segment member => fit segment (List.mem_filter.mp member).1
  let span := site.word.span.cover site.closer.span
  have forward : Forward (listBlock (listed block.body)) :=
    .of_keeps fun _ => .list_block (CommaBlock.keeps _)
  have read := file.read_with_losses fits losses (· = block.part nodes span) (counted ▸ few)
    (CommaBlock.before_end members) (CommaBlock.before_end fit) ?_ ?_ readable
  · rcases read with ⟨trees, ⟨item, listed, _, rfl, has⟩, suffers⟩
    exact ⟨trees, ⟨item, listed, nodes, has, written⟩, suffers.of_runs (by omega)⟩
  · intro rest few
    apply CommaBlock.agrees_behind
    intro bound
    rw [CommaBlock.behind_eq fits, CommaBlock.behind_eq fits]
    exact (Agree.mixed_block CommaBlock.steps CommaBlock.keeps fits.opener fits.closer clean
      mixed).mono (Nat.le_refl _) (fun _ _ meets => meets.within) fun _ _ => id
  · intro rest
    apply CommaBlock.read_behind forward
    rintro cursor ⟨ahead, previous, room⟩
    rw [CommaBlock.behind_eq fits] at ahead
    rcases clean.list_block CommaBlock.steps fits.opener fits.closer ahead
      (ReportLog.room_for_none room) with ⟨stop, ran, _, last, _⟩
    refine ⟨nodes, stop, ran, ?_⟩
    rw [last]

/-- `component c { storage { .. } }` without what stands between the inner braces. -/
def storageSite : BlockSite where
  before := [⟨.keyword .component, .point 1 1⟩, ⟨.identifier "c", .point 1 2⟩,
    ⟨.mark .leftBrace, .point 1 3⟩]
  word := ⟨.keyword .storage, .point 1 4⟩
  heading := []
  opener := ⟨.mark .leftBrace, .point 1 5⟩
  closer := ⟨.mark .rightBrace, .point 1 14⟩
  after := [⟨.mark .rightBrace, .point 1 15⟩, ⟨.endOfFile, .point 1 16⟩]

/-- `a a` and `b: T` -/
def strayThenMember : List Segment :=
  [⟨[⟨.identifier "a", .point 1 6⟩, ⟨.identifier "a", .point 1 7⟩], ⟨.mark .comma, .point 1 8⟩, false⟩,
    ⟨[⟨.identifier "b", .point 1 9⟩, ⟨.mark .colon, .point 1 10⟩, ⟨.identifier "T", .point 1 11⟩],
      ⟨.mark .comma, .point 1 12⟩, true⟩]

theorem storage_site_fits : storageSite.Fits .storage :=
  ⟨by decide, rfl, .storage, rfl, rfl⟩

theorem stray_then_member_fit : ∀ segment ∈ strayThenMember, segment.Fits .storage := by
  rw [strayThenMember, List.forall_mem_cons, List.forall_mem_singleton]
  constructor
  · refine ⟨rfl, nofun, fun _ => ⟨?_, by decide⟩⟩
    rintro node ⟨attributes, type, led, own, kinds⟩
    change [TokenKind.identifier "a", .identifier "a"] = _ at kinds
    generalize node.attributes = named at led
    cases led with
    | nil => simp at kinds
    | trailing no => exact no
    | cons => simp at kinds
  · refine ⟨rfl, fun _ => ?_, nofun⟩
    exact ⟨⟨[], ⟨"b", .point 1 9⟩, .path [⟨"T", .point 1 11⟩] [] (.point 1 11), .point 1 9⟩,
      [], _, .nil, .path .nil .none, rfl⟩

theorem stray_before_member_given_up :
    let file : SourceFile := ⟨"c.graft", ""⟩
    let parsed := file.parseTokens (storageSite.unit (strayThenMember.flatMap (·.whole)))
    parsed.tree = (file.parseTokens
        (storageSite.unit ((Segment.members strayThenMember).flatMap (·.whole)))).tree ∧
      (∃ item ∈ parsed.tree.items, ∃ members : List MemberDecl,
        item.Has (.storage ⟨members, (Span.point 1 4).cover (.point 1 14)⟩) ∧
          List.Forall₂ (fun member segment => member.Written segment.kinds) members
            (Segment.members strayThenMember)) ∧
      parsed.log.totalErrors = 1 ∧
      List.Forall₂
        (fun (segment : Segment) (report : Report) => report.span ∈ segment.whole.map (·.span))
        (Segment.strays strayThenMember) parsed.log.errors :=
  SourceFile.strays_cost_one_error_each ⟨"c.graft", ""⟩ .storage storageSite storage_site_fits
    strayThenMember stray_then_member_fit (by decide) rfl

end Composer
