import Composer.Proofs.Declaration.Recovery.Receivers

/-!
Blocks of methods, some of which have faulty receivers. The block keeps the well-formed ones and the
rest of the unit is read as if the faulty ones were absent. But each of these costs one error for its
receiver and one more for every open comma behind it, where the next method is expected too early.
-/

namespace Composer

namespace Parse

/-! ### Well-formed methods -/

/-- A method is read wherever it stands. -/
theorem method_reads {tokens : List Token} {method : MethodDecl}
    (own : method.Written (tokens.map (·.kind))) :
    ∃ method : MethodDecl, method.Written (tokens.map (·.kind)) ∧
      ReadsAs Parse.method tokens method := by
  have agrees : AgreesWithItself methodHead := ⟨true, fun _ _ _ => .method_head⟩
  have accepts : Accepts Parse.method (tokens.map (·.kind) ++ []) _ [] := .method own trivial
  rw [List.append_nil, method_eq] at accepts
  have found := agrees.reads_accepted ?_ accepts
  · rcases found with ⟨result, _, reads⟩
    rw [← method_eq] at reads
    rcases reads.reading fun _ => .method with ⟨kinds, written, split⟩
    rw [List.append_nil] at split
    exact ⟨result, split ▸ written, reads⟩
  · rintro ⟨start, node⟩
    dsimp only
    apply takes_last_of_next (.mark .semicolon) (fun last => node (start.cover last))
      TokenKind.noConfusion
    · intro cursor next
      exact bind_of_some (expect_found next)
    · intro cursor other result after ran
      rcases expect_missing other with ⟨message, missing⟩
      rw [bind_of_none missing] at ran
      cases ran

theorem method_forward : Forward method := .of_keeps fun _ => .method

theorem starts_method {tokens : List Token} {rest : List TokenKind}
    (starts : tokens.map (·.kind) = .keyword .fn :: rest) : StartsMember tokens := by
  rcases List.map_eq_cons_iff.mp starts with ⟨first, others, rfl, isFn, _⟩
  refine ⟨first, others, rfl, ?_⟩
  rw [isFn]
  exact TokenKind.noConfusion

/-! ### Faulty methods -/

section Faulty

variable {semicolon : Token} {part others : List Token} {collected : List MethodDecl}

/-- Where skipping goes on there is neither the end of the block nor another method. -/
theorem listable_next (others : List Token) (ended : semicolon.kind = .mark .semicolon)
    (listable : ∀ token ∈ part, Listable token.kind) :
    ∃ token rest, part ++ semicolon :: others = token :: rest ∧
      token.kind ≠ .mark .rightBrace ∧ token.kind ≠ .keyword .fn := by
  have barred : ¬Listable (.mark .rightBrace) ∧ ¬Listable (.keyword .fn) := by decide
  cases part with
  | nil =>
      rw [List.nil_append]
      exact ⟨semicolon, others, rfl, by simp [ended], by simp [ended]⟩
  | cons token part =>
      have here := listable token List.mem_cons_self
      refine ⟨token, part ++ semicolon :: others, rfl, ?_, ?_⟩
      · exact fun same => barred.1 (same ▸ here)
      · exact fun same => barred.2 (same ▸ here)

/-- A round that finds no method reports this and skips from where it stands. -/
theorem round_without_method {cursor : Cursor} {token : Token} {rest : List Token}
    (ahead : cursor.ahead = token :: rest) (notBrace : token.kind ≠ .mark .rightBrace)
    (notFn : token.kind ≠ .keyword .fn) (room : cursor.log.isFull = false) :
    ∃ (after : Cursor) (report : Report),
      (memberLoop (collecting method)).Leads collected cursor collected after.recoverMember ∧
        after.ahead = token :: rest ∧ after.log = cursor.log.addError report := by
  have refuses : Refuses method (([] ++ token :: rest : List Token).map (·.kind))
      ((token :: rest).map (·.kind)) := .method_missing notFn
  rcases refuses.at_tokens method_forward ahead room with ⟨after, report, ran, same, log⟩
  have goesOn : (memberLoop (collecting method)).stops collected cursor = none :=
    member_loop_goes_on_at ahead notBrace room
  exact ⟨after, report, leads_over_broken goesOn (bind_of_none ran), same, log⟩

/-- From the place where a fault was found out skipping leads behind the semicolon, with one more error
at each open comma on the way. -/
theorem leads_over_open_commas {count : Nat} {cursor : Cursor}
    (ended : semicolon.kind = .mark .semicolon) (ahead : cursor.ahead = part ++ semicolon :: others)
    (listable : ∀ token ∈ part, Listable token.kind)
    (closed : (part.map (·.kind)).foldl nestedBehind 0 = 0)
    (commas : openCommas 0 (part.map (·.kind)) = count)
    (few : cursor.log.totalErrors + count < cursor.log.limit) :
    ∃ stop reports,
      (memberLoop (collecting method)).Leads collected cursor.recoverMember collected stop ∧
        stop.ahead = others ∧ reports.length = count ∧
        stop.log = cursor.log.addErrors reports := by
  induction count generalizing part cursor with
  | zero =>
      have skipped := Cursor.skip_member_stops cursor.previous others listable ended closed
      rw [← ahead] at skipped
      rcases skipped with ⟨_, behind⟩ | ⟨left, _, _, more, _⟩
      · exact ⟨cursor.recoverMember, [], .here, behind, rfl, rfl⟩
      · omega
  | succ count ih =>
      have skipped := Cursor.skip_member_stops cursor.previous others listable ended closed
      rw [← ahead] at skipped
      rcases skipped with ⟨none, _⟩ | ⟨left, suffix, closed, more, behind⟩
      · omega
      · have room : cursor.log.isFull = false := ReportLog.has_room few
        have listed : ∀ token ∈ left, Listable token.kind :=
          fun token member => listable token (suffix.subset member)
        rcases listable_next others ended listed with ⟨token, rest, starts, notBrace, notFn⟩
        have ahead : cursor.recoverMember.ahead = token :: rest := behind.trans starts
        rcases round_without_method ahead notBrace notFn room with ⟨after, report, leads, same, log⟩
        have fewer : after.log.totalErrors + count < after.log.limit := by
          rw [log]
          change cursor.log.totalErrors + 1 + count < cursor.log.limit
          omega
        rcases ih (same.trans starts.symm) listed closed (by omega) fewer with
          ⟨stop, reports, leadsOn, last, length, logs⟩
        refine ⟨stop, report :: reports, leads.trans leadsOn, last, congrArg (· + 1) length, ?_⟩
        rw [logs, log]
        rfl

/-- A method with a faulty receiver is given up with one error for the receiver, and one for each open
comma behind it. -/
theorem faulty_gives_up {tokens : List Token} {left : List TokenKind}
    (faulty : FaultyMethod (tokens.map (·.kind)) left) :
    GivesUp method tokens ⟨1 + openCommas 0 left, fun _ => True⟩ := by
  intro cursor others collected ahead few
  dsimp only at few
  have starts : StartsMember tokens := by
    generalize same : tokens.map (·.kind) = kinds at faulty
    cases faulty
    exact starts_method same
  have enclosed := faulty.left_enclosed
  have refuses : Refuses method (_ ++ others.map (·.kind)) _ := .method faulty
  rcases faulty.split with ⟨front, part, semicolon, rfl, rfl, ended⟩
  have room : cursor.log.isFull = false := ReportLog.has_room few
  have goesOn : (memberLoop (collecting method)).stops collected cursor = none := by
    rcases starts with ⟨first, rest, split, other⟩
    rw [split] at ahead
    exact member_loop_goes_on_at ahead other room
  have whole : front ++ (part ++ [semicolon]) ++ others = front ++ (part ++ semicolon :: others) := by
    simp
  rw [whole] at ahead
  rw [← List.map_append, whole, ← ended, ← List.map_cons, ← List.map_append] at refuses
  rcases refuses.at_tokens method_forward ahead room with ⟨after, report, ran, left, log⟩
  have leads := leads_over_broken goesOn (bind_of_none ran)
  have listable : ∀ token ∈ part, Listable token.kind :=
    fun token member => enclosed.1 _ (List.mem_map_of_mem member)
  have fewer : after.log.totalErrors + openCommas 0 (part.map (·.kind)) < after.log.limit := by
    rw [log]
    change cursor.log.totalErrors + 1 + _ < cursor.log.limit
    omega
  rcases leads_over_open_commas ended left listable enclosed.2 rfl fewer with
    ⟨stop, reports, leadsOn, last, length, logs⟩
  refine ⟨stop, leads.trans leadsOn, last, ?_⟩
  have told : Loss.ReportedBy ⟨1 + openCommas 0 (part.map (·.kind)), fun _ => True⟩
      (report :: reports) := by
    refine ⟨?_, fun _ _ => trivial⟩
    rw [List.length_cons, length, Nat.add_comm]
  rw [logs, log]
  exact .of_reports told

end Faulty

/-! ### Headings -/

theorem interface_behind_forward (start : Span) : Forward (interfaceBehind start) := by
  have agrees : AgreesWithItself (interfaceBehind start) := ⟨true, fun _ _ _ => .interface_behind start⟩
  exact agrees.forward

theorem implementation_behind_forward (attributes : List Attribute) (start : Span) :
    Forward (implementationBehind attributes start) := by
  have agrees : AgreesWithItself (implementationBehind attributes start) :=
    ⟨true, fun _ _ _ => .implementation_behind attributes start⟩
  exact agrees.forward

theorem identifier_found {cursor : Cursor} {token : Token} {rest : List Token} {name : String}
    (ahead : cursor.ahead = token :: rest) (named : token.kind = .identifier name) :
    identifier cursor =
      (some ⟨name, token.span⟩, { cursor with previous := token.span, ahead := rest }) := by
  rw [identifier, kind_run, Cursor.kind_of_ahead ahead, named]
  change (some (Ident.mk name cursor.advance.previous), cursor.advance) = _
  rw [Cursor.advance_of_ahead ahead]

/-- Behind the word of a block the action reads the heading, the methods, and nothing else. -/
def ReadsHeading {Node : Type} (site : BlockSite) (start : Span) (action : Parse Node)
    (node : List MethodDecl → Span → Node) : Prop :=
  ∃ last, ∀ (cursor : Cursor) (rest : List Token), cursor.ahead = site.heading ++ site.opener :: rest →
    action cursor = (do
      let methods ← listBlock method
      return node methods (← spanFrom start))
        { cursor with previous := last, ahead := site.opener :: rest }

variable {site : BlockSite}

theorem interface_reads_heading (fits : site.Fits .interface) (start : Span) :
    ∃ name : Ident, site.heading.head?.map (·.span) = some name.span ∧
      ReadsHeading site start (interfaceBehind start) fun methods span => ⟨name, methods, span⟩ := by
  have written := fits.heading
  generalize same : site.heading.map (·.kind) = kinds at written
  cases written with
  | @interface spelling =>
      rcases List.map_eq_singleton_iff.mp same with ⟨name, heading, named⟩
      refine ⟨⟨spelling, name.span⟩, by rw [heading]; rfl, name.span, ?_⟩
      intro cursor rest ahead
      rw [heading, List.singleton_append] at ahead
      rw [interfaceBehind, bind_of_some (identifier_found ahead named)]

theorem implementation_reads_heading (fits : site.Fits .impl) :
    ∃ (name : Ident) (interface : Option Ident),
      site.heading.head?.map (·.span) = some name.span ∧
        ∀ attributes start, ReadsHeading site start (implementationBehind attributes start)
          fun methods span => ⟨attributes, name, interface, methods, span⟩ := by
  have written := fits.heading
  generalize same : site.heading.map (·.kind) = kinds at written
  cases written with
  | @inherent spelling =>
      rcases List.map_eq_singleton_iff.mp same with ⟨name, heading, named⟩
      refine ⟨⟨spelling, name.span⟩, none, by rw [heading]; rfl, fun attributes start => ?_⟩
      refine ⟨name.span, fun cursor rest ahead => ?_⟩
      rw [heading, List.singleton_append] at ahead
      rw [implementationBehind, bind_of_some (identifier_found ahead named), eat_else_run, if_neg]
      simp [Cursor.check, Cursor.kind, fits.opener]
  | @restated spelling restates =>
      rcases List.map_eq_cons_iff.mp same with ⟨name, others, heading, named, same⟩
      rcases List.map_eq_cons_iff.mp same with ⟨word, others, rfl, isWord, same⟩
      rcases List.map_eq_singleton_iff.mp same with ⟨interface, rfl, isInterface⟩
      refine ⟨⟨spelling, name.span⟩, some ⟨restates, interface.span⟩, by rw [heading]; rfl,
        fun attributes start => ⟨interface.span, fun cursor rest ahead => ?_⟩⟩
      simp only [heading, List.cons_append, List.nil_append] at ahead
      rw [implementationBehind, bind_of_some (identifier_found ahead named), eat_else_run, if_pos]
      · rw [Cursor.advance_of_ahead rfl, bind_of_some (identifier_found rfl isInterface),
          eat_else_run, if_neg]
        simp [Cursor.check, Cursor.kind, fits.opener]
      · simp [Cursor.check, Cursor.kind, isWord]

namespace ReadsHeading

variable {Node : Type} {block : Keyword} {start : Span} {action : Parse Node}
  {node : List MethodDecl → Span → Node} {methods : List MethodDecl} {clean mixed rest : List Token}
  {losses : List Loss}

/-- Two readings that part in the block agree on it. -/
theorem agrees (heads : ReadsHeading site start action node) (forward : Forward action)
    (fits : site.Fits block) (whole : Mixed method methods clean [])
    (lossy : Mixed method methods mixed losses) {log : ReportLog}
    {few : log.totalErrors + Loss.total losses < log.limit} {bound : Nat} :
    let pairing := Pairing.gap site.word (site.behind clean rest) (site.behind mixed rest)
      fits.isBlock few
    Agree pairing bound pairing.Meets (pairing.Joins true) action action := by
  intro pairing
  rcases heads with ⟨last, run⟩
  constructor
  · exact forward
  · exact forward
  · intro left right stop result meets _ ran clear
    have within := meets.within
    have agree (bound : Nat) : Agree pairing bound
        (Pairing.Within (site.opener :: (clean ++ site.closer :: rest))
          (site.opener :: (mixed ++ site.closer :: rest)) log)
        (pairing.Joins true) (listBlock method >>= fun methods => do
          return node methods (← spanFrom start)) _ :=
      .bind (.mixed_block .methods (fun _ => .method) fits.opener fits.closer whole lossy)
        fun methods => .spanned start (node methods)
    rw [run left _ within.first] at ran
    rw [run right _ within.second]
    apply (agree _).agree _ (Nat.lt_succ_self _) ran clear
    exact ⟨rfl, rfl, within.log, within.finish, within.room⟩

/-- Where no method of the block is lost, it is read with its methods. -/
theorem reads (heads : ReadsHeading site start action node) (fits : site.Fits block)
    (whole : Mixed method methods clean []) {cursor : Cursor}
    (ahead : cursor.ahead = site.behind clean rest) (room : cursor.log.isFull = false) :
    ∃ span stop, action cursor = (some (node methods span), stop) := by
  rcases heads with ⟨last, run⟩
  let begun : Cursor :=
    { cursor with previous := last, ahead := site.opener :: (clean ++ site.closer :: rest) }
  have few : begun.log.totalErrors + Loss.total [] < begun.log.limit := ReportLog.room_for_none room
  rcases whole.list_block .methods fits.opener fits.closer (rfl : begun.ahead = _) few with
    ⟨stop, ran, _⟩
  refine ⟨start.cover stop.previous, stop, ?_⟩
  rw [run cursor _ ahead, bind_of_some ran]
  rfl

end ReadsHeading

end Parse

/-! ### Blocks -/

/-- The part is a block of these methods, named by the first token behind its word. -/
def BlockSite.Holds (site : BlockSite) (methods : List MethodDecl) : ComponentPart → Prop
  | .interface decl =>
      decl.methods = methods ∧ site.heading.head?.map (·.span) = some decl.name.span
  | .impl decl => decl.methods = methods ∧ site.heading.head?.map (·.span) = some decl.name.span
  | _ => False

/-- The tokens of a declaration in a block of methods, and whether it is a method. Where it is not,
`left` has the kinds between the place where the fault of its receiver is found out and its
semicolon. -/
structure Declared where
  tokens : List Token
  isMethod : Bool
  left : List TokenKind

namespace Declared

def kinds (declared : Declared) : List TokenKind := declared.tokens.map (·.kind)

def methods (all : List Declared) : List Declared := all.filter (·.isMethod)

def faulty (all : List Declared) : List Declared := all.filter (!·.isMethod)

/-- One error tells of the receiver, and one of each open comma behind it. -/
def errors (declared : Declared) : Nat := 1 + openCommas 0 declared.left

structure Fits (declared : Declared) : Prop where
  method : declared.isMethod = true → ∃ method : MethodDecl, method.Written declared.kinds
  faulty : declared.isMethod = false → FaultyMethod declared.kinds declared.left

open Parse

variable {all : List Declared}

/-- The methods are what the block gives, the other declarations are given up. -/
theorem mixed (fit : ∀ declared ∈ all, declared.Fits) :
    ∃ nodes : List MethodDecl,
      List.Forall₂ (fun node declared => node.Written declared.kinds) nodes (methods all) ∧
        Mixed method nodes ((methods all).flatMap (·.tokens)) [] ∧
        Mixed method nodes (all.flatMap (·.tokens))
          ((faulty all).map fun declared => ⟨declared.errors, fun _ => True⟩) := by
  apply Mixed.of_pieces
  · intro declared listed isMethod
    rcases (fit declared listed).method isMethod with ⟨_, own⟩
    rcases method_reads own with ⟨node, own, reads⟩
    refine ⟨node, own, ?_, reads⟩
    rcases own with ⟨receiver, params, ret, _, _, _, split⟩
    exact starts_method split
  · intro declared listed isFaulty
    exact faulty_gives_up ((fit declared listed).faulty isFaulty)

theorem before_end (fit : ∀ declared ∈ all, declared.Fits) :
    ∀ token ∈ all.flatMap (·.tokens), token.kind ≠ .endOfFile := by
  have barred : ¬Inner .endOfFile := by decide
  intro token inside
  rcases List.mem_flatMap.mp inside with ⟨declared, listed, member⟩
  have inKinds : token.kind ∈ declared.kinds := List.mem_map_of_mem member
  intro ended
  rw [ended] at inKinds
  cases isMethod : declared.isMethod with
  | true =>
      rcases (fit declared listed).method isMethod with ⟨node, own⟩
      rcases inner_composed.method own with ⟨head, split, inner⟩
      rw [split, List.mem_append, List.mem_singleton] at inKinds
      rcases inKinds with inHead | last
      · exact barred (inner _ inHead)
      · cases last
  | false => exact barred (((fit declared listed).faulty isMethod).inner _ inKinds)

end Declared

section Reading

open Parse

variable {site : BlockSite} {block : Keyword} {methods : List MethodDecl}
  {clean mixed : List Token} {losses : List Loss}

theorem methods_agree_behind (isMethods : block ∈ [Keyword.interface, .impl])
    (fits : site.Fits block) (whole : Mixed method methods clean [])
    (lossy : Mixed method methods mixed losses) (rest : List Token)
    (few : ReportLog.empty.totalErrors + Loss.total losses < ReportLog.empty.limit) :
    (Pairing.gap site.word (site.behind clean rest) (site.behind mixed rest) fits.isBlock
      few).AgreesBehind block := by
  rw [List.mem_cons, List.mem_singleton] at isMethods
  rcases isMethods with rfl | rfl
  · intro bound start
    rcases interface_reads_heading fits start with ⟨name, _, heads⟩
    exact heads.agrees (interface_behind_forward start) fits whole lossy
  · intro bound attributes start
    rcases implementation_reads_heading fits with ⟨name, interface, _, heads⟩
    exact (heads attributes start).agrees (implementation_behind_forward attributes start) fits
      whole lossy

theorem methods_read_behind (isMethods : block ∈ [Keyword.interface, .impl])
    (fits : site.Fits block) (whole : Mixed method methods clean []) (rest : List Token) :
    (Spot.mk site.word (site.behind clean rest) (site.Holds methods)).ReadBehind block := by
  rw [List.mem_cons, List.mem_singleton] at isMethods
  rcases isMethods with rfl | rfl
  · constructor
    · exact interface_behind_forward _
    · rintro cursor stop decl ⟨ahead, _, room⟩ ran _
      rcases interface_reads_heading fits site.word.span with ⟨name, named, heads⟩
      rcases heads.reads fits whole ahead room with ⟨span, last, read⟩
      cases read.symm.trans ran
      exact ⟨rfl, named⟩
  · intro attributes start
    constructor
    · exact implementation_behind_forward _ _
    · rintro cursor stop decl ⟨ahead, _, room⟩ ran _
      rcases implementation_reads_heading fits with ⟨name, interface, named, heads⟩
      rcases (heads attributes start).reads fits whole ahead room with ⟨span, last, read⟩
      cases read.symm.trans ran
      exact ⟨rfl, named⟩

end Reading

open Parse in
/-- Of a block of methods with faulty receivers the well-formed methods remain, and the rest of the
unit is read as if the faulty ones were absent. Each of these costs as many errors as it has open
commas behind the fault, and one more. -/
theorem SourceFile.faulty_receivers_reported (file : SourceFile) {block : Keyword}
    (isMethods : block ∈ [Keyword.interface, .impl]) (site : BlockSite) (fits : site.Fits block)
    (all : List Declared) (fit : ∀ declared ∈ all, declared.Fits)
    (few : ((Declared.faulty all).map (·.errors)).sum ≤ 19)
    (readable : (file.parseTokens
      (site.unit ((Declared.methods all).flatMap (·.tokens)))).log.totalErrors = 0) :
    let parsed := file.parseTokens (site.unit (all.flatMap (·.tokens)))
    parsed.tree =
        (file.parseTokens (site.unit ((Declared.methods all).flatMap (·.tokens)))).tree ∧
      (∃ item ∈ parsed.tree.items, ∃ part methods, item.Has part ∧ site.Holds methods part ∧
        List.Forall₂ (fun method declared => method.Written declared.kinds) methods
          (Declared.methods all)) ∧
      parsed.log.totalErrors = ((Declared.faulty all).map (·.errors)).sum ∧
      ∃ reports : List (List Report),
        List.Forall₂ (fun declared told => told.length = declared.errors) (Declared.faulty all)
          reports ∧ parsed.log.errors = reports.flatten := by
  intro parsed
  let losses := (Declared.faulty all).map fun declared => Loss.mk declared.errors fun _ => True
  have counted : Loss.total losses = ((Declared.faulty all).map (·.errors)).sum := by
    rw [Loss.total, List.map_map]
    rfl
  have methods : ∀ declared ∈ Declared.methods all, declared.Fits :=
    fun declared member => fit declared (List.mem_filter.mp member).1
  rcases Declared.mixed fit with ⟨nodes, written, clean, mixed⟩
  have read := file.read_with_losses fits losses (site.Holds nodes) (counted ▸ few)
    (Declared.before_end methods) (Declared.before_end fit)
    (methods_agree_behind isMethods fits clean mixed) (methods_read_behind isMethods fits clean)
    readable
  rcases read with ⟨trees, ⟨item, listed, part, holds, has⟩, suffers⟩
  rcases suffers.stored (by omega) with ⟨reports, reported, stored⟩
  refine ⟨trees, ⟨item, listed, part, nodes, has, holds, written⟩, ?_, reports, ?_, stored⟩
  · rw [suffers.total, counted]
    exact Nat.zero_add _
  · apply (List.forall₂_map_left_iff.mp reported).imp
    exact fun declared told isTold => isTold.1

/-- `component c { interface I { .. } }` without what stands between the inner braces. -/
def interfaceSite : BlockSite where
  before := [⟨.keyword .component, .point 1 1⟩, ⟨.identifier "c", .point 1 2⟩,
    ⟨.mark .leftBrace, .point 1 3⟩]
  word := ⟨.keyword .interface, .point 1 4⟩
  heading := [⟨.identifier "I", .point 1 5⟩]
  opener := ⟨.mark .leftBrace, .point 1 6⟩
  closer := ⟨.mark .rightBrace, .point 1 20⟩
  after := [⟨.mark .rightBrace, .point 1 21⟩, ⟨.endOfFile, .point 1 22⟩]

/-- `fn f(self: S, a: T);` -/
def takenByValue : Declared where
  tokens := [⟨.keyword .fn, .point 1 7⟩, ⟨.identifier "f", .point 1 8⟩,
    ⟨.mark .leftParen, .point 1 9⟩, ⟨.keyword .self, .point 1 10⟩, ⟨.mark .colon, .point 1 11⟩,
    ⟨.identifier "S", .point 1 12⟩, ⟨.mark .comma, .point 1 13⟩, ⟨.identifier "a", .point 1 14⟩,
    ⟨.mark .colon, .point 1 15⟩, ⟨.identifier "T", .point 1 16⟩, ⟨.mark .rightParen, .point 1 17⟩,
    ⟨.mark .semicolon, .point 1 18⟩]
  isMethod := false
  left := [.mark .comma, .identifier "a", .mark .colon, .identifier "T", .mark .rightParen]

theorem interface_site_fits : interfaceSite.Fits .interface :=
  ⟨by decide, rfl, .interface, rfl, rfl⟩

theorem taken_by_value_fits : takenByValue.Fits := by
  refine ⟨nofun, fun _ => ?_⟩
  have byPath (name : String) :
      TypeExpr.Written (.path [⟨name, .point 1 1⟩] [] (.point 1 1)) [.identifier name] :=
    .path .nil .none
  have param : Param.Written ⟨⟨"a", .point 1 1⟩, _, .point 1 1⟩
      [.identifier "a", .mark .colon, .identifier "T"] := ⟨_, byPath "T", rfl⟩
  exact .intro (.byValue (byPath "S") (by simp)) (.cons param .nil) .none

/-- The parameter behind the faulty receiver costs an error of its own. -/
theorem by_value_receiver_reported_twice :
    let file : SourceFile := ⟨"c.graft", ""⟩
    let parsed := file.parseTokens (interfaceSite.unit ([takenByValue].flatMap (·.tokens)))
    parsed.tree = (file.parseTokens
        (interfaceSite.unit ((Declared.methods [takenByValue]).flatMap (·.tokens)))).tree ∧
      (∃ item ∈ parsed.tree.items, ∃ part methods, item.Has part ∧
        interfaceSite.Holds methods part ∧
        List.Forall₂ (fun method declared => method.Written declared.kinds) methods
          (Declared.methods [takenByValue])) ∧
      parsed.log.totalErrors = 2 ∧
      ∃ reports : List (List Report),
        List.Forall₂ (fun declared told => told.length = declared.errors)
          (Declared.faulty [takenByValue]) reports ∧ parsed.log.errors = reports.flatten :=
  SourceFile.faulty_receivers_reported ⟨"c.graft", ""⟩ (by decide) interfaceSite
    interface_site_fits [takenByValue] (List.forall_mem_singleton.mpr taken_by_value_fits)
    (by decide) rfl

/-- One faulty declaration in an otherwise readable unit need not be one error. -/
theorem one_faulty_receiver_two_errors :
    let file : SourceFile := ⟨"c.graft", ""⟩
    interfaceSite.Fits .interface ∧ takenByValue.Fits ∧ takenByValue.isMethod = false ∧
      (file.parseTokens (interfaceSite.unit [])).log.totalErrors = 0 ∧
      (file.parseTokens (interfaceSite.unit takenByValue.tokens)).log.totalErrors = 2 :=
  ⟨interface_site_fits, taken_by_value_fits, rfl, rfl, rfl⟩

end Composer
