import Composer.Proofs.Declaration.Bare
import Composer.Proofs.Declaration.Completeness.Rules

/-!
Each construct is complete: what is written is read back, up to spans.
-/

namespace Composer

theorem Ident.bare_eq_iff {first second : Ident} :
    first.bare = second.bare ↔ first.name = second.name := by
  simp [bare]

theorem TypePath.bare_to_type (path : TypePath) : path.toType.bare = path.bare.toType := by
  rw [toType, TypeExpr.bare, TypeExpr.bares_eq_map]
  rfl

theorem Led.within {Node : Type} {lead : TokenKind} {mayTrail : Prop}
    {written : Node → List TokenKind → Prop} {nodes : List Node} {kinds : List TokenKind}
    {bound : Nat} (led : Led lead mayTrail written nodes kinds) (short : kinds.length ≤ bound) :
    Led lead mayTrail (fun node kinds => written node kinds ∧ kinds.length ≤ bound) nodes kinds := by
  induction led with
  | nil => exact .nil
  | trailing trails => exact .trailing trails
  | cons own _ ih =>
      rw [List.length_cons, List.length_append] at short
      exact .cons ⟨own, by omega⟩ (ih (by omega))

theorem CommaList.within {Node : Type} {written : Node → List TokenKind → Prop} {nodes : List Node}
    {kinds : List TokenKind} {bound : Nat} (list : CommaList written nodes kinds)
    (short : kinds.length ≤ bound) :
    CommaList (fun node kinds => written node kinds ∧ kinds.length ≤ bound) nodes kinds := by
  induction list with
  | nil => exact .nil
  | last own => exact .last ⟨own, short⟩
  | cons own _ ih =>
      rw [List.length_append, List.length_cons] at short
      exact .cons ⟨own, by omega⟩ (ih (by omega))

namespace Parse

namespace Accepts

variable {Node : Type} {rest : List TokenKind}

/-! ### Types -/

def EndsType (rest : List TokenKind) : Prop :=
  rest.headD .endOfFile ≠ .mark .doubleColon ∧ rest.headD .endOfFile ≠ .mark .less

theorem ident : Completes Parse.identifier Ident.bare Ident.Written fun _ => True := by
  rintro ident _ rest rfl _ cursor kinds room
  obtain ⟨result, after, ran, same, left⟩ := identifier cursor kinds room
  exact ⟨result, after, ran, Ident.bare_eq_iff.mpr same, left⟩

theorem ident_starts_other {close : Mark} : StartsOther Ident.Written (.mark close) := by
  rintro ident _ rfl
  exact ⟨_, _, rfl, nofun⟩

theorem type_starts_other {close : Mark} (paren : close ≠ .leftParen) (snapshot : close ≠ .atSign) :
    StartsOther TypeExpr.Written (.mark close) := by
  intro type kinds written
  cases written with
  | path => exact ⟨_, _, rfl, nofun⟩
  | snapshot => exact ⟨_, _, rfl, by simpa using Ne.symm snapshot⟩
  | tuple => exact ⟨_, _, rfl, by simpa using Ne.symm paren⟩

section Nested

variable {depth : Nat}

def Short (depth : Nat) (written : Node → List TokenKind → Prop) (node : Node)
    (kinds : List TokenKind) : Prop :=
  written node kinds ∧ kinds.length ≤ depth

theorem StartsOther.short {written : Node → List TokenKind → Prop} {close : TokenKind}
    (starts : StartsOther written close) : StartsOther (Short depth written) close :=
  fun _ _ own => starts own.1

theorem path_with {argument : Parse TypeExpr}
    (complete : Completes argument TypeExpr.bare (Short depth TypeExpr.Written) EndsType) :
    Completes (pathWith argument) TypePath.bare (Short (depth + 1) TypePath.Written) EndsType := by
  rintro ⟨segments, generics, span⟩ kinds rest ⟨written, short⟩ behind
  change TypeExpr.Written (.path segments generics span) kinds at written
  cases written with
  | @path first others _ _ names arguments segments typeArguments =>
      rw [List.cons_append, List.append_assoc]
      refine .bind .look fun _ _ => .bind .identifier fun name same => ?_
      cases typeArguments with
      | none =>
          refine .bind (.all_led ident (fun _ => trivial) trivial behind.1 segments)
            fun results alike => .eat_no behind.2 (.bind .returned fun generics none =>
              .bind .look fun _ _ => .pure ?_)
          simp [TypePath.bare, Ident.bare_eq_iff.mpr same, alike, none]
      | @some argument arguments here later own list =>
          simp only [List.length_cons, List.length_append] at short
          simp only [List.cons_append, List.append_assoc, List.nil_append]
          have follows : ∀ rest, EndsType (later ++ .mark .greater :: rest) := by
            intro rest
            cases list <;> exact ⟨by simp, by simp⟩
          refine .bind (.all_led ident (fun _ => trivial) trivial (by simp) segments)
            fun results alike => .eat_yes (.bind (complete ⟨own, by omega⟩ (follows _))
              fun result sameType => .bind (.trailing_led complete
                (fun _ => ⟨by simp, by simp⟩) ⟨by simp, by simp⟩ (by simp)
                (type_starts_other (by simp) (by simp)).short (list.within (by omega)))
                fun types sameTypes => .bind .expect fun _ _ => .bind .returned fun generics all =>
                  .bind .look fun _ _ => .pure ?_)
          simp [TypePath.bare, Ident.bare_eq_iff.mpr same, alike, all, sameType, sameTypes]

theorem type_within (depth : Nat) :
    Completes (typeWithin depth) TypeExpr.bare (Short depth TypeExpr.Written) EndsType := by
  induction depth with
  | zero =>
      rintro type kinds rest ⟨written, short⟩ _
      cases written <;> simp at short
  | succ depth ih =>
      rintro type kinds rest ⟨written, short⟩ behind
      rw [type_within_succ]
      refine .bind .look fun _ _ => ?_
      cases written with
      | @path first others generics span names arguments segments typeArguments =>
          have written : TypePath.Written ⟨first :: others, generics, span⟩
            (.identifier first.name :: (names ++ arguments)) := .path segments typeArguments
          refine .eat_no (by simp) (.eat_no (by simp)
            (.bind (path_with ih ⟨written, short⟩ behind) fun path same => .pure ?_))
          rw [path.bare_to_type, same, ← TypePath.bare_to_type]
          rfl
      | snapshot written =>
          refine .eat_yes (.bind (ih ⟨written, by simpa using short⟩ behind) fun inner same =>
            .bind .look fun _ _ => .pure ?_)
          simp [TypeExpr.bare, same]
      | tuple list =>
          simp only [List.length_cons, List.length_append] at short
          simp only [List.cons_append, List.append_assoc, List.nil_append]
          refine .eat_no (by simp) (.eat_yes (.bind (.with_fuel fun fuel enough =>
            .up_to ih (fun _ => ⟨by simp, by simp⟩) ⟨by simp, by simp⟩ (by simp)
              (type_starts_other (by simp) (by simp)).short (list.within (by omega)) fuel enough)
            fun items same => .bind .expect fun _ _ => .bind .look fun _ _ => .pure ?_))
          simp [TypeExpr.bare, TypeExpr.bares_eq_map, same]

end Nested

theorem type : Completes Parse.type TypeExpr.bare TypeExpr.Written EndsType := by
  intro type kinds rest written behind
  refine .with_fuel fun fuel enough => type_within fuel ⟨written, ?_⟩ behind
  rw [List.length_append] at enough
  omega

theorem path : Completes Parse.path TypePath.bare TypePath.Written EndsType := by
  intro path kinds rest written behind
  have short : Completes Parse.type TypeExpr.bare (Short kinds.length TypeExpr.Written) EndsType :=
    fun _ _ _ own => type own.1
  exact path_with short ⟨written, by omega⟩ behind

/-! ### Attributes and methods -/

theorem attribute_body :
    Completes attributeBody Attribute.bare Attribute.Written fun _ => True := by
  intro attr kinds rest written _
  cases written with
  | plain =>
      refine .bind .look fun _ _ => .bind .expect fun _ _ => .bind .identifier fun name same =>
        .eat_no (by simp) (.bind .returned fun args none => .bind .expect fun _ _ =>
          .bind .look fun _ _ => .pure ?_)
      simp [Attribute.bare, Ident.bare_eq_iff.mpr same, none]
  | applied list =>
      simp only [List.cons_append, List.append_assoc, List.nil_append]
      refine .bind .look fun _ _ => .bind .expect fun _ _ => .bind .identifier fun name same =>
        .eat_yes (.bind (.with_fuel fun fuel enough => .up_to ident (fun _ => trivial) trivial
          (by simp) ident_starts_other list fuel enough) fun args alike => .bind .expect fun _ _ =>
            .bind .returned fun args all => .bind .expect fun _ _ => .bind .look fun _ _ =>
              .pure ?_)
      simp [Attribute.bare, Ident.bare_eq_iff.mpr same, alike, all]

theorem attributes {nodes : List Attribute} {kinds : List TokenKind}
    (written : AttributesWritten nodes kinds) (ends : rest.headD .endOfFile ≠ .mark .hash) :
    Accepts attributes (kinds ++ rest)
      (fun result => result.map Attribute.bare = nodes.map Attribute.bare) rest :=
  .all_led attribute_body (fun _ => trivial) trivial ends written

theorem receiver : Completes Parse.receiver Receiver.bare Receiver.Written EndsType := by
  intro receiver kinds rest written behind
  cases written with
  | @snapshot type span kinds own =>
      have written : TypeExpr.Written (.snapshot type span) (.mark .atSign :: kinds) := .snapshot own
      refine .bind .look fun _ _ => .bind (.eat_left (by simp)) fun isReference direct =>
        .eat_yes (.bind .expect fun _ _ => .bind (Accepts.type written behind)
          fun result same => ?_)
      subst direct
      cases result with
      | path => simp [TypeExpr.bare] at same
      | tuple => simp [TypeExpr.bare] at same
      | snapshot inner span =>
          refine .bind .look fun _ _ => .pure ?_
          simpa [Receiver.bare, TypeExpr.bare] using same
  | @reference type span kinds own noSnapshot =>
      refine .bind .look fun _ _ => .bind .eat_taken fun isReference reference =>
        .eat_yes (.bind .expect fun _ _ => .bind (Accepts.type own behind) fun result same => ?_)
      subst reference
      cases result with
      | path => exact .bind .look fun _ _ => .pure (by simp [Receiver.bare, same])
      | tuple => exact .bind .look fun _ _ => .pure (by simp [Receiver.bare, same])
      | snapshot inner span =>
          cases own with
          | path => simp [TypeExpr.bare] at same
          | tuple => simp [TypeExpr.bare] at same
          | snapshot => exact absurd rfl noSnapshot

theorem param : Completes Parse.param Param.bare Param.Written EndsType := by
  rintro param _ rest ⟨kinds, written, rfl⟩ behind
  refine .bind .look fun _ _ => .bind .identifier fun name same => .bind .expect fun _ _ =>
    .bind (type written behind) fun type alike => .bind .look fun _ _ => .pure ?_
  simp [Param.bare, Ident.bare_eq_iff.mpr same, alike]

theorem param_starts_other {close : Mark} : StartsOther Param.Written (.mark close) := by
  rintro param _ ⟨kinds, _, rfl⟩
  exact ⟨_, _, rfl, nofun⟩

theorem method : Completes Parse.method MethodDecl.bare MethodDecl.Written fun _ => True := by
  rintro ⟨_, _, _, ret, _⟩ _ rest ⟨receives, params, _, receiverWritten, list, retWritten, rfl⟩ _
  dsimp only at receiverWritten list retWritten
  simp only [List.cons_append, List.append_assoc, List.nil_append]
  have follows : ∀ rest, EndsType (params ++ .mark .rightParen :: rest) := by
    intro rest
    cases list <;> exact ⟨by simp, by simp⟩
  refine .bind .look fun _ _ => .bind .expect fun _ _ => .bind .identifier fun name same =>
    .bind .expect fun _ _ => .bind (receiver receiverWritten (follows _)) fun receiver sameReceiver =>
      .bind (.trailing_led param (fun _ => ⟨by simp, by simp⟩) ⟨by simp, by simp⟩ (by simp)
        param_starts_other list) fun params sameParams => .bind .expect fun _ _ => ?_
  cases retWritten with
  | none =>
      refine .eat_no (by simp) (.bind .returned fun ret none => .bind .expect fun _ _ =>
        .bind .look fun _ _ => .pure ?_)
      simp [MethodDecl.bare, Ident.bare_eq_iff.mpr same, sameReceiver, sameParams, none]
  | some written =>
      refine .eat_yes (.bind (type written ⟨by simp, by simp⟩) fun type sameType =>
        .bind .returned fun ret some => .bind .expect fun _ _ => .bind .look fun _ _ => .pure ?_)
      simp [MethodDecl.bare, Ident.bare_eq_iff.mpr same, sameReceiver, sameParams, some, sameType]

/-! ### Blocks of lists -/

/-- A block is accepted part by part, as long as the state shows the parts before and each part finds
room behind them. -/
theorem path_of_parts {State Part : Type} {step : State → Parse State}
    {written : Part → List TokenKind → Prop} (shows : List Part → State → Prop)
    (room : List Part → Prop)
    (smaller : ∀ before more, room (before ++ more) → room before)
    (accepts : ∀ before part kinds rest state, written part kinds → room (before ++ [part]) →
      shows before state → Accepts (step state) (kinds ++ rest) (shows (before ++ [part])) rest)
    (starts : StartsOther written (.mark .rightBrace)) {parts : List Part} {kinds : List TokenKind}
    (sequence : Sequence written parts kinds) (before : List Part) (fits : room (before ++ parts)) :
    Path step (shows before) (kinds ++ rest) (shows (before ++ parts)) rest := by
  induction sequence generalizing before with
  | nil =>
      rw [List.append_nil]
      exact .done
  | @cons first others here later own _ ih =>
      rw [List.append_cons before first others] at fits ⊢
      have stepped := fun state =>
        accepts before first here (later ++ rest) state own (smaller _ _ fits)
      obtain ⟨kind, more, rfl, other⟩ := starts own
      rw [List.append_assoc]
      exact .step other (by simp) stepped (ih _ fits)

section Blocks

variable {member : Parse Node} {bare : Node → Node} {written : Node → List TokenKind → Prop}
  {nodes : List Node} {kinds : List TokenKind}

/-- One more member behind those collected. -/
theorem collect {input tail : List TokenKind} {node : Node}
    (accepts : Accepts member input (fun result => bare result = bare node) tail)
    (before collected : List Node) (same : collected.map bare = before.map bare) :
    Accepts (do return collected ++ [← member]) input
      (fun result => List.map bare result = (before ++ [node]).map bare) tail := by
  refine .bind accepts fun result alike => .pure ?_
  rw [List.map_append, List.map_append, same, List.map_cons, alike]
  rfl

theorem path_of_comma_list
    (complete : ∀ ⦃node kinds tail rest⦄, written node kinds → EndsMember tail rest →
      Accepts member (kinds ++ tail) (fun result => bare result = bare node) rest)
    (starts : StartsOther written (.mark .rightBrace)) (list : CommaList written nodes kinds)
    (closed : rest.headD .endOfFile = .mark .rightBrace) (before : List Node) :
    Path (fun collected => do return collected ++ [← member])
      (fun collected => List.map bare collected = before.map bare) (kinds ++ rest)
      (fun collected => List.map bare collected = (before ++ nodes).map bare) rest := by
  induction list generalizing before with
  | nil =>
      rw [List.append_nil]
      exact .done
  | last own =>
      have accepts := collect (complete own (.inr ⟨rfl, closed⟩)) before
      obtain ⟨kind, more, rfl, other⟩ := starts own
      exact .step other (by simp) accepts .done
  | @cons first others here later own _ ih =>
      have accepts := collect (@complete first here _ (later ++ rest) own (.inl rfl)) before
      obtain ⟨kind, more, rfl, other⟩ := starts own
      rw [List.append_cons before first others, List.append_assoc, List.cons_append]
      refine .step other ?_ accepts (ih _)
      simp only [List.length_append, List.length_cons]
      omega

theorem comma_block
    (complete : ∀ ⦃node kinds tail rest⦄, written node kinds → EndsMember tail rest →
      Accepts member (kinds ++ tail) (fun result => bare result = bare node) rest)
    (starts : StartsOther written (.mark .rightBrace))
    (braced : Braced (CommaList written) nodes kinds) :
    Accepts (listBlock member) (kinds ++ rest)
      (fun result => List.map bare result = nodes.map bare) rest := by
  obtain ⟨body, list, rfl⟩ := braced
  simp only [List.cons_append, List.append_assoc, List.nil_append]
  exact .block (path_of_comma_list complete starts list rfl []) rfl

end Blocks

theorem methods {nodes : List MethodDecl} {kinds : List TokenKind}
    (written : MethodsWritten nodes kinds) :
    Accepts (listBlock Parse.method) (kinds ++ rest)
      (fun result => result.map MethodDecl.bare = nodes.map MethodDecl.bare) rest := by
  have starts : StartsOther MethodDecl.Written (.mark .rightBrace) := by
    rintro method _ ⟨_, _, _, _, _, _, rfl⟩
    exact ⟨_, _, rfl, nofun⟩
  obtain ⟨body, sequence, rfl⟩ := written
  simp only [List.cons_append, List.append_assoc, List.nil_append]
  refine .block (path_of_parts
    (fun before collected => List.map MethodDecl.bare collected = before.map MethodDecl.bare)
    (fun _ => True) (fun _ _ _ => trivial) ?_ starts sequence [] trivial) rfl
  intro before node kinds rest collected own _ same
  exact collect (method own trivial) before collected same

/-! ### Storage and events -/

theorem end_of_member {input : List TokenKind} (ends : EndsMember input rest) :
    Accepts endOfMember input (fun _ => True) rest := by
  rcases ends with rfl | ⟨rfl, closed⟩
  · exact .eat_yes (.pure trivial)
  · refine .eat_no (by rw [closed]; simp) (.bind .check fun found same => ?_)
    rw [if_pos (same.mpr closed)]
    exact .pure trivial

theorem ends_type_of_member {input : List TokenKind} (ends : EndsMember input rest) :
    EndsType input := by
  rcases ends with rfl | ⟨rfl, closed⟩
  · exact ⟨by simp, by simp⟩
  · exact ⟨by rw [closed]; simp, by rw [closed]; simp⟩

theorem attributes_start {nodes : List Attribute} {kinds : List TokenKind} {name : String}
    {close : Mark} (other : close ≠ .hash) (written : AttributesWritten nodes kinds) :
    ∃ first others, kinds ++ .identifier name :: rest = first :: others ∧ first ≠ .mark close := by
  cases written with
  | nil => exact ⟨_, _, rfl, nofun⟩
  | trailing no => exact no.elim
  | cons => exact ⟨_, _, rfl, by simpa using Ne.symm other⟩

theorem storage_member {member : MemberDecl} {kinds tail : List TokenKind}
    (written : member.Written kinds) (ends : EndsMember tail rest) :
    Accepts storageMember (kinds ++ tail) (fun result => result.bare = member.bare) rest := by
  obtain ⟨before, type, list, typeWritten, rfl⟩ := written
  simp only [List.cons_append, List.append_assoc]
  refine .bind .look fun _ _ => .bind (attributes list (by simp)) fun attributes alike =>
    .bind .identifier fun name same => .bind .expect fun _ _ =>
      .bind (Accepts.type typeWritten (ends_type_of_member ends)) fun type sameType =>
        .bind .look fun _ _ => .bind (end_of_member ends) fun _ _ => .pure ?_
  simp [MemberDecl.bare, alike, Ident.bare_eq_iff.mpr same, sameType]

theorem storage_block : Completes storageBlock StorageBlock.bare StorageBlock.Written fun _ => True := by
  rintro block _ rest ⟨members, braced, rfl⟩ _
  have starts : StartsOther MemberDecl.Written (.mark .rightBrace) := by
    rintro member _ ⟨_, _, list, _, rfl⟩
    exact attributes_start (by simp) list
  refine .bind .look fun _ _ => .bind .expect fun _ _ =>
    .bind (comma_block (fun _ _ _ _ => storage_member) starts braced) fun members alike =>
      .bind .look fun _ _ => .pure ?_
  simp [StorageBlock.bare, alike]

theorem event_variant {variant : VariantDecl} {kinds tail : List TokenKind}
    (written : variant.Written kinds) (ends : EndsMember tail rest) :
    Accepts eventVariant (kinds ++ tail) (fun result => result.bare = variant.bare) rest := by
  obtain ⟨nodes, name, payload, span⟩ := variant
  obtain ⟨before, after, list, payloadWritten, rfl⟩ := written
  dsimp only at list payloadWritten
  simp only [List.cons_append, List.append_assoc]
  refine .bind .look fun _ _ => .bind (attributes list (by simp)) fun attributes alike =>
    .bind .identifier fun name same => ?_
  cases payloadWritten with
  | none =>
      have noColon : tail.headD .endOfFile ≠ .mark .colon := by
        rcases ends with rfl | ⟨rfl, closed⟩
        · simp
        · rw [closed]
          simp
      refine .eat_no noColon (.bind .returned fun payload none => .bind .look fun _ _ =>
        .bind (end_of_member ends) fun _ _ => .pure ?_)
      simp [VariantDecl.bare, alike, Ident.bare_eq_iff.mpr same, none]
  | some written =>
      refine .eat_yes (.bind (Accepts.type written (ends_type_of_member ends))
        fun type sameType => .bind .returned fun payload some => .bind .look fun _ _ =>
          .bind (end_of_member ends) fun _ _ => .pure ?_)
      simp [VariantDecl.bare, alike, Ident.bare_eq_iff.mpr same, some, sameType]

theorem event_block : Completes eventBlock EventBlock.bare EventBlock.Written fun _ => True := by
  rintro block _ rest ⟨variants, braced, rfl⟩ _
  have starts : StartsOther VariantDecl.Written (.mark .rightBrace) := by
    rintro variant _ ⟨_, _, list, _, rfl⟩
    exact attributes_start (by simp) list
  refine .bind .look fun _ _ => .bind .expect fun _ _ =>
    .bind (comma_block (fun _ _ _ _ => event_variant) starts braced) fun variants alike =>
      .bind .look fun _ _ => .pure ?_
  simp [EventBlock.bare, alike]

/-! ### Members of components and contracts -/

theorem interface :
    Completes Parse.interface InterfaceDecl.bare InterfaceDecl.Written fun _ => True := by
  rintro interface _ rest ⟨kinds, written, rfl⟩ _
  refine .bind .look fun _ _ => .bind .expect fun _ _ => .bind .identifier fun name same =>
    .bind (methods written) fun methods alike => .bind .look fun _ _ => .pure ?_
  simp [InterfaceDecl.bare, Ident.bare_eq_iff.mpr same, alike]

theorem start_behind {input : List TokenKind} (nodes : List Attribute) :
    Accepts (startBehind nodes) input (fun _ => True) input := by
  unfold startBehind
  cases nodes.head? with
  | none => exact .look
  | some first => exact .pure trivial

theorem implementation {impl : ImplDecl} {kinds : List TokenKind} {nodes : List Attribute}
    (alike : nodes.map Attribute.bare = impl.attributes.map Attribute.bare)
    (written : Implements impl.interface impl.methods kinds) :
    Accepts (Parse.implementation nodes)
      (.keyword .impl :: .identifier impl.name.name :: (kinds ++ rest))
      (fun result => result.bare = impl.bare) rest := by
  obtain ⟨_, _, interface, nodes, _⟩ := impl
  dsimp only at alike written
  refine .bind (start_behind _) fun _ _ => .bind .expect fun _ _ => .bind .identifier
    fun name same => ?_
  cases written with
  | bare =>
      refine .eat_yes (.bind .identifier fun interface sameInterface => .eat_yes (.bind .returned
        fun methods none => .bind .look fun _ _ => .pure ?_))
      simp [ImplDecl.bare, alike, Ident.bare_eq_iff.mpr same, Ident.bare_eq_iff.mpr sameInterface,
        none]
  | restated written =>
      refine .eat_yes (.bind .identifier fun interface sameInterface => .eat_no ?_ (.bind
        (methods written) fun methods sameMethods => .bind .look fun _ _ => .pure ?_))
      · obtain ⟨_, _, rfl⟩ := written
        simp
      · simp [ImplDecl.bare, alike, Ident.bare_eq_iff.mpr same,
          Ident.bare_eq_iff.mpr sameInterface, sameMethods]
  | inherent written =>
      refine .eat_no ?_ (.bind (methods written) fun methods sameMethods => .bind .look fun _ _ =>
        .pure ?_)
      · obtain ⟨_, _, rfl⟩ := written
        simp
      · simp [ImplDecl.bare, alike, Ident.bare_eq_iff.mpr same, sameMethods]

theorem inclusion :
    Completes Parse.inclusion InclusionDecl.bare InclusionDecl.Written fun _ => True := by
  rintro inclusion _ rest ⟨trail, trails, rfl⟩ _
  have accepts : Accepts (eat (.mark .comma)) (trail ++ .mark .rightParen :: .mark .semicolon :: rest)
      (fun _ => True) (.mark .rightParen :: .mark .semicolon :: rest) := by
    rcases trails with rfl | rfl
    · exact (eat_left (by simp)).any
    · exact eat_taken.any
  simp only [List.cons_append, List.append_assoc, List.nil_append]
  refine .bind .look fun _ _ => .bind .expect fun _ _ => .bind .expect fun _ _ =>
    .bind .expect fun _ _ => .bind .word fun _ _ => .bind .expect fun _ _ => .bind .identifier
    fun path samePath => .bind .expect fun _ _ => .bind .expect fun _ _ => .bind .expect fun _ _ =>
    .bind .identifier fun storage sameStorage => .bind .expect fun _ _ => .bind .expect fun _ _ =>
    .bind .expect fun _ _ => .bind .identifier fun event sameEvent => .bind accepts fun _ _ =>
    .bind .expect fun _ _ => .bind .look fun _ _ => .bind .expect fun _ _ => .pure ?_
  simp [InclusionDecl.bare, Ident.bare_eq_iff.mpr samePath, Ident.bare_eq_iff.mpr sameStorage,
    Ident.bare_eq_iff.mpr sameEvent]

theorem exposure {exposure : ExposureDecl} {kinds : List TokenKind} {nodes : List Attribute}
    (alike : nodes.map Attribute.bare = exposure.attributes.map Attribute.bare)
    (written : exposure.target.Written kinds) :
    Accepts (Parse.exposure nodes)
      (.keyword .impl :: .identifier exposure.localName.name :: .mark .equal ::
        (kinds ++ .mark .semicolon :: rest))
      (fun result => result.bare = exposure.bare) rest := by
  refine .bind (start_behind _) fun _ _ => .bind .expect fun _ _ => .bind .identifier
    fun name same => .bind .expect fun _ _ => .bind (path written ⟨by simp, by simp⟩)
      fun target sameTarget => .bind .expect fun _ _ => .bind .look fun _ _ => .pure ?_
  simp [ExposureDecl.bare, alike, Ident.bare_eq_iff.mpr same, sameTarget]

/-! ### Components and contracts -/

theorem attributes_absent {input : List TokenKind} (other : input.headD .endOfFile ≠ .mark .hash) :
    Accepts Parse.attributes input (· = []) input := by
  intro cursor kinds room
  obtain ⟨result, after, ran, none, left⟩ := attributes .nil other cursor kinds room
  exact ⟨result, after, ran, List.map_eq_nil_iff.mp none, left⟩

theorem attributes_start_part {nodes : List Attribute} {kinds more : List TokenKind}
    {word : Keyword} (written : AttributesWritten nodes kinds) :
    ∃ first others, kinds ++ .keyword word :: more = first :: others ∧
      first ≠ .mark .rightBrace := by
  cases written with
  | nil => exact ⟨_, _, rfl, nofun⟩
  | trailing no => exact no.elim
  | cons => exact ⟨_, _, rfl, nofun⟩

/-- A part without attributes is read as its first word says. -/
theorem unmarked {State : Type} {arm : TokenKind → List Attribute → Parse State}
    {wanted : State → Prop} {word : Keyword} {others : List TokenKind}
    (taken : Accepts (arm (.keyword word) []) (.keyword word :: others) wanted rest) :
    Accepts (do
      let attributes ← Parse.attributes
      arm (← Parse.kind) attributes) (.keyword word :: others) wanted rest := by
  refine .bind (attributes_absent (by simp)) fun attributes none =>
    .bind .kind fun kind ahead => ?_
  subst none ahead
  exact taken

/-- A block is kept where there was none of its kind. -/
theorem kept {Block Decl : Type} {bare : Block → Block} {block : Block} {read : Parse Block}
    {present : Option Block} {input : List TokenKind} {word owner : String} {span : Block → Span}
    {next : Option Block → Decl} {wanted : Decl → Prop} (absent : present = none)
    (taken : Accepts read input (fun result => bare result = bare block) rest)
    (shows : ∀ result, bare result = bare block → wanted (next (some result))) :
    Accepts (do
      let block ← read
      return next (← keepFirst present block word owner (span block))) input wanted rest := by
  refine .bind taken fun result same => ?_
  rw [absent]
  exact .bind .returned fun kept given => .pure (given ▸ shows result same)

theorem option_map_eq_of_to_list {Value : Type} {view : Value → Value} {first second : Option Value}
    (same : first.toList.map view = second.toList.map view) : first.map view = second.map view := by
  cases first <;> cases second <;> simp_all

section Gathered

variable {Value Part : Type} {view : Value → Value} {value? : Part → Option Value}
  {present : Option Value} {before : List Part} {part : Part}

variable (part) in
theorem none_of_room (taken : (value? part).isSome)
    (shown : present.toList.map view = (before.filterMap value?).map view)
    (room : ((before ++ [part]).filterMap value?).length ≤ 1) : present = none := by
  obtain ⟨value, given⟩ := Option.isSome_iff_exists.mp taken
  rw [List.filterMap_append, List.length_append, List.filterMap_cons_some given] at room
  have none : before.filterMap value? = [] := by
    rw [← List.length_eq_zero_iff]
    simp only [List.filterMap_nil, List.length_cons, List.length_nil] at room
    omega
  rw [none] at shown
  cases present with
  | none => rfl
  | some _ => cases shown

theorem shown_behind_none {value result : Value} (given : value? part = some value)
    (absent : present = none)
    (shown : present.toList.map view = (before.filterMap value?).map view)
    (same : view result = view value) :
    (some result).toList.map view = ((before ++ [part]).filterMap value?).map view := by
  rw [List.filterMap_append, List.map_append, ← shown, absent, List.filterMap_cons_some given]
  exact congrArg (fun node => [node]) same

theorem shown_behind {values : List Value} {value result : Value}
    (given : value? part = some value) (shown : values.map view = (before.filterMap value?).map view)
    (same : view result = view value) :
    (values ++ [result]).map view = ((before ++ [part]).filterMap value?).map view := by
  rw [List.filterMap_append, List.map_append, List.map_append, shown,
    List.filterMap_cons_some given]
  exact congrArg (fun node => _ ++ [node]) same

theorem shown_past {values : List Value} (given : value? part = none)
    (shown : values.map view = (before.filterMap value?).map view) :
    values.map view = ((before ++ [part]).filterMap value?).map view := by
  rw [List.filterMap_append, List.filterMap_cons_none given, List.filterMap_nil, List.append_nil]
  exact shown

/-- There is room for the parts of two kinds: one of each at most. -/
structure OneOfEach {Block Other : Type} (block? : Part → Option Block) (other? : Part → Option Other)
    (parts : List Part) : Prop where
  block : (parts.filterMap block?).length ≤ 1
  other : (parts.filterMap other?).length ≤ 1

theorem OneOfEach.fewer {Block Other : Type} {block? : Part → Option Block}
    {other? : Part → Option Other} {more : List Part}
    (room : OneOfEach block? other? (before ++ more)) : OneOfEach block? other? before := by
  rcases room with ⟨block, other⟩
  simp only [List.filterMap_append, List.length_append] at block other
  exact ⟨by omega, by omega⟩

theorem OneOfEach.of_options {Block Other : Type} {block? : Part → Option Block}
    {other? : Part → Option Other} {parts : List Part} {block : Option Block} {other : Option Other}
    (own : block.toList = parts.filterMap block?) (others : other.toList = parts.filterMap other?) :
    OneOfEach block? other? parts :=
  ⟨own ▸ Option.length_toList_le, others ▸ Option.length_toList_le⟩

end Gathered

structure ShowsComponent (name : Ident) (parts : List ComponentPart) (decl : ComponentDecl) :
    Prop where
  name : decl.name.bare = name.bare
  storage : decl.storage.toList.map StorageBlock.bare =
    (parts.filterMap (·.storage?)).map StorageBlock.bare
  event : decl.event.toList.map EventBlock.bare =
    (parts.filterMap (·.event?)).map EventBlock.bare
  interfaces : decl.interfaces.map InterfaceDecl.bare =
    (parts.filterMap (·.interface?)).map InterfaceDecl.bare
  impls : decl.impls.map ImplDecl.bare = (parts.filterMap (·.impl?)).map ImplDecl.bare

theorem component_member {name : Ident} {before : List ComponentPart} {part : ComponentPart}
    {kinds : List TokenKind} {decl : ComponentDecl} (written : part.Written kinds)
    (room : OneOfEach (·.storage?) (·.event?) (before ++ [part]))
    (shows : ShowsComponent name before decl) :
    Accepts (componentMember decl) (kinds ++ rest) (ShowsComponent name (before ++ [part])) rest := by
  cases part with
  | storage block =>
      have absent := none_of_room (.storage block) rfl shows.storage room.block
      have taken := @storage_block block kinds rest written trivial
      obtain ⟨_, _, rfl⟩ := written
      refine .unmarked (.kept absent taken fun result same => ⟨shows.name, ?_, ?_, ?_, ?_⟩)
      · exact shown_behind_none rfl absent shows.storage same
      · exact shown_past rfl shows.event
      · exact shown_past rfl shows.interfaces
      · exact shown_past rfl shows.impls
  | event block =>
      have absent := none_of_room (.event block) rfl shows.event room.other
      have taken := @event_block block kinds rest written trivial
      obtain ⟨_, _, rfl⟩ := written
      refine .unmarked (.kept absent taken fun result same => ⟨shows.name, ?_, ?_, ?_, ?_⟩)
      · exact shown_past rfl shows.storage
      · exact shown_behind_none rfl absent shows.event same
      · exact shown_past rfl shows.interfaces
      · exact shown_past rfl shows.impls
  | interface decl =>
      have taken := @interface decl kinds rest written trivial
      obtain ⟨_, _, rfl⟩ := written
      refine .unmarked (.bind taken fun result same => .pure ⟨shows.name, ?_, ?_, ?_, ?_⟩)
      · exact shown_past rfl shows.storage
      · exact shown_past rfl shows.event
      · exact shown_behind rfl shows.interfaces same
      · exact shown_past rfl shows.impls
  | impl decl =>
      obtain ⟨nodes, body, list, implements, rfl⟩ := written
      rw [List.append_assoc]
      refine .bind (attributes list (by simp)) fun nodes alike => .bind .kind fun kind ahead => ?_
      subst ahead
      refine .bind (implementation alike implements) fun result same =>
        .pure ⟨shows.name, ?_, ?_, ?_, ?_⟩
      · exact shown_past rfl shows.storage
      · exact shown_past rfl shows.event
      · exact shown_past rfl shows.interfaces
      · exact shown_behind rfl shows.impls same

theorem component_part_starts : StartsOther ComponentPart.Written (.mark .rightBrace) := by
  intro part kinds written
  cases part with
  | storage => obtain ⟨_, _, rfl⟩ := written; exact ⟨_, _, rfl, nofun⟩
  | event => obtain ⟨_, _, rfl⟩ := written; exact ⟨_, _, rfl, nofun⟩
  | interface => obtain ⟨_, _, rfl⟩ := written; exact ⟨_, _, rfl, nofun⟩
  | impl => obtain ⟨_, _, list, _, rfl⟩ := written; exact attributes_start_part list

theorem component :
    Completes Parse.component ComponentDecl.bare ComponentDecl.Written fun _ => True := by
  rintro decl _ rest ⟨parts, _, ⟨body, sequence, rfl⟩, gathers, rfl⟩ _
  have room := OneOfEach.of_options gathers.storage gathers.event
  simp only [List.cons_append, List.append_assoc, List.nil_append]
  refine .bind .look fun _ _ => .bind .expect fun _ _ => .bind .identifier fun name same =>
    .bind (.block (path_of_parts (ShowsComponent name) (OneOfEach (·.storage?) (·.event?))
      (fun _ _ => OneOfEach.fewer) (fun _ _ _ _ _ => component_member) component_part_starts
      sequence [] room) ⟨rfl, rfl, rfl, rfl, rfl⟩)
      fun read shows => .bind .look fun _ _ => .pure ?_
  rw [List.nil_append] at shows
  have storage := shows.storage
  have event := shows.event
  rw [← gathers.storage] at storage
  rw [← gathers.event] at event
  simp [ComponentDecl.bare, shows.name, Ident.bare_eq_iff.mpr same,
    option_map_eq_of_to_list storage, option_map_eq_of_to_list event, shows.interfaces,
    gathers.interfaces, shows.impls, gathers.impls]

structure ShowsContract (name : Ident) (parts : List ContractPart) (decl : ContractDecl) :
    Prop where
  name : decl.name.bare = name.bare
  storage : decl.storage.toList.map StorageBlock.bare =
    (parts.filterMap (·.storage?)).map StorageBlock.bare
  event : decl.event.toList.map EventBlock.bare =
    (parts.filterMap (·.event?)).map EventBlock.bare
  inclusions : decl.inclusions.map InclusionDecl.bare =
    (parts.filterMap (·.inclusion?)).map InclusionDecl.bare
  exposures : decl.exposures.map ExposureDecl.bare =
    (parts.filterMap (·.exposure?)).map ExposureDecl.bare

theorem contract_member {name : Ident} {before : List ContractPart} {part : ContractPart}
    {kinds : List TokenKind} {decl : ContractDecl} (written : part.Written kinds)
    (room : OneOfEach (·.storage?) (·.event?) (before ++ [part]))
    (shows : ShowsContract name before decl) :
    Accepts (contractMember decl) (kinds ++ rest) (ShowsContract name (before ++ [part])) rest := by
  cases part with
  | storage block =>
      have absent := none_of_room (.storage block) rfl shows.storage room.block
      have taken := @storage_block block kinds rest written trivial
      obtain ⟨_, _, rfl⟩ := written
      refine .unmarked (.kept absent taken fun result same => ⟨shows.name, ?_, ?_, ?_, ?_⟩)
      · exact shown_behind_none rfl absent shows.storage same
      · exact shown_past rfl shows.event
      · exact shown_past rfl shows.inclusions
      · exact shown_past rfl shows.exposures
  | event block =>
      have absent := none_of_room (.event block) rfl shows.event room.other
      have taken := @event_block block kinds rest written trivial
      obtain ⟨_, _, rfl⟩ := written
      refine .unmarked (.kept absent taken fun result same => ⟨shows.name, ?_, ?_, ?_, ?_⟩)
      · exact shown_past rfl shows.storage
      · exact shown_behind_none rfl absent shows.event same
      · exact shown_past rfl shows.inclusions
      · exact shown_past rfl shows.exposures
  | inclusion decl =>
      have taken := @inclusion decl kinds rest written trivial
      obtain ⟨_, _, rfl⟩ := written
      refine .unmarked (.bind taken fun result same => .pure ⟨shows.name, ?_, ?_, ?_, ?_⟩)
      · exact shown_past rfl shows.storage
      · exact shown_past rfl shows.event
      · exact shown_behind rfl shows.inclusions same
      · exact shown_past rfl shows.exposures
  | exposure decl =>
      obtain ⟨nodes, target, list, written, rfl⟩ := written
      simp only [List.cons_append, List.append_assoc, List.nil_append]
      refine .bind (attributes list (by simp)) fun nodes alike => .bind .kind fun kind ahead => ?_
      subst ahead
      refine .bind (exposure alike written) fun result same => .pure ⟨shows.name, ?_, ?_, ?_, ?_⟩
      · exact shown_past rfl shows.storage
      · exact shown_past rfl shows.event
      · exact shown_past rfl shows.inclusions
      · exact shown_behind rfl shows.exposures same

theorem contract_part_starts : StartsOther ContractPart.Written (.mark .rightBrace) := by
  intro part kinds written
  cases part with
  | storage => obtain ⟨_, _, rfl⟩ := written; exact ⟨_, _, rfl, nofun⟩
  | event => obtain ⟨_, _, rfl⟩ := written; exact ⟨_, _, rfl, nofun⟩
  | inclusion => obtain ⟨_, _, rfl⟩ := written; exact ⟨_, _, rfl, nofun⟩
  | exposure => obtain ⟨_, _, list, _, rfl⟩ := written; exact attributes_start_part list

theorem contract :
    Completes Parse.contract ContractDecl.bare ContractDecl.Written fun _ => True := by
  rintro decl _ rest ⟨parts, _, ⟨body, sequence, rfl⟩, gathers, rfl⟩ _
  have room := OneOfEach.of_options gathers.storage gathers.event
  simp only [List.cons_append, List.append_assoc, List.nil_append]
  refine .bind .look fun _ _ => .bind .expect fun _ _ => .bind .identifier fun name same =>
    .bind (.block (path_of_parts (ShowsContract name) (OneOfEach (·.storage?) (·.event?))
      (fun _ _ => OneOfEach.fewer) (fun _ _ _ _ _ => contract_member) contract_part_starts
      sequence [] room) ⟨rfl, rfl, rfl, rfl, rfl⟩)
      fun read shows => .bind .look fun _ _ => .pure ?_
  rw [List.nil_append] at shows
  have storage := shows.storage
  have event := shows.event
  rw [← gathers.storage] at storage
  rw [← gathers.event] at event
  simp [ContractDecl.bare, shows.name, Ident.bare_eq_iff.mpr same,
    option_map_eq_of_to_list storage, option_map_eq_of_to_list event, shows.inclusions,
    gathers.inclusions, shows.exposures, gathers.exposures]

theorem item : Completes Parse.item Item.bare Item.Written fun _ => True := by
  intro item kinds rest written _
  cases item with
  | component decl =>
      have taken := @component decl kinds rest written trivial
      obtain ⟨_, _, _, _, rfl⟩ := written
      refine .bind .kind fun kind ahead => ?_
      subst ahead
      refine .bind taken fun result same => .pure ?_
      rw [Item.bare, Item.bare, same]
  | contract decl =>
      have taken := @contract decl kinds rest written trivial
      obtain ⟨_, _, _, _, rfl⟩ := written
      refine .bind .kind fun kind ahead => ?_
      subst ahead
      refine .bind taken fun result same => .pure ?_
      rw [Item.bare, Item.bare, same]

end Accepts

/-- Items that are written ahead are read back, up to spans, and nothing is reported. -/
theorem items_complete {nodes : List Item} {cursor : Cursor}
    (written : ItemsWritten nodes cursor.kinds) (room : cursor.log.isFull = false) (fuel : Nat)
    (enough : cursor.ahead.length < fuel) :
    (items fuel cursor).1.map Item.bare = nodes.map Item.bare ∧
      (items fuel cursor).2.log = cursor.log := by
  generalize ahead : cursor.kinds = kinds at written
  induction written generalizing cursor fuel with
  | nil =>
      obtain ⟨fuel, rfl⟩ := Nat.exists_eq_succ_of_ne_zero (Nat.ne_zero_of_lt enough)
      rw [items_succ, cursor.at_end_iff.mpr ahead, Bool.true_or, if_pos rfl]
      exact ⟨rfl, rfl⟩
  | @cons first others here later own _ ih =>
      obtain ⟨fuel, rfl⟩ := Nat.exists_eq_succ_of_ne_zero (Nat.ne_zero_of_lt enough)
      obtain ⟨result, after, ran, same, left, log⟩ :=
        @Accepts.item first here later own trivial cursor ahead room
      have some := own.length_pos
      have more : ¬cursor.atEnd = true := by
        rw [cursor.at_end_iff, ahead, List.append_eq_nil_iff, ← List.length_eq_zero_iff]
        omega
      have shorter : after.ahead.length < fuel := by
        rw [← cursor.length_kinds, ahead, List.length_append] at enough
        rw [← after.length_kinds, left]
        omega
      obtain ⟨alike, sameLog⟩ := @ih after (by rw [log]; exact room) fuel shorter left
      rw [items_succ, room, Bool.or_false, if_neg more, ran]
      exact ⟨by rw [List.map_cons, List.map_cons, same, alike], sameLog.trans log⟩

end Parse

theorem SourceFile.parse_tokens_complete (file : SourceFile) {tokens : List Token}
    {nodes : List Item} (written : ItemsWritten nodes (Cursor.ofTokens file tokens).kinds) :
    (file.parseTokens tokens).log = .empty ∧
      (file.parseTokens tokens).tree.items.map Item.bare = nodes.map Item.bare := by
  obtain ⟨same, log⟩ := Parse.items_complete written rfl _ (Nat.lt_succ_self _)
  exact ⟨log, same⟩

end Composer
