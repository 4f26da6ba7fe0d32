import Composer.Proofs.Declaration.Soundness.Rules

/-!
Each construct is sound: where reading it reports no error, the kinds taken write the result.
-/

namespace Composer

namespace Parse

namespace Sound

variable {Node : Type} {bound : Nat}

/-! ### Types -/

theorem path_with {argument : Parse TypeExpr}
    (sound : Sound (bound - 1) argument (Takes TypeExpr.Written)) :
    Sound bound (pathWith argument) (Takes TypePath.Written) := by
  refine .bind .look fun start => .bind .identifier fun first =>
    .bind (.all_led (by simp) .identifier) fun others => .eat_else (by simp) ?_ ?_
  · refine .bind sound fun argument => .bind (.trailing_led (by simp) sound) fun arguments =>
      .bind (.expect (by simp)) fun _ => .bind .returned fun generics => .bind .look fun span =>
        .pure ?_
    rintro rest _ rfl _ ⟨rfl, rfl⟩ _ rfl _ ⟨later, led, rfl⟩ _ ⟨here, written, rfl⟩ _
      ⟨names, others, rfl⟩ _ ⟨_, rfl, rfl⟩ _ rfl
    exact ⟨_, .path others (.some written led), by simp⟩
  · refine .bind .returned fun generics => .bind .look fun span => .pure ?_
    rintro rest _ rfl _ ⟨rfl, rfl⟩ _ _ ⟨names, others, rfl⟩ _ ⟨_, rfl, rfl⟩ _ rfl
    exact ⟨_, .path others .none, by simp⟩

theorem type_within (depth : Nat) :
    Sound depth (typeWithin depth) (Takes TypeExpr.Written) := by
  induction depth with
  | zero => exact ⟨fun _ => Nat.le_refl _, fun cursor short _ => by omega⟩
  | succ depth ih =>
      rw [type_within_succ]
      refine .bind .look fun start => .eat_else (by simp) ?_ (.eat_else (by simp) ?_ ?_)
      · refine .bind ih fun inner => .bind .look fun span => .pure ?_
        rintro rest _ rfl _ ⟨kinds, written, rfl⟩ _ rfl
        exact ⟨_, .snapshot written, rfl⟩
      · refine .bind (.comma_list ih) fun items => .bind (.expect (by simp)) fun _ =>
          .bind .look fun span => .pure ?_
        rintro rest _ rfl _ rfl _ ⟨kinds, written, rfl⟩ _ _ rfl
        exact ⟨_, .tuple written, by simp⟩
      · refine .bind (.path_with ih) fun path => .pure ?_
        rintro rest _ ⟨kinds, written, rfl⟩ _ _ _ rfl
        exact ⟨kinds, written, rfl⟩

theorem type : Sound bound type (Takes TypeExpr.Written) :=
  .with_fuel fun fuel => (type_within fuel).within (Nat.min_le_right _ _)

theorem path : Sound bound path (Takes TypePath.Written) := .path_with .type

/-! ### Attributes and methods -/

theorem attribute_body : Sound bound attributeBody (Takes Attribute.Written) := by
  refine .bind .look fun start => .bind (.expect (by simp)) fun _ => .bind .identifier fun name =>
    .eat_else (by simp) ?_ ?_
  · refine .bind (.comma_list .identifier) fun args => .bind (.expect (by simp)) fun _ =>
      .bind .returned fun args => .bind (.expect (by simp)) fun _ => .bind .look fun span =>
        .pure ?_
    rintro rest _ rfl _ rfl _ ⟨rfl, rfl⟩ _ rfl _ ⟨kinds, list, rfl⟩ _ ⟨_, rfl, rfl⟩ _ rfl _ rfl
    exact ⟨_, .applied list, by simp⟩
  · refine .bind .returned fun args => .bind (.expect (by simp)) fun _ => .bind .look fun span =>
      .pure ?_
    rintro rest _ rfl _ rfl _ ⟨rfl, rfl⟩ _ _ ⟨_, rfl, rfl⟩ _ rfl _ rfl
    exact ⟨_, .plain, rfl⟩

theorem attributes : Sound bound attributes (Takes AttributesWritten) :=
  .all_led (by simp) .attribute_body

/-- A receiver by reference, behind its type. -/
theorem reference_receiver {start : Span} (type : TypeExpr)
    (path : ∀ inner span, type ≠ .snapshot inner span) :
    Sound bound (do return ⟨.reference, type, ← spanFrom start⟩ : Parse Receiver)
      fun receiver middle rest => ∀ input, Takes TypeExpr.Written type input middle →
        Takes Receiver.Written receiver
          (.keyword .ref :: .keyword .self :: .mark .colon :: input) rest := by
  refine .bind .look fun span => .pure ?_
  rintro rest _ rfl _ ⟨kinds, written, rfl⟩
  refine ⟨_, .reference written ?_, rfl⟩
  cases written with
  | path => simp
  | snapshot => exact absurd rfl (path _ _)
  | tuple => simp

theorem receiver : Sound bound receiver (Takes Receiver.Written) := by
  refine .bind .look fun start => .bind (.eat (by simp)) fun isReference =>
    .eat_else (by simp) ?_ (.bind .kind fun _ => .unexpected_first)
  refine .bind (.expect (by simp)) fun _ => .bind .type fun type => ?_
  cases isReference with
  | true =>
      cases type with
      | snapshot inner span => exact .report_first
      | path segments generics span =>
          refine (reference_receiver _ fun _ _ same => by cases same).mono ?_
          rintro receiver middle rest read input taken _ rfl _ (⟨_, rfl⟩ | ⟨no, _⟩) _ rfl
          · exact read input taken
          · cases no
      | tuple items span =>
          refine (reference_receiver _ fun _ _ same => by cases same).mono ?_
          rintro receiver middle rest read input taken _ rfl _ (⟨_, rfl⟩ | ⟨no, _⟩) _ rfl
          · exact read input taken
          · cases no
  | false =>
      cases type with
      | path segments generics span => exact .report_first
      | tuple items span => exact .report_first
      | snapshot inner span =>
          refine .bind .look fun span => .pure ?_
          rintro rest _ rfl _ ⟨_, written, rfl⟩ _ rfl _ (⟨no, _⟩ | ⟨_, rfl⟩) _ rfl
          · cases no
          · cases written with
            | snapshot inner => exact ⟨_, .snapshot inner, rfl⟩

theorem param : Sound bound param (Takes Param.Written) := by
  refine .bind .look fun start => .bind .identifier fun name => .bind (.expect (by simp)) fun _ =>
    .bind .type fun type => .bind .look fun span => .pure ?_
  rintro rest _ rfl _ ⟨kinds, written, rfl⟩ _ rfl _ ⟨_, rfl, rfl⟩ _ rfl
  exact ⟨_, ⟨kinds, written, rfl⟩, rfl⟩

theorem method : Sound bound method (Takes MethodDecl.Written) := by
  refine .bind .look fun start => .bind (.expect (by simp)) fun _ => .bind .identifier fun name =>
    .bind (.expect (by simp)) fun _ => .bind .receiver fun receiver =>
      .bind (.trailing_led (by simp) .param) fun params => .bind (.expect (by simp)) fun _ =>
        .eat_else (by simp) ?_ ?_
  · refine .bind .type fun type => .bind .returned fun ret => .bind (.expect (by simp)) fun _ =>
      .bind .look fun span => .pure ?_
    rintro rest _ rfl _ rfl _ ⟨rfl, rfl⟩ _ ⟨ret, written, rfl⟩ _ rfl _ ⟨params, led, rfl⟩ _
      ⟨kinds, receives, rfl⟩ _ rfl _ ⟨_, rfl, rfl⟩ _ rfl _ rfl
    exact ⟨_, ⟨kinds, params, _, receives, led, .some written, rfl⟩, by simp⟩
  · refine .bind .returned fun ret => .bind (.expect (by simp)) fun _ => .bind .look fun span =>
      .pure ?_
    rintro rest _ rfl _ rfl _ ⟨rfl, rfl⟩ _ _ rfl _ ⟨params, led, rfl⟩ _ ⟨kinds, receives, rfl⟩ _
      rfl _ ⟨_, rfl, rfl⟩ _ rfl _ rfl
    exact ⟨_, ⟨kinds, params, _, receives, led, .none, rfl⟩, by simp⟩

/-! ### Blocks of lists -/

/-- The action takes a member with the comma behind it, if there is one. -/
def Ends (written : Node → List TokenKind → Prop) : Reading Node := fun node input rest =>
  ∃ kinds tail, written node kinds ∧ input = kinds ++ tail ∧ EndsMember tail rest

def Collects (reading : Reading Node) : List Node → Reading (List Node) :=
  fun collected more input rest => ∃ node, more = collected ++ [node] ∧ reading node input rest

theorem list_block {member : Parse Node} {reading : Reading Node}
    (sound : ∀ bound, Sound bound member reading)
    (shrinks : ∀ node input rest, reading node input rest → rest.length < input.length) :
    Sound bound (listBlock member) fun nodes input rest =>
      ∃ body, input = .mark .leftBrace :: body ∧
        Steps (Collects reading) [] nodes body (.mark .rightBrace :: rest) := by
  refine .block (fun collected bound => ?_) (fun _ _ input rest advanced => ?_) []
  · refine .bind (sound bound) fun node => .pure ?_
    intro rest input read
    exact ⟨node, rfl, read⟩
  · obtain ⟨node, _, read⟩ := advanced
    exact shrinks node input rest read

theorem sequence_of_steps {written : Node → List TokenKind → Prop} {first last : List Node}
    {input rest : List TokenKind} (steps : Steps (Collects (Takes written)) first last input rest) :
    ∃ nodes, last = first ++ nodes ∧ Takes (Sequence written) nodes input rest := by
  induction steps with
  | done => exact ⟨[], (List.append_nil _).symm, [], .nil, rfl⟩
  | step _ advanced _ ih =>
      obtain ⟨node, rfl, here, written, rfl⟩ := advanced
      obtain ⟨nodes, rfl, later, sequence, rfl⟩ := ih
      exact ⟨node :: nodes, by simp, _, .cons written sequence, by simp⟩

theorem comma_list_of_steps {written : Node → List TokenKind → Prop} {first last : List Node}
    {input rest : List TokenKind} (steps : Steps (Collects (Ends written)) first last input rest)
    (closed : rest.headD .endOfFile = .mark .rightBrace) :
    ∃ nodes, last = first ++ nodes ∧ Takes (CommaList written) nodes input rest := by
  induction steps with
  | done => exact ⟨[], (List.append_nil _).symm, [], .nil, rfl⟩
  | step _ advanced others ih =>
      obtain ⟨node, collected, here, tail, written, rfl, rfl | ⟨rfl, brace⟩⟩ := advanced
      · obtain ⟨nodes, rfl, later, list, rfl⟩ := ih closed
        exact ⟨node :: nodes, by simp [collected], _, .cons written list, by simp⟩
      · -- The member without a comma stands before the brace, so no step follows it.
        cases others with
        | done => exact ⟨[node], collected, here, .last written, rfl⟩
        | step more => exact absurd brace more

theorem methods : Sound bound (listBlock Parse.method) (Takes MethodsWritten) := by
  refine (list_block (fun _ => .method) ?_).mono ?_
  · rintro node _ rest ⟨_, ⟨_, _, _, _, _, _, rfl⟩, rfl⟩
    simp only [List.length_append, List.length_cons]
    omega
  · rintro nodes _ rest ⟨body, rfl, steps⟩
    obtain ⟨_, rfl, kinds, sequence, rfl⟩ := sequence_of_steps steps
    exact ⟨_, ⟨kinds, sequence, rfl⟩, by simp⟩

theorem comma_block {member : Parse Node} {written : Node → List TokenKind → Prop}
    (sound : ∀ bound, Sound bound member (Ends written))
    (nonempty : ∀ node kinds, written node kinds → kinds ≠ []) :
    Sound bound (listBlock member) (Takes (Braced (CommaList written))) := by
  refine (list_block sound ?_).mono ?_
  · rintro node _ rest ⟨kinds, tail, own, rfl, rfl | ⟨rfl, _⟩⟩
    · simp only [List.length_append, List.length_cons]
      omega
    · have some := List.length_pos_iff.mpr (nonempty node kinds own)
      simp only [List.length_append]
      omega
  · rintro nodes _ rest ⟨body, rfl, steps⟩
    obtain ⟨_, rfl, kinds, list, rfl⟩ := comma_list_of_steps steps rfl
    exact ⟨_, ⟨kinds, list, rfl⟩, by simp⟩

/-! ### Storage and events -/

theorem end_of_member : Sound bound endOfMember fun _ input rest => EndsMember input rest := by
  refine .eat_else (by simp) (.pure fun _ => .inl rfl) (.bind .check fun closes =>
    .ite (fun holds => .pure ?_) fun _ => .bind (.expect (by simp)) fun _ => .pure ?_)
  · rintro input _ ⟨rfl, closed⟩ _
    exact .inr ⟨rfl, closed holds⟩
  · rintro rest _ rfl _ ⟨rfl, _⟩ _
    exact .inl rfl

theorem storage_member : Sound bound storageMember (Ends MemberDecl.Written) := by
  refine .bind .look fun start => .bind .attributes fun attributes => .bind .identifier fun name =>
    .bind (.expect (by simp)) fun _ => .bind .type fun type => .bind .look fun span =>
      .bind .end_of_member fun _ => .pure ?_
  rintro rest middle ends _ rfl _ ⟨type, written, rfl⟩ _ rfl _ ⟨_, rfl, rfl⟩ _
    ⟨attributes, led, rfl⟩ _ rfl
  exact ⟨_, middle, ⟨attributes, type, led, written, rfl⟩, by simp, ends⟩

theorem storage_members :
    Sound bound (listBlock storageMember) (Takes (Braced (CommaList MemberDecl.Written))) := by
  apply comma_block fun _ => .storage_member
  rintro member _ ⟨attributes, type, _, _, rfl⟩
  simp

theorem storage_block : Sound bound storageBlock (Takes StorageBlock.Written) := by
  refine .bind .look fun start => .bind (.expect (by simp)) fun _ =>
    .bind .storage_members fun members => .bind .look fun span => .pure ?_
  rintro rest _ rfl _ ⟨members, block, rfl⟩ _ rfl _ rfl
  exact ⟨_, ⟨members, block, rfl⟩, rfl⟩

theorem event_variant : Sound bound eventVariant (Ends VariantDecl.Written) := by
  refine .bind .look fun start => .bind .attributes fun attributes => .bind .identifier fun name =>
    .eat_else (by simp) ?_ ?_
  · refine .bind .type fun type => .bind .returned fun payload => .bind .look fun span =>
      .bind .end_of_member fun _ => .pure ?_
    rintro rest middle ends _ rfl _ ⟨rfl, rfl⟩ _ ⟨type, written, rfl⟩ _ ⟨_, rfl, rfl⟩ _
      ⟨attributes, led, rfl⟩ _ rfl
    exact ⟨_, middle, ⟨attributes, _, led, .some written, rfl⟩, by simp, ends⟩
  · refine .bind .returned fun payload => .bind .look fun span =>
      .bind .end_of_member fun _ => .pure ?_
    rintro rest middle ends _ rfl _ ⟨rfl, rfl⟩ _ _ ⟨_, rfl, rfl⟩ _ ⟨attributes, led, rfl⟩ _ rfl
    exact ⟨_, middle, ⟨attributes, _, led, .none, rfl⟩, by simp, ends⟩

theorem event_variants :
    Sound bound (listBlock eventVariant) (Takes (Braced (CommaList VariantDecl.Written))) := by
  apply comma_block fun _ => .event_variant
  rintro variant _ ⟨attributes, payload, _, _, rfl⟩
  simp

theorem event_block : Sound bound eventBlock (Takes EventBlock.Written) := by
  refine .bind .look fun start => .bind (.expect (by simp)) fun _ =>
    .bind .event_variants fun variants => .bind .look fun span => .pure ?_
  rintro rest _ rfl _ ⟨variants, block, rfl⟩ _ rfl _ rfl
  exact ⟨_, ⟨variants, block, rfl⟩, rfl⟩

theorem keep_first {Block : Type} (present : Option Block) (block : Block) (word owner : String)
    (span : Span) :
    Sound bound (keepFirst present block word owner span) fun kept input rest =>
      present = none ∧ kept = some block ∧ rest = input := by
  cases present with
  | none => exact .pure fun _ => ⟨rfl, rfl, rfl⟩
  | some first => exact .of_errors fun cursor => Nat.lt_succ_self cursor.log.totalErrors

/-! ### Members of components and contracts -/

theorem interface : Sound bound interface (Takes InterfaceDecl.Written) := by
  refine .bind .look fun start => .bind (.expect (by simp)) fun _ => .bind .identifier fun name =>
    .bind .methods fun methods => .bind .look fun span => .pure ?_
  rintro rest _ rfl _ ⟨methods, block, rfl⟩ _ ⟨_, rfl, rfl⟩ _ rfl _ rfl
  exact ⟨_, ⟨methods, block, rfl⟩, rfl⟩

theorem start_behind (attributes : List Attribute) :
    Sound bound (startBehind attributes) fun _ input rest => rest = input := by
  unfold startBehind
  cases attributes.head? with
  | none => exact .look
  | some first => exact .pure fun _ => rfl

/-- An implementation behind its attributes. -/
theorem implementation (attributes : List Attribute) :
    Sound bound (implementation attributes) fun impl input rest =>
      ∀ before, AttributesWritten attributes before →
        Takes ImplDecl.Written impl (before ++ input) rest := by
  refine .bind (.start_behind _) fun start => .bind (.expect (by simp)) fun _ =>
    .bind .identifier fun name => .eat_else (by simp) ?_ ?_
  · refine .bind .identifier fun interface => .eat_else (by simp) ?_ ?_
    · refine .bind .returned fun methods => .bind .look fun span => .pure ?_
      rintro rest _ rfl _ ⟨rfl, rfl⟩ _ ⟨_, rfl, rfl⟩ _ ⟨_, rfl, rfl⟩ _ rfl _ rfl before led
      exact ⟨_, ⟨before, _, led, .bare, rfl⟩, by simp⟩
    · refine .bind .methods fun methods => .bind .look fun span => .pure ?_
      rintro rest _ rfl _ ⟨kinds, block, rfl⟩ _ _ ⟨_, rfl, rfl⟩ _ ⟨_, rfl, rfl⟩ _ rfl _ rfl before
        led
      exact ⟨_, ⟨before, _, led, .restated block, rfl⟩, by simp⟩
  · refine .bind .methods fun methods => .bind .look fun span => .pure ?_
    rintro rest _ rfl _ ⟨kinds, block, rfl⟩ _ _ ⟨_, rfl, rfl⟩ _ rfl _ rfl before led
    exact ⟨_, ⟨before, _, led, .inherent block, rfl⟩, by simp⟩

theorem inclusion : Sound bound inclusion (Takes InclusionDecl.Written) := by
  refine .bind .look fun start => .bind (.expect (by simp)) fun _ => .bind (.expect (by simp)) fun _ =>
    .bind (.expect (by simp)) fun _ => .bind (.word _) fun _ => .bind (.expect (by simp)) fun _ =>
    .bind .identifier fun path => .bind (.expect (by simp)) fun _ => .bind (.expect (by simp)) fun _ =>
    .bind (.expect (by simp)) fun _ => .bind .identifier fun storage =>
    .bind (.expect (by simp)) fun _ => .bind (.expect (by simp)) fun _ =>
    .bind (.expect (by simp)) fun _ => .bind .identifier fun event => .bind (.eat (by simp)) fun _ =>
    .bind (.expect (by simp)) fun _ => .bind .look fun span => .bind (.expect (by simp)) fun _ =>
      .pure ?_
  rintro rest _ rfl _ rfl _ rfl behind trail _ ⟨_, rfl, rfl⟩ _ rfl _ rfl _ rfl _ ⟨_, rfl, rfl⟩ _ rfl
    _ rfl _ rfl _ ⟨_, rfl, rfl⟩ _ rfl _ rfl _ rfl _ rfl _ rfl _ rfl
  rcases trail with ⟨_, rfl⟩ | ⟨_, rfl⟩
  · exact ⟨_, ⟨[.mark .comma], .inr rfl, rfl⟩, rfl⟩
  · exact ⟨_, ⟨[], .inl rfl, rfl⟩, rfl⟩

/-- An exposure behind its attributes. -/
theorem exposure (attributes : List Attribute) :
    Sound bound (exposure attributes) fun exposure input rest =>
      ∀ before, AttributesWritten attributes before →
        Takes ExposureDecl.Written exposure (before ++ input) rest := by
  refine .bind (.start_behind _) fun start => .bind (.expect (by simp)) fun _ =>
    .bind .identifier fun name => .bind (.expect (by simp)) fun _ => .bind .path fun target =>
      .bind (.expect (by simp)) fun _ => .bind .look fun span => .pure ?_
  rintro rest _ rfl _ rfl _ ⟨target, written, rfl⟩ _ rfl _ ⟨_, rfl, rfl⟩ _ rfl _ rfl before led
  exact ⟨_, ⟨before, target, led, written, rfl⟩, by simp⟩

theorem attributes_written_nil {kinds : List TokenKind} (written : AttributesWritten [] kinds) :
    kinds = [] := by
  cases written with
  | nil => rfl
  | trailing no => exact no.elim

theorem unexpected_member {Result : Type} {reading : Reading Result} (attributes : List Attribute)
    (expected : String) (found : TokenKind) :
    Sound bound (unexpectedMember attributes expected found) reading := by
  cases attributes with
  | nil => exact .unexpected
  | cons _ _ => exact .unexpected

section Parts

variable {Decl Part : Type} (written : Part → List TokenKind → Prop)
  (gathers : Decl → List Part → Prop) (name : Decl → Ident)

def Adds (decl : Decl) : Reading Decl := fun more input rest =>
  ∃ part, Takes written part input rest ∧ name more = name decl ∧
    ∀ parts, gathers decl parts → gathers more (parts ++ [part])

variable {written gathers name}

theorem parts_of_steps {first last : Decl} {input rest : List TokenKind}
    (steps : Steps (Adds written gathers name) first last input rest) :
    ∃ parts, Takes (Sequence written) parts input rest ∧ name last = name first ∧
      ∀ before, gathers first before → gathers last (before ++ parts) := by
  induction steps with
  | done =>
      refine ⟨[], ⟨[], .nil, rfl⟩, rfl, fun before gathered => ?_⟩
      rwa [List.append_nil]
  | step _ advanced _ ih =>
      obtain ⟨part, ⟨here, own, rfl⟩, named, adds⟩ := advanced
      obtain ⟨parts, ⟨later, sequence, rfl⟩, sameName, goesOn⟩ := ih
      refine ⟨part :: parts, ⟨_, .cons own sequence, by simp⟩, sameName.trans named, ?_⟩
      intro before gathered
      rw [List.append_cons]
      exact goesOn _ (adds before gathered)

theorem adds_shrinks (nonempty : ∀ part kinds, written part kinds → kinds ≠ [])
    (first second : Decl) (input rest : List TokenKind)
    (adds : Adds written gathers name first second input rest) : rest.length < input.length := by
  obtain ⟨part, ⟨kinds, own, rfl⟩, _⟩ := adds
  have some := List.length_pos_iff.mpr (nonempty part kinds own)
  rw [List.length_append]
  omega

end Parts

theorem component_part_nonempty (part : ComponentPart) (kinds : List TokenKind)
    (written : part.Written kinds) : kinds ≠ [] := by
  cases part with
  | storage block => obtain ⟨_, _, rfl⟩ := written; simp
  | event block => obtain ⟨_, _, rfl⟩ := written; simp
  | interface decl => obtain ⟨_, _, rfl⟩ := written; simp
  | impl decl => obtain ⟨_, _, _, _, rfl⟩ := written; simp

theorem component_member (decl : ComponentDecl) :
    Sound bound (componentMember decl)
      (Adds ComponentPart.Written ComponentDecl.Gathers ComponentDecl.name decl) := by
  refine .bind .attributes fun attributes => .bind .kind fun kind => ?_
  split
  · refine .bind .storage_block fun block => .bind (.keep_first _ _ _ _ _) fun kept => .pure ?_
    rintro rest _ ⟨absent, rfl, rfl⟩ _ taken _ ⟨rfl, _⟩ _ ⟨_, none, rfl⟩
    rw [attributes_written_nil none]
    refine ⟨.storage block, taken, rfl, fun parts gathers => ?_⟩
    exact gathers.behind (by simp [absent]) (by simp) (by simp) (by simp)
  · refine .bind .event_block fun block => .bind (.keep_first _ _ _ _ _) fun kept => .pure ?_
    rintro rest _ ⟨absent, rfl, rfl⟩ _ taken _ ⟨rfl, _⟩ _ ⟨_, none, rfl⟩
    rw [attributes_written_nil none]
    refine ⟨.event block, taken, rfl, fun parts gathers => ?_⟩
    exact gathers.behind (by simp) (by simp [absent]) (by simp) (by simp)
  · refine .bind .interface fun interface => .pure ?_
    rintro rest _ taken _ ⟨rfl, _⟩ _ ⟨_, none, rfl⟩
    rw [attributes_written_nil none]
    refine ⟨.interface interface, taken, rfl, fun parts gathers => ?_⟩
    exact gathers.behind (by simp) (by simp) (by simp) (by simp)
  · refine .bind (.implementation _) fun impl => .pure ?_
    rintro rest _ read _ ⟨rfl, _⟩ _ ⟨before, led, rfl⟩
    refine ⟨.impl impl, read before led, rfl, fun parts gathers => ?_⟩
    exact gathers.behind (by simp) (by simp) (by simp) (by simp)
  · exact .unexpected_member _ _ _

theorem component : Sound bound component (Takes ComponentDecl.Written) := by
  refine .bind .look fun start => .bind (.expect (by simp)) fun _ => .bind .identifier fun name =>
    .bind (.block (fun decl _ => .component_member decl) (adds_shrinks component_part_nonempty) _)
      fun decl => .bind .look fun span => .pure ?_
  rintro rest _ rfl _ ⟨body, rfl, steps⟩ _ ⟨_, rfl, rfl⟩ _ rfl _ rfl
  obtain ⟨parts, ⟨kinds, sequence, rfl⟩, named, gathers⟩ := parts_of_steps steps
  have gathered := gathers [] ⟨rfl, rfl, rfl, rfl⟩
  refine ⟨_, ⟨parts, _, ⟨kinds, sequence, rfl⟩, ?_, rfl⟩, ?_⟩
  · exact ⟨gathered.storage, gathered.event, gathered.interfaces, gathered.impls⟩
  · simp [named]

theorem contract_part_nonempty (part : ContractPart) (kinds : List TokenKind)
    (written : part.Written kinds) : kinds ≠ [] := by
  cases part with
  | storage block => obtain ⟨_, _, rfl⟩ := written; simp
  | event block => obtain ⟨_, _, rfl⟩ := written; simp
  | inclusion decl => obtain ⟨_, _, rfl⟩ := written; simp
  | exposure decl => obtain ⟨_, _, _, _, rfl⟩ := written; simp

theorem contract_member (decl : ContractDecl) :
    Sound bound (contractMember decl)
      (Adds ContractPart.Written ContractDecl.Gathers ContractDecl.name decl) := by
  refine .bind .attributes fun attributes => .bind .kind fun kind => ?_
  split
  · refine .bind .inclusion fun inclusion => .pure ?_
    rintro rest _ taken _ ⟨rfl, _⟩ _ ⟨_, none, rfl⟩
    rw [attributes_written_nil none]
    refine ⟨.inclusion inclusion, taken, rfl, fun parts gathers => ?_⟩
    exact gathers.behind (by simp) (by simp) (by simp) (by simp)
  · refine .bind (.exposure _) fun exposure => .pure ?_
    rintro rest _ read _ ⟨rfl, _⟩ _ ⟨before, led, rfl⟩
    refine ⟨.exposure exposure, read before led, rfl, fun parts gathers => ?_⟩
    exact gathers.behind (by simp) (by simp) (by simp) (by simp)
  · refine .bind .storage_block fun block => .bind (.keep_first _ _ _ _ _) fun kept => .pure ?_
    rintro rest _ ⟨absent, rfl, rfl⟩ _ taken _ ⟨rfl, _⟩ _ ⟨_, none, rfl⟩
    rw [attributes_written_nil none]
    refine ⟨.storage block, taken, rfl, fun parts gathers => ?_⟩
    exact gathers.behind (by simp [absent]) (by simp) (by simp) (by simp)
  · refine .bind .event_block fun block => .bind (.keep_first _ _ _ _ _) fun kept => .pure ?_
    rintro rest _ ⟨absent, rfl, rfl⟩ _ taken _ ⟨rfl, _⟩ _ ⟨_, none, rfl⟩
    rw [attributes_written_nil none]
    refine ⟨.event block, taken, rfl, fun parts gathers => ?_⟩
    exact gathers.behind (by simp) (by simp [absent]) (by simp) (by simp)
  · exact .unexpected_member _ _ _

theorem contract : Sound bound contract (Takes ContractDecl.Written) := by
  refine .bind .look fun start => .bind (.expect (by simp)) fun _ => .bind .identifier fun name =>
    .bind (.block (fun decl _ => .contract_member decl) (adds_shrinks contract_part_nonempty) _)
      fun decl => .bind .look fun span => .pure ?_
  rintro rest _ rfl _ ⟨body, rfl, steps⟩ _ ⟨_, rfl, rfl⟩ _ rfl _ rfl
  obtain ⟨parts, ⟨kinds, sequence, rfl⟩, named, gathers⟩ := parts_of_steps steps
  have gathered := gathers [] ⟨rfl, rfl, rfl, rfl⟩
  refine ⟨_, ⟨parts, _, ⟨kinds, sequence, rfl⟩, ?_, rfl⟩, ?_⟩
  · exact ⟨gathered.storage, gathered.event, gathered.inclusions, gathered.exposures⟩
  · simp [named]

/-! ### Items -/

theorem item : Sound bound item (Takes Item.Written) := by
  refine .bind .kind fun kind => ?_
  split
  · refine .bind .component fun decl => .pure ?_
    rintro rest _ ⟨kinds, written, rfl⟩ _ ⟨rfl, _⟩
    exact ⟨kinds, written, rfl⟩
  · refine .bind .contract fun decl => .pure ?_
    rintro rest _ ⟨kinds, written, rfl⟩ _ ⟨rfl, _⟩
    exact ⟨kinds, written, rfl⟩
  · refine .of_errors fun cursor => ?_
    change cursor.log.totalErrors < (cursor.report _ _ _).advance.log.totalErrors
    rw [Cursor.log_advance]
    exact Nat.lt_succ_self cursor.log.totalErrors

end Sound

/-- Items up to the end take no error back. -/
theorem items_steady (fuel : Nat) (cursor : Cursor) :
    cursor.log.totalErrors ≤ (items fuel cursor).2.log.totalErrors := by
  have sound : Sound 0 item (Takes Item.Written) := .item
  have stopped := items_hold (fun after => cursor.log.totalErrors ≤ after.log.totalErrors)
    (fun _ => True) ?reads ?skips fuel cursor (Nat.le_refl _)
  · exact stopped.1
  case reads =>
    intro before node after _ _ grows ran
    have here := sound.steady before
    rw [ran] at here
    exact ⟨Nat.le_trans grows here, trivial⟩
  case skips =>
    intro before after _ _ grows ran
    have here := sound.steady before
    rw [ran] at here
    exact Nat.le_trans grows here

/-- Without errors the kinds ahead write the items that are read. -/
theorem items_sound (fuel : Nat) (cursor : Cursor) (short : cursor.ahead.length < fuel)
    (room : cursor.log.isFull = false) :
    cursor.log.totalErrors < (items fuel cursor).2.log.totalErrors ∨
      (items fuel cursor).2.log = cursor.log ∧
        ItemsWritten (items fuel cursor).1 cursor.kinds := by
  induction fuel generalizing cursor with
  | zero => omega
  | succ fuel ih =>
      by_cases ended : (cursor.atEnd || cursor.log.isFull) = true
      · rw [items_succ, if_pos ended]
        rw [room, Bool.or_false, cursor.at_end_iff] at ended
        rw [ended]
        exact .inr ⟨rfl, .nil⟩
      · have sound : Sound (fuel + 1) item (Takes Item.Written) := .item
        have here := sound.clean cursor short room
        rcases items_round fuel ended with ⟨node, after, ran, goesOn⟩ | ⟨after, ran, goesOn⟩
        · rw [ran] at here
          rw [goesOn]
          rcases here with errors | ⟨_, _, read, log, le, kinds, written, split⟩
          · exact .inl (Nat.lt_of_lt_of_le errors (items_steady fuel after))
          · cases read
            have less := congrArg List.length split
            rw [List.length_append, Cursor.length_kinds, Cursor.length_kinds] at less
            have some := written.length_pos
            rw [split, ← log]
            rcases ih after (by omega) (by rw [log]; exact room) with errors | ⟨same, others⟩
            · exact .inl errors
            · exact .inr ⟨same, .cons written others⟩
        · rw [ran] at here
          rw [goesOn]
          rcases here with errors | ⟨_, _, read, _⟩
          · exact .inl (Nat.lt_of_lt_of_le errors (items_steady fuel after.recoverItem))
          · cases read

end Parse

/-- Tokens that are read without errors are a sentence, written by the tree that comes of it. -/
theorem SourceFile.parse_tokens_sound (file : SourceFile) (tokens : List Token)
    (clean : (file.parseTokens tokens).log.totalErrors = 0) :
    (file.parseTokens tokens).log = .empty ∧
      ItemsWritten (file.parseTokens tokens).tree.items (Cursor.ofTokens file tokens).kinds := by
  rw [file.items_parse_tokens]
  rw [file.log_parse_tokens] at clean ⊢
  rcases Parse.items_sound _ (Cursor.ofTokens file tokens) (Nat.lt_succ_self _) rfl with
    errors | written
  · exact absurd clean (Nat.pos_iff_ne_zero.mp (Nat.zero_lt_of_lt errors))
  · exact written

end Composer
