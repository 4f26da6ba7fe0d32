import Composer.Proofs.Declaration.Run

/-!
What stands behind the next end-of-file token. No parsing looks at it or steps over that token: a
cursor with other tokens there comes to the same, and these tokens are left where they are. The grammar
is gone through once, in `Parse.Blind`. Only the action for an item could take an end-of-file token,
and it is not asked for an item where nothing is ahead.
-/

namespace Composer

def Cursor.endingIn (cursor : Cursor) (tokens : List Token) : Cursor :=
  { cursor with beyond := tokens }

theorem Cursor.advance_ending_in {cursor : Cursor} (more : cursor.atEnd = false)
    (tokens : List Token) : (cursor.endingIn tokens).advance = cursor.advance.endingIn tokens := by
  obtain ⟨token, rest, ahead⟩ := ahead_of_more more
  rw [advance_of_ahead ahead, advance_of_ahead (show (cursor.endingIn tokens).ahead = _ from ahead)]
  rfl

namespace Parse

variable {Result Other State : Type}

/-- An action comes to the same whatever stands behind the next end-of-file token, and leaves that
where it is. -/
def Blind (action : Parse Result) : Prop :=
  ∀ cursor tokens, action (cursor.endingIn tokens) =
    ((action cursor).1, (action cursor).2.endingIn tokens)

namespace Blind

theorem leaves {action : Parse Result} (blind : Blind action) (cursor : Cursor) :
    (action cursor).2.beyond = cursor.beyond :=
  congrArg (fun outcome => outcome.2.beyond) (blind cursor cursor.beyond)

/-! ### Single steps -/

theorem pure (result : Result) : Blind (Pure.pure result) := fun _ _ => rfl

theorem fail : Blind (fail : Parse Result) := fun _ _ => rfl

theorem look {view : Cursor → Result}
    (same : ∀ cursor tokens, view (cursor.endingIn tokens) = view cursor) : Blind (look view) := by
  intro cursor tokens
  exact Prod.ext (congrArg some (same cursor tokens)) rfl

theorem kind : Blind kind := .look fun _ _ => rfl

theorem current_span : Blind currentSpan := .look fun _ _ => rfl

theorem previous_span : Blind previousSpan := .look fun _ _ => rfl

theorem span_from (start : Span) : Blind (spanFrom start) := .look fun _ _ => rfl

theorem report (code : ErrorCode) (message : String) (span : Span) :
    Blind (report code message span) :=
  fun _ _ => rfl

theorem bind {action : Parse Other} {next : Other → Parse Result} (first : Blind action)
    (second : ∀ result, Blind (next result)) : Blind (action >>= next) := by
  intro cursor tokens
  have early := first cursor tokens
  rcases bind_cases action next cursor with ⟨middle, ran, whole⟩ | ⟨result, middle, ran, whole⟩
  · rw [ran] at early
    rw [whole, bind_of_none early]
  · rw [ran] at early
    rw [whole, bind_of_some early, second result middle tokens]

theorem ite {condition : Prop} [Decidable condition] {yes no : Parse Result} (does : Blind yes)
    (fails : Blind no) : Blind (if condition then yes else no) := by
  split
  · exact does
  · exact fails

theorem unexpected (message : String) : Blind (unexpected message : Parse Result) :=
  .bind .current_span fun _ => .bind (.report _ _ _) fun _ => .fail

/-! ### Tokens -/

theorem eat {kind : TokenKind} (real : kind ≠ .endOfFile) : Blind (eat kind) := by
  intro cursor tokens
  have same : (cursor.endingIn tokens).check kind = cursor.check kind := rfl
  rw [Parse.eat, Parse.eat, same]
  split
  · next next => rw [Cursor.advance_ending_in (Cursor.at_end_of_check real next)]
  · rfl

theorem expect {kind : TokenKind} (real : kind ≠ .endOfFile) : Blind (expect kind) :=
  .bind (.eat real) fun _ => .ite .previous_span (.bind .kind fun _ => .unexpected _)

theorem word (spelling : String) : Blind (word spelling) :=
  .bind (.eat nofun) fun _ => .ite .previous_span (.bind .kind fun _ => .unexpected _)

theorem identifier : Blind identifier := by
  intro cursor tokens
  have same : (cursor.endingIn tokens).kind = cursor.kind := rfl
  rw [Parse.identifier, kind_run, kind_run, same]
  cases next : cursor.kind with
  | identifier name =>
      have more := Cursor.at_end_of_check TokenKind.noConfusion (Cursor.check_iff.mpr next)
      change (some (Ident.mk name (cursor.endingIn tokens).advance.previous),
        (cursor.endingIn tokens).advance) = _
      rw [Cursor.advance_ending_in more]
      rfl
  | keyword word => rfl
  | mark sign => rfl
  | endOfFile => rfl

/-! ### Repetition -/

theorem with_fuel {action : Nat → Parse Result} (each : ∀ fuel, Blind (action fuel)) :
    Blind (withFuel action) :=
  fun cursor tokens => each _ cursor tokens

theorem led {lead : TokenKind} (real : lead ≠ .endOfFile) {stop : Cursor → Bool}
    (same : ∀ cursor tokens, stop (cursor.endingIn tokens) = stop cursor) {element : Parse Result}
    (each : Blind element) (fuel : Nat) : Blind (led lead stop element fuel) := by
  induction fuel with
  | zero => exact .fail
  | succ fuel ih =>
      exact .bind (.eat real) fun _ => .ite
        (.bind (.look same) fun _ => .ite (.pure _)
          (.bind each fun _ => .bind ih fun _ => .pure _))
        (.pure _)

theorem up_to (close : TokenKind) {element : Parse Result} (each : Blind element) (fuel : Nat) :
    Blind (upTo close element fuel) := by
  induction fuel with
  | zero => exact .fail
  | succ fuel ih =>
      exact .bind (.look fun _ _ => rfl) fun _ => .ite (.pure _)
        (.bind each fun _ => .bind (.eat nofun) fun _ => .ite (.bind ih fun _ => .pure _) (.pure _))

/-- Skipping a broken member ends in front of an end-of-file token. -/
theorem members {step : State → Parse State} (each : ∀ state, Blind (step state)) (fuel : Nat)
    (state : State) : Blind (members step fuel state) := by
  induction fuel generalizing state with
  | zero => exact .fail
  | succ fuel ih =>
      intro cursor tokens
      have closed : ((cursor.endingIn tokens).check (.mark .rightBrace) ||
          (cursor.endingIn tokens).atEnd) = (cursor.check (.mark .rightBrace) || cursor.atEnd) := rfl
      have full : (cursor.endingIn tokens).log = cursor.log := rfl
      rw [members_succ, members_succ, closed, full, each state cursor tokens]
      split
      · rfl
      · split
        · rfl
        · rcases step state cursor with ⟨_ | next, after⟩
          · exact ih state after.recoverMember tokens
          · exact ih next after tokens

theorem closing (opened : Span) : Blind (closing opened) :=
  .bind (.eat nofun) fun _ => .ite (.pure _) (.bind (.report _ _ _) fun _ => .fail)

theorem block {step : State → Parse State} (each : ∀ state, Blind (step state)) (initial : State) :
    Blind (block step initial) :=
  .bind (.expect nofun) fun _ => .bind (.with_fuel fun fuel => .members each fuel initial) fun _ =>
    .bind (.closing _) fun _ => .pure _

theorem list_block {member : Parse Result} (each : Blind member) : Blind (listBlock member) :=
  .block (fun _ => .bind each fun _ => .pure _) []

/-! ### Types -/

theorem path_with {argument : Parse TypeExpr} (each : Blind argument) : Blind (pathWith argument) :=
  .bind .current_span fun _ => .bind .identifier fun _ =>
    .bind (.with_fuel fun fuel => .led TokenKind.noConfusion (fun _ _ => rfl) .identifier fuel)
      fun _ => .bind (.eat nofun) fun _ => .ite
        (.bind each fun _ =>
          .bind (.with_fuel fun fuel => .led TokenKind.noConfusion (fun _ _ => rfl) each fuel)
            fun _ => .bind (.expect nofun) fun _ =>
              .bind (.pure _) fun _ => .bind (.span_from _) fun _ => .pure _)
        (.bind (.pure _) fun _ => .bind (.span_from _) fun _ => .pure _)

theorem type_within (depth : Nat) : Blind (typeWithin depth) := by
  induction depth with
  | zero => exact .fail
  | succ depth ih =>
      rw [type_within_succ]
      exact .bind .current_span fun _ => .bind (.eat nofun) fun _ => .ite
        (.bind ih fun _ => .bind (.span_from _) fun _ => .pure _)
        (.bind (.eat nofun) fun _ => .ite
          (.bind (.with_fuel fun fuel => .up_to _ ih fuel) fun _ => .bind (.expect nofun) fun _ =>
            .bind (.span_from _) fun _ => .pure _)
          (.bind (.path_with ih) fun _ => .pure _))

theorem type : Blind type := .with_fuel .type_within

theorem path : Blind path := .path_with .type

/-! ### Attributes and methods -/

theorem attribute_body : Blind attributeBody :=
  .bind .previous_span fun _ => .bind (.expect nofun) fun _ => .bind .identifier fun _ =>
    .bind (.eat nofun) fun _ => .ite
      (.bind (.with_fuel fun fuel => .up_to _ .identifier fuel) fun _ =>
        .bind (.expect nofun) fun _ => .bind (.pure _) fun _ => .bind (.expect nofun) fun _ =>
          .bind (.span_from _) fun _ => .pure _)
      (.bind (.pure _) fun _ => .bind (.expect nofun) fun _ => .bind (.span_from _) fun _ => .pure _)

theorem attributes : Blind attributes :=
  .with_fuel fun fuel => .led TokenKind.noConfusion (fun _ _ => rfl) .attribute_body fuel

theorem receiver : Blind receiver := by
  refine .bind .current_span fun _ => .bind (.eat nofun) fun _ => .bind (.eat nofun) fun _ => .ite ?_
    (.bind .kind fun _ => .bind (.unexpected _) fun _ => ?_)
  all_goals
    refine .bind (.expect nofun) fun _ => .bind .type fun _ => ?_
    split
    · exact .bind (.report _ _ _) fun _ => .fail
    · exact .bind (.span_from _) fun _ => .pure _
    · exact .bind (.span_from _) fun _ => .pure _
    · exact .bind (.report _ _ _) fun _ => .fail

theorem param : Blind param :=
  .bind .current_span fun _ => .bind .identifier fun _ => .bind (.expect nofun) fun _ =>
    .bind .type fun _ => .bind (.span_from _) fun _ => .pure _

theorem method : Blind method :=
  .bind .current_span fun _ => .bind (.expect nofun) fun _ => .bind .identifier fun _ =>
    .bind (.expect nofun) fun _ => .bind .receiver fun _ =>
      .bind (.with_fuel fun fuel => .led TokenKind.noConfusion (fun _ _ => rfl) .param fuel) fun _ =>
        .bind (.expect nofun) fun _ => .bind (.eat nofun) fun _ => .ite
          (.bind .type fun _ => .bind (.pure _) fun _ => .bind (.expect nofun) fun _ =>
            .bind (.span_from _) fun _ => .pure _)
          (.bind (.pure _) fun _ => .bind (.expect nofun) fun _ =>
            .bind (.span_from _) fun _ => .pure _)

/-! ### Storage and events -/

theorem end_of_member : Blind endOfMember :=
  .bind (.eat nofun) fun _ => .ite (.pure _)
    (.bind (.look fun _ _ => rfl) fun _ => .ite (.pure _)
      (.bind (.expect nofun) fun _ => .pure _))

theorem storage_member : Blind storageMember :=
  .bind .current_span fun _ => .bind .attributes fun _ => .bind .identifier fun _ =>
    .bind (.expect nofun) fun _ => .bind .type fun _ => .bind (.span_from _) fun _ =>
      .bind .end_of_member fun _ => .pure _

theorem storage_block : Blind storageBlock :=
  .bind .current_span fun _ => .bind (.expect nofun) fun _ => .bind (.list_block .storage_member)
    fun _ => .bind (.span_from _) fun _ => .pure _

theorem event_variant : Blind eventVariant :=
  .bind .current_span fun _ => .bind .attributes fun _ => .bind .identifier fun _ =>
    .bind (.eat nofun) fun _ => .ite
      (.bind .type fun _ => .bind (.pure _) fun _ => .bind (.span_from _) fun _ =>
        .bind .end_of_member fun _ => .pure _)
      (.bind (.pure _) fun _ => .bind (.span_from _) fun _ => .bind .end_of_member fun _ => .pure _)

theorem event_block : Blind eventBlock :=
  .bind .current_span fun _ => .bind (.expect nofun) fun _ => .bind (.list_block .event_variant)
    fun _ => .bind (.span_from _) fun _ => .pure _

theorem keep_first {Block : Type} (present : Option Block) (block : Block) (word owner : String)
    (span : Span) : Blind (keepFirst present block word owner span) := by
  cases present with
  | none => exact .pure _
  | some first => exact .bind (.report _ _ _) fun _ => .pure _

/-! ### Members of components and contracts -/

theorem interface : Blind interface :=
  .bind .current_span fun _ => .bind (.expect nofun) fun _ => .bind .identifier fun _ =>
    .bind (.list_block .method) fun _ => .bind (.span_from _) fun _ => .pure _

theorem start_behind (attributes : List Attribute) : Blind (startBehind attributes) := by
  rw [startBehind]
  split
  · exact .pure _
  · exact .current_span

theorem implementation (attributes : List Attribute) : Blind (implementation attributes) :=
  .bind (.start_behind _) fun _ => .bind (.expect nofun) fun _ => .bind .identifier fun _ =>
    .bind (.eat nofun) fun _ => .ite
      (.bind .identifier fun _ => .bind (.eat nofun) fun _ => .ite
        (.bind (.pure _) fun _ => .bind (.span_from _) fun _ => .pure _)
        (.bind (.list_block .method) fun _ => .bind (.span_from _) fun _ => .pure _))
      (.bind (.list_block .method) fun _ => .bind (.span_from _) fun _ => .pure _)

theorem inclusion : Blind inclusion :=
  .bind .current_span fun _ => .bind (.expect nofun) fun _ => .bind (.expect nofun) fun _ =>
    .bind (.expect nofun) fun _ => .bind (.word _) fun _ => .bind (.expect nofun) fun _ =>
    .bind .identifier fun _ => .bind (.expect nofun) fun _ => .bind (.expect nofun) fun _ =>
    .bind (.expect nofun) fun _ => .bind .identifier fun _ => .bind (.expect nofun) fun _ =>
    .bind (.expect nofun) fun _ => .bind (.expect nofun) fun _ => .bind .identifier fun _ =>
    .bind (.eat nofun) fun _ => .bind (.expect nofun) fun _ => .bind (.span_from _) fun _ =>
    .bind (.expect nofun) fun _ => .pure _

theorem exposure (attributes : List Attribute) : Blind (exposure attributes) :=
  .bind (.start_behind _) fun _ => .bind (.expect nofun) fun _ => .bind .identifier fun _ =>
    .bind (.expect nofun) fun _ => .bind .path fun _ => .bind (.expect nofun) fun _ =>
      .bind (.span_from _) fun _ => .pure _

theorem unexpected_member (attributes : List Attribute) (expected : String) (found : TokenKind) :
    Blind (unexpectedMember attributes expected found : Parse Result) := by
  cases attributes with
  | nil => exact .unexpected _
  | cons first others => exact .unexpected _

theorem component_member (decl : ComponentDecl) : Blind (componentMember decl) := by
  refine .bind .attributes fun _ => .bind .kind fun _ => ?_
  split
  · exact .bind .storage_block fun _ => .bind (.keep_first _ _ _ _ _) fun _ => .pure _
  · exact .bind .event_block fun _ => .bind (.keep_first _ _ _ _ _) fun _ => .pure _
  · exact .bind .interface fun _ => .pure _
  · exact .bind (.implementation _) fun _ => .pure _
  · exact .unexpected_member _ _ _

theorem component : Blind component :=
  .bind .current_span fun _ => .bind (.expect nofun) fun _ => .bind .identifier fun _ =>
    .bind (.block .component_member _) fun _ => .bind (.span_from _) fun _ => .pure _

theorem contract_member (decl : ContractDecl) : Blind (contractMember decl) := by
  refine .bind .attributes fun _ => .bind .kind fun _ => ?_
  split
  · exact .bind .inclusion fun _ => .pure _
  · exact .bind (.exposure _) fun _ => .pure _
  · exact .bind .storage_block fun _ => .bind (.keep_first _ _ _ _ _) fun _ => .pure _
  · exact .bind .event_block fun _ => .bind (.keep_first _ _ _ _ _) fun _ => .pure _
  · exact .unexpected_member _ _ _

theorem contract : Blind contract :=
  .bind .current_span fun _ => .bind (.expect nofun) fun _ => .bind .identifier fun _ =>
    .bind (.block .contract_member _) fun _ => .bind (.span_from _) fun _ => .pure _

end Blind

/-! ### Items -/

theorem item_ending_in {cursor : Cursor} (more : cursor.atEnd = false) (tokens : List Token) :
    item (cursor.endingIn tokens) = ((item cursor).1, (item cursor).2.endingIn tokens) := by
  have same : (cursor.endingIn tokens).kind = cursor.kind := rfl
  rw [item, kind_run, kind_run, same]
  generalize cursor.kind = found
  split
  · exact Blind.bind .component (fun _ => .pure _) cursor tokens
  · exact Blind.bind .contract (fun _ => .pure _) cursor tokens
  · have reported (message : String) :
        (cursor.report .unexpectedToken message cursor.span).atEnd = false := more
    exact Prod.ext rfl (Cursor.advance_ending_in (reported _) tokens)

/-- Items are read up to the next end-of-file token, and nothing behind it matters. -/
theorem items_ending_in (fuel : Nat) (cursor : Cursor) (tokens : List Token) :
    items fuel (cursor.endingIn tokens) =
      ((items fuel cursor).1, (items fuel cursor).2.endingIn tokens) := by
  induction fuel generalizing cursor with
  | zero => rfl
  | succ fuel ih =>
      have ends : ((cursor.endingIn tokens).atEnd || (cursor.endingIn tokens).log.isFull) =
          (cursor.atEnd || cursor.log.isFull) := rfl
      by_cases ended : (cursor.atEnd || cursor.log.isFull) = true
      · rw [items_succ, items_succ, ends, if_pos ended, if_pos ended]
      · have more := (Bool.or_eq_false_iff.mp (eq_false_of_ne_true ended)).1
        rw [items_succ, items_succ, ends, if_neg ended, if_neg ended, item_ending_in more]
        rcases item cursor with ⟨_ | node, after⟩
        · exact ih after.recoverItem
        · dsimp only
          rw [ih after]

end Parse

end Composer
