import Composer.Proofs.Declaration.Pairing.Rules

/-!
The grammar side by side. Two readings that are at the same place agree on the construct there. The
only places where they can part lie behind the words that open blocks; what happens there is left to
the one who compares the readings.
-/

namespace Composer

namespace Parse

def interfaceBehind (start : Span) : Parse InterfaceDecl := do
  let name ← identifier
  let methods ← listBlock method
  return ⟨name, methods, ← spanFrom start⟩

def implementationBehind (attributes : List Attribute) (start : Span) : Parse ImplDecl := do
  let name ← identifier
  if ← eat (.keyword .of) then
    let interface ← identifier
    let methods ← do
      if ← eat (.mark .semicolon) then pure [] else listBlock method
    return ⟨attributes, name, some interface, methods, ← spanFrom start⟩
  else
    let methods ← listBlock method
    return ⟨attributes, name, none, methods, ← spanFrom start⟩

def exposureBehind (attributes : List Attribute) (start : Span) : Parse ExposureDecl := do
  let localName ← identifier
  let _ ← expect (.mark .equal)
  let target ← path
  let _ ← expect (.mark .semicolon)
  return ⟨attributes, localName, target, ← spanFrom start⟩

def storageBody : Parse MemberDecl := do
  let start ← currentSpan
  let attributes ← attributes
  let name ← identifier
  let _ ← expect (.mark .colon)
  let type ← type
  return ⟨attributes, name, type, ← spanFrom start⟩

def variantBody : Parse VariantDecl := do
  let start ← currentSpan
  let attributes ← attributes
  let name ← identifier
  let payload ← do
    if ← eat (.mark .colon) then pure (some (← type)) else pure none
  return ⟨attributes, name, payload, ← spanFrom start⟩

/-- A method up to the semicolon behind it, with the span where it starts. -/
def methodHead : Parse (Span × (Span → MethodDecl)) := do
  let start ← currentSpan
  let _ ← expect (.keyword .fn)
  let name ← identifier
  let _ ← expect (.mark .leftParen)
  let receiver ← receiver
  let params ← withFuel (led (.mark .comma) (·.check (.mark .rightParen)) param)
  let _ ← expect (.mark .rightParen)
  let ret ← do
    if ← eat (.mark .arrow) then pure (some (← type)) else pure none
  return (start, MethodDecl.mk name receiver params ret)

/-- A component up to the brace that closes it, with the span where it starts and that of its opening
brace. -/
def componentHead : Parse (Span × Span × ComponentDecl) := do
  let start ← currentSpan
  let _ ← expect (.keyword .component)
  let name ← identifier
  let opened ← expect (.mark .leftBrace)
  let decl ← withFuel fun fuel => members componentMember fuel
    { name, storage := none, event := none, interfaces := [], impls := [], span := start }
  return (start, opened, decl)

def contractHead : Parse (Span × Span × ContractDecl) := do
  let start ← currentSpan
  let _ ← expect (.keyword .contract)
  let name ← identifier
  let opened ← expect (.mark .leftBrace)
  let decl ← withFuel fun fuel => members contractMember fuel
    { name, inclusions := [], exposures := [], storage := none, event := none, span := start }
  return (start, opened, decl)

variable {Result Other Last : Type}

theorem bind_assoc (action : Parse Other) (next : Other → Parse Result)
    (last : Result → Parse Last) :
    (action >>= next) >>= last = action >>= fun other => next other >>= last := by
  funext cursor
  rcases bind_cases action next cursor with ⟨middle, ran, whole⟩ | ⟨other, middle, ran, whole⟩
  · rw [bind_of_none whole, bind_of_none ran]
  · rw [bind_of_some ran]
    rcases bind_cases (next other) last middle with ⟨stop, ranOn, both⟩ | ⟨result, stop, ranOn, both⟩
    · rw [bind_of_none (whole.trans ranOn), both]
    · rw [bind_of_some (whole.trans ranOn), both]

theorem pure_bind (result : Other) (next : Other → Parse Result) :
    pure result >>= next = next result :=
  rfl

theorem ite_bind {condition : Prop} [Decidable condition] (yes no : Parse Other)
    (next : Other → Parse Result) :
    (if condition then yes else no) >>= next =
      if condition then yes >>= next else no >>= next := by
  split <;> rfl

def listed {Node : Type} (body : Parse Node) : Parse Node := do
  let node ← body
  endOfMember
  return node

theorem storage_member_eq : storageMember = listed storageBody := by
  simp only [storageMember, storageBody, listed, bind_assoc, pure_bind]

theorem event_variant_eq : eventVariant = listed variantBody := by
  simp only [eventVariant, variantBody, listed, bind_assoc, ite_bind, pure_bind]

theorem method_eq : method = do
    let (start, node) ← methodHead
    let _ ← expect (.mark .semicolon)
    return node (← spanFrom start) := by
  simp only [method, methodHead, bind_assoc, ite_bind, pure_bind]

/-- A construct up to the brace that closes it, that brace, and the node with its span. -/
def closed {State Node : Type} (head : Parse (Span × Span × State)) (node : State → Span → Node) :
    Parse Node := do
  let (start, opened, state) ← head
  closing opened
  return node state (← spanFrom start)

theorem component_eq : component = closed componentHead fun decl span => { decl with span } := by
  simp only [component, componentHead, closed, block, bind_assoc, pure_bind]

theorem contract_eq : contract = closed contractHead fun decl span => { decl with span } := by
  simp only [contract, contractHead, closed, block, bind_assoc, pure_bind]

end Parse

namespace Pairing

open Parse

def AgreesBehind (pairing : Pairing) : Keyword → Prop
  | .storage => ∀ bound,
      Agree pairing bound pairing.Meets (pairing.Joins true) (listBlock Parse.storageMember)
        (listBlock Parse.storageMember)
  | .event => ∀ bound,
      Agree pairing bound pairing.Meets (pairing.Joins true) (listBlock Parse.eventVariant)
        (listBlock Parse.eventVariant)
  | .interface => ∀ bound start,
      Agree pairing bound pairing.Meets (pairing.Joins true) (interfaceBehind start)
        (interfaceBehind start)
  | .impl => ∀ bound attributes start,
      Agree pairing bound pairing.Meets (pairing.Joins true)
        (implementationBehind attributes start) (implementationBehind attributes start)
  | _ => True

/-- The two readings come together again: where they part behind the word of a block, the blocks
agree, and no other construct goes on there. -/
structure Crosses (pairing : Pairing) : Prop where
  behind {word : Keyword} : pairing.Opens word → pairing.AgreesBehind word
  inclusion {word : Keyword} {left right : Cursor} : pairing.Opens word →
    pairing.Meets left right → left.check (.mark .colon) = false
  exposure {left right : Cursor} {name : String} : pairing.Opens .impl →
    pairing.Meets left right → left.check (.identifier name) = true →
      left.advance.check (.mark .equal) = false

/-- Readings that never part. -/
theorem crosses_of_closed {pairing : Pairing} (closed : ∀ word, ¬pairing.Opens word) :
    pairing.Crosses := by
  constructor
  · exact fun opens => absurd opens (closed _)
  · exact fun opens => absurd opens (closed _)
  · exact fun opens => absurd opens (closed _)

end Pairing

namespace Parse

namespace Agree

variable {Result : Type} {pairing : Pairing} {bound : Nat} {known : Bool} {after : Bond}
  {first second : Parse Result}

/-- Where the first action cannot succeed, there is nothing to agree on. -/
theorem of_stuck {before otherwise : Bond} (agree : Agree pairing bound before after first second)
    (stuck : ∀ left right, otherwise left right → (first left).1 = none) :
    Agree pairing bound otherwise after first second := by
  constructor
  · exact agree.forward
  · exact agree.other
  · intro left right stop result joins _ ran _
    have broken := stuck left right joins
    rw [ran] at broken
    cases broken

/-- Behind a word the readings are at the same place or part; either way they can agree. -/
theorem behind_word {word : Keyword}
    (agree : Agree pairing bound (pairing.Joins true) after first second)
    (crosses : pairing.Opens word → Agree pairing bound pairing.Meets after first second) :
    Agree pairing bound
      (fun left right => pairing.Joins true left right ∨
        pairing.Opens word ∧ pairing.Meets left right) after first second := by
  apply either agree
  constructor
  · exact agree.forward
  · exact agree.other
  · intro left right stop result parted short ran clean
    exact (crosses parted.1).agree parted.2 short ran clean

/-- The span and the node at the end of a construct. -/
theorem spanned (start : Span) (node : Span → Result) :
    Agree pairing bound (pairing.Joins true) (pairing.Joins true)
      (do return node (← spanFrom start)) (do return node (← spanFrom start)) :=
  .bind (.span_from start) fun _ => .pure _

theorem look_yes_no {view : Cursor → Bool} {yes no yesToo noToo : Parse Result} {before : Bond}
    (same : ∀ left right, before left right → view left = view right)
    (does : Agree pairing bound before after yes yesToo)
    (fails : Agree pairing bound before after no noToo) :
    Agree pairing bound before after
      (Parse.look view >>= fun found => if found = true then yes else no)
      (Parse.look view >>= fun found => if found = true then yesToo else noToo) :=
  .bind (.look same) fun _ => .ite does fails

/-! ### Types -/

theorem path_with {argument twin : Parse TypeExpr}
    (agree : Agree pairing (bound - 1) (pairing.Joins true) (pairing.Joins true) argument twin) :
    Agree pairing bound (pairing.Joins known) (pairing.Joins true) (pathWith argument)
      (pathWith twin) := by
  apply bind .current_span
  intro start
  apply bind .identifier
  intro name
  apply bind (.all_led (fun _ _ _ => rfl) .identifier)
  intro others
  apply eat_else TokenKind.noConfusion (Pairing.closed_mark _)
  · apply bind agree
    intro argument
    apply bind
    · apply with_fuel
      intro fuel more
      exact led TokenKind.noConfusion (Pairing.closed_mark _) (fun _ _ joins => joins.check _) agree
        fuel more
    · intro arguments
      apply bind (.expect_mark _)
      intro closed
      exact spanned start _
  · exact spanned start _

/-- Each level of nesting takes a token, so the fuel for the depth lasts as long as that for the
tokens. -/
theorem type_within (depth more : Nat) :
    Agree pairing (min bound more) (pairing.Joins known) (pairing.Joins true) (typeWithin depth)
      (typeWithin more) := by
  have forward (depth : Nat) : Forward (typeWithin depth) :=
    .of_keeps fun _ => .type_within depth
  induction depth generalizing bound more known with
  | zero => exact fail.mpr (forward more)
  | succ depth ih =>
      cases more with
      | zero =>
          rw [Nat.min_zero]
          exact .of_no_room (forward _) .fail
      | succ more =>
          have deeper (known : Bool) : Agree pairing (min bound (more + 1) - 1)
              (pairing.Joins known) (pairing.Joins true) (typeWithin depth) (typeWithin more) := by
            have within : Agree pairing (min bound more) (pairing.Joins known) (pairing.Joins true)
              (typeWithin depth) (typeWithin more) := ih more
            exact within.within (by omega)
          rw [type_within_succ, type_within_succ]
          apply bind .current_span
          intro start
          apply eat_else TokenKind.noConfusion (Pairing.closed_mark _)
          · apply bind (deeper true)
            intro inner
            exact spanned start _
          · apply eat_else TokenKind.noConfusion (Pairing.closed_mark _)
            · apply bind
              · apply with_fuel
                intro fuel more
                exact up_to (deeper true) fuel more
              · intro items
                apply bind (.expect_mark _)
                intro closed
                exact spanned start _
            · apply bind (.path_with (deeper true))
              intro path
              exact pure _

theorem type : Agree pairing bound (pairing.Joins known) (pairing.Joins true) type type :=
  .with_fuel type_within

theorem path : Agree pairing bound (pairing.Joins known) (pairing.Joins true) path path :=
  .path_with .type

/-! ### Attributes and methods -/

theorem attribute_body :
    Agree pairing bound (pairing.Joins true) (pairing.Joins true) attributeBody attributeBody := by
  apply bind .previous_span
  intro start
  apply bind (.expect_mark _)
  intro opened
  apply bind .identifier
  intro name
  apply eat_else TokenKind.noConfusion (Pairing.closed_mark _)
  · apply bind (.comma_list .identifier)
    intro args
    apply bind (.expect_mark _)
    intro closed
    apply bind (.expect_mark _)
    intro ended
    exact spanned start _
  · apply bind (.expect_mark _)
    intro ended
    exact spanned start _

theorem attributes :
    Agree pairing bound (pairing.Joins known) (pairing.Joins known) attributes attributes :=
  .all_led (fun _ _ _ => rfl) .attribute_body

theorem receiver :
    Agree pairing bound (pairing.Joins known) (pairing.Joins true) receiver receiver := by
  apply bind .current_span
  intro start
  apply bind (.eat TokenKind.noConfusion (Pairing.closed_keyword (by decide)))
  intro isReference
  have refused (bound : Nat) (message : String) (span : Span) :
      Agree pairing bound (pairing.Joins true) (pairing.Joins true)
        (report .unexpectedToken message span >>= fun _ => (Parse.fail : Parse Receiver))
        (report .unexpectedToken message span >>= fun _ => Parse.fail) := by
    apply of_reported
    · exact .bind (.report _ _ _) fun _ => .fail
    · exact .bind (.report _ _ _) fun _ => .fail
    · intro left stop result ran
      cases ran
  apply eat_else TokenKind.noConfusion (Pairing.closed_keyword (by decide))
  · apply bind (.expect_mark _)
    intro colon
    apply bind .type
    intro type
    split
    · exact refused _ _ _
    · exact spanned start _
    · exact spanned start _
    · exact refused _ _ _
  · apply bind .kind
    intro kind
    apply bind (.unexpected _ _ : Agree pairing _ _ (pairing.Joins true) _ _)
    intro stopped
    apply bind (.expect_mark _)
    intro colon
    apply bind .type
    intro type
    split
    · exact refused _ _ _
    · exact spanned start _
    · exact spanned start _
    · exact refused _ _ _

theorem param : Agree pairing bound (pairing.Joins known) (pairing.Joins true) param param := by
  apply bind .current_span
  intro start
  apply bind .identifier
  intro name
  apply bind (.expect_mark _)
  intro colon
  apply bind .type
  intro type
  exact spanned start _

theorem method_head :
    Agree pairing bound (pairing.Joins known) (pairing.Joins true) methodHead methodHead := by
  apply bind .current_span
  intro start
  apply bind (.expect_keyword (by decide))
  intro fn
  apply bind .identifier
  intro name
  apply bind (.expect_mark _)
  intro opened
  apply bind .receiver
  intro receiver
  apply bind (.all_led (fun _ _ joins => joins.check _) .param)
  intro params
  apply bind (.expect_mark _)
  intro closed
  apply eat_else TokenKind.noConfusion (Pairing.closed_mark _)
  · apply bind .type
    intro ret
    exact pure _
  · exact pure _

theorem method : Agree pairing bound (pairing.Joins known) (pairing.Joins true) method method := by
  rw [method_eq]
  apply bind .method_head
  intro head
  apply bind (.expect_mark _)
  intro ended
  exact spanned _ _

/-! ### Storage and events -/

theorem end_of_member :
    Agree pairing bound (pairing.Joins true) (pairing.Joins true) endOfMember endOfMember := by
  apply eat_else TokenKind.noConfusion (Pairing.closed_mark _)
  · exact pure ()
  · apply look_yes_no fun _ _ joins => joins.check _
    · exact pure ()
    · apply bind (.expect_mark _)
      intro comma
      exact pure ()

theorem listed {Node : Type} {body : Parse Node}
    (agree : Agree pairing bound (pairing.Joins known) (pairing.Joins true) body body) :
    Agree pairing bound (pairing.Joins known) (pairing.Joins true) (listed body)
      (Parse.listed body) := by
  apply bind agree
  intro node
  apply bind .end_of_member
  intro ended
  exact pure node

theorem storage_body :
    Agree pairing bound (pairing.Joins known) (pairing.Joins true) storageBody storageBody := by
  apply bind .current_span
  intro start
  apply bind .attributes
  intro attributes
  apply bind .identifier
  intro name
  apply bind (.expect_mark _)
  intro colon
  apply bind .type
  intro type
  exact spanned start _

theorem storage_member :
    Agree pairing bound (pairing.Joins known) (pairing.Joins true) storageMember
      storageMember := by
  rw [storage_member_eq]
  exact listed .storage_body

theorem variant_body :
    Agree pairing bound (pairing.Joins known) (pairing.Joins true) variantBody variantBody := by
  apply bind .current_span
  intro start
  apply bind .attributes
  intro attributes
  apply bind .identifier
  intro name
  apply eat_else TokenKind.noConfusion (Pairing.closed_mark _)
  · apply bind .type
    intro payload
    exact spanned start _
  · exact spanned start _

theorem event_variant :
    Agree pairing bound (pairing.Joins known) (pairing.Joins true) eventVariant eventVariant := by
  rw [event_variant_eq]
  exact listed .variant_body

/-! ### Behind the words of members -/

theorem keep_first {Block : Type} (present : Option Block) (block : Block) (word owner : String)
    (span : Span) :
    Agree pairing bound (pairing.Joins known) (pairing.Joins known)
      (keepFirst present block word owner span) (keepFirst present block word owner span) := by
  cases present with
  | none => exact pure (some block)
  | some present =>
      apply of_reported
      · exact .bind (.report _ _ _) fun _ => .pure _
      · exact .bind (.report _ _ _) fun _ => .pure _
      · intro left stop result ran
        cases ran
        exact Nat.lt_succ_self _

theorem start_behind (attributes : List Attribute) :
    Agree pairing bound (pairing.Joins known) (pairing.Joins known) (startBehind attributes)
      (startBehind attributes) := by
  unfold startBehind
  cases attributes.head? with
  | none => exact current_span
  | some first => exact pure first.span

theorem unexpected_member (attributes : List Attribute) (expected : String) (found : TokenKind) :
    Agree pairing bound (pairing.Joins known) after
      (unexpectedMember attributes expected found : Parse Result)
      (unexpectedMember attributes expected found) := by
  unfold unexpectedMember
  split
  · exact unexpected _ _
  · exact unexpected _ _

theorem interface_behind (start : Span) :
    Agree pairing bound (pairing.Joins known) (pairing.Joins true) (interfaceBehind start)
      (interfaceBehind start) := by
  apply bind .identifier
  intro name
  apply bind (.list_block .methods fun _ => .method)
  intro methods
  exact spanned start _

theorem implementation_behind (attributes : List Attribute) (start : Span) :
    Agree pairing bound (pairing.Joins known) (pairing.Joins true)
      (implementationBehind attributes start) (implementationBehind attributes start) := by
  apply bind .identifier
  intro name
  apply eat_else TokenKind.noConfusion (Pairing.closed_keyword (by decide))
  · apply bind .identifier
    intro interface
    apply eat_else TokenKind.noConfusion (Pairing.closed_mark _)
    · exact spanned start _
    · apply bind (.list_block .methods fun _ => .method)
      intro methods
      exact spanned start _
  · apply bind (.list_block .methods fun _ => .method)
    intro methods
    exact spanned start _

theorem exposure_behind (attributes : List Attribute) (start : Span) :
    Agree pairing bound (pairing.Joins known) (pairing.Joins true) (exposureBehind attributes start)
      (exposureBehind attributes start) := by
  apply bind .identifier
  intro localName
  apply bind (.expect_mark _)
  intro equal
  apply bind .path
  intro target
  apply bind (.expect_mark _)
  intro ended
  exact spanned start _

/-! ### Members of components and contracts -/

section Blocks

variable (crosses : pairing.Crosses)
include crosses

theorem storage_block :
    Agree pairing bound (pairing.Joins known) (pairing.Joins true) storageBlock storageBlock := by
  apply bind .current_span
  intro start
  apply bind (.expect_word _)
  intro word
  apply bind (.behind_word (.list_block .storage fun _ => .storage_member) fun opens =>
    (crosses.behind opens : pairing.AgreesBehind .storage) _)
  intro members
  exact spanned start _

theorem event_block :
    Agree pairing bound (pairing.Joins known) (pairing.Joins true) eventBlock eventBlock := by
  apply bind .current_span
  intro start
  apply bind (.expect_word _)
  intro word
  apply bind (.behind_word (.list_block .event fun _ => .event_variant) fun opens =>
    (crosses.behind opens : pairing.AgreesBehind .event) _)
  intro variants
  exact spanned start _

/-! ### Members of components and contracts -/

theorem interface :
    Agree pairing bound (pairing.Joins known) (pairing.Joins true) interface interface := by
  apply bind .current_span
  intro start
  apply bind (.expect_word _)
  intro word
  exact behind_word (.interface_behind start) fun opens => crosses.behind opens _ start

theorem implementation (attributes : List Attribute) :
    Agree pairing bound (pairing.Joins known) (pairing.Joins true) (implementation attributes)
      (implementation attributes) := by
  apply bind (.start_behind attributes)
  intro start
  apply bind (.expect_word _)
  intro word
  exact behind_word (.implementation_behind attributes start) fun opens =>
    crosses.behind opens _ attributes start

theorem component_member (decl : ComponentDecl) :
    Agree pairing bound (pairing.Joins known) (pairing.Joins true) (componentMember decl)
      (componentMember decl) := by
  apply bind .attributes
  intro attributes
  apply bind .kind
  intro kind
  split
  · apply bind (.storage_block crosses)
    intro block
    apply bind (.keep_first _ _ _ _ _)
    intro storage
    exact pure _
  · apply bind (.event_block crosses)
    intro block
    apply bind (.keep_first _ _ _ _ _)
    intro event
    exact pure _
  · apply bind (.interface crosses)
    intro interface
    exact pure _
  · apply bind (.implementation crosses _)
    intro impl
    exact pure _
  · exact unexpected_member _ _ _

/-- Behind a word that the readings can part at, there is no colon. -/
theorem colon_behind (word : Keyword) :
    Agree pairing bound
      (fun left right => pairing.Joins true left right ∨
        pairing.Opens word ∧ pairing.Meets left right)
      (pairing.Joins true) (Parse.expect (.mark .colon)) (Parse.expect (.mark .colon)) := by
  apply behind_word (.expect_mark _)
  intro opens
  apply of_stuck (.expect_mark _ : Agree pairing _ (pairing.Joins true) _ _ _)
  intro left right meets
  rcases expect_missing (crosses.inclusion opens meets) with ⟨message, missing⟩
  rw [missing]

theorem inclusion :
    Agree pairing bound (pairing.Joins known) (pairing.Joins true) inclusion inclusion := by
  apply bind .current_span
  intro start
  apply bind (.expect_keyword (by decide))
  intro word
  apply bind (.expect_mark _)
  intro bang
  apply bind (.expect_mark _)
  intro opened
  apply bind (.word _)
  intro pathWord
  apply bind (.expect_mark _)
  intro colon
  apply bind .identifier
  intro path
  apply bind (.expect_mark _)
  intro comma
  apply bind (.expect_word _)
  intro storageWord
  apply bind (.colon_behind crosses _)
  intro storageColon
  apply bind .identifier
  intro storage
  apply bind (.expect_mark _)
  intro storageComma
  apply bind (.expect_word _)
  intro eventWord
  apply bind (.colon_behind crosses _)
  intro eventColon
  apply bind .identifier
  intro event
  apply bind (.eat TokenKind.noConfusion (Pairing.closed_mark _))
  intro trailing
  apply bind (.expect_mark _)
  intro closed
  apply bind (.span_from start)
  intro span
  apply bind (.expect_mark _)
  intro ended
  exact pure _

theorem exposure (attributes : List Attribute) :
    Agree pairing bound (pairing.Joins known) (pairing.Joins true) (exposure attributes)
      (exposure attributes) := by
  apply bind (.start_behind attributes)
  intro start
  apply bind (.expect_word _)
  intro word
  apply behind_word (.exposure_behind attributes start)
  intro opens
  apply of_stuck (.exposure_behind attributes start : Agree pairing _ (pairing.Joins true) _ _ _)
  intro left right meets
  rcases identifier_cases left with ⟨name, next, taken⟩ | ⟨message, failed⟩
  · rcases expect_missing (crosses.exposure opens meets next) with ⟨message, missing⟩
    rw [exposureBehind, bind_of_some taken, bind_of_none missing]
  · rw [exposureBehind, bind_of_none failed]

theorem contract_member (decl : ContractDecl) :
    Agree pairing bound (pairing.Joins known) (pairing.Joins true) (contractMember decl)
      (contractMember decl) := by
  apply bind .attributes
  intro attributes
  apply bind .kind
  intro kind
  split
  · apply bind (.inclusion crosses)
    intro inclusion
    exact pure _
  · apply bind (.exposure crosses _)
    intro exposure
    exact pure _
  · apply bind (.storage_block crosses)
    intro block
    apply bind (.keep_first _ _ _ _ _)
    intro storage
    exact pure _
  · apply bind (.event_block crosses)
    intro block
    apply bind (.keep_first _ _ _ _ _)
    intro event
    exact pure _
  · exact unexpected_member _ _ _

/-! ### Items -/

theorem component_head :
    Agree pairing bound (pairing.Joins known) (pairing.Joins false) componentHead
      componentHead := by
  apply bind .current_span
  intro start
  apply bind (.expect_keyword (by decide))
  intro word
  apply bind .identifier
  intro name
  apply bind (.expect_mark _)
  intro opened
  apply bind (.all_members .component (fun decl _ => component_member crosses decl) _)
  intro decl
  exact pure _

theorem contract_head :
    Agree pairing bound (pairing.Joins known) (pairing.Joins false) contractHead
      contractHead := by
  apply bind .current_span
  intro start
  apply bind (.expect_keyword (by decide))
  intro word
  apply bind .identifier
  intro name
  apply bind (.expect_mark _)
  intro opened
  apply bind (.all_members .contract (fun decl _ => contract_member crosses decl) _)
  intro decl
  exact pure _

omit crosses in
theorem closed {State Node : Type} {head : Parse (Span × Span × State)}
    (agree : Agree pairing bound (pairing.Joins known) (pairing.Joins false) head head)
    (node : State → Span → Node) :
    Agree pairing bound (pairing.Joins known) (pairing.Joins true) (closed head node)
      (Parse.closed head node) := by
  apply bind agree
  intro read
  apply bind (.closing _)
  intro ended
  exact spanned _ _

theorem component :
    Agree pairing bound (pairing.Joins known) (pairing.Joins true) component component := by
  rw [component_eq]
  exact closed (.component_head crosses) _

theorem contract :
    Agree pairing bound (pairing.Joins known) (pairing.Joins true) contract contract := by
  rw [contract_eq]
  exact closed (.contract_head crosses) _

end Blocks

end Agree

theorem item_agrees {pairing : Pairing} (crosses : pairing.Crosses) {left right stop : Cursor}
    {node : Item} (joins : pairing.Joins true left right) (ran : item left = (some node, stop))
    (clean : stop.log.totalErrors = left.log.totalErrors) :
    pairing.Past stop.ahead ∨
      ∃ behind, item right = (some node, behind) ∧ pairing.Joins true stop behind := by
  rw [item, kind_run] at ran
  rw [item, kind_run, ← joins.kind]
  generalize left.kind = kind at ran ⊢
  split at ran
  · have agrees : Agree pairing (right.ahead.length + 1) (pairing.Joins true) (pairing.Joins true)
        (component >>= fun decl => pure (Item.component decl))
        (component >>= fun decl => pure (Item.component decl)) :=
      .bind (.component crosses) fun _ => .pure _
    exact agrees.agree joins (Nat.lt_succ_self _) ran clean
  · have agrees : Agree pairing (right.ahead.length + 1) (pairing.Joins true) (pairing.Joins true)
        (contract >>= fun decl => pure (Item.contract decl))
        (contract >>= fun decl => pure (Item.contract decl)) :=
      .bind (.contract crosses) fun _ => .pure _
    exact agrees.agree joins (Nat.lt_succ_self _) ran clean
  · cases ran

/-- Where reading goes through without errors, each round reads an item. -/
theorem items_clean {cursor : Cursor} {fuel : Nat} (more : cursor.atEnd = false)
    (room : cursor.log.isFull = false)
    (clean : (items (fuel + 1) cursor).2.log.totalErrors = cursor.log.totalErrors) :
    ∃ node after, item cursor = (some node, after) ∧ after.log = cursor.log ∧
      items (fuel + 1) cursor = (node :: (items fuel after).1, (items fuel after).2) := by
  have goesOn : ¬(cursor.atEnd || cursor.log.isFull) = true := by
    rw [more, room]
    exact Bool.false_ne_true
  have sound : Sound (cursor.ahead.length + 1) item (Takes Item.Written) := .item
  have here := sound.clean cursor (Nat.lt_succ_self _) room
  rcases items_round fuel goesOn with ⟨node, after, ran, whole⟩ | ⟨after, ran, whole⟩
  · rw [ran] at here
    rcases here with errors | ⟨_, _, read, log, _⟩
    · have grows := items_steady fuel after
      rw [whole] at clean
      dsimp only at errors clean
      omega
    · cases read
      exact ⟨node, after, ran, log, whole⟩
  · rw [ran] at here
    rcases here with errors | ⟨_, _, read, _⟩
    · have grows := items_steady fuel after.recoverItem
      change after.log.totalErrors ≤ _ at grows
      rw [whole] at clean
      dsimp only at errors
      omega
    · cases read

/-- Where the first reading has no errors, the second one gives the same items. -/
theorem items_alike {pairing : Pairing} (crosses : pairing.Crosses)
    (whole : ∀ ahead, ¬pairing.Past ahead) {left right : Cursor}
    (joins : pairing.Joins true left right) {fuel more : Nat}
    (enough : left.ahead.length < fuel) (enoughToo : right.ahead.length < more)
    (clean : (items fuel left).2.log.totalErrors = left.log.totalErrors) :
    (items more right).1 = (items fuel left).1 ∧ (items fuel left).2.ahead = [] ∧
      pairing.Joins true (items fuel left).2 (items more right).2 := by
  induction fuel generalizing left right more with
  | zero => omega
  | succ fuel ih =>
      cases more with
      | zero => omega
      | succ more =>
          cases ended : left.atEnd with
          | true =>
              rw [items_succ, items_succ, ← joins.at_end, ended]
              exact ⟨rfl, List.isEmpty_iff.mp ended, joins⟩
          | false =>
              rcases items_clean ended joins.room clean with ⟨node, after, ran, log, split⟩
              rw [split] at clean ⊢
              have endedToo := joins.at_end.symm.trans ended
              have passes := (item_passes ended).shorter
              have passesToo := (item_passes endedToo).shorter
              rcases item_agrees crosses joins ran (congrArg ReportLog.totalErrors log) with
                past | ⟨behind, ranToo, together⟩
              · exact absurd past (whole _)
              · rw [items_succ, endedToo, pairing.room joins.ahead, ranToo]
                rw [ran] at passes
                rw [ranToo] at passesToo
                rw [← log] at clean
                dsimp only at passes passesToo
                have fewer : behind.ahead.length < more := by omega
                rcases ih together (by omega) fewer clean with ⟨same, last, joined⟩
                exact ⟨congrArg (node :: ·) same, last, joined⟩

end Parse

/-- Tokens that are read without errors, and others that are alike: both give the same tree. -/
theorem SourceFile.trees_alike (file : SourceFile) {tokens others : List Token} {pairing : Pairing}
    (crosses : pairing.Crosses) (whole : ∀ ahead, ¬pairing.Past ahead)
    (joins : pairing.Joins true (.ofTokens file tokens) (.ofTokens file others))
    (clean : (file.parseTokens tokens).log.totalErrors = 0) :
    (file.parseTokens others).tree = (file.parseTokens tokens).tree ∧
      pairing.Ahead [] [] (file.parseTokens others).log := by
  rcases Parse.items_alike crosses whole joins (Nat.lt_succ_self _) (Nat.lt_succ_self _) clean
    with ⟨items, ended, joined⟩
  have trees : ∀ tokens, (file.parseTokens tokens).tree = ⟨(file.readTokens tokens).1,
      (Cursor.ofTokens file tokens).span.cover (file.readTokens tokens).2.previous⟩ :=
    fun _ => rfl
  have ahead := joined.ahead
  have heads := pairing.heads ahead
  rw [ended] at ahead heads
  rw [eq_comm, List.head?_nil, List.head?_eq_none_iff] at heads
  rw [heads] at ahead
  constructor
  · rw [trees, trees, joins.span]
    exact congr (congrArg DeclarationFile.mk items)
      (congrArg (Cursor.ofTokens file others).span.cover (joined.previous rfl).symm)
  · exact ahead

end Composer
