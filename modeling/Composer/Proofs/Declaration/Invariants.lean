import Composer.Proofs.Declaration.Run

/-!
Invariants of reading. Parsing moves along the tokens, skips some of them and makes reports; the
spans that it puts into a tree are those of tokens and covers of them. A property of cursors that
these steps keep is kept by every action, and the tree that is read has only spans that go with the
property. The grammar is gone through once, in `Parse.Keeps`, for all such properties.
-/

namespace Composer

theorem forall_mem_some {Element : Type} {holds : Element → Prop} {element : Element}
    (here : holds element) : ∀ other ∈ some element, holds other :=
  fun _ member => Option.mem_some.mp member ▸ here

theorem forall_mem_concat {Element : Type} {holds : Element → Prop} {elements : List Element}
    {last : Element} (before : ∀ element ∈ elements, holds element) (behind : holds last) :
    ∀ element ∈ elements ++ [last], holds element :=
  List.forall_mem_append.mpr ⟨before, List.forall_mem_singleton.mpr behind⟩

/-! ### Trees

`SpansIn` says that all spans in a part of a tree are allowed. -/

def Ident.SpansIn (ident : Ident) (allowed : Span → Prop) : Prop := allowed ident.span

structure Attribute.SpansIn (attr : Attribute) (allowed : Span → Prop) : Prop where
  name : attr.name.SpansIn allowed
  args : ∀ arg ∈ attr.args, arg.SpansIn allowed
  span : allowed attr.span

inductive TypeExpr.SpansIn (allowed : Span → Prop) : TypeExpr → Prop
  | path {segments : List Ident} {generics : List TypeExpr} {span : Span}
      (named : ∀ segment ∈ segments, segment.SpansIn allowed)
      (given : ∀ type ∈ generics, SpansIn allowed type) (here : allowed span) :
      SpansIn allowed (.path segments generics span)
  | snapshot {inner : TypeExpr} {span : Span} (inside : SpansIn allowed inner)
      (here : allowed span) : SpansIn allowed (.snapshot inner span)
  | tuple {items : List TypeExpr} {span : Span} (inside : ∀ type ∈ items, SpansIn allowed type)
      (here : allowed span) : SpansIn allowed (.tuple items span)

theorem TypeExpr.SpansIn.span {allowed : Span → Prop} {type : TypeExpr}
    (spans : type.SpansIn allowed) : allowed type.span := by
  cases spans with
  | path _ _ here => exact here
  | snapshot _ here => exact here
  | tuple _ here => exact here

structure TypePath.SpansIn (path : TypePath) (allowed : Span → Prop) : Prop where
  segments : ∀ segment ∈ path.segments, segment.SpansIn allowed
  generics : ∀ type ∈ path.generics, type.SpansIn allowed
  span : allowed path.span

structure Receiver.SpansIn (receiver : Receiver) (allowed : Span → Prop) : Prop where
  type : receiver.type.SpansIn allowed
  span : allowed receiver.span

structure Param.SpansIn (param : Param) (allowed : Span → Prop) : Prop where
  name : param.name.SpansIn allowed
  type : param.type.SpansIn allowed
  span : allowed param.span

structure MethodDecl.SpansIn (decl : MethodDecl) (allowed : Span → Prop) : Prop where
  name : decl.name.SpansIn allowed
  receiver : decl.receiver.SpansIn allowed
  params : ∀ param ∈ decl.params, param.SpansIn allowed
  ret : ∀ type ∈ decl.ret, type.SpansIn allowed
  span : allowed decl.span

structure MemberDecl.SpansIn (decl : MemberDecl) (allowed : Span → Prop) : Prop where
  attributes : ∀ attr ∈ decl.attributes, attr.SpansIn allowed
  name : decl.name.SpansIn allowed
  type : decl.type.SpansIn allowed
  span : allowed decl.span

structure StorageBlock.SpansIn (block : StorageBlock) (allowed : Span → Prop) : Prop where
  members : ∀ member ∈ block.members, member.SpansIn allowed
  span : allowed block.span

structure VariantDecl.SpansIn (decl : VariantDecl) (allowed : Span → Prop) : Prop where
  attributes : ∀ attr ∈ decl.attributes, attr.SpansIn allowed
  name : decl.name.SpansIn allowed
  payload : ∀ type ∈ decl.payload, type.SpansIn allowed
  span : allowed decl.span

structure EventBlock.SpansIn (block : EventBlock) (allowed : Span → Prop) : Prop where
  variants : ∀ variant ∈ block.variants, variant.SpansIn allowed
  span : allowed block.span

structure InterfaceDecl.SpansIn (decl : InterfaceDecl) (allowed : Span → Prop) : Prop where
  name : decl.name.SpansIn allowed
  methods : ∀ method ∈ decl.methods, method.SpansIn allowed
  span : allowed decl.span

structure ImplDecl.SpansIn (decl : ImplDecl) (allowed : Span → Prop) : Prop where
  attributes : ∀ attr ∈ decl.attributes, attr.SpansIn allowed
  name : decl.name.SpansIn allowed
  interface : ∀ name ∈ decl.interface, name.SpansIn allowed
  methods : ∀ method ∈ decl.methods, method.SpansIn allowed
  span : allowed decl.span

structure ComponentDecl.SpansIn (decl : ComponentDecl) (allowed : Span → Prop) : Prop where
  name : decl.name.SpansIn allowed
  storage : ∀ block ∈ decl.storage, block.SpansIn allowed
  event : ∀ block ∈ decl.event, block.SpansIn allowed
  interfaces : ∀ interface ∈ decl.interfaces, interface.SpansIn allowed
  impls : ∀ impl ∈ decl.impls, impl.SpansIn allowed
  span : allowed decl.span

structure InclusionDecl.SpansIn (decl : InclusionDecl) (allowed : Span → Prop) : Prop where
  path : decl.path.SpansIn allowed
  storage : decl.storage.SpansIn allowed
  event : decl.event.SpansIn allowed
  span : allowed decl.span

structure ExposureDecl.SpansIn (decl : ExposureDecl) (allowed : Span → Prop) : Prop where
  attributes : ∀ attr ∈ decl.attributes, attr.SpansIn allowed
  localName : decl.localName.SpansIn allowed
  target : decl.target.SpansIn allowed
  span : allowed decl.span

structure ContractDecl.SpansIn (decl : ContractDecl) (allowed : Span → Prop) : Prop where
  name : decl.name.SpansIn allowed
  inclusions : ∀ inclusion ∈ decl.inclusions, inclusion.SpansIn allowed
  exposures : ∀ exposure ∈ decl.exposures, exposure.SpansIn allowed
  storage : ∀ block ∈ decl.storage, block.SpansIn allowed
  event : ∀ block ∈ decl.event, block.SpansIn allowed
  span : allowed decl.span

def Item.SpansIn (item : Item) (allowed : Span → Prop) : Prop :=
  match item with
  | .component decl => decl.SpansIn allowed
  | .contract decl => decl.SpansIn allowed

structure DeclarationFile.SpansIn (tree : DeclarationFile) (allowed : Span → Prop) : Prop where
  items : ∀ item ∈ tree.items, item.SpansIn allowed
  span : allowed tree.span

namespace DeclarationFile.SpansIn

variable {tree : DeclarationFile} {allowed : Span → Prop}

theorem components (spans : tree.SpansIn allowed) :
    ∀ decl ∈ tree.components, decl.SpansIn allowed := by
  intro decl member
  obtain ⟨item, present, same⟩ := List.mem_filterMap.mp member
  have here := spans.items item present
  cases item with
  | component declared =>
      cases same
      exact here
  | contract declared => cases same

theorem contracts (spans : tree.SpansIn allowed) :
    ∀ decl ∈ tree.contracts, decl.SpansIn allowed := by
  intro decl member
  obtain ⟨item, present, same⟩ := List.mem_filterMap.mp member
  have here := spans.items item present
  cases item with
  | component declared => cases same
  | contract declared =>
      cases same
      exact here

end DeclarationFile.SpansIn

/-! ### Recovery -/

namespace Cursor

/-- What skipping leaves: tokens at the end of those that were ahead, and the span of the token
skipped last or, where none was skipped, that of the token before. -/
structure LeftOf (previous : Span) (tokens : List Token) (left : Span × List Token) : Prop where
  ahead : left.2 <:+ tokens
  last : left.1 = previous ∨ ∃ token ∈ tokens, left.1 = token.span

theorem LeftOf.all (previous : Span) (tokens : List Token) :
    LeftOf previous tokens (previous, tokens) :=
  ⟨List.suffix_refl tokens, .inl rfl⟩

theorem LeftOf.behind {token : Token} {rest : List Token} {left : Span × List Token}
    (leaves : LeftOf token.span rest left) (previous : Span) :
    LeftOf previous (token :: rest) left := by
  constructor
  · exact leaves.ahead.trans (List.suffix_cons token rest)
  · rcases leaves.last with same | ⟨later, member, same⟩
    · exact .inr ⟨token, List.mem_cons_self, same⟩
    · exact .inr ⟨later, List.mem_cons_of_mem _ member, same⟩

theorem skip_member_leaves (depth : Nat) (previous : Span) (tokens : List Token) :
    LeftOf previous tokens (skipMember depth previous tokens) := by
  induction tokens generalizing depth previous with
  | nil => exact .all previous []
  | cons token rest ih =>
      have skipped := LeftOf.all token.span rest
      rw [skipMember]
      split
      · exact (ih _ _).behind previous
      · exact (ih _ _).behind previous
      · exact (ih _ _).behind previous
      · exact (ih _ _).behind previous
      · exact (ih _ _).behind previous
      · split
        · exact .all previous _
        · split
          · exact skipped.behind previous
          · exact (ih _ _).behind previous
      · split
        · exact skipped.behind previous
        · exact (ih _ _).behind previous
      · split
        · exact skipped.behind previous
        · exact (ih _ _).behind previous
      · exact (ih _ _).behind previous

theorem skip_item_leaves (previous : Span) (tokens : List Token) :
    LeftOf previous tokens (skipItem previous tokens) := by
  induction tokens generalizing previous with
  | nil => exact .all previous []
  | cons token rest ih =>
      rw [skipItem]
      split
      · exact .all previous _
      · exact (ih _).behind previous

end Cursor

/-! ### Invariants -/

/-- A property of cursors with a property of spans, such that cursors have such spans only and what
parsing does to a cursor keeps it. No parsing steps over an end-of-file token, so the property need not
be kept by that. -/
structure Parse.Invariant where
  Holds : Cursor → Prop
  Allows : Span → Prop
  span {cursor : Cursor} : Holds cursor → Allows cursor.span
  previous {cursor : Cursor} : Holds cursor → Allows cursor.previous
  cover {first second : Span} : Allows first → Allows second → Allows (first.cover second)
  advance {cursor : Cursor} : Holds cursor → cursor.atEnd = false → Holds cursor.advance
  report {cursor : Cursor} (code : ErrorCode) (message : String) {span : Span} :
    Holds cursor → Allows span → Holds (cursor.report code message span)
  recover_member {cursor : Cursor} : Holds cursor → Holds cursor.recoverMember
  recover_item {cursor : Cursor} : Holds cursor → Holds cursor.recoverItem

namespace Parse

variable {Result Other State : Type} {invariant : Invariant}

/-- From a cursor for which the invariant holds the action comes to one for which it does, and what
it reads is as said. -/
def Keeps (invariant : Invariant) (action : Parse Result) (fits : Result → Prop) : Prop :=
  ∀ cursor, invariant.Holds cursor →
    invariant.Holds (action cursor).2 ∧ ∀ result, (action cursor).1 = some result → fits result

namespace Keeps

variable {fits : Result → Prop} {needs : Other → Prop}

/-! ### Single steps -/

theorem pure {result : Result} (here : fits result) :
    Keeps invariant (Pure.pure result) fits := by
  intro cursor held
  refine ⟨held, ?_⟩
  intro other same
  rw [← Option.some.inj same]
  exact here

theorem fail : Keeps invariant (fail : Parse Result) fits :=
  fun _ held => ⟨held, nofun⟩

theorem look {view : Cursor → Result}
    (sees : ∀ cursor, invariant.Holds cursor → fits (view cursor)) :
    Keeps invariant (look view) fits := by
  intro cursor held
  refine ⟨held, ?_⟩
  intro result same
  rw [← Option.some.inj same]
  exact sees cursor held

/-- A look at what has no spans. -/
theorem glance (view : Cursor → Result) : Keeps invariant (Parse.look view) fun _ => True :=
  .look fun _ _ => trivial

theorem current_span : Keeps invariant currentSpan invariant.Allows :=
  .look fun _ held => invariant.span held

theorem previous_span : Keeps invariant previousSpan invariant.Allows :=
  .look fun _ held => invariant.previous held

theorem span_from {start : Span} (allowed : invariant.Allows start) :
    Keeps invariant (spanFrom start) invariant.Allows :=
  .look fun _ held => invariant.cover allowed (invariant.previous held)

theorem report (code : ErrorCode) (message : String) {span : Span}
    (allowed : invariant.Allows span) : Keeps invariant (report code message span) fun _ => True :=
  fun _ held => ⟨invariant.report code message held allowed, fun _ _ => trivial⟩

theorem eat {kind : TokenKind} (real : kind ≠ .endOfFile) :
    Keeps invariant (eat kind) fun _ => True := by
  intro cursor held
  rw [Parse.eat]
  split
  · next next =>
      have more := Cursor.at_end_of_check real next
      exact ⟨invariant.advance held more, fun _ _ => trivial⟩
  · exact ⟨held, fun _ _ => trivial⟩

theorem bind {action : Parse Other} {next : Other → Parse Result}
    (first : Keeps invariant action needs)
    (second : ∀ result, needs result → Keeps invariant (next result) fits) :
    Keeps invariant (action >>= next) fits := by
  intro cursor held
  obtain ⟨after, reads⟩ := first cursor held
  rcases bind_cases action next cursor with ⟨middle, ran, whole⟩ | ⟨result, middle, ran, whole⟩
  · rw [ran] at after
    rw [whole]
    exact ⟨after, nofun⟩
  · rw [ran] at after reads
    rw [whole]
    exact second result (reads result rfl) middle after

/-- What a branch gives is known to what follows. -/
theorem given {result : Other} {next : Other → Parse Result}
    (goesOn : Keeps invariant (next result) fits) :
    Keeps invariant (Pure.pure result >>= next) fits :=
  goesOn

theorem ite {condition : Prop} [Decidable condition] {yes no : Parse Result}
    (does : Keeps invariant yes fits) (fails : Keeps invariant no fits) :
    Keeps invariant (if condition then yes else no) fits := by
  split
  · exact does
  · exact fails

theorem unexpected (message : String) :
    Keeps invariant (unexpected message : Parse Result) fits :=
  .bind .current_span fun _ allowed => .bind (.report _ _ allowed) fun _ _ => .fail

theorem unexpected_first (message : String) (next : Other → Parse Result) :
    Keeps invariant (Parse.unexpected message >>= next) fits :=
  fun cursor held => unexpected message cursor held

theorem expect {kind : TokenKind} (real : kind ≠ .endOfFile) :
    Keeps invariant (expect kind) invariant.Allows :=
  .bind (.eat real) fun _ _ => .ite .previous_span
    (.bind (.glance _) fun _ _ => .unexpected _)

theorem word (spelling : String) : Keeps invariant (word spelling) invariant.Allows :=
  .bind (.eat nofun) fun _ _ => .ite .previous_span (.bind (.glance _) fun _ _ => .unexpected _)

theorem identifier : Keeps invariant identifier (·.SpansIn invariant.Allows) := by
  intro cursor held
  rcases identifier_cases cursor with ⟨name, next, ran⟩ | ⟨message, ran⟩
  · rw [ran]
    have later := invariant.advance held (Cursor.at_end_of_check TokenKind.noConfusion next)
    refine ⟨later, fun ident same => ?_⟩
    cases same
    exact invariant.previous later
  · rw [ran]
    exact ⟨invariant.report _ message held (invariant.span held), nofun⟩

/-! ### Repetition -/

theorem with_fuel {action : Nat → Parse Result}
    (keeps : ∀ fuel, Keeps invariant (action fuel) fits) : Keeps invariant (withFuel action) fits :=
  fun cursor held => keeps _ cursor held

theorem led {element : Parse Result} (keeps : Keeps invariant element fits) {lead : TokenKind}
    (real : lead ≠ .endOfFile) (stop : Cursor → Bool) (fuel : Nat) :
    Keeps invariant (led lead stop element fuel) (∀ result ∈ ·, fits result) := by
  have none : ∀ result ∈ ([] : List Result), fits result := nofun
  induction fuel with
  | zero => exact .fail
  | succ fuel ih =>
      exact .bind (.eat real) fun _ _ => .ite
        (.bind (.glance stop) fun _ _ => .ite (.pure none)
          (.bind keeps fun _ first => .bind ih fun _ others =>
            .pure (List.forall_mem_cons.mpr ⟨first, others⟩)))
        (.pure none)

theorem up_to {element : Parse Result} (keeps : Keeps invariant element fits) (close : TokenKind)
    (fuel : Nat) : Keeps invariant (upTo close element fuel) (∀ result ∈ ·, fits result) := by
  induction fuel with
  | zero => exact .fail
  | succ fuel ih =>
      exact .bind (.glance _) fun _ _ => .ite (.pure nofun)
        (.bind keeps fun _ first => .bind (.eat nofun) fun _ _ => .ite
          (.bind ih fun _ others => .pure (List.forall_mem_cons.mpr ⟨first, others⟩))
          (.pure (List.forall_mem_singleton.mpr first)))

/-- A broken member leaves a state that fits already. -/
theorem members {step : State → Parse State} {fits : State → Prop}
    (keeps : ∀ state, fits state → Keeps invariant (step state) fits) (fuel : Nat)
    {state : State} (here : fits state) : Keeps invariant (members step fuel state) fits := by
  intro cursor held
  have stopped := members_hold step (fun state cursor => fits state ∧ invariant.Holds cursor)
    ?reads ?skips fuel state cursor ⟨here, held⟩
  · obtain ⟨last, ⟨fine, finish⟩, only⟩ := stopped
    exact ⟨finish, fun read same => only read same ▸ fine⟩
  case reads =>
    intro state cursor next after _ both ran
    have read := keeps state both.1 cursor both.2
    rw [ran] at read
    exact ⟨read.2 next rfl, read.1⟩
  case skips =>
    intro state cursor after _ both ran
    have read := keeps state both.1 cursor both.2
    rw [ran] at read
    exact ⟨both.1, invariant.recover_member read.1⟩

theorem closing {opened : Span} (allowed : invariant.Allows opened) :
    Keeps invariant (closing opened) fun _ => True :=
  .bind (.eat nofun) fun _ _ => .ite (.pure trivial)
    (.bind (.report _ _ allowed) fun _ _ => .fail)

theorem block {step : State → Parse State} {fits : State → Prop}
    (keeps : ∀ state, fits state → Keeps invariant (step state) fits) {initial : State}
    (here : fits initial) : Keeps invariant (block step initial) fits :=
  .bind (.expect nofun) fun _ opened =>
    .bind (.with_fuel fun fuel => .members keeps fuel here) fun _ read =>
      .bind (.closing opened) fun _ _ => .pure read

theorem list_block {member : Parse Result} (keeps : Keeps invariant member fits) :
    Keeps invariant (listBlock member) (∀ result ∈ ·, fits result) :=
  .block (fun _ collected => .bind keeps fun _ last =>
    .pure (forall_mem_concat collected last))
    nofun

/-! ### Types -/

theorem path_with {argument : Parse TypeExpr}
    (keeps : Keeps invariant argument (·.SpansIn invariant.Allows)) :
    Keeps invariant (pathWith argument) (·.SpansIn invariant.Allows) := by
  refine .bind .current_span fun _ begins => .bind .identifier fun _ first =>
    .bind (.with_fuel fun fuel => .led .identifier TokenKind.noConfusion _ fuel) fun _ others =>
      .bind (.eat nofun) fun _ _ => .ite ?_ ?_
  · exact .bind keeps fun _ argument =>
      .bind (.with_fuel fun fuel => .led keeps TokenKind.noConfusion _ fuel) fun _ arguments =>
        .bind (.expect nofun) fun _ _ => .given (.bind (.span_from begins) fun _ allowed =>
          .pure ⟨List.forall_mem_cons.mpr ⟨first, others⟩,
            List.forall_mem_cons.mpr ⟨argument, arguments⟩, allowed⟩)
  · exact .given (.bind (.span_from begins) fun _ allowed =>
      .pure ⟨List.forall_mem_cons.mpr ⟨first, others⟩, nofun, allowed⟩)

theorem type_within (depth : Nat) :
    Keeps invariant (typeWithin depth) (·.SpansIn invariant.Allows) := by
  induction depth with
  | zero => exact .fail
  | succ depth ih =>
      rw [type_within_succ]
      refine .bind .current_span fun _ begins => .bind (.eat nofun) fun _ _ => .ite ?_
        (.bind (.eat nofun) fun _ _ => .ite ?_ ?_)
      · exact .bind ih fun _ inside => .bind (.span_from begins) fun _ allowed =>
          .pure (.snapshot inside allowed)
      · exact .bind (.with_fuel fun fuel => .up_to ih _ fuel) fun _ inside =>
          .bind (.expect nofun) fun _ _ => .bind (.span_from begins) fun _ allowed =>
            .pure (.tuple inside allowed)
      · exact .bind (.path_with ih) fun _ path =>
          .pure (.path path.segments path.generics path.span)

theorem type : Keeps invariant type (·.SpansIn invariant.Allows) := .with_fuel .type_within

theorem path : Keeps invariant path (·.SpansIn invariant.Allows) := .path_with .type

/-! ### Attributes and methods -/

theorem attribute_body : Keeps invariant attributeBody (·.SpansIn invariant.Allows) := by
  refine .bind .previous_span fun _ begins => .bind (.expect nofun) fun _ _ =>
    .bind .identifier fun _ name => .bind (.eat nofun) fun _ _ => .ite ?_ ?_
  · exact .bind (.with_fuel fun fuel => .up_to .identifier _ fuel) fun _ args =>
      .bind (.expect nofun) fun _ _ => .given (.bind (.expect nofun) fun _ _ =>
        .bind (.span_from begins) fun _ allowed => .pure ⟨name, args, allowed⟩)
  · exact .given (.bind (.expect nofun) fun _ _ => .bind (.span_from begins) fun _ allowed =>
      .pure ⟨name, nofun, allowed⟩)

theorem attributes : Keeps invariant attributes (∀ attr ∈ ·, attr.SpansIn invariant.Allows) :=
  .with_fuel fun fuel => .led .attribute_body TokenKind.noConfusion _ fuel

theorem receiver : Keeps invariant receiver (·.SpansIn invariant.Allows) := by
  refine .bind .current_span fun _ begins => .bind (.eat nofun) fun _ _ => .bind (.eat nofun) fun _ _ =>
    .ite ?_ (.bind (.glance _) fun _ _ => .unexpected_first _ _)
  refine .bind (.expect nofun) fun _ _ => .bind .type fun _ type => ?_
  split
  · exact .bind (.report _ _ type.span) fun _ _ => .fail
  · exact .bind (.span_from begins) fun _ allowed => .pure ⟨type, allowed⟩
  · cases type with
    | snapshot inside _ =>
        exact .bind (.span_from begins) fun _ allowed => .pure ⟨inside, allowed⟩
  · exact .bind (.report _ _ type.span) fun _ _ => .fail

theorem param : Keeps invariant param (·.SpansIn invariant.Allows) :=
  .bind .current_span fun _ begins => .bind .identifier fun _ name => .bind (.expect nofun) fun _ _ =>
    .bind .type fun _ type => .bind (.span_from begins) fun _ allowed => .pure ⟨name, type, allowed⟩

theorem method : Keeps invariant method (·.SpansIn invariant.Allows) := by
  refine .bind .current_span fun _ begins => .bind (.expect nofun) fun _ _ =>
    .bind .identifier fun _ name => .bind (.expect nofun) fun _ _ => .bind .receiver fun _ receiver =>
      .bind (.with_fuel fun fuel => .led .param TokenKind.noConfusion _ fuel) fun _ params =>
        .bind (.expect nofun) fun _ _ => .bind (.eat nofun) fun _ _ => .ite ?_ ?_
  · exact .bind .type fun _ type => .given (.bind (.expect nofun) fun _ _ =>
      .bind (.span_from begins) fun _ allowed =>
        .pure ⟨name, receiver, params, forall_mem_some type, allowed⟩)
  · exact .given (.bind (.expect nofun) fun _ _ => .bind (.span_from begins) fun _ allowed =>
      .pure ⟨name, receiver, params, nofun, allowed⟩)

/-! ### Storage and events -/

theorem end_of_member : Keeps invariant endOfMember fun _ => True :=
  .bind (.eat nofun) fun _ _ => .ite (.pure trivial)
    (.bind (.glance _) fun _ _ => .ite (.pure trivial)
      (.bind (.expect nofun) fun _ _ => .pure trivial))

theorem storage_member : Keeps invariant storageMember (·.SpansIn invariant.Allows) :=
  .bind .current_span fun _ begins => .bind .attributes fun _ attributes =>
    .bind .identifier fun _ name => .bind (.expect nofun) fun _ _ => .bind .type fun _ type =>
      .bind (.span_from begins) fun _ allowed => .bind .end_of_member fun _ _ =>
        .pure ⟨attributes, name, type, allowed⟩

theorem storage_block : Keeps invariant storageBlock (·.SpansIn invariant.Allows) :=
  .bind .current_span fun _ begins => .bind (.expect nofun) fun _ _ =>
    .bind (.list_block .storage_member) fun _ members =>
      .bind (.span_from begins) fun _ allowed => .pure ⟨members, allowed⟩

theorem event_variant : Keeps invariant eventVariant (·.SpansIn invariant.Allows) := by
  refine .bind .current_span fun _ begins => .bind .attributes fun _ attributes =>
    .bind .identifier fun _ name => .bind (.eat nofun) fun _ _ => .ite ?_ ?_
  · exact .bind .type fun _ type => .given (.bind (.span_from begins) fun _ allowed =>
      .bind .end_of_member fun _ _ =>
        .pure ⟨attributes, name, forall_mem_some type, allowed⟩)
  · exact .given (.bind (.span_from begins) fun _ allowed => .bind .end_of_member fun _ _ =>
      .pure ⟨attributes, name, nofun, allowed⟩)

theorem event_block : Keeps invariant eventBlock (·.SpansIn invariant.Allows) :=
  .bind .current_span fun _ begins => .bind (.expect nofun) fun _ _ =>
    .bind (.list_block .event_variant) fun _ variants =>
      .bind (.span_from begins) fun _ allowed => .pure ⟨variants, allowed⟩

theorem keep_first {Block : Type} {fits : Block → Prop} {present : Option Block} {block : Block}
    (before : ∀ first ∈ present, fits first) (here : fits block) (word owner : String)
    {span : Span} (allowed : invariant.Allows span) :
    Keeps invariant (keepFirst present block word owner span) (∀ kept ∈ ·, fits kept) := by
  cases present with
  | none => exact .pure (forall_mem_some here)
  | some first => exact .bind (.report _ _ allowed) fun _ _ => .pure before

/-! ### Members of components and contracts -/

theorem interface : Keeps invariant interface (·.SpansIn invariant.Allows) :=
  .bind .current_span fun _ begins => .bind (.expect nofun) fun _ _ => .bind .identifier fun _ name =>
    .bind (.list_block .method) fun _ methods => .bind (.span_from begins) fun _ allowed =>
      .pure ⟨name, methods, allowed⟩

theorem start_behind {attributes : List Attribute}
    (attributed : ∀ attr ∈ attributes, attr.SpansIn invariant.Allows) :
    Keeps invariant (startBehind attributes) invariant.Allows := by
  rw [startBehind]
  split
  · next first => exact .pure (attributed _ (List.mem_of_mem_head? first)).span
  · exact .current_span

theorem implementation {attributes : List Attribute}
    (attributed : ∀ attr ∈ attributes, attr.SpansIn invariant.Allows) :
    Keeps invariant (implementation attributes) (·.SpansIn invariant.Allows) := by
  refine .bind (.start_behind attributed) fun _ begins => .bind (.expect nofun) fun _ _ =>
    .bind .identifier fun _ name => .bind (.eat nofun) fun _ _ => .ite ?_ ?_
  · refine .bind .identifier fun _ interface => .bind (.eat nofun) fun _ _ => .ite ?_ ?_
    · exact .given (.bind (.span_from begins) fun _ allowed =>
        .pure ⟨attributed, name, forall_mem_some interface,
          nofun, allowed⟩)
    · exact .bind (.list_block .method) fun _ methods =>
        .bind (.span_from begins) fun _ allowed =>
          .pure ⟨attributed, name, forall_mem_some interface, methods,
            allowed⟩
  · exact .bind (.list_block .method) fun _ methods => .bind (.span_from begins) fun _ allowed =>
      .pure ⟨attributed, name, nofun, methods, allowed⟩

theorem inclusion : Keeps invariant inclusion (·.SpansIn invariant.Allows) :=
  .bind .current_span fun _ begins => .bind (.expect nofun) fun _ _ => .bind (.expect nofun) fun _ _ =>
    .bind (.expect nofun) fun _ _ => .bind (.word _) fun _ _ => .bind (.expect nofun) fun _ _ =>
    .bind .identifier fun _ path => .bind (.expect nofun) fun _ _ => .bind (.expect nofun) fun _ _ =>
    .bind (.expect nofun) fun _ _ => .bind .identifier fun _ storage => .bind (.expect nofun) fun _ _ =>
    .bind (.expect nofun) fun _ _ => .bind (.expect nofun) fun _ _ => .bind .identifier fun _ event =>
    .bind (.eat nofun) fun _ _ => .bind (.expect nofun) fun _ _ =>
    .bind (.span_from begins) fun _ allowed => .bind (.expect nofun) fun _ _ =>
    .pure ⟨path, storage, event, allowed⟩

theorem exposure {attributes : List Attribute}
    (attributed : ∀ attr ∈ attributes, attr.SpansIn invariant.Allows) :
    Keeps invariant (exposure attributes) (·.SpansIn invariant.Allows) :=
  .bind (.start_behind attributed) fun _ begins => .bind (.expect nofun) fun _ _ =>
    .bind .identifier fun _ localName => .bind (.expect nofun) fun _ _ => .bind .path fun _ target =>
      .bind (.expect nofun) fun _ _ => .bind (.span_from begins) fun _ allowed =>
        .pure ⟨attributed, localName, target, allowed⟩

theorem unexpected_member (attributes : List Attribute) (expected : String) (found : TokenKind) :
    Keeps invariant (unexpectedMember attributes expected found : Parse Result) fits := by
  cases attributes with
  | nil => exact .unexpected _
  | cons first others => exact .unexpected _

theorem component_member {decl : ComponentDecl} (begun : decl.SpansIn invariant.Allows) :
    Keeps invariant (componentMember decl) (·.SpansIn invariant.Allows) := by
  refine .bind .attributes fun _ attributed => .bind (.glance _) fun _ _ => ?_
  split
  · exact .bind .storage_block fun _ block =>
      .bind (.keep_first begun.storage block _ _ block.span) fun _ storage =>
        .pure { begun with storage }
  · exact .bind .event_block fun _ block =>
      .bind (.keep_first begun.event block _ _ block.span) fun _ event =>
        .pure { begun with event }
  · exact .bind .interface fun _ last =>
      .pure { begun with interfaces := forall_mem_concat begun.interfaces last }
  · exact .bind (.implementation attributed) fun _ last =>
      .pure { begun with impls := forall_mem_concat begun.impls last }
  · exact .unexpected_member _ _ _

theorem component : Keeps invariant component (·.SpansIn invariant.Allows) :=
  .bind .current_span fun _ begins => .bind (.expect nofun) fun _ _ => .bind .identifier fun _ name =>
    .bind (.block (fun _ begun => .component_member begun)
      ⟨name, nofun, nofun, nofun, nofun, begins⟩) fun _ read =>
      .bind (.span_from begins) fun _ span => .pure { read with span }

theorem contract_member {decl : ContractDecl} (begun : decl.SpansIn invariant.Allows) :
    Keeps invariant (contractMember decl) (·.SpansIn invariant.Allows) := by
  refine .bind .attributes fun _ attributed => .bind (.glance _) fun _ _ => ?_
  split
  · exact .bind .inclusion fun _ last =>
      .pure { begun with inclusions := forall_mem_concat begun.inclusions last }
  · exact .bind (.exposure attributed) fun _ last =>
      .pure { begun with exposures := forall_mem_concat begun.exposures last }
  · exact .bind .storage_block fun _ block =>
      .bind (.keep_first begun.storage block _ _ block.span) fun _ storage =>
        .pure { begun with storage }
  · exact .bind .event_block fun _ block =>
      .bind (.keep_first begun.event block _ _ block.span) fun _ event =>
        .pure { begun with event }
  · exact .unexpected_member _ _ _

theorem contract : Keeps invariant contract (·.SpansIn invariant.Allows) :=
  .bind .current_span fun _ begins => .bind (.expect nofun) fun _ _ => .bind .identifier fun _ name =>
    .bind (.block (fun _ begun => .contract_member begun)
      ⟨name, nofun, nofun, nofun, nofun, begins⟩) fun _ read =>
      .bind (.span_from begins) fun _ span => .pure { read with span }

end Keeps

/-! ### Items -/

section Items

variable {fits : Item → Prop} (components : Keeps invariant component fun decl => fits (.component decl))
  (contracts : Keeps invariant contract fun decl => fits (.contract decl))
include components contracts

/-- Where no item starts, its first token is taken all the same, so there has to be one. -/
theorem item_keeps {cursor : Cursor} (held : invariant.Holds cursor) (more : cursor.atEnd = false) :
    invariant.Holds (item cursor).2 ∧ ∀ node, (item cursor).1 = some node → fits node := by
  rcases item_cases cursor with same | same | ⟨message, same⟩
  · rw [same]
    exact Keeps.bind components (fun _ decl => .pure decl) cursor held
  · rw [same]
    exact Keeps.bind contracts (fun _ decl => .pure decl) cursor held
  · rw [same]
    have reported := invariant.report .unexpectedToken message held (invariant.span held)
    exact ⟨invariant.advance reported more, nofun⟩

/-- Reading items keeps an invariant, and each of them fits as reading one item makes it fit. -/
theorem items_keep_fits (fuel : Nat) {cursor : Cursor} (held : invariant.Holds cursor) :
    invariant.Holds (items fuel cursor).2 ∧ ∀ item ∈ (items fuel cursor).1, fits item := by
  apply items_hold invariant.Holds fits
  case held => exact held
  case reads =>
    intro cursor node after more _ held ran
    have read := item_keeps components contracts held more
    rw [ran] at read
    exact ⟨read.1, read.2 node rfl⟩
  case skips =>
    intro cursor after more _ held ran
    have read := item_keeps components contracts held more
    rw [ran] at read
    exact invariant.recover_item read.1

end Items

theorem items_keep (invariant : Invariant) (fuel : Nat) {cursor : Cursor}
    (held : invariant.Holds cursor) :
    invariant.Holds (items fuel cursor).2 ∧
      ∀ item ∈ (items fuel cursor).1, item.SpansIn invariant.Allows :=
  items_keep_fits .component .contract fuel held

end Parse

end Composer
