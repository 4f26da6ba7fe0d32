import Composer.Proofs.Declaration.Nesting.Rules
import Composer.Proofs.Declaration.Places

/-!
The spans of a tree nest and follow the text. The grammar is gone through once, with the rules of
`Parse.Traces`; what is found of a construct is where its tokens lie, and from that how its span lies
to the spans of its parts. A broken member or item leaves nothing in the tree, and what is read behind
it lies behind it.
-/

namespace Composer

/-! ### Trees

`Nested` says of a node that the span of each node right below it goes forward within the node's own,
that the elements of each list come one strictly behind the other, and that all this holds further
down as well. -/

structure Attribute.Nested (attr : Attribute) : Prop where
  name : attr.span.Encloses attr.name.span
  args : attr.span.EnclosesRow (attr.args.map Ident.span)

inductive TypeExpr.Nested : TypeExpr → Prop
  | path {segments : List Ident} {generics : List TypeExpr} {span : Span}
      (named : span.EnclosesRow (segments.map Ident.span))
      (given : span.EnclosesRow (generics.map TypeExpr.span))
      (below : ∀ type ∈ generics, Nested type) : Nested (.path segments generics span)
  | snapshot {inner : TypeExpr} {span : Span} (inside : span.Encloses inner.span)
      (below : Nested inner) : Nested (.snapshot inner span)
  | tuple {items : List TypeExpr} {span : Span} (inside : span.EnclosesRow (items.map TypeExpr.span))
      (below : ∀ type ∈ items, Nested type) : Nested (.tuple items span)

def TypePath.Nested (path : TypePath) : Prop := path.toType.Nested

structure Receiver.Nested (receiver : Receiver) : Prop where
  type : receiver.span.Encloses receiver.type.span
  below : receiver.type.Nested

structure Param.Nested (param : Param) : Prop where
  name : param.span.Encloses param.name.span
  type : param.span.Encloses param.type.span
  below : param.type.Nested

structure MethodDecl.Nested (decl : MethodDecl) : Prop where
  name : decl.span.Encloses decl.name.span
  receiver : decl.span.Encloses decl.receiver.span ∧ decl.receiver.Nested
  params : decl.span.EnclosesRow (decl.params.map Param.span) ∧ ∀ param ∈ decl.params, param.Nested
  ret : ∀ type ∈ decl.ret, decl.span.Encloses type.span ∧ type.Nested

structure MemberDecl.Nested (decl : MemberDecl) : Prop where
  attributes : decl.span.EnclosesRow (decl.attributes.map Attribute.span) ∧
    ∀ attr ∈ decl.attributes, attr.Nested
  name : decl.span.Encloses decl.name.span
  type : decl.span.Encloses decl.type.span ∧ decl.type.Nested

structure StorageBlock.Nested (block : StorageBlock) : Prop where
  members : block.span.EnclosesRow (block.members.map MemberDecl.span)
  below : ∀ member ∈ block.members, member.Nested

structure VariantDecl.Nested (decl : VariantDecl) : Prop where
  attributes : decl.span.EnclosesRow (decl.attributes.map Attribute.span) ∧
    ∀ attr ∈ decl.attributes, attr.Nested
  name : decl.span.Encloses decl.name.span
  payload : ∀ type ∈ decl.payload, decl.span.Encloses type.span ∧ type.Nested

structure EventBlock.Nested (block : EventBlock) : Prop where
  variants : block.span.EnclosesRow (block.variants.map VariantDecl.span)
  below : ∀ variant ∈ block.variants, variant.Nested

structure InterfaceDecl.Nested (decl : InterfaceDecl) : Prop where
  name : decl.span.Encloses decl.name.span
  methods : decl.span.EnclosesRow (decl.methods.map MethodDecl.span) ∧
    ∀ method ∈ decl.methods, method.Nested

structure ImplDecl.Nested (decl : ImplDecl) : Prop where
  attributes : decl.span.EnclosesRow (decl.attributes.map Attribute.span) ∧
    ∀ attr ∈ decl.attributes, attr.Nested
  name : decl.span.Encloses decl.name.span
  interface : ∀ name ∈ decl.interface, decl.span.Encloses name.span
  methods : decl.span.EnclosesRow (decl.methods.map MethodDecl.span) ∧
    ∀ method ∈ decl.methods, method.Nested

structure ComponentDecl.Nested (decl : ComponentDecl) : Prop where
  name : decl.span.Encloses decl.name.span
  storage : ∀ block ∈ decl.storage, decl.span.Encloses block.span ∧ block.Nested
  event : ∀ block ∈ decl.event, decl.span.Encloses block.span ∧ block.Nested
  interfaces : decl.span.EnclosesRow (decl.interfaces.map InterfaceDecl.span) ∧
    ∀ interface ∈ decl.interfaces, interface.Nested
  impls : decl.span.EnclosesRow (decl.impls.map ImplDecl.span) ∧ ∀ impl ∈ decl.impls, impl.Nested

structure InclusionDecl.Nested (decl : InclusionDecl) : Prop where
  path : decl.span.Encloses decl.path.span
  storage : decl.span.Encloses decl.storage.span
  event : decl.span.Encloses decl.event.span

structure ExposureDecl.Nested (decl : ExposureDecl) : Prop where
  attributes : decl.span.EnclosesRow (decl.attributes.map Attribute.span) ∧
    ∀ attr ∈ decl.attributes, attr.Nested
  localName : decl.span.Encloses decl.localName.span
  target : decl.span.Encloses decl.target.span ∧ decl.target.Nested

structure ContractDecl.Nested (decl : ContractDecl) : Prop where
  name : decl.span.Encloses decl.name.span
  inclusions : decl.span.EnclosesRow (decl.inclusions.map InclusionDecl.span) ∧
    ∀ inclusion ∈ decl.inclusions, inclusion.Nested
  exposures : decl.span.EnclosesRow (decl.exposures.map ExposureDecl.span) ∧
    ∀ exposure ∈ decl.exposures, exposure.Nested
  storage : ∀ block ∈ decl.storage, decl.span.Encloses block.span ∧ block.Nested
  event : ∀ block ∈ decl.event, decl.span.Encloses block.span ∧ block.Nested

def Item.span : Item → Span
  | .component decl => decl.span
  | .contract decl => decl.span

def Item.Nested : Item → Prop
  | .component decl => decl.Nested
  | .contract decl => decl.Nested

structure DeclarationFile.Nested (tree : DeclarationFile) : Prop where
  forward : tree.span.start ≤ tree.span.stop
  items : tree.span.EnclosesRow (tree.items.map Item.span)
  below : ∀ item ∈ tree.items, item.Nested

namespace Parse

variable {row : TokenRow} {first : Nat}

namespace Traces

/-! ### Types -/

theorem path_with {argument : Parse TypeExpr}
    (traces : ∀ first, Traces row first argument (Placed row TypeExpr.span TypeExpr.Nested first)) :
    Traces row first (pathWith argument) (Placed row TypePath.span TypePath.Nested first) := by
  refine .starting fun start begins => .bind .identifier fun name _ _ named => ?_
  have begun := begins named.1.lt_length
  have takes := named.1.lt
  refine .bind (.led_plain TokenKind.noConfusion _ fun _ => .identifier) fun names _ _ others => ?_
  have segments := Listed.cons named others
  refine .bind (.eat TokenKind.noConfusion) fun _ _ _ _ => .ite (fun _ => ?_) fun _ => .given ?_
  · refine .bind (traces _) fun argument _ _ given => ?_
    refine .bind (.led_plain TokenKind.noConfusion _ traces) fun arguments _ _ more => ?_
    have generics := Listed.cons given more
    refine .bind (.expect_mark _) fun _ _ _ _ => .given (.spanning begun (by omega)
      fun span whole => .pure (.whole whole ?_))
    have inside := generics.enclosed whole (by omega) (by omega)
    exact .path (segments.enclosed whole (Nat.le_refl _) (by omega)).1 inside.1 inside.2
  · refine .spanning begun (by omega) fun span whole => .pure (.whole whole ?_)
    exact .path (segments.enclosed whole (Nat.le_refl _) (by omega)).1 ⟨nofun, .nil⟩ nofun

theorem type_within (depth : Nat) :
    Traces row first (typeWithin depth) (Placed row TypeExpr.span TypeExpr.Nested first) := by
  induction depth generalizing first with
  | zero => exact .fail
  | succ depth ih =>
      rw [type_within_succ]
      refine .starting fun start begins => .bind (.eat TokenKind.noConfusion) fun _ _ _ snapshot =>
        .ite (fun yes => ?_) fun _ => ?_
      · obtain ⟨inside, rfl⟩ := snapshot yes
        refine .bind ih fun inner _ _ placed => .spanning (begins inside) (by omega)
          fun span whole => .pure (.whole whole ?_)
        have below := placed.enclosed whole (Nat.le_succ _) (Nat.le_refl _)
        exact .snapshot below.1 below.2
      · refine .bind (.eat TokenKind.noConfusion) fun _ _ _ tuple => .ite (fun yes => ?_) fun _ => ?_
        · obtain ⟨inside, rfl⟩ := tuple yes
          have begun := begins (by omega)
          refine .bind (.up_to fun _ => ih) fun items _ _ listed => ?_
          refine .bind (.expect_mark _) fun _ _ _ _ => .spanning begun (by omega)
            fun span whole => .pure (.whole whole ?_)
          have below := listed.enclosed whole (by omega) (by omega)
          exact .tuple below.1 below.2
        · refine .bind (.path_with fun _ => ih) fun path _ _ placed => .pure ?_
          exact placed.mono (by omega) (Nat.le_refl _)

theorem type : Traces row first type (Placed row TypeExpr.span TypeExpr.Nested first) :=
  .with_fuel type_within

theorem path : Traces row first path (Placed row TypePath.span TypePath.Nested first) :=
  .path_with fun _ => .type

/-! ### Attributes and methods -/

/-- An attribute starts with the `#` before its body. -/
theorem attribute_body (lead : Nat) :
    Traces row (lead + 1) attributeBody (Placed row Attribute.span Attribute.Nested lead) := by
  refine .starting_behind rfl fun start begins => .bind (.expect_mark _) fun _ _ _ _ =>
    .bind .identifier fun name _ _ named => ?_
  refine .bind (.eat TokenKind.noConfusion) fun _ _ _ _ => .ite (fun _ => ?_) fun _ => .given ?_
  · refine .bind (.up_to fun _ => .identifier) fun args _ _ listed => ?_
    refine .bind (.expect_mark _) fun _ _ _ _ => .given (.bind (.expect_mark _) fun _ _ _ _ =>
      .spanning begins (by omega) fun span whole => .pure (.whole whole ⟨?_, ?_⟩))
    · exact (named.enclosed whole (by omega) (by omega)).1
    · exact (listed.enclosed whole (by omega) (by omega)).1
  · refine .bind (.expect_mark _) fun _ _ _ _ => .spanning begins (by omega) fun span whole =>
      .pure (.whole whole ⟨?_, ⟨nofun, .nil⟩⟩)
    exact (named.enclosed whole (by omega) (by omega)).1

theorem attributes :
    Traces row first attributes (Listed row Attribute.span Attribute.Nested first) :=
  .led TokenKind.noConfusion _ attribute_body

theorem receiver : Traces row first receiver (Placed row Receiver.span Receiver.Nested first) := by
  refine .starting fun start begins => .bind (.eat TokenKind.noConfusion) fun isReference _ _ _ =>
    .bind (.eat TokenKind.noConfusion) fun _ _ _ _ => .ite (fun _ => ?_)
      fun _ => .looking fun _ => .unexpected_first _ _
  refine .bind (.expect_mark _) fun _ _ _ _ => .bind .type fun type _ _ placed => ?_
  have begun := begins (Nat.lt_of_le_of_lt (by omega) placed.1.lt_length)
  have takes := placed.1.lt
  split
  · exact .bind (.report _ _ _) fun _ _ _ _ => .fail
  · refine .spanning begun (by omega) fun span whole => .pure (.whole whole ?_)
    have below := placed.enclosed whole (by omega) (Nat.le_refl _)
    exact ⟨below.1, below.2⟩
  · refine .spanning begun (by omega) fun span whole => .pure (.whole whole ?_)
    have below := placed.enclosed whole (by omega) (Nat.le_refl _)
    cases below.2 with
    | snapshot inside inner => exact ⟨below.1.trans inside, inner⟩
  · exact .bind (.report _ _ _) fun _ _ _ _ => .fail

theorem param : Traces row first param (Placed row Param.span Param.Nested first) := by
  refine .starting fun start begins => .bind .identifier fun name _ _ named =>
    .bind (.expect_mark _) fun _ _ _ _ => .bind .type fun type _ _ typed => ?_
  have takes := named.1.lt
  refine .spanning (begins named.1.lt_length) (by omega) fun span whole => .pure (.whole whole ?_)
  have below := typed.enclosed whole (by omega) (Nat.le_refl _)
  exact ⟨(named.enclosed whole (Nat.le_refl _) (by omega)).1, below.1, below.2⟩

theorem method : Traces row first method (Placed row MethodDecl.span MethodDecl.Nested first) := by
  refine .starting fun start begins => .bind (.expect_keyword _) fun _ _ _ fn => ?_
  have begun := begins fn.1
  refine .bind .identifier fun name _ _ named => .bind (.expect_mark _) fun _ _ _ _ =>
    .bind .receiver fun receiver _ _ received => ?_
  refine .bind (.led_plain TokenKind.noConfusion _ fun _ => .param) fun params _ _ listed =>
    .bind (.expect_mark _) fun _ middle _ _ => ?_
  have ended (ret : Option TypeExpr) {last : Nat} (le : middle ≤ last)
      (returns : ∀ type ∈ ret, Placed row TypeExpr.span TypeExpr.Nested first type last) :
      Traces row last (do
        let _ ← Parse.expect (.mark .semicolon)
        return MethodDecl.mk name receiver params ret (← spanFrom start))
        (Placed row MethodDecl.span MethodDecl.Nested first) := by
    refine .bind (.expect_mark _) fun _ _ _ _ => .spanning begun (by omega) fun span whole =>
      .pure (.whole whole ?_)
    constructor
    · exact (named.enclosed whole (by omega) (by omega)).1
    · exact received.enclosed whole (by omega) (by omega)
    · exact listed.enclosed whole (by omega) (by omega)
    · intro type member
      exact (returns type member).enclosed whole (Nat.le_refl _) (by omega)
  refine .bind (.eat TokenKind.noConfusion) fun _ _ le _ => .ite (fun _ => ?_) fun _ => ?_
  · refine .bind .type fun ret _ le' typed => .given ?_
    exact ended (some ret) (by omega) (forall_mem_some (typed.mono (by omega) (Nat.le_refl _)))
  · exact .given (ended none le nofun)

/-! ### Storage and events -/

theorem end_of_member : Traces row first endOfMember fun _ _ => True :=
  .bind (.eat TokenKind.noConfusion) fun _ _ _ _ => .ite (fun _ => .pure trivial)
    fun _ => .looking fun _ => .ite (fun _ => .pure trivial)
      fun _ => .bind (.expect_mark _) fun _ _ _ _ => .pure trivial

theorem storage_member :
    Traces row first storageMember (Placed row MemberDecl.span MemberDecl.Nested first) := by
  refine .starting fun start begins => .bind .attributes fun attributes _ _ listed =>
    .bind .identifier fun name _ _ named => .bind (.expect_mark _) fun _ _ _ _ =>
      .bind .type fun type _ _ typed => ?_
  have takes := named.1.lt
  have begun := begins (Nat.lt_of_le_of_lt (by omega) named.1.lt_length)
  refine .spanning begun (by omega) fun span whole => .bind .end_of_member fun _ _ le _ => .pure ?_
  apply Placed.mono _ (Nat.le_refl _) le
  apply Placed.whole whole
  constructor
  · exact listed.enclosed whole (Nat.le_refl _) (by omega)
  · exact (named.enclosed whole (by omega) (by omega)).1
  · exact typed.enclosed whole (by omega) (Nat.le_refl _)

theorem storage_block :
    Traces row first storageBlock (Placed row StorageBlock.span StorageBlock.Nested first) := by
  refine .starting fun start begins => .bind (.expect_keyword _) fun _ _ _ keyword =>
    .bind (.list_block fun _ => .storage_member) fun members _ _ listed =>
      .spanning (begins keyword.1) (by omega) fun span whole => .pure (.whole whole ?_)
  have below := listed.enclosed whole (by omega) (Nat.le_refl _)
  exact ⟨below.1, below.2⟩

theorem event_variant :
    Traces row first eventVariant (Placed row VariantDecl.span VariantDecl.Nested first) := by
  refine .starting fun start begins => .bind .attributes fun attributes _ _ listed =>
    .bind .identifier fun name middle _ named => ?_
  have takes := named.1.lt
  have begun := begins (Nat.lt_of_le_of_lt (by omega) named.1.lt_length)
  have ended (payload : Option TypeExpr) {last : Nat} (le : middle ≤ last)
      (carries : ∀ type ∈ payload, Placed row TypeExpr.span TypeExpr.Nested first type last) :
      Traces row last (do
        let span ← spanFrom start
        endOfMember
        return VariantDecl.mk attributes name payload span)
        (Placed row VariantDecl.span VariantDecl.Nested first) := by
    refine .spanning begun (by omega) fun span whole => .bind .end_of_member fun _ _ le' _ => .pure ?_
    apply Placed.mono _ (Nat.le_refl _) le'
    apply Placed.whole whole
    constructor
    · exact listed.enclosed whole (Nat.le_refl _) (by omega)
    · exact (named.enclosed whole (by omega) (by omega)).1
    · intro type member
      exact (carries type member).enclosed whole (Nat.le_refl _) (Nat.le_refl _)
  refine .bind (.eat TokenKind.noConfusion) fun _ _ le _ => .ite (fun _ => ?_) fun _ => ?_
  · refine .bind .type fun type _ le' typed => .given ?_
    exact ended (some type) (by omega) (forall_mem_some (typed.mono (by omega) (Nat.le_refl _)))
  · exact .given (ended none le nofun)

theorem event_block :
    Traces row first eventBlock (Placed row EventBlock.span EventBlock.Nested first) := by
  refine .starting fun start begins => .bind (.expect_keyword _) fun _ _ _ keyword =>
    .bind (.list_block fun _ => .event_variant) fun variants _ _ listed =>
      .spanning (begins keyword.1) (by omega) fun span whole => .pure (.whole whole ?_)
  have below := listed.enclosed whole (by omega) (Nat.le_refl _)
  exact ⟨below.1, below.2⟩

theorem keep_first {Block : Type} {fits : Block → Prop} {present : Option Block} {block : Block}
    (before : ∀ kept ∈ present, fits kept) (here : fits block) (word owner : String) (span : Span) :
    Traces row first (keepFirst present block word owner span)
      fun kept _ => ∀ block ∈ kept, fits block := by
  cases present with
  | none => exact .pure (forall_mem_some here)
  | some present => exact .bind (.report _ _ _) fun _ _ _ _ => .pure before

/-! ### Members of components and contracts -/

theorem interface :
    Traces row first interface (Placed row InterfaceDecl.span InterfaceDecl.Nested first) := by
  refine .starting fun start begins => .bind (.expect_keyword _) fun _ _ _ keyword =>
    .bind .identifier fun name _ _ named =>
      .bind (.list_block fun _ => .method) fun methods _ _ listed =>
        .spanning (begins keyword.1) (by omega) fun span whole => .pure (.whole whole ?_)
  constructor
  · exact (named.enclosed whole (by omega) listed.1.le).1
  · exact listed.enclosed whole (by omega) (Nat.le_refl _)

/-- A construct behind attributes starts with the first of them. -/
theorem starting_first {attributes : List Attribute} {middle : Nat} {Result : Type}
    {next : Span → Parse Result} {extent : Result → Nat → Prop}
    (listed : Listed row Attribute.span Attribute.Nested first attributes middle)
    (goesOn : ∀ start i j, first ≤ i → i ≤ middle → j ≤ middle + 1 →
      Listed row Attribute.span Attribute.Nested i attributes middle →
      (middle < row.tokens.length → row.Stretch i j start) →
      Traces row middle (next start) extent) :
    Traces row middle (startBehind attributes >>= next) extent := by
  obtain ⟨follows, nested⟩ := listed
  cases attributes with
  | nil =>
      cases follows with
      | nil le =>
          exact .starting fun start begins => goesOn start middle (middle + 1) le (Nat.le_refl _)
            (Nat.le_refl _) (.nil (Nat.le_refl _)) begins
  | cons attr others =>
      cases follows with
      | cons here behind =>
          obtain ⟨i, j, lower, upper, stretch⟩ := here
          have within := behind.le
          have takes := stretch.lt
          exact .given (goesOn attr.span i j lower (by omega) (by omega)
            ⟨.cons (stretch.inside (Nat.le_refl _) upper) behind, nested⟩ fun _ => stretch)

theorem implementation {attributes : List Attribute} {middle : Nat}
    (listed : Listed row Attribute.span Attribute.Nested first attributes middle) :
    Traces row middle (implementation attributes)
      (Placed row ImplDecl.span ImplDecl.Nested first) := by
  refine .starting_first listed fun start i j lower _ _ attributed begins => ?_
  refine .bind (.expect_keyword _) fun _ _ _ keyword => ?_
  have begun := begins keyword.1
  refine .bind .identifier fun name last _ named => ?_
  have ended (interface : Option Ident) (methods : List MethodDecl) {stop : Nat} (le : last ≤ stop)
      (implements : ∀ name ∈ interface, Placed row Ident.span (fun _ => True) last name stop)
      (below : Listed row MethodDecl.span MethodDecl.Nested last methods stop) :
      Traces row stop (do
        return ImplDecl.mk attributes name interface methods (← spanFrom start))
        (Placed row ImplDecl.span ImplDecl.Nested first) := by
    refine .spanning begun (by omega) fun span whole => .pure ?_
    refine ⟨whole.inside lower (Nat.le_refl _), ?_⟩
    constructor
    · exact attributed.enclosed whole (Nat.le_refl _) (by omega)
    · exact (named.enclosed whole (by omega) le).1
    · intro name member
      exact ((implements name member).enclosed whole (by omega) (Nat.le_refl _)).1
    · exact below.enclosed whole (by omega) (Nat.le_refl _)
  refine .bind (.eat TokenKind.noConfusion) fun _ _ le₁ _ => .ite (fun _ => ?_) fun _ => ?_
  · refine .bind .identifier fun interface _ le₂ implements => ?_
    refine .bind (.eat TokenKind.noConfusion) fun _ _ le₃ _ => .ite (fun _ => ?_) fun _ => ?_
    · exact .given (ended (some interface) [] (by omega)
        (forall_mem_some (implements.mono le₁ le₃)) (.nil (by omega)))
    · refine .bind (.list_block fun _ => .method) fun methods _ le₄ listed => ?_
      exact ended (some interface) methods (by omega)
        (forall_mem_some (implements.mono le₁ (by omega))) (listed.mono (by omega) (Nat.le_refl _))
  · refine .bind (.list_block fun _ => .method) fun methods _ le₂ listed => ?_
    exact ended none methods (by omega) nofun (listed.mono le₁ (Nat.le_refl _))

theorem inclusion :
    Traces row first inclusion (Placed row InclusionDecl.span InclusionDecl.Nested first) := by
  refine .starting fun start begins => .bind (.expect_keyword _) fun _ _ _ keyword => ?_
  refine .bind (.expect_mark _) fun _ _ _ _ => .bind (.expect_mark _) fun _ _ _ _ =>
    .bind (.word _) fun _ _ _ _ => .bind (.expect_mark _) fun _ _ _ _ => ?_
  refine .bind .identifier fun path _ _ pathed => .bind (.expect_mark _) fun _ _ _ _ =>
    .bind (.expect_keyword _) fun _ _ _ _ => .bind (.expect_mark _) fun _ _ _ _ => ?_
  refine .bind .identifier fun storage _ _ stored => .bind (.expect_mark _) fun _ _ _ _ =>
    .bind (.expect_keyword _) fun _ _ _ _ => .bind (.expect_mark _) fun _ _ _ _ => ?_
  refine .bind .identifier fun event _ _ emitted => .bind (.eat TokenKind.noConfusion)
    fun _ _ _ _ => .bind (.expect_mark _) fun _ _ _ _ => ?_
  refine .spanning (begins keyword.1) (by omega) fun span whole =>
    .bind (.expect_mark _) fun _ _ le _ => .pure ?_
  apply Placed.mono _ (Nat.le_refl _) le
  apply Placed.whole whole
  constructor
  · exact (pathed.enclosed whole (by omega) (by omega)).1
  · exact (stored.enclosed whole (by omega) (by omega)).1
  · exact (emitted.enclosed whole (by omega) (by omega)).1

theorem exposure {attributes : List Attribute} {middle : Nat}
    (listed : Listed row Attribute.span Attribute.Nested first attributes middle) :
    Traces row middle (exposure attributes)
      (Placed row ExposureDecl.span ExposureDecl.Nested first) := by
  refine .starting_first listed fun start i j lower _ _ attributed begins => ?_
  refine .bind (.expect_keyword _) fun _ _ _ keyword => .bind .identifier fun localName _ _ named =>
    .bind (.expect_mark _) fun _ _ _ _ => .bind .path fun target _ _ targeted =>
      .bind (.expect_mark _) fun _ _ _ _ => ?_
  refine .spanning (begins keyword.1) (by omega) fun span whole => .pure ?_
  refine ⟨whole.inside lower (Nat.le_refl _), ?_⟩
  constructor
  · exact attributed.enclosed whole (Nat.le_refl _) (by omega)
  · exact (named.enclosed whole (by omega) (by omega)).1
  · exact targeted.enclosed whole (by omega) (by omega)

theorem unexpected_member {Result : Type} {extent : Result → Nat → Prop}
    (attributes : List Attribute) (expected : String) (found : TokenKind) :
    Traces row first (unexpectedMember attributes expected found) extent := by
  cases attributes with
  | nil => exact .unexpected _
  | cons attr others => exact .unexpected _

end Traces

/-! ### Components and contracts -/

structure ComponentBetween (row : TokenRow) (first : Nat) (decl : ComponentDecl) (stop : Nat) :
    Prop where
  name : Placed row Ident.span (fun _ => True) first decl.name stop
  storage : ∀ block ∈ decl.storage, Placed row StorageBlock.span StorageBlock.Nested first block stop
  event : ∀ block ∈ decl.event, Placed row EventBlock.span EventBlock.Nested first block stop
  interfaces : Listed row InterfaceDecl.span InterfaceDecl.Nested first decl.interfaces stop
  impls : Listed row ImplDecl.span ImplDecl.Nested first decl.impls stop

structure ContractBetween (row : TokenRow) (first : Nat) (decl : ContractDecl) (stop : Nat) :
    Prop where
  name : Placed row Ident.span (fun _ => True) first decl.name stop
  inclusions : Listed row InclusionDecl.span InclusionDecl.Nested first decl.inclusions stop
  exposures : Listed row ExposureDecl.span ExposureDecl.Nested first decl.exposures stop
  storage : ∀ block ∈ decl.storage, Placed row StorageBlock.span StorageBlock.Nested first block stop
  event : ∀ block ∈ decl.event, Placed row EventBlock.span EventBlock.Nested first block stop

theorem forall_placed_mono {Node : Type} {span : Node → Span} {nested : Node → Prop}
    {found : Option Node} {middle stop : Nat}
    (placed : ∀ node ∈ found, Placed row span nested first node middle) (le : middle ≤ stop) :
    ∀ node ∈ found, Placed row span nested first node stop :=
  fun node member => (placed node member).mono (Nat.le_refl _) le

theorem ComponentBetween.widen {decl : ComponentDecl} {middle stop : Nat} (le : middle ≤ stop)
    (between : ComponentBetween row first decl middle) : ComponentBetween row first decl stop where
  name := between.name.mono (Nat.le_refl _) le
  storage := forall_placed_mono between.storage le
  event := forall_placed_mono between.event le
  interfaces := between.interfaces.mono (Nat.le_refl _) le
  impls := between.impls.mono (Nat.le_refl _) le

theorem ContractBetween.widen {decl : ContractDecl} {middle stop : Nat} (le : middle ≤ stop)
    (between : ContractBetween row first decl middle) : ContractBetween row first decl stop where
  name := between.name.mono (Nat.le_refl _) le
  inclusions := between.inclusions.mono (Nat.le_refl _) le
  exposures := between.exposures.mono (Nat.le_refl _) le
  storage := forall_placed_mono between.storage le
  event := forall_placed_mono between.event le

namespace Traces

theorem component_member {decl : ComponentDecl} {middle : Nat}
    (between : ComponentBetween row first decl middle) :
    Traces row middle (componentMember decl) (ComponentBetween row first) := by
  have lower := between.interfaces.1.le
  refine .bind .attributes fun attributes _ le₁ listed => .looking fun kind => ?_
  split
  · refine .bind .storage_block fun block _ le₂ placed => ?_
    have wide := between.widen (Nat.le_trans le₁ le₂)
    refine .bind (.keep_first wide.storage (placed.mono (by omega) (Nat.le_refl _)) _ _ _)
      fun storage _ le₃ kept => .pure ?_
    exact { wide.widen le₃ with storage := forall_placed_mono kept le₃ }
  · refine .bind .event_block fun block _ le₂ placed => ?_
    have wide := between.widen (Nat.le_trans le₁ le₂)
    refine .bind (.keep_first wide.event (placed.mono (by omega) (Nat.le_refl _)) _ _ _)
      fun event _ le₃ kept => .pure ?_
    exact { wide.widen le₃ with event := forall_placed_mono kept le₃ }
  · refine .bind .interface fun interface _ le₂ placed => .pure ?_
    have wide := between.widen (Nat.le_trans le₁ le₂)
    exact { wide with interfaces := (between.widen le₁).interfaces.concat placed }
  · refine .bind (.implementation listed) fun impl _ le₂ placed => .pure ?_
    have wide := between.widen (Nat.le_trans le₁ le₂)
    exact { wide with impls := between.impls.concat placed }
  · exact .unexpected_member _ _ _

theorem component :
    Traces row first component (Placed row ComponentDecl.span ComponentDecl.Nested first) := by
  refine .starting fun start begins => .bind (.expect_keyword _) fun _ _ _ keyword =>
    .bind .identifier fun name middle _ named => ?_
  have begun := begins keyword.1
  have started : ComponentBetween row first ⟨name, none, none, [], [], start⟩ middle :=
    ⟨named.mono (by omega) (Nat.le_refl _), nofun, nofun, .nil (by omega), .nil (by omega)⟩
  refine .bind (.block (fun _ _ between => .component_member between)
    (fun _ _ _ le between => between.widen le) started) fun decl _ _ read => ?_
  have takes := read.name.1.lt
  refine .spanning begun (by omega) fun span whole => .pure (.whole whole ?_)
  constructor
  · exact (read.name.enclosed whole (Nat.le_refl _) (Nat.le_refl _)).1
  · intro block member
    exact (read.storage block member).enclosed whole (Nat.le_refl _) (Nat.le_refl _)
  · intro block member
    exact (read.event block member).enclosed whole (Nat.le_refl _) (Nat.le_refl _)
  · exact read.interfaces.enclosed whole (Nat.le_refl _) (Nat.le_refl _)
  · exact read.impls.enclosed whole (Nat.le_refl _) (Nat.le_refl _)

theorem contract_member {decl : ContractDecl} {middle : Nat}
    (between : ContractBetween row first decl middle) :
    Traces row middle (contractMember decl) (ContractBetween row first) := by
  have lower := between.inclusions.1.le
  refine .bind .attributes fun attributes _ le₁ listed => .looking fun kind => ?_
  split
  · refine .bind .inclusion fun inclusion _ le₂ placed => .pure ?_
    have wide := between.widen (Nat.le_trans le₁ le₂)
    exact { wide with inclusions := (between.widen le₁).inclusions.concat placed }
  · refine .bind (.exposure listed) fun exposure _ le₂ placed => .pure ?_
    have wide := between.widen (Nat.le_trans le₁ le₂)
    exact { wide with exposures := between.exposures.concat placed }
  · refine .bind .storage_block fun block _ le₂ placed => ?_
    have wide := between.widen (Nat.le_trans le₁ le₂)
    refine .bind (.keep_first wide.storage (placed.mono (by omega) (Nat.le_refl _)) _ _ _)
      fun storage _ le₃ kept => .pure ?_
    exact { wide.widen le₃ with storage := forall_placed_mono kept le₃ }
  · refine .bind .event_block fun block _ le₂ placed => ?_
    have wide := between.widen (Nat.le_trans le₁ le₂)
    refine .bind (.keep_first wide.event (placed.mono (by omega) (Nat.le_refl _)) _ _ _)
      fun event _ le₃ kept => .pure ?_
    exact { wide.widen le₃ with event := forall_placed_mono kept le₃ }
  · exact .unexpected_member _ _ _

theorem contract :
    Traces row first contract (Placed row ContractDecl.span ContractDecl.Nested first) := by
  refine .starting fun start begins => .bind (.expect_keyword _) fun _ _ _ keyword =>
    .bind .identifier fun name middle _ named => ?_
  have begun := begins keyword.1
  have started : ContractBetween row first ⟨name, [], [], none, none, start⟩ middle :=
    ⟨named.mono (by omega) (Nat.le_refl _), .nil (by omega), .nil (by omega), nofun, nofun⟩
  refine .bind (.block (fun _ _ between => .contract_member between)
    (fun _ _ _ le between => between.widen le) started) fun decl _ _ read => ?_
  have takes := read.name.1.lt
  refine .spanning begun (by omega) fun span whole => .pure (.whole whole ?_)
  constructor
  · exact (read.name.enclosed whole (Nat.le_refl _) (Nat.le_refl _)).1
  · exact read.inclusions.enclosed whole (Nat.le_refl _) (Nat.le_refl _)
  · exact read.exposures.enclosed whole (Nat.le_refl _) (Nat.le_refl _)
  · intro block member
    exact (read.storage block member).enclosed whole (Nat.le_refl _) (Nat.le_refl _)
  · intro block member
    exact (read.event block member).enclosed whole (Nat.le_refl _) (Nat.le_refl _)

/-! ### Items -/

end Traces

/-- Where no item starts, its first token is taken. -/
theorem item_traced {cursor : Cursor} (here : cursor.At row first) (more : cursor.atEnd = false) :
    ∃ last, first ≤ last ∧ (item cursor).2.At row last ∧
      ∀ node, (item cursor).1 = some node → Placed row Item.span Item.Nested first node last := by
  have component : Traces row first (component >>= fun decl => pure (.component decl))
      (Placed row Item.span Item.Nested first) :=
    .bind .component fun _ _ _ placed => .pure placed
  have contract : Traces row first (contract >>= fun decl => pure (.contract decl))
      (Placed row Item.span Item.Nested first) :=
    .bind .contract fun _ _ _ placed => .pure placed
  rcases item_cases cursor with same | same | ⟨message, same⟩
  · rw [same]
    exact component cursor here
  · rw [same]
    exact contract cursor here
  · rw [same]
    have reported : (cursor.report .unexpectedToken message cursor.span).At row first := here
    exact ⟨first + 1, Nat.le_succ first, (reported.taking more).2, nofun⟩

/-- A broken item leaves nothing in the tree. -/
theorem items_listed (fuel : Nat) {cursor : Cursor} (here : cursor.At row first) :
    ∃ last, (items fuel cursor).2.At row last ∧
      Listed row Item.span Item.Nested first (items fuel cursor).1 last := by
  induction fuel generalizing cursor first with
  | zero => exact ⟨first, here, .nil (Nat.le_refl _)⟩
  | succ fuel ih =>
      by_cases ended : (cursor.atEnd || cursor.log.isFull) = true
      · rw [items_succ, if_pos ended]
        exact ⟨first, here, .nil (Nat.le_refl _)⟩
      · have more := (Bool.or_eq_false_iff.mp (eq_false_of_ne_true ended)).1
        obtain ⟨middle, le, there, reads⟩ := item_traced here more
        rcases items_round fuel ended with ⟨node, after, ran, whole⟩ | ⟨after, ran, whole⟩
        · rw [ran] at there reads
          obtain ⟨last, final, listed⟩ := ih there
          rw [whole]
          exact ⟨last, final, .cons (reads node rfl) listed⟩
        · rw [ran] at there
          obtain ⟨later, le', skipped⟩ := there.skip_item
          have recovered : after.recoverItem.At row later := skipped
          obtain ⟨last, final, listed⟩ := ih recovered
          rw [whole]
          exact ⟨last, final, listed.mono (Nat.le_trans le le') (Nat.le_refl _)⟩

end Parse

/-! ### Files -/

theorem Span.cover_forward {outer : Span} (forward : outer.start ≤ outer.stop) (inner : Span) :
    (outer.cover inner).start ≤ (outer.cover inner).stop :=
  le_trans (min_le_left _ _) (le_trans forward (le_max_left _ _))

namespace Cursor

variable {file : SourceFile} {tokens : List Token}

theorem of_tokens_forward (forward : ∀ token ∈ tokens, token.span.start ≤ token.span.stop) :
    (ofTokens file tokens).span.start ≤ (ofTokens file tokens).span.stop := by
  rw [span]
  split
  · rcases of_tokens_finish_mem file tokens with first | ⟨token, member, same⟩
    · rw [first]
      exact le_refl _
    · rw [same]
      exact forward token member
  · next token rest ahead =>
      rw [of_tokens_ahead] at ahead
      apply forward
      apply (List.takeWhile_sublist (fun token : Token => decide (token.kind ≠ .endOfFile))).mem
      rw [ahead]
      exact List.mem_cons_self

end Cursor

namespace SourceFile

/-- The tree read from tokens in the order of a text. -/
theorem parse_tokens_nested (file : SourceFile) {tokens : List Token}
    (forward : ∀ token ∈ tokens, token.span.start ≤ token.span.stop)
    (apart : tokens.Pairwise fun first second => first.span.stop.Before second.span.start) :
    (file.parseTokens tokens).tree.Nested := by
  have before : (tokens.takeWhile (·.kind ≠ .endOfFile)).Sublist tokens := List.takeWhile_sublist _
  let row : TokenRow :=
    ⟨_, fun token member => forward token (before.mem member), apart.sublist before⟩
  have start : (Cursor.ofTokens file tokens).At row 0 :=
    ⟨Nat.zero_le _, Cursor.of_tokens_ahead file tokens, nofun⟩
  obtain ⟨last, stop, follows, nested⟩ :=
    Parse.items_listed ((Cursor.ofTokens file tokens).ahead.length + 1) start
  constructor
  · exact Span.cover_forward (Cursor.of_tokens_forward forward) _
  · change Span.EnclosesRow _ ((file.readTokens tokens).1.map Item.span)
    rcases Nat.eq_zero_or_pos last with rfl | some
    · cases items : (file.readTokens tokens).1 with
      | nil => exact ⟨nofun, .nil⟩
      | cons item others =>
          change row.Follows 0 0 ((file.readTokens tokens).1.map Item.span) at follows
          rw [items] at follows
          cases follows with
          | cons here behind => exact absurd behind.le (Nat.not_le_of_lt here.lt)
    · have begins := start.next_token (Nat.lt_of_lt_of_le some stop.within)
      have ends : row.Stretch (last - 1) last (file.readTokens tokens).2.previous :=
        stop.last (Nat.sub_add_cancel some)
      exact follows.enclosed (begins.cover ends (Nat.zero_le _) some) (Nat.le_refl _) (Nat.le_refl _)
  · exact nested

/-- In the tree read from any source text, also one with errors, the span of each node encloses those
of the nodes below it, no span ends before it starts, and the elements of each list lie one behind the
other without a position in common. -/
theorem parse_nested (file : SourceFile) : file.parse.tree.Nested := by
  obtain ⟨found, stop, run⟩ := file.lex_found
  apply file.parse_tokens_nested _ run.ordered
  intro token member
  rw [run.tokens, List.mem_append, List.mem_singleton] at member
  rcases member with inside | ended
  · have stands := run.tokens_stand token inside
    exact .inr ⟨stands.one_line, stands.columns.2⟩
  · rw [ended]
    exact le_refl _

end SourceFile

end Composer
