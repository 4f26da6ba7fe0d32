import Composer.Proofs.Declaration.Pairing.Grammar
import Composer.Proofs.Declaration.Words

/-!
Where a block of a file is found in its tree. Reading without errors goes over every word of the file,
and a word that opens a block is taken where such a block is read. So what is read behind the word is
a part of one of the items.
-/

namespace Composer

namespace Item

def storage : Item → Option StorageBlock
  | component decl => decl.storage
  | contract decl => decl.storage

def event : Item → Option EventBlock
  | component decl => decl.event
  | contract decl => decl.event

def interfaces : Item → List InterfaceDecl
  | component decl => decl.interfaces
  | contract _ => []

def impls : Item → List ImplDecl
  | component decl => decl.impls
  | contract _ => []

def Has (item : Item) : ComponentPart → Prop
  | .storage block => item.storage = some block
  | .event block => item.event = some block
  | .interface decl => decl ∈ item.interfaces
  | .impl decl => decl ∈ item.impls

def PartsIn (item other : Item) : Prop := ∀ part, item.Has part → other.Has part

end Item

namespace Parse

variable {Result Other State : Type}

theorem Forward.of_sound {action : Parse Result} {reading : Reading Result} {least : Nat}
    (advances : Advances least action) (sound : Sound 0 action reading) : Forward action :=
  ⟨advances.ahead, sound.steady⟩

/-! ### Conditions on cursors -/

/-- Started where `before` holds, an action that succeeds without errors stops where `after` holds of
its result and of the cursor. -/
structure Ensures (before : Cursor → Prop) (action : Parse Result)
    (after : Result → Cursor → Prop) : Prop where
  forward : Forward action
  ensures {cursor stop : Cursor} {result : Result} : before cursor →
    action cursor = (some result, stop) → stop.log.totalErrors = cursor.log.totalErrors →
      after result stop

namespace Ensures

variable {before : Cursor → Prop} {after : Result → Cursor → Prop}

theorem of_forward {action : Parse Result} (forward : Forward action) :
    Ensures before action fun _ _ => True :=
  ⟨forward, fun _ _ _ => trivial⟩

theorem mono {action : Parse Result} {stronger : Cursor → Prop} {weaker : Result → Cursor → Prop}
    (ensures : Ensures before action after) (first : ∀ cursor, stronger cursor → before cursor)
    (last : ∀ result cursor, after result cursor → weaker result cursor) :
    Ensures stronger action weaker :=
  ⟨ensures.forward, fun holds ran clean => last _ _ (ensures.ensures (first _ holds) ran clean)⟩

/-- An action that cannot succeed without errors. -/
theorem of_errors {action : Parse Result} (forward : Forward action)
    (errors : ∀ cursor stop result, before cursor → action cursor = (some result, stop) →
      stop.log.totalErrors ≠ cursor.log.totalErrors) : Ensures before action after :=
  ⟨forward, fun holds ran clean => absurd clean (errors _ _ _ holds ran)⟩

theorem of_failure {action : Parse Result} (forward : Forward action)
    (fails : ∀ cursor, before cursor → (action cursor).1 = none) : Ensures before action after := by
  apply of_errors forward
  intro cursor stop result holds ran
  have failed := fails cursor holds
  rw [ran] at failed
  cases failed

theorem either {action : Parse Result} {otherwise : Cursor → Prop}
    (first : Ensures before action after) (second : Ensures otherwise action after) :
    Ensures (fun cursor => before cursor ∨ otherwise cursor) action after :=
  ⟨first.forward, fun holds ran clean => holds.elim (first.ensures · ran clean)
    (second.ensures · ran clean)⟩

/-- What holds of no cursor in particular goes on to hold. -/
theorem frame {action : Parse Result} {P : Prop}
    (stays : Ensures before action fun _ => before) :
    Ensures (fun cursor => before cursor ∨ P) action fun _ cursor => before cursor ∨ P :=
  ⟨stays.forward, fun holds ran clean => holds.imp_left (stays.ensures · ran clean)⟩

theorem of_span {action : Parse Result}
    (each : ∀ span, Ensures (fun cursor => before cursor ∧ span = cursor.span) action after) :
    Ensures before action after :=
  ⟨(each (.point 1 1)).forward, fun holds ran clean => (each _).ensures ⟨holds, rfl⟩ ran clean⟩

theorem pure {result : Result} (holds : ∀ cursor, before cursor → after result cursor) :
    Ensures before (Pure.pure result) after := by
  constructor
  · exact .pure result
  · intro cursor stop other here ran _
    cases ran
    exact holds cursor here

theorem look {view : Cursor → Result} (holds : ∀ cursor, before cursor → after (view cursor) cursor) :
    Ensures before (look view) after := by
  constructor
  · exact .look view
  · intro cursor stop result here ran _
    cases ran
    exact holds cursor here

theorem bind {action : Parse Other} {next : Other → Parse Result}
    {between : Other → Cursor → Prop} (first : Ensures before action between)
    (second : ∀ result, Ensures (between result) (next result) after) :
    Ensures before (action >>= next) after := by
  constructor
  · exact .bind first.forward fun result => (second result).forward
  · intro cursor stop result holds ran clean
    obtain ⟨other, middle, started, goesOn, cleanHere, cleanThere⟩ :=
      first.forward.bind_clean (fun other => (second other).forward) ran clean
    have holdsBetween := first.ensures holds started cleanHere
    exact (second other).ensures holdsBetween goesOn cleanThere

theorem stay (view : Cursor → Result) : Ensures before (Parse.look view) fun _ => before :=
  .look fun _ => id

theorem with_fuel {action : Nat → Parse Result} (each : ∀ fuel, Ensures before (action fuel) after) :
    Ensures before (withFuel action) after := by
  constructor
  · constructor
    · exact fun cursor => (each _).forward.ahead cursor
    · exact fun cursor => (each _).forward.errors cursor
  · exact fun holds ran clean => (each _).ensures holds ran clean

theorem spanned (start : Span) (node : Span → Result) :
    Ensures before (do return node (← spanFrom start)) fun _ => before :=
  .bind (.stay _) fun _ => .pure fun _ => id

theorem current_span :
    Ensures before currentSpan fun start cursor => before cursor ∧ start = cursor.span :=
  .look fun _ holds => ⟨holds, rfl⟩

/-- A block that is kept in its place is the one that was read, and the place was empty. -/
theorem kept {Block : Type} {read : Parse Block} {present : Option Block} {word owner : String}
    {span : Block → Span} {found : Block → Cursor → Prop} {next : Option Block → Result}
    (reads : Ensures before read found)
    (keeps : ∀ block cursor, present = none → found block cursor → after (next (some block)) cursor) :
    Ensures before (do
      let block ← read
      return next (← keepFirst present block word owner (span block))) after := by
  apply bind reads
  intro block
  cases present with
  | none => exact pure fun cursor => keeps block cursor rfl
  | some first =>
      apply of_errors
      · exact .bind (.bind (.report _ _ _) fun _ => .pure _) fun _ => .pure _
      · rintro cursor stop result _ ran
        cases ran
        exact Nat.succ_ne_self _

theorem unexpected_member (attributes : List Attribute) (expected : String) (found : TokenKind) :
    Ensures before (unexpectedMember attributes expected found : Parse Result) after := by
  unfold unexpectedMember
  split
  · exact of_failure (.unexpected _) fun _ _ => rfl
  · exact of_failure (.unexpected _) fun _ _ => rfl

/-- A step that keeps a condition on states and cursors. -/
theorem members {step : State → Parse State} {holds : State → Cursor → Prop}
    (steps : MemberStep step) (each : ∀ state, Ensures (holds state) (step state) holds) (fuel : Nat)
    (state : State) : Ensures (holds state) (members step fuel state) holds := by
  have forward (state : State) : Forward (step state) := (each state).forward
  constructor
  · exact .members forward fuel state
  · intro cursor stop last here ran clean
    induction fuel generalizing state cursor with
    | zero => cases ran
    | succ fuel ih =>
        by_cases ended : (cursor.check (.mark .rightBrace) || cursor.atEnd) = true
        · rw [members_succ, if_pos ended] at ran
          cases ran
          exact here
        · rcases members_clean steps forward ended ran clean with
            ⟨next, middle, stepped, ranOn, cleanHere⟩
          have holdsNext := (each state).ensures here stepped cleanHere
          exact ih next holdsNext ranOn (clean.trans cleanHere.symm)

/-! ### Parts -/

/-- What follows `action` starts anywhere, and only its outcome matters. -/
theorem after_any {action : Parse Other} {next : Other → Parse Result} {after : Result → Prop}
    (forward : Forward action)
    (second : ∀ result, Ensures (fun _ => True) (next result) fun result _ => after result) :
    Ensures (fun _ => True) (action >>= next) fun result _ => after result :=
  .bind (.of_forward forward) second

/-- A member that is read leaves the parts that were read before it. -/
theorem component_member_adds (decl : ComponentDecl) :
    Ensures (fun _ => True) (componentMember decl) fun next _ =>
      (Item.component decl).PartsIn (.component next) := by
  apply after_any (.of_keeps fun _ => .attributes)
  intro attributes
  apply after_any (.look _)
  intro kind
  split
  · apply kept (.of_forward (.of_keeps fun _ => .storage_block))
    intro block cursor absent _ part has
    cases part with
    | storage => exact nomatch absent.symm.trans has
    | _ => exact has
  · apply kept (.of_forward (.of_keeps fun _ => .event_block))
    intro block cursor absent _ part has
    cases part with
    | event => exact nomatch absent.symm.trans has
    | _ => exact has
  · apply after_any (.of_keeps fun _ => .interface)
    intro interface
    apply pure
    intro cursor _ part has
    cases part with
    | interface => exact List.mem_append_left _ has
    | _ => exact has
  · apply after_any (.of_sound (.implementation attributes) (.implementation attributes))
    intro impl
    apply pure
    intro cursor _ part has
    cases part with
    | impl => exact List.mem_append_left _ has
    | _ => exact has
  · exact unexpected_member _ _ _

theorem contract_member_adds (decl : ContractDecl) :
    Ensures (fun _ => True) (contractMember decl) fun next _ =>
      (Item.contract decl).PartsIn (.contract next) := by
  apply after_any (.of_keeps fun _ => .attributes)
  intro attributes
  apply after_any (.look _)
  intro kind
  split
  · apply after_any (.of_keeps fun _ => .inclusion)
    intro inclusion
    apply pure
    intro cursor _ part has
    cases part <;> exact has
  · have settles : Settles 0 1 (Parse.exposure attributes) := .exposure attributes
    apply after_any (.of_sound settles.advances (.exposure attributes))
    intro exposure
    apply pure
    intro cursor _ part has
    cases part <;> exact has
  · apply kept (.of_forward (.of_keeps fun _ => .storage_block))
    intro block cursor absent _ part has
    cases part with
    | storage => exact nomatch absent.symm.trans has
    | _ => exact has
  · apply kept (.of_forward (.of_keeps fun _ => .event_block))
    intro block cursor absent _ part has
    cases part with
    | event => exact nomatch absent.symm.trans has
    | _ => exact has
  · exact unexpected_member _ _ _

end Ensures

end Parse

/-! ### The spot -/

/-- What stands behind a word, where neither an inclusion nor an exposure goes on like that. -/
def GoesOnAsBlock (rest : List Token) : Prop :=
  rest.head?.map (·.kind) ≠ some (.mark .colon) ∧
    ∀ name, rest.head?.map (·.kind) = some (.identifier name) →
      rest.tail.head?.map (·.kind) ≠ some (.mark .equal)

namespace GoesOnAsBlock

variable {cursor : Cursor}

theorem check_colon (goesOn : GoesOnAsBlock cursor.ahead) : cursor.check (.mark .colon) = false := by
  apply eq_false_of_ne_true
  intro colon
  rcases Cursor.ahead_of_check TokenKind.noConfusion colon with ⟨token, rest, same, ahead⟩
  apply goesOn.1
  rw [ahead, List.head?_cons, Option.map_some, same]

theorem check_equal {name : String} (goesOn : GoesOnAsBlock cursor.ahead)
    (named : cursor.check (.identifier name) = true) :
    cursor.advance.check (.mark .equal) = false := by
  apply eq_false_of_ne_true
  intro equal
  have more := Cursor.at_end_of_check TokenKind.noConfusion named
  rcases Cursor.ahead_of_check TokenKind.noConfusion named with ⟨first, others, isName, here⟩
  rcases Cursor.ahead_of_check TokenKind.noConfusion equal with ⟨token, rest, same, ahead⟩
  apply goesOn.2 name
  · rw [here, List.head?_cons, Option.map_some, isName]
  · rw [← Cursor.ahead_advance more, ahead, List.head?_cons, Option.map_some, same]

end GoesOnAsBlock

structure Spot where
  word : Token
  rest : List Token
  found : ComponentPart → Prop

namespace Spot

variable (spot : Spot)

def Before (cursor : Cursor) : Prop :=
  spot.word :: spot.rest <:+ cursor.ahead ∧ cursor.log.isFull = false

def Behind (cursor : Cursor) : Prop :=
  cursor.ahead = spot.rest ∧ cursor.previous = spot.word.span ∧ cursor.log.isFull = false

def FoundIn (item : Item) : Prop := ∃ part, spot.found part ∧ item.Has part

open Parse in
def ReadBehind : Keyword → Prop
  | .storage =>
      Ensures spot.Behind (do
        let members ← listBlock Parse.storageMember
        return StorageBlock.mk members (← spanFrom spot.word.span)) fun block _ =>
          spot.found (.storage block)
  | .event =>
      Ensures spot.Behind (do
        let variants ← listBlock Parse.eventVariant
        return EventBlock.mk variants (← spanFrom spot.word.span)) fun block _ =>
          spot.found (.event block)
  | .interface =>
      Ensures spot.Behind (interfaceBehind spot.word.span) fun decl _ =>
        spot.found (.interface decl)
  | .impl => ∀ attributes start,
      Ensures spot.Behind (implementationBehind attributes start) fun decl _ =>
        spot.found (.impl decl)
  | _ => True

structure Opens : Prop where
  block : ∃ block ∈ [Keyword.storage, .event, .interface, .impl], spot.word.kind = .keyword block
  behind {word : Keyword} : spot.word.kind = .keyword word → spot.ReadBehind word
  goesOn : GoesOnAsBlock spot.rest

variable {spot}

theorem Opens.goesOn_at {cursor : Cursor} (opens : spot.Opens) (behind : spot.Behind cursor) :
    GoesOnAsBlock cursor.ahead := by
  rw [behind.1]
  exact opens.goesOn

theorem FoundIn.mono {item other : Item} (found : spot.FoundIn item) (parts : item.PartsIn other) :
    spot.FoundIn other := by
  rcases found with ⟨part, isFound, has⟩
  exact ⟨part, isFound, parts part has⟩

theorem Opens.not_inner (opens : spot.Opens) : ¬Inner spot.word.kind := by
  rcases opens.block with ⟨block, listed, isWord⟩
  have barred : ∀ block ∈ [Keyword.storage, .event, .interface, .impl], ¬Inner (.keyword block) := by
    decide
  rw [isWord]
  exact barred block listed

theorem Opens.other {kind : TokenKind} (opens : spot.Opens) (inner : Inner kind) :
    kind ≠ spot.word.kind := by
  rintro rfl
  exact opens.not_inner inner

/-- Taking a token leads on towards the word, or takes it. -/
theorem Before.advance {cursor : Cursor} (before : spot.Before cursor) :
    spot.Before cursor.advance ∨
      cursor.kind = spot.word.kind ∧ cursor.span = spot.word.span ∧ spot.Behind cursor.advance := by
  rcases before with ⟨suffix, room⟩
  rw [← cursor.log_advance] at room
  cases ahead : cursor.ahead with
  | nil =>
      rw [ahead, List.suffix_nil] at suffix
      cases suffix
  | cons token rest =>
      rw [ahead, List.suffix_cons_iff] at suffix
      rw [Cursor.advance_of_ahead ahead] at room ⊢
      rcases suffix with here | later
      · cases here
        exact .inr ⟨Cursor.kind_of_ahead ahead, Cursor.span_of_ahead ahead, rfl, rfl, room⟩
      · exact .inl ⟨later, room⟩

theorem Before.advance_other {cursor : Cursor} {kind : TokenKind} (before : spot.Before cursor)
    (next : cursor.check kind = true) (other : kind ≠ spot.word.kind) :
    spot.Before cursor.advance := by
  rw [Cursor.check_iff] at next
  exact before.advance.resolve_right fun taken => other (next.symm.trans taken.1)

end Spot

namespace Parse

namespace Ensures

variable {Result Node : Type} {spot : Spot}

section Tokens

variable {kind : TokenKind} (real : kind ≠ .endOfFile) (other : kind ≠ spot.word.kind)
include real other

theorem eat_else {yes no : Parse Result} {after : Result → Cursor → Prop}
    (taken : Ensures spot.Before yes after) (missing : Ensures spot.Before no after) :
    Ensures spot.Before (eat kind >>= fun took => if took = true then yes else no) after := by
  constructor
  · exact .eat_else real taken.forward missing.forward
  · intro cursor stop result before ran clean
    rw [eat_else_run] at ran
    split at ran
    · next next =>
        rw [← cursor.log_advance] at clean
        exact taken.ensures (before.advance_other next other) ran clean
    · exact missing.ensures before ran clean

theorem expect : Ensures spot.Before (expect kind) fun _ => spot.Before := by
  apply eat_else real other
  · exact stay _
  · exact of_failure (.bind (.look _) fun _ => .unexpected _) fun _ _ => rfl

end Tokens

theorem expect_word (word : Keyword) (start : Span) :
    Ensures (fun cursor => spot.Before cursor ∧ start = cursor.span) (Parse.expect (.keyword word))
      fun _ cursor => spot.Before cursor ∨
        (spot.word.kind = .keyword word ∧ start = spot.word.span) ∧ spot.Behind cursor := by
  constructor
  · exact .of_keeps fun _ => .expect TokenKind.noConfusion
  · intro cursor stop result holds ran _
    cases next : cursor.check (.keyword word) with
    | false =>
        rcases expect_missing next with ⟨message, missing⟩
        rw [missing] at ran
        cases ran
    | true =>
        rw [expect_found next] at ran
        cases ran
        rw [Cursor.check_iff] at next
        rcases holds.1.advance with before | ⟨kind, span, behind⟩
        · exact .inl before
        · exact .inr ⟨⟨kind.symm.trans next, holds.2.trans span⟩, behind⟩

/-- A construct with a word in front is in front of the word of the block as well, or it is what the
block is read as. -/
theorem behind_word {word : Keyword} {start : Span} {body : Parse Node}
    {part : Node → ComponentPart} (before : Ensures spot.Before body fun _ => spot.Before)
    (behind : spot.word.kind = .keyword word → start = spot.word.span →
      Ensures spot.Behind body fun node _ => spot.found (part node)) :
    Ensures (fun cursor => spot.Before cursor ∧ start = cursor.span)
      (Parse.expect (.keyword word) >>= fun _ => body)
      fun node cursor => spot.Before cursor ∨ spot.found (part node) := by
  apply bind (.expect_word word start)
  intro taken
  apply either
  · exact before.mono (fun _ => id) fun _ _ => .inl
  · constructor
    · exact before.forward
    · rintro cursor stop node ⟨⟨isWord, starts⟩, here⟩ ran clean
      exact .inr ((behind isWord starts).ensures here ran clean)

theorem start_behind (attributes : List Attribute) :
    Ensures spot.Before (startBehind attributes) fun _ => spot.Before := by
  rw [startBehind]
  split
  · exact pure fun _ => id
  · exact stay _

theorem goes_on {State : Type} {step : State → Parse State} {state : State} {item : State → Item}
    (reads : Ensures spot.Before (step state) fun next cursor =>
      spot.Before cursor ∨ spot.FoundIn (item next))
    (adds : Ensures (fun _ => True) (step state) fun next _ => (item state).PartsIn (item next)) :
    Ensures (fun cursor => spot.Before cursor ∨ spot.FoundIn (item state)) (step state)
      fun next cursor => spot.Before cursor ∨ spot.FoundIn (item next) := by
  apply either reads
  constructor
  · exact reads.forward
  · intro cursor stop next found ran clean
    exact .inr (found.mono (adds.ensures trivial ran clean))

section Inside

variable (opens : spot.Opens)
include opens

/-- What holds no word that opens a block is read in front of the word. -/
theorem leaves {action : Parse Node} {written : Node → List TokenKind → Prop}
    (forward : Forward action) (sound : ∀ bound, Sound bound action (Takes written))
    (inner : ∀ node kinds, written node kinds → ∀ kind ∈ kinds, Inner kind) :
    Ensures spot.Before action fun _ => spot.Before := by
  constructor
  · exact forward
  · rintro cursor stop node ⟨suffix, room⟩ ran clean
    rcases (sound _).clean cursor (Nat.lt_succ_self _) room with
      errors | ⟨result, after, ranToo, log, _, kinds, own, split⟩
    · rw [ran, clean] at errors
      exact absurd errors (Nat.lt_irrefl _)
    rw [ran] at ranToo
    cases ranToo
    refine ⟨?_, log ▸ room⟩
    have taken := forward.ahead cursor
    rw [ran] at taken
    rcases List.suffix_or_suffix_of_suffix suffix taken with before | behind
    · exact before
    -- Otherwise the word is among the tokens that were taken, which write the node.
    · rcases behind with ⟨more, same⟩
      rcases suffix with ⟨front, all⟩
      cases more with
      | nil => exact ⟨[], same.symm⟩
      | cons first more =>
          rw [List.cons_append, List.cons.injEq] at same
          rw [Cursor.kinds, Cursor.kinds, ← all, ← same.2, List.map_append, List.map_cons,
            List.map_append, ← List.cons_append, ← List.append_assoc] at split
          have isOwn := List.append_cancel_right split
          exact absurd (inner node kinds own _ (isOwn ▸ by simp)) opens.not_inner

theorem attributes : Ensures spot.Before attributes fun _ => spot.Before :=
  leaves opens (.of_keeps fun _ => .attributes) (fun _ => .attributes) fun _ _ =>
    inner_composed.attributes

theorem identifier : Ensures spot.Before identifier fun _ => spot.Before :=
  leaves opens (.of_keeps fun _ => .identifier) (fun _ => .identifier) inner_composed.ident

theorem expect_mark (sign : Mark) :
    Ensures spot.Before (Parse.expect (.mark sign)) fun _ => spot.Before := by
  apply expect TokenKind.noConfusion (opens.other _)
  simp [Inner]

theorem eat (sign : Mark) : Ensures spot.Before (Parse.eat (.mark sign)) fun _ => spot.Before := by
  constructor
  · exact .of_keeps fun _ => .eat TokenKind.noConfusion
  · intro cursor stop took before ran _
    rw [Parse.eat] at ran
    split at ran
    · next next =>
        cases ran
        exact before.advance_other next (opens.other (by simp [Inner]))
    · cases ran
      exact before

theorem word (spelling : String) :
    Ensures spot.Before (Parse.word spelling) fun _ => spot.Before := by
  apply eat_else TokenKind.noConfusion (opens.other (by simp [Inner]))
  · exact stay _
  · exact of_failure (.bind (.look _) fun _ => .unexpected _) fun _ _ => rfl

theorem methods : Ensures spot.Before (listBlock method) fun _ => spot.Before :=
  leaves opens (.of_keeps fun _ => .list_block .method) (fun _ => .methods) fun _ _ => inner_methods

theorem path : Ensures spot.Before path fun _ => spot.Before :=
  leaves opens (.of_keeps fun _ => .path) (fun _ => .path) fun path => inner_composed.type path.toType

theorem closing (opened : Span) :
    Ensures spot.Before (closing opened) fun _ => spot.Before := by
  apply eat_else TokenKind.noConfusion (opens.other (by decide))
  · exact pure fun _ => id
  · exact of_failure (.bind (.report _ _ _) fun _ => .fail) fun _ _ => rfl

theorem block {State : Type} {step : State → Parse State} {found : State → Prop}
    (steps : MemberStep step)
    (each : ∀ state, Ensures (fun cursor => spot.Before cursor ∨ found state) (step state)
      fun next cursor => spot.Before cursor ∨ found next) (initial : State) :
    Ensures spot.Before (block step initial) fun last cursor => spot.Before cursor ∨ found last := by
  apply bind (.expect_mark opens _)
  intro opened
  have read (fuel : Nat) := members steps each fuel initial
  apply bind (.with_fuel fun fuel => (read fuel).mono (fun _ => .inl) fun _ _ => id)
  intro last
  apply bind (frame (.closing opens opened))
  intro closed
  exact pure fun _ => id

/-! ### Members of items -/

theorem storage_block :
    Ensures spot.Before storageBlock fun block cursor =>
      spot.Before cursor ∨ spot.found (.storage block) := by
  apply bind .current_span
  intro start
  apply behind_word
  · apply bind (leaves opens (.of_keeps fun _ => .list_block .storage_member)
      (fun _ => .storage_members) fun _ _ => inner_storage)
    intro members
    exact spanned start _
  · rintro isWord rfl
    exact opens.behind isWord

theorem event_block :
    Ensures spot.Before eventBlock fun block cursor =>
      spot.Before cursor ∨ spot.found (.event block) := by
  apply bind .current_span
  intro start
  apply behind_word
  · apply bind (leaves opens (.of_keeps fun _ => .list_block .event_variant)
      (fun _ => .event_variants) fun _ _ => inner_event)
    intro variants
    exact spanned start _
  · rintro isWord rfl
    exact opens.behind isWord

theorem interface :
    Ensures spot.Before interface fun decl cursor =>
      spot.Before cursor ∨ spot.found (.interface decl) := by
  apply bind .current_span
  intro start
  apply behind_word
  · apply bind (.identifier opens)
    intro name
    apply bind (.methods opens)
    intro methods
    exact spanned start _
  · rintro isWord rfl
    exact opens.behind isWord

theorem implementation_behind (attributes : List Attribute) (start : Span) :
    Ensures spot.Before (implementationBehind attributes start) fun _ => spot.Before := by
  apply bind (.identifier opens)
  intro name
  apply eat_else TokenKind.noConfusion (opens.other (by decide))
  · apply bind (.identifier opens)
    intro interface
    apply eat_else TokenKind.noConfusion (opens.other (by decide))
    · exact spanned start _
    · apply bind (.methods opens)
      intro methods
      exact spanned start _
  · apply bind (.methods opens)
    intro methods
    exact spanned start _

theorem implementation (attributes : List Attribute) :
    Ensures spot.Before (implementation attributes) fun decl cursor =>
      spot.Before cursor ∨ spot.found (.impl decl) := by
  apply bind (.start_behind attributes)
  intro start
  apply of_span
  intro span
  apply behind_word
  · exact implementation_behind opens attributes start
  · intro isWord _
    exact opens.behind isWord attributes start

/-- Where a word stands behind which a colon must follow, the word of the block is still ahead. -/
theorem word_with_colon (word : Keyword) {next : Span → Span → Parse Result}
    {after : Result → Cursor → Prop}
    (before : ∀ first second, Ensures spot.Before (next first second) after) :
    Ensures spot.Before (do
      let first ← Parse.expect (.keyword word)
      let second ← Parse.expect (.mark .colon)
      next first second) after := by
  apply of_span
  intro span
  apply bind (.expect_word word span)
  intro first
  have colon : Ensures (fun cursor => spot.Before cursor ∨
      (spot.word.kind = .keyword word ∧ span = spot.word.span) ∧ spot.Behind cursor)
      (Parse.expect (.mark .colon)) fun _ => spot.Before := by
    apply either (.expect_mark opens _)
    apply of_failure (.of_keeps fun _ => .expect TokenKind.noConfusion)
    rintro cursor ⟨_, behind⟩
    rcases expect_missing (opens.goesOn_at behind).check_colon with ⟨message, missing⟩
    rw [missing]
  exact bind colon (before first)

theorem inclusion : Ensures spot.Before inclusion fun _ => spot.Before := by
  apply bind (.stay _)
  intro start
  apply bind (.expect TokenKind.noConfusion (opens.other (by decide)))
  intro word
  apply bind (.expect_mark opens _)
  intro bang
  apply bind (.expect_mark opens _)
  intro opened
  apply bind (.word opens _)
  intro pathWord
  apply bind (.expect_mark opens _)
  intro colon
  apply bind (.identifier opens)
  intro path
  apply bind (.expect_mark opens _)
  intro comma
  apply word_with_colon opens
  intro storageWord storageColon
  apply bind (.identifier opens)
  intro storage
  apply bind (.expect_mark opens _)
  intro storageComma
  apply word_with_colon opens
  intro eventWord eventColon
  apply bind (.identifier opens)
  intro event
  apply bind (.eat opens _)
  intro trailing
  apply bind (.expect_mark opens _)
  intro closed
  apply bind (.stay _)
  intro span
  apply bind (.expect_mark opens _)
  intro ended
  exact pure fun _ => id

theorem exposure_behind (attributes : List Attribute) (start : Span) :
    Ensures spot.Before (exposureBehind attributes start) fun _ => spot.Before := by
  apply bind (.identifier opens)
  intro localName
  apply bind (.expect_mark opens _)
  intro equal
  apply bind (.path opens)
  intro target
  apply bind (.expect_mark opens _)
  intro ended
  exact spanned start _

theorem exposure (attributes : List Attribute) :
    Ensures spot.Before (exposure attributes) fun _ => spot.Before := by
  apply bind (.start_behind attributes)
  intro start
  apply of_span
  intro span
  apply bind (.expect_word _ span)
  intro word
  apply either (exposure_behind opens attributes start)
  apply of_failure (exposure_behind opens attributes start).forward
  rintro cursor ⟨_, behind⟩
  rcases identifier_cases cursor with ⟨name, next, taken⟩ | ⟨message, failed⟩
  · rcases expect_missing ((opens.goesOn_at behind).check_equal next) with ⟨message, missing⟩
    rw [exposureBehind, bind_of_some taken, bind_of_none missing]
  · rw [exposureBehind, bind_of_none failed]

theorem component_member (decl : ComponentDecl) :
    Ensures spot.Before (componentMember decl) fun next cursor =>
      spot.Before cursor ∨ spot.FoundIn (.component next) := by
  apply bind (.attributes opens)
  intro attributes
  apply bind (.stay _)
  intro kind
  split
  · apply kept (.storage_block opens)
    intro block cursor _ holds
    exact holds.imp_right fun found => ⟨.storage block, found, rfl⟩
  · apply kept (.event_block opens)
    intro block cursor _ holds
    exact holds.imp_right fun found => ⟨.event block, found, rfl⟩
  · apply bind (.interface opens)
    intro interface
    apply pure
    intro cursor holds
    exact holds.imp_right fun found => ⟨.interface interface, found, List.mem_concat_self⟩
  · apply bind (.implementation opens attributes)
    intro impl
    apply pure
    intro cursor holds
    exact holds.imp_right fun found => ⟨.impl impl, found, List.mem_concat_self⟩
  · exact unexpected_member _ _ _

theorem contract_member (decl : ContractDecl) :
    Ensures spot.Before (contractMember decl) fun next cursor =>
      spot.Before cursor ∨ spot.FoundIn (.contract next) := by
  apply bind (.attributes opens)
  intro attributes
  apply bind (.stay _)
  intro kind
  split
  · apply bind (.inclusion opens)
    intro inclusion
    exact pure fun _ => .inl
  · apply bind (.exposure opens attributes)
    intro exposure
    exact pure fun _ => .inl
  · apply kept (.storage_block opens)
    intro block cursor _ holds
    exact holds.imp_right fun found => ⟨.storage block, found, rfl⟩
  · apply kept (.event_block opens)
    intro block cursor _ holds
    exact holds.imp_right fun found => ⟨.event block, found, rfl⟩
  · exact unexpected_member _ _ _

/-! ### Items -/

theorem component :
    Ensures spot.Before component fun decl cursor =>
      spot.Before cursor ∨ spot.FoundIn (.component decl) := by
  apply bind (.stay _)
  intro start
  apply bind (.expect TokenKind.noConfusion (opens.other (by decide)))
  intro word
  apply bind (.identifier opens)
  intro name
  apply bind (.block opens .component (fun decl =>
    goes_on (component_member opens decl) (component_member_adds decl)) _)
  intro decl
  apply bind (.stay _)
  intro span
  apply pure
  intro cursor holds
  apply holds.imp_right
  intro found
  apply found.mono
  intro part has
  cases part <;> exact has

theorem contract :
    Ensures spot.Before contract fun decl cursor =>
      spot.Before cursor ∨ spot.FoundIn (.contract decl) := by
  apply bind (.stay _)
  intro start
  apply bind (.expect TokenKind.noConfusion (opens.other (by decide)))
  intro word
  apply bind (.identifier opens)
  intro name
  apply bind (.block opens .contract (fun decl =>
    goes_on (contract_member opens decl) (contract_member_adds decl)) _)
  intro decl
  apply bind (.stay _)
  intro span
  apply pure
  intro cursor holds
  apply holds.imp_right
  intro found
  apply found.mono
  intro part has
  cases part <;> exact has

end Inside

end Ensures

theorem item_ensures {spot : Spot} (opens : spot.Opens) {cursor stop : Cursor} {node : Item}
    (before : spot.Before cursor) (ran : item cursor = (some node, stop))
    (clean : stop.log.totalErrors = cursor.log.totalErrors) :
    spot.Before stop ∨ spot.FoundIn node := by
  have component : Ensures spot.Before (component >>= fun decl => pure (Item.component decl))
      fun item cursor => spot.Before cursor ∨ spot.FoundIn item :=
    .bind (.component opens) fun _ => .pure fun _ => id
  have contract : Ensures spot.Before (contract >>= fun decl => pure (Item.contract decl))
      fun item cursor => spot.Before cursor ∨ spot.FoundIn item :=
    .bind (.contract opens) fun _ => .pure fun _ => id
  rcases item_cases cursor with same | same | ⟨message, same⟩
  · exact component.ensures before (same.symm.trans ran) clean
  · exact contract.ensures before (same.symm.trans ran) clean
  · rw [same] at ran
    cases ran

/-- Where items are read without errors up to the end, the word is taken in one of them. -/
theorem items_find {spot : Spot} (opens : spot.Opens) {cursor : Cursor} {fuel : Nat}
    (before : spot.Before cursor) (enough : cursor.ahead.length < fuel)
    (clean : (items fuel cursor).2.log.totalErrors = cursor.log.totalErrors) :
    ∃ item ∈ (items fuel cursor).1, spot.FoundIn item := by
  induction fuel generalizing cursor with
  | zero => omega
  | succ fuel ih =>
      have more : cursor.atEnd = false := by
        rw [Cursor.atEnd, List.isEmpty_eq_false_iff]
        intro ended
        have suffix := before.1
        rw [ended, List.suffix_nil] at suffix
        cases suffix
      have passes := (item_passes more).shorter
      rcases items_clean more before.2 clean with ⟨node, after, ran, log, split⟩
      rw [split] at clean ⊢
      rw [ran] at passes
      dsimp only at passes
      rcases item_ensures opens before ran (congrArg ReportLog.totalErrors log) with later | found
      · rw [← log] at clean
        rcases ih later (by omega) clean with ⟨item, member, found⟩
        exact ⟨item, List.mem_cons_of_mem _ member, found⟩
      · exact ⟨node, List.mem_cons_self, found⟩

end Parse

/-- Where a unit is read without errors, what the block behind a word is read as is a part of an item
of the tree. -/
theorem SourceFile.block_found (file : SourceFile) {tokens : List Token} {spot : Spot}
    (opens : spot.Opens) (place : spot.word :: spot.rest <:+ (Cursor.ofTokens file tokens).ahead)
    (clean : (file.parseTokens tokens).log.totalErrors = 0) :
    ∃ item ∈ (file.parseTokens tokens).tree.items, spot.FoundIn item :=
  Parse.items_find opens ⟨place, rfl⟩ (Nat.lt_succ_self _) clean

end Composer
