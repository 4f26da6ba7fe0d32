import Composer.Proofs.Declaration.Invariants
import Composer.Proofs.Token.Spelling

/-!
Names from a file to its tree. Every token but the last can be spelled out, so each identifier among
them is a word that is not reserved. Parsing takes names from such tokens only, also in a file with
errors; here this is carried to the names in the inclusions of contracts.
-/

namespace Composer

/-! ### Tokens -/

theorem SourceFile.lex_from_spelled (file : SourceFile) (fuel : Nat) (position : Position)
    (bytes : List UInt8) (log : ReportLog) :
    ∀ token ∈ (file.lexFrom fuel position bytes log).tokens,
      token.kind ≠ .endOfFile → token.kind.Spelled := by
  have ended : ∀ position, ∀ token ∈ [endToken position],
      token.kind ≠ .endOfFile → token.kind.Spelled := by
    intro position token member real
    rw [List.mem_singleton.mp member] at real
    exact absurd rfl real
  induction fuel generalizing position bytes log with
  | zero => exact ended position
  | succ fuel ih =>
      rw [lexFrom]
      split
      · exact ended _
      · next byte rest _ =>
          dsimp only
          cases scanned : Lexeme.scan byte rest with
          | token kind =>
              exact List.forall_mem_cons.mpr
                ⟨fun _ => Lexeme.scan_token_spelled scanned, ih _ _ _⟩
          | unexpected byte =>
              dsimp only
              split
              · exact ended _
              · exact ih _ _ _

/-! ### Cursors -/

def Cursor.Spelled (cursor : Cursor) : Prop := ∀ token ∈ cursor.ahead, token.kind.Spelled

namespace Cursor

variable {cursor : Cursor}

theorem Spelled.advance (spelled : cursor.Spelled) (more : cursor.atEnd = false) :
    cursor.advance.Spelled := by
  intro token member
  rw [ahead_advance more] at member
  exact spelled token (List.mem_of_mem_tail member)

theorem Spelled.left {previous : Span} {ahead : List Token} (spelled : cursor.Spelled)
    (leaves : LeftOf cursor.previous cursor.ahead (previous, ahead)) :
    Spelled { cursor with previous, ahead } :=
  fun token member => spelled token (leaves.ahead.mem member)

theorem Spelled.kind (spelled : cursor.Spelled) {name : String}
    (next : cursor.kind = .identifier name) : IsIdentifier name := by
  rw [Cursor.kind] at next
  split at next
  · cases next
  · next token rest ahead =>
      have own := spelled token (ahead ▸ List.mem_cons_self)
      rw [next] at own
      exact own

theorem of_tokens_spelled {file : SourceFile} {tokens : List Token}
    (spelled : ∀ token ∈ tokens, token.kind ≠ .endOfFile → token.kind.Spelled) :
    (ofTokens file tokens).Spelled := by
  intro token member
  rw [of_tokens_ahead] at member
  have real := List.all_eq_true.mp List.all_takeWhile token member
  exact spelled token ((List.takeWhile_sublist _).mem member) (of_decide_eq_true real)

end Cursor

def Parse.Invariant.spelled : Parse.Invariant where
  Holds := Cursor.Spelled
  Allows _ := True
  span _ := trivial
  previous _ := trivial
  cover _ _ := trivial
  advance := Cursor.Spelled.advance
  report _ _ _ held _ := held
  recover_member held := held.left (Cursor.skip_member_leaves _ _ _)
  recover_item held := held.left (Cursor.skip_item_leaves _ _)

/-! ### Inclusions -/

structure InclusionDecl.Named (decl : InclusionDecl) : Prop where
  path : IsIdentifier decl.path.name
  storage : IsIdentifier decl.storage.name
  event : IsIdentifier decl.event.name

def Item.Named : Item → Prop
  | .component _ => True
  | .contract decl => ∀ inclusion ∈ decl.inclusions, inclusion.Named

namespace Parse

theorem Keeps.identifier_named :
    Keeps .spelled Parse.identifier fun ident => IsIdentifier ident.name := by
  intro cursor held
  refine ⟨(Keeps.identifier cursor held).1, fun ident same => ?_⟩
  rcases identifier_cases cursor with ⟨name, next, ran⟩ | ⟨message, ran⟩
  · rw [ran] at same
    cases same
    exact Cursor.Spelled.kind held (Cursor.check_iff.mp next)
  · rw [ran] at same
    cases same

theorem Keeps.inclusion_named : Keeps .spelled Parse.inclusion InclusionDecl.Named :=
  .bind .current_span fun _ begins => .bind (.expect nofun) fun _ _ => .bind (.expect nofun) fun _ _ =>
    .bind (.expect nofun) fun _ _ => .bind (.word _) fun _ _ => .bind (.expect nofun) fun _ _ =>
    .bind .identifier_named fun _ path => .bind (.expect nofun) fun _ _ =>
    .bind (.expect nofun) fun _ _ => .bind (.expect nofun) fun _ _ =>
    .bind .identifier_named fun _ storage => .bind (.expect nofun) fun _ _ =>
    .bind (.expect nofun) fun _ _ => .bind (.expect nofun) fun _ _ =>
    .bind .identifier_named fun _ event => .bind (.eat nofun) fun _ _ =>
    .bind (.expect nofun) fun _ _ => .bind (.span_from begins) fun _ _ =>
    .bind (.expect nofun) fun _ _ => .pure ⟨path, storage, event⟩

theorem Keeps.contract_member_named {decl : ContractDecl}
    (begun : ∀ inclusion ∈ decl.inclusions, inclusion.Named) :
    Keeps .spelled (contractMember decl) fun decl =>
      ∀ inclusion ∈ decl.inclusions, inclusion.Named := by
  -- Blocks and exposures leave the inclusions as they are; of these nothing needs to be known.
  refine .bind .attributes fun _ attributed => .bind (.glance _) fun _ _ => ?_
  split
  · exact .bind .inclusion_named fun _ last => .pure (forall_mem_concat begun last)
  · exact .bind (.exposure attributed) fun _ _ => .pure begun
  · exact .bind .storage_block fun _ _ =>
      .bind (.keep_first (fun _ _ => trivial) trivial _ _ trivial) fun _ _ => .pure begun
  · exact .bind .event_block fun _ _ =>
      .bind (.keep_first (fun _ _ => trivial) trivial _ _ trivial) fun _ _ => .pure begun
  · exact .unexpected_member _ _ _

/-- A component has no inclusions. -/
theorem Keeps.component_named :
    Keeps .spelled Parse.component fun decl => Item.Named (.component decl) :=
  fun cursor held => ⟨(Keeps.component cursor held).1, fun _ _ => trivial⟩

theorem Keeps.contract_named :
    Keeps .spelled Parse.contract fun decl => ∀ inclusion ∈ decl.inclusions, inclusion.Named :=
  .bind .current_span fun _ begins => .bind (.expect nofun) fun _ _ => .bind .identifier fun _ _ =>
    .bind (.block (fun _ begun => .contract_member_named begun) nofun) fun _ read =>
      .bind (.span_from begins) fun _ _ => .pure read

end Parse

/-! ### Files -/

/-- Whatever a file holds, the names in the inclusions of its contracts are identifiers. -/
theorem SourceFile.inclusions_named {file : SourceFile} {decl : ContractDecl}
    (declared : decl ∈ file.parse.tree.contracts) :
    ∀ inclusion ∈ decl.inclusions, inclusion.Named := by
  have spelled : (Cursor.ofTokens file file.lex.tokens).Spelled :=
    Cursor.of_tokens_spelled (file.lex_from_spelled _ _ _ _)
  have named := (Parse.items_keep_fits .component_named .contract_named
    ((Cursor.ofTokens file file.lex.tokens).ahead.length + 1) spelled).2
  rcases List.mem_filterMap.mp declared with ⟨item, present, same⟩
  cases item with
  | component _ => cases same
  | contract other =>
      cases same
      exact named (.contract decl) present

end Composer
