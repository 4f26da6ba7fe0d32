import Composer.Proofs.Declaration.Completeness.Grammar
import Mathlib.Data.List.Basic

/-!
What sentences are put together from. A property of lists of kinds that single tokens have, and that
joining and bracketing keep, holds of types, attributes, members, variants and methods. So none of
these holds a word that opens a block.
-/

namespace Composer

/-! ### Kinds put together -/

/-- A property of lists of kinds that goes from the pieces of types and parameters to the whole. -/
structure Composed (good : List TokenKind → Prop) : Prop where
  nil : good []
  append {first second : List TokenKind} : good first → good second → good (first ++ second)
  name (name : String) : good [.identifier name]
  mark {sign : Mark} :
    sign ∈ [Mark.doubleColon, .less, .greater, .comma, .atSign, .colon, .hash, .arrow] →
      good [.mark sign]
  parens {kinds : List TokenKind} :
    good kinds → good (.mark .leftParen :: (kinds ++ [.mark .rightParen]))

structure ComposedWhole (good : List TokenKind → Prop) : Prop extends Composed good where
  word {word : Keyword} : word ∈ [Keyword.fn, .self, .ref] → good [.keyword word]
  brackets {kinds : List TokenKind} :
    good kinds → good (.mark .leftBracket :: (kinds ++ [.mark .rightBracket]))

namespace Composed

variable {good : List TokenKind → Prop} (composed : Composed good)
include composed

theorem cons {kind : TokenKind} {rest : List TokenKind} (here : good [kind]) (later : good rest) :
    good (kind :: rest) :=
  composed.append here later

section Lists

variable {Node : Type} {written : Node → List TokenKind → Prop} {nodes : List Node}
  {kinds : List TokenKind}

theorem led {lead : TokenKind} {mayTrail : Prop} (start : good [lead])
    (each : ∀ node kinds, written node kinds → good kinds)
    (list : Led lead mayTrail written nodes kinds) : good kinds := by
  induction list with
  | nil => exact composed.nil
  | trailing _ => exact start
  | cons own _ ih => exact composed.cons start (composed.append (each _ _ own) ih)

theorem comma_list (each : ∀ node kinds, written node kinds → good kinds)
    (list : CommaList written nodes kinds) : good kinds := by
  induction list with
  | nil => exact composed.nil
  | last own => exact each _ _ own
  | cons own _ ih =>
      exact composed.append (each _ _ own) (composed.cons (composed.mark (by decide)) ih)

theorem optional {lead : TokenKind} {node : Option Node} (start : good [lead])
    (each : ∀ node kinds, written node kinds → good kinds)
    (option : Optional lead written node kinds) : good kinds := by
  cases option with
  | none => exact composed.nil
  | some own => exact composed.cons start (each _ _ own)

end Lists

theorem ident (ident : Ident) (kinds : List TokenKind) (written : ident.Written kinds) :
    good kinds := by
  rw [written]
  exact composed.name _

/-- The types within a type are shorter, so the induction is on the number of kinds. -/
theorem type_within (bound : Nat) (type : TypeExpr) (kinds : List TokenKind)
    (written : type.Written kinds) (short : kinds.length ≤ bound) : good kinds := by
  induction bound generalizing type kinds with
  | zero => cases written <;> simp at short
  | succ bound ih =>
      have shorter (type : TypeExpr) (kinds : List TokenKind)
          (own : type.Written kinds ∧ kinds.length ≤ bound) : good kinds :=
        ih type kinds own.1 own.2
      cases written with
      | @path first others generics span names arguments segments typeArguments =>
          rw [List.length_cons, List.length_append] at short
          have named := composed.led (composed.mark (by decide)) composed.ident segments
          apply composed.cons (composed.name _)
          apply composed.append named
          cases typeArguments with
          | none => exact composed.nil
          | @some argument arguments here later own list =>
              simp only [List.length_cons, List.length_append] at short
              have given := shorter argument here ⟨own, by omega⟩
              have few : later.length ≤ bound := by omega
              have more := composed.led (composed.mark (by decide)) shorter (list.within few)
              apply composed.cons (composed.mark (by decide))
              exact composed.append given (composed.append more (composed.mark (by decide)))
      | snapshot inner =>
          exact composed.cons (composed.mark (by decide))
            (shorter _ _ ⟨inner, Nat.le_of_succ_le_succ short⟩)
      | tuple list =>
          simp only [List.length_cons, List.length_append] at short
          exact composed.parens (composed.comma_list shorter (list.within (by omega)))

theorem type (type : TypeExpr) (kinds : List TokenKind) (written : type.Written kinds) :
    good kinds :=
  composed.type_within kinds.length type kinds written (Nat.le_refl _)

theorem param (param : Param) (kinds : List TokenKind) (written : param.Written kinds) :
    good kinds := by
  rcases written with ⟨type, own, rfl⟩
  exact composed.cons (composed.name _)
    (composed.cons (composed.mark (by decide)) (composed.type _ _ own))

end Composed

namespace ComposedWhole

variable {good : List TokenKind → Prop} (composed : ComposedWhole good)
include composed

theorem attributes {nodes : List Attribute} {kinds : List TokenKind}
    (written : AttributesWritten nodes kinds) : good kinds := by
  apply composed.led (composed.mark (by decide)) _ written
  intro attr kinds own
  cases own with
  | plain => exact composed.brackets (composed.name _)
  | @applied name args span kinds list =>
      have applied := composed.parens (composed.comma_list composed.ident list)
      have whole := composed.brackets (composed.cons (composed.name name.name) applied)
      rwa [List.cons_append, List.cons_append, List.append_assoc] at whole

theorem receiver (receiver : Receiver) (kinds : List TokenKind)
    (written : receiver.Written kinds) : good kinds := by
  have self : good [.keyword .self] := composed.word (by decide)
  have colon : good [.mark .colon] := composed.mark (by decide)
  cases written with
  | snapshot own =>
      have atSign : good [.mark .atSign] := composed.mark (by decide)
      have snapshot := composed.cons atSign (composed.type _ _ own)
      exact composed.cons self (composed.cons colon snapshot)
  | reference own _ =>
      exact composed.cons (composed.word (by decide))
        (composed.cons self (composed.cons colon (composed.type _ _ own)))

/-- A method without the semicolon at its end. -/
theorem method {method : MethodDecl} {kinds : List TokenKind} (written : method.Written kinds) :
    ∃ head, kinds = head ++ [.mark .semicolon] ∧ good head := by
  rcases written with ⟨receiver, params, ret, received, listed, returned, rfl⟩
  have self := composed.receiver _ _ received
  have others := composed.led (composed.mark (by decide)) composed.param listed
  have result := composed.optional (composed.mark (by decide)) composed.type returned
  have inParens := composed.parens (composed.append self others)
  refine ⟨.keyword .fn :: .identifier method.name.name ::
    (.mark .leftParen :: (receiver ++ params ++ [.mark .rightParen]) ++ ret), by simp, ?_⟩
  exact composed.cons (composed.word (by decide)) (composed.cons (composed.name _)
    (composed.append inParens result))

theorem member (member : MemberDecl) (kinds : List TokenKind) (written : member.Written kinds) :
    good kinds := by
  rcases written with ⟨attributes, type, led, own, rfl⟩
  exact composed.append (composed.attributes led) (composed.cons (composed.name _)
    (composed.cons (composed.mark (by decide)) (composed.type _ _ own)))

theorem variant (variant : VariantDecl) (kinds : List TokenKind)
    (written : variant.Written kinds) : good kinds := by
  rcases written with ⟨attributes, payload, led, own, rfl⟩
  exact composed.append (composed.attributes led) (composed.cons (composed.name _)
    (composed.optional (composed.mark (by decide)) composed.type own))

end ComposedWhole

/-! ### Inner kinds -/

/-- Kinds that can stand within a block: neither a word that opens another one, nor the end of the
input. -/
def Inner (kind : TokenKind) : Prop :=
  kind ∉ [TokenKind.keyword .storage, .keyword .event, .keyword .interface, .keyword .impl,
    .endOfFile]

instance (kind : TokenKind) : Decidable (Inner kind) :=
  inferInstanceAs (Decidable (¬_))

theorem inner_composed : ComposedWhole fun kinds => ∀ kind ∈ kinds, Inner kind := by
  have single {only : TokenKind} (here : Inner only) : ∀ kind ∈ [only], Inner kind :=
    List.forall_mem_singleton.mpr here
  have enclosed {opens closes : Mark} (first : Inner (.mark opens)) (last : Inner (.mark closes))
      {kinds : List TokenKind} (inner : ∀ kind ∈ kinds, Inner kind) :
      ∀ kind ∈ .mark opens :: (kinds ++ [.mark closes]), Inner kind :=
    List.forall_mem_cons.mpr ⟨first, List.forall_mem_append.mpr ⟨inner, single last⟩⟩
  have words : ∀ word ∈ [Keyword.fn, .self, .ref], Inner (.keyword word) := by decide
  have plain : Composed fun kinds => ∀ kind ∈ kinds, Inner kind := by
    constructor
    · exact nofun
    · exact fun first second => List.forall_mem_append.mpr ⟨first, second⟩
    · intro name
      apply single
      simp [Inner]
    · intro sign _
      apply single
      simp [Inner]
    · exact enclosed (by decide) (by decide)
  constructor
  · exact plain
  · exact fun listed => single (words _ listed)
  · exact enclosed (by decide) (by decide)

section Blocks

variable {kinds : List TokenKind}

theorem inner_braced {Node : Type} {written : Node → List TokenKind → Prop} {node : Node}
    (inner : ∀ kinds, written node kinds → ∀ kind ∈ kinds, Inner kind)
    (braced : Braced written node kinds) : ∀ kind ∈ kinds, Inner kind := by
  rcases braced with ⟨body, own, rfl⟩
  rw [List.forall_mem_cons, List.forall_mem_append, List.forall_mem_singleton]
  exact ⟨by decide, inner body own, by decide⟩

theorem inner_methods {methods : List MethodDecl} (written : MethodsWritten methods kinds) :
    ∀ kind ∈ kinds, Inner kind := by
  apply inner_braced _ written
  intro body sequence
  clear written
  induction sequence with
  | nil => exact nofun
  | cons own _ ih =>
      rcases inner_composed.method own with ⟨head, rfl, inner⟩
      rw [List.forall_mem_append, List.forall_mem_append, List.forall_mem_singleton]
      exact ⟨⟨inner, by decide⟩, ih⟩

theorem inner_storage {members : List MemberDecl}
    (written : Braced (CommaList MemberDecl.Written) members kinds) : ∀ kind ∈ kinds, Inner kind :=
  inner_braced (fun _ => inner_composed.comma_list inner_composed.member) written

theorem inner_event {variants : List VariantDecl}
    (written : Braced (CommaList VariantDecl.Written) variants kinds) :
    ∀ kind ∈ kinds, Inner kind :=
  inner_braced (fun _ => inner_composed.comma_list inner_composed.variant) written

end Blocks

end Composer
